/-
`Endpoint::read` and the loop of `Endpoint::readBytes`, in front of any service: what they ask
for, how a range that cannot be answered is tried again, and what they put in the buffer.
-/
import GEDS.S3Access

namespace GEDS

/-- `Aws::S3::S3Error`, as far as it is looked at. -/
structure S3Error where
  exceptionName : Bytes
  message : Bytes

/-- A status that is not OK: what `convertS3Error` makes of an error, or a text. -/
inductive S3Failure where
  | converted (error : S3Error) (action key : Bytes)
  | internal (message : Bytes)

/-- `"bytes=" + first + "-" + last` -/
structure ByteRange where
  first : Option UInt64
  last : Option UInt64

/-- `GetObjectResult` -/
structure GetObjectResult where
  contentLength : UInt64
  body : Bytes

/-- What `_s3Client` answers. -/
structure ObjectService where
  getObject : ObjectID → Option ByteRange → Except S3Error GetObjectResult
  headObject : ObjectID → Except S3Error UInt64

/-- The service has an object with this content: it answers a range by the bytes of it that
there are, and by `InvalidRange` if there are none. -/
structure ObjectService.Serves (service : ObjectService) (id : ObjectID) (content : Bytes) :
    Prop where
  inside : ∀ first last : UInt64, first ≤ last → first.toNat < content.length →
    ∃ result, service.getObject id (some ⟨some first, some last⟩) = .ok result ∧
      result.body = slice content first.toNat (last.toNat + 1 - first.toNat) ∧
      result.contentLength.toNat = result.body.length
  behind : ∀ first last : UInt64, first ≤ last → content.length ≤ first.toNat →
    ∃ error, service.getObject id (some ⟨some first, some last⟩) = .error error ∧
      error.exceptionName = text "InvalidRange"
  head : ∃ size, service.headObject id = .ok size ∧ size.toNat = content.length

namespace ObjectService

variable (service : ObjectService) (id : ObjectID)

/-- `Endpoint::fileStatus`, by the size. -/
def fileSize : Except S3Failure UInt64 :=
  match service.headObject id with
  | .error error => .error (.converted error (text "file status") id.key)
  | .ok contentLength => .ok contentLength

/-- `Endpoint::read`: the count and what is written to the stream.  `again` is the call with
`retry`, which has no call of its own. -/
def readAttempt (again : Option (UInt64 → Except S3Failure (UInt64 × Bytes)))
    (position length : Option UInt64) : Except S3Failure (UInt64 × Bytes) :=
  if length = some 0 then .ok (0, [])
  else
    let startPos := position.getD 0
    let endPos := startPos + length.getD 0 - 1
    let range : Option ByteRange :=
      if position.isSome || length.isSome then
        some ⟨position.map fun _ => startPos, length.map fun _ => endPos⟩
      else none
    match service.getObject id range with
    | .ok result =>
        let count := match length with
          | some length => min length result.contentLength
          | none => result.contentLength
        .ok (count, result.body.take count.toNat)
    | .error error =>
        match again with
        | none => .error (.converted error (text "readBytes") id.key)
        | some again =>
            if error.exceptionName ≠ text "InvalidRange" then
              .error (.converted error (text "readBytes") id.key)
            else
              match service.fileSize id with
              | .error failure => .error failure
              | .ok size =>
                  if position.any fun position => decide (size ≤ position) then .ok (0, [])
                  else
                    match length with
                    | none =>
                        .error (.internal (text "Unable to read " ++ id.bucket ++ text "/" ++
                          id.key ++ text ":" ++ error.message))
                    | some length =>
                        let newCount := min (position.getD 0 + length) size - position.getD 0
                        if newCount = 0 then .ok (0, []) else again newCount

def read (position length : Option UInt64) : Except S3Failure (UInt64 × Bytes) :=
  service.readAttempt id
    (some fun newCount => service.readAttempt id none position (some newCount)) position length

/-- The stream on the buffer from `count` on. -/
def copyTo (buffer : Bytes) (count : Nat) (written : Bytes) : Bytes :=
  buffer.take count ++ written ++ buffer.drop (count + written.length)

/-- The loop of `Endpoint::readBytes`; `none` if `fuel` rounds do not end it. -/
def readRounds (position length : UInt64) :
    Nat → UInt64 → Bytes → Option (Except S3Failure UInt64 × Bytes)
  | 0, _, _ => none
  | fuel + 1, count, buffer =>
      if count < length then
        let request := min (1024 * 1024 * 1024) (length - count)
        match service.read id (some (position + count)) (some request) with
        | .error failure => some (.error failure, buffer)
        | .ok (read, written) =>
            let buffer := copyTo buffer count.toNat written
            if read = 0 then some (.ok count, buffer)
            else readRounds position length fuel (count + read) buffer
      else some (.ok count, buffer)

/-- `Endpoint::readBytes`: the result and the buffer. -/
def readBytes (buffer : Bytes) (position length : UInt64) :
    Option (Except S3Failure UInt64 × Bytes) :=
  service.readRounds id position length (length.toNat + 1) 0 buffer

variable {service id} {content : Bytes}

/-- A read in one request. -/
theorem Serves.read (hserves : service.Serves id content) {position length : UInt64}
    (hlength : length ≠ 0) (hsum : position.toNat + length.toNat < 2 ^ 64) :
    ∃ count, service.read id (some position) (some length) =
        .ok (count, slice content position.toNat length.toNat) ∧
      count.toNat = min length.toNat (content.length - position.toNat) := by
  have hend := toNat_endPos_of_le hlength hsum.le
  have hpositive := toNat_pos_of_ne_zero hlength
  have horder : position ≤ position + length - 1 := by
    rw [UInt64.le_iff_toNat_le]
    omega
  rcases Nat.lt_or_ge position.toNat content.length with hinside | hbehind
  · obtain ⟨result, hget, hbody, hcontentLength⟩ := hserves.inside _ _ horder hinside
    rw [hend, Nat.add_sub_cancel_left] at hbody
    have hcount : (min length result.contentLength).toNat =
        min length.toNat (content.length - position.toNat) := by
      rw [UInt64.toNat_min, hcontentLength, hbody, length_slice]
      omega
    refine ⟨min length result.contentLength, ?_, hcount⟩
    have hwhole : (slice content position.toNat length.toNat).take
        (min length.toNat (content.length - position.toNat)) =
          slice content position.toNat length.toNat :=
      List.take_of_length_le (le_of_eq length_slice)
    simp only [ObjectService.read, readAttempt, Option.some.injEq, hlength, ↓reduceIte,
      Option.isSome_some, Bool.or_self, Option.map_some, Option.getD_some, hget, hcount, hbody,
      hwhole]
  · obtain ⟨error, hget, hname⟩ := hserves.behind _ _ horder hbehind
    obtain ⟨size, hhead, hsize⟩ := hserves.head
    have hsizeLe : size ≤ position := by
      rw [UInt64.le_iff_toNat_le, hsize]
      exact hbehind
    refine ⟨0, ?_, ?_⟩
    · simp only [ObjectService.read, readAttempt, Option.some.injEq, hlength, ↓reduceIte,
        Option.isSome_some, Bool.or_self, Option.map_some, Option.getD_some, hget, hname, ne_eq,
        not_true_eq_false, fileSize, hhead, Option.any_some, hsizeLe, decide_true,
        slice_eq_nil hbehind]
    · rw [Nat.sub_eq_zero_of_le hbehind]
      exact (Nat.min_zero _).symm

/-- What the loop has put in the buffer after `count` bytes. -/
def filledTo (content buffer : Bytes) (position count : Nat) : Bytes :=
  slice content position count ++ buffer.drop count

theorem take_filledTo {buffer : Bytes} {position count : Nat}
    (hcount : count ≤ content.length - position) :
    (filledTo content buffer position count).take count = slice content position count :=
  List.take_left' (by rw [length_slice, Nat.min_eq_left hcount])

theorem drop_filledTo {buffer : Bytes} {position count : Nat}
    (hcount : count ≤ content.length - position) :
    (filledTo content buffer position count).drop count = buffer.drop count :=
  List.drop_left' (by rw [length_slice, Nat.min_eq_left hcount])

theorem copyTo_filledTo {buffer : Bytes} {position count more : Nat}
    (hcount : count ≤ content.length - position) :
    copyTo (filledTo content buffer position count) count
        (slice content (position + count) more) =
      filledTo content buffer position
        (count + min more (content.length - (position + count))) := by
  rw [copyTo, take_filledTo hcount, length_slice, ← List.drop_drop, drop_filledTo hcount,
    List.drop_drop, filledTo, ← slice_append, slice_min_length]

/-- The rounds from `count` bytes on. -/
theorem Serves.readRounds (hserves : service.Serves id content) {position length : UInt64}
    (hsum : position.toNat + length.toNat < 2 ^ 64) (buffer : Bytes) {fuel : Nat}
    {count : UInt64} (hcount : count.toNat ≤ min length.toNat (content.length - position.toNat))
    (hfuel : length.toNat < count.toNat + fuel) :
    ∃ n, service.readRounds id position length fuel count
        (filledTo content buffer position.toNat count.toNat) =
          some (.ok n, filledTo content buffer position.toNat n.toNat) ∧
      n.toNat = min length.toNat (content.length - position.toNat) := by
  induction fuel generalizing count with
  | zero => omega
  | succ fuel ih =>
      rw [ObjectService.readRounds]
      split_ifs with hmore
      · rw [UInt64.lt_iff_toNat_lt] at hmore
        have hpage : (1024 * 1024 * 1024 : UInt64).toNat = 2 ^ 30 := rfl
        have hrequest : (min (1024 * 1024 * 1024) (length - count)).toNat =
            min (2 ^ 30) (length.toNat - count.toNat) := by
          rw [UInt64.toNat_min, hpage,
            UInt64.toNat_sub_of_le _ _ (UInt64.le_iff_toNat_le.2 (by omega))]
        have hplace : (position + count).toNat = position.toNat + count.toNat :=
          toNat_add_of_lt (by omega)
        dsimp only
        generalize min (1024 * 1024 * 1024) (length - count) = request at hrequest ⊢
        have hnonzero : request ≠ 0 := by
          rintro rfl
          rw [UInt64.toNat_zero] at hrequest
          omega
        obtain ⟨taken, hread, htaken⟩ := @hserves.read _ _ _ (position + count) request hnonzero
          (by omega)
        rw [hplace] at hread htaken
        simp only [hread]
        rw [copyTo_filledTo (by omega), ← htaken]
        split_ifs with hnothing
        · subst hnothing
          rw [UInt64.toNat_zero] at htaken
          refine ⟨count, by rw [UInt64.toNat_zero, Nat.add_zero], by omega⟩
        · have hpositive := toNat_pos_of_ne_zero hnothing
          have hadd : (count + taken).toNat = count.toNat + taken.toNat :=
            toNat_add_of_lt (by omega)
          have hrest := @ih (count + taken) (by omega) (by omega)
          rw [hadd] at hrest
          exact hrest
      · rw [UInt64.lt_iff_toNat_lt] at hmore
        exact ⟨count, rfl, by omega⟩

theorem Serves.readBytes (hserves : service.Serves id content) {position length : UInt64}
    (hsum : position.toNat + length.toNat < 2 ^ 64) (buffer : Bytes) :
    ∃ n, service.readBytes id buffer position length =
        some (.ok n, filledTo content buffer position.toNat n.toNat) ∧
      n.toNat = min length.toNat (content.length - position.toNat) := by
  have hstart : filledTo content buffer position.toNat (0 : UInt64).toNat = buffer := by
    simp [filledTo]
  obtain ⟨n, hrounds, hn⟩ := @hserves.readRounds _ _ _ _ _ hsum buffer (length.toNat + 1) 0
    (Nat.zero_le _) (by simp)
  rw [hstart] at hrounds
  exact ⟨n, hrounds, hn⟩

/-- `Endpoint::readBytes` returns how much of the range the object has, and that much of the
buffer is the range. -/
theorem readBytes_eq_range (service : ObjectService) (id : ObjectID) (content : Bytes)
    (hserves : service.Serves id content) (buffer : Bytes) (position length : UInt64)
    (hsum : position.toNat + length.toNat < 2 ^ 64) :
    ∃ n after, service.readBytes id buffer position length = some (.ok n, after) ∧
      n.toNat = min length.toNat (content.length - position.toNat) ∧
      after.take n.toNat = slice content position.toNat n.toNat ∧
      after.drop n.toNat = buffer.drop n.toNat := by
  obtain ⟨n, hread, hn⟩ := hserves.readBytes hsum buffer
  have hle : n.toNat ≤ content.length - position.toNat := by omega
  exact ⟨n, _, hread, hn, take_filledTo hle, drop_filledTo hle⟩

end ObjectService

namespace Endpoint

/-- `InvalidRange`, as the service reports it. -/
def invalidRange : S3Error := ⟨text "InvalidRange", text "The requested range cannot be satisfied."⟩

/-- The service behind an endpoint that has these objects. -/
def service (endpoint : Endpoint) : ObjectService where
  getObject id range :=
    match endpoint.objects id with
    | none => .error ⟨text "NoSuchKey", text "The specified key does not exist."⟩
    | some object =>
        let whole : GetObjectResult := ⟨object.size, object.content⟩
        match range with
        | some ⟨some first, some last⟩ =>
            match object.getRange first last with
            | none => .error invalidRange
            | some body => .ok ⟨UInt64.ofNat body.length, body⟩
        | _ => .ok whole
  headObject id :=
    match endpoint.objects id with
    | none => .error ⟨text "NoSuchKey", text "The specified key does not exist."⟩
    | some object => .ok object.size

variable {endpoint : Endpoint} {id : ObjectID} {object : StoredObject}

theorem service_serves (hobject : endpoint.objects id = some object) :
    endpoint.service.Serves id object.content := by
  have hbounded := object.bounded
  refine ⟨fun first last horder hinside => ?_, fun first last horder hbehind => ?_,
    object.size, ?_, object.toNat_size⟩
  · have hrange : object.getRange first last =
        some (slice object.content first.toNat (last.toNat + 1 - first.toNat)) := by
      rw [StoredObject.getRange, if_neg (UInt64.not_lt.2 horder), if_neg (Nat.not_le.2 hinside)]
    have hshort : (slice object.content first.toNat
        (last.toNat + 1 - first.toNat)).length < 2 ^ 64 := by
      rw [length_slice]
      omega
    generalize slice object.content first.toNat (last.toNat + 1 - first.toNat) = body at hrange hshort
    refine ⟨⟨UInt64.ofNat body.length, body⟩, ?_, rfl, ?_⟩
    · simp [service, hobject, hrange]
    · rw [UInt64.toNat_ofNat']
      exact Nat.mod_eq_of_lt hshort
  · have hrange : object.getRange first last = none := by
      rw [StoredObject.getRange, if_neg (UInt64.not_lt.2 horder), if_pos hbehind]
    exact ⟨invalidRange, by simp [service, hobject, hrange], rfl⟩
  · simp [service, hobject]

/-- Every object of it has three bytes. -/
def threeBytes : Endpoint := ⟨fun _ => some ⟨[1, 2, 3], by decide⟩⟩

end Endpoint

/-- A read across the end of an object of three bytes, into a buffer of five. -/
theorem ObjectService.readBytes_eq_range_three :
    ∃ n after, Endpoint.threeBytes.service.readBytes ⟨text "bucket", text "key"⟩
        [0, 0, 0, 0, 0] 1 5 = some (.ok n, after) ∧
      n.toNat = 2 ∧ after.take n.toNat = [2, 3] ∧ after.drop n.toNat = [0, 0, 0] := by
  have hserves : Endpoint.threeBytes.service.Serves ⟨text "bucket", text "key"⟩ [1, 2, 3] :=
    @Endpoint.service_serves Endpoint.threeBytes _ ⟨[1, 2, 3], by decide⟩ rfl
  obtain ⟨n, after, hread, hn, htake, hdrop⟩ := readBytes_eq_range Endpoint.threeBytes.service
    ⟨text "bucket", text "key"⟩ [1, 2, 3] hserves [0, 0, 0, 0, 0] 1 5 (by decide)
  have hcount : n.toNat = 2 := hn
  rw [hcount] at htake hdrop
  exact ⟨n, after, hread, hcount, by rw [hcount, htake]; rfl, by rw [hcount, hdrop]; rfl⟩

end GEDS
