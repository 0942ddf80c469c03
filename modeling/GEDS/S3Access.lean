/-
Two ways to read an object of S3: `GEDS::reopenFileHandle` opens its handle, or a
cache of blocks in front of the handle.  Requests to the object store and to the
disk succeed, and what is in the object store stays as it is.
-/
import GEDS.S3Location

namespace GEDS

open Status

/-- `geds::s3::Endpoint`: the objects that it serves. -/
structure Endpoint where
  objects : ObjectID → Option StoredObject

namespace Endpoint

variable (endpoint : Endpoint) (id : ObjectID)

/-- `convertS3Error` for an object that is not there. -/
def missing (action key : Bytes) : FailedStatus :=
  ⟨notFoundError (text "Unable to " ++ action ++ text ": the " ++ key ++ text " does not exist!"),
    rfl⟩

/-- `Endpoint::fileStatus` -/
def fileStatus : Except Status GEDSFileStatus :=
  match endpoint.objects id with
  | none => .error (missing (text "file status") id.key).val
  | some object => .ok ⟨id.key, object.size, false⟩

/-- The object of a request that is answered. -/
def store : StoredObject := (endpoint.objects id).getD ⟨[], Nat.two_pow_pos 63⟩

/-- How `GetObject` fails. -/
def fault : Option FailedStatus :=
  match endpoint.objects id with
  | none => some (missing (text "readBytes") id.key)
  | some _ => none

/-- `Endpoint::read` -/
def read (position length : UInt64) : Except Status Bytes :=
  (endpoint.store id).read position length (endpoint.fault id)

/-- The loop of `Endpoint::readBytes`; `fuel` bounds the number of rounds. -/
def readRounds (position length : UInt64) : Nat → UInt64 → Except Status Bytes
  | 0, _ => .ok []
  | fuel + 1, count =>
      if count < length then
        let request := min (1024 * 1024 * 1024) (length - count)
        match endpoint.read id (position + count) request with
        | .error status => .error status
        | .ok bytes =>
            if bytes = [] then .ok []
            else
              (readRounds position length fuel (count + UInt64.ofNat bytes.length)).map
                fun more => bytes ++ more
      else .ok []

/-- `Endpoint::readBytes`; every round but the last takes a byte, so the length is fuel
enough. -/
def readBytes (position length : UInt64) : Except Status Bytes :=
  endpoint.readRounds id position length (length.toNat + 1) 0

end Endpoint

/-- A `GEDSS3FileHandle` with its endpoint and `_size`. -/
structure S3Reader where
  handle : S3FileHandle
  endpoint : Endpoint
  size : UInt64

/-- `GEDSS3FileHandle::factory` for an object; `endpoints` is `getS3Endpoint`.  The
constructor asks for the status again, and gets the same answer. -/
def S3FileHandle.factory (endpoints : Bytes → Except Status Endpoint) (object : Object) :
    Except Status S3Reader :=
  match S3FileHandle.parseLocation object.info.location with
  | .error status => .error status
  | .ok location =>
      match endpoints location.bucket with
      | .error status => .error status
      | .ok endpoint =>
          match endpoint.fileStatus location with
          | .error status => .error status
          | .ok found => .ok ⟨⟨object.id, location⟩, endpoint, found.size⟩

/-- A block of the cache: a file of its own. -/
abbrev CacheBlock := LocalFile × FileSystem Bytes

namespace S3Reader

variable (config : CacheConfig) (reader : S3Reader)

/-- `GEDSS3FileHandle::readBytes`; the state is `_isValid`. -/
def readBytes (position length : UInt64) (isValid : Bool) : Except Status Bytes × Bool :=
  if isValid = false then (.error (notFoundError (text "The file is no longer valid!")), isValid)
  else
    match reader.endpoint.readBytes reader.handle.location position length with
    | .error status => (.error status, false)
    | .ok bytes => (.ok bytes, isValid)

/-- `openBlock`; a block that could not be downloaded is there, too. -/
def openBlock (idx : UInt64) (blocks : UInt64 → Option CacheBlock) :
    Except Status CacheBlock × (UInt64 → Option CacheBlock) :=
  match blocks idx with
  | some block => (.ok block, blocks)
  | none =>
      let path := getPath reader.handle.id.bucket (cacheKey reader.handle.id.key idx)
      let newFile := FileSystem.empty.openFile path true
      let copied := reader.handle.downloadRange reader.endpoint.store ⟨path, newFile.1, 0⟩
        newFile.2 (config.cacheBlockSize * idx) config.cacheBlockSize 0
        (reader.endpoint.fault reader.handle.id) fun _ => none
      (copied.1.map fun _ => copied.2, Function.update blocks idx (some copied.2))

/-- One block in `GEDSCachedFileHandle::readBytes`, which is purged and opened again if it
cannot be read. -/
def readBlock (idx offset count : UInt64) (blocks : UInt64 → Option CacheBlock) :
    Except Status Bytes × (UInt64 → Option CacheBlock) :=
  let opened := reader.openBlock config idx blocks
  match opened.1 with
  | .error status => (.error status, opened.2)
  | .ok block =>
      match block.1.readBytes block.2 offset count with
      | .ok bytes => (.ok bytes, opened.2)
      | .error _ =>
          let again := reader.openBlock config idx (Function.update opened.2 idx none)
          match again.1 with
          | .error status => (.error status, again.2)
          | .ok block => (block.1.readBytes block.2 offset count, again.2)

/-- `GEDSCachedFileHandle::readBytes` in front of the handle; the state is the blocks. -/
def readCached (position length : UInt64) (blocks : UInt64 → Option CacheBlock) :
    Except Status Bytes × (UInt64 → Option CacheBlock) :=
  CachedFileHandle.readBytes config (reader.readBlock config) reader.size position length blocks

end S3Reader

/-- One read after the other. -/
def readAll {σ : Type} (read : UInt64 → UInt64 → σ → Except Status Bytes × σ) :
    List (UInt64 × UInt64) → σ → List (Except Status Bytes)
  | [], _ => []
  | (position, length) :: rest, s =>
      (read position length s).1 :: readAll read rest (read position length s).2

/-- The branch of `GEDS::reopenFileHandle` for locations in S3, and reads from the file
that was opened.  Nothing is in the cache at first. -/
def openAndRead (cacheObjectsFromS3 : Bool) (config : CacheConfig)
    (endpoints : Bytes → Except Status Endpoint) (object : Object)
    (requests : List (UInt64 × UInt64)) : Except Status (List (Except Status Bytes)) :=
  (S3FileHandle.factory endpoints object).map fun reader =>
    if cacheObjectsFromS3 then readAll (reader.readCached config) requests fun _ => none
    else readAll reader.readBytes requests true

/-- The cache changes nothing about what is read. -/
def SameReads (config : CacheConfig) (endpoints : Bytes → Except Status Endpoint)
    (object : Object) (requests : List (UInt64 × UInt64)) : Prop :=
  openAndRead true config endpoints object requests =
    openAndRead false config endpoints object requests

namespace LocalFile

/-- The loop of `write`, behind the bytes of a file and without a fault. -/
theorem Holds.writeRounds {faults : Nat → Option WriteFault}
    (hfaults : ∀ round, faults round = none) {position length : UInt64} {fuel : Nat} (round : Nat)
    {n : UInt64} {content stream : Bytes} {file : LocalFile} {files : FileSystem Bytes}
    (hholds : file.Holds files content) (hfuel : stream.length < fuel)
    (hlength : length.toNat = n.toNat + stream.length)
    (hplace : position + n = UInt64.ofNat content.length)
    (hfits : content.length + stream.length < 2 ^ 63) :
    (writeRounds faults position length fuel round n stream file files).2.1.Holds
      (writeRounds faults position length fuel round n stream file files).2.2
      (content ++ stream) := by
  induction fuel generalizing round n content stream file files with
  | zero => exact absurd hfuel (Nat.not_lt_zero _)
  | succ fuel ih =>
      have htaken : (stream.take (min 4096 stream.length)).length = min 4096 stream.length := by
        rw [List.length_take]
        omega
      obtain ⟨hok, hwritten⟩ := @Holds.writeBytes file files content hholds
        (stream.take (min 4096 stream.length)) (by omega)
      rw [LocalFile.writeRounds, buffer_eq hlength, hfaults round, hplace]
      rw [if_neg (by rw [hok]; decide)]
      split_ifs with hempty
      · have hnothing : stream = [] := by
          rw [← List.length_eq_zero_iff]
          rw [← List.length_eq_zero_iff, htaken] at hempty
          omega
        subst hnothing
        exact hwritten
      · have hcount : (n + UInt64.ofNat (min 4096 stream.length)).toNat =
            n.toNat + min 4096 stream.length := by
          have hlt := length.toNat_lt
          exact toNat_add_ofNat (by omega)
        have hpositive := List.length_pos_iff.2 hempty
        have hdropped : (stream.drop (min 4096 stream.length)).length =
            stream.length - min 4096 stream.length := List.length_drop
        rw [htaken]
        have hrest := @ih (round + 1) (n + UInt64.ofNat (min 4096 stream.length)) _
          (stream.drop (min 4096 stream.length)) _ _ hwritten (by omega) (by rw [hcount]; omega)
          (by rw [← UInt64.add_assoc, hplace, ← UInt64.ofNat_add, List.length_append, htaken])
          (by rw [List.length_append, htaken]; omega)
        rw [List.append_assoc, List.take_append_drop] at hrest
        exact hrest

/-- A write to an empty file. -/
theorem Holds.write {faults : Nat → Option WriteFault} (hfaults : ∀ round, faults round = none)
    {stream : Bytes} {file : LocalFile} {files : FileSystem Bytes} (hholds : file.Holds files [])
    (hbounded : stream.length < 2 ^ 63) :
    (file.write files stream 0 (some (UInt64.ofNat stream.length)) faults).2.1.Holds
      (file.write files stream 0 (some (UInt64.ofNat stream.length)) faults).2.2 stream := by
  have hlength : (UInt64.ofNat stream.length).toNat = (0 : UInt64).toNat + stream.length := by
    rw [UInt64.toNat_ofNat', UInt64.toNat_zero]
    omega
  rw [LocalFile.write, Option.getD_some]
  exact hholds.writeRounds hfaults 0 (Nat.lt_succ_self _) hlength rfl
    (by rw [List.length_nil]; omega)

end LocalFile

namespace Endpoint

variable {endpoint : Endpoint} {id : ObjectID} {object : StoredObject}

theorem read_of_some (hobject : endpoint.objects id = some object) (position length : UInt64) :
    endpoint.read id position length = object.read position length none := by
  simp only [read, store, fault, hobject, Option.getD_some]

/-- The loop of `readBytes` from a position inside of the object on. -/
theorem readRounds_eq (hobject : endpoint.objects id = some object) {position length : UInt64}
    {fuel : Nat} {count : UInt64}
    (hinside : position.toNat + count.toNat ≤ object.content.length)
    (hfuel : length.toNat < count.toNat + fuel) :
    endpoint.readRounds id position length fuel count =
      .ok (slice object.content (position.toNat + count.toNat)
        (length.toNat - count.toNat)) := by
  have hbounded := object.bounded
  induction fuel generalizing count with
  | zero =>
      have hnothing : length.toNat - count.toNat = 0 := by omega
      rw [readRounds, hnothing, slice_zero]
  | succ fuel ih =>
      have hplace : (position + count).toNat = position.toNat + count.toNat :=
        toNat_add_of_lt (by omega)
      rw [readRounds]
      split_ifs with hmore
      · rw [UInt64.lt_iff_toNat_lt] at hmore
        have hpage : (1024 * 1024 * 1024 : UInt64).toNat = 2 ^ 30 := rfl
        have hrequest : (min (1024 * 1024 * 1024) (length - count)).toNat =
            min (2 ^ 30) (length.toNat - count.toNat) := by
          rw [UInt64.toNat_min, hpage,
            UInt64.toNat_sub_of_le _ _ (UInt64.le_iff_toNat_le.2 (by omega))]
        dsimp only
        generalize min (1024 * 1024 * 1024) (length - count) = request at hrequest ⊢
        rw [read_of_some hobject, StoredObject.read_eq (by omega), hplace]
        dsimp only
        have hlength := @length_slice object.content (position.toNat + count.toNat) request.toNat
        generalize hpiece : slice object.content (position.toNat + count.toNat) request.toNat =
          piece at hlength ⊢
        split_ifs with hempty
        · have hend : object.content.length ≤ position.toNat + count.toNat := by
            rw [hempty, List.length_nil] at hlength
            omega
          rw [slice_eq_nil hend]
        · have hpositive := List.length_pos_iff.2 hempty
          have hcount : (count + UInt64.ofNat piece.length).toNat =
              count.toNat + piece.length :=
            toNat_add_ofNat (by omega)
          have hrest := @ih (count + UInt64.ofNat piece.length) (by omega) (by omega)
          have hexact : piece = slice object.content (position.toNat + count.toNat)
              piece.length := by
            rw [hlength, slice_min_length, hpiece]
          have htogether := @slice_append object.content (position.toNat + count.toNat)
            piece.length (length.toNat - (count.toNat + piece.length))
          rw [← hexact] at htogether
          rw [hcount, ← Nat.add_assoc] at hrest
          rw [hrest, Except.map, htogether]
          congr 2
          omega
      · have hnothing : length.toNat - count.toNat = 0 := by
          rw [UInt64.lt_iff_toNat_lt] at hmore
          omega
        rw [hnothing, slice_zero]

/-- The `Range` header of the first request of a read does not wrap. -/
def FitsHeader (position length : UInt64) : Prop :=
  position.toNat + min (2 ^ 30) length.toNat ≤ 2 ^ 64

theorem toNat_firstRequest (length : UInt64) :
    (min (1024 * 1024 * 1024) (length - 0)).toNat = min (2 ^ 30) length.toNat := by
  have hpage : (1024 * 1024 * 1024 : UInt64).toNat = 2 ^ 30 := rfl
  rw [UInt64.toNat_min, hpage, UInt64.sub_zero]

/-- Without a header that wraps `Endpoint::readBytes` gives the range, as far as the object has
it. -/
theorem readBytes_eq (hobject : endpoint.objects id = some object) {position length : UInt64}
    (hfits : object.content = [] ∨ FitsHeader position length) :
    endpoint.readBytes id position length =
      .ok (slice object.content position.toNat length.toNat) := by
  have hzero : (0 : UInt64).toNat = 0 := rfl
  rw [readBytes]
  by_cases hinside : position.toNat ≤ object.content.length
  · rw [readRounds_eq hobject (by omega) (by omega), hzero, Nat.add_zero, Nat.sub_zero]
  · have hbehind : object.content.length ≤ position.toNat := by omega
    have hnothing : object.read position (min (1024 * 1024 * 1024) (length - 0)) none = .ok [] := by
      rcases hfits with hempty | hfits
      · exact StoredObject.read_nil hempty _ _
      · rw [FitsHeader, ← toNat_firstRequest] at hfits
        rw [StoredObject.read_eq hfits, slice_eq_nil hbehind]
    rw [readRounds, UInt64.add_zero, slice_eq_nil hbehind]
    split_ifs with hmore
    · dsimp only
      rw [read_of_some hobject, hnothing]
      rfl
    · rfl

theorem exists_readRounds (hobject : endpoint.objects id = some object)
    (position length : UInt64) (fuel : Nat) (count : UInt64) :
    ∃ bytes, endpoint.readRounds id position length fuel count = .ok bytes := by
  induction fuel generalizing count with
  | zero => exact ⟨[], rfl⟩
  | succ fuel ih =>
      rw [readRounds]
      split_ifs
      · obtain ⟨piece, hpiece⟩ := @StoredObject.exists_read object (position + count)
          (min (1024 * 1024 * 1024) (length - count))
        obtain ⟨more, hmore⟩ := ih (count + UInt64.ofNat piece.length)
        dsimp only
        rw [read_of_some hobject, hpiece]
        dsimp only
        split_ifs
        · exact ⟨[], rfl⟩
        · exact ⟨piece ++ more, by rw [hmore, Except.map]⟩
      · exact ⟨[], rfl⟩

/-- Behind a header that wraps the read returns bytes, whatever the position. -/
theorem readBytes_of_wrap (hobject : endpoint.objects id = some object)
    (hcontent : object.content ≠ []) {position length : UInt64}
    (hwrap : ¬ FitsHeader position length) :
    ∃ bytes, bytes ≠ [] ∧ endpoint.readBytes id position length = .ok bytes := by
  have hwrap : 2 ^ 64 < position.toNat + min (2 ^ 30) length.toNat := Nat.not_le.1 hwrap
  have hposition := position.toNat_lt
  have hrequest := toNat_firstRequest length
  have hmore : (0 : UInt64) < length := by
    rw [UInt64.lt_iff_toNat_lt, UInt64.toNat_zero]
    omega
  rw [readBytes, readRounds, if_pos hmore, UInt64.add_zero]
  dsimp only
  generalize min (1024 * 1024 * 1024) (length - 0) = request at hrequest ⊢
  rw [read_of_some hobject, StoredObject.read_of_wrap (by omega)]
  have hpiece : object.content.take request.toNat ≠ [] := by
    rw [← List.length_pos_iff, List.length_take]
    have hpositive := List.length_pos_iff.2 hcontent
    omega
  obtain ⟨more, hmore⟩ := exists_readRounds hobject position length length.toNat
    (0 + UInt64.ofNat (object.content.take request.toNat).length)
  dsimp only
  rw [if_neg hpiece, hmore, Except.map]
  exact ⟨_, List.append_ne_nil_of_left_ne_nil hpiece more, rfl⟩

end Endpoint

namespace CachedFileHandle

section Loop

variable {σ : Type} {config : CacheConfig}
  {readBlock : UInt64 → UInt64 → UInt64 → σ → Except Status Bytes × σ} {Inv : σ → Prop}

/-- The loop succeeds if all positions are below the highest one. -/
theorem readBlocks_succeeds
    (hkept : ∀ idx offset count s, Inv s → Inv (readBlock idx offset count s).2)
    (hok : ∀ idx offset count s, Inv s → offset < int64Max →
      ∃ bytes, (readBlock idx offset count s).1 = .ok bytes)
    {position length : UInt64} (rounds : Nat) {idx count : UInt64} {s : σ} (hinv : Inv s)
    (hoffsets : config.cacheBlockSize ≤ int64Max ∨
      rounds ≤ 1 ∧ (position + count) % config.cacheBlockSize < int64Max) :
    ∃ bytes, (readBlocks config readBlock position length rounds idx count s).1 = .ok bytes := by
  induction rounds generalizing idx count s with
  | zero => exact ⟨[], rfl⟩
  | succ rounds ih =>
      have hoffset : (position + count) % config.cacheBlockSize < int64Max := by
        rcases hoffsets with hsmall | ⟨-, hoffset⟩
        · rw [UInt64.lt_iff_toNat_lt, UInt64.toNat_mod]
          exact (Nat.mod_lt _ config.positive).trans_le (UInt64.le_iff_toNat_le.1 hsmall)
        · exact hoffset
      obtain ⟨bytes, hbytes⟩ := hok idx _ (min (length - count) config.cacheBlockSize) s hinv
        hoffset
      have hinv' := hkept idx ((position + count) % config.cacheBlockSize)
        (min (length - count) config.cacheBlockSize) s hinv
      have hrest : ∃ more, (readBlocks config readBlock position length rounds (idx + 1)
          (count + UInt64.ofNat bytes.length) (readBlock idx
            ((position + count) % config.cacheBlockSize)
            (min (length - count) config.cacheBlockSize) s).2).1 = .ok more := by
        rcases hoffsets with hsmall | ⟨hlast, -⟩
        · exact ih hinv' (Or.inl hsmall)
        · obtain rfl : rounds = 0 := by omega
          exact ⟨[], rfl⟩
      obtain ⟨more, hmore⟩ := hrest
      refine ⟨bytes ++ more, ?_⟩
      simp only [readBlocks, hbytes, hmore, Except.map]

/-- One round that does not find all of its bytes gives what is left of the object, which ends in
the block. -/
theorem round_short {object : StoredObject} {position length idx count : UInt64} {bytes : Bytes}
    (hend : position.toNat + length.toNat ≤ int64Max.toNat)
    (hmissing : ¬ position.toNat + count.toNat + min (config.cacheBlockSize.toNat -
        (position.toNat + count.toNat) % config.cacheBlockSize.toNat)
      (length.toNat - count.toNat) ≤ object.content.length)
    (hcount : count.toNat ≤ length.toNat)
    (hidx : (position.toNat + count.toNat) / config.cacheBlockSize.toNat = idx.toNat)
    (hbytes : bytes = slice (object.block config idx)
      ((position + count) % config.cacheBlockSize).toNat
      (min (length - count) config.cacheBlockSize).toNat) :
    bytes = slice object.content (position.toNat + count.toNat) (length.toNat - count.toNat) ∧
      object.content.length ≤ (idx.toNat + 1) * config.cacheBlockSize.toNat := by
  have hmax : int64Max.toNat = 2 ^ 63 - 1 := rfl
  have hposition : (position + count).toNat = position.toNat + count.toNat :=
    toNat_add_of_lt (by omega)
  have hremaining : (length - count).toNat = length.toNat - count.toNat :=
    UInt64.toNat_sub_of_le _ _ (UInt64.le_iff_toNat_le.2 hcount)
  rw [UInt64.toNat_mod, UInt64.toNat_min, hposition, hremaining, slice_block fun _ => hidx]
    at hbytes
  have hoffset := Nat.mod_lt (position.toNat + count.toNat) config.positive
  have hdivMod := Nat.div_add_mod (position.toNat + count.toNat) config.cacheBlockSize.toNat
  rw [hidx] at hdivMod
  rw [Nat.add_mul, Nat.one_mul, Nat.mul_comm idx.toNat]
  generalize (position.toNat + count.toNat) % config.cacheBlockSize.toNat = offset
    at hbytes hoffset hdivMod hmissing
  refine ⟨?_, by omega⟩
  have hcut : ∀ wanted, object.content.length - (position.toNat + count.toNat) ≤ wanted →
      slice object.content (position.toNat + count.toNat) wanted =
        object.content.drop (position.toNat + count.toNat) := by
    intro wanted hwanted
    rw [slice, List.take_of_length_le (by rw [List.length_drop]; exact hwanted)]
  rw [hbytes, hcut _ (by omega), hcut _ (by omega)]

/-- Blocks behind the end of an object give nothing. -/
theorem readBlocks_behind {object : StoredObject}
    (hkept : ∀ idx offset count s, Inv s → Inv (readBlock idx offset count s).2)
    (hexact : ∀ idx offset count s bytes, HasBlock config int64Max idx → Inv s →
      (readBlock idx offset count s).1 = .ok bytes →
      bytes = slice (object.block config idx) offset.toNat count.toNat)
    {position length : UInt64} (rounds : Nat) {idx count : UInt64} {s : σ} (hinv : Inv s)
    (hblocks : idx.toNat + rounds ≤ int64Max.toNat / config.cacheBlockSize.toNat + 1)
    (hbehind : object.content.length ≤ idx.toNat * config.cacheBlockSize.toNat) {bytes : Bytes}
    (hread : (readBlocks config readBlock position length rounds idx count s).1 = .ok bytes) :
    bytes = [] := by
  induction rounds generalizing idx count s bytes with
  | zero => exact (Except.ok.inj hread).symm
  | succ rounds ih =>
      have hblock : HasBlock config int64Max idx := by
        rw [hasBlock_iff (by decide)]
        omega
      have hinv' := hkept idx ((position + count) % config.cacheBlockSize)
        (min (length - count) config.cacheBlockSize) s hinv
      have hpieces := hexact idx ((position + count) % config.cacheBlockSize)
        (min (length - count) config.cacheBlockSize) s
      simp only [readBlocks] at hread
      generalize readBlock idx _ _ s = copied at hinv' hpieces hread
      obtain ⟨result, after⟩ := copied
      cases result with
      | error status => cases hread
      | ok piece =>
          obtain rfl : piece = [] := by
            rw [hpieces piece hblock hinv rfl, StoredObject.block, slice_eq_nil hbehind,
              slice_eq_nil (Nat.zero_le _)]
          have hnext : (idx + 1).toNat = idx.toNat + 1 := by
            have hdivLe := Nat.div_le_self int64Max.toNat config.cacheBlockSize.toNat
            have hmax : int64Max.toNat = 2 ^ 63 - 1 := rfl
            exact toNat_add_one (by omega)
          have hfurther : idx.toNat * config.cacheBlockSize.toNat ≤
              (idx.toNat + 1) * config.cacheBlockSize.toNat :=
            Nat.mul_le_mul_right _ (Nat.le_succ _)
          dsimp only at hread
          cases htail : (readBlocks config readBlock position length rounds (idx + 1)
              (count + UInt64.ofNat ([] : Bytes).length) after).1 with
          | error status =>
              rw [htail] at hread
              cases hread
          | ok more =>
              rw [htail] at hread
              obtain rfl := Except.ok.inj hread
              exact ih hinv' (by omega) (by rw [hnext]; omega) htail

/-- The loop gives the range, as far as the object in the blocks has it.  Before each round the
next byte is in the block of the round; once a block is short all others are empty. -/
theorem readBlocks_range {object : StoredObject}
    (hkept : ∀ idx offset count s, Inv s → Inv (readBlock idx offset count s).2)
    (hexact : ∀ idx offset count s bytes, HasBlock config int64Max idx → Inv s →
      (readBlock idx offset count s).1 = .ok bytes →
      bytes = slice (object.block config idx) offset.toNat count.toNat)
    {position length : UInt64} (hend : position.toNat + length.toNat ≤ int64Max.toNat)
    (rounds : Nat) {idx count : UInt64} {s : σ} (hinv : Inv s)
    (hlast : idx.toNat + rounds =
      (position.toNat + length.toNat) / config.cacheBlockSize.toNat + 1)
    (hcount : count.toNat ≤ length.toNat)
    (hidx : count.toNat < length.toNat →
      (position.toNat + count.toNat) / config.cacheBlockSize.toNat = idx.toNat)
    (hdone : length.toNat ≤ count.toNat →
      position.toNat + length.toNat ≤ object.content.length)
    {bytes : Bytes}
    (hread : (readBlocks config readBlock position length rounds idx count s).1 = .ok bytes) :
    bytes = slice object.content (position.toNat + count.toNat)
      (length.toNat - count.toNat) := by
  have hmax : int64Max.toNat = 2 ^ 63 - 1 := rfl
  have hlastLe := @Nat.div_le_div_right _ _ config.cacheBlockSize.toNat hend
  have hdivLe := Nat.div_le_self int64Max.toNat config.cacheBlockSize.toNat
  induction rounds generalizing idx count s bytes with
  | zero =>
      obtain rfl := Except.ok.inj hread
      rw [count_eq_length hlast hcount hidx, Nat.sub_self, slice_zero]
  | succ rounds ih =>
      have hblock : HasBlock config int64Max idx := by
        rw [hasBlock_iff (by decide)]
        omega
      have hinv' := hkept idx ((position + count) % config.cacheBlockSize)
        (min (length - count) config.cacheBlockSize) s hinv
      have hpieces := hexact idx ((position + count) % config.cacheBlockSize)
        (min (length - count) config.cacheBlockSize) s
      have hidx' : (idx + 1).toNat = idx.toNat + 1 := toNat_add_one (by omega)
      simp only [readBlocks] at hread
      generalize readBlock idx _ _ s = copied at hinv' hpieces hread
      obtain ⟨result, after⟩ := copied
      cases result with
      | error status => cases hread
      | ok piece =>
          have hpiece := hpieces piece hblock hinv rfl
          simp only at hread
          cases htail : (readBlocks config readBlock position length rounds (idx + 1)
              (count + UInt64.ofNat piece.length) after).1 with
          | error status =>
              rw [htail] at hread
              cases hread
          | ok more =>
              rw [htail] at hread
              obtain rfl := Except.ok.inj hread
              by_cases hfound : position.toNat + count.toNat + min (config.cacheBlockSize.toNat -
                  (position.toNat + count.toNat) % config.cacheBlockSize.toNat)
                    (length.toNat - count.toNat) ≤ object.content.length
              · obtain ⟨hwhole, hcount', hle, hnext⟩ :=
                  round_spec (by omega) hfound hcount hidx hpiece
                have hinside := congrArg List.length hwhole
                rw [length_slice] at hinside
                have hmore := ih hinv' (by omega) (by omega) (by rw [hcount', hidx']; exact hnext)
                  (by omega) htail
                rw [hcount'] at hmore
                calc piece ++ more
                    = slice object.content (position.toNat + count.toNat) piece.length ++
                        slice object.content (position.toNat + count.toNat + piece.length)
                          (length.toNat - (count.toNat + piece.length)) := by
                      rw [← hwhole, Nat.add_assoc, ← hmore]
                  _ = slice object.content (position.toNat + count.toNat)
                        (length.toNat - count.toNat) := by
                      rw [slice_append]
                      congr 1
                      omega
              · obtain ⟨hshort, hbehind⟩ :=
                  round_short hend hfound hcount (hidx (by omega)) hpiece
                have hnothing := readBlocks_behind hkept hexact rounds hinv' (by omega)
                  (by rw [hidx']; exact hbehind) htail
                calc piece ++ more
                    = piece := by rw [hnothing, List.append_nil]
                  _ = _ := hshort

end Loop

end CachedFileHandle

namespace S3Reader

variable {config : CacheConfig} {reader : S3Reader} {object : StoredObject}
  {blocks : UInt64 → Option CacheBlock}

/-- A block that is not there yet holds what its download gets. -/
theorem openBlock_of_none (hobject : reader.endpoint.objects reader.handle.id = some object)
    {idx : UInt64} (hmissing : blocks idx = none) :
    ∃ (block : CacheBlock) (stream : Bytes),
      object.read (config.cacheBlockSize * idx) config.cacheBlockSize none = .ok stream ∧
      block.1.Holds block.2 stream ∧
      reader.openBlock config idx blocks =
        (.ok block, Function.update blocks idx (some block)) := by
  have hread : ∃ stream,
      object.read (config.cacheBlockSize * idx) config.cacheBlockSize none = .ok stream := by
    rw [StoredObject.read]
    split_ifs
    · exact ⟨_, rfl⟩
    · split
      · exact ⟨_, rfl⟩
      · exact ⟨_, rfl⟩
  obtain ⟨stream, hstream⟩ := hread
  have hbounded := S3FileHandle.length_lt_of_read hstream
  have hstored : reader.endpoint.store reader.handle.id = object := by
    rw [Endpoint.store, hobject, Option.getD_some]
  have hserved : reader.endpoint.fault reader.handle.id = none := by
    simp only [Endpoint.fault, hobject]
  rw [← hstored] at hstream
  simp only [openBlock, hmissing, hserved, S3FileHandle.downloadRange_of_read hstream]
  refine ⟨_, stream, hstored ▸ hstream, ?_, rfl⟩
  exact LocalFile.Holds.write (fun _ => rfl) ⟨rfl, FileSystem.content_openFile_truncated⟩ hbounded

/-- Every block that is there has the bytes of the object. -/
def Fetched (config : CacheConfig) (object : StoredObject)
    (blocks : UInt64 → Option CacheBlock) : Prop :=
  ∀ idx block, HasBlock config int64Max idx → blocks idx = some block →
    block.1.Holds block.2 (object.block config idx)

theorem Fetched.update (h : Fetched config object blocks) {idx : UInt64}
    {entry : Option CacheBlock} (hentry : ∀ block, HasBlock config int64Max idx →
      entry = some block → block.1.Holds block.2 (object.block config idx)) :
    Fetched config object (Function.update blocks idx entry) := by
  intro other block hblock hfind
  by_cases hother : other = idx
  · subst hother
    rw [Function.update_self] at hfind
    exact hentry block hblock hfind
  · rw [Function.update_of_ne hother] at hfind
    exact h other block hblock hfind

theorem Fetched.openBlock (hobject : reader.endpoint.objects reader.handle.id = some object)
    (h : Fetched config object blocks) (idx : UInt64) :
    ∃ block, (reader.openBlock config idx blocks).1 = .ok block ∧
      (HasBlock config int64Max idx → block.1.Holds block.2 (object.block config idx)) ∧
      Fetched config object (reader.openBlock config idx blocks).2 := by
  cases hfind : blocks idx with
  | some block =>
      have hopened : reader.openBlock config idx blocks = (.ok block, blocks) := by
        simp only [S3Reader.openBlock, hfind]
      rw [hopened]
      exact ⟨block, rfl, fun hblock => h idx block hblock hfind, h⟩
  | none =>
      obtain ⟨block, stream, hstream, hholds, hopened⟩ :=
        @openBlock_of_none config reader object blocks hobject idx hfind
      have hwhole : HasBlock config int64Max idx →
          block.1.Holds block.2 (object.block config idx) := by
        intro hblock
        have hread := @StoredObject.read_block object config int64Max idx (by decide) hblock
        rw [hstream, Except.ok.injEq] at hread
        rw [← hread]
        exact hholds
      rw [hopened]
      refine ⟨block, rfl, hwhole, h.update ?_⟩
      intro other hblock hother
      rw [← Option.some.inj hother]
      exact hwhole hblock

/-- What a read from one block gives, and that it succeeds below the highest position. -/
theorem Fetched.readBlock (hobject : reader.endpoint.objects reader.handle.id = some object)
    (h : Fetched config object blocks) (idx offset count : UInt64) :
    (∀ bytes, HasBlock config int64Max idx →
      (reader.readBlock config idx offset count blocks).1 = .ok bytes →
      bytes = slice (object.block config idx) offset.toNat count.toNat) ∧
    (offset < int64Max → ∃ bytes,
      (reader.readBlock config idx offset count blocks).1 = .ok bytes) ∧
    Fetched config object (reader.readBlock config idx offset count blocks).2 := by
  have hexact : ∀ {block : CacheBlock} {bytes : Bytes},
      block.1.Holds block.2 (object.block config idx) →
      block.1.readBytes block.2 offset count = .ok bytes →
      bytes = slice (object.block config idx) offset.toNat count.toNat := by
    intro block bytes hholds hread
    exact hholds.readBytes ((object.length_block_lt config idx).trans (by decide)) hread
  obtain ⟨block, hopened, hholds, hfetched⟩ := h.openBlock hobject idx
  rw [S3Reader.readBlock, hopened]
  dsimp only
  cases hread : block.1.readBytes block.2 offset count with
  | ok bytes =>
      refine ⟨?_, fun _ => ⟨bytes, rfl⟩, hfetched⟩
      intro other hblock hother
      obtain rfl := Except.ok.inj hother
      exact hexact (hholds hblock) hread
  | error status =>
      have hpurged := @Fetched.update config object _ hfetched idx none
        (fun _ _ hnone => by cases hnone)
      obtain ⟨again, hagain, hholds, hfetched⟩ := hpurged.openBlock hobject idx
      dsimp only
      rw [hagain]
      refine ⟨fun bytes hblock => hexact (hholds hblock), ?_, hfetched⟩
      intro hoffset
      rw [LocalFile.readBytes_of_lt hoffset] at hread
      cases hread

section Cached

variable {whole : StoredObject} {position length : UInt64}

/-- A read inside of the object: the loop, and that it succeeds. -/
theorem Fetched.readCached (hobject : reader.endpoint.objects reader.handle.id = some object)
    (h : Fetched config object blocks) (hsize : reader.size = whole.size)
    (hposition : position < whole.size) (hlength : 0 < length) :
    ∃ (clipped : UInt64) (bytes : Bytes),
      clipped.toNat = min length.toNat (whole.content.length - position.toNat) ∧
      (CachedFileHandle.readBlocks config (reader.readBlock config) position clipped
        ((position.toNat + clipped.toNat) / config.cacheBlockSize.toNat -
          position.toNat / config.cacheBlockSize.toNat + 1)
        (position / config.cacheBlockSize) 0 blocks).1 = .ok bytes ∧
      (reader.readCached config position length blocks).1 = .ok bytes := by
  have hbounded := whole.bounded
  have hmax : int64Max.toNat = 2 ^ 63 - 1 := rfl
  obtain ⟨clipped, hclipped, hloop⟩ :=
    @CachedFileHandle.readBytes_eq_readBlocks config whole position length hposition hlength
  have hlt := UInt64.lt_iff_toNat_lt.1 hposition
  rw [StoredObject.toNat_size] at hlt
  have hoffsets : config.cacheBlockSize ≤ int64Max ∨
      (position.toNat + clipped.toNat) / config.cacheBlockSize.toNat -
        position.toNat / config.cacheBlockSize.toNat + 1 ≤ 1 ∧
      (position + 0) % config.cacheBlockSize < int64Max := by
    by_cases hsmall : config.cacheBlockSize ≤ int64Max
    · exact Or.inl hsmall
    · -- one block has the whole object
      rw [UInt64.le_iff_toNat_le] at hsmall
      have hfirst : (position.toNat + clipped.toNat) / config.cacheBlockSize.toNat = 0 :=
        Nat.div_eq_of_lt (by omega)
      refine Or.inr ⟨by rw [hfirst, Nat.zero_sub], ?_⟩
      rw [UInt64.add_zero, UInt64.lt_iff_toNat_lt, UInt64.toNat_mod, Nat.mod_eq_of_lt (by omega)]
      omega
  obtain ⟨bytes, hbytes⟩ := CachedFileHandle.readBlocks_succeeds
    (fun idx offset count blocks h => (h.readBlock hobject idx offset count).2.2)
    (fun idx offset count blocks h => (h.readBlock hobject idx offset count).2.1) _ h hoffsets
  refine ⟨clipped, bytes, hclipped, hbytes, ?_⟩
  rw [S3Reader.readCached, hsize, hloop]
  exact hbytes

/-- A read through the cache gives the bytes of the object in the blocks, up to the end of the
object at the location. -/
theorem Fetched.readCached_eq (hobject : reader.endpoint.objects reader.handle.id = some object)
    (h : Fetched config object blocks) (hsize : reader.size = whole.size)
    (position length : UInt64) :
    (reader.readCached config position length blocks).1 =
      .ok (slice object.content position.toNat
        (min length.toNat (whole.content.length - position.toNat))) := by
  by_cases hnothing : whole.size ≤ position ∨ length = 0
  · rw [S3Reader.readCached, CachedFileHandle.readBytes, hsize, if_pos hnothing]
    rcases hnothing with hbehind | rfl
    · rw [UInt64.le_iff_toNat_le, StoredObject.toNat_size] at hbehind
      rw [Nat.sub_eq_zero_of_le hbehind, Nat.min_zero, slice_zero]
    · rw [UInt64.toNat_zero, Nat.zero_min, slice_zero]
  · obtain ⟨hinside, hnonzero⟩ := not_or.1 hnothing
    have hposition : position < whole.size := UInt64.not_le.1 hinside
    have hpositive := toNat_pos_of_ne_zero hnonzero
    obtain ⟨clipped, bytes, hclipped, hloop, hread⟩ :=
      h.readCached hobject hsize hposition (UInt64.pos_iff_ne_zero.2 hnonzero)
    have hbounded := whole.bounded
    have hmax : int64Max.toNat = 2 ^ 63 - 1 := rfl
    have hlt := UInt64.lt_iff_toNat_lt.1 hposition
    rw [StoredObject.toNat_size] at hlt
    have hstart : position.toNat / config.cacheBlockSize.toNat ≤
        (position.toNat + clipped.toNat) / config.cacheBlockSize.toNat :=
      Nat.div_le_div_right (by omega)
    have hzero : (0 : UInt64).toNat = 0 := rfl
    have hbytes := CachedFileHandle.readBlocks_range
      (fun idx offset count blocks h => (h.readBlock hobject idx offset count).2.2)
      (fun idx offset count blocks bytes hblock h =>
        (h.readBlock hobject idx offset count).1 bytes hblock)
      (by omega) _ h (by rw [UInt64.toNat_div]; omega) (by omega)
      (fun _ => by rw [hzero, Nat.add_zero, UInt64.toNat_div]) (by omega) hloop
    rw [hread, hbytes, hzero, Nat.add_zero, Nat.sub_zero, hclipped]

/-- Without an object to take blocks from, nothing is read. -/
theorem readCached_missing (hmissing : reader.endpoint.objects reader.handle.id = none)
    (hsize : reader.size = whole.size) (hposition : position < whole.size) (hlength : 0 < length) :
    ∃ status, (reader.readCached config position length fun _ => none).1 = .error status := by
  obtain ⟨clipped, -, hloop⟩ :=
    @CachedFileHandle.readBytes_eq_readBlocks config whole position length hposition hlength
  have hblockSize : ¬ config.cacheBlockSize = 0 := by
    intro hzero
    have hpositive := config.positive
    rw [hzero] at hpositive
    exact absurd hpositive (lt_irrefl _)
  have hfault : reader.endpoint.fault reader.handle.id =
      some (Endpoint.missing (text "readBytes") reader.handle.id.key) := by
    simp only [Endpoint.fault, hmissing]
  rw [S3Reader.readCached, hsize, hloop]
  simp only [CachedFileHandle.readBlocks, S3Reader.readBlock, S3Reader.openBlock,
    S3FileHandle.downloadRange, hfault, StoredObject.read, hblockSize, ↓reduceIte, Except.map]
  exact ⟨_, rfl⟩

end Cached

end S3Reader

section Requests

variable {config : CacheConfig} {endpoints : Bytes → Except Status Endpoint} {object : Object}

/-- Reads whose results do not depend on what was read before. -/
theorem readAll_eq {σ : Type} {read : UInt64 → UInt64 → σ → Except Status Bytes × σ}
    {Inv : σ → Prop} {result : UInt64 → UInt64 → Except Status Bytes}
    (hread : ∀ position length s, Inv s →
      (read position length s).1 = result position length ∧ Inv (read position length s).2)
    (requests : List (UInt64 × UInt64)) {s : σ} (hinv : Inv s) :
    readAll read requests s = requests.map fun request => result request.1 request.2 := by
  induction requests generalizing s with
  | nil => rfl
  | cons request rest ih =>
      obtain ⟨hresult, hinv'⟩ := hread request.1 request.2 s hinv
      rw [readAll, hresult, ih hinv']
      rfl

/-- What `factory` needs to make a handle. -/
theorem factory_eq_ok_iff {reader : S3Reader} :
    S3FileHandle.factory endpoints object = .ok reader ↔
      ∃ location endpoint whole,
        S3FileHandle.parseLocation object.info.location = .ok location ∧
        endpoints location.bucket = .ok endpoint ∧ endpoint.objects location = some whole ∧
        reader = ⟨⟨object.id, location⟩, endpoint, whole.size⟩ := by
  constructor
  · intro hfactory
    unfold S3FileHandle.factory at hfactory
    split at hfactory
    · cases hfactory
    · rename_i location hparsed
      split at hfactory
      · cases hfactory
      · rename_i endpoint hendpoint
        cases hwhole : endpoint.objects location with
        | none =>
            simp only [Endpoint.fileStatus, hwhole] at hfactory
            cases hfactory
        | some whole =>
            simp only [Endpoint.fileStatus, hwhole] at hfactory
            exact ⟨location, endpoint, whole, hparsed, hendpoint, hwhole,
              (Except.ok.inj hfactory).symm⟩
  · rintro ⟨location, endpoint, whole, hparsed, hendpoint, hwhole, rfl⟩
    simp only [S3FileHandle.factory, hparsed, hendpoint, Endpoint.fileStatus, hwhole]

/-- Reads without the cache. -/
theorem readAll_readBytes {reader : S3Reader} {whole : StoredObject}
    (hwhole : reader.endpoint.objects reader.handle.location = some whole)
    (requests : List (UInt64 × UInt64)) :
    readAll reader.readBytes requests true = requests.map fun request =>
      reader.endpoint.readBytes reader.handle.location request.1 request.2 := by
  refine @readAll_eq Bool reader.readBytes (· = true) (fun position length =>
    reader.endpoint.readBytes reader.handle.location position length) ?_ requests true rfl
  rintro position length _ rfl
  obtain ⟨bytes, hbytes⟩ := Endpoint.exists_readRounds hwhole position length (length.toNat + 1) 0
  have hread : reader.endpoint.readBytes reader.handle.location position length = .ok bytes :=
    hbytes
  simp only [S3Reader.readBytes, hread, Bool.true_eq_false, ↓reduceIte, and_self]

/-- Reads with the cache, when there is an object to take blocks from. -/
theorem readAll_readCached {reader : S3Reader} {whole own : StoredObject}
    (hsize : reader.size = whole.size)
    (hown : reader.endpoint.objects reader.handle.id = some own)
    (requests : List (UInt64 × UInt64)) :
    readAll (reader.readCached config) requests (fun _ => none) = requests.map fun request =>
      .ok (slice own.content request.1.toNat
        (min request.2.toNat (whole.content.length - request.1.toNat))) := by
  refine @readAll_eq _ (reader.readCached config) (S3Reader.Fetched config own)
    (fun position length => .ok (slice own.content position.toNat
      (min length.toNat (whole.content.length - position.toNat)))) ?_ requests _
    (fun idx block _ hfind => by cases hfind)
  intro position length blocks hfetched
  refine ⟨hfetched.readCached_eq hown hsize position length, ?_⟩
  exact CachedFileHandle.readBytes_inv
    (fun idx offset count blocks h => (h.readBlock hown idx offset count).2.2) _ _ _ hfetched

/-- The bytes of a range are those that the endpoint has under the name of the object, and the
header of the range does not wrap. -/
structure RangeAgrees (endpoint : Endpoint) (id : ObjectID) (whole : StoredObject)
    (position length : UInt64) : Prop where
  fits : whole.content = [] ∨ Endpoint.FitsHeader position length
  sameBytes : slice whole.content position.toNat length.toNat = [] ∨
    ∃ own, endpoint.objects id = some own ∧
      slice whole.content position.toNat length.toNat <+: own.content.drop position.toNat

/-- A read without the cache gives these bytes. -/
theorem readBytes_eq_ok_iff {endpoint : Endpoint} {id : ObjectID} {whole : StoredObject}
    (hwhole : endpoint.objects id = some whole) {position length : UInt64} {bytes : Bytes}
    (hbytes : bytes.length ≤ min length.toNat (whole.content.length - position.toNat)) :
    endpoint.readBytes id position length = .ok bytes ↔
      (whole.content = [] ∨ Endpoint.FitsHeader position length) ∧
        bytes = slice whole.content position.toNat length.toNat := by
  by_cases hfits : whole.content = [] ∨ Endpoint.FitsHeader position length
  · rw [Endpoint.readBytes_eq hwhole hfits, and_iff_right hfits, Except.ok.injEq, eq_comm]
  · obtain ⟨hcontent, hwrap⟩ := not_or.1 hfits
    obtain ⟨wrapped, hsome, hread⟩ := Endpoint.readBytes_of_wrap hwhole hcontent hwrap
    refine iff_of_false (fun hok => ?_) fun hboth => hfits hboth.1
    -- a header wraps only far behind the end of the object
    have hbehind : whole.content.length ≤ position.toNat := by
      have hbounded := whole.bounded
      rw [Endpoint.FitsHeader] at hwrap
      omega
    rw [hread, Except.ok.injEq] at hok
    apply hsome
    rw [← List.length_eq_zero_iff, hok]
    omega

/-- The bytes of another object in a range. -/
theorem slice_eq_slice_iff {whole own : Bytes} {position length : Nat} :
    slice own position (min length (whole.length - position)) = slice whole position length ↔
      slice whole position length <+: own.drop position := by
  rw [List.prefix_iff_eq_take, length_slice, eq_comm]
  rfl

/-- Without an object to take blocks from only reads of nothing succeed. -/
theorem readAll_readCached_missing_iff {reader : S3Reader} {whole : StoredObject}
    (hwhole : reader.endpoint.objects reader.handle.location = some whole)
    (hsize : reader.size = whole.size)
    (hmissing : reader.endpoint.objects reader.handle.id = none)
    (requests : List (UInt64 × UInt64)) :
    readAll (reader.readCached config) requests (fun _ => none) =
        readAll reader.readBytes requests true ↔
      ∀ request ∈ requests,
        RangeAgrees reader.endpoint reader.handle.id whole request.1 request.2 := by
  rw [readAll_readBytes hwhole]
  induction requests with
  | nil => exact iff_of_true rfl fun _ hmem => absurd hmem List.not_mem_nil
  | cons request rest ih =>
      obtain ⟨position, length⟩ := request
      rw [List.forall_mem_cons, readAll, List.map_cons, List.cons.injEq]
      by_cases hnothing : whole.size ≤ position ∨ length = 0
      · have hread : reader.readCached config position length (fun _ => none) =
            (.ok [], fun _ => none) := by
          rw [S3Reader.readCached, CachedFileHandle.readBytes, hsize, if_pos hnothing]
        have hslice : slice whole.content position.toNat length.toNat = [] := by
          rcases hnothing with hbehind | rfl
          · rw [UInt64.le_iff_toNat_le, StoredObject.toNat_size] at hbehind
            exact slice_eq_nil hbehind
          · rfl
        rw [hread, ih, eq_comm, readBytes_eq_ok_iff hwhole (Nat.zero_le _), hslice]
        refine and_congr_left fun _ => ?_
        exact ⟨fun hfits => ⟨hfits.1, Or.inl hslice⟩, fun hagrees => ⟨hagrees.fits, rfl⟩⟩
      · obtain ⟨hinside, hnonzero⟩ := not_or.1 hnothing
        obtain ⟨status, hfailed⟩ := @S3Reader.readCached_missing config reader whole position
          length hmissing hsize (UInt64.not_le.1 hinside) (UInt64.pos_iff_ne_zero.2 hnonzero)
        obtain ⟨bytes, hbytes⟩ := Endpoint.exists_readRounds hwhole position length
          (length.toNat + 1) 0
        refine iff_of_false (fun hsame => ?_) fun hagrees => ?_
        · have hfirst := hsame.1
          rw [hfailed, Endpoint.readBytes, hbytes] at hfirst
          cases hfirst
        · rcases hagrees.1.sameBytes with hslice | ⟨own, hown, -⟩
          · have hlength : (slice whole.content position.toNat length.toNat).length = 0 :=
              congrArg List.length hslice
            have hpositive := toNat_pos_of_ne_zero hnonzero
            rw [UInt64.le_iff_toNat_le, StoredObject.toNat_size] at hinside
            rw [length_slice] at hlength
            omega
          · rw [hmissing] at hown
            cases hown

/-- As far as the requests go, the object at the location has the bytes that its endpoint has
under the name of the object. -/
def RangesAgree (endpoints : Bytes → Except Status Endpoint) (object : Object)
    (requests : List (UInt64 × UInt64)) : Prop :=
  ∀ location endpoint whole,
    S3FileHandle.parseLocation object.info.location = .ok location →
    endpoints location.bucket = .ok endpoint → endpoint.objects location = some whole →
    ∀ request ∈ requests, RangeAgrees endpoint object.id whole request.1 request.2

/-- The cache is transparent for some reads just if the bytes under the two names agree where
they read, and no header wraps. -/
theorem sameReads_iff (config : CacheConfig) (endpoints : Bytes → Except Status Endpoint)
    (object : Object) (requests : List (UInt64 × UInt64)) :
    SameReads config endpoints object requests ↔ RangesAgree endpoints object requests := by
  rw [SameReads, openAndRead, openAndRead]
  cases hfactory : S3FileHandle.factory endpoints object with
  | error status =>
      refine iff_of_true rfl fun location endpoint whole hparsed hendpoint hwhole => ?_
      have hmade := factory_eq_ok_iff.2 ⟨location, endpoint, whole, hparsed, hendpoint, hwhole, rfl⟩
      rw [hfactory] at hmade
      cases hmade
  | ok reader =>
      obtain ⟨location, endpoint, whole, hparsed, hendpoint, hwhole, rfl⟩ :=
        factory_eq_ok_iff.1 hfactory
      have hagree : RangesAgree endpoints object requests ↔
          ∀ request ∈ requests, RangeAgrees endpoint object.id whole request.1 request.2 := by
        refine ⟨fun hall => hall location endpoint whole hparsed hendpoint hwhole,
          fun hall location' endpoint' whole' hparsed' hendpoint' hwhole' => ?_⟩
        obtain rfl := Except.ok.inj (hparsed.symm.trans hparsed')
        obtain rfl := Except.ok.inj (hendpoint.symm.trans hendpoint')
        obtain rfl := Option.some.inj (hwhole.symm.trans hwhole')
        exact hall
      simp only [Except.map, ↓reduceIte, Bool.false_eq_true, Except.ok.injEq]
      rw [hagree]
      cases hown : endpoint.objects object.id with
      | none => exact readAll_readCached_missing_iff hwhole rfl hown requests
      | some own =>
          rw [readAll_readBytes hwhole, readAll_readCached rfl hown, List.map_inj_left]
          refine forall₂_congr fun request _ => ?_
          rw [eq_comm, readBytes_eq_ok_iff hwhole (by rw [length_slice]; exact Nat.min_le_left _ _),
            slice_eq_slice_iff]
          constructor
          · rintro ⟨hfits, hbytes⟩
            exact ⟨hfits, Or.inr ⟨own, hown, hbytes⟩⟩
          · rintro ⟨hfits, hempty | ⟨own', hown', hbytes⟩⟩
            · exact ⟨hfits, hempty ▸ List.nil_prefix⟩
            · obtain rfl := Option.some.inj (hown.symm.trans hown')
              exact ⟨hfits, hbytes⟩

/-- All reads whose headers do not wrap are the same just if the object at the location is empty,
or the one with the name begins with its bytes. -/
theorem sameReads_all_iff (config : CacheConfig) (endpoints : Bytes → Except Status Endpoint)
    (object : Object) :
    (∀ requests, (∀ request ∈ requests, Endpoint.FitsHeader request.1 request.2) →
        SameReads config endpoints object requests) ↔
      ∀ location endpoint whole,
        S3FileHandle.parseLocation object.info.location = .ok location →
        endpoints location.bucket = .ok endpoint → endpoint.objects location = some whole →
        whole.content = [] ∨
          ∃ own, endpoint.objects object.id = some own ∧ whole.content <+: own.content := by
  constructor
  · intro hall location endpoint whole hparsed hendpoint hwhole
    have hsize := whole.toNat_size
    have hlt := whole.size.toNat_lt
    have hagrees := (sameReads_iff config endpoints object [(0, whole.size)]).1
      (hall _ fun request hrequest => by
        rw [List.mem_singleton.1 hrequest, Endpoint.FitsHeader, UInt64.toNat_zero]
        omega) location endpoint whole hparsed hendpoint hwhole _ (List.mem_singleton_self _)
    have hbytes := hagrees.sameBytes
    rw [UInt64.toNat_zero, hsize, slice, List.drop_zero, List.take_length] at hbytes
    exact hbytes
  · intro hbytes requests hfits
    rw [sameReads_iff]
    intro location endpoint whole hparsed hendpoint hwhole request hrequest
    refine ⟨Or.inr (hfits request hrequest), ?_⟩
    rcases hbytes location endpoint whole hparsed hendpoint hwhole with
      hempty | ⟨own, hown, hbegins⟩
    · rw [hempty]
      exact Or.inl (slice_eq_nil (Nat.zero_le _))
    · exact Or.inr ⟨own, hown, (List.take_prefix _ _).trans (hbegins.drop _)⟩

end Requests

namespace S3Access.Sample

/-- The object `abc/key` is at `abc/moved`, and an empty object has its name there. -/
def objects : ObjectID → Option StoredObject := fun id =>
  if id = ⟨text "abc", text "moved"⟩ then some CachedFileHandle.Sample.letters
  else if id = ⟨text "abc", text "key"⟩ then some ⟨[], Nat.two_pow_pos 63⟩
  else none

def record : Object := ⟨⟨text "abc", text "key"⟩, ⟨text "s3://abc/moved", 6, 6, none⟩⟩

/-- The cache has blocks of the other object. -/
theorem moved_not_sameReads :
    ¬ ∀ (config : CacheConfig) (endpoints : Bytes → Except Status Endpoint) (object : Object)
        (requests : List (UInt64 × UInt64)), SameReads config endpoints object requests := by
  intro hall
  have hreads := hall CachedFileHandle.Sample.smallBlocks (fun _ => .ok ⟨objects⟩) record [(0, 2)]
  unfold SameReads at hreads
  exact absurd hreads (by decide)

end S3Access.Sample

end GEDS
