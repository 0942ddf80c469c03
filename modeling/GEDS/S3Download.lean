/-
`GEDSS3FileHandle::downloadRange`: bytes of an object go through a string stream and
the loop of `LocalFile::write` into a local file.
-/
import GEDS.CachedFileHandle

namespace GEDS

open Status

namespace LocalFile

/-- The loop of `LocalFile::write`; `faults` tells how the write of a round fails, and
`fuel` bounds the number of rounds. -/
def writeRounds (faults : Nat → Option WriteFault) (position length : UInt64) :
    Nat → Nat → UInt64 → Bytes → LocalFile → FileSystem Bytes →
      Except Status UInt64 × LocalFile × FileSystem Bytes
  | 0, _, n, _, file, files => (.ok n, file, files)
  | fuel + 1, round, n, stream, file, files =>
      let maxRead := min (min 4096 (length - n)) int64Max
      let buffer := stream.take maxRead.toNat
      let written := file.writeBytes files buffer (position + n) (faults round)
      if written.1.ok = false then (.error written.1, written.2)
      else if buffer = [] then (.ok n, written.2)
      else
        writeRounds faults position length fuel (round + 1)
          (n + UInt64.ofNat buffer.length) (stream.drop buffer.length) written.2.1 written.2.2

/-- `LocalFile::write` from a string stream: every round but the last takes a byte, so
the length is fuel enough. -/
def write (file : LocalFile) (files : FileSystem Bytes) (stream : Bytes) (position : UInt64)
    (lengthOpt : Option UInt64) (faults : Nat → Option WriteFault) :
    Except Status UInt64 × LocalFile × FileSystem Bytes :=
  writeRounds faults position (lengthOpt.getD int64Max) (stream.length + 1) 0 0 stream file files

/-- How many of the bytes that remain get into the file before a round fails. -/
def storedLength (faults : Nat → Option WriteFault) (position : UInt64) :
    Nat → Nat → UInt64 → Nat → Nat
  | 0, _, _, _ => 0
  | fuel + 1, round, n, remaining =>
      let count := min 4096 remaining
      if int64Max < position + n ∨ count = 0 then 0
      else
        match faults round with
        | some fault => min fault.written count
        | none =>
            count + storedLength faults position fuel (round + 1) (n + UInt64.ofNat count)
              (remaining - count)

section Write

variable {faults : Nat → Option WriteFault} {position length : UInt64}

theorem storedLength_le (fuel round : Nat) (n : UInt64) (remaining : Nat) :
    storedLength faults position fuel round n remaining ≤ remaining := by
  induction fuel generalizing round n remaining with
  | zero => exact Nat.zero_le _
  | succ fuel ih =>
      rw [storedLength]
      split_ifs
      · exact Nat.zero_le _
      · have hrest := ih (round + 1) (n + UInt64.ofNat (min 4096 remaining))
          (remaining - min 4096 remaining)
        cases faults round with
        | some fault => exact (Nat.min_le_right _ _).trans (Nat.min_le_right _ _)
        | none =>
            dsimp only
            omega

/-- What a round reads from the stream. -/
theorem buffer_eq {n : UInt64} {stream : Bytes}
    (hremaining : length.toNat = n.toNat + stream.length) :
    stream.take (min (min 4096 (length - n)) int64Max).toNat =
      stream.take (min 4096 stream.length) := by
  have hsub : (length - n).toNat = stream.length := by
    rw [UInt64.toNat_sub_of_le _ _ (UInt64.le_iff_toNat_le.2 (by omega))]
    omega
  have hpage : (4096 : UInt64).toNat = 4096 := rfl
  have hmax : int64Max.toNat = 2 ^ 63 - 1 := rfl
  rw [UInt64.toNat_min, UInt64.toNat_min, hsub, hpage, hmax]
  congr 1
  omega

/-- The loop leaves the bytes before the first failure in the file. -/
theorem content_writeRounds (hposition : position ≤ int64Max) (hbounded : length.toNat < 2 ^ 63)
    (fuel round : Nat) {n : UInt64} {stream : Bytes}
    (hremaining : length.toNat = n.toNat + stream.length) (file : LocalFile)
    (files : FileSystem Bytes) :
    (writeRounds faults position length fuel round n stream file files).2.2.content file.inode =
      FileSystem.overwrite (files.content file.inode) (position.toNat + n.toNat)
        (stream.take (storedLength faults position fuel round n stream.length)) := by
  induction fuel generalizing round n stream file files with
  | zero => simp [writeRounds, storedLength, FileSystem.overwrite]
  | succ fuel ih =>
      have hmax : int64Max.toNat = 2 ^ 63 - 1 := rfl
      have hle := UInt64.le_iff_toNat_le.1 hposition
      have hplace : (position + n).toNat = position.toNat + n.toNat :=
        toNat_add_of_lt (by omega)
      rw [writeRounds, storedLength, buffer_eq hremaining]
      by_cases hhigh : int64Max < position + n
      · simp [writeBytes, hhigh, Status.ok, failedPreconditionError, FileSystem.overwrite]
      · by_cases hempty : stream = []
        · simp [writeBytes, hhigh, hempty, Status.ok, okStatus, FileSystem.overwrite]
        · have hpositive := List.length_pos_iff.2 hempty
          have hcount : ¬ min 4096 stream.length = 0 := by omega
          have hbuffer : stream.take (min 4096 stream.length) ≠ [] := by
            rw [← List.length_pos_iff, List.length_take]
            omega
          have htaken : (stream.take (min 4096 stream.length)).length =
              min 4096 stream.length := by
            rw [List.length_take]
            omega
          simp only [writeBytes, hhigh, hbuffer, hcount, or_self, ↓reduceIte]
          cases faults round with
          | some fault =>
              simp only [Status.ok, unknownError]
              rw [hplace, List.take_take]
              exact FileSystem.content_pwrite _ _ _
          | none =>
              simp only [Status.ok, okStatus, decide_true, Bool.true_eq_false, ↓reduceIte]
              rw [htaken]
              have hnext : (n + UInt64.ofNat (min 4096 stream.length)).toNat =
                  n.toNat + min 4096 stream.length :=
                toNat_add_ofNat (by omega)
              have hdropped : (stream.drop (min 4096 stream.length)).length =
                  stream.length - min 4096 stream.length := List.length_drop
              have hrest := @ih (round + 1) (n + UInt64.ofNat (min 4096 stream.length))
                (stream.drop (min 4096 stream.length)) (by omega)
                { file with size := max file.size (position + n + UInt64.ofNat
                  (min 4096 stream.length)) }
                (files.pwrite file.inode (position + n).toNat
                  (stream.take (min 4096 stream.length)))
              refine hrest.trans ?_
              have hwritten := @FileSystem.overwrite_overwrite (files.content file.inode)
                (position.toNat + n.toNat) (stream.take (min 4096 stream.length))
              rw [htaken] at hwritten
              rw [hdropped, hnext, FileSystem.content_pwrite, hplace, ← Nat.add_assoc, hwritten,
                List.take_add]

/-- What a write from a string stream leaves in the file. -/
theorem content_write (file : LocalFile) (files : FileSystem Bytes) {stream : Bytes}
    (hbounded : stream.length < 2 ^ 63) (position : UInt64) :
    (file.write files stream position (some (UInt64.ofNat stream.length)) faults).2.2.content
        file.inode =
      FileSystem.overwrite (files.content file.inode) position.toNat
        (stream.take (storedLength faults position (stream.length + 1) 0 0 stream.length)) := by
  have hlength : (UInt64.ofNat stream.length).toNat = stream.length :=
    Nat.mod_eq_of_lt (by omega)
  have hzero : (0 : UInt64).toNat = 0 := rfl
  rw [write, Option.getD_some]
  by_cases hposition : position ≤ int64Max
  · have hrounds := @content_writeRounds faults position (UInt64.ofNat stream.length) hposition
      (by omega) (stream.length + 1) 0 0 stream (by omega) file files
    rw [hzero, Nat.add_zero] at hrounds
    exact hrounds
  · -- the first round fails
    have hhigh : int64Max < position := UInt64.not_le.1 hposition
    rw [writeRounds, storedLength]
    simp [writeBytes, hhigh, Status.ok, failedPreconditionError, FileSystem.overwrite]

end Write

end LocalFile

/-- `GEDSS3FileHandle`: the name of the object in GEDS, and where it is in S3. -/
structure S3FileHandle where
  id : ObjectID
  location : ObjectID

namespace S3FileHandle

variable (handle : S3FileHandle) (store : ObjectID → StoredObject) (file : LocalFile)
  (files : FileSystem Bytes)

/-- `GEDSAbstractFileHandle::write`, which does not look at what its file returned. -/
def writeLocal (stream : Bytes) (position : UInt64) (lengthOptional : Option UInt64)
    (faults : Nat → Option WriteFault) : Status × LocalFile × FileSystem Bytes :=
  let written := file.write files stream position lengthOptional faults
  (okStatus, written.2)

/-- `GEDSS3FileHandle::downloadRange` to a local handle; it reads the object that has
the name of the handle. -/
def downloadRange (srcPosition length destPosition : UInt64) (fault : Option FailedStatus)
    (faults : Nat → Option WriteFault) : Except Status UInt64 × LocalFile × FileSystem Bytes :=
  match (store handle.id).read srcPosition length fault with
  | .error status => (.error status, file, files)
  | .ok outputStream =>
      let count := UInt64.ofNat outputStream.length
      let written := writeLocal file files outputStream destPosition (some count) faults
      if written.1.ok then (.ok count, written.2) else (.error written.1, written.2)

/-- The bytes that a download reports are in the destination, and are those of the
object. -/
def Faithful (srcPosition length destPosition : UInt64) (fault : Option FailedStatus)
    (faults : Nat → Option WriteFault) : Prop :=
  ∀ n, (handle.downloadRange store file files srcPosition length destPosition fault
      faults).1 = .ok n →
    (slice (store handle.location).content srcPosition.toNat n.toNat).length = n.toNat ∧
    slice ((handle.downloadRange store file files srcPosition length destPosition fault
        faults).2.2.content file.inode) destPosition.toNat n.toNat =
      slice (store handle.location).content srcPosition.toNat n.toNat

/-- The bytes of the stream that are stored are those of the object, and behind them
the destination had those of the object before. -/
structure Arrives (stream : Bytes) (srcPosition destPosition : UInt64) (stored : Nat) : Prop where
  long : srcPosition.toNat + stream.length ≤ (store handle.location).content.length ∨ stream = []
  fetched : stream.take stored = slice (store handle.location).content srcPosition.toNat stored
  found : slice (files.content file.inode) (destPosition.toNat + stored)
      (stream.length - stored) =
    slice (store handle.location).content (srcPosition.toNat + stored) (stream.length - stored)

variable {handle store file files}

theorem length_lt_of_read {object : StoredObject} {position length : UInt64}
    {fault : Option FailedStatus} {stream : Bytes}
    (hread : object.read position length fault = .ok stream) : stream.length < 2 ^ 63 := by
  have hbounded := object.bounded
  unfold StoredObject.read at hread
  split_ifs at hread
  · obtain rfl := Except.ok.inj hread
    exact Nat.zero_lt_of_lt hbounded
  · cases fault with
    | some status => cases hread
    | none =>
        simp only [StoredObject.getRange] at hread
        split_ifs at hread
        · obtain rfl := Except.ok.inj hread
          rw [List.length_take]
          omega
        · obtain rfl := Except.ok.inj hread
          exact Nat.zero_lt_of_lt hbounded
        · obtain rfl := Except.ok.inj hread
          rw [List.length_take, length_slice]
          omega

/-- What was read goes to the file, and `downloadRange` reports its length. -/
theorem downloadRange_of_read {handle : S3FileHandle} {store : ObjectID → StoredObject}
    {file : LocalFile} {files : FileSystem Bytes} {srcPosition length destPosition : UInt64}
    {fault : Option FailedStatus} {faults : Nat → Option WriteFault} {stream : Bytes}
    (hread : (store handle.id).read srcPosition length fault = .ok stream) :
    handle.downloadRange store file files srcPosition length destPosition fault faults =
      (.ok (UInt64.ofNat stream.length),
        (file.write files stream destPosition (some (UInt64.ofNat stream.length)) faults).2) := by
  rw [downloadRange, hread]
  rfl

/-- The stored bytes and those behind them. -/
theorem slice_overwrite (content bytes : Bytes) (position : Nat) {length : Nat}
    (hle : bytes.length ≤ length) :
    slice (FileSystem.overwrite content position bytes) position length =
      bytes ++ slice content (position + bytes.length) (length - bytes.length) := by
  rw [slice, FileSystem.drop_overwrite, List.take_append, List.take_of_length_le hle, slice]

/-- A download that reports success is faithful just if all that it fetched, and did
not store, was in the destination before. -/
theorem faithful_iff (handle : S3FileHandle) (store : ObjectID → StoredObject) (file : LocalFile)
    (files : FileSystem Bytes) (srcPosition length destPosition : UInt64)
    (fault : Option FailedStatus) (faults : Nat → Option WriteFault) :
    handle.Faithful store file files srcPosition length destPosition fault faults ↔
      ∀ stream, (store handle.id).read srcPosition length fault = .ok stream →
        handle.Arrives store file files stream srcPosition destPosition
          (LocalFile.storedLength faults destPosition (stream.length + 1) 0 0 stream.length) := by
  cases hread : (store handle.id).read srcPosition length fault with
  | error status => simp [Faithful, downloadRange, hread]
  | ok stream =>
      have hbounded := length_lt_of_read hread
      have hcount : (UInt64.ofNat stream.length).toNat = stream.length :=
        Nat.mod_eq_of_lt (by omega)
      have hcontent := @LocalFile.content_write faults file files stream hbounded destPosition
      have hle := @LocalFile.storedLength_le faults destPosition (stream.length + 1) 0 0
        stream.length
      have hdownload := @downloadRange_of_read handle store file files srcPosition length
        destPosition fault faults stream hread
      simp only [Except.ok.injEq, forall_eq']
      generalize LocalFile.storedLength faults destPosition (stream.length + 1) 0 0
        stream.length = stored at hcontent hle ⊢
      have htaken : (stream.take stored).length = stored := by
        rw [List.length_take]
        omega
      have hfaithful : handle.Faithful store file files srcPosition length destPosition fault
            faults ↔
          (slice (store handle.location).content srcPosition.toNat stream.length).length =
              stream.length ∧
            stream.take stored ++ slice (files.content file.inode)
                (destPosition.toNat + stored) (stream.length - stored) =
              slice (store handle.location).content srcPosition.toNat stream.length := by
        have hslice := slice_overwrite (files.content file.inode) (stream.take stored)
          destPosition.toNat (htaken.trans_le hle)
        rw [htaken] at hslice
        simp only [Faithful, hdownload, hcontent, Except.ok.injEq, forall_eq', hcount, hslice]
      have hsplit := @slice_append (store handle.location).content srcPosition.toNat stored
        (stream.length - stored)
      rw [Nat.add_sub_cancel' hle] at hsplit
      rw [hfaithful, ← hsplit, List.length_append, length_slice, length_slice]
      constructor
      · rintro ⟨hlong, heq⟩
        have hfront : (slice (store handle.location).content srcPosition.toNat stored).length =
            stored := by
          rw [length_slice]
          omega
        obtain ⟨hfetched, hfound⟩ := List.append_inj heq (htaken.trans hfront.symm)
        refine ⟨?_, hfetched, hfound⟩
        rw [← List.length_eq_zero_iff]
        omega
      · rintro ⟨hlong, hfetched, hfound⟩
        rw [← List.length_eq_zero_iff] at hlong
        refine ⟨by omega, ?_⟩
        rw [hfetched, hfound]

namespace Sample

def name : ObjectID := ⟨text "abc", text "key"⟩

def object : StoredObject := CachedFileHandle.Sample.letters

/-- A file system with one empty file. -/
def opened : Nat × FileSystem Bytes := FileSystem.empty.openFile (text "/tmp/0") true

def target : LocalFile := ⟨text "/tmp/0", opened.1, 0⟩

/-- The disk is full after two bytes. -/
def full : Nat → Option WriteFault := fun _ => some ⟨2, some (text "No space left on device")⟩

/-- Six bytes are reported, and two of them are there. -/
theorem full_not_faithful :
    ¬ S3FileHandle.Faithful ⟨name, name⟩ (fun _ => object) target opened.2 0 6 0 none full := by
  intro hfaithful
  have hbytes := (hfaithful 6 rfl).2
  exact absurd hbytes (by decide)

end Sample

end S3FileHandle

end GEDS
