/-
`geds::filesystem::LocalFile`: an open descriptor on a file of the node and the
size of what was written to it.
-/
import GEDS.Library.FileSystem
import GEDS.Object

namespace GEDS

open Status

/-- `INT64_MAX` as a `size_t` -/
def int64Max : UInt64 := 0x7fffffffffffffff

/-- `LocalFile`; `inode` is what `_fd` refers to. -/
structure LocalFile where
  path : Bytes
  inode : Nat
  size : UInt64
deriving DecidableEq

/-- How `open` and `fstat` end in the constructor. -/
inductive OpenResult where
  | opened
  | openFailed (reason : Bytes)
  | fstatFailed (reason : Bytes)

/-- A `pwrite` that fails after some bytes: with an error, or with an EOF. -/
structure WriteFault where
  written : Nat
  reason : Option Bytes

namespace LocalFile

/-- The constructor; when it throws, what `open` did to the file stays. -/
def new (files : FileSystem Bytes) (path : Bytes) (overwrite : Bool) :
    OpenResult → Except Bytes LocalFile × FileSystem Bytes
  | .openFailed reason =>
      (.error (text "Unable to open " ++ path ++ text ". Reason: " ++ reason), files)
  | .fstatFailed reason =>
      (.error (text "Fstat on " ++ path ++ text " reported: " ++ reason),
        (files.openFile path overwrite).2)
  | .opened =>
      let opened := files.openFile path overwrite
      (.ok ⟨path, opened.1, UInt64.ofNat (opened.2.content opened.1).length⟩, opened.2)

variable (file : LocalFile) (files : FileSystem Bytes)

/-- The destructor: `close` and `removeFile`. -/
def destroy : FileSystem Bytes := files.unlink file.path

def readBytes (position length : UInt64) : Except Status Bytes :=
  if int64Max ≤ position then
    .error (failedPreconditionError (text "Stream positions > " ++
      text (toString int64Max.toNat) ++ text " are not supported!"))
  else if length = 0 then .ok []
  else if file.size < position then .ok []
  else
    let length := min length (file.size - position)
    if length = 0 then .ok []
    else .ok (files.pread file.inode position.toNat length.toNat)

def writeBytes (bytes : Bytes) (position : UInt64) (fault : Option WriteFault) :
    Status × LocalFile × FileSystem Bytes :=
  if int64Max < position then
    (failedPreconditionError (text "Stream positions > " ++
      text (toString position.toNat) ++ text " are not yet supported."), file, files)
  else if bytes = [] then (okStatus, file, files)
  else
    match fault with
    | some fault =>
        let message := match fault.reason with
          | some reason => text "Error writing " ++ file.path ++ text ": " ++ reason
          | none => text "Write on " ++ file.path ++ text " returned an EOF."
        (unknownError message, file,
          files.pwrite file.inode position.toNat (bytes.take fault.written))
    | none =>
        let newSize := position + UInt64.ofNat bytes.length
        (okStatus, { file with size := max file.size newSize },
          files.pwrite file.inode position.toNat bytes)

/-- The size is set even if `ftruncate` fails. -/
def truncate (targetSize : UInt64) (fault : Option Bytes) :
    Status × LocalFile × FileSystem Bytes :=
  match fault with
  | some reason =>
      (unknownError (text "Unable to ftruncate file " ++ file.path ++ text ": " ++ reason),
        { file with size := targetSize }, files)
  | none =>
      (okStatus, { file with size := targetSize },
        files.ftruncate file.inode targetSize.toNat)

variable {file files}

/-- What is read below the highest position: the range, cut at the size. -/
theorem readBytes_of_lt {position : UInt64} (hposition : position < int64Max)
    (length : UInt64) :
    file.readBytes files position length = .ok (files.pread file.inode position.toNat
      (min length.toNat (file.size.toNat - position.toNat))) := by
  rw [readBytes, if_neg (UInt64.not_le.2 hposition)]
  split_ifs with hzero hbehind
  · simp [hzero, FileSystem.pread]
  · rw [UInt64.lt_iff_toNat_lt] at hbehind
    have hnothing : file.size.toNat - position.toNat = 0 := by omega
    simp [hnothing, FileSystem.pread]
  · have hcount : (min length (file.size - position)).toNat =
        min length.toNat (file.size.toNat - position.toNat) := by
      rw [UInt64.toNat_min, UInt64.toNat_sub_of_le _ _ (UInt64.not_lt.1 hbehind)]
    dsimp only
    split_ifs with hnothing
    · rw [← hcount, hnothing]
      simp [FileSystem.pread]
    · rw [hcount]

/-- What is read depends on the bytes of the own inode only. -/
theorem readBytes_congr {files' : FileSystem Bytes}
    (hcontent : files'.content file.inode = files.content file.inode)
    (position length : UInt64) :
    file.readBytes files' position length = file.readBytes files position length := by
  simp only [readBytes, FileSystem.pread, hcontent]

/-- A write changes neither the place of the file nor any link. -/
theorem writeBytes_place (bytes : Bytes) (position : UInt64) (fault : Option WriteFault) :
    (file.writeBytes files bytes position fault).2.1.path = file.path ∧
      (file.writeBytes files bytes position fault).2.1.inode = file.inode ∧
      (file.writeBytes files bytes position fault).2.2.links = files.links := by
  by_cases hposition : int64Max < position
  · simp only [writeBytes, hposition, ↓reduceIte, and_self]
  · by_cases hbytes : bytes = []
    · simp only [writeBytes, hposition, hbytes, ↓reduceIte, and_self]
    · simp only [writeBytes, hposition, hbytes, ↓reduceIte]
      cases fault <;> exact ⟨rfl, rfl, rfl⟩

theorem truncate_place (targetSize : UInt64) (fault : Option Bytes) :
    (file.truncate files targetSize fault).2.1.path = file.path ∧
      (file.truncate files targetSize fault).2.1.inode = file.inode ∧
      (file.truncate files targetSize fault).2.2.links = files.links := by
  cases fault <;> exact ⟨rfl, rfl, rfl⟩

end LocalFile

end GEDS
