/-
`geds::filesystem::MMAPFile`: a file behind a mapping of whole pages, which is made when it is
needed, grows with the file and is dropped by `notifyUnused`.
-/
import GEDS.Library.PageRounding
import GEDS.LocalFileTransfers

namespace GEDS

open Status

/-- Whether the kernel carries out the calls of an operation whose arguments it accepts, and the
text of `errno` if it does not; `posix_fallocate64` leaves an older one there. -/
structure KernelAnswers where
  fallocates : Bool
  maps : Bool
  reason : Bytes

/-- `MMAPFile`; `mapped` is `_mmapPtr != nullptr`, and `bytes` are those of the file behind
`_fd`, which the mapping shows and changes. -/
structure MMAPFile where
  path : Bytes
  size : UInt64
  mmapSize : UInt64
  mapped : Bool
  bytes : SparseArray UInt8

/-- Bytes moved to or from `_mmapPtr + offset`. -/
structure MappingCopy where
  offset : UInt64
  length : Nat

/-- What a call returns, what it copied and the file behind it. -/
structure MappedResult (ρ : Type) where
  result : Except Status ρ
  copied : Option MappingCopy
  file : MMAPFile

/-- A byte that `operator>>` skips. -/
def isSpace (byte : UInt8) : Bool := decide (byte = 0x20) || decide (0x09 ≤ byte ∧ byte ≤ 0x0d)

/-- What an `istream_iterator<char>` yields until the end of the stream. -/
def streamCharacters (stream : Bytes) : Bytes := stream.filter fun byte => !isSpace byte

namespace MMAPFile

/-- The constructor, if `open` succeeds: the size of what is there already is not asked for. -/
def new (path : Bytes) (content : SparseArray UInt8) : MMAPFile := ⟨path, 0, 0, false, content⟩

/-- `posix_fallocate64` refuses a length that is not positive as a signed number, and a range
behind the largest file. -/
def rejectsRange (offset length : UInt64) : Bool :=
  decide (length = 0 ∨ int64Max < offset ∨ int64Max < length ∨ int64Max - offset < length)

variable (page : PageSize) (file : MMAPFile)

/-- Why `increaseMmap` cannot grow the mapping to so many bytes: the range is rejected, or the
kernel fails. -/
def growthFails (newSize : UInt64) (answers : KernelAnswers) : Bool :=
  rejectsRange file.mmapSize (newSize - file.mmapSize) || !answers.fallocates || !answers.maps

def increaseMmap (requestSize : UInt64) (answers : KernelAnswers) : Status × MMAPFile :=
  if file.mmapSize < requestSize then
    let newSize := page.roundUp requestSize
    if rejectsRange file.mmapSize (newSize - file.mmapSize) || !answers.fallocates then
      (unknownError (text "Unable to extend file: " ++ file.path ++ text ". Reason: " ++
        answers.reason), file)
    else
      let extended : MMAPFile :=
        { file with bytes := file.bytes.truncate (max file.bytes.length newSize.toNat) }
      if answers.maps then (okStatus, { extended with mapped := true, mmapSize := newSize })
      else if file.mapped then
        (unknownError (text "mremap for file " ++ file.path ++ text " failed. Reason: " ++
          answers.reason), extended)
      else
        (unknownError (text "Failed to map file " ++ file.path ++ text " with requested size " ++
          text (toString requestSize.toNat) ++ text "."), extended)
  else (okStatus, file)

/-- `reopen`; nothing is mapped for a size of zero bytes. -/
def reopen (answers : KernelAnswers) : Status × MMAPFile :=
  if file.mapped then (okStatus, file)
  else
    let mmapSize := page.roundUp file.size
    if mmapSize = 0 || !answers.maps then
      (unknownError (text "Failed to map file " ++ file.path ++ text " with requested size " ++
        text (toString file.size.toNat) ++ text "."), file)
    else (okStatus, { file with mapped := true, mmapSize := mmapSize })

/-- `release`; an error of `munmap` is only logged. -/
def release : MMAPFile :=
  if file.mapped then { file with mapped := false, mmapSize := 0 } else file

def notifyUnused : MMAPFile := file.release

/-- The mapping with bytes stored at a position.  Bytes that leave the mapping go somewhere
else in memory; a run in which that happens has no states to speak of from there on. -/
def store (position : UInt64) (bytes : Bytes) : MMAPFile :=
  { file with
    bytes := file.bytes.write position.toNat
      (bytes.take (file.mmapSize.toNat - position.toNat)) }

/-- So many bytes of the mapping from a position on. -/
def load (position : UInt64) (n : Nat) : Bytes :=
  (List.range n).map fun index => file.bytes.get (position.toNat + index)

def readBytes (position length : UInt64) (answers : KernelAnswers) : MappedResult Bytes :=
  if int64Max < length then
    ⟨.error (failedPreconditionError (text "Lengths > " ++ text (toString int64Max.toNat) ++
      text " are not supported!")), none, file⟩
  else if int64Max ≤ position then
    ⟨.error (failedPreconditionError (text "Stream positions > " ++
      text (toString int64Max.toNat) ++ text " are not supported!")), none, file⟩
  else if length = 0 then ⟨.ok [], none, file⟩
  else
    let reopened := file.reopen page answers
    if reopened.1.ok = false then ⟨.error reopened.1, none, reopened.2⟩
    else
      let file := reopened.2
      if file.size ≤ position then ⟨.ok [], none, file⟩
      else
        let length := min length (file.size - position)
        if length = 0 then ⟨.ok [], none, file⟩
        else
          let n := min file.size (position + length) - position
          ⟨.ok (file.load position n.toNat), some ⟨position, n.toNat⟩, file⟩

/-- `rawPtr`, without the address. -/
def rawPtr (answers : KernelAnswers) : MappedResult Unit :=
  let reopened := file.reopen page answers
  if reopened.1.ok then ⟨.ok (), none, reopened.2⟩ else ⟨.error reopened.1, none, reopened.2⟩

def truncate (targetSize : UInt64) (answers : KernelAnswers) : MappedResult Unit :=
  if file.size < targetSize then
    let grown := file.increaseMmap page targetSize answers
    if grown.1.ok = false then ⟨.error grown.1, none, grown.2⟩
    else ⟨.ok (), none, { grown.2 with size := targetSize }⟩
  else ⟨.ok (), none, { file with size := targetSize }⟩

def writeBytes (buffer : Buffer) (position : UInt64) (answers : KernelAnswers) :
    MappedResult Unit :=
  let length := UInt64.ofNat buffer.bytes.length
  if length = 0 then ⟨.ok (), none, file⟩
  else
    let newSize := position + length
    let grown := if file.size < newSize then file.increaseMmap page newSize answers
      else (okStatus, file)
    if grown.1.ok = false then ⟨.error grown.1, none, grown.2⟩
    else if grown.2.mapped = false then
      ⟨.error ⟨.internal, text "The file is not mmapped!"⟩, none, grown.2⟩
    else
      let stored := grown.2.store position buffer.bytes
      ⟨.ok (), some ⟨position, buffer.bytes.length⟩,
        { stored with size := max stored.size newSize }⟩

/-- `write` of a stream.  Without a length the characters are counted; that leaves the stream
failed, so `seekg` does nothing and there is nothing left to copy.  With a length all characters
are copied, however many there are. -/
def write (stream : Bytes) (position : UInt64) (lengthArg : Option UInt64)
    (answers : KernelAnswers) : MappedResult UInt64 :=
  let length := match lengthArg with
    | some length => length
    | none => UInt64.ofNat (streamCharacters stream).length
  -- an OK status is no value for `absl::StatusOr`, which makes an internal error of it
  if length = 0 then
    ⟨.error ⟨.internal,
      text "An OK status is not a valid constructor argument to StatusOr<T>"⟩, none, file⟩
  else
    let newSize := position + length
    let grown := file.increaseMmap page newSize answers
    if grown.1.ok = false then ⟨.error grown.1, none, grown.2⟩
    else if grown.2.mapped = false then
      ⟨.error ⟨.internal, text "The file is not mmapped!"⟩, none, grown.2⟩
    else
      let copied := if lengthArg.isSome then streamCharacters stream else []
      let stored := grown.2.store position copied
      ⟨.ok length, some ⟨position, copied.length⟩,
        { stored with size := max stored.size newSize }⟩

/-- The length of a stream write -/
def streamLength (stream : Bytes) (lengthArg : Option UInt64) : UInt64 :=
  lengthArg.getD (UInt64.ofNat (streamCharacters stream).length)

/-- The characters that it copies -/
def copiedCharacters (stream : Bytes) (lengthArg : Option UInt64) : Bytes :=
  if lengthArg.isSome then streamCharacters stream else []

/-- The mapping has whole pages and holds the file. -/
def Covers : Prop :=
  file.mapped = true → page.bytes.toNat ∣ file.mmapSize.toNat ∧ file.size ≤ file.mmapSize

/-- Without a mapping there is no size of it. -/
def Released : Prop := file.mapped = false → file.mmapSize = 0

end MMAPFile

/-- The calls of an `MMAPFile` that move bytes or change what it keeps -/
inductive MappedCall where
  | readBytes (position length : UInt64) (answers : KernelAnswers)
  | rawPtr (answers : KernelAnswers)
  | truncate (targetSize : UInt64) (answers : KernelAnswers)
  | writeBytes (buffer : Buffer) (position : UInt64) (answers : KernelAnswers)
  | write (stream : Bytes) (position : UInt64) (lengthArg : Option UInt64)
      (answers : KernelAnswers)
  | notifyUnused

/-- A call by its outcome alone. -/
def MappedResult.forget {ρ : Type} (after : MappedResult ρ) : MappedResult Unit :=
  ⟨after.result.map fun _ => (), after.copied, after.file⟩

namespace MappedCall

variable (page : PageSize) (file : MMAPFile)

def perform : MappedCall → MappedResult Unit
  | readBytes position length answers => (file.readBytes page position length answers).forget
  | rawPtr answers => file.rawPtr page answers
  | truncate targetSize answers => file.truncate page targetSize answers
  | writeBytes buffer position answers => file.writeBytes page buffer position answers
  | write stream position lengthArg answers =>
      (file.write page stream position lengthArg answers).forget
  | notifyUnused => ⟨.ok (), none, file.notifyUnused⟩

/-- Every byte that a call copies lies in the mapping, and a call that fails copies nothing. -/
def CopiesInside (call : MappedCall) : Prop :=
  ∀ copy ∈ (call.perform page file).copied,
    (call.perform page file).result = .ok () ∧
      (copy.length = 0 ∨
        copy.offset.toNat + copy.length ≤ (call.perform page file).file.mmapSize.toNat)

/-- What keeps a call inside: the end of a write does not wrap, or the write is refused; and a
stream is refused, or its characters end in front of the end of the mapping and it is not written
in front of the end of a file without a mapping, where the new mapping would be too short. -/
def Fits : MappedCall → Prop
  | writeBytes buffer position answers =>
      let newSize := position + UInt64.ofNat buffer.bytes.length
      position.toNat + buffer.bytes.length < 2 ^ 64 ∨
        if file.size < newSize then
          file.mmapSize < newSize ∧ file.growthFails (page.roundUp newSize) answers = true
        else file.mapped = false
  | write stream position lengthArg answers =>
      let newSize := position + MMAPFile.streamLength stream lengthArg
      let copied := MMAPFile.copiedCharacters stream lengthArg
      MMAPFile.streamLength stream lengthArg = 0 ∨
        if file.mmapSize < newSize then
          file.growthFails (page.roundUp newSize) answers = true ∨
            (file.mapped = true ∨ file.size ≤ page.roundUp newSize) ∧
              (copied = [] ∨ position.toNat + copied.length ≤ (page.roundUp newSize).toNat)
        else file.mapped = false ∨ copied = [] ∨
          position.toNat + copied.length ≤ file.mmapSize.toNat
  | _ => True

/-- In every state of a run the mapping holds the file, and every copy stays in the mapping. -/
def SafeRun : MMAPFile → List MappedCall → Prop
  | file, [] => file.Covers page
  | file, call :: calls => file.Covers page ∧ call.CopiesInside page file ∧
      SafeRun (call.perform page file).file calls

/-- Every call of a run fits in the state that it finds. -/
def FitsRun : MMAPFile → List MappedCall → Prop
  | _, [] => True
  | file, call :: calls => call.Fits page file ∧ FitsRun (call.perform page file).file calls

end MappedCall

namespace MMAPFile

variable {page : PageSize} {file : MMAPFile} {answers : KernelAnswers} {position length : UInt64}

/-- A mapping of no bytes is never allocated. -/
theorem rejectsRange_zero (mmapSize : UInt64) : rejectsRange mmapSize (0 - mmapSize) = true := by
  have hmax : int64Max.toNat = 2 ^ 63 - 1 := rfl
  have hword := mmapSize.toNat_lt
  rw [rejectsRange, decide_eq_true_eq]
  by_cases hzero : mmapSize = 0
  · exact Or.inl (by rw [hzero]; rfl)
  · have hpositive := toNat_pos_of_ne_zero hzero
    have hlength : (0 - mmapSize).toNat = 2 ^ 64 - mmapSize.toNat := by
      rw [UInt64.toNat_sub, UInt64.toNat_zero]
      omega
    rcases Nat.lt_or_ge (2 ^ 63 - 1) mmapSize.toNat with hlarge | hsmall
    · exact Or.inr (Or.inl (UInt64.lt_iff_toNat_lt.2 (by rwa [hmax])))
    · exact Or.inr (Or.inr (Or.inl (UInt64.lt_iff_toNat_lt.2 (by rw [hmax, hlength]; omega))))

/-- A mapping that grows has whole pages and reaches as far as it was asked to. -/
theorem roundUp_of_growth {requestSize : UInt64}
    (hgrows : file.growthFails (page.roundUp requestSize) answers = false) :
    page.bytes.toNat ∣ (page.roundUp requestSize).toNat ∧
      requestSize ≤ page.roundUp requestSize := by
  rcases page.roundUp_spec requestSize with hzero | ⟨hdvd, hle, -⟩
  · rw [growthFails, hzero, rejectsRange_zero] at hgrows
    cases hgrows
  · exact ⟨hdvd, UInt64.le_iff_toNat_le.2 hle⟩

/-- What `increaseMmap` can do: nothing, since the mapping is large enough; fail; or grow the
mapping to whole pages. -/
theorem increaseMmap_cases (page : PageSize) (file : MMAPFile) (requestSize : UInt64)
    (answers : KernelAnswers) :
    (requestSize ≤ file.mmapSize ∧
      file.increaseMmap page requestSize answers = (okStatus, file)) ∨
    (file.mmapSize < requestSize ∧
      file.growthFails (page.roundUp requestSize) answers = true ∧
      ∃ status bytes, status.ok = false ∧
        file.increaseMmap page requestSize answers = (status, { file with bytes := bytes })) ∨
    (file.mmapSize < requestSize ∧
      file.growthFails (page.roundUp requestSize) answers = false ∧
      file.increaseMmap page requestSize answers =
        (okStatus, { file with
          mapped := true
          mmapSize := page.roundUp requestSize
          bytes := file.bytes.truncate
            (max file.bytes.length (page.roundUp requestSize).toNat) })) := by
  have hunknown : ∀ message, (unknownError message).ok = false := fun _ => rfl
  rw [increaseMmap, growthFails]
  by_cases hless : file.mmapSize < requestSize
  · right
    simp only [hless, ↓reduceIte, true_and]
    cases hrejects : rejectsRange file.mmapSize (page.roundUp requestSize - file.mmapSize) ||
        !answers.fallocates with
    | true =>
        left
        simp only [↓reduceIte, Bool.true_or, true_and]
        exact ⟨_, _, hunknown _, rfl⟩
    | false =>
        cases hmaps : answers.maps with
        | true =>
            right
            simp
        | false =>
            left
            cases hmapped : file.mapped with
            | true => exact ⟨rfl, _, _, hunknown _, rfl⟩
            | false => exact ⟨rfl, _, _, hunknown _, rfl⟩
  · left
    rw [if_neg hless]
    exact ⟨UInt64.not_lt.1 hless, rfl⟩

/-- What `reopen` can do: nothing, since there is a mapping; fail; or map the pages of the
file. -/
theorem reopen_cases (page : PageSize) (file : MMAPFile) (answers : KernelAnswers) :
    (file.mapped = true ∧ file.reopen page answers = (okStatus, file)) ∨
    (file.mapped = false ∧ (page.roundUp file.size = 0 ∨ answers.maps = false) ∧
      ∃ status, status.ok = false ∧ file.reopen page answers = (status, file)) ∨
    (file.mapped = false ∧ page.roundUp file.size ≠ 0 ∧ answers.maps = true ∧
      file.reopen page answers =
        (okStatus, { file with mapped := true, mmapSize := page.roundUp file.size })) := by
  have hunknown : ∀ message, (unknownError message).ok = false := fun _ => rfl
  rw [reopen]
  cases hmapped : file.mapped with
  | true => exact Or.inl ⟨rfl, rfl⟩
  | false =>
      right
      by_cases hfails : page.roundUp file.size = 0 ∨ answers.maps = false
      · left
        have hcond : (decide (page.roundUp file.size = 0) || !answers.maps) = true := by
          simpa using hfails
        exact ⟨rfl, hfails, _, hunknown _, by rw [if_neg Bool.false_ne_true]; exact if_pos hcond⟩
      · right
        rw [not_or, Bool.not_eq_false] at hfails
        simp [hfails.1, hfails.2]

/-- A mapping that is made again holds the file. -/
theorem covers_reopen (hcovers : file.Covers page) : (file.reopen page answers).2.Covers page := by
  rcases reopen_cases page file answers with
    ⟨-, heq⟩ | ⟨-, -, status, -, heq⟩ | ⟨-, hnonzero, -, heq⟩
  · rw [heq]
    exact hcovers
  · rw [heq]
    exact hcovers
  · rw [heq]
    intro _
    rcases page.roundUp_spec file.size with hzero | ⟨hdvd, hle, -⟩
    · exact absurd hzero hnonzero
    · exact ⟨hdvd, UInt64.le_iff_toNat_le.2 hle⟩

/-- Behind a `reopen` that succeeds there is a mapping. -/
theorem mapped_of_reopen (hok : (file.reopen page answers).1.ok = true) :
    (file.reopen page answers).2.mapped = true := by
  rcases reopen_cases page file answers with
    ⟨hmapped, heq⟩ | ⟨-, -, status, hfails, heq⟩ | ⟨-, -, -, heq⟩
  · rw [heq]
    exact hmapped
  · rw [heq] at hok
    rw [hok] at hfails
    cases hfails
  · rw [heq]

theorem released_reopen (hreleased : file.Released) :
    (file.reopen page answers).2.Released := by
  rcases reopen_cases page file answers with
    ⟨-, heq⟩ | ⟨-, -, status, -, heq⟩ | ⟨-, -, -, heq⟩
  · rwa [heq]
  · rwa [heq]
  · rw [heq]
    intro hmapped
    cases hmapped

/-- What a read leaves of the file is what `reopen` does, or the file as it was. -/
theorem readBytes_file (page : PageSize) (file : MMAPFile) (position length : UInt64)
    (answers : KernelAnswers) :
    (file.readBytes page position length answers).file = file ∨
      (file.readBytes page position length answers).file = (file.reopen page answers).2 := by
  rw [readBytes]
  split_ifs <;> first | exact Or.inl rfl | skip
  all_goals
    right
    dsimp only
    split_ifs <;> rfl

theorem size_reopen (page : PageSize) (file : MMAPFile) (answers : KernelAnswers) :
    (file.reopen page answers).2.size = file.size ∧
      (file.reopen page answers).2.bytes = file.bytes := by
  rcases reopen_cases page file answers with
    ⟨-, heq⟩ | ⟨-, -, status, -, heq⟩ | ⟨-, -, -, heq⟩ <;> rw [heq] <;> exact ⟨rfl, rfl⟩

/-- A read through the mapping: as many bytes as there are up to the size. -/
theorem readBytes_of_reopen (hlength : length ≤ int64Max) (hposition : position < int64Max)
    (hnonzero : length ≠ 0) (hok : (file.reopen page answers).1.ok = true) :
    file.readBytes page position length answers =
      ⟨.ok (file.load position (min length.toNat (file.size.toNat - position.toNat))),
        if file.size ≤ position then none
        else some ⟨position, min length.toNat (file.size.toNat - position.toNat)⟩,
        (file.reopen page answers).2⟩ := by
  obtain ⟨hsize, hbytes⟩ := size_reopen page file answers
  rw [readBytes, if_neg (UInt64.not_lt.2 hlength), if_neg (UInt64.not_le.2 hposition),
    if_neg hnonzero]
  simp only [hok, Bool.true_eq_false, ↓reduceIte, load, hsize, hbytes]
  by_cases hbehind : file.size ≤ position
  · have hnone : file.size.toNat - position.toNat = 0 :=
      Nat.sub_eq_zero_of_le (UInt64.le_iff_toNat_le.1 hbehind)
    simp [hbehind, hnone]
  · have hbelow := UInt64.lt_iff_toNat_lt.1 (UInt64.not_le.1 hbehind)
    have hpositive := toNat_pos_of_ne_zero hnonzero
    have hcount : (min length (file.size - position)).toNat =
        min length.toNat (file.size.toNat - position.toNat) := by
      rw [UInt64.toNat_min, UInt64.toNat_sub_of_le _ _ (UInt64.le_iff_toNat_le.2 hbelow.le)]
    have hsome : min length (file.size - position) ≠ 0 := by
      intro hzero
      rw [hzero, UInt64.toNat_zero] at hcount
      omega
    have hend : (position + min length (file.size - position)).toNat =
        position.toNat + min length.toNat (file.size.toNat - position.toNat) := by
      have hword := file.size.toNat_lt
      rw [toNat_add_of_lt (by omega), hcount]
    have hn : (min file.size (position + min length (file.size - position)) - position).toNat =
        min length.toNat (file.size.toNat - position.toNat) := by
      rw [UInt64.toNat_sub_of_le _ _ (UInt64.le_iff_toNat_le.2 (by
        rw [UInt64.toNat_min, hend]; omega)), UInt64.toNat_min, hend]
      omega
    simp only [hbehind, ↓reduceIte, hsome, hn]

/-- What a read copies lies in the mapping. -/
theorem readBytes_inside (hcovers : file.Covers page) {copy : MappingCopy}
    (hcopy : copy ∈ (file.readBytes page position length answers).copied) :
    (∃ bytes, (file.readBytes page position length answers).result = .ok bytes) ∧
      copy.offset.toNat + copy.length ≤
        (file.readBytes page position length answers).file.mmapSize.toNat := by
  by_cases hlength : int64Max < length
  · simp [readBytes, hlength] at hcopy
  by_cases hposition : int64Max ≤ position
  · simp [readBytes, hlength, hposition] at hcopy
  by_cases hnonzero : length = 0
  · simp [readBytes, hposition, hnonzero] at hcopy
  cases hok : (file.reopen page answers).1.ok with
  | false => simp [readBytes, hlength, hposition, hnonzero, hok] at hcopy
  | true =>
      rw [readBytes_of_reopen (UInt64.not_lt.1 hlength) (UInt64.not_le.1 hposition) hnonzero hok]
        at hcopy ⊢
      refine ⟨⟨_, rfl⟩, ?_⟩
      dsimp only at hcopy ⊢
      split_ifs at hcopy with hbehind
      · cases hcopy
      · obtain rfl := Option.some.inj hcopy
        have hmapped := covers_reopen hcovers (mapped_of_reopen hok)
        rw [(size_reopen page file answers).1, UInt64.le_iff_toNat_le] at hmapped
        have hbelow := UInt64.lt_iff_toNat_lt.1 (UInt64.not_le.1 hbehind)
        dsimp only
        omega

section Growth

variable {requestSize : UInt64}

/-- A growth keeps the mapping over the file, if there was one or the new one is large enough. -/
theorem covers_increaseMmap (hcovers : file.Covers page)
    (hfits : file.mapped = true ∨
      file.growthFails (page.roundUp requestSize) answers = true ∨
      file.size ≤ page.roundUp requestSize) :
    (file.increaseMmap page requestSize answers).2.Covers page := by
  rcases increaseMmap_cases page file requestSize answers with
    ⟨-, heq⟩ | ⟨-, -, status, bytes, -, heq⟩ | ⟨hless, hgrows, heq⟩
  · rwa [heq]
  · rw [heq]
    exact hcovers
  · obtain ⟨hdvd, hreaches⟩ := roundUp_of_growth hgrows
    rw [heq]
    intro _
    refine ⟨hdvd, ?_⟩
    rcases hfits with hmapped | hfails | hsize
    · exact UInt64.le_trans (hcovers hmapped).2 (UInt64.le_trans (UInt64.le_of_lt hless) hreaches)
    · rw [hgrows] at hfails
      cases hfails
    · exact hsize

/-- A growth to the size of the file or more keeps the mapping over it. -/
theorem covers_increaseMmap_of_le (hcovers : file.Covers page)
    (hle : file.size ≤ requestSize) :
    (file.increaseMmap page requestSize answers).2.Covers page := by
  refine covers_increaseMmap hcovers (Or.inr ?_)
  cases hgrows : file.growthFails (page.roundUp requestSize) answers with
  | true => exact Or.inl rfl
  | false => exact Or.inr (UInt64.le_trans hle (roundUp_of_growth hgrows).2)

theorem released_increaseMmap (hreleased : file.Released) :
    (file.increaseMmap page requestSize answers).2.Released := by
  rcases increaseMmap_cases page file requestSize answers with
    ⟨-, heq⟩ | ⟨-, -, status, bytes, -, heq⟩ | ⟨-, -, heq⟩
  · rwa [heq]
  · rw [heq]
    exact hreleased
  · rw [heq]
    intro hmapped
    cases hmapped

theorem size_increaseMmap (page : PageSize) (file : MMAPFile) (requestSize : UInt64)
    (answers : KernelAnswers) :
    (file.increaseMmap page requestSize answers).2.size = file.size := by
  rcases increaseMmap_cases page file requestSize answers with
    ⟨-, heq⟩ | ⟨-, -, status, bytes, -, heq⟩ | ⟨-, -, heq⟩ <;> rw [heq]

/-- Behind a growth that succeeds there is a mapping, and it reaches as far as was asked. -/
theorem mapped_of_increaseMmap (hreleased : file.Released) (hrequest : requestSize ≠ 0)
    (hok : (file.increaseMmap page requestSize answers).1.ok = true) :
    (file.increaseMmap page requestSize answers).2.mapped = true ∧
      requestSize ≤ (file.increaseMmap page requestSize answers).2.mmapSize := by
  rcases increaseMmap_cases page file requestSize answers with
    ⟨hle, heq⟩ | ⟨-, -, status, bytes, hfails, heq⟩ | ⟨-, hgrows, heq⟩
  · rw [heq]
    refine ⟨?_, hle⟩
    cases hmapped : file.mapped with
    | true => rfl
    | false =>
        -- a mapping that is not there has no bytes to reach so far
        rw [hreleased hmapped] at hle
        exact absurd (UInt64.le_zero_iff.1 hle) hrequest
  · rw [heq] at hok
    rw [hok] at hfails
    cases hfails
  · rw [heq]
    exact ⟨rfl, (roundUp_of_growth hgrows).2⟩

/-- A growth that fails has been asked for and cannot be done. -/
theorem growthFails_of_increaseMmap
    (hfails : (file.increaseMmap page requestSize answers).1.ok = false) :
    file.mmapSize < requestSize ∧
      file.growthFails (page.roundUp requestSize) answers = true := by
  rcases increaseMmap_cases page file requestSize answers with
    ⟨-, heq⟩ | ⟨hless, hgrowth, -⟩ | ⟨-, -, heq⟩
  · rw [heq] at hfails
    cases hfails
  · exact ⟨hless, hgrowth⟩
  · rw [heq] at hfails
    cases hfails

/-- A growth that is asked for and can be done succeeds. -/
theorem not_growthFails_of_increaseMmap (hless : file.mmapSize < requestSize)
    (hok : (file.increaseMmap page requestSize answers).1.ok = true) :
    file.growthFails (page.roundUp requestSize) answers = false := by
  rcases increaseMmap_cases page file requestSize answers with
    ⟨hle, -⟩ | ⟨-, -, status, bytes, hfails, heq⟩ | ⟨-, hgrows, -⟩
  · exact absurd hless (UInt64.not_lt.2 hle)
  · rw [heq] at hok
    rw [hok] at hfails
    cases hfails
  · exact hgrows

theorem mmapSize_of_growth (hless : file.mmapSize < requestSize)
    (hgrows : file.growthFails (page.roundUp requestSize) answers = false) :
    (file.increaseMmap page requestSize answers).2.mmapSize = page.roundUp requestSize := by
  rcases increaseMmap_cases page file requestSize answers with
    ⟨hle, -⟩ | ⟨-, hfails, -⟩ | ⟨-, -, heq⟩
  · exact absurd hless (UInt64.not_lt.2 hle)
  · rw [hgrows] at hfails
    cases hfails
  · rw [heq]

/-- Bytes stored and a size that the mapping reaches -/
theorem covers_store (hcovers : file.Covers page) {newSize : UInt64}
    (hreaches : newSize ≤ file.mmapSize) (bytes : Bytes) :
    ({ file.store position bytes with
      size := max (file.store position bytes).size newSize } : MMAPFile).Covers page := by
  intro hmapped
  obtain ⟨hdvd, hsize⟩ := hcovers hmapped
  refine ⟨hdvd, ?_⟩
  rw [UInt64.le_iff_toNat_le] at hsize hreaches ⊢
  rw [UInt64.toNat_max]
  exact max_le hsize hreaches

end Growth

section Write

variable {buffer : Buffer} {newSize : UInt64}

/-- The word of the length of a buffer -/
theorem toNat_length (buffer : Buffer) :
    (UInt64.ofNat buffer.bytes.length).toNat = buffer.bytes.length :=
  Nat.mod_eq_of_lt buffer.fits

/-- The file when `writeBytes` comes to copy. -/
def grownFor (page : PageSize) (file : MMAPFile) (newSize : UInt64) (answers : KernelAnswers) :
    Status × MMAPFile :=
  if file.size < newSize then file.increaseMmap page newSize answers else (okStatus, file)

theorem covers_grownFor (hcovers : file.Covers page) :
    (grownFor page file newSize answers).2.Covers page := by
  rw [grownFor]
  split_ifs with hless
  · exact covers_increaseMmap_of_le hcovers (UInt64.le_of_lt hless)
  · exact hcovers

theorem released_grownFor (hreleased : file.Released) :
    (grownFor page file newSize answers).2.Released := by
  rw [grownFor]
  split_ifs with hless
  · exact released_increaseMmap hreleased
  · exact hreleased

/-- A mapping is missing behind a growth only if there was nothing to grow. -/
theorem mapped_grownFor (hreleased : file.Released)
    (hok : (grownFor page file newSize answers).1.ok = true) :
    (grownFor page file newSize answers).2.mapped = true ↔
      file.mapped = true ∨ file.size < newSize := by
  rw [grownFor] at hok ⊢
  split_ifs at hok ⊢ with hless
  · have hnonzero : newSize ≠ 0 := by
      rintro rfl
      exact UInt64.not_lt_zero hless
    exact iff_of_true (mapped_of_increaseMmap hreleased hnonzero hok).1 (Or.inr hless)
  · exact (or_iff_left hless).symm

/-- The mapping reaches as far as the write, by its word for the end. -/
theorem grownFor_reaches (hcovers : file.Covers page) (hreleased : file.Released)
    (hok : (grownFor page file newSize answers).1.ok = true)
    (hmapped : (grownFor page file newSize answers).2.mapped = true) :
    newSize ≤ (grownFor page file newSize answers).2.mmapSize := by
  rw [grownFor] at hok hmapped ⊢
  split_ifs at hok hmapped ⊢ with hless
  · have hnonzero : newSize ≠ 0 := by
      rintro rfl
      exact UInt64.not_lt_zero hless
    exact (mapped_of_increaseMmap hreleased hnonzero hok).2
  · exact UInt64.le_trans (UInt64.not_lt.1 hless) (hcovers hmapped).2

theorem writeBytes_zero (hzero : UInt64.ofNat buffer.bytes.length = 0) :
    file.writeBytes page buffer position answers = ⟨.ok (), none, file⟩ := by
  rw [writeBytes, if_pos hzero]

theorem writeBytes_refused (hzero : UInt64.ofNat buffer.bytes.length ≠ 0)
    (hnewSize : position + UInt64.ofNat buffer.bytes.length = newSize)
    (hrefused : (grownFor page file newSize answers).1.ok = false) :
    file.writeBytes page buffer position answers =
      ⟨.error (grownFor page file newSize answers).1, none,
        (grownFor page file newSize answers).2⟩ := by
  simp only [writeBytes, hzero, hnewSize, ↓reduceIte]
  rw [← grownFor, if_pos hrefused]

theorem writeBytes_unmapped (hzero : UInt64.ofNat buffer.bytes.length ≠ 0)
    (hnewSize : position + UInt64.ofNat buffer.bytes.length = newSize)
    (hok : (grownFor page file newSize answers).1.ok = true)
    (hmapped : (grownFor page file newSize answers).2.mapped = false) :
    file.writeBytes page buffer position answers =
      ⟨.error ⟨.internal, text "The file is not mmapped!"⟩, none,
        (grownFor page file newSize answers).2⟩ := by
  simp only [writeBytes, hzero, hnewSize, ↓reduceIte]
  rw [← grownFor, if_neg (by simp [hok]), if_pos hmapped]

theorem writeBytes_mapped (hzero : UInt64.ofNat buffer.bytes.length ≠ 0)
    (hnewSize : position + UInt64.ofNat buffer.bytes.length = newSize)
    (hok : (grownFor page file newSize answers).1.ok = true)
    (hmapped : (grownFor page file newSize answers).2.mapped = true) :
    file.writeBytes page buffer position answers =
      ⟨.ok (), some ⟨position, buffer.bytes.length⟩,
        { (grownFor page file newSize answers).2.store position buffer.bytes with
          size := max ((grownFor page file newSize answers).2.store position
            buffer.bytes).size newSize }⟩ := by
  simp only [writeBytes, hzero, hnewSize, ↓reduceIte]
  rw [← grownFor, if_neg (by simp [hok]), if_neg (by simp [hmapped])]

end Write

section Stream

variable {stream : Bytes} {lengthArg : Option UInt64} {newSize : UInt64}

theorem write_zero (hzero : streamLength stream lengthArg = 0) :
    file.write page stream position lengthArg answers =
      ⟨.error ⟨.internal,
        text "An OK status is not a valid constructor argument to StatusOr<T>"⟩, none, file⟩ := by
  unfold write
  cases lengthArg <;> exact if_pos hzero

theorem write_refused (hzero : streamLength stream lengthArg ≠ 0)
    (hnewSize : position + streamLength stream lengthArg = newSize)
    (hrefused : (file.increaseMmap page newSize answers).1.ok = false) :
    file.write page stream position lengthArg answers =
      ⟨.error (file.increaseMmap page newSize answers).1, none,
        (file.increaseMmap page newSize answers).2⟩ := by
  subst hnewSize
  unfold write
  cases lengthArg <;> exact (if_neg hzero).trans (if_pos hrefused)

theorem write_unmapped (hzero : streamLength stream lengthArg ≠ 0)
    (hnewSize : position + streamLength stream lengthArg = newSize)
    (hok : (file.increaseMmap page newSize answers).1.ok = true)
    (hmapped : (file.increaseMmap page newSize answers).2.mapped = false) :
    file.write page stream position lengthArg answers =
      ⟨.error ⟨.internal, text "The file is not mmapped!"⟩, none,
        (file.increaseMmap page newSize answers).2⟩ := by
  subst hnewSize
  have hnot : ¬ (file.increaseMmap page (position + streamLength stream lengthArg)
    answers).1.ok = false := by simp [hok]
  unfold write
  cases lengthArg <;> exact (if_neg hzero).trans ((if_neg hnot).trans (if_pos hmapped))

theorem write_mapped (hzero : streamLength stream lengthArg ≠ 0)
    (hnewSize : position + streamLength stream lengthArg = newSize)
    (hok : (file.increaseMmap page newSize answers).1.ok = true)
    (hmapped : (file.increaseMmap page newSize answers).2.mapped = true) :
    file.write page stream position lengthArg answers =
      ⟨.ok (streamLength stream lengthArg),
        some ⟨position, (copiedCharacters stream lengthArg).length⟩,
        { (file.increaseMmap page newSize answers).2.store position
            (copiedCharacters stream lengthArg) with
          size := max ((file.increaseMmap page newSize answers).2.store position
            (copiedCharacters stream lengthArg)).size newSize }⟩ := by
  subst hnewSize
  have hnot : ¬ (file.increaseMmap page (position + streamLength stream lengthArg)
    answers).1.ok = false := by simp [hok]
  have hsome : ¬ (file.increaseMmap page (position + streamLength stream lengthArg)
    answers).2.mapped = false := by simp [hmapped]
  unfold write
  cases lengthArg <;> exact (if_neg hzero).trans ((if_neg hnot).trans (if_neg hsome))

end Stream

end MMAPFile

namespace MappedCall

variable {page : PageSize} {file : MMAPFile} {answers : KernelAnswers} {position : UInt64}

/-- A call copies inside and leaves the mapping over the file. -/
def Safe (page : PageSize) (file : MMAPFile) (call : MappedCall) : Prop :=
  call.CopiesInside page file ∧ (call.perform page file).file.Covers page

theorem safe_of_no_copy {call : MappedCall}
    (hcopied : (call.perform page file).copied = none)
    (hcovers : (call.perform page file).file.Covers page) : call.Safe page file := by
  refine ⟨fun copy hcopy => ?_, hcovers⟩
  rw [hcopied] at hcopy
  cases hcopy

theorem readBytes_safe (hcovers : file.Covers page) (length : UInt64) :
    (readBytes position length answers).Safe page file := by
  refine ⟨fun copy hcopy => ?_, ?_⟩
  · obtain ⟨⟨bytes, hresult⟩, hinside⟩ := MMAPFile.readBytes_inside hcovers hcopy
    refine ⟨?_, Or.inr hinside⟩
    rw [perform, MappedResult.forget, hresult]
    rfl
  · rcases MMAPFile.readBytes_file page file position length answers with hfile | hfile
    · rw [perform, MappedResult.forget, hfile]
      exact hcovers
    · rw [perform, MappedResult.forget, hfile]
      exact MMAPFile.covers_reopen hcovers

theorem rawPtr_safe (hcovers : file.Covers page) : (rawPtr answers).Safe page file := by
  have hreopened := @MMAPFile.covers_reopen page file answers hcovers
  apply safe_of_no_copy <;> rw [perform, MMAPFile.rawPtr] <;> split_ifs
  · rfl
  · rfl
  · exact hreopened
  · exact hreopened

theorem truncate_safe (hcovers : file.Covers page) (hreleased : file.Released)
    (targetSize : UInt64) : (truncate targetSize answers).Safe page file := by
  have hperform : (truncate targetSize answers).perform page file =
      file.truncate page targetSize answers := rfl
  by_cases hless : file.size < targetSize
  · have hnonzero : targetSize ≠ 0 := by
      rintro rfl
      exact UInt64.not_lt_zero hless
    have hgrown := @MMAPFile.covers_increaseMmap_of_le page file answers _ hcovers
      (UInt64.le_of_lt hless)
    cases hok : (file.increaseMmap page targetSize answers).1.ok with
    | false =>
        apply safe_of_no_copy <;> rw [hperform, MMAPFile.truncate, if_pos hless, if_pos hok]
        exact hgrown
    | true =>
        have hreaches := MMAPFile.mapped_of_increaseMmap hreleased hnonzero hok
        have hnot : ¬ (file.increaseMmap page targetSize answers).1.ok = false := by simp [hok]
        apply safe_of_no_copy <;> rw [hperform, MMAPFile.truncate, if_pos hless, if_neg hnot]
        intro hmapped
        exact ⟨(hgrown hmapped).1, hreaches.2⟩
  · apply safe_of_no_copy <;> rw [hperform, MMAPFile.truncate, if_neg hless]
    intro hmapped
    exact ⟨(hcovers hmapped).1, UInt64.le_trans (UInt64.not_lt.1 hless) (hcovers hmapped).2⟩

section Write

open MMAPFile

variable {buffer : Buffer} {newSize : UInt64}
  (hnewSize : position + UInt64.ofNat buffer.bytes.length = newSize)
  (hok : (grownFor page file newSize answers).1.ok = true)
  (hmapped : (grownFor page file newSize answers).2.mapped = true)
include hnewSize hok hmapped

/-- A write that comes to copy stays inside if its end does not wrap. -/
theorem writeBytes_safe_of_mapped (hcovers : file.Covers page) (hreleased : file.Released)
    (hzero : UInt64.ofNat buffer.bytes.length ≠ 0) :
    (writeBytes buffer position answers).Safe page file ↔
      position.toNat + buffer.bytes.length < 2 ^ 64 := by
  have hreaches := grownFor_reaches hcovers hreleased hok hmapped
  have hwritten : (writeBytes buffer position answers).perform page file = _ :=
    writeBytes_mapped hzero hnewSize hok hmapped
  rcases Nat.lt_or_ge (position.toNat + buffer.bytes.length) (2 ^ 64) with hsum | hwraps
  · have hend : newSize.toNat = position.toNat + buffer.bytes.length := by
      rw [← hnewSize, toNat_add_ofNat hsum]
    refine iff_of_true ⟨fun copy hcopy => ?_, ?_⟩ hsum
    · rw [hwritten] at hcopy ⊢
      obtain rfl := Option.some.inj hcopy
      refine ⟨rfl, Or.inr ?_⟩
      rw [UInt64.le_iff_toNat_le, hend] at hreaches
      exact hreaches
    · rw [hwritten]
      exact covers_store (covers_grownFor hcovers) hreaches buffer.bytes
  · refine iff_of_false ?_ (Nat.not_lt.2 hwraps)
    -- the copy ends behind every word
    rintro ⟨hinside, -⟩
    obtain ⟨-, hle⟩ := hinside ⟨position, buffer.bytes.length⟩ (by rw [hwritten]; rfl)
    have hword := ((writeBytes buffer position answers).perform page file).file.mmapSize.toNat_lt
    have hlength := buffer.fits
    have hstarts := position.toNat_lt
    dsimp only at hle
    omega

/-- Such a write is not refused. -/
theorem fits_writeBytes_of_mapped (hreleased : file.Released) :
    (writeBytes buffer position answers).Fits page file ↔
      position.toNat + buffer.bytes.length < 2 ^ 64 := by
  have hkept := (mapped_grownFor hreleased hok).1 hmapped
  simp only [Fits, hnewSize]
  refine or_iff_left ?_
  split_ifs with hless
  · rintro ⟨hshort, hfails⟩
    rw [grownFor, if_pos hless] at hok
    rw [not_growthFails_of_increaseMmap hshort hok] at hfails
    cases hfails
  · rw [or_iff_left hless] at hkept
    simp [hkept]

end Write

open MMAPFile in
/-- A write stays inside exactly if its end does not wrap, or it is refused. -/
theorem writeBytes_safe_iff (hcovers : file.Covers page) (hreleased : file.Released)
    (buffer : Buffer) : (writeBytes buffer position answers).Safe page file ↔
      (writeBytes buffer position answers).Fits page file := by
  have hperform : (writeBytes buffer position answers).perform page file =
      file.writeBytes page buffer position answers := rfl
  by_cases hzero : UInt64.ofNat buffer.bytes.length = 0
  · have hempty : buffer.bytes.length = 0 := by
      rw [← toNat_length buffer, hzero, UInt64.toNat_zero]
    refine iff_of_true ?_ (Or.inl ?_)
    · apply safe_of_no_copy <;> rw [hperform, writeBytes_zero hzero]
      exact hcovers
    · rw [hempty]
      exact position.toNat_lt
  generalize hnewSize : position + UInt64.ofNat buffer.bytes.length = newSize
  have hgrown := @covers_grownFor page file answers newSize hcovers
  cases hok : (grownFor page file newSize answers).1.ok with
  | false =>
      have hless : file.size < newSize := by
        by_contra hnot
        rw [grownFor, if_neg hnot] at hok
        cases hok
      refine iff_of_true ?_ (Or.inr ?_)
      · apply safe_of_no_copy <;> rw [hperform, writeBytes_refused hzero hnewSize hok]
        exact hgrown
      · simp only [hnewSize, hless, ↓reduceIte]
        rw [grownFor, if_pos hless] at hok
        exact growthFails_of_increaseMmap hok
  | true =>
      cases hmapped : (grownFor page file newSize answers).2.mapped with
      | false =>
          have hkeeps := mapped_grownFor hreleased hok
          simp only [hmapped, Bool.false_eq_true, false_iff, not_or, Bool.not_eq_true] at hkeeps
          refine iff_of_true ?_ (Or.inr ?_)
          · apply safe_of_no_copy <;> rw [hperform, writeBytes_unmapped hzero hnewSize hok hmapped]
            exact hgrown
          · simp only [hnewSize, hkeeps.2, ↓reduceIte, hkeeps.1]
      | true =>
          rw [writeBytes_safe_of_mapped hnewSize hok hmapped hcovers hreleased hzero,
            fits_writeBytes_of_mapped hnewSize hok hmapped hreleased]

section Stream

open MMAPFile

variable {stream : Bytes} {lengthArg : Option UInt64}

/-- A stream write leaves the mapping over the file exactly if there was a mapping, or nothing
is written, or the new mapping reaches as far as the file. -/
theorem covers_write_iff (hcovers : file.Covers page) (hreleased : file.Released) :
    (file.write page stream position lengthArg answers).file.Covers page ↔
      file.mapped = true ∨ streamLength stream lengthArg = 0 ∨
        position + streamLength stream lengthArg = 0 ∨
        file.growthFails (page.roundUp (position + streamLength stream lengthArg)) answers =
          true ∨
        file.size ≤ page.roundUp (position + streamLength stream lengthArg) := by
  by_cases hlength : streamLength stream lengthArg = 0
  · rw [write_zero hlength]
    exact iff_of_true hcovers (Or.inr (Or.inl hlength))
  generalize hnewSize : position + streamLength stream lengthArg = newSize
  by_cases hzero : newSize = 0
  · -- the end wraps to zero, and nothing grows
    subst hzero
    have hsame : file.increaseMmap page 0 answers = (okStatus, file) :=
      if_neg UInt64.not_lt_zero
    have hok : (file.increaseMmap page 0 answers).1.ok = true := by rw [hsame]; rfl
    refine iff_of_true ?_ (Or.inr (Or.inr (Or.inl rfl)))
    cases hmapped : (file.increaseMmap page 0 answers).2.mapped with
    | false =>
        rw [write_unmapped hlength hnewSize hok hmapped, hsame]
        exact hcovers
    | true =>
        rw [write_mapped hlength hnewSize hok hmapped, hsame]
        exact covers_store hcovers UInt64.zero_le _
  simp only [hlength, hzero, false_or]
  cases hok : (file.increaseMmap page newSize answers).1.ok with
  | false =>
      obtain ⟨-, hfails⟩ := growthFails_of_increaseMmap hok
      have hfits : file.mapped = true ∨
          file.growthFails (page.roundUp newSize) answers = true ∨
          file.size ≤ page.roundUp newSize := Or.inr (Or.inl hfails)
      rw [write_refused hlength hnewSize hok]
      exact iff_of_true (covers_increaseMmap hcovers hfits) hfits
  | true =>
      obtain ⟨hmapped, hreaches⟩ := mapped_of_increaseMmap hreleased hzero hok
      rw [write_mapped hlength hnewSize hok hmapped]
      constructor
      · intro hafter
        by_contra hnot
        simp only [not_or, Bool.not_eq_true] at hnot
        obtain ⟨hunmapped, hgrows, hshort⟩ := hnot
        have hless : file.mmapSize < newSize := by
          rw [hreleased hunmapped]
          exact UInt64.pos_iff_ne_zero.2 hzero
        -- the new mapping ends in front of the file
        have hnew := mmapSize_of_growth hless hgrows
        have hcover := (hafter hmapped).2
        rw [UInt64.le_iff_toNat_le] at hcover hshort
        refine hshort (le_trans ?_ (hcover.trans_eq (congrArg UInt64.toNat hnew)))
        rw [UInt64.toNat_max]
        exact le_max_of_le_left (le_of_eq (congrArg UInt64.toNat
          (size_increaseMmap page file newSize answers).symm))
      · intro hfits
        exact covers_store (covers_increaseMmap hcovers hfits) hreaches _

/-- A stream write is safe exactly if it is refused, or its characters end in the mapping, and
the mapping still covers the file. -/
theorem write_safe_iff (hcovers : file.Covers page) (hreleased : file.Released) (stream : Bytes)
    (lengthArg : Option UInt64) : (write stream position lengthArg answers).Safe page file ↔
      (write stream position lengthArg answers).Fits page file := by
  have hperform : (write stream position lengthArg answers).perform page file =
      (file.write page stream position lengthArg answers).forget := rfl
  have hafter : ((write stream position lengthArg answers).perform page file).file.Covers page ↔
      _ := @covers_write_iff page file answers position stream lengthArg hcovers hreleased
  rw [Fits]
  by_cases hlength : streamLength stream lengthArg = 0
  · refine iff_of_true (safe_of_no_copy ?_ ?_) (Or.inl hlength)
    · rw [hperform, write_zero hlength]
      rfl
    · exact hafter.2 (Or.inr (Or.inl hlength))
  simp only [hlength, false_or] at hafter ⊢
  generalize hnewSize : position + streamLength stream lengthArg = newSize at hafter ⊢
  cases hok : (file.increaseMmap page newSize answers).1.ok with
  | false =>
      obtain ⟨hless, hfails⟩ := growthFails_of_increaseMmap hok
      rw [if_pos hless]
      refine iff_of_true (safe_of_no_copy ?_ ?_) (Or.inl hfails)
      · rw [hperform, write_refused hlength hnewSize hok]
        rfl
      · exact hafter.2 (Or.inr (Or.inr (Or.inl hfails)))
  | true =>
      cases hmapped : (file.increaseMmap page newSize answers).2.mapped with
      | false =>
          -- without a mapping only the empty growth succeeds
          have hzero : newSize = 0 := by
            by_contra hnonzero
            have hsome := (mapped_of_increaseMmap hreleased hnonzero hok).1
            rw [hmapped] at hsome
            cases hsome
          have hless : ¬ file.mmapSize < newSize := by
            rw [hzero]
            exact UInt64.not_lt_zero
          have hsame : file.increaseMmap page newSize answers = (okStatus, file) := if_neg hless
          rw [hsame] at hmapped
          rw [if_neg hless]
          refine iff_of_true (safe_of_no_copy ?_ ?_) (Or.inl hmapped)
          · rw [hperform, write_unmapped hlength hnewSize hok (by rw [hsame]; exact hmapped)]
            rfl
          · exact hafter.2 (Or.inr (Or.inl hzero))
      | true =>
          have hcopies : (write stream position lengthArg answers).CopiesInside page file ↔
              copiedCharacters stream lengthArg = [] ∨
                position.toNat + (copiedCharacters stream lengthArg).length ≤
                  (file.increaseMmap page newSize answers).2.mmapSize.toNat := by
            rw [CopiesInside, hperform, write_mapped hlength hnewSize hok hmapped]
            simp [MappedResult.forget, store, Except.map]
          rw [Safe, hcopies, hafter]
          by_cases hless : file.mmapSize < newSize
          · have hgrows := not_growthFails_of_increaseMmap hless hok
            have hnonzero : newSize ≠ 0 := by
              rintro rfl
              exact UInt64.not_lt_zero hless
            rw [if_pos hless, mmapSize_of_growth hless hgrows, hgrows]
            simp only [hnonzero, Bool.false_eq_true, false_or]
            exact and_comm
          · have hsame : file.increaseMmap page newSize answers = (okStatus, file) := if_neg hless
            have hbefore : file.mapped = true := by
              rw [hsame] at hmapped
              exact hmapped
            rw [hsame, if_neg hless]
            simp [hbefore]

end Stream

/-- A call is safe exactly if it fits. -/
theorem safe_iff_fits (hcovers : file.Covers page) (hreleased : file.Released)
    (call : MappedCall) : call.Safe page file ↔ call.Fits page file := by
  cases call with
  | readBytes position length answers => exact iff_of_true (readBytes_safe hcovers length) trivial
  | rawPtr answers => exact iff_of_true (rawPtr_safe hcovers) trivial
  | truncate targetSize answers =>
      exact iff_of_true (truncate_safe hcovers hreleased targetSize) trivial
  | writeBytes buffer position answers => exact writeBytes_safe_iff hcovers hreleased buffer
  | write stream position lengthArg answers =>
      exact write_safe_iff hcovers hreleased stream lengthArg
  | notifyUnused =>
      refine iff_of_true (safe_of_no_copy rfl ?_) trivial
      rw [perform, MMAPFile.notifyUnused, MMAPFile.release]
      split_ifs
      · intro hmapped
        cases hmapped
      · exact hcovers

open MMAPFile in
theorem released_perform (hreleased : file.Released) (call : MappedCall) :
    (call.perform page file).file.Released := by
  cases call with
  | readBytes position length answers =>
      rcases readBytes_file page file position length answers with hfile | hfile
      · rw [perform, MappedResult.forget, hfile]
        exact hreleased
      · rw [perform, MappedResult.forget, hfile]
        exact released_reopen hreleased
  | rawPtr answers =>
      rw [perform, MMAPFile.rawPtr]
      split_ifs <;> exact released_reopen hreleased
  | truncate targetSize answers =>
      have hgrown := @released_increaseMmap page file answers targetSize hreleased
      simp only [perform, MMAPFile.truncate]
      split_ifs
      · exact hgrown
      · exact hgrown
      · exact hreleased
  | writeBytes buffer position answers =>
      have hgrown := @released_grownFor page file answers
        (position + UInt64.ofNat buffer.bytes.length) hreleased
      simp only [perform, MMAPFile.writeBytes]
      rw [← grownFor]
      split_ifs
      · exact hreleased
      · exact hgrown
      · exact hgrown
      · exact hgrown
  | write stream position lengthArg answers =>
      have hgrown := @released_increaseMmap page file answers
        (position + streamLength stream lengthArg) hreleased
      rw [perform, MappedResult.forget]
      by_cases hzero : streamLength stream lengthArg = 0
      · rw [write_zero hzero]
        exact hreleased
      cases hok : (file.increaseMmap page (position + streamLength stream lengthArg)
          answers).1.ok with
      | false =>
          rw [write_refused hzero rfl hok]
          exact hgrown
      | true =>
          cases hmapped : (file.increaseMmap page (position + streamLength stream lengthArg)
              answers).2.mapped with
          | false =>
              rw [write_unmapped hzero rfl hok hmapped]
              exact hgrown
          | true =>
              rw [write_mapped hzero rfl hok hmapped]
              exact hgrown
  | notifyUnused =>
      rw [perform, MMAPFile.notifyUnused, MMAPFile.release]
      split_ifs
      · exact fun _ => rfl
      · exact hreleased

/-- From any state in which the mapping holds the file, a run is safe exactly if it fits. -/
theorem safeRun_iff_of_covers (hcovers : file.Covers page) (hreleased : file.Released)
    (calls : List MappedCall) : SafeRun page file calls ↔ FitsRun page file calls := by
  induction calls generalizing file with
  | nil => exact iff_of_true hcovers trivial
  | cons call calls ih =>
      have hstep := safe_iff_fits hcovers hreleased call
      rw [SafeRun, FitsRun, and_iff_right hcovers, ← hstep, Safe, and_assoc]
      refine and_congr_right fun _ => ?_
      constructor
      · intro hrest
        have hafter : (call.perform page file).file.Covers page := by
          cases calls with
          | nil => exact hrest
          | cons next rest => exact hrest.1
        exact ⟨hafter, (ih hafter (released_perform hreleased call)).1 hrest⟩
      · rintro ⟨hafter, hrest⟩
        exact (ih hafter (released_perform hreleased call)).2 hrest

/-- In every state of a run of an opened file the mapping holds the file and every copy lies in
it, if and only if no write wraps, and no stream is written beyond the mapping or where a new
mapping ends too early. -/
theorem safeRun_iff (page : PageSize) (path : Bytes) (content : SparseArray UInt8)
    (calls : List MappedCall) :
    SafeRun page (MMAPFile.new path content) calls ↔
      FitsRun page (MMAPFile.new path content) calls :=
  safeRun_iff_of_covers (fun hmapped => absurd hmapped Bool.false_ne_true) (fun _ => rfl) calls

/-- Pages of 4096 bytes -/
def fourKiB : PageSize := ⟨4096, by decide, by decide, by decide⟩

/-- A kernel that carries out every call -/
def willing : KernelAnswers := ⟨true, true, []⟩

/-- Two bytes written to the last position end at 1, and a page is mapped for them; a byte of a
stream written to a file of two pages without a mapping maps the first one only. -/
theorem safeRun_fails :
    ¬ SafeRun fourKiB (MMAPFile.new (text "/tmp/file") (SparseArray.ofList []))
      [writeBytes ⟨[1, 2], by decide⟩ 0xffffffffffffffff willing] ∧
    ¬ SafeRun fourKiB (MMAPFile.new (text "/tmp/file") (SparseArray.ofList []))
      [truncate 8192 willing, notifyUnused, write (text "a") 0 (some 1) willing] := by
  constructor
  · rintro ⟨-, hinside, -⟩
    obtain ⟨-, hle⟩ := hinside ⟨0xffffffffffffffff, 2⟩ rfl
    exact absurd hle (by decide)
  · rintro ⟨-, -, -, -, -, -, hcovers⟩
    exact absurd (hcovers rfl).2 (by decide)

end MappedCall

end GEDS
