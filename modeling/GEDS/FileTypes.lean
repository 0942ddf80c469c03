/-
`GEDSAbstractFileHandle` over its two file types.  Behind the handle a `LocalFile` is a sparse
array; an `MMAPFile` is one as long as a file that was cut is clear where it grows again, every
write finds a mapping, and streams are copied as they are.
-/
import GEDS.LocalFileArray
import GEDS.MMAPFileContents

namespace GEDS

open Status

/-- What a call of a file returns; a copy that leaves the mapping is not defined. -/
abbrev FileResult (ρ : Type) : Type := Option (Except Status ρ)

/-- The file type `T` of a `GEDSAbstractFileHandle<T>`, with the state of the file and the
answers of the system to a call. -/
structure FileType (σ κ : Type) where
  size : σ → UInt64
  readBytes : σ → UInt64 → UInt64 → κ → FileResult Bytes × σ
  writeBytes : σ → Buffer → UInt64 → κ → FileResult Unit × σ
  write : σ → Bytes → UInt64 → Option UInt64 → κ → FileResult UInt64 × σ
  truncate : σ → UInt64 → κ → FileResult Unit × σ
  notifyUnused : σ → σ

/-- A result is defined if the copy lies in the mapping. -/
def MappedResult.defined {ρ : Type} (after : MappedResult ρ) : FileResult ρ × MMAPFile :=
  (if after.copied.all fun copy =>
      decide (copy.offset.toNat + copy.length ≤ after.file.mmapSize.toNat)
    then some after.result else none, after.file)

/-- `MMAPFile` as a file type -/
def mappedType (page : PageSize) : FileType MMAPFile KernelAnswers where
  size := MMAPFile.size
  readBytes file position length answers := (file.readBytes page position length answers).defined
  writeBytes file buffer position answers :=
    (file.writeBytes page buffer position answers).defined
  write file stream position lengthArg answers :=
    (file.write page stream position lengthArg answers).defined
  truncate file targetSize answers := (file.truncate page targetSize answers).defined
  notifyUnused := MMAPFile.notifyUnused

/-- The answers of the kernel and the stream to a call of a `LocalFile`. -/
structure LocalAnswers where
  transfers : List Transfer
  rounds : List LocalFile.Posix.StreamRound
  fault : Option Bytes

/-- A status as a result -/
def statusResult (status : Status) : FileResult Unit :=
  some (if status.ok then .ok () else .error status)

/-- `LocalFile` as a file type; its `notifyUnused` does nothing. -/
def localType : FileType (LocalFile × FileSystem Bytes) LocalAnswers where
  size file := file.1.size
  readBytes file position length answers :=
    (some (LocalFile.Posix.readBytes file.1 file.2 position length answers.transfers), file)
  writeBytes file buffer position answers :=
    let written := LocalFile.Posix.writeBytes file.1 file.2 buffer position answers.transfers
    (statusResult written.1, written.2)
  write file stream position lengthOpt answers :=
    let written := LocalFile.Posix.write file.1 file.2 stream position lengthOpt answers.rounds
    (some written.1, written.2)
  truncate file targetSize answers :=
    let truncated := LocalFile.Posix.truncate file.1 file.2 targetSize answers.fault
    (statusResult truncated.1, truncated.2)
  notifyUnused file := file

/-- The calls of a handle that reach its file -/
inductive HandleCall where
  | size
  | readBytes (position length : UInt64)
  | writeBytes (buffer : Buffer) (position : UInt64)
  | write (stream : Bytes) (position : UInt64) (lengthOptional : Option UInt64)
  | truncate (targetSize : UInt64)
  | notifyUnused (openCount : Nat)

/-- What the caller of a handle learns: a size, bytes, or whether the call has succeeded. -/
inductive HandleAnswer where
  | size (size : UInt64)
  | bytes (bytes : Bytes)
  | done
  | failed
  | undefined
deriving DecidableEq

/-- A result of the file as an answer -/
def FileResult.answer {ρ : Type} (returned : ρ → HandleAnswer) : FileResult ρ → HandleAnswer
  | none => .undefined
  | some (.ok value) => returned value
  | some (.error _) => .failed

namespace HandleCall

section Perform

variable {σ κ : Type} (type : FileType σ κ) (file : σ)

/-- The calls of `GEDSAbstractFileHandle<T>` -/
def perform (answers : κ) : HandleCall → HandleAnswer × σ
  | size => (.size (type.size file), file)
  | readBytes position length =>
      let read := type.readBytes file position length answers
      (FileResult.answer .bytes read.1, read.2)
  | writeBytes buffer position =>
      let written := type.writeBytes file buffer position answers
      (FileResult.answer (fun _ => .done) written.1, written.2)
  | write stream position lengthOptional =>
      -- the result is only counted: the caller gets an OK status
      let written := type.write file stream position lengthOptional answers
      (if written.1.isSome then .done else .undefined, written.2)
  | truncate targetSize =>
      let truncated := type.truncate file targetSize answers
      (FileResult.answer (fun _ => .done) truncated.1, truncated.2)
  | notifyUnused openCount =>
      (.done, if 0 < openCount then file else type.notifyUnused file)

end Perform

/-- The bytes that a `LocalFile` takes from a stream. -/
def taken (stream : Bytes) (lengthOptional : Option UInt64) : Bytes :=
  stream.take (lengthOptional.getD int64Max).toNat

section Array

variable (array : SparseArray UInt8)

/-- What a call tells about an array of bytes. -/
def observe : HandleCall → HandleAnswer
  | size => .size (UInt64.ofNat array.length)
  | readBytes position length => .bytes (array.read position.toNat length.toNat)
  | _ => .done

/-- What a call makes of it. -/
def apply : HandleCall → SparseArray UInt8
  | writeBytes buffer position => array.write position.toNat buffer.bytes
  | write stream position lengthOptional =>
      array.write position.toNat (taken stream lengthOptional)
  | truncate targetSize => array.truncate targetSize.toNat
  | _ => array

end Array

variable (page : PageSize)

/-- A call reads from a position in front of the largest one, and grows the file by pages that
end in front of it. -/
def InRange : HandleCall → Prop
  | readBytes position length => position < int64Max ∧ length ≤ int64Max
  | writeBytes buffer position =>
      position.toNat + buffer.bytes.length + page.bytes.toNat ≤ 2 ^ 63
  | write stream position lengthOptional =>
      position.toNat + (lengthOptional.elim stream.length UInt64.toNat) + page.bytes.toNat ≤ 2 ^ 63
  | truncate targetSize => targetSize.toNat + page.bytes.toNat ≤ 2 ^ 63
  | _ => True

instance : ∀ call : HandleCall, Decidable (call.InRange page)
  | size => inferInstanceAs (Decidable True)
  | readBytes _ _ => inferInstanceAs (Decidable (_ ∧ _))
  | writeBytes _ _ => inferInstanceAs (Decidable (_ ≤ _))
  | write _ _ _ => inferInstanceAs (Decidable (_ ≤ _))
  | truncate _ => inferInstanceAs (Decidable (_ ≤ _))
  | notifyUnused _ => inferInstanceAs (Decidable True)

end HandleCall

/-- No call of the kernel fails, and every one that is not interrupted moves something. -/
structure LocalAnswers.Healthy (answers : LocalAnswers) : Prop where
  transfers : Transfer.Healthy answers.transfers
  rounds : ∀ round ∈ answers.rounds, Transfer.Healthy round.answers
  fault : answers.fault = none

/-- A call in range of handles over both file types, with answers of the system that let it
succeed. -/
structure HandleStep (page : PageSize) where
  call : HandleCall
  kernel : KernelAnswers
  posix : LocalAnswers
  inRange : call.InRange page
  willing : kernel.Willing
  healthy : posix.Healthy

/-- What the caller of a handle learns in a run. -/
def answersOf {σ κ : Type} (type : FileType σ κ) : σ → List (HandleCall × κ) → List HandleAnswer
  | _, [] => []
  | file, (call, answers) :: rest =>
      let after := call.perform type file answers
      after.1 :: answersOf type after.2 rest

namespace MMAPFile

/-- Nothing is left behind the size, up to a position. -/
def Clear (file : MMAPFile) (position : Nat) : Prop :=
  ∀ index, file.size.toNat ≤ index → index < position → file.bytes.get index = 0

end MMAPFile

section Streams

variable (stream : Bytes) (position : UInt64) (lengthOptional : Option UInt64)

/-- What a write of a stream puts into the mapping. -/
def streamCopied : Bytes :=
  if MMAPFile.streamLength stream lengthOptional = 0 then []
  else MMAPFile.copiedCharacters stream lengthOptional

/-- The size of a mapped file behind a write of a stream. -/
def streamEnd (file : MMAPFile) : Nat :=
  let length := MMAPFile.streamLength stream lengthOptional
  if length = 0 then file.size.toNat else max file.size.toNat (position.toNat + length.toNat)

/-- A write of a stream to a mapped file does what it does to a `LocalFile`: a new mapping is
large enough, also for the characters that are copied; the file ends where the bytes of the stream
end; it was clear in front of them; and a byte that only one of the two writes is the one that was
there before. -/
structure StreamLands (page : PageSize) (file : MMAPFile) : Prop where
  mapping : MMAPFile.streamLength stream lengthOptional ≠ 0 → file.mapped = true ∨
    file.size ≤ page.roundUp (position + MMAPFile.streamLength stream lengthOptional)
  inside : MMAPFile.streamLength stream lengthOptional ≠ 0 →
    position.toNat + (streamCopied stream lengthOptional).length ≤
      (file.mmapSizeFor page (position + MMAPFile.streamLength stream lengthOptional)).toNat
  ends : streamEnd stream position lengthOptional file =
    if HandleCall.taken stream lengthOptional = [] then file.size.toNat
    else max file.size.toNat
      (position.toNat + (HandleCall.taken stream lengthOptional).length)
  clear : HandleCall.taken stream lengthOptional ≠ [] → file.Clear position.toNat
  bytes : ∀ index, position.toNat + index < streamEnd stream position lengthOptional file →
    (streamCopied stream lengthOptional).getD index (file.bytes.get (position.toNat + index)) =
      (HandleCall.taken stream lengthOptional).getD index
        (file.bytes.get (position.toNat + index))

end Streams

/-- What keeps a mapped file in step with a `LocalFile` in a call: it is not read while it is
empty and not mapped; it is not written inside while it is not mapped; it is clear where it
grows; and a stream lands. -/
def HandleCall.Matches (page : PageSize) (file : MMAPFile) : HandleCall → Prop
  | readBytes _ length => length = 0 ∨ file.mapped = true ∨ file.size ≠ 0
  | writeBytes buffer position => buffer.bytes = [] ∨
      (file.mapped = true ∨ file.size.toNat < position.toNat + buffer.bytes.length) ∧
        file.Clear position.toNat
  | write stream position lengthOptional => StreamLands stream position lengthOptional page file
  | truncate targetSize => file.Clear targetSize.toNat
  | _ => True

/-- A mapped file and a `LocalFile` have the same size and the same bytes; the mapping holds them
and does not leave the file. -/
structure SameFile (page : PageSize) (mapped : MMAPFile) (direct : LocalFile × FileSystem Bytes) :
    Prop where
  covers : mapped.Covers page
  backed : mapped.Backed page
  size_eq : mapped.size = direct.1.size
  bytes_eq : mapped.shown = SparseArray.ofList (direct.2.content direct.1.inode)

section Runs

variable {page : PageSize}

/-- In every state of a run the files are the same, and every call gives the same answer. -/
def AgreeRun : MMAPFile → LocalFile × FileSystem Bytes → List (HandleStep page) → Prop
  | mapped, direct, [] => SameFile page mapped direct
  | mapped, direct, step :: steps =>
      let mapped' := step.call.perform (mappedType page) mapped step.kernel
      let direct' := step.call.perform localType direct step.posix
      SameFile page mapped direct ∧ mapped'.1 = direct'.1 ∧ AgreeRun mapped'.2 direct'.2 steps

/-- Every call of a run matches in the state that it finds. -/
def MatchRun : MMAPFile → List (HandleStep page) → Prop
  | _, [] => True
  | file, step :: steps => step.call.Matches page file ∧
      MatchRun (step.call.perform (mappedType page) file step.kernel).2 steps

end Runs

section Array

variable {page : PageSize} {array : SparseArray UInt8}

theorem length_taken (stream : Bytes) {position : UInt64} {lengthOptional : Option UInt64}
    (hrange : (HandleCall.write stream position lengthOptional).InRange page) :
    position.toNat + (HandleCall.taken stream lengthOptional).length + page.bytes.toNat ≤
      2 ^ 63 := by
  rw [HandleCall.InRange] at hrange
  rw [HandleCall.taken, List.length_take]
  cases lengthOptional with
  | none =>
      rw [Option.elim_none] at hrange
      omega
  | some length =>
      rw [Option.elim_some] at hrange
      rw [Option.getD_some]
      omega

/-- An array in range is in range behind every call. -/
theorem length_apply_le {call : HandleCall} (hrange : call.InRange page)
    (hbounded : array.length + page.bytes.toNat ≤ 2 ^ 63) :
    (call.apply array).length + page.bytes.toNat ≤ 2 ^ 63 := by
  have hwrite : ∀ (position : Nat) (bytes : Bytes),
      position + bytes.length + page.bytes.toNat ≤ 2 ^ 63 →
        (array.write position bytes).length + page.bytes.toNat ≤ 2 ^ 63 := by
    intro position bytes hend
    rw [SparseArray.write]
    dsimp only
    split_ifs <;> omega
  cases call with
  | size => exact hbounded
  | readBytes position length => exact hbounded
  | writeBytes buffer position => exact hwrite _ _ hrange
  | write stream position lengthOptional => exact hwrite _ _ (length_taken stream hrange)
  | truncate targetSize => exact hrange
  | notifyUnused openCount => exact hbounded

end Array

section Direct

open LocalFile.Posix

variable {page : PageSize} {file : LocalFile} {files : FileSystem Bytes}

theorem statusResult_of_ok {status : Status} (hok : status.ok = true) :
    FileResult.answer (fun _ => .done) (statusResult status) = .done := by
  rw [statusResult, if_pos hok, FileResult.answer]

/-- A stream in range is written. -/
theorem write_becomes (hstep : InStep file files) {stream : Bytes} {position : UInt64}
    {lengthOptional : Option UInt64} {rounds : List StreamRound}
    (hrounds : ∀ round ∈ rounds, Transfer.Healthy round.answers)
    (hrange : (HandleCall.write stream position lengthOptional).InRange page) :
    Becomes file files
      ((SparseArray.ofList (files.content file.inode)).write position.toNat
        (HandleCall.taken stream lengthOptional))
      (LocalFile.Posix.write file files stream position lengthOptional rounds).2.1
      (LocalFile.Posix.write file files stream position lengthOptional rounds).2.2 := by
  have hpositive := page.positive
  have hfits := length_taken stream hrange
  obtain ⟨count, hok⟩ := @streamRounds_ok file files position (lengthOptional.getD int64Max)
    (stream.length + 1) rounds 0 stream hrounds (Nat.zero_le _) (by
      rw [UInt64.toNat_zero, Nat.add_zero, Nat.sub_zero, ← HandleCall.taken]
      omega)
  have hbecomes := @streamRounds_becomes file files position (lengthOptional.getD int64Max)
    (stream.length + 1) rounds 0 stream hstep (Nat.zero_le _)
    (by rw [UInt64.toNat_zero]; omega) (Nat.lt_succ_self _) count _ _
    (Prod.ext hok rfl)
  rwa [UInt64.toNat_zero, Nat.add_zero, Nat.sub_zero] at hbecomes

/-- Behind a handle a `LocalFile` is an array of bytes, as long as no call of the kernel
fails. -/
theorem local_refines (hstep : InStep file files) (step : HandleStep page) :
    (step.call.perform localType (file, files) step.posix).1 =
        step.call.observe (SparseArray.ofList (files.content file.inode)) ∧
      Becomes file files (step.call.apply (SparseArray.ofList (files.content file.inode)))
        (step.call.perform localType (file, files) step.posix).2.1
        (step.call.perform localType (file, files) step.posix).2.2 := by
  have hpositive := page.positive
  obtain ⟨call, kernel, posix, hrange, -, hhealthy⟩ := step
  cases call with
  | size =>
      refine ⟨congrArg HandleAnswer.size ?_, rfl, hstep, rfl⟩
      rw [SparseArray.length_ofList, ← hstep.size_eq]
      exact UInt64.ofNat_toNat.symm
  | readBytes position length =>
      have hread : LocalFile.Posix.readBytes file files position length posix.transfers =
          .ok ((SparseArray.ofList (files.content file.inode)).read position.toNat
            length.toNat) := by
        rcases readBytes_refines file hstep.bounded position length posix.transfers with
          hread | ⟨reason, hmem, -⟩
        · rw [hread, SparseArray.read_ofList]
          exact readBytes_of_inStep hstep hrange.1 length
        · rcases hhealthy.transfers _ hmem with hbad | ⟨ready, hbad⟩
          · cases hbad
          · cases hbad
      refine ⟨?_, rfl, hstep, rfl⟩
      rw [HandleCall.perform, HandleCall.observe, localType]
      dsimp only
      rw [hread, FileResult.answer]
  | writeBytes buffer position =>
      have hok : (LocalFile.Posix.writeBytes file files buffer position
          posix.transfers).1.ok = true :=
        writeBytes_ok hhealthy.transfers file files (by
          rw [HandleCall.InRange] at hrange
          omega)
      exact ⟨statusResult_of_ok hok, writeBytes_becomes hstep hok⟩
  | write stream position lengthOptional =>
      exact ⟨rfl, write_becomes hstep hhealthy.rounds hrange⟩
  | truncate targetSize =>
      have hmax : int64Max.toNat = 2 ^ 63 - 1 := rfl
      have hok : (LocalFile.Posix.truncate file files targetSize posix.fault).1.ok = true := by
        rw [HandleCall.InRange] at hrange
        rw [LocalFile.Posix.truncate, hhealthy.fault, if_neg (by
          rw [UInt64.lt_iff_toNat_lt, hmax]
          omega)]
        rfl
      exact ⟨statusResult_of_ok hok, truncate_becomes hok⟩
  | notifyUnused openCount =>
      refine ⟨rfl, ?_⟩
      rw [HandleCall.perform, localType, ite_self]
      exact ⟨rfl, hstep, rfl⟩

end Direct

section Mapped

open MMAPFile

variable {page : PageSize} {file : MMAPFile} {answers : KernelAnswers}

/-- A call does to a mapped file what it does to the array of the bytes that it shows, and the
mapping holds them still. -/
def HandleCall.Follows (page : PageSize) (file : MMAPFile) (answers : KernelAnswers)
    (call : HandleCall) : Prop :=
  (call.perform (mappedType page) file answers).1 = call.observe file.shown ∧
    (call.perform (mappedType page) file answers).2.Covers page ∧
    (call.perform (mappedType page) file answers).2.shown = call.apply file.shown

theorem defined_of_inside {ρ : Type} {after : MappedResult ρ} {result : Except Status ρ}
    {copied : Option MappingCopy} (hresult : after.result = result)
    (hcopied : after.copied = copied)
    (hinside : ∀ copy ∈ copied, copy.offset.toNat + copy.length ≤ after.file.mmapSize.toNat) :
    after.defined = (some result, after.file) := by
  rw [MappedResult.defined, hresult, hcopied, if_pos]
  cases copied with
  | none => rfl
  | some copy => exact decide_eq_true (hinside copy rfl)

theorem answer_ne_of_error {ρ : Type} {after : MappedResult ρ} {status : Status}
    (herror : after.result = .error status) (returned : ρ → HandleAnswer)
    {answer : HandleAnswer} (hfailed : .failed ≠ answer) (hundefined : .undefined ≠ answer) :
    FileResult.answer returned after.defined.1 ≠ answer := by
  rw [MappedResult.defined, herror]
  dsimp only
  split_ifs
  · exact hfailed
  · exact hundefined

/-- Where the answer is right, the mapping and the bytes decide. -/
theorem follows_iff_of_perform {call : HandleCall} {file' : MMAPFile}
    (hperform : call.perform (mappedType page) file answers =
      (call.observe file.shown, file')) :
    call.Follows page file answers ↔
      file'.Covers page ∧ file'.shown = call.apply file.shown := by
  rw [HandleCall.Follows, hperform]
  exact and_iff_right rfl

/-- A file that is empty and not mapped cannot be read. -/
theorem readBytes_follows_iff (hkept : file.Kept page) (hwilling : answers.Willing)
    {position length : UInt64} (hrange : (HandleCall.readBytes position length).InRange page) :
    (HandleCall.readBytes position length).Follows page file answers ↔
      (HandleCall.readBytes position length).Matches page file := by
  have hcan := @reopen_ok_iff page file answers hwilling hkept.bounded
  have hcovers : (file.readBytes page position length answers).file.Covers page :=
    (MappedCall.readBytes_safe hkept.covers length).2
  rw [HandleCall.Matches, ← hcan]
  by_cases hreads : length = 0 ∨ (file.reopen page answers).1.ok = true
  · have hread := @readBytes_shown page file answers position length hrange.1 hrange.2 hreads
    have hdefined := defined_of_inside hread rfl fun _ hcopy =>
      (readBytes_inside hkept.covers hcopy).2
    have hperform : (HandleCall.readBytes position length).perform (mappedType page) file answers =
        (.bytes (file.shown.read position.toNat length.toNat),
          (file.readBytes page position length answers).file) :=
      congrArg (fun after => (FileResult.answer .bytes after.1, after.2)) hdefined
    refine iff_of_true ((follows_iff_of_perform hperform).2 ⟨hcovers, ?_⟩) hreads
    exact shown_readBytes page file position length answers
  · refine iff_of_false ?_ hreads
    rw [not_or, Bool.not_eq_true] at hreads
    have herror := readBytes_not_mapped hrange.1 hrange.2 hreads.1 hreads.2
    rintro ⟨hanswer, -⟩
    refine answer_ne_of_error herror .bytes ?_ ?_ hanswer <;> simp [HandleCall.observe]

/-- A file that grows shows what was cut off before. -/
theorem truncate_follows_iff (hkept : file.Kept page) (hwilling : answers.Willing)
    {targetSize : UInt64} (hrange : (HandleCall.truncate targetSize).InRange page) :
    (HandleCall.truncate targetSize).Follows page file answers ↔
      (HandleCall.truncate targetSize).Matches page file := by
  obtain ⟨hok, hcopied, hshown⟩ := @truncate_shown page file answers hwilling _ hrange
  have hcovers : (file.truncate page targetSize answers).file.Covers page :=
    (MappedCall.truncate_safe hkept.covers hkept.released targetSize).2
  have hdefined := defined_of_inside hok hcopied fun _ hnone =>
    absurd hnone (Option.not_mem_none _)
  have hperform : (HandleCall.truncate targetSize).perform (mappedType page) file answers =
      (.done, (file.truncate page targetSize answers).file) :=
    congrArg (fun after => (FileResult.answer (fun _ => .done) after.1, after.2)) hdefined
  rw [follows_iff_of_perform hperform, and_iff_right hcovers, hshown]
  exact SparseArray.truncate_truncate_iff file.bytes file.size.toNat targetSize.toNat

/-- A write inside a file that is not mapped fails, and one behind the end shows what was cut off
in the gap. -/
theorem writeBytes_follows_iff (hkept : file.Kept page) (hwilling : answers.Willing)
    {buffer : Buffer} {position : UInt64}
    (hrange : (HandleCall.writeBytes buffer position).InRange page) :
    (HandleCall.writeBytes buffer position).Follows page file answers ↔
      (HandleCall.writeBytes buffer position).Matches page file := by
  rw [HandleCall.InRange] at hrange
  by_cases hempty : buffer.bytes = []
  · have hzero : UInt64.ofNat buffer.bytes.length = 0 := by rw [hempty]; rfl
    refine iff_of_true ?_ (Or.inl hempty)
    rw [HandleCall.Follows, HandleCall.perform, mappedType]
    dsimp only
    rw [writeBytes_zero hzero, HandleCall.apply, hempty, SparseArray.write_nil]
    exact ⟨rfl, hkept.covers, rfl⟩
  rw [HandleCall.Matches, or_iff_right hempty]
  by_cases hcan : file.mapped = true ∨
      file.size.toNat < position.toNat + buffer.bytes.length
  · obtain ⟨hok, hcopied, hinside, hshown⟩ :=
      writeBytes_shown hkept hwilling hempty hrange hcan
    have hfits : (MappedCall.writeBytes buffer position answers).Fits page file :=
      Or.inl (by omega)
    have hcovers : (file.writeBytes page buffer position answers).file.Covers page :=
      ((MappedCall.writeBytes_safe_iff hkept.covers hkept.released buffer).2 hfits).2
    have hdefined := defined_of_inside hok hcopied fun _ hcopy =>
      Option.some.inj hcopy ▸ hinside
    have hperform : (HandleCall.writeBytes buffer position).perform (mappedType page) file answers =
        (.done, (file.writeBytes page buffer position answers).file) :=
      congrArg (fun after => (FileResult.answer (fun _ => .done) after.1, after.2)) hdefined
    rw [follows_iff_of_perform hperform, and_iff_right hcovers, and_iff_right hcan, hshown]
    exact SparseArray.truncate_write_iff file.bytes position.toNat file.size.toNat hempty
  · refine iff_of_false ?_ fun hmatches => hcan hmatches.1
    rw [not_or, Bool.not_eq_true, Nat.not_lt] at hcan
    obtain ⟨status, herror⟩ := writeBytes_not_mapped page answers hempty (by omega)
      hcan.1 hcan.2
    rintro ⟨hanswer, -⟩
    refine answer_ne_of_error herror (fun _ => .done) ?_ ?_ hanswer <;> simp [HandleCall.observe]

section Stream

variable {stream : Bytes} {position : UInt64} {lengthOptional : Option UInt64}

theorem toNat_streamLength_le
    (hrange : (HandleCall.write stream position lengthOptional).InRange page) :
    position.toNat + (streamLength stream lengthOptional).toNat + page.bytes.toNat ≤ 2 ^ 63 := by
  rw [HandleCall.InRange] at hrange
  cases lengthOptional with
  | none =>
      have hcharacters : (streamCharacters stream).length ≤ stream.length :=
        List.length_filter_le _ _
      have hword : (UInt64.ofNat (streamCharacters stream).length).toNat ≤
          (streamCharacters stream).length := Nat.mod_le _ _
      rw [Option.elim_none] at hrange
      rw [streamLength, Option.getD_none]
      omega
  | some length => exact hrange

/-- A stream lands if the mapping is large enough and the arrays are the same. -/
theorem streamLands_iff : StreamLands stream position lengthOptional page file ↔
    ((streamLength stream lengthOptional ≠ 0 → file.mapped = true ∨
        file.size ≤ page.roundUp (position + streamLength stream lengthOptional)) ∧
      (streamLength stream lengthOptional ≠ 0 →
        position.toNat + (streamCopied stream lengthOptional).length ≤
          (file.mmapSizeFor page (position + streamLength stream lengthOptional)).toNat)) ∧
      (file.bytes.write position.toNat (streamCopied stream lengthOptional)).truncate
          (streamEnd stream position lengthOptional file) =
        file.shown.write position.toNat (HandleCall.taken stream lengthOptional) := by
  rw [shown, SparseArray.truncate_write_eq_write_iff]
  constructor
  · rintro ⟨hmapping, hinside, hends, hclear, hbytes⟩
    exact ⟨⟨hmapping, hinside⟩, hends, hclear, hbytes⟩
  · rintro ⟨⟨hmapping, hinside⟩, hends, hclear, hbytes⟩
    exact ⟨hmapping, hinside, hends, hclear, hbytes⟩

/-- A handle answers to a write of a stream, whatever the file has returned. -/
theorem perform_write {result : FileResult UInt64} {file' : MMAPFile}
    (hdefined : (file.write page stream position lengthOptional answers).defined =
      (result, file')) :
    (HandleCall.write stream position lengthOptional).perform (mappedType page) file answers =
      (if result.isSome then .done else .undefined, file') :=
  congrArg (fun after : FileResult UInt64 × MMAPFile =>
    (if after.1.isSome then HandleAnswer.done else .undefined, after.2)) hdefined

/-- A write of a stream: the caller is told nothing, and the bytes decide. -/
theorem write_follows_iff (hkept : file.Kept page) (hwilling : answers.Willing)
    (hrange : (HandleCall.write stream position lengthOptional).InRange page) :
    (HandleCall.write stream position lengthOptional).Follows page file answers ↔
      (HandleCall.write stream position lengthOptional).Matches page file := by
  rw [HandleCall.Matches, streamLands_iff]
  by_cases hzero : streamLength stream lengthOptional = 0
  · have hperform : (HandleCall.write stream position lengthOptional).perform (mappedType page)
        file answers = (.done, file) :=
      perform_write (congrArg MappedResult.defined (write_zero hzero))
    have hafter : (file.bytes.write position.toNat (streamCopied stream lengthOptional)).truncate
        (streamEnd stream position lengthOptional file) = file.shown := by
      rw [streamCopied, if_pos hzero, SparseArray.write_nil, streamEnd]
      exact congrArg file.bytes.truncate (if_pos hzero)
    rw [hafter, follows_iff_of_perform hperform, and_iff_right hkept.covers]
    exact (and_iff_right ⟨fun hnonzero => absurd hzero hnonzero,
      fun hnonzero => absurd hzero hnonzero⟩).symm
  · have hfits := toNat_streamLength_le hrange
    obtain ⟨hok, hcopied, hmmapSize, hshown⟩ := write_shown hkept hwilling hzero hfits
    have hmapping := covers_write_iff hkept hwilling hzero hfits
    have hcharacters : streamCopied stream lengthOptional =
        copiedCharacters stream lengthOptional := if_neg hzero
    have hend : streamEnd stream position lengthOptional file = max file.size.toNat
        (position.toNat + (streamLength stream lengthOptional).toNat) := if_neg hzero
    rw [hcharacters, hend]
    simp only [ne_eq, hzero, not_false_eq_true, forall_const]
    by_cases hinside : position.toNat + (copiedCharacters stream lengthOptional).length ≤
        (file.mmapSizeFor page (position + streamLength stream lengthOptional)).toNat
    · have hdefined := defined_of_inside hok hcopied fun _ hcopy =>
        hmmapSize.symm ▸ Option.some.inj hcopy ▸ hinside
      rw [follows_iff_of_perform (perform_write hdefined), hmapping, hshown hinside,
        and_iff_left hinside, HandleCall.apply]
    · have hundefined : (file.write page stream position lengthOptional answers).defined =
          (none, (file.write page stream position lengthOptional answers).file) := by
        rw [MappedResult.defined, hcopied, hmmapSize]
        exact congrArg (fun result => (result, _)) (if_neg (by simpa using hinside))
      refine iff_of_false ?_ fun hlands => hinside hlands.1.2
      rintro ⟨hanswer, -⟩
      rw [perform_write hundefined] at hanswer
      cases hanswer

end Stream

/-- A call in range does to a mapped file what it does to the bytes that it shows, exactly if it
matches. -/
theorem follows_iff (hkept : file.Kept page) (hwilling : answers.Willing) {call : HandleCall}
    (hrange : call.InRange page) :
    call.Follows page file answers ↔ call.Matches page file := by
  cases call with
  | size =>
      refine iff_of_true ⟨congrArg HandleAnswer.size ?_, hkept.covers, rfl⟩ trivial
      exact UInt64.ofNat_toNat.symm
  | readBytes position length => exact readBytes_follows_iff hkept hwilling hrange
  | writeBytes buffer position => exact writeBytes_follows_iff hkept hwilling hrange
  | write stream position lengthOptional => exact write_follows_iff hkept hwilling hrange
  | truncate targetSize => exact truncate_follows_iff hkept hwilling hrange
  | notifyUnused openCount =>
      refine iff_of_true ?_ trivial
      rw [HandleCall.Follows, HandleCall.perform, mappedType]
      dsimp only
      rw [notifyUnused, release]
      split_ifs
      · exact ⟨rfl, hkept.covers, rfl⟩
      · refine ⟨rfl, ?_, rfl⟩
        intro hmapped
        cases hmapped
      · exact ⟨rfl, hkept.covers, rfl⟩

/-- What a call of a handle leaves of a mapped file is what a call of the file leaves of it. -/
theorem perform_file (page : PageSize) (file : MMAPFile) (answers : KernelAnswers)
    (call : HandleCall) :
    (call.perform (mappedType page) file answers).2 = file ∨
      ∃ mappedCall : MappedCall, (call.perform (mappedType page) file answers).2 =
        (mappedCall.perform page file).file := by
  cases call with
  | size => exact Or.inl rfl
  | readBytes position length => exact Or.inr ⟨.readBytes position length answers, rfl⟩
  | writeBytes buffer position => exact Or.inr ⟨.writeBytes buffer position answers, rfl⟩
  | write stream position lengthOptional =>
      exact Or.inr ⟨.write stream position lengthOptional answers, rfl⟩
  | truncate targetSize => exact Or.inr ⟨.truncate targetSize answers, rfl⟩
  | notifyUnused openCount =>
      rw [HandleCall.perform]
      dsimp only
      split_ifs
      · exact Or.inl rfl
      · exact Or.inr ⟨.notifyUnused, rfl⟩

/-- A call that matches keeps the mapping over a file in range. -/
theorem kept_of_follows (hkept : file.Kept page) {call : HandleCall}
    (hrange : call.InRange page) (hfollows : call.Follows page file answers) :
    (call.perform (mappedType page) file answers).2.Kept page := by
  obtain ⟨-, hcovers, hshown⟩ := hfollows
  have hbounded := @length_apply_le page file.shown call hrange hkept.bounded
  rw [← hshown] at hbounded
  rcases perform_file page file answers call with hfile | ⟨mappedCall, hfile⟩
  · rw [hfile]
    exact hkept
  · rw [hfile] at hcovers hbounded ⊢
    exact ⟨hcovers, MappedCall.released_perform hkept.released mappedCall,
      hkept.backed.perform hkept.covers hkept.released mappedCall, hbounded⟩

end Mapped

section Runs

open LocalFile.Posix

variable {page : PageSize} {mapped : MMAPFile} {file : LocalFile} {files : FileSystem Bytes}

/-- Files that are the same give the same answer to a call and stay the same, exactly if the call
matches. -/
theorem agrees_iff (hkept : mapped.Kept page) (hstep : InStep file files)
    (hsame : SameFile page mapped (file, files)) (step : HandleStep page) :
    ((step.call.perform (mappedType page) mapped step.kernel).1 =
        (step.call.perform localType (file, files) step.posix).1 ∧
      SameFile page (step.call.perform (mappedType page) mapped step.kernel).2
        (step.call.perform localType (file, files) step.posix).2) ↔
      step.call.Matches page mapped := by
  obtain ⟨hanswer, hbecomes⟩ := local_refines hstep step
  rw [← hsame.bytes_eq] at hanswer hbecomes
  rw [← follows_iff hkept step.willing step.inRange]
  constructor
  · rintro ⟨hequal, hcovers, -, -, hbytes⟩
    exact ⟨hequal.trans hanswer, hcovers, hbytes.trans hbecomes.array_eq⟩
  · intro hfollows
    have hkept' := kept_of_follows hkept step.inRange hfollows
    obtain ⟨hequal, hcovers, hshown⟩ := hfollows
    have hbytes := hshown.trans hbecomes.array_eq.symm
    refine ⟨hequal.trans hanswer.symm, hcovers, hkept'.backed, ?_, hbytes⟩
    -- the sizes are the lengths of the array
    have hlength := congrArg SparseArray.length hbytes
    exact UInt64.toNat_inj.1 (hlength.trans hbecomes.inStep.size_eq.symm)

theorem AgreeRun.same {direct : LocalFile × FileSystem Bytes} {steps : List (HandleStep page)}
    (hagree : AgreeRun mapped direct steps) : SameFile page mapped direct := by
  cases steps with
  | nil => exact hagree
  | cons step steps => exact hagree.1

/-- The caller of a handle cannot tell files apart that agree in a run. -/
theorem AgreeRun.answersOf_eq {direct : LocalFile × FileSystem Bytes}
    {steps : List (HandleStep page)} (hagree : AgreeRun mapped direct steps) :
    answersOf (mappedType page) mapped (steps.map fun step => (step.call, step.kernel)) =
      answersOf localType direct (steps.map fun step => (step.call, step.posix)) := by
  induction steps generalizing mapped direct with
  | nil => rfl
  | cons step steps ih => exact congrArg₂ List.cons hagree.2.1 (ih hagree.2.2)

/-- From files that are the same, the files agree in a run exactly if its calls match. -/
theorem agreeRun_iff_of_same (hkept : mapped.Kept page) (hstep : InStep file files)
    (hsame : SameFile page mapped (file, files)) (steps : List (HandleStep page)) :
    AgreeRun mapped (file, files) steps ↔ MatchRun mapped steps := by
  induction steps generalizing mapped file files with
  | nil => exact iff_of_true hsame trivial
  | cons step steps ih =>
      have hagrees := agrees_iff hkept hstep hsame step
      obtain ⟨-, hbecomes⟩ := local_refines hstep step
      have hrest : step.call.Matches page mapped →
          SameFile page (step.call.perform (mappedType page) mapped step.kernel).2
            (step.call.perform localType (file, files) step.posix).2 →
          (AgreeRun (step.call.perform (mappedType page) mapped step.kernel).2
              (step.call.perform localType (file, files) step.posix).2 steps ↔
            MatchRun (step.call.perform (mappedType page) mapped step.kernel).2 steps) := by
        intro hmatches hafter
        have hfollows := (follows_iff hkept step.willing step.inRange).2 hmatches
        exact ih (kept_of_follows hkept step.inRange hfollows) hbecomes.inStep hafter
      rw [AgreeRun, MatchRun]
      constructor
      · rintro ⟨-, hequal, hlater⟩
        have hmatches := hagrees.1 ⟨hequal, hlater.same⟩
        exact ⟨hmatches, (hrest hmatches hlater.same).1 hlater⟩
      · rintro ⟨hmatches, hlater⟩
        obtain ⟨hequal, hafter⟩ := hagrees.2 hmatches
        exact ⟨hsame, hequal, (hrest hmatches hafter).2 hlater⟩

/-- In a run of handles over new files of both types, in which no call of the system fails, the
files have the same size and the same bytes in every state and give the same answer to every call,
if and only if every call matches; the callers then learn the same. -/
theorem agreeRun_iff {files files' : FileSystem Bytes} {mappedPath path : Bytes}
    (hnew : LocalFile.new files path true .opened = (.ok file, files'))
    (steps : List (HandleStep page)) :
    (AgreeRun (MMAPFile.new mappedPath (SparseArray.ofList [])) (file, files') steps ↔
      MatchRun (MMAPFile.new mappedPath (SparseArray.ofList [])) steps) ∧
    (MatchRun (MMAPFile.new mappedPath (SparseArray.ofList [])) steps →
      answersOf (mappedType page) (MMAPFile.new mappedPath (SparseArray.ofList []))
          (steps.map fun step => (step.call, step.kernel)) =
        answersOf localType (file, files') (steps.map fun step => (step.call, step.posix))) := by
  have hint := page.isInt
  have hempty : files'.content file.inode = [] := by
    obtain ⟨hfile, rfl⟩ := Prod.mk.inj hnew
    obtain rfl := Except.ok.inj hfile
    exact FileSystem.content_openFile_truncated
  have hstep : InStep file files' := new_inStep hnew (by rw [hempty]; decide)
  have hsize : file.size = 0 := by
    have hlength := hstep.size_eq
    rw [hempty] at hlength
    exact UInt64.toNat_inj.1 hlength
  have hcovers : (MMAPFile.new mappedPath (SparseArray.ofList [])).Covers page :=
    fun hmapped => absurd hmapped Bool.false_ne_true
  have hbacked : (MMAPFile.new mappedPath (SparseArray.ofList [])).Backed page :=
    ⟨Nat.dvd_zero _, Nat.zero_le _, 0, Nat.dvd_zero _, Nat.le_refl _, Nat.zero_le _⟩
  have hkept : (MMAPFile.new mappedPath (SparseArray.ofList [])).Kept page := by
    refine ⟨hcovers, fun _ => rfl, hbacked, ?_⟩
    rw [MMAPFile.new, UInt64.toNat_zero]
    omega
  have hsame : SameFile page (MMAPFile.new mappedPath (SparseArray.ofList [])) (file, files') := by
    refine ⟨hcovers, hbacked, hsize.symm, ?_⟩
    rw [hempty]
    ext index
    · rfl
    · simp [MMAPFile.shown, MMAPFile.new, SparseArray.truncate, SparseArray.ofList]
  have hiff := agreeRun_iff_of_same hkept hstep hsame steps
  exact ⟨hiff, fun hmatches => (hiff.2 hmatches).answersOf_eq⟩

end Runs

namespace HandleStep

open MappedCall (fourKiB)

/-- A call that the system carries out at once -/
def plain (call : HandleCall) (inRange : call.InRange fourKiB) : HandleStep fourKiB where
  call := call
  kernel := MappedCall.willing
  posix := ⟨[], [], none⟩
  inRange := inRange
  willing := ⟨rfl, rfl⟩
  healthy := ⟨Transfer.Healthy.nil, fun _ hround => absurd hround List.not_mem_nil, rfl⟩

/-- What the callers of handles over the two types of files learn in a run. -/
def answers (steps : List (HandleStep fourKiB)) : List HandleAnswer × List HandleAnswer :=
  (answersOf (mappedType fourKiB) (MMAPFile.new (text "/tmp/0") (SparseArray.ofList []))
      (steps.map fun step => (step.call, step.kernel)),
    answersOf localType (LocalFile.Posix.Sample.target, LocalFile.Posix.Sample.opened.2)
      (steps.map fun step => (step.call, step.posix)))

/-- Bytes and a stream without blanks, written one behind the other, and read after the mapping was
dropped. -/
def written : List (HandleStep fourKiB) :=
  [plain (.writeBytes ⟨[1, 2], by decide⟩ 0) (by decide),
    plain (.write (text "ab") 2 (some 2)) (by decide), plain (.notifyUnused 0) (by decide),
    plain (.readBytes 0 4) (by decide)]

theorem written_agrees :
    AgreeRun (MMAPFile.new (text "/tmp/0") (SparseArray.ofList []))
        (LocalFile.Posix.Sample.target, LocalFile.Posix.Sample.opened.2) written ∧
      (answers written).1 = (answers written).2 := by
  have hnew : LocalFile.new FileSystem.empty (text "/tmp/0") true .opened =
      (.ok LocalFile.Posix.Sample.target, LocalFile.Posix.Sample.opened.2) := rfl
  have hmatches : MatchRun (MMAPFile.new (text "/tmp/0") (SparseArray.ofList [])) written := by
    refine ⟨Or.inr ⟨Or.inr (by decide), ?_⟩, ?_, trivial, Or.inr (Or.inr (by decide)), trivial⟩
    · exact fun index _ hindex => absurd hindex (Nat.not_lt_zero index)
    · refine ⟨fun _ => Or.inl rfl, fun _ => by decide, by decide, ?_, fun _ _ => ?_⟩
      · exact fun _ index hsize hindex => absurd hindex (Nat.not_lt.2 hsize)
      · rfl
  obtain ⟨hiff, hanswers⟩ := @agreeRun_iff fourKiB _ _ _ (text "/tmp/0") _ hnew written
  exact ⟨hiff.2 hmatches, hanswers hmatches⟩

/-- A file that is cut and grows again -/
def regrown : List (HandleStep fourKiB) :=
  [plain (.writeBytes ⟨[1, 2], by decide⟩ 0) (by decide), plain (.truncate 1) (by decide),
    plain (.truncate 2) (by decide), plain (.readBytes 0 2) (by decide)]

/-- What was cut off comes back; a file without a mapping is not written inside, nor read while it
is empty; of a stream without a length nothing is copied, and of one with a length no blank. -/
theorem answers_differ :
    (¬ ∀ steps, (answers steps).1 = (answers steps).2) ∧
    answers regrown =
      ([.done, .done, .done, .bytes [1, 2]], [.done, .done, .done, .bytes [1, 0]]) ∧
    answers [plain (.writeBytes ⟨[1, 2], by decide⟩ 0) (by decide),
        plain (.notifyUnused 0) (by decide), plain (.writeBytes ⟨[3], by decide⟩ 0) (by decide)] =
      ([.done, .done, .failed], [.done, .done, .done]) ∧
    answers [plain (.readBytes 0 1) (by decide)] = ([.failed], [.bytes []]) ∧
    answers [plain (.write (text "ab") 0 none) (by decide), plain (.readBytes 0 2) (by decide)] =
      ([.done, .bytes [0, 0]], [.done, .bytes (text "ab")]) ∧
    answers [plain (.write (text "a b") 0 (some 3)) (by decide),
        plain (.readBytes 0 3) (by decide)] =
      ([.done, .bytes [0x61, 0x62, 0]], [.done, .bytes (text "a b")]) := by
  have hregrown : answers regrown =
      ([.done, .done, .done, .bytes [1, 2]], [.done, .done, .done, .bytes [1, 0]]) := by decide
  refine ⟨fun hequal => ?_, hregrown, by decide, by decide, by decide, by decide⟩
  have hlast := hequal regrown
  rw [hregrown] at hlast
  exact absurd hlast (by decide)

end HandleStep

end GEDS
