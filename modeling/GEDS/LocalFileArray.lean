/-
A `LocalFile` behaves as a sparse array: every run of calls that succeed leaves a
file of the length and with the bytes that the same calls give on the array, and
a failed `truncate` breaks that.
-/
import GEDS.LocalFileTransfers

namespace GEDS

open Status

namespace LocalFile.Posix

/-- `LocalFile::truncate`; `ftruncate64` takes a signed number, and may fail otherwise. -/
def truncate (file : LocalFile) (files : FileSystem Bytes) (targetSize : UInt64)
    (fault : Option Bytes) : Status × LocalFile × FileSystem Bytes :=
  file.truncate files targetSize (if int64Max < targetSize then some invalidArgument else fault)

/-- A round of `LocalFile::write`: how many bytes the stream is ready to give, and how the
kernel answers the write. -/
structure StreamRound where
  ready : Nat
  answers : List Transfer

theorem length_take_lt (stream : Bytes) (maxRead : UInt64) (ready : Nat) :
    (stream.take (min maxRead.toNat (max 1 ready))).length < 2 ^ 64 := by
  have hlt := maxRead.toNat_lt
  rw [List.length_take]
  omega

/-- `std::istream::readsome` on a stream that gives nothing just at its end. -/
def readsome (stream : Bytes) (maxRead : UInt64) (ready : Nat) : Buffer :=
  ⟨stream.take (min maxRead.toNat (max 1 ready)), length_take_lt stream maxRead ready⟩

/-- The loop of `LocalFile::write`; a round without a script gets all that it asks for. -/
def streamRounds (position length : UInt64) :
    Nat → List StreamRound → UInt64 → Bytes → LocalFile → FileSystem Bytes →
      Except Status UInt64 × LocalFile × FileSystem Bytes
  | 0, _, n, _, file, files => (.ok n, file, files)
  | fuel + 1, rounds, n, stream, file, files =>
      let round := rounds.headD ⟨4096, []⟩
      let maxRead := min (min 4096 (length - n)) int64Max
      let buffer := readsome stream maxRead round.ready
      let written := writeBytes file files buffer (position + n) round.answers
      if written.1.ok = false then (.error written.1, written.2)
      else if buffer.bytes = [] then (.ok n, written.2)
      else
        streamRounds position length fuel rounds.tail (n + UInt64.ofNat buffer.bytes.length)
          (stream.drop buffer.bytes.length) written.2.1 written.2.2

/-- `LocalFile::write`; every round but the last takes a byte from the stream. -/
def write (file : LocalFile) (files : FileSystem Bytes) (stream : Bytes) (position : UInt64)
    (lengthOpt : Option UInt64) (rounds : List StreamRound) :
    Except Status UInt64 × LocalFile × FileSystem Bytes :=
  streamRounds position (lengthOpt.getD int64Max) (stream.length + 1) rounds 0 stream file files

/-- The calls that change a file, with what the kernel and the stream do in them. -/
inductive FileCall where
  | writeBytes (buffer : Buffer) (position : UInt64) (answers : List Transfer)
  | truncate (targetSize : UInt64) (fault : Option Bytes)
  | write (stream : Bytes) (position : UInt64) (lengthOpt : Option UInt64)
      (rounds : List StreamRound)

def FileCall.perform (file : LocalFile) (files : FileSystem Bytes) :
    FileCall → Status × LocalFile × FileSystem Bytes
  | .writeBytes buffer position answers => Posix.writeBytes file files buffer position answers
  | .truncate targetSize fault => Posix.truncate file files targetSize fault
  | .write stream position lengthOpt rounds =>
      match Posix.write file files stream position lengthOpt rounds with
      | (.ok _, written) => (okStatus, written)
      | (.error status, written) => (status, written)

/-- What a call means for the array. -/
def FileCall.apply (array : SparseArray UInt8) : FileCall → SparseArray UInt8
  | .writeBytes buffer position _ => array.write position.toNat buffer.bytes
  | .truncate targetSize _ => array.truncate targetSize.toNat
  | .write stream position lengthOpt _ =>
      array.write position.toNat (stream.take (lengthOpt.getD int64Max).toNat)

/-- Calls one after the other, as long as they succeed. -/
def performAll (file : LocalFile) (files : FileSystem Bytes) :
    List FileCall → Option (LocalFile × FileSystem Bytes)
  | [] => some (file, files)
  | call :: calls =>
      let performed := call.perform file files
      if performed.1.ok then performAll performed.2.1 performed.2.2 calls else none

/-- The size that the object keeps is that of the file, which is below the highest
position. -/
structure InStep (file : LocalFile) (files : FileSystem Bytes) : Prop where
  size_eq : file.size.toNat = (files.content file.inode).length
  bounded : (files.content file.inode).length < 2 ^ 63

/-- What a call that succeeds has done to a file: the array of its bytes is another. -/
structure Becomes (file : LocalFile) (files : FileSystem Bytes) (array : SparseArray UInt8)
    (file' : LocalFile) (files' : FileSystem Bytes) : Prop where
  inode_eq : file'.inode = file.inode
  inStep : InStep file' files'
  array_eq : SparseArray.ofList (files'.content file'.inode) = array

section Calls

variable {file : LocalFile} {files : FileSystem Bytes}

theorem Becomes.trans {array : SparseArray UInt8} {file' file'' : LocalFile}
    {files' files'' : FileSystem Bytes} (next : SparseArray UInt8 → SparseArray UInt8)
    (hfirst : Becomes file files array file' files')
    (hsecond : Becomes file' files' (next (SparseArray.ofList (files'.content file'.inode)))
      file'' files'') : Becomes file files (next array) file'' files'' := by
  rw [hfirst.array_eq] at hsecond
  exact ⟨hsecond.inode_eq.trans hfirst.inode_eq, hsecond.inStep, hsecond.array_eq⟩

theorem length_overwrite {content bytes : Bytes} (position : Nat) (hbytes : bytes ≠ []) :
    (FileSystem.overwrite content position bytes).length =
      max content.length (position + bytes.length) := by
  have harray := congrArg SparseArray.length (SparseArray.ofList_overwrite content position bytes)
  rw [SparseArray.length_ofList] at harray
  rw [harray]
  simp [SparseArray.write, hbytes]

theorem writeBytes_becomes (hstep : InStep file files) {buffer : Buffer} {position : UInt64}
    {answers : List Transfer}
    (hok : (writeBytes file files buffer position answers).1.ok = true) :
    Becomes file files
      ((SparseArray.ofList (files.content file.inode)).write position.toNat buffer.bytes)
      (writeBytes file files buffer position answers).2.1
      (writeBytes file files buffer position answers).2.2 := by
  obtain ⟨fault, hrefines, hnone⟩ := writeBytes_refines file files buffer position answers
  obtain ⟨rfl, hfits⟩ := hnone hok
  rw [hrefines] at hok ⊢
  rw [← SparseArray.ofList_overwrite]
  rw [LocalFile.writeBytes] at hok ⊢
  split_ifs at hok ⊢ with hhigh hempty
  · simp [Status.ok, failedPreconditionError] at hok
  · refine ⟨rfl, hstep, ?_⟩
    rw [hempty, FileSystem.overwrite, if_pos rfl]
  · have hlength := @length_overwrite (files.content file.inode) buffer.bytes position.toNat hempty
    have hbound := hfits hempty
    have hsize : (position + UInt64.ofNat buffer.bytes.length).toNat =
        position.toNat + buffer.bytes.length := by
      rw [UInt64.toNat_add, UInt64.toNat_ofNat']
      omega
    refine ⟨rfl, ⟨?_, ?_⟩, ?_⟩
    · dsimp only
      rw [FileSystem.content_pwrite, hlength, UInt64.toNat_max, hsize, hstep.size_eq]
    · dsimp only
      rw [FileSystem.content_pwrite, hlength]
      have := hstep.bounded
      omega
    · dsimp only
      rw [FileSystem.content_pwrite]

theorem truncate_becomes {targetSize : UInt64} {fault : Option Bytes}
    (hok : (truncate file files targetSize fault).1.ok = true) :
    Becomes file files
      ((SparseArray.ofList (files.content file.inode)).truncate targetSize.toNat)
      (truncate file files targetSize fault).2.1 (truncate file files targetSize fault).2.2 := by
  rw [truncate] at hok ⊢
  split_ifs at hok ⊢ with hlarge
  · simp [LocalFile.truncate, Status.ok, unknownError] at hok
  · cases fault with
    | some reason => simp [LocalFile.truncate, Status.ok, unknownError] at hok
    | none =>
        have hmax : int64Max.toNat = 2 ^ 63 - 1 := rfl
        rw [UInt64.lt_iff_toNat_lt, hmax] at hlarge
        have hcontent : (files.ftruncate file.inode targetSize.toNat).content file.inode =
            (files.content file.inode).take targetSize.toNat ++
              List.replicate (targetSize.toNat - (files.content file.inode).length) 0 :=
          Heap.get_set_self _ _ _
        have hlength : ((files.content file.inode).take targetSize.toNat ++
            List.replicate (targetSize.toNat - (files.content file.inode).length) 0).length =
              targetSize.toNat := by
          rw [List.length_append, List.length_take, List.length_replicate]
          omega
        refine ⟨rfl, ⟨?_, ?_⟩, ?_⟩
        · simp only [LocalFile.truncate, hcontent, hlength]
        · simp only [LocalFile.truncate, hcontent, hlength]
          omega
        · simp only [LocalFile.truncate, hcontent, SparseArray.ofList_truncate]

theorem bytes_readsome (stream : Bytes) (maxRead : UInt64) (ready : Nat) :
    (readsome stream maxRead ready).bytes = stream.take (min maxRead.toNat (max 1 ready)) := rfl

/-- What a round takes from the stream. -/
theorem readsome_length {length n : UInt64} (stream : Bytes) (ready : Nat)
    (hn : n.toNat ≤ length.toNat) {buffer : Buffer}
    (hbuffer : buffer = readsome stream (min (min 4096 (length - n)) int64Max) ready) :
    buffer.bytes <+: stream ∧ n.toNat + buffer.bytes.length ≤ length.toNat ∧
      (buffer.bytes = [] → stream.take (length.toNat - n.toNat) = []) := by
  have hsub : (length - n).toNat = length.toNat - n.toNat :=
    UInt64.toNat_sub_of_le _ _ (UInt64.le_iff_toNat_le.2 hn)
  have hpage : (4096 : UInt64).toNat = 4096 := rfl
  have hmax : int64Max.toNat = 2 ^ 63 - 1 := rfl
  have hvalue : buffer.bytes = stream.take (min (min (min 4096 (length.toNat - n.toNat))
      (2 ^ 63 - 1)) (max 1 ready)) := by
    rw [hbuffer, bytes_readsome, UInt64.toNat_min, UInt64.toNat_min, hsub, hpage, hmax]
  refine ⟨?_, ?_, ?_⟩
  · rw [hvalue]
    exact List.take_prefix _ _
  · rw [hvalue, List.length_take]
    omega
  · intro hnil
    have hzero := congrArg List.length hnil
    rw [hvalue, List.length_take, List.length_nil] at hzero
    rw [List.take_eq_nil_iff, ← List.length_eq_zero_iff]
    omega

/-- The rounds of a stream write together write what they take from the stream. -/
theorem streamRounds_becomes {position length : UInt64} {fuel : Nat}
    {rounds : List StreamRound} {n : UInt64} {stream : Bytes} (hstep : InStep file files)
    (hn : n.toNat ≤ length.toNat) (hfits : position.toNat + n.toNat < 2 ^ 64)
    (hfuel : stream.length < fuel) {count : UInt64} {file' : LocalFile}
    {files' : FileSystem Bytes}
    (hok : streamRounds position length fuel rounds n stream file files =
      (.ok count, file', files')) :
    Becomes file files
      ((SparseArray.ofList (files.content file.inode)).write (position.toNat + n.toNat)
        (stream.take (length.toNat - n.toNat))) file' files' := by
  induction fuel generalizing rounds n stream file files with
  | zero => exact absurd hfuel (Nat.not_lt_zero _)
  | succ fuel ih =>
      have hplace : (position + n).toNat = position.toNat + n.toNat := by
        rw [UInt64.toNat_add]
        exact Nat.mod_eq_of_lt hfits
      rw [streamRounds] at hok
      generalize rounds.headD ⟨4096, []⟩ = round at hok
      generalize hbuffer : readsome stream (min (min 4096 (length - n)) int64Max) round.ready =
        buffer at hok
      obtain ⟨htaken, hle, hnone⟩ := readsome_length stream round.ready hn hbuffer.symm
      split_ifs at hok with hfailed hend
      · cases hok
      · -- nothing is left, or no more is wanted
        have hbecomes := writeBytes_becomes hstep (Bool.not_eq_false _ ▸ hfailed)
        rw [hplace, hend, SparseArray.write_nil] at hbecomes
        rw [hnone hend, SparseArray.write_nil]
        obtain ⟨-, hwritten⟩ := Prod.mk.inj hok
        rwa [hwritten] at hbecomes
      · have hbecomes := writeBytes_becomes hstep (Bool.not_eq_false _ ▸ hfailed)
        generalize writeBytes file files buffer (position + n) round.answers = written
          at hok hbecomes
        have hpositive := List.length_pos_iff.2 hend
        have hreached : position.toNat + n.toNat + buffer.bytes.length < 2 ^ 63 := by
          have hlength := congrArg SparseArray.length hbecomes.array_eq
          have hbounded := hbecomes.inStep.bounded
          simp only [SparseArray.length_ofList, SparseArray.write, hend, ↓reduceIte,
            hplace] at hlength
          omega
        have hnext : (n + UInt64.ofNat buffer.bytes.length).toNat =
            n.toNat + buffer.bytes.length := by
          rw [UInt64.toNat_add, UInt64.toNat_ofNat']
          omega
        have hshort := htaken.length_le
        have hrest := ih hbecomes.inStep (by omega) (by omega)
          (by rw [List.length_drop]; omega) hok
        have hboth := hbecomes.trans (fun array => array.write _ _) hrest
        rw [hplace, hnext, ← Nat.add_assoc, SparseArray.write_write] at hboth
        have hall : buffer.bytes ++ (stream.drop buffer.bytes.length).take
            (length.toNat - (n.toNat + buffer.bytes.length)) =
              stream.take (length.toNat - n.toNat) := by
          obtain ⟨rest, rfl⟩ := htaken
          have hwhole : buffer.bytes.take (length.toNat - n.toNat) = buffer.bytes :=
            List.take_of_length_le (by omega)
          rw [List.drop_left, List.take_append, hwhole, Nat.sub_sub]
        rwa [hall] at hboth

/-- The status of a stream write that failed is that of a round. -/
theorem streamRounds_error {position length : UInt64} {fuel : Nat} {rounds : List StreamRound}
    {n : UInt64} {stream : Bytes} {status : Status} {written : LocalFile × FileSystem Bytes}
    (herror : streamRounds position length fuel rounds n stream file files =
      (.error status, written)) : status.ok = false := by
  induction fuel generalizing rounds n stream file files with
  | zero => cases herror
  | succ fuel ih =>
      rw [streamRounds] at herror
      split_ifs at herror with hfailed hend
      · obtain ⟨hstatus, -⟩ := Prod.mk.inj herror
        rwa [← Except.error.inj hstatus]
      · cases herror
      · exact ih herror

/-- A stream write in front of the largest position succeeds when no call fails. -/
theorem streamRounds_ok {position length : UInt64} {fuel : Nat} {rounds : List StreamRound}
    {n : UInt64} {stream : Bytes} (hrounds : ∀ round ∈ rounds, Transfer.Healthy round.answers)
    (hn : n.toNat ≤ length.toNat)
    (hfits : position.toNat + n.toNat +
      (stream.take (length.toNat - n.toNat)).length < 2 ^ 63) :
    ∃ count, (streamRounds position length fuel rounds n stream file files).1 = .ok count := by
  induction fuel generalizing rounds n stream file files with
  | zero => exact ⟨n, rfl⟩
  | succ fuel ih =>
      rw [List.length_take] at hfits
      have hplace : (position + n).toNat = position.toNat + n.toNat :=
        toNat_add_of_lt (by omega)
      have hhealthy : Transfer.Healthy (rounds.headD ⟨4096, []⟩).answers := by
        cases rounds with
        | nil => exact Transfer.Healthy.nil
        | cons round rest => exact hrounds round List.mem_cons_self
      rw [streamRounds]
      generalize rounds.headD ⟨4096, []⟩ = round at hhealthy ⊢
      generalize hbuffer : readsome stream (min (min 4096 (length - n)) int64Max) round.ready =
        buffer
      obtain ⟨htaken, hle, -⟩ := readsome_length stream round.ready hn hbuffer.symm
      have hshort := htaken.length_le
      have hok : (writeBytes file files buffer (position + n) round.answers).1.ok = true :=
        writeBytes_ok hhealthy file files (by rw [hplace]; omega)
      rw [if_neg (by simp [hok])]
      split_ifs with hend
      · exact ⟨n, rfl⟩
      · have hnext : (n + UInt64.ofNat buffer.bytes.length).toNat =
            n.toNat + buffer.bytes.length := toNat_add_ofNat (by omega)
        refine ih (fun later hlater => hrounds later (List.mem_of_mem_tail hlater)) (by omega) ?_
        rw [hnext, List.length_take, List.length_drop]
        omega

/-- A call that succeeds does to the bytes what it means for the array. -/
theorem perform_becomes (hstep : InStep file files) {call : FileCall}
    (hok : (call.perform file files).1.ok = true) :
    Becomes file files (call.apply (SparseArray.ofList (files.content file.inode)))
      (call.perform file files).2.1 (call.perform file files).2.2 := by
  cases call with
  | writeBytes buffer position answers => exact writeBytes_becomes hstep hok
  | truncate targetSize fault => exact truncate_becomes hok
  | write stream position lengthOpt rounds =>
      simp only [FileCall.perform] at hok ⊢
      cases hwrite : write file files stream position lengthOpt rounds with
      | mk result written =>
          rw [hwrite] at hok
          cases result with
          | error status =>
              have hfailed := streamRounds_error hwrite
              exact absurd (hok : status.ok = true) (by simp [hfailed])
          | ok count =>
              have hposition := position.toNat_lt
              have hbecomes := streamRounds_becomes hstep (Nat.zero_le _)
                (by rw [UInt64.toNat_zero]; omega) (Nat.lt_succ_self _) hwrite
              rwa [UInt64.toNat_zero, Nat.add_zero, Nat.sub_zero] at hbecomes

theorem performAll_becomes (hstep : InStep file files) {calls : List FileCall}
    {file' : LocalFile} {files' : FileSystem Bytes}
    (hrun : performAll file files calls = some (file', files')) :
    Becomes file files (calls.foldl FileCall.apply (SparseArray.ofList (files.content file.inode)))
      file' files' := by
  induction calls generalizing file files with
  | nil =>
      obtain ⟨rfl, rfl⟩ := Prod.mk.inj (Option.some.inj hrun)
      exact ⟨rfl, hstep, rfl⟩
  | cons call calls ih =>
      rw [performAll] at hrun
      split_ifs at hrun with hok
      have hbecomes := perform_becomes hstep hok
      exact hbecomes.trans (calls.foldl FileCall.apply) (ih hbecomes.inStep hrun)

/-- A call changes no file but its own. -/
structure Confined (file : LocalFile) (files : FileSystem Bytes) (file' : LocalFile)
    (files' : FileSystem Bytes) : Prop where
  inode_eq : file'.inode = file.inode
  next_eq : files'.inodes.next = files.inodes.next
  others : ∀ inode, inode ≠ file.inode → files'.content inode = files.content inode

theorem Confined.trans {file' file'' : LocalFile} {files' files'' : FileSystem Bytes}
    (hfirst : Confined file files file' files') (hsecond : Confined file' files' file'' files'') :
    Confined file files file'' files'' := by
  refine ⟨hsecond.inode_eq.trans hfirst.inode_eq, hsecond.next_eq.trans hfirst.next_eq, ?_⟩
  intro inode hne
  rw [hsecond.others inode (hfirst.inode_eq ▸ hne), hfirst.others inode hne]

theorem writeBytes_confined (file : LocalFile) (files : FileSystem Bytes) (buffer : Buffer)
    (position : UInt64) (answers : List Transfer) :
    Confined file files (writeBytes file files buffer position answers).2.1
      (writeBytes file files buffer position answers).2.2 := by
  obtain ⟨fault, hrefines, -⟩ := writeBytes_refines file files buffer position answers
  rw [hrefines]
  unfold LocalFile.writeBytes
  split_ifs
  · exact ⟨rfl, rfl, fun _ _ => rfl⟩
  · exact ⟨rfl, rfl, fun _ _ => rfl⟩
  · cases fault <;> exact ⟨rfl, rfl, fun inode hne => Heap.get_set_of_ne _ _ hne⟩

theorem truncate_confined (targetSize : UInt64) (fault : Option Bytes) :
    Confined file files (truncate file files targetSize fault).2.1
      (truncate file files targetSize fault).2.2 := by
  rw [truncate]
  unfold LocalFile.truncate
  split
  · exact ⟨rfl, rfl, fun _ _ => rfl⟩
  · exact ⟨rfl, rfl, fun inode hne => Heap.get_set_of_ne _ _ hne⟩

theorem streamRounds_confined (file : LocalFile) (files : FileSystem Bytes)
    (position length : UInt64) (fuel : Nat) (rounds : List StreamRound) (n : UInt64)
    (stream : Bytes) :
    Confined file files (streamRounds position length fuel rounds n stream file files).2.1
      (streamRounds position length fuel rounds n stream file files).2.2 := by
  induction fuel generalizing rounds n stream file files with
  | zero => exact ⟨rfl, rfl, fun _ _ => rfl⟩
  | succ fuel ih =>
      have hround := writeBytes_confined file files
        (readsome stream (min (min 4096 (length - n)) int64Max) (rounds.headD ⟨4096, []⟩).ready)
        (position + n) (rounds.headD ⟨4096, []⟩).answers
      rw [streamRounds]
      split_ifs
      · exact hround
      · exact hround
      · exact hround.trans (ih _ _ _ _ _)

theorem perform_confined (file : LocalFile) (files : FileSystem Bytes) (call : FileCall) :
    Confined file files (call.perform file files).2.1 (call.perform file files).2.2 := by
  cases call with
  | writeBytes buffer position answers => exact writeBytes_confined file files buffer position answers
  | truncate targetSize fault => exact truncate_confined targetSize fault
  | write stream position lengthOpt rounds =>
      have hrounds := streamRounds_confined file files position
        (lengthOpt.getD int64Max) (stream.length + 1) rounds 0 stream
      rw [FileCall.perform, write]
      split <;> simp_all

end Calls

/-- A file that is in step reads what is there. -/
theorem readBytes_of_inStep {file : LocalFile} {files : FileSystem Bytes}
    (hstep : InStep file files) {position : UInt64} (hposition : position < int64Max)
    (length : UInt64) :
    file.readBytes files position length =
      .ok (((files.content file.inode).drop position.toNat).take length.toNat) := by
  rw [LocalFile.readBytes_of_lt hposition, hstep.size_eq, FileSystem.pread,
    ← List.length_drop, ← List.take_eq_take_min]

/-- What the constructor opens is in step. -/
theorem new_inStep {files files' : FileSystem Bytes} {path : Bytes} {overwrite : Bool}
    {file : LocalFile} (hnew : LocalFile.new files path overwrite .opened = (.ok file, files'))
    (hposix : (files'.content file.inode).length < 2 ^ 63) : InStep file files' := by
  obtain ⟨hfile, rfl⟩ := Prod.mk.inj hnew
  obtain rfl := Except.ok.inj hfile
  refine ⟨?_, hposix⟩
  exact Nat.mod_eq_of_lt (Nat.lt_trans hposix (by decide))

/-- After any calls that succeed, whatever parts the kernel and the streams moved at a time,
the file has the size of the array and reads its bytes.  No file is longer than its
positions can tell. -/
theorem performAll_sparseArray {files files' : FileSystem Bytes} {path : Bytes}
    {overwrite : Bool} {file : LocalFile}
    (hnew : LocalFile.new files path overwrite .opened = (.ok file, files'))
    (hposix : (files'.content file.inode).length < 2 ^ 63) {calls : List FileCall}
    {file'' : LocalFile} {files'' : FileSystem Bytes}
    (hrun : performAll file files' calls = some (file'', files'')) :
    file''.size.toNat = (calls.foldl FileCall.apply
        (SparseArray.ofList (files'.content file.inode))).length ∧
      ∀ position length answers, position < int64Max → (∀ reason, .failed reason ∉ answers) →
        readBytes file'' files'' position length answers =
          .ok ((calls.foldl FileCall.apply (SparseArray.ofList (files'.content file.inode))).read
            position.toNat length.toNat) := by
  have hbecomes := performAll_becomes (new_inStep hnew hposix) hrun
  rw [← hbecomes.array_eq]
  refine ⟨hbecomes.inStep.size_eq, ?_⟩
  intro position length answers hposition hanswers
  rcases readBytes_refines file'' hbecomes.inStep.bounded position length answers with
    hread | ⟨reason, hmem, -⟩
  · rw [hread, SparseArray.read_ofList]
    exact readBytes_of_inStep hbecomes.inStep hposition length
  · exact absurd hmem (hanswers reason)

section FailedTruncate

variable (file : LocalFile) (files : FileSystem Bytes)

/-- `LocalFile::localStorageSize` -/
def localStorageSize : UInt64 := file.size

/-- A `truncate` that fails changes nothing that can be seen of the file. -/
def TruncateKeeps (targetSize : UInt64) (fault : Option Bytes) : Prop :=
  (truncate file files targetSize fault).1.ok = false →
    (truncate file files targetSize fault).2.1.size = file.size ∧
    localStorageSize (truncate file files targetSize fault).2.1 = localStorageSize file ∧
    ∀ position length answers,
      readBytes (truncate file files targetSize fault).2.1
          (truncate file files targetSize fault).2.2 position length answers =
        readBytes file files position length answers

/-- The size is lost in every `truncate` that fails, but for one to the size that the file
had. -/
theorem truncateKeeps_iff (targetSize : UInt64) (fault : Option Bytes) :
    TruncateKeeps file files targetSize fault ↔
      (targetSize ≤ int64Max ∧ fault = none) ∨ targetSize = file.size := by
  rw [TruncateKeeps, truncate]
  generalize hrejected : (if int64Max < targetSize then some invalidArgument else fault) =
    rejected
  have hnone : rejected = none ↔ targetSize ≤ int64Max ∧ fault = none := by
    rw [← hrejected]
    split_ifs with hlarge
    · simp [UInt64.not_le.2 hlarge]
    · simp [UInt64.not_lt.1 hlarge]
  rw [← hnone]
  cases rejected with
  | none => simp [LocalFile.truncate, Status.ok, okStatus]
  | some reason =>
      simp only [LocalFile.truncate, reduceCtorEq, false_or]
      constructor
      · intro hkeeps
        exact (hkeeps rfl).1
      · rintro rfl _
        exact ⟨rfl, rfl, fun _ _ _ => rfl⟩

end FailedTruncate

namespace Sample

/-- A file system with one empty file. -/
def opened : Except Bytes LocalFile × FileSystem Bytes :=
  LocalFile.new FileSystem.empty (text "/tmp/0") true .opened

def target : LocalFile := ⟨text "/tmp/0", 0, 0⟩

/-- A write behind the end in parts, an extension, and a write from a stream. -/
def calls : List FileCall :=
  [.writeBytes ⟨text "abc", by decide⟩ 2 [.interrupted, .moved 1, .interrupted, .moved 2],
    .truncate 8 none, .write (text "xyz") 4 (some 2) [⟨1, [.interrupted]⟩]]

theorem calls_sparseArray :
    ∃ file files, performAll target opened.2 calls = some (file, files) ∧
      file.size.toNat = 8 ∧
      readBytes file files 1 20 [.moved 3, .interrupted] =
        .ok [0, 0x61, 0x62, 0x78, 0x79, 0, 0] := by
  have hsome : (performAll target opened.2 calls).isSome = true := by decide
  obtain ⟨⟨file, files⟩, hrun⟩ := Option.isSome_iff_exists.1 hsome
  have hnew : LocalFile.new FileSystem.empty (text "/tmp/0") true .opened =
      (.ok target, opened.2) := rfl
  obtain ⟨hsize, hread⟩ := performAll_sparseArray hnew (by decide) hrun
  refine ⟨file, files, hrun, hsize.trans rfl, ?_⟩
  exact (hread 1 20 [.moved 3, .interrupted] (by decide) (by simp)).trans rfl

/-- A target size that is negative for `ftruncate64` becomes the size of an empty file. -/
theorem negative_target_kept :
    ¬ ∀ (file : LocalFile) (files : FileSystem Bytes) (targetSize : UInt64)
      (fault : Option Bytes), TruncateKeeps file files targetSize fault := by
  intro hall
  have hsize := (hall target opened.2 0x8000000000000000 none rfl).1
  exact absurd hsize (by decide)

end Sample

end LocalFile.Posix

end GEDS
