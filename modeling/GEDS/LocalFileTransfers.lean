/-
`LocalFile` call by call of `pread64`, `pwrite64` and `ftruncate64`: any call
may be interrupted, moves as many bytes as it likes, or fails.  With the answers
of the kernel given, the loops of the source are functions.  They do what the
operations of `GEDS.LocalFile` do in one step, and the file is a sparse array.
-/
import GEDS.Library.SparseArray
import GEDS.LocalFile

namespace GEDS

open Status

/-- How the kernel answers a call; the number is how many bytes it is ready to move. -/
inductive Transfer where
  | interrupted
  | failed (reason : Bytes)
  | moved (count : Nat)
deriving DecidableEq

namespace Transfer

/-- The loop around a call that goes on while it returns `EINTR`.  When no more answers are
given, a call moves all that it is asked for. -/
def uninterrupted : List Transfer → Except Bytes Nat × List Transfer
  | [] => (.ok (2 ^ 64), [])
  | .interrupted :: rest => uninterrupted rest
  | .failed reason :: rest => (.error reason, rest)
  | .moved count :: rest => (.ok count, rest)

/-- An error comes from an answer. -/
theorem failed_mem {answers : List Transfer} {reason : Bytes}
    (herror : (uninterrupted answers).1 = .error reason) : .failed reason ∈ answers := by
  induction answers with
  | nil => cases herror
  | cons answer rest ih =>
      cases answer with
      | interrupted => exact List.mem_cons_of_mem _ (ih herror)
      | failed other =>
          obtain rfl := Except.error.inj herror
          exact List.mem_cons_self
      | moved count => cases herror

theorem mem_of_mem_rest {answers : List Transfer} {answer : Transfer}
    (hmem : answer ∈ (uninterrupted answers).2) : answer ∈ answers := by
  induction answers with
  | nil => exact hmem
  | cons first rest ih =>
      cases first with
      | interrupted => exact List.mem_cons_of_mem _ (ih hmem)
      | failed other => exact List.mem_cons_of_mem _ hmem
      | moved count => exact List.mem_cons_of_mem _ hmem

/-- No call fails, and every call that is not interrupted moves something. -/
def Healthy (answers : List Transfer) : Prop :=
  ∀ answer ∈ answers, answer = .interrupted ∨ ∃ ready, answer = .moved (ready + 1)

theorem Healthy.nil : Healthy [] := fun _ hmem => absurd hmem List.not_mem_nil

theorem Healthy.uninterrupted {answers : List Transfer} (hhealthy : Healthy answers) :
    (∃ ready, (uninterrupted answers).1 = .ok (ready + 1)) ∧
      Healthy (Transfer.uninterrupted answers).2 := by
  induction answers with
  | nil => exact ⟨⟨2 ^ 64 - 1, rfl⟩, hhealthy⟩
  | cons answer rest ih =>
      obtain ⟨hanswer, hrest⟩ := List.forall_mem_cons.1 hhealthy
      rcases hanswer with rfl | ⟨ready, rfl⟩
      · exact ih hrest
      · exact ⟨⟨ready, rfl⟩, hrest⟩

end Transfer

/-- The bytes behind a `const uint8_t *` and a `size_t`. -/
structure Buffer where
  bytes : Bytes
  fits : bytes.length < 2 ^ 64

namespace LocalFile.Posix

/-- `strerror(EFBIG)` -/
def fileTooLarge : Bytes := text "File too large"

/-- `strerror(EINVAL)` -/
def invalidArgument : Bytes := text "Invalid argument"

section Read

variable (file : LocalFile) (files : FileSystem Bytes)

def readError (reason : Bytes) : Status :=
  unknownError (text "Error reading " ++ file.path ++ text ": " ++ reason)

/-- The loop of `LocalFile::readBytes`.  `pread64` returns nothing just at the end of the
file.  As every other round moves a byte, `length - offset` rounds are enough, and
without any left the loop is at its end. -/
def readRounds (position length : UInt64) :
    Nat → List Transfer → UInt64 → Bytes → Except Status Bytes
  | 0, _, _, bytes => .ok bytes
  | fuel + 1, answers, offset, bytes =>
      if offset < length then
        let count := min (length - offset) int64Max
        match Transfer.uninterrupted answers with
        | (.error reason, _) => .error (readError file reason)
        | (.ok ready, rest) =>
            let moved := files.pread file.inode (position + offset).toNat
              (min count.toNat (max 1 ready))
            if moved = [] then .ok bytes
            else
              readRounds position length fuel rest (offset + UInt64.ofNat moved.length)
                (bytes ++ moved)
      else .ok bytes

def readBytes (position length : UInt64) (answers : List Transfer) : Except Status Bytes :=
  if int64Max ≤ position then
    .error (failedPreconditionError (text "Stream positions > " ++
      text (toString int64Max.toNat) ++ text " are not supported!"))
  else if length = 0 then .ok []
  else if file.size < position then .ok []
  else
    let length := min length (file.size - position)
    if length = 0 then .ok []
    else readRounds file files position length length.toNat answers 0 []

variable {file files} {position length : UInt64}

theorem readCount_pos {offset : UInt64} (hmore : offset < length) (ready : Nat) :
    0 < min (min (length - offset) int64Max).toNat (max 1 ready) := by
  have hlt := UInt64.lt_iff_toNat_lt.1 hmore
  have hmax : int64Max.toNat = 2 ^ 63 - 1 := rfl
  rw [UInt64.toNat_min, UInt64.toNat_sub_of_le _ _ (UInt64.le_iff_toNat_le.2 (by omega)), hmax]
  omega

theorem readCount_le {offset : UInt64} (hmore : offset < length) (ready : Nat) :
    offset.toNat + min (min (length - offset) int64Max).toNat (max 1 ready) ≤ length.toNat := by
  have hlt := UInt64.lt_iff_toNat_lt.1 hmore
  rw [UInt64.toNat_min, UInt64.toNat_sub_of_le _ _ (UInt64.le_iff_toNat_le.2 (by omega))]
  omega

/-- The loop has read what the file has from the position on. -/
theorem readRounds_spec (hbounded : (files.content file.inode).length < 2 ^ 63)
    (hposition : position.toNat < 2 ^ 63) {fuel : Nat} {answers : List Transfer}
    {offset : UInt64} {bytes : Bytes} (hfuel : length.toNat ≤ offset.toNat + fuel)
    (hoffset : offset.toNat ≤ length.toNat)
    (hbytes : bytes = files.pread file.inode position.toNat offset.toNat)
    (hread : bytes.length = offset.toNat) :
    readRounds file files position length fuel answers offset bytes =
        .ok (files.pread file.inode position.toNat length.toNat) ∨
      ∃ reason, .failed reason ∈ answers ∧
        readRounds file files position length fuel answers offset bytes =
          .error (readError file reason) := by
  induction fuel generalizing answers offset bytes with
  | zero =>
      have hdone : offset.toNat = length.toNat := by omega
      left
      rw [readRounds, hbytes, hdone]
  | succ fuel ih =>
      rw [readRounds]
      by_cases hmore : offset < length
      · have hlt := UInt64.lt_iff_toNat_lt.1 hmore
        have hfound : min offset.toNat ((files.content file.inode).length - position.toNat) =
            offset.toNat := by
          rw [← FileSystem.length_pread, ← hbytes, hread]
        have hplace : (position + offset).toNat = position.toNat + offset.toNat :=
          toNat_add_of_lt (by omega)
        cases hanswer : Transfer.uninterrupted answers with
        | mk result rest =>
            cases result with
            | error reason =>
                right
                refine ⟨reason, Transfer.failed_mem (congrArg Prod.fst hanswer), ?_⟩
                simp only [hmore, ↓reduceIte]
            | ok ready =>
                simp only [hmore, ↓reduceIte, hplace]
                have hpositive := readCount_pos hmore ready
                have hle := readCount_le hmore ready
                generalize min (min (length - offset) int64Max).toNat (max 1 ready) = count at *
                have hmoved := @FileSystem.length_pread _ _ files file.inode
                  (position.toNat + offset.toNat) count
                split_ifs with hend
                · -- the end of the file: there is nothing behind the offset
                  left
                  rw [hend, List.length_nil] at hmoved
                  have hall : (files.pread file.inode position.toNat length.toNat).length =
                      offset.toNat := by
                    rw [FileSystem.length_pread]
                    omega
                  rw [hbytes, FileSystem.pread_of_length hall]
                · have hstep : 0 < (files.pread file.inode (position.toNat + offset.toNat)
                      count).length := List.length_pos_iff.2 hend
                  generalize hlength : (files.pread file.inode (position.toNat + offset.toNat)
                    count).length = step at hmoved hstep
                  have hnext : (offset + UInt64.ofNat step).toNat = offset.toNat + step :=
                    toNat_add_ofNat (by omega)
                  have hrest := @ih rest (offset + UInt64.ofNat step)
                    (bytes ++ files.pread file.inode (position.toNat + offset.toNat) count)
                    (by omega) (by omega)
                    (by rw [hbytes, FileSystem.pread_of_length hlength, FileSystem.pread_append,
                      hnext])
                    (by rw [List.length_append, hread, hlength, hnext])
                  rcases hrest with hok | ⟨reason, hmem, hfailed⟩
                  · exact Or.inl hok
                  · refine Or.inr ⟨reason, Transfer.mem_of_mem_rest ?_, hfailed⟩
                    rw [hanswer]
                    exact hmem
      · have hdone : offset.toNat = length.toNat := by
          rw [UInt64.lt_iff_toNat_lt] at hmore
          omega
        left
        rw [if_neg hmore, hbytes, hdone]

/-- Call by call the file reads what it reads in one step, or an answer was an error. -/
theorem readBytes_refines (file : LocalFile) {files : FileSystem Bytes}
    (hbounded : (files.content file.inode).length < 2 ^ 63) (position length : UInt64)
    (answers : List Transfer) :
    readBytes file files position length answers = file.readBytes files position length ∨
      ∃ reason, .failed reason ∈ answers ∧
        readBytes file files position length answers = .error (readError file reason) := by
  rw [readBytes, LocalFile.readBytes]
  split_ifs with hhigh hzero hbehind
  · exact Or.inl rfl
  · exact Or.inl rfl
  · exact Or.inl rfl
  · dsimp only
    split_ifs
    · exact Or.inl rfl
    · have hmax : int64Max.toNat = 2 ^ 63 - 1 := rfl
      rw [UInt64.le_iff_toNat_le, hmax] at hhigh
      exact readRounds_spec hbounded (by omega) (Nat.le_add_left _ _) (Nat.zero_le _) rfl rfl

end Read

section Write

variable (file : LocalFile)

def writeError (reason : Bytes) : Status :=
  unknownError (text "Error writing " ++ file.path ++ text ": " ++ reason)

def writeEOF : Status := unknownError (text "Write on " ++ file.path ++ text " returned an EOF.")

/-- The loop of `LocalFile::writeBytes`.  No byte is ever written behind `INT64_MAX`; a
call at a position in front of it may move fewer bytes, also none.  Every round but the
last moves a byte, as in `readRounds`. -/
def writeRounds (bytes : Bytes) (position length : UInt64) :
    Nat → List Transfer → UInt64 → FileSystem Bytes → Except Status UInt64 × FileSystem Bytes
  | 0, _, offset, files => (.ok offset, files)
  | fuel + 1, answers, offset, files =>
      if offset < length then
        let count := min (length - offset) int64Max
        match Transfer.uninterrupted answers with
        | (.error reason, _) => (.error (writeError file reason), files)
        | (.ok ready, rest) =>
            if int64Max ≤ position + offset then (.error (writeError file fileTooLarge), files)
            else
              let moved := (bytes.drop offset.toNat).take
                (min (min count (int64Max - (position + offset))).toNat ready)
              if moved = [] then (.error (writeEOF file), files)
              else
                writeRounds bytes position length fuel rest
                  (offset + UInt64.ofNat moved.length)
                  (files.pwrite file.inode (position + offset).toNat moved)
      else (.ok offset, files)

def writeBytes (files : FileSystem Bytes) (buffer : Buffer) (position : UInt64)
    (answers : List Transfer) : Status × LocalFile × FileSystem Bytes :=
  let length := UInt64.ofNat buffer.bytes.length
  if int64Max < position then
    (failedPreconditionError (text "Stream positions > " ++
      text (toString position.toNat) ++ text " are not yet supported."), file, files)
  else if length = 0 then (okStatus, file, files)
  else
    match writeRounds file buffer.bytes position length length.toNat answers 0 files with
    | (.error status, files) => (status, file, files)
    | (.ok offset, files) =>
        let newSize := position + offset
        (okStatus, { file with size := max file.size newSize }, files)

variable {file} {files : FileSystem Bytes} {position length : UInt64} {bytes : Bytes}

theorem writeCount_pos {offset : UInt64} (hmore : offset < length)
    (hroom : ¬ int64Max ≤ position + offset) (ready : Nat) :
    0 < min (min (min (length - offset) int64Max) (int64Max - (position + offset))).toNat
      (ready + 1) := by
  have hlt := UInt64.lt_iff_toNat_lt.1 hmore
  have hbelow := UInt64.lt_iff_toNat_lt.1 (UInt64.not_le.1 hroom)
  have hmax : int64Max.toNat = 2 ^ 63 - 1 := rfl
  rw [UInt64.toNat_min, UInt64.toNat_min, UInt64.toNat_sub_of_le _ _ (UInt64.le_of_lt hmore),
    UInt64.toNat_sub_of_le _ _ (UInt64.le_of_lt (UInt64.not_le.1 hroom)), hmax]
  omega

theorem writeCount_le {offset : UInt64}
    (hplace : (position + offset).toNat = position.toNat + offset.toNat)
    (hroom : position + offset < int64Max) (length : UInt64) (ready : Nat) :
    min (min (min (length - offset) int64Max) (int64Max - (position + offset))).toNat ready ≤
      2 ^ 63 - 1 - (position.toNat + offset.toNat) := by
  have hmax : int64Max.toNat = 2 ^ 63 - 1 := rfl
  rw [UInt64.toNat_min, UInt64.toNat_sub_of_le int64Max _ (UInt64.le_of_lt hroom), hmax, hplace]
  omega

/-- How the loop of a write may end: a beginning of what remains is in the file, all of it
if there is no error, for which something is broken. -/
inductive WriteEnds (broken : Prop) (file : LocalFile) (files : FileSystem Bytes)
    (position : Nat) (bytes : Bytes) (length : UInt64) :
    Except Status UInt64 × FileSystem Bytes → Prop where
  | written (hfits : position + bytes.length < 2 ^ 63) :
      WriteEnds broken file files position bytes length
        (.ok length, files.pwrite file.inode position bytes)
  | failed (stored : Nat) (reason : Bytes) (hbroken : broken) :
      WriteEnds broken file files position bytes length
        (.error (writeError file reason), files.pwrite file.inode position (bytes.take stored))
  | stopped (stored : Nat) (hbroken : broken) :
      WriteEnds broken file files position bytes length
        (.error (writeEOF file), files.pwrite file.inode position (bytes.take stored))

section Ends

variable {broken : Prop} {place : Nat}

/-- The end of the loop. -/
theorem WriteEnds.nil (hfits : place < 2 ^ 63) :
    WriteEnds broken file files place [] length (.ok length, files) := by
  have hwritten := @WriteEnds.written broken file files place [] length hfits
  rwa [FileSystem.pwrite_nil] at hwritten

/-- A round that moves nothing. -/
theorem WriteEnds.fails (reason : Bytes) (hbroken : broken) :
    WriteEnds broken file files place bytes length (.error (writeError file reason), files) := by
  have hfailed := @WriteEnds.failed broken file files place bytes length 0 reason hbroken
  rwa [List.take_zero, FileSystem.pwrite_nil] at hfailed

theorem WriteEnds.stops (hbroken : broken) :
    WriteEnds broken file files place bytes length (.error (writeEOF file), files) := by
  have hstopped := @WriteEnds.stopped broken file files place bytes length 0 hbroken
  rwa [List.take_zero, FileSystem.pwrite_nil] at hstopped

/-- A round more in front. -/
theorem WriteEnds.cons {front rest : Bytes} {result : Except Status UInt64 × FileSystem Bytes}
    (hends : WriteEnds broken file (files.pwrite file.inode place front)
      (place + front.length) rest length result) :
    WriteEnds broken file files place (front ++ rest) length result := by
  cases hends with
  | written hfits =>
      rw [FileSystem.pwrite_pwrite]
      exact .written (by rw [List.length_append]; omega)
  | failed stored reason hbroken =>
      rw [FileSystem.pwrite_pwrite, ← List.take_length_add_append stored]
      exact .failed _ _ hbroken
  | stopped stored hbroken =>
      rw [FileSystem.pwrite_pwrite, ← List.take_length_add_append stored]
      exact .stopped _ hbroken

end Ends

/-- The loop fails only if an answer is not healthy, or the file would become too large. -/
theorem writeRounds_spec (hlength : length.toNat = bytes.length) {fuel : Nat}
    {answers : List Transfer} {offset : UInt64} {files : FileSystem Bytes} {broken : Prop}
    (hfuel : length.toNat ≤ offset.toNat + fuel) (hoffset : offset.toNat ≤ length.toNat)
    (hfits : position.toNat + offset.toNat < 2 ^ 63)
    (hanswers : ¬ Transfer.Healthy answers → broken)
    (hlarge : 2 ^ 63 ≤ position.toNat + length.toNat → broken) :
    WriteEnds broken file files (position.toNat + offset.toNat) (bytes.drop offset.toNat) length
      (writeRounds file bytes position length fuel answers offset files) := by
  have hdone : ∀ {offset : UInt64} {files : FileSystem Bytes}, offset.toNat = length.toNat →
      position.toNat + offset.toNat < 2 ^ 63 → WriteEnds broken file files
        (position.toNat + offset.toNat) (bytes.drop offset.toNat) length (.ok offset, files) := by
    intro offset files heq hfits
    rw [List.drop_of_length_le (by omega), UInt64.toNat_inj.1 heq]
    exact .nil (by omega)
  induction fuel generalizing answers offset files with
  | zero => exact hdone (by omega) hfits
  | succ fuel ih =>
      rw [writeRounds]
      by_cases hmore : offset < length
      · have hlt := UInt64.lt_iff_toNat_lt.1 hmore
        have hmax : int64Max.toNat = 2 ^ 63 - 1 := rfl
        have hplace : (position + offset).toNat = position.toNat + offset.toNat :=
          toNat_add_of_lt (by omega)
        have hhealthy := @Transfer.Healthy.uninterrupted answers
        cases hanswer : Transfer.uninterrupted answers with
        | mk result rest =>
            rw [hanswer] at hhealthy
            cases result with
            | error reason =>
                simp only [hmore, ↓reduceIte]
                apply WriteEnds.fails reason
                apply hanswers
                intro hall
                obtain ⟨⟨ready, hready⟩, -⟩ := hhealthy hall
                cases hready
            | ok ready =>
                simp only [hmore, ↓reduceIte]
                split_ifs with hlast hnone
                · rw [UInt64.le_iff_toNat_le, hplace, hmax] at hlast
                  exact .fails fileTooLarge (hlarge (by omega))
                · apply WriteEnds.stops
                  apply hanswers
                  intro hall
                  obtain ⟨⟨moved, hready⟩, -⟩ := hhealthy hall
                  have hpositive := writeCount_pos hmore hlast moved
                  rw [← Except.ok.inj hready] at hpositive
                  have hempty := congrArg List.length hnone
                  rw [List.length_take, List.length_drop, List.length_nil] at hempty
                  omega
                · -- the bytes of this round, then those of the rounds behind it
                  have hcount := writeCount_le hplace (UInt64.not_le.1 hlast) length ready
                  generalize min (min (min (length - offset) int64Max)
                    (int64Max - (position + offset))).toNat ready = count at hnone hcount ⊢
                  generalize hmoved : (bytes.drop offset.toNat).take count = moved at hnone ⊢
                  have hstep : moved.length = min count (bytes.length - offset.toNat) := by
                    rw [← hmoved, List.length_take, List.length_drop]
                  have hpositive := List.length_pos_iff.2 hnone
                  have hnext : (offset + UInt64.ofNat moved.length).toNat =
                      offset.toNat + moved.length :=
                    toNat_add_ofNat (by omega)
                  have hsplit : bytes.drop offset.toNat =
                      moved ++ bytes.drop (offset.toNat + moved.length) := by
                    have hbegins : moved <+: bytes.drop offset.toNat :=
                      hmoved ▸ List.take_prefix count _
                    rw [← List.drop_drop]
                    exact (List.prefix_iff_eq_append.1 hbegins).symm
                  have hrest := @ih rest (offset + UInt64.ofNat moved.length)
                    (files.pwrite file.inode (position + offset).toNat moved)
                    (by omega) (by omega) (by omega)
                    (fun hbad => hanswers fun hall => hbad (hhealthy hall).2)
                  rw [hnext, hplace, ← Nat.add_assoc] at hrest
                  rw [hsplit, hplace]
                  exact hrest.cons
      · have heq : offset.toNat = length.toNat := by
          rw [UInt64.lt_iff_toNat_lt] at hmore
          omega
        rw [if_neg hmore]
        exact hdone heq hfits

/-- The loop of a whole write. -/
theorem writeRounds_ends (file : LocalFile) (files : FileSystem Bytes) (buffer : Buffer)
    {position : UInt64} (hposition : ¬ int64Max < position) (answers : List Transfer) :
    WriteEnds (¬ Transfer.Healthy answers ∨ 2 ^ 63 ≤ position.toNat + buffer.bytes.length)
      file files position.toNat buffer.bytes (UInt64.ofNat buffer.bytes.length)
      (writeRounds file buffer.bytes position (UInt64.ofNat buffer.bytes.length)
        (UInt64.ofNat buffer.bytes.length).toNat answers 0 files) := by
  have hlength : (UInt64.ofNat buffer.bytes.length).toNat = buffer.bytes.length :=
    Nat.mod_eq_of_lt buffer.fits
  have hmax : int64Max.toNat = 2 ^ 63 - 1 := rfl
  rw [UInt64.lt_iff_toNat_lt, hmax] at hposition
  have hstart : position.toNat + (0 : UInt64).toNat < 2 ^ 63 := by
    rw [UInt64.toNat_zero]
    omega
  exact writeRounds_spec hlength (Nat.le_add_left _ _) (Nat.zero_le _) hstart Or.inl
    fun hlarge => Or.inr (hlength ▸ hlarge)

/-- A write below the highest position succeeds if the kernel takes all bytes in the end. -/
theorem writeBytes_ok {answers : List Transfer} (hanswers : Transfer.Healthy answers)
    (file : LocalFile) (files : FileSystem Bytes) {buffer : Buffer} {position : UInt64}
    (hfits : position.toNat + buffer.bytes.length < 2 ^ 63) :
    (writeBytes file files buffer position answers).1.ok = true := by
  have hmax : int64Max.toNat = 2 ^ 63 - 1 := rfl
  have hhigh : ¬ int64Max < position := by
    rw [UInt64.lt_iff_toNat_lt, hmax]
    omega
  have hends := writeRounds_ends file files buffer hhigh answers
  have hwhole : ¬ (¬ Transfer.Healthy answers ∨ 2 ^ 63 ≤ position.toNat + buffer.bytes.length) := by
    rintro (hbad | hlarge)
    · exact hbad hanswers
    · omega
  unfold writeBytes
  simp only [hhigh, ↓reduceIte]
  split_ifs with hempty
  · rfl
  · generalize writeRounds file buffer.bytes position (UInt64.ofNat buffer.bytes.length)
      (UInt64.ofNat buffer.bytes.length).toNat answers 0 files = result at hends ⊢
    cases hends with
    | written => rfl
    | failed stored reason hbroken => exact absurd hbroken hwhole
    | stopped stored hbroken => exact absurd hbroken hwhole

/-- Call by call the file is written as in one step, with some fault if it fails, and below
the highest position if it does not. -/
theorem writeBytes_refines (file : LocalFile) (files : FileSystem Bytes) (buffer : Buffer)
    (position : UInt64) (answers : List Transfer) :
    ∃ fault, writeBytes file files buffer position answers =
        file.writeBytes files buffer.bytes position fault ∧
      ((writeBytes file files buffer position answers).1.ok = true →
        fault = none ∧ (buffer.bytes ≠ [] → position.toNat + buffer.bytes.length < 2 ^ 63)) := by
  obtain ⟨bytes, hbytes⟩ := buffer
  have hlength : (UInt64.ofNat bytes.length).toNat = bytes.length := Nat.mod_eq_of_lt hbytes
  have hmax : int64Max.toNat = 2 ^ 63 - 1 := rfl
  unfold writeBytes
  by_cases hhigh : int64Max < position
  · refine ⟨none, ?_, ?_⟩
    · simp only [hhigh, ↓reduceIte, LocalFile.writeBytes]
    · simp [hhigh, Status.ok, failedPreconditionError]
  · by_cases hempty : bytes = []
    · refine ⟨none, ?_, ?_⟩
      · simp [hhigh, hempty, LocalFile.writeBytes]
      · simp [hempty]
    · have hzero : ¬ UInt64.ofNat bytes.length = 0 := by
        rw [← UInt64.toNat_inj, hlength, UInt64.toNat_zero, List.length_eq_zero_iff]
        exact hempty
      have hends := writeRounds_ends file files ⟨bytes, hbytes⟩ hhigh answers
      simp only [hhigh, hzero, ↓reduceIte]
      generalize writeRounds file bytes position (UInt64.ofNat bytes.length)
        (UInt64.ofNat bytes.length).toNat answers 0 files = result at hends ⊢
      cases hends with
      | written hfits =>
          refine ⟨none, ?_, fun _ => ⟨rfl, fun _ => hfits⟩⟩
          simp only [LocalFile.writeBytes, hhigh, hempty, ↓reduceIte]
      | failed stored reason hbroken =>
          refine ⟨some ⟨stored, some reason⟩, ?_, ?_⟩
          · simp only [LocalFile.writeBytes, hhigh, hempty, ↓reduceIte, writeError]
          · simp [writeError, unknownError, Status.ok]
      | stopped stored hbroken =>
          refine ⟨some ⟨stored, none⟩, ?_, ?_⟩
          · simp only [LocalFile.writeBytes, hhigh, hempty, ↓reduceIte, writeEOF]
          · simp [writeEOF, unknownError, Status.ok]

end Write

end LocalFile.Posix

end GEDS
