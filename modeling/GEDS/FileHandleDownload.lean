/-
`GEDSFileHandle::download` and `downloadRange`: a file is copied through a buffer,
range by range.  The source is any handle, the destination a local file; what is
copied depends on what the source promises as its size and on what it delivers.
-/
import GEDS.CachedFileHandle
import GEDS.LocalFileArray

namespace GEDS

open Status

/-- A `GEDSFileHandle` as the copy sees it: its size, and what each of the calls of
`readBytes` returns, the first, the second and so on. -/
structure SourceHandle where
  size : Except Status UInt64
  readBytes : Nat → UInt64 → UInt64 → Except Status Buffer
  fits : ∀ {call position length buffer}, readBytes call position length = .ok buffer →
    buffer.bytes.length ≤ length.toNat

/-- Where a copy is: how often the source was read and the destination was written, and the
destination. -/
structure CopyState where
  reads : Nat
  writes : Nat
  file : LocalFile
  files : FileSystem Bytes

namespace SourceHandle

open LocalFile

section Download

variable (source : SourceHandle) (answers : Nat → List Transfer) (cacheBlockSize : UInt64)

/-- The loop of `GEDSFileHandle::downloadRange`.  A round that goes on has copied a byte, so
that `length - count + 1` rounds are enough. -/
def rangeRounds (srcPosition length destPosition : UInt64) :
    Nat → UInt64 → CopyState → Except Status UInt64 × CopyState
  | 0, count, c => (.ok count, c)
  | fuel + 1, count, c =>
      let rcount := source.readBytes c.reads (srcPosition + count)
        (min (length - count) cacheBlockSize)
      let c := { c with reads := c.reads + 1 }
      match rcount with
      | .error status => (.error status, c)
      | .ok buffer =>
          if buffer.bytes = [] then (.ok count, c)
          else
            let written := Posix.writeBytes c.file c.files buffer (destPosition + count)
              (answers c.writes)
            let c : CopyState := ⟨c.reads, c.writes + 1, written.2.1, written.2.2⟩
            if written.1.ok = false then (.error written.1, c)
            else
              let count := count + UInt64.ofNat buffer.bytes.length
              if count < length then
                rangeRounds srcPosition length destPosition fuel count c
              else (.ok count, c)

/-- `GEDSFileHandle::downloadRange`; nothing in it throws a `std::runtime_error`. -/
def downloadRange (isDestination : Bool) (srcPosition length destPosition : UInt64)
    (c : CopyState) : Except Status UInt64 × CopyState :=
  if isDestination then
    (.error ⟨.invalidArgument, text "Source and target are the same!"⟩, c)
  else
    rangeRounds source answers cacheBlockSize srcPosition length destPosition
      (length.toNat + 1) 0 c

/-- The loop of `GEDSFileHandle::download`, for so many rounds at most. -/
def downloadRounds (isDestination : Bool) (totalSize : UInt64) :
    Nat → UInt64 → CopyState → Option (Status × CopyState)
  | 0, _, _ => none
  | fuel + 1, pos, c =>
      match source.downloadRange answers cacheBlockSize isDestination pos
          (min cacheBlockSize (totalSize - pos)) pos c with
      | (.error status, c) => some (status, c)
      | (.ok count, c) =>
          if pos + count < totalSize then
            downloadRounds isDestination totalSize fuel (pos + count) c
          else some (okStatus, c)

/-- `GEDSFileHandle::download`; `none` if it needs more rounds. -/
def download (isDestination : Bool) (fuel : Nat) (c : CopyState) : Option (Status × CopyState) :=
  match source.size with
  | .error status => some (status, c)
  | .ok totalSize =>
      source.downloadRounds answers cacheBlockSize isDestination totalSize fuel 0 c

/-- The copy ends, whatever the destination is and does. -/
def Terminates : Prop :=
  ∀ (answers : Nat → List Transfer) (isDestination : Bool) (file : LocalFile)
    (files : FileSystem Bytes),
    ∃ fuel, (source.download answers cacheBlockSize isDestination fuel
      ⟨0, 0, file, files⟩).isSome = true

/-- Wherever the copy may be, the source does not return nothing for ever. -/
def KeepsDelivering : Prop :=
  0 < cacheBlockSize ∧ ∀ totalSize, source.size = .ok totalSize →
    ∀ position length, position < totalSize → 0 < length →
      ∀ call, ∃ later, call ≤ later ∧ ∀ buffer,
        source.readBytes later position length = .ok buffer → buffer.bytes ≠ []

end Download

/-- A file that does not change while it is read: every read fails, or returns a part of
what is there, all of it if there is no script.  Its size may be recorded elsewhere. -/
structure SourceFile where
  content : Bytes
  bounded : content.length < 2 ^ 63
  size : Except Status UInt64
  ready : Nat → Nat
  failure : Nat → Option FailedStatus

theorem length_part_lt (content : Bytes) (position length : UInt64) (ready : Nat) :
    (slice content position.toNat (min length.toNat (max 1 ready))).length < 2 ^ 64 := by
  have hlt := length.toNat_lt
  rw [length_slice]
  omega

/-- What a read that does not fail returns: something, if there is anything. -/
def SourceFile.part (file : SourceFile) (call : Nat) (position length : UInt64) : Buffer :=
  ⟨slice file.content position.toNat (min length.toNat (max 1 (file.ready call))),
    length_part_lt file.content position length (file.ready call)⟩

def SourceFile.readBytes (file : SourceFile) (call : Nat) (position length : UInt64) :
    Except Status Buffer :=
  match file.failure call with
  | some status => .error status.val
  | none => .ok (file.part call position length)

theorem SourceFile.readBytes_eq_ok {file : SourceFile} {call : Nat} {position length : UInt64}
    {buffer : Buffer} :
    file.readBytes call position length = .ok buffer ↔
      file.failure call = none ∧ file.part call position length = buffer := by
  unfold readBytes
  cases file.failure call with
  | some status => simp
  | none => simp

theorem SourceFile.readBytes_of_none {file : SourceFile} {call : Nat}
    (hfailure : file.failure call = none) (position length : UInt64) :
    file.readBytes call position length = .ok (file.part call position length) :=
  readBytes_eq_ok.2 ⟨hfailure, rfl⟩

theorem SourceFile.length_part (file : SourceFile) (call : Nat) (position length : UInt64) :
    (file.part call position length).bytes.length =
      min (min length.toNat (max 1 (file.ready call)))
        (file.content.length - position.toNat) := length_slice

/-- The part is what the file has there. -/
theorem SourceFile.bytes_part (file : SourceFile) (call : Nat) (position length : UInt64) :
    (file.part call position length).bytes =
      slice file.content position.toNat (file.part call position length).bytes.length := by
  rw [length_part, slice_min_length]
  rfl

def ofFile (file : SourceFile) : SourceHandle where
  size := file.size
  readBytes := file.readBytes
  fits := by
    intro call position length buffer hread
    obtain ⟨-, rfl⟩ := SourceFile.readBytes_eq_ok.1 hread
    rw [SourceFile.length_part]
    omega

@[simp] theorem readBytes_ofFile (file : SourceFile) :
    (ofFile file).readBytes = file.readBytes := rfl

section Termination

variable {source : SourceHandle} {answers : Nat → List Transfer} {cacheBlockSize : UInt64}
  {isDestination : Bool}

/-- What a range that succeeds has done with the source. -/
structure RangeDone (source : SourceHandle) (cacheBlockSize srcPosition length count : UInt64)
    (reads : Nat) (n : UInt64) (reads' : Nat) : Prop where
  forward : count.toNat ≤ n.toNat
  inside : n.toNat ≤ length.toNat
  later : reads < reads'
  succeeded : ∀ call, reads ≤ call → call < reads' →
    ∃ position length buffer, source.readBytes call position length = .ok buffer
  stalled : n = count → reads' = reads + 1 ∧ ∃ buffer, buffer.bytes = [] ∧
    source.readBytes reads (srcPosition + count) (min (length - count) cacheBlockSize) =
      .ok buffer

/-- The counter of a range after a read. -/
theorem next_count {length count : UInt64} {buffer : Buffer}
    (hcount : count.toNat ≤ length.toNat)
    (hread : buffer.bytes.length ≤ (min (length - count) cacheBlockSize).toNat) :
    (count + UInt64.ofNat buffer.bytes.length).toNat = count.toNat + buffer.bytes.length ∧
      count.toNat + buffer.bytes.length ≤ length.toNat := by
  have hlt := length.toNat_lt
  rw [UInt64.toNat_min, UInt64.toNat_sub_of_le _ _ (UInt64.le_iff_toNat_le.2 hcount)] at hread
  refine ⟨?_, by omega⟩
  exact toNat_add_ofNat (by omega)

theorem rangeRounds_done {srcPosition length destPosition : UInt64} {fuel : Nat}
    {count n : UInt64} {c c' : CopyState} (hcount : count.toNat ≤ length.toNat)
    (hfuel : length.toNat - count.toNat < fuel)
    (hok : rangeRounds source answers cacheBlockSize srcPosition length destPosition fuel count c =
      (.ok n, c')) :
    RangeDone source cacheBlockSize srcPosition length count c.reads n c'.reads := by
  induction fuel generalizing count c with
  | zero => exact absurd hfuel (Nat.not_lt_zero _)
  | succ fuel ih =>
      rw [rangeRounds] at hok
      cases hread : source.readBytes c.reads (srcPosition + count)
          (min (length - count) cacheBlockSize) with
      | error status =>
          simp only [hread] at hok
          cases hok
      | ok buffer =>
          have honly : ∀ call, c.reads ≤ call → call < c.reads + 1 →
              ∃ position length buffer, source.readBytes call position length = .ok buffer := by
            intro call hle hlt
            obtain rfl : call = c.reads := by omega
            exact ⟨_, _, _, hread⟩
          obtain ⟨hnext, hinside⟩ := next_count hcount (source.fits hread)
          simp only [hread] at hok
          split_ifs at hok with hempty hfailed hmore
          · obtain ⟨hn, rfl⟩ := Prod.mk.inj hok
            obtain rfl := Except.ok.inj hn
            exact ⟨le_rfl, hcount, Nat.lt_succ_self _, honly,
              fun _ => ⟨rfl, buffer, hempty, hread⟩⟩
          · cases hok
          · have hpositive := List.length_pos_iff.2 hempty
            have hrest := ih (by omega) (by omega) hok
            have hforward := hrest.forward
            have hlater := hrest.later
            dsimp only at hlater
            refine ⟨by omega, hrest.inside, by omega, ?_, ?_⟩
            · intro call hle hlt
              rcases Nat.lt_or_ge call (c.reads + 1) with hfirst | hbehind
              · exact honly call hle hfirst
              · exact hrest.succeeded call hbehind hlt
            · rintro rfl
              omega
          · obtain ⟨hn, rfl⟩ := Prod.mk.inj hok
            obtain rfl := Except.ok.inj hn
            refine ⟨by omega, by omega, Nat.lt_succ_self _, honly, ?_⟩
            intro heq
            have hpositive := List.length_pos_iff.2 hempty
            rw [heq] at hnext
            omega

/-- From there on the copy ends. -/
def Ends (source : SourceHandle) (answers : Nat → List Transfer) (cacheBlockSize : UInt64)
    (isDestination : Bool) (totalSize pos : UInt64) (c : CopyState) : Prop :=
  ∃ fuel, (source.downloadRounds answers cacheBlockSize isDestination totalSize fuel pos
    c).isSome = true

/-- A copy ends if it ends behind its next range. -/
theorem Ends.of_range {totalSize pos : UInt64} {c : CopyState}
    (hnext : isDestination = false → pos.toNat ≤ totalSize.toNat → ∀ n c',
      RangeDone source cacheBlockSize pos (min cacheBlockSize (totalSize - pos)) 0 c.reads n
        c'.reads → (pos + n).toNat = pos.toNat + n.toNat →
      pos.toNat + n.toNat < totalSize.toNat →
      Ends source answers cacheBlockSize isDestination totalSize (pos + n) c')
    (hpos : pos.toNat ≤ totalSize.toNat) :
    Ends source answers cacheBlockSize isDestination totalSize pos c := by
  cases isDestination with
  | true => exact ⟨1, rfl⟩
  | false =>
      cases hrange : source.downloadRange answers cacheBlockSize false pos
          (min cacheBlockSize (totalSize - pos)) pos c with
      | mk result c' =>
          cases result with
          | error status => exact ⟨1, by simp only [downloadRounds, hrange, Option.isSome_some]⟩
          | ok n =>
              have hdone := rangeRounds_done (Nat.zero_le _) (by
                rw [UInt64.toNat_zero]
                omega) hrange
              have hinside := hdone.inside
              have hlength : (min cacheBlockSize (totalSize - pos)).toNat ≤
                  totalSize.toNat - pos.toNat := by
                rw [UInt64.toNat_min,
                  UInt64.toNat_sub_of_le _ _ (UInt64.le_iff_toNat_le.2 hpos)]
                omega
              have hplace : (pos + n).toNat = pos.toNat + n.toNat := by
                have hlt := totalSize.toNat_lt
                exact toNat_add_of_lt (by omega)
              by_cases hmore : pos + n < totalSize
              · have hlt := UInt64.lt_iff_toNat_lt.1 hmore
                obtain ⟨fuel, hfuel⟩ := hnext rfl hpos n c' hdone hplace (by omega)
                refine ⟨fuel + 1, ?_⟩
                simp only [downloadRounds, hrange, hmore, ↓reduceIte]
                exact hfuel
              · refine ⟨1, ?_⟩
                simp only [downloadRounds, hrange, hmore, ↓reduceIte, Option.isSome_some]

/-- A copy ends at a read that fails. -/
theorem ends_of_failure {totalSize : UInt64} {failing : Nat}
    (hfails : ∀ position length buffer, source.readBytes failing position length ≠ .ok buffer)
    {pos : UInt64} (hpos : pos.toNat ≤ totalSize.toNat) {c : CopyState}
    (hreads : c.reads ≤ failing) :
    Ends source answers cacheBlockSize isDestination totalSize pos c := by
  induction hwait : failing - c.reads using Nat.strong_induction_on generalizing pos c with
  | _ wait ih =>
      apply Ends.of_range _ hpos
      intro _ _ n c' hdone hplace hless
      have hlater := hdone.later
      have hbefore : c'.reads ≤ failing := by
        by_contra hbehind
        obtain ⟨position, length, buffer, hread⟩ :=
          hdone.succeeded failing hreads (Nat.lt_of_not_le hbehind)
        exact hfails position length buffer hread
      exact ih _ (by omega) (by omega) hbefore rfl

/-- The bytes that are left and then the reads until the next that returns something become
fewer. -/
theorem KeepsDelivering.ends (hkeeps : source.KeepsDelivering cacheBlockSize)
    {totalSize : UInt64} (hsize : source.size = .ok totalSize) {pos : UInt64}
    (hpos : pos.toNat ≤ totalSize.toNat) (c : CopyState) :
    Ends source answers cacheBlockSize isDestination totalSize pos c := by
  induction hleft : totalSize.toNat - pos.toNat using Nat.strong_induction_on
    generalizing pos c with
  | _ left ihleft =>
      rcases Nat.lt_or_ge pos.toNat totalSize.toNat with hlt | hge
      · have hlength : 0 < min (min cacheBlockSize (totalSize - pos)) cacheBlockSize := by
          have hblock := UInt64.lt_iff_toNat_lt.1 hkeeps.1
          rw [UInt64.toNat_zero] at hblock
          rw [UInt64.lt_iff_toNat_lt, UInt64.toNat_min, UInt64.toNat_min, UInt64.toNat_zero,
            UInt64.toNat_sub_of_le _ _ (UInt64.le_iff_toNat_le.2 hpos)]
          omega
        obtain ⟨later, hlater, hdelivers⟩ := hkeeps.2 totalSize hsize pos _
          (UInt64.lt_iff_toNat_lt.2 hlt) hlength c.reads
        induction hwait : later - c.reads generalizing c with
        | zero =>
            obtain rfl : later = c.reads := by omega
            apply Ends.of_range _ hpos
            intro _ _ n c' hdone hplace hless
            by_cases hstalled : n = 0
            · obtain ⟨-, buffer, hempty, hread⟩ := hdone.stalled hstalled
              rw [UInt64.add_zero, UInt64.sub_zero] at hread
              exact absurd hempty (hdelivers buffer hread)
            · have hpositive := toNat_pos_of_ne_zero hstalled
              exact ihleft _ (by omega) (by omega) c' rfl
        | succ wait ihwait =>
            apply Ends.of_range _ hpos
            intro _ _ n c' hdone hplace hless
            by_cases hstalled : n = 0
            · obtain ⟨hreads, -⟩ := hdone.stalled hstalled
              rw [hstalled, UInt64.add_zero]
              exact ihwait c' (by omega) (by omega)
            · have hpositive := toNat_pos_of_ne_zero hstalled
              exact ihleft _ (by omega) (by omega) c' rfl
      · apply Ends.of_range _ hpos
        intro _ _ n c' _ _ hless
        omega

end Termination

section Exact

open LocalFile.Posix

variable {file : SourceFile} {answers : Nat → List Transfer} {cacheBlockSize : UInt64}
  {srcPosition length destPosition : UInt64}

/-- A read of a file that finds nothing. -/
theorem rangeRounds_of_nothing {count : UInt64} {c : CopyState}
    (hfailure : file.failure c.reads = none)
    (hnothing : (file.part c.reads (srcPosition + count)
      (min (length - count) cacheBlockSize)).bytes = []) (fuel : Nat) :
    rangeRounds (ofFile file) answers cacheBlockSize srcPosition length destPosition (fuel + 1)
      count c = (.ok count, { c with reads := c.reads + 1 }) := by
  rw [rangeRounds]
  simp only [readBytes_ofFile, SourceFile.readBytes_of_none hfailure, hnothing, ↓reduceIte]

/-- A read of a file that finds something, which is written. -/
theorem rangeRounds_of_part {count : UInt64} {c : CopyState} {buffer : Buffer}
    (hread : (ofFile file).readBytes c.reads (srcPosition + count)
      (min (length - count) cacheBlockSize) = .ok buffer) (hsome : buffer.bytes ≠ [])
    (hanswers : Transfer.Healthy (answers c.writes)) (hstep : InStep c.file c.files)
    (hfits : (destPosition + count).toNat + buffer.bytes.length < 2 ^ 63) (fuel : Nat) :
    ∃ c', rangeRounds (ofFile file) answers cacheBlockSize srcPosition length destPosition
        (fuel + 1) count c =
        (if count + UInt64.ofNat buffer.bytes.length < length then
          rangeRounds (ofFile file) answers cacheBlockSize srcPosition length destPosition fuel
            (count + UInt64.ofNat buffer.bytes.length) c'
        else (.ok (count + UInt64.ofNat buffer.bytes.length), c')) ∧
      Becomes c.file c.files ((SparseArray.ofList (c.files.content c.file.inode)).write
        (destPosition + count).toNat buffer.bytes) c'.file c'.files := by
  have hok := @writeBytes_ok _ hanswers c.file c.files buffer (destPosition + count) hfits
  refine ⟨⟨c.reads + 1, c.writes + 1, _, _⟩, ?_, writeBytes_becomes hstep hok⟩
  rw [rangeRounds]
  simp only [hread, hsome, hok, Bool.true_eq_false, ↓reduceIte]

/-- The rounds that are left copy what is left of the range, as far as the file goes. -/
theorem rangeRounds_copies (hfailure : ∀ call, file.failure call = none)
    (hanswers : ∀ call, Transfer.Healthy (answers call)) (hblock : 0 < cacheBlockSize)
    (hfits : destPosition.toNat +
      min length.toNat (file.content.length - srcPosition.toNat) < 2 ^ 63)
    {fuel : Nat} {count : UInt64} {c : CopyState} (hstep : InStep c.file c.files)
    (hcount : count.toNat ≤ min length.toNat (file.content.length - srcPosition.toNat))
    (hfuel : length.toNat - count.toNat < fuel) :
    ∃ n c', rangeRounds (ofFile file) answers cacheBlockSize srcPosition length destPosition fuel
        count c = (.ok n, c') ∧
      n.toNat = min length.toNat (file.content.length - srcPosition.toNat) ∧
      Becomes c.file c.files ((SparseArray.ofList (c.files.content c.file.inode)).write
        (destPosition.toNat + count.toNat) (slice file.content
          (srcPosition.toNat + count.toNat) (length.toNat - count.toNat))) c'.file c'.files := by
  have hbounded := file.bounded
  induction fuel generalizing count c with
  | zero => exact absurd hfuel (Nat.not_lt_zero _)
  | succ fuel ih =>
      have hsource : (srcPosition + count).toNat = srcPosition.toNat + count.toNat := by
        have hlt := srcPosition.toNat_lt
        exact toNat_add_of_lt (by omega)
      have hwanted : (min (length - count) cacheBlockSize).toNat =
          min (length.toNat - count.toNat) cacheBlockSize.toNat := by
        rw [UInt64.toNat_min, UInt64.toNat_sub_of_le _ _ (UInt64.le_iff_toNat_le.2 (by omega))]
      have hpart := file.length_part c.reads (srcPosition + count)
        (min (length - count) cacheBlockSize)
      rw [hsource, hwanted] at hpart
      by_cases hnothing : (file.part c.reads (srcPosition + count)
          (min (length - count) cacheBlockSize)).bytes = []
      · -- the range or the file is at its end
        have hpositive := UInt64.lt_iff_toNat_lt.1 hblock
        rw [UInt64.toNat_zero] at hpositive
        rw [hnothing, List.length_nil] at hpart
        have hslice : slice file.content (srcPosition.toNat + count.toNat)
            (length.toNat - count.toNat) = [] := by
          rw [← List.length_eq_zero_iff, length_slice]
          omega
        refine ⟨count, _, rangeRounds_of_nothing (hfailure _) hnothing fuel, by omega, ?_⟩
        rw [hslice, SparseArray.write_nil]
        exact ⟨rfl, hstep, rfl⟩
      · -- a part is written, and the rounds behind it write the rest
        have hread : (ofFile file).readBytes c.reads (srcPosition + count)
            (min (length - count) cacheBlockSize) = .ok (file.part c.reads (srcPosition + count)
              (min (length - count) cacheBlockSize)) :=
          SourceFile.readBytes_of_none (hfailure c.reads) _ _
        have hvalue := file.bytes_part c.reads (srcPosition + count)
          (min (length - count) cacheBlockSize)
        generalize file.part c.reads (srcPosition + count)
          (min (length - count) cacheBlockSize) = buffer at hread hnothing hpart hvalue
        obtain ⟨hnext, hinside⟩ := next_count (by omega) ((ofFile file).fits hread)
        have hpositive := List.length_pos_iff.2 hnothing
        have hwithin : srcPosition.toNat + count.toNat + buffer.bytes.length ≤
            file.content.length := by
          omega
        clear hpart hwanted
        have hdest : (destPosition + count).toNat = destPosition.toNat + count.toNat :=
          toNat_add_of_lt (by omega)
        obtain ⟨c', hround, hbecomes⟩ := @rangeRounds_of_part file answers cacheBlockSize
          srcPosition length destPosition count c buffer hread hnothing (hanswers c.writes) hstep
          (by omega) fuel
        rw [hdest] at hbecomes
        rw [hsource] at hvalue
        rw [hround]
        by_cases hmore : count + UInt64.ofNat buffer.bytes.length < length
        · obtain ⟨n, c'', hrest, hn, hcopied⟩ := @ih (count + UInt64.ofNat buffer.bytes.length) c'
            hbecomes.inStep (by omega) (by omega)
          have hboth := hbecomes.trans (fun array => array.write _ _) hcopied
          have hlengths : length.toNat - count.toNat =
              buffer.bytes.length + (length.toNat - (count.toNat + buffer.bytes.length)) := by
            omega
          rw [hnext, ← Nat.add_assoc, ← Nat.add_assoc, SparseArray.write_write] at hboth
          refine ⟨n, c'', by rwa [if_pos hmore], hn, ?_⟩
          rw [hlengths, ← slice_append, ← hvalue]
          exact hboth
        · have hend : length.toNat - count.toNat = buffer.bytes.length := by
            rw [UInt64.lt_iff_toNat_lt] at hmore
            omega
          refine ⟨count + UInt64.ofNat buffer.bytes.length, c', if_neg hmore, by omega, ?_⟩
          rw [hend, ← hvalue]
          exact hbecomes

/-- A range of a file without failures. -/
theorem downloadRange_copies (hfailure : ∀ call, file.failure call = none)
    (hanswers : ∀ call, Transfer.Healthy (answers call)) (hblock : 0 < cacheBlockSize)
    {c : CopyState} (hstep : InStep c.file c.files)
    (hfits : min length.toNat (file.content.length - srcPosition.toNat) = 0 ∨
      destPosition.toNat +
        min length.toNat (file.content.length - srcPosition.toNat) < 2 ^ 63) :
    ∃ n c', (ofFile file).downloadRange answers cacheBlockSize false srcPosition length
        destPosition c = (.ok n, c') ∧
      n.toNat = min length.toNat (file.content.length - srcPosition.toNat) ∧
      Becomes c.file c.files ((SparseArray.ofList (c.files.content c.file.inode)).write
        destPosition.toNat (slice file.content srcPosition.toNat length.toNat))
        c'.file c'.files := by
  rcases hfits with hnothing | hfits
  · have hslice : slice file.content srcPosition.toNat length.toNat = [] := by
      rw [← List.length_eq_zero_iff, length_slice, hnothing]
    have hpart : (file.part c.reads (srcPosition + 0)
        (min (length - 0) cacheBlockSize)).bytes = [] := by
      rw [← List.length_eq_zero_iff, SourceFile.length_part, UInt64.add_zero, UInt64.sub_zero,
        UInt64.toNat_min]
      omega
    refine ⟨0, _, rangeRounds_of_nothing (hfailure _) hpart _, by rw [hnothing]; rfl, ?_⟩
    rw [hslice, SparseArray.write_nil]
    exact ⟨rfl, hstep, rfl⟩
  · have hcopies := @rangeRounds_copies file answers cacheBlockSize srcPosition length
      destPosition hfailure hanswers hblock hfits (length.toNat + 1) 0 c hstep (Nat.zero_le _)
      (by rw [UInt64.toNat_zero]; omega)
    simp only [UInt64.toNat_zero, Nat.add_zero, Nat.sub_zero] at hcopies
    exact hcopies

/-- All ranges of a file whose size is that of its content. -/
theorem downloadRounds_copies (hfailure : ∀ call, file.failure call = none)
    (hanswers : ∀ call, Transfer.Healthy (answers call)) (hblock : 0 < cacheBlockSize)
    {totalSize : UInt64} (htotal : totalSize.toNat = file.content.length) {fuel : Nat}
    {pos : UInt64} (hpos : pos.toNat ≤ totalSize.toNat)
    (hfuel : totalSize.toNat - pos.toNat < fuel) {c : CopyState}
    (hstep : InStep c.file c.files) :
    ∃ c', (ofFile file).downloadRounds answers cacheBlockSize false totalSize fuel pos c =
        some (okStatus, c') ∧
      Becomes c.file c.files ((SparseArray.ofList (c.files.content c.file.inode)).write
        pos.toNat (file.content.drop pos.toNat)) c'.file c'.files := by
  have hbounded := file.bounded
  have hpositive := UInt64.lt_iff_toNat_lt.1 hblock
  rw [UInt64.toNat_zero] at hpositive
  induction fuel generalizing pos c with
  | zero => exact absurd hfuel (Nat.not_lt_zero _)
  | succ fuel ih =>
      have hlength : (min cacheBlockSize (totalSize - pos)).toNat =
          min cacheBlockSize.toNat (totalSize.toNat - pos.toNat) := by
        rw [UInt64.toNat_min, UInt64.toNat_sub_of_le _ _ (UInt64.le_iff_toNat_le.2 hpos)]
      obtain ⟨n, c', hrange, hn, hcopied⟩ := @downloadRange_copies file answers cacheBlockSize
        pos (min cacheBlockSize (totalSize - pos)) pos hfailure hanswers hblock c hstep
        (Or.inr (by omega))
      have hplace : (pos + n).toNat = pos.toNat + n.toNat :=
        toNat_add_of_lt (by omega)
      have hsplit := List.take_append_drop n.toNat (file.content.drop pos.toNat)
      rw [List.drop_drop] at hsplit
      have hslice : slice file.content pos.toNat (min cacheBlockSize (totalSize - pos)).toNat =
          (file.content.drop pos.toNat).take n.toNat := by
        rw [hn, ← slice_min_length]
        rfl
      have htaken : ((file.content.drop pos.toNat).take n.toNat).length = n.toNat := by
        rw [List.length_take, List.length_drop]
        omega
      rw [hslice] at hcopied
      rw [downloadRounds]
      simp only [hrange]
      by_cases hmore : pos + n < totalSize
      · have hlt := UInt64.lt_iff_toNat_lt.1 hmore
        obtain ⟨c'', hrest, hends⟩ := @ih (pos + n) (by omega) (by omega) c' hcopied.inStep
        have hboth := hcopied.trans (fun array => array.write _ _) hends
        have hjoined := @SparseArray.write_write _ _
          (SparseArray.ofList (c.files.content c.file.inode)) pos.toNat
          ((file.content.drop pos.toNat).take n.toNat) (file.content.drop (pos.toNat + n.toNat))
        rw [htaken, hsplit] at hjoined
        rw [hplace, hjoined] at hboth
        exact ⟨c'', by simpa only [hmore, ↓reduceIte] using hrest, hboth⟩
      · rw [UInt64.lt_iff_toNat_lt] at hmore
        have hall : (file.content.drop pos.toNat).take n.toNat = file.content.drop pos.toNat :=
          List.take_of_length_le (by rw [List.length_drop]; omega)
        rw [hall] at hcopied
        refine ⟨c', ?_, hcopied⟩
        rw [if_neg (by rw [UInt64.lt_iff_toNat_lt]; exact hmore)]

/-- A file that ends before its size is read for ever. -/
theorem downloadRounds_eq_none (hfailure : ∀ call, file.failure call = none)
    (hanswers : ∀ call, Transfer.Healthy (answers call)) {totalSize : UInt64}
    (hshort : cacheBlockSize = 0 ∨ file.content.length < totalSize.toNat) (fuel : Nat)
    {pos : UInt64} (hpos : pos.toNat ≤ file.content.length) (hless : pos < totalSize)
    {c : CopyState} (hstep : InStep c.file c.files) :
    (ofFile file).downloadRounds answers cacheBlockSize false totalSize fuel pos c = none := by
  have hbounded := file.bounded
  induction fuel generalizing pos c with
  | zero => rfl
  | succ fuel ih =>
      have hrange : ∃ n c', (ofFile file).downloadRange answers cacheBlockSize false pos
          (min cacheBlockSize (totalSize - pos)) pos c = (.ok n, c') ∧
            pos.toNat + n.toNat ≤ file.content.length ∧ pos + n < totalSize ∧
            InStep c'.file c'.files := by
        by_cases hblock : cacheBlockSize = 0
        · have hpart : (file.part c.reads (pos + 0)
              (min (min cacheBlockSize (totalSize - pos) - 0) cacheBlockSize)).bytes = [] := by
            rw [← List.length_eq_zero_iff, SourceFile.length_part, UInt64.toNat_min, hblock,
              UInt64.toNat_zero]
            omega
          exact ⟨0, _, rangeRounds_of_nothing (hfailure _) hpart _, hpos,
            by rwa [UInt64.add_zero], hstep⟩
        · have hpositive : 0 < cacheBlockSize := UInt64.pos_iff_ne_zero.2 hblock
          have hlong := hshort.resolve_left hblock
          obtain ⟨n, c', hresult, hn, hcopied⟩ := @downloadRange_copies file answers
            cacheBlockSize pos (min cacheBlockSize (totalSize - pos)) pos hfailure hanswers
            hpositive c hstep (Or.inr (by omega))
          refine ⟨n, c', hresult, by omega, ?_, hcopied.inStep⟩
          rw [UInt64.lt_iff_toNat_lt, toNat_add_of_lt (by omega)]
          omega
      obtain ⟨n, c', hresult, hreached, hmore, hstep'⟩ := hrange
      have hplace : (pos + n).toNat = pos.toNat + n.toNat :=
        toNat_add_of_lt (by omega)
      rw [downloadRounds]
      simp only [hresult, hmore, ↓reduceIte]
      exact ih (by omega) hmore hstep'

end Exact

/-- Without failures, and with a buffer, a range that fits into the destination is copied as
far as the source has it, and nothing else of the destination changes; and a file whose size
is right is copied as a whole. -/
theorem download_exact (file : SourceFile) (hfailure : ∀ call, file.failure call = none)
    (answers : Nat → List Transfer) (hanswers : ∀ call, Transfer.Healthy (answers call))
    (cacheBlockSize : UInt64) (hblock : 0 < cacheBlockSize) (c : CopyState)
    (hstep : Posix.InStep c.file c.files) :
    (∀ srcPosition length destPosition : UInt64,
      (min length.toNat (file.content.length - srcPosition.toNat) = 0 ∨
        destPosition.toNat +
          min length.toNat (file.content.length - srcPosition.toNat) < 2 ^ 63) →
      ∃ n c', (ofFile file).downloadRange answers cacheBlockSize false srcPosition length
          destPosition c = (.ok n, c') ∧
        n.toNat = min length.toNat (file.content.length - srcPosition.toNat) ∧
        Posix.Becomes c.file c.files ((SparseArray.ofList (c.files.content c.file.inode)).write
          destPosition.toNat (slice file.content srcPosition.toNat n.toNat)) c'.file c'.files) ∧
    (file.size = .ok (UInt64.ofNat file.content.length) →
      ∀ fuel, file.content.length < fuel →
        ∃ c', (ofFile file).download answers cacheBlockSize false fuel c = some (okStatus, c') ∧
          Posix.Becomes c.file c.files
            ((SparseArray.ofList (c.files.content c.file.inode)).write 0 file.content)
            c'.file c'.files) := by
  constructor
  · intro srcPosition length destPosition hfits
    obtain ⟨n, c', hrange, hn, hcopied⟩ :=
      downloadRange_copies hfailure hanswers hblock hstep hfits
    refine ⟨n, c', hrange, hn, ?_⟩
    rw [hn, slice_min_length]
    exact hcopied
  · intro hsize fuel hfuel
    have hbounded := file.bounded
    have htotal : (UInt64.ofNat file.content.length).toNat = file.content.length :=
      Nat.mod_eq_of_lt (by omega)
    have hrounds : (UInt64.ofNat file.content.length).toNat - (0 : UInt64).toNat < fuel := by
      rw [htotal, UInt64.toNat_zero]
      omega
    obtain ⟨c', hrounds, hcopied⟩ := downloadRounds_copies hfailure hanswers hblock htotal
      (Nat.zero_le _) hrounds hstep
    refine ⟨c', ?_, hcopied⟩
    have hsource : (ofFile file).size = .ok (UInt64.ofNat file.content.length) := hsize
    simp only [download, hsource]
    exact hrounds

theorem terminates_of_ends {source : SourceHandle} {cacheBlockSize : UInt64}
    (hends : ∀ totalSize, source.size = .ok totalSize → ∀ answers isDestination c,
      c.reads = 0 → Ends source answers cacheBlockSize isDestination totalSize 0 c) :
    source.Terminates cacheBlockSize := by
  intro answers isDestination file files
  cases hsize : source.size with
  | error status => exact ⟨0, by simp only [download, hsize, Option.isSome_some]⟩
  | ok totalSize =>
      obtain ⟨fuel, hfuel⟩ := hends totalSize hsize answers isDestination ⟨0, 0, file, files⟩ rfl
      refine ⟨fuel, ?_⟩
      simp only [download, hsize]
      exact hfuel

/-- A file that is as long as its size delivers at every place in front of it. -/
theorem keepsDelivering_ofFile {file : SourceFile} {cacheBlockSize totalSize : UInt64}
    (hsize : file.size = .ok totalSize) (hblock : 0 < cacheBlockSize)
    (hlong : totalSize.toNat ≤ file.content.length) :
    (ofFile file).KeepsDelivering cacheBlockSize := by
  refine ⟨hblock, ?_⟩
  intro total htotal position length hposition hlength call
  refine ⟨call, le_rfl, ?_⟩
  intro buffer hread
  obtain ⟨-, rfl⟩ := SourceFile.readBytes_eq_ok.1 hread
  obtain rfl := Except.ok.inj (hsize.symm.trans htotal)
  have hless := UInt64.lt_iff_toNat_lt.1 hposition
  have hwanted := UInt64.lt_iff_toNat_lt.1 hlength
  rw [UInt64.toNat_zero] at hwanted
  rw [← List.length_pos_iff, SourceFile.length_part]
  omega

/-- A file that is shorter than its size is never copied to an empty file. -/
theorem not_terminates_ofFile {file : SourceFile} {cacheBlockSize totalSize : UInt64}
    (hsize : file.size = .ok totalSize) (hfailure : ∀ call, file.failure call = none)
    (hsome : totalSize ≠ 0)
    (hshort : cacheBlockSize = 0 ∨ file.content.length < totalSize.toNat) :
    ¬ (ofFile file).Terminates cacheBlockSize := by
  intro hterminates
  obtain ⟨fuel, hfuel⟩ := hterminates (fun _ => []) false ⟨[], 0, 0⟩ FileSystem.empty
  have hempty : Posix.InStep ⟨[], 0, 0⟩ FileSystem.empty := ⟨rfl, by decide⟩
  have hnone := @downloadRounds_eq_none file (fun _ => []) cacheBlockSize hfailure
    (fun _ => Transfer.Healthy.nil) totalSize hshort fuel 0 (Nat.zero_le _)
    (UInt64.pos_iff_ne_zero.2 hsome) ⟨0, 0, ⟨[], 0, 0⟩, FileSystem.empty⟩ hempty
  have hsource : (ofFile file).size = .ok totalSize := hsize
  simp only [download, hsource, hnone] at hfuel
  cases hfuel

/-- A copy ends if its source does not return nothing for ever where it promised more; and
one of a file that does not change, just if its size is not more than what it has, or a
read fails. -/
theorem download_terminates (cacheBlockSize : UInt64) :
    (∀ source : SourceHandle, source.KeepsDelivering cacheBlockSize →
      source.Terminates cacheBlockSize) ∧
    ∀ file : SourceFile, (ofFile file).Terminates cacheBlockSize ↔
      ∀ totalSize, file.size = .ok totalSize →
        totalSize = 0 ∨ (0 < cacheBlockSize ∧ totalSize.toNat ≤ file.content.length) ∨
          ∃ call, file.failure call ≠ none := by
  constructor
  · intro source hkeeps
    apply terminates_of_ends
    intro totalSize hsize answers isDestination c _
    exact hkeeps.ends hsize (Nat.zero_le _) c
  · intro file
    constructor
    · intro hterminates totalSize hsize
      by_contra hnot
      obtain ⟨hsome, hshort, hfailure⟩ : totalSize ≠ 0 ∧
          ¬ (0 < cacheBlockSize ∧ totalSize.toNat ≤ file.content.length) ∧
          ∀ call, file.failure call = none := by
        simpa only [not_or, not_exists, not_not] using hnot
      refine not_terminates_ofFile hsize hfailure hsome ?_ hterminates
      by_cases hblock : cacheBlockSize = 0
      · exact Or.inl hblock
      · right
        by_contra hlong
        exact hshort ⟨UInt64.pos_iff_ne_zero.2 hblock, by omega⟩
    · intro hcondition
      apply terminates_of_ends
      intro totalSize hsize answers isDestination c hreads
      rcases hcondition totalSize hsize with rfl | ⟨hblock, hlong⟩ | ⟨call, hcall⟩
      · apply Ends.of_range _ le_rfl
        intro _ _ n c' _ _ hless
        exact absurd hless (Nat.not_lt_zero _)
      · exact (keepsDelivering_ofFile hsize hblock hlong).ends hsize (Nat.zero_le _) c
      · apply ends_of_failure _ (Nat.zero_le _) (by omega : c.reads ≤ call)
        intro position length buffer hread
        exact hcall (SourceFile.readBytes_eq_ok.1 hread).1

namespace Sample

theorem length_letters : (text "abc").length < 2 ^ 63 := by decide

/-- Three bytes, read one at a time, and the size that is promised for them. -/
def letters (size : UInt64) : SourceFile :=
  ⟨text "abc", length_letters, .ok size, fun _ => 1, fun _ => none⟩

/-- An empty destination. -/
def empty : CopyState := ⟨0, 0, ⟨[], 0, 0⟩, FileSystem.empty⟩

theorem empty_inStep : Posix.InStep empty.file empty.files := ⟨rfl, by decide⟩

theorem letters_copied :
    (∀ call, (letters 3).failure call = none) ∧
      ∃ c', (ofFile (letters 3)).download (fun _ => []) 2 false 4 empty = some (okStatus, c') ∧
        Posix.Becomes empty.file empty.files ((SparseArray.ofList
          (empty.files.content empty.file.inode)).write 0 (text "abc")) c'.file c'.files := by
  refine ⟨fun _ => rfl, ?_⟩
  exact (download_exact (letters 3) (fun _ => rfl) (fun _ => []) (fun _ => Transfer.Healthy.nil) 2
    (by decide) empty empty_inStep).2 rfl 4 (by decide)

/-- No byte can be written at `2^63`. -/
theorem high_destination_fails :
    ¬ ∀ (file : SourceFile) (answers : Nat → List Transfer) (cacheBlockSize : UInt64)
      (c : CopyState) (srcPosition length destPosition : UInt64),
      (∀ call, file.failure call = none) → (∀ call, Transfer.Healthy (answers call)) →
      0 < cacheBlockSize → Posix.InStep c.file c.files →
      ∃ n c', (ofFile file).downloadRange answers cacheBlockSize false srcPosition length
        destPosition c = (.ok n, c') := by
  intro hall
  obtain ⟨n, c', hrange⟩ := hall (letters 3) (fun _ => []) 2 empty 0 3 0x8000000000000000
    (fun _ => rfl) (fun _ => Transfer.Healthy.nil) (by decide) empty_inStep
  have hfailed : ((ofFile (letters 3)).downloadRange (fun _ => []) 2 false 0 3
      0x8000000000000000 empty).1.isOk = false := by decide
  rw [hrange] at hfailed
  cases hfailed

theorem letters_terminates :
    (ofFile (letters 3)).KeepsDelivering 2 ∧ (ofFile (letters 3)).Terminates 2 := by
  have hkeeps : (ofFile (letters 3)).KeepsDelivering 2 :=
    keepsDelivering_ofFile rfl (by decide) (by decide)
  exact ⟨hkeeps, (download_terminates 2).1 _ hkeeps⟩

/-- Four bytes are promised. -/
theorem truncated_never_ends :
    ¬ ∀ (source : SourceHandle) (cacheBlockSize : UInt64), source.Terminates cacheBlockSize := by
  intro hall
  exact @not_terminates_ofFile (letters 4) 2 4 rfl (fun _ => rfl) (by decide)
    (Or.inr (by decide)) (hall (ofFile (letters 4)) 2)

end Sample

end SourceHandle

end GEDS
