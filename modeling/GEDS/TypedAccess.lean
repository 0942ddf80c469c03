/-
The typed reads and writes of `GEDSFile`.  Elements become bytes in words of 64 bits before
anything is compared, and the file handle sees only what comes out.
-/
import GEDS.VectorRead

namespace GEDS

open Status

/-- The file handle below a `GEDSFile`: how it answers a range of bytes. -/
structure ByteHandle where
  readBytes : UInt64 → UInt64 → Except Status UInt64
  writeBytes : UInt64 → UInt64 → Except Status Unit

/-- The elements that a pointer into a vector starts at, and how many the vector has. -/
structure VectorPlace where
  offset : UInt64
  count : Nat

/-- What a handle is asked to move between the file and memory. -/
structure FileAccess where
  position : UInt64
  length : UInt64
  vector : Option VectorPlace

/-- What becomes of a typed call.  A `length_error` of `resize` is thrown before the access or
behind it, where it leaves no result. -/
inductive TypedOutcome (ρ : Type) where
  | thrown
  | refused (status : Status)
  | accessed (access : FileAccess) (result : Option ρ)

namespace GEDSFile

variable {T : ElementType} (handle : ByteHandle)

/-- `read(T *, size_t, size_t)` -/
def readPointer (T : ElementType) (place : Option VectorPlace) (position length : UInt64) :
    TypedOutcome UInt64 :=
  let lengthBytes := length * UInt64.ofNat T.size
  let positionBytes := position * UInt64.ofNat T.size
  match handle.readBytes positionBytes lengthBytes with
  | .error status => .refused status
  | .ok count =>
      .accessed ⟨positionBytes, lengthBytes, place⟩ (some (count / UInt64.ofNat T.size))

/-- `read(std::vector<T> &, size_t, size_t, size_t)` -/
def readVectorAt (buffer : ElementVector T) (offset position length : UInt64) :
    TypedOutcome UInt64 :=
  let requiredLength := offset + length
  let prevBufferSize := buffer.count
  let grown :=
    if prevBufferSize < requiredLength.toNat then buffer.resize? requiredLength.toNat
    else some buffer
  match grown with
  | none => .thrown
  | some buffer =>
      match readPointer handle T (some ⟨offset, buffer.count⟩) position length with
      | .accessed access (some readLength) =>
          if prevBufferSize < (offset + readLength).toNat then
            .accessed access ((buffer.resize? (offset + readLength).toNat).map fun _ => readLength)
          else .accessed access (some readLength)
      | outcome => outcome

/-- `read(std::vector<T> &, size_t, size_t)` -/
def readVector (buffer : ElementVector T) (position length : UInt64) : TypedOutcome UInt64 :=
  readVectorAt handle buffer 0 position length

/-- `write(const T *, size_t, size_t)` -/
def writePointer (T : ElementType) (place : Option VectorPlace) (position length : UInt64) :
    TypedOutcome Unit :=
  let positionBytes := position * UInt64.ofNat T.size
  let lengthBytes := length * UInt64.ofNat T.size
  match handle.writeBytes positionBytes lengthBytes with
  | .error status => .refused status
  | .ok () => .accessed ⟨positionBytes, lengthBytes, place⟩ (some ())

/-- `write(const std::vector<T> &, size_t, size_t, size_t)` -/
def writeVectorAt (buffer : ElementVector T) (offset position length : UInt64) :
    TypedOutcome Unit :=
  if buffer.count < offset.toNat then
    .refused (failedPreconditionError (text "Offset is bigger than buffer."))
  else if buffer.count < (offset + length).toNat then
    .refused (failedPreconditionError (text "Invalid length!"))
  else writePointer handle T (some ⟨offset, buffer.count⟩) position length

/-- `write(const std::vector<T> &, size_t, size_t)` -/
def writeVector (buffer : ElementVector T) (position length : UInt64) : TypedOutcome Unit :=
  writeVectorAt handle buffer 0 position length

end GEDSFile

/-- The handle is asked for the bytes `[position * s, (position + length) * s)` of the file, and
of a vector for elements of `[offset, offset + length)` that it has. -/
structure FileAccess.Exact (access : FileAccess) (T : ElementType)
    (offset position length : UInt64) : Prop where
  file : Set.Ico access.position.toNat (access.position.toNat + access.length.toNat) =
    Set.Ico (position.toNat * T.size) ((position.toNat + length.toNat) * T.size)
  elements : ∀ place ∈ access.vector, ∀ byte, place.offset.toNat * T.size ≤ byte →
    byte < place.offset.toNat * T.size + access.length.toNat →
    offset.toNat ≤ byte / T.size ∧ byte / T.size < offset.toNat + length.toNat ∧
      byte / T.size < place.count

/-- A call fails without an access, or accesses exactly its range. -/
def TypedOutcome.InRange {ρ : Type} (T : ElementType) (offset position length : UInt64) :
    TypedOutcome ρ → Prop
  | .thrown => True
  | .refused _ => True
  | .accessed access _ => access.Exact T offset position length

/-- The overloads of `read` and `write` -/
inductive TypedCall (T : ElementType) where
  | readPointer (position length : UInt64)
  | readVectorAt (buffer : ElementVector T) (offset position length : UInt64)
  | readVector (buffer : ElementVector T) (position length : UInt64)
  | writePointer (position length : UInt64)
  | writeVectorAt (buffer : ElementVector T) (offset position length : UInt64)
  | writeVector (buffer : ElementVector T) (position length : UInt64)

namespace TypedCall

variable {T : ElementType}

def InRange (handle : ByteHandle) : TypedCall T → Prop
  | readPointer position length =>
      (GEDSFile.readPointer handle T none position length).InRange T 0 position length
  | readVectorAt buffer offset position length =>
      (GEDSFile.readVectorAt handle buffer offset position length).InRange T offset position length
  | readVector buffer position length =>
      (GEDSFile.readVector handle buffer position length).InRange T 0 position length
  | writePointer position length =>
      (GEDSFile.writePointer handle T none position length).InRange T 0 position length
  | writeVectorAt buffer offset position length =>
      (GEDSFile.writeVectorAt handle buffer offset position length).InRange T offset position length
  | writeVector buffer position length =>
      (GEDSFile.writeVector handle buffer position length).InRange T 0 position length

/-- The products with the size of an element do not wrap, or there is nothing to move. -/
def BytesFit (T : ElementType) (position length : UInt64) : Prop :=
  length = 0 ∨ position.toNat * T.size < 2 ^ 64 ∧ length.toNat * T.size < 2 ^ 64

/-- The handle refuses to read what the products come to. -/
def RefusesRead (handle : ByteHandle) (T : ElementType) (position length : UInt64) : Prop :=
  ∃ status, handle.readBytes (position * UInt64.ofNat T.size) (length * UInt64.ofNat T.size) =
    .error status

/-- It refuses to write there. -/
def RefusesWrite (handle : ByteHandle) (T : ElementType) (position length : UInt64) : Prop :=
  ∃ status, handle.writeBytes (position * UInt64.ofNat T.size) (length * UInt64.ofNat T.size) =
    .error status

/-- When a call stays in its range: it is refused, or neither a product nor the sum of the offset
and the length wraps. -/
def Condition (handle : ByteHandle) : TypedCall T → Prop
  | readPointer position length => RefusesRead handle T position length ∨ BytesFit T position length
  | readVectorAt _ offset position length =>
      T.maxCount < (offset + length).toNat ∨ RefusesRead handle T position length ∨
        offset.toNat + length.toNat < 2 ^ 64 ∧ BytesFit T position length
  | readVector _ position length =>
      T.maxCount < length.toNat ∨ RefusesRead handle T position length ∨ BytesFit T position length
  | writePointer position length =>
      RefusesWrite handle T position length ∨ BytesFit T position length
  | writeVectorAt buffer offset position length =>
      buffer.count < offset.toNat ∨ buffer.count < (offset + length).toNat ∨
        RefusesWrite handle T position length ∨
        offset.toNat + length.toNat < 2 ^ 64 ∧ BytesFit T position length
  | writeVector buffer position length =>
      buffer.count < length.toNat ∨ RefusesWrite handle T position length ∨
        BytesFit T position length

theorem toNat_mul_size (value : UInt64) :
    (value * UInt64.ofNat T.size).toNat = value.toNat * T.size % 2 ^ 64 := by
  rw [UInt64.toNat_mul, GEDSFile.toNat_size]

/-- The bytes that the handle is asked for are those of the call exactly if no product wraps. -/
theorem file_iff (position length : UInt64) :
    Set.Ico (position * UInt64.ofNat T.size).toNat
        ((position * UInt64.ofNat T.size).toNat + (length * UInt64.ofNat T.size).toNat) =
      Set.Ico (position.toNat * T.size) ((position.toNat + length.toNat) * T.size) ↔
      BytesFit T position length := by
  rw [toNat_mul_size, toNat_mul_size, Nat.add_mul, BytesFit]
  by_cases hlength : length = 0
  · simp [hlength]
  · have hpositive : 0 < length.toNat * T.size :=
      Nat.mul_pos (toNat_pos_of_ne_zero hlength) T.positive
    rw [Set.Ico_eq_Ico_iff (Or.inr (by omega))]
    simp only [hlength, false_or]
    omega

/-- Where no product wraps, the elements touched are those of the call, and they are in the vector
exactly if it reaches so far. -/
theorem elements_iff {offset position length : UInt64} {count : Nat}
    (hfit : BytesFit T position length) :
    (∀ place ∈ some (⟨offset, count⟩ : VectorPlace), ∀ byte,
      place.offset.toNat * T.size ≤ byte →
      byte < place.offset.toNat * T.size + (length * UInt64.ofNat T.size).toNat →
      offset.toNat ≤ byte / T.size ∧ byte / T.size < offset.toNat + length.toNat ∧
        byte / T.size < place.count) ↔
      length = 0 ∨ offset.toNat + length.toNat ≤ count := by
  have hsize := T.positive
  have hbytes : (length * UInt64.ofNat T.size).toNat = length.toNat * T.size := by
    rw [toNat_mul_size]
    rcases hfit with rfl | ⟨-, hlength⟩
    · simp
    · exact Nat.mod_eq_of_lt hlength
  have hsum := Nat.add_mul offset.toNat length.toNat T.size
  rw [hbytes]
  constructor
  · intro helements
    by_cases hlength : length = 0
    · exact Or.inl hlength
    · have hpositive := toNat_pos_of_ne_zero hlength
      -- the last element of the call is touched at its first byte
      have hfrom : offset.toNat * T.size ≤ (offset.toNat + length.toNat - 1) * T.size :=
        Nat.mul_le_mul_right T.size (by omega)
      have hto : (offset.toNat + length.toNat - 1) * T.size <
          offset.toNat * T.size + length.toNat * T.size :=
        hsum ▸ Nat.mul_lt_mul_of_pos_right (by omega) hsize
      have hlast : (offset.toNat + length.toNat - 1) * T.size / T.size < count :=
        (helements ⟨offset, count⟩ rfl _ hfrom hto).2.2
      rw [Nat.mul_div_cancel _ hsize] at hlast
      exact Or.inr (by omega)
  · rintro hinside place hplace byte hfrom hto
    obtain rfl : (⟨offset, count⟩ : VectorPlace) = place := Option.some.inj hplace
    have hfirst : offset.toNat ≤ byte / T.size := (Nat.le_div_iff_mul_le hsize).2 hfrom
    have hlast : byte / T.size < offset.toNat + length.toNat :=
      (Nat.div_lt_iff_lt_mul hsize).2 (hsum ▸ hto)
    refine ⟨hfirst, hlast, ?_⟩
    rcases hinside with rfl | hle
    · rw [UInt64.toNat_zero] at hlast
      omega
    · exact hlast.trans_le hle

/-- An access through a pointer -/
theorem exact_pointer_iff (offset position length : UInt64) :
    FileAccess.Exact ⟨position * UInt64.ofNat T.size, length * UInt64.ofNat T.size, none⟩ T offset
        position length ↔ BytesFit T position length := by
  constructor
  · intro hexact
    exact (file_iff position length).1 hexact.file
  · intro hfit
    refine ⟨(file_iff position length).2 hfit, fun place hplace => ?_⟩
    cases hplace

/-- An access to elements of a vector -/
theorem exact_vector_iff (offset position length : UInt64) (count : Nat) :
    FileAccess.Exact ⟨position * UInt64.ofNat T.size, length * UInt64.ofNat T.size,
        some ⟨offset, count⟩⟩ T offset position length ↔
      BytesFit T position length ∧ (length = 0 ∨ offset.toNat + length.toNat ≤ count) := by
  constructor
  · intro hexact
    have hfit := (file_iff position length).1 hexact.file
    exact ⟨hfit, (elements_iff hfit).1 hexact.elements⟩
  · rintro ⟨hfit, hinside⟩
    exact ⟨(file_iff position length).2 hfit, (elements_iff hfit).2 hinside⟩

section Steps

variable {handle : ByteHandle} {place : Option VectorPlace} {offset position length : UInt64}

theorem readPointer_refused {status : Status}
    (hrefuses : handle.readBytes (position * UInt64.ofNat T.size)
      (length * UInt64.ofNat T.size) = .error status) :
    GEDSFile.readPointer handle T place position length = .refused status := by
  simp only [GEDSFile.readPointer, hrefuses]

theorem readPointer_accessed {count : UInt64}
    (hread : handle.readBytes (position * UInt64.ofNat T.size)
      (length * UInt64.ofNat T.size) = .ok count) :
    GEDSFile.readPointer handle T place position length =
      .accessed ⟨position * UInt64.ofNat T.size, length * UInt64.ofNat T.size, place⟩
        (some (count / UInt64.ofNat T.size)) := by
  simp only [GEDSFile.readPointer, hread]

theorem readPointer_inRange_iff :
    (GEDSFile.readPointer handle T none position length).InRange T 0 position length ↔
      RefusesRead handle T position length ∨ BytesFit T position length := by
  cases hanswer : handle.readBytes (position * UInt64.ofNat T.size)
      (length * UInt64.ofNat T.size) with
  | error status =>
      rw [readPointer_refused hanswer]
      exact iff_of_true trivial (Or.inl ⟨status, hanswer⟩)
  | ok count =>
      have haccepts : ¬ RefusesRead handle T position length := by
        rintro ⟨status, hrefuses⟩
        cases hanswer.symm.trans hrefuses
      rw [readPointer_accessed hanswer, or_iff_right haccepts]
      exact exact_pointer_iff 0 position length

/-- The count of a vector that is grown for a read. -/
theorem count_grown {buffer grown : ElementVector T} {required : Nat}
    (hgrown : (if buffer.count < required then buffer.resize? required else some buffer) =
      some grown) : grown.count = max buffer.count required := by
  split_ifs at hgrown with hless
  · rw [ElementVector.resize?] at hgrown
    split_ifs at hgrown with hmax
    obtain rfl := Option.some.inj hgrown
    exact (max_eq_right hless.le).symm
  · obtain rfl := Option.some.inj hgrown
    exact (max_eq_left (Nat.le_of_not_lt hless)).symm

theorem grown_eq_none_iff {buffer : ElementVector T} {required : Nat} :
    (if buffer.count < required then buffer.resize? required else some buffer) = none ↔
      T.maxCount < required := by
  have hle := buffer.count_le
  rw [ElementVector.resize?]
  split_ifs with hless hmax <;> simp <;> omega

/-- A vector that reaches as far as the sum of words reaches as far as the sum, unless it wraps. -/
theorem reaches_iff {count : Nat} (hle : count ≤ T.maxCount)
    (hreaches : (offset + length).toNat ≤ count) :
    length = 0 ∨ offset.toNat + length.toNat ≤ count ↔ offset.toNat + length.toNat < 2 ^ 64 := by
  have hmax : T.maxCount ≤ 2 ^ 63 - 1 := Nat.div_le_self _ _
  have hword := offset.toNat_lt
  constructor
  · rintro (rfl | hinside)
    · rwa [UInt64.toNat_zero, Nat.add_zero]
    · omega
  · intro hsum
    rw [toNat_add_of_lt hsum] at hreaches
    exact Or.inr hreaches

theorem readVectorAt_inRange_iff (buffer : ElementVector T) :
    (GEDSFile.readVectorAt handle buffer offset position length).InRange T offset position length ↔
      T.maxCount < (offset + length).toNat ∨ RefusesRead handle T position length ∨
        offset.toNat + length.toNat < 2 ^ 64 ∧ BytesFit T position length := by
  cases hgrown : (if buffer.count < (offset + length).toNat then
      buffer.resize? (offset + length).toNat else some buffer) with
  | none =>
      simp only [GEDSFile.readVectorAt, hgrown]
      exact iff_of_true trivial (Or.inl (grown_eq_none_iff.1 hgrown))
  | some grown =>
      have hmax : ¬ T.maxCount < (offset + length).toNat := by
        intro hthrows
        rw [grown_eq_none_iff.2 hthrows] at hgrown
        cases hgrown
      have hcount := count_grown hgrown
      have hle := grown.count_le
      rw [or_iff_right hmax]
      cases hanswer : handle.readBytes (position * UInt64.ofNat T.size)
          (length * UInt64.ofNat T.size) with
      | error status =>
          simp only [GEDSFile.readVectorAt, hgrown, readPointer_refused hanswer]
          exact iff_of_true trivial (Or.inl ⟨status, hanswer⟩)
      | ok count =>
          have haccepts : ¬ RefusesRead handle T position length := by
            rintro ⟨status, hrefuses⟩
            cases hanswer.symm.trans hrefuses
          have hexact : (GEDSFile.readVectorAt handle buffer offset position length).InRange T
              offset position length ↔
              FileAccess.Exact ⟨position * UInt64.ofNat T.size, length * UInt64.ofNat T.size,
                some ⟨offset, grown.count⟩⟩ T offset position length := by
            simp only [GEDSFile.readVectorAt, hgrown, readPointer_accessed hanswer]
            split_ifs <;> rfl
          rw [hexact, exact_vector_iff, or_iff_right haccepts, and_comm]
          refine and_congr_left fun hfit => ?_
          exact reaches_iff hle (hcount ▸ le_max_right _ _)

theorem writePointer_refused {status : Status}
    (hrefuses : handle.writeBytes (position * UInt64.ofNat T.size)
      (length * UInt64.ofNat T.size) = .error status) :
    GEDSFile.writePointer handle T place position length = .refused status := by
  simp only [GEDSFile.writePointer, hrefuses]

theorem writePointer_accessed
    (hwrite : handle.writeBytes (position * UInt64.ofNat T.size)
      (length * UInt64.ofNat T.size) = .ok ()) :
    GEDSFile.writePointer handle T place position length =
      .accessed ⟨position * UInt64.ofNat T.size, length * UInt64.ofNat T.size, place⟩
        (some ()) := by
  simp only [GEDSFile.writePointer, hwrite]

/-- A write stays in its range if it is refused or its access is exact. -/
theorem writePointer_inRange_iff_exact :
    (GEDSFile.writePointer handle T place position length).InRange T offset position length ↔
      RefusesWrite handle T position length ∨
        FileAccess.Exact ⟨position * UInt64.ofNat T.size, length * UInt64.ofNat T.size, place⟩ T
          offset position length := by
  cases hanswer : handle.writeBytes (position * UInt64.ofNat T.size)
      (length * UInt64.ofNat T.size) with
  | error status =>
      rw [writePointer_refused hanswer]
      exact iff_of_true trivial (Or.inl ⟨status, hanswer⟩)
  | ok _ =>
      have haccepts : ¬ RefusesWrite handle T position length := by
        rintro ⟨status, hrefuses⟩
        cases hanswer.symm.trans hrefuses
      rw [writePointer_accessed hanswer, or_iff_right haccepts]
      rfl

theorem writeVectorAt_inRange_iff (buffer : ElementVector T) :
    (GEDSFile.writeVectorAt handle buffer offset position length).InRange T offset position
        length ↔
      buffer.count < offset.toNat ∨ buffer.count < (offset + length).toNat ∨
        RefusesWrite handle T position length ∨
        offset.toNat + length.toNat < 2 ^ 64 ∧ BytesFit T position length := by
  rw [GEDSFile.writeVectorAt]
  split_ifs with hoffset hlength
  · exact iff_of_true trivial (Or.inl hoffset)
  · exact iff_of_true trivial (Or.inr (Or.inl hlength))
  · rw [or_iff_right hoffset, or_iff_right hlength, writePointer_inRange_iff_exact,
      exact_vector_iff, and_comm, reaches_iff buffer.count_le (Nat.le_of_not_lt hlength)]

end Steps

/-- A typed call that returns no error accesses exactly its range if and only if nothing wraps on
the way to the handle. -/
theorem inRange_iff_condition (handle : ByteHandle) (call : TypedCall T) :
    call.InRange handle ↔ call.Condition handle := by
  have hzero : ∀ length : UInt64, (0 : UInt64).toNat + length.toNat < 2 ^ 64 := by
    intro length
    have hlt := length.toNat_lt
    rw [UInt64.toNat_zero, Nat.zero_add]
    exact hlt
  cases call with
  | readPointer position length => exact readPointer_inRange_iff
  | readVectorAt buffer offset position length => exact readVectorAt_inRange_iff buffer
  | readVector buffer position length =>
      rw [InRange, Condition, GEDSFile.readVector, readVectorAt_inRange_iff, UInt64.zero_add,
        and_iff_right (hzero length)]
  | writePointer position length =>
      rw [InRange, Condition, writePointer_inRange_iff_exact, exact_pointer_iff]
  | writeVectorAt buffer offset position length => exact writeVectorAt_inRange_iff buffer
  | writeVector buffer position length =>
      have hoffset : ¬ buffer.count < (0 : UInt64).toNat := Nat.not_lt_zero _
      rw [InRange, Condition, GEDSFile.writeVector, writeVectorAt_inRange_iff, UInt64.zero_add,
        or_iff_right hoffset, and_iff_right (hzero length)]

end TypedCall

namespace ByteHandle

/-- A local file whose system calls succeed; without a fault the status of a write is the same
for all bytes. -/
def ofLocalFile (file : LocalFile) (files : FileSystem Bytes) : ByteHandle where
  readBytes position length :=
    (file.readBytes files position length).map fun bytes => UInt64.ofNat bytes.length
  writeBytes position _ :=
    let status := (file.writeBytes files [] position none).1
    if status.ok then .ok () else .error status

end ByteHandle

/-- `uint64_t` -/
def wordType : ElementType := ⟨8, [0, 0, 0, 0, 0, 0, 0, 0], by decide, by decide, rfl⟩

/-- A word is read at the position `2^61`, which is the first byte of the file. -/
theorem TypedCall.readPointer_wraps :
    GEDSFile.readPointer (.ofLocalFile ⟨text "/tmp/file", 0, 8⟩
        ((FileSystem.empty).setContent 0 [1, 2, 3, 4, 5, 6, 7, 8])) wordType none 0x2000000000000000 1 =
      .accessed ⟨0, 8, none⟩ (some 1) ∧
    ¬ (TypedCall.readPointer 0x2000000000000000 1 : TypedCall wordType).InRange
      (.ofLocalFile ⟨text "/tmp/file", 0, 8⟩
        ((FileSystem.empty).setContent 0 [1, 2, 3, 4, 5, 6, 7, 8])) := by
  have hread : GEDSFile.readPointer (.ofLocalFile ⟨text "/tmp/file", 0, 8⟩
      ((FileSystem.empty).setContent 0 [1, 2, 3, 4, 5, 6, 7, 8])) wordType none 0x2000000000000000 1 =
        .accessed ⟨0, 8, none⟩ (some 1) := rfl
  refine ⟨hread, fun hrange => ?_⟩
  rw [TypedCall.InRange, hread] at hrange
  have hfile := hrange.file
  have hzero : (0 : Nat) ∈ Set.Ico (0x2000000000000000 * 8) ((0x2000000000000000 + 1) * 8) := by
    have hmem : (0 : Nat) ∈ Set.Ico 0 (0 + 8) := by simp
    exact hfile ▸ hmem
  simp at hzero

end GEDS
