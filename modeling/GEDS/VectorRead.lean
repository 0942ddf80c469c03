/-
`GEDSFile::read` into a vector: the vector is grown to the length asked for, read into, and
resized again behind what was read.
-/
import GEDS.Library.ElementVector
import GEDS.LocalFile

namespace GEDS

open Status

/-- What `readBytes` of a file handle does with a buffer: a success fills it with the bytes that
the file has in the range, a failure may have filled in some bytes before. -/
structure ReadableHandle where
  content : Bytes
  readBytes : UInt64 → UInt64 → Bytes × Except Status UInt64
  content_lt : content.length < 2 ^ 64
  written_le : ∀ position length, (readBytes position length).1.length ≤ length.toNat
  reads : ∀ position length count, (readBytes position length).2 = .ok count →
    (readBytes position length).1 = (content.drop position.toNat).take length.toNat ∧
      count.toNat = (readBytes position length).1.length

namespace GEDSFile

variable {T : ElementType} (handle : ReadableHandle)

/-- `GEDSFile::read` for a pointer to elements: what is written there, and the result. -/
def readElements (T : ElementType) (position length : UInt64) : Bytes × Except Status UInt64 :=
  let lengthBytes := length * UInt64.ofNat T.size
  let positionBytes := position * UInt64.ofNat T.size
  let readStatus := handle.readBytes positionBytes lengthBytes
  match readStatus.2 with
  | .error status => (readStatus.1, .error status)
  | .ok count => (readStatus.1, .ok (count / UInt64.ofNat T.size))

/-- `GEDSFile::read` for a vector; `none` if `resize` throws. -/
def read (buffer : ElementVector T) (offset position length : UInt64) :
    Option (Except Status UInt64 × ElementVector T) :=
  let requiredLength := offset + length
  let prevBufferSize := buffer.count
  let grown :=
    if prevBufferSize < requiredLength.toNat then buffer.resize? requiredLength.toNat
    else some buffer
  grown.bind fun buffer =>
    let readStatus := readElements handle T position length
    (buffer.write? offset.toNat readStatus.1).bind fun buffer =>
      match readStatus.2 with
      | .error status => some (.error status, buffer)
      | .ok readLength =>
          if prevBufferSize < (offset + readLength).toNat then
            (buffer.resize? (offset + readLength).toNat).map fun buffer => (.ok readLength, buffer)
          else some (.ok readLength, buffer)

/-- The vector behind a read of `n` elements of the file. -/
structure ReadsVector (content : Bytes) (buffer after : ElementVector T)
    (offset position n : Nat) : Prop where
  size : after.count = max buffer.count (offset + n)
  elements : ∀ i < n, after.element (offset + i) = elementAt T content (position + i)
  others : ∀ i < buffer.count, i < offset ∨ offset + n ≤ i → after.element i = buffer.element i

/-- What a read promises about the vector. -/
def LeavesVector (content : Bytes) (buffer : ElementVector T) (offset position : UInt64) :
    Option (Except Status UInt64 × ElementVector T) → Prop
  | none => True
  | some (.error _, after) => after = buffer
  | some (.ok n, after) =>
      ReadsVector content buffer after offset.toNat position.toNat n.toNat

/-- How many bytes the file has in the range. -/
def rangeBytes (T : ElementType) (position length : UInt64) : Nat :=
  min (length.toNat * T.size)
    (handle.content.length - (position * UInt64.ofNat T.size).toNat)

/-- When a read keeps its promise: it succeeds, and the vector need not grow or the file has more
elements than the vector had, the position is in the range of the bytes, and no part of an
element is left over above an element of the vector; or it fails, but nothing grows and nothing
is overwritten. -/
def VectorCondition (buffer : ElementVector T) (offset position length : UInt64) : Prop :=
  let positionBytes := position * UInt64.ofNat T.size
  let readStatus := handle.readBytes positionBytes (length * UInt64.ofNat T.size)
  let n := rangeBytes handle T position length / T.size
  let rest := (handle.content.drop (positionBytes.toNat + n * T.size)).take
    (rangeBytes handle T position length - n * T.size)
  T.maxCount < offset.toNat + length.toNat ∨
    match readStatus.2 with
    | .error _ => offset.toNat + length.toNat ≤ buffer.count ∧
        readStatus.1 <+: buffer.bytes.drop (offset.toNat * T.size)
    | .ok _ =>
        (offset.toNat + length.toNat ≤ buffer.count ∨ buffer.count < offset.toNat + n) ∧
        (n = 0 ∨ position.toNat * T.size < 2 ^ 64) ∧
        (buffer.count ≤ offset.toNat + n ∨
          rest <+: buffer.bytes.drop ((offset.toNat + n) * T.size))

section Steps

variable {handle} {buffer : ElementVector T} {offset position length : UInt64}

/-- The vector after the first `resize`. -/
def grownTo (buffer : ElementVector T) (required : Nat) (hrequired : required ≤ T.maxCount) :
    ElementVector T :=
  if buffer.count < required then buffer.resize required hrequired else buffer

theorem count_grownTo {required : Nat} (hrequired : required ≤ T.maxCount) :
    (grownTo buffer required hrequired).count = max buffer.count required := by
  rw [grownTo]
  split_ifs with hless
  · exact (max_eq_right hless.le).symm
  · exact (max_eq_left (Nat.le_of_not_lt hless)).symm

theorem getElem?_grownTo {required index : Nat} (hrequired : required ≤ T.maxCount)
    (hindex : index < buffer.bytes.length) :
    (grownTo buffer required hrequired).bytes[index]? = buffer.bytes[index]? := by
  rw [grownTo]
  split_ifs with hless
  · refine ElementVector.getElem?_resize hrequired hindex ?_
    rw [buffer.length_bytes] at hindex
    exact hindex.trans_le (Nat.mul_le_mul_right T.size hless.le)
  · rfl

theorem toNat_size (T : ElementType) : (UInt64.ofNat T.size).toNat = T.size := by
  have hlt := T.size_lt
  rw [UInt64.toNat_ofNat']
  omega

/-- The length in bytes does not wrap for a vector of that many elements. -/
theorem toNat_lengthBytes (hmax : offset.toNat + length.toNat ≤ T.maxCount) :
    (length * UInt64.ofNat T.size).toNat = length.toNat * T.size := by
  have hle : length.toNat ≤ T.maxCount := by omega
  have hlt := ElementVector.mul_lt_of_le_maxCount hle
  rw [UInt64.toNat_mul, toNat_size]
  omega

/-- A read of at most `length` elements stays in the grown vector. -/
theorem write_fits (hmax : offset.toNat + length.toNat ≤ T.maxCount) :
    offset.toNat * T.size + (readElements handle T position length).1.length ≤
      (grownTo buffer (offset.toNat + length.toNat) hmax).bytes.length := by
  have hwritten := handle.written_le (position * UInt64.ofNat T.size)
    (length * UInt64.ofNat T.size)
  rw [toNat_lengthBytes hmax] at hwritten
  have hsame : (readElements handle T position length).1 =
      (handle.readBytes (position * UInt64.ofNat T.size) (length * UInt64.ofNat T.size)).1 := by
    simp only [readElements]
    split <;> rfl
  have hcount : offset.toNat + length.toNat ≤
      (grownTo buffer (offset.toNat + length.toNat) hmax).count := by
    rw [count_grownTo]
    exact le_max_right _ _
  have hbytes := Nat.mul_le_mul_right T.size hcount
  rw [Nat.add_mul] at hbytes
  rw [hsame, ElementVector.length_bytes]
  omega

/-- The vector behind `readElements`. -/
def filledWith (handle : ReadableHandle) (buffer : ElementVector T)
    (offset position length : UInt64) (hmax : offset.toNat + length.toNat ≤ T.maxCount) :
    ElementVector T :=
  (grownTo buffer (offset.toNat + length.toNat) hmax).write offset.toNat
    (readElements handle T position length).1 (write_fits hmax)

theorem count_filledWith (hmax : offset.toNat + length.toNat ≤ T.maxCount) :
    (filledWith handle buffer offset position length hmax).count =
      max buffer.count (offset.toNat + length.toNat) :=
  count_grownTo hmax

/-- A vector that cannot be grown. -/
theorem read_of_maxCount_lt (hsum : offset.toNat + length.toNat < 2 ^ 64)
    (hmax : T.maxCount < offset.toNat + length.toNat) :
    read handle buffer offset position length = none := by
  have hless : buffer.count < offset.toNat + length.toNat :=
    buffer.count_le.trans_lt hmax
  simp [read, toNat_add_of_lt hsum, hless, ElementVector.resize?, Nat.not_le.2 hmax]

/-- The first `resize` of a read that does not throw. -/
theorem grown_of_le_maxCount (hsum : offset.toNat + length.toNat < 2 ^ 64)
    (hmax : offset.toNat + length.toNat ≤ T.maxCount) :
    (if buffer.count < (offset + length).toNat then buffer.resize? (offset + length).toNat
      else some buffer) = some (grownTo buffer (offset.toNat + length.toNat) hmax) := by
  rw [toNat_add_of_lt hsum, grownTo]
  split_ifs with hless
  · rw [ElementVector.resize?, dif_pos hmax]
  · rfl

theorem read_of_le_maxCount (hsum : offset.toNat + length.toNat < 2 ^ 64)
    (hmax : offset.toNat + length.toNat ≤ T.maxCount) :
    read handle buffer offset position length =
      match (readElements handle T position length).2 with
      | .error status => some (.error status, filledWith handle buffer offset position length hmax)
      | .ok readLength =>
          if buffer.count < (offset + readLength).toNat then
            ((filledWith handle buffer offset position length hmax).resize?
              (offset + readLength).toNat).map fun buffer => (.ok readLength, buffer)
          else some (.ok readLength, filledWith handle buffer offset position length hmax) := by
  simp only [read, grown_of_le_maxCount hsum hmax, Option.bind_some]
  rw [ElementVector.write?, dif_pos (write_fits hmax), Option.bind_some]
  rfl

/-- Nothing is left of growing and filling the vector. -/
theorem filledWith_eq_self_iff (hmax : offset.toNat + length.toNat ≤ T.maxCount) :
    filledWith handle buffer offset position length hmax = buffer ↔
      offset.toNat + length.toNat ≤ buffer.count ∧
        (readElements handle T position length).1 <+: buffer.bytes.drop (offset.toNat * T.size) := by
  have hwrite : ∀ (vector : ElementVector T) (written : Bytes)
      (hfits : offset.toNat * T.size + written.length ≤ vector.bytes.length), vector = buffer →
      (vector.write offset.toNat written hfits = buffer ↔
        written <+: buffer.bytes.drop (offset.toNat * T.size)) := by
    rintro vector written hfits rfl
    exact ElementVector.write_eq_self_iff hfits
  rcases Nat.lt_or_ge buffer.count (offset.toNat + length.toNat) with hless | hle
  · constructor
    · intro hsame
      have hcount := congrArg ElementVector.count hsame
      rw [count_filledWith, max_eq_right hless.le] at hcount
      omega
    · rintro ⟨hle, -⟩
      omega
  · have hgrown : grownTo buffer (offset.toNat + length.toNat) hmax = buffer :=
      if_neg (Nat.not_lt.2 hle)
    rw [filledWith, hwrite _ _ _ hgrown]
    exact ⟨fun hwritten => ⟨hle, hwritten⟩, And.right⟩

/-- A failing read leaves the vector as the read found it, grown. -/
theorem read_error (hsum : offset.toNat + length.toNat < 2 ^ 64)
    (hmax : offset.toNat + length.toNat ≤ T.maxCount) {status : Status}
    (herror : (handle.readBytes (position * UInt64.ofNat T.size)
      (length * UInt64.ofNat T.size)).2 = .error status) :
    read handle buffer offset position length =
      some (.error status, filledWith handle buffer offset position length hmax) := by
  rw [read_of_le_maxCount hsum hmax]
  simp [readElements, herror]

/-- The vector behind a read of `n` elements, byte by byte. -/
structure FilledIn (handle : ReadableHandle) (buffer after : ElementVector T)
    (offset position length : UInt64) (n : Nat) : Prop where
  read : n = rangeBytes handle T position length / T.size
  count : after.count = if buffer.count < offset.toNat + n then offset.toNat + n
    else max buffer.count (offset.toNat + length.toNat)
  inside : ∀ k < after.bytes.length, offset.toNat * T.size ≤ k →
    k < offset.toNat * T.size + rangeBytes handle T position length →
      after.bytes[k]? =
        handle.content[(position * UInt64.ofNat T.size).toNat + (k - offset.toNat * T.size)]?
  outside : ∀ k < after.bytes.length, k < buffer.bytes.length →
    (k < offset.toNat * T.size ∨
      offset.toNat * T.size + rangeBytes handle T position length ≤ k) →
      after.bytes[k]? = buffer.bytes[k]?

section Successful

variable {count : UInt64} (hok : (handle.readBytes (position * UInt64.ofNat T.size)
  (length * UInt64.ofNat T.size)).2 = .ok count)

include hok

theorem toNat_count (hmax : offset.toNat + length.toNat ≤ T.maxCount) :
    count.toNat = rangeBytes handle T position length := by
  obtain ⟨hbytes, hcount⟩ := handle.reads _ _ count hok
  rw [toNat_lengthBytes hmax] at hbytes
  rw [hcount, hbytes, List.length_take, List.length_drop, rangeBytes]

theorem readElements_ok (hmax : offset.toNat + length.toNat ≤ T.maxCount) :
    readElements handle T position length =
      ((handle.content.drop (position * UInt64.ofNat T.size).toNat).take
        (length.toNat * T.size), .ok (count / UInt64.ofNat T.size)) := by
  obtain ⟨hbytes, -⟩ := handle.reads _ _ count hok
  rw [toNat_lengthBytes hmax] at hbytes
  simp only [readElements, hok, hbytes]

/-- The bytes behind the read, before the vector is cut. -/
theorem getElem?_filledWith (hmax : offset.toNat + length.toNat ≤ T.maxCount) (k : Nat) :
    (filledWith handle buffer offset position length hmax).bytes[k]? =
      if offset.toNat * T.size ≤ k ∧
          k < offset.toNat * T.size + rangeBytes handle T position length then
        handle.content[(position * UInt64.ofNat T.size).toNat + (k - offset.toNat * T.size)]?
      else (grownTo buffer (offset.toNat + length.toNat) hmax).bytes[k]? := by
  have hwritten := congrArg Prod.fst (readElements_ok hok hmax)
  have hlength : (readElements handle T position length).1.length =
      rangeBytes handle T position length := by
    rw [hwritten, List.length_take, List.length_drop, rangeBytes]
  rw [filledWith, ElementVector.getElem?_write, hlength, hwritten]
  split_ifs with hinside
  · have hmin : rangeBytes handle T position length ≤ length.toNat * T.size := min_le_left _ _
    have hbound : k - offset.toNat * T.size < length.toNat * T.size := by omega
    rw [List.getElem?_take_of_lt hbound, List.getElem?_drop]
  · rfl

theorem read_ok (hsum : offset.toNat + length.toNat < 2 ^ 64)
    (hmax : offset.toNat + length.toNat ≤ T.maxCount) :
    ∃ n after, read handle buffer offset position length = some (.ok n, after) ∧
      FilledIn handle buffer after offset position length n.toNat := by
  have hn : (count / UInt64.ofNat T.size).toNat =
      rangeBytes handle T position length / T.size := by
    rw [UInt64.toNat_div, toNat_size, toNat_count hok hmax]
  have hle : (count / UInt64.ofNat T.size).toNat ≤ length.toNat := by
    rw [hn]
    refine Nat.div_le_of_le_mul ?_
    rw [Nat.mul_comm]
    exact min_le_left _ _
  have hsum' : (offset + count / UInt64.ofNat T.size).toNat =
      offset.toNat + (count / UInt64.ofNat T.size).toNat :=
    toNat_add_of_lt (by omega)
  have hfilledIn : ∀ after : ElementVector T,
      after.count = (if buffer.count < offset.toNat + (count / UInt64.ofNat T.size).toNat then
        offset.toNat + (count / UInt64.ofNat T.size).toNat
        else max buffer.count (offset.toNat + length.toNat)) →
      (∀ k < after.bytes.length, after.bytes[k]? =
        (filledWith handle buffer offset position length hmax).bytes[k]?) →
      FilledIn handle buffer after offset position length
        (count / UInt64.ofNat T.size).toNat := by
    intro after hcount hbytes
    refine ⟨hn, hcount, fun k hk hfrom hto => ?_, fun k hk hold houtside => ?_⟩
    · rw [hbytes k hk, getElem?_filledWith hok hmax, if_pos ⟨hfrom, hto⟩]
    · rw [hbytes k hk, getElem?_filledWith hok hmax, if_neg (by omega),
        getElem?_grownTo hmax hold]
  rw [read_of_le_maxCount hsum hmax]
  simp only [readElements_ok hok hmax, hsum']
  by_cases hless : buffer.count < offset.toNat + (count / UInt64.ofNat T.size).toNat
  · have hfits : offset.toNat + (count / UInt64.ofNat T.size).toNat ≤ T.maxCount := by omega
    refine ⟨count / UInt64.ofNat T.size,
      (filledWith handle buffer offset position length hmax).resize _ hfits, ?_,
      hfilledIn _ (if_pos hless).symm fun k hk => ?_⟩
    · rw [if_pos hless, ElementVector.resize?, dif_pos hfits, Option.map_some]
    · rw [ElementVector.length_bytes] at hk
      refine ElementVector.getElem?_resize hfits ?_ hk
      rw [ElementVector.length_bytes, count_filledWith]
      exact hk.trans_le (Nat.mul_le_mul_right T.size
        (le_max_of_le_right (Nat.add_le_add_left hle offset.toNat)))
  · refine ⟨count / UInt64.ofNat T.size, filledWith handle buffer offset position length hmax,
      by rw [if_neg hless], hfilledIn _ ?_ fun _ _ => rfl⟩
    rw [if_neg hless, count_filledWith]

end Successful

namespace FilledIn

variable {after : ElementVector T} {n : Nat}
  (hfilled : FilledIn handle buffer after offset position length n)

include hfilled

/-- The whole elements that were read, and what is left over. -/
theorem range : n * T.size ≤ rangeBytes handle T position length ∧
    rangeBytes handle T position length < (n + 1) * T.size := by
  have hdiv := Nat.div_add_mod (rangeBytes handle T position length) T.size
  have hmod := Nat.mod_lt (rangeBytes handle T position length) T.positive
  rw [← hfilled.read, Nat.mul_comm] at hdiv
  rw [Nat.succ_mul]
  omega

theorem le_length : n ≤ length.toNat := by
  rw [hfilled.read]
  refine Nat.div_le_of_le_mul ?_
  rw [Nat.mul_comm]
  exact min_le_left _ _

theorem count_ge : offset.toNat + n ≤ after.count ∧ buffer.count ≤ after.count := by
  rw [hfilled.count]
  split_ifs with hless
  · omega
  · have hleft := le_max_left buffer.count (offset.toNat + length.toNat)
    omega

theorem size_iff : after.count = max buffer.count (offset.toNat + n) ↔
    offset.toNat + length.toNat ≤ buffer.count ∨ buffer.count < offset.toNat + n := by
  have hle := hfilled.le_length
  rw [hfilled.count]
  split_ifs <;> omega

/-- The elements read are those of the file, unless their position wraps. -/
theorem elements_iff :
    (∀ i < n, after.element (offset.toNat + i) =
        elementAt T handle.content (position.toNat + i)) ↔
      n = 0 ∨ position.toNat * T.size < 2 ^ 64 := by
  have hrange := hfilled.range
  have hcount := hfilled.count_ge
  constructor
  · intro helements
    by_contra hwraps
    simp only [not_or, Nat.not_lt] at hwraps
    have hpositive : 0 < n := Nat.pos_of_ne_zero hwraps.1
    have hfirst := helements 0 hpositive
    have hfits := after.succ_mul_le_length (show offset.toNat < after.count by omega)
    have hnone : elementAt T handle.content (position.toNat + 0) = none := by
      have hlt := handle.content_lt
      rw [elementAt, if_neg]
      rw [Nat.add_zero, Nat.succ_mul]
      omega
    rw [hnone, Nat.add_zero, ElementVector.element, elementAt, if_pos hfits] at hfirst
    cases hfirst
  · intro hcondition i hi
    have hposition : (position * UInt64.ofNat T.size).toNat = position.toNat * T.size := by
      rw [UInt64.toNat_mul, toNat_size]
      omega
    have hmin : rangeBytes handle T position length ≤
        handle.content.length - (position * UInt64.ofNat T.size).toNat := min_le_right _ _
    have hstep : (i + 1) * T.size ≤ n * T.size := Nat.mul_le_mul_right T.size hi
    have hpositive := T.positive
    rw [Nat.succ_mul] at hstep
    have hfits := after.succ_mul_le_length (show offset.toNat + i < after.count by omega)
    refine ElementVector.elementAt_congr hfits ?_ ?_
    · rw [hposition] at hmin
      rw [Nat.add_assoc, Nat.add_mul, Nat.succ_mul]
      omega
    · intro k hk
      rw [Nat.succ_mul] at hfits
      have hindex : (offset.toNat + i) * T.size + k =
          offset.toNat * T.size + (i * T.size + k) := by
        rw [Nat.add_mul, Nat.add_assoc]
      rw [hfilled.inside _ (by omega) (by omega) (by omega), hposition, hindex,
        Nat.add_sub_cancel_left, Nat.add_mul, Nat.add_assoc]

/-- A byte that is left over, in the file and in the vector. -/
theorem left_over {k : Nat} (hk : k < rangeBytes handle T position length - n * T.size)
    (hbehind : offset.toNat + n < buffer.count) :
    after.bytes[(offset.toNat + n) * T.size + k]? =
      handle.content[(position * UInt64.ofNat T.size).toNat + n * T.size + k]? := by
  have hrange := hfilled.range
  have hcount := hfilled.count_ge
  have hfits := after.succ_mul_le_length (show offset.toNat + n < after.count by omega)
  rw [Nat.succ_mul] at hfits hrange
  have hindex : (offset.toNat + n) * T.size + k =
      offset.toNat * T.size + (n * T.size + k) := by
    rw [Nat.add_mul, Nat.add_assoc]
  rw [hfilled.inside _ (by omega) (by omega) (by omega), hindex, Nat.add_sub_cancel_left,
    Nat.add_assoc]

/-- The elements that were not read stay, unless what is left over falls on one of them. -/
theorem others_iff :
    (∀ i < buffer.count, i < offset.toNat ∨ offset.toNat + n ≤ i →
        after.element i = buffer.element i) ↔
      buffer.count ≤ offset.toNat + n ∨
        (handle.content.drop ((position * UInt64.ofNat T.size).toNat + n * T.size)).take
            (rangeBytes handle T position length - n * T.size) <+:
          buffer.bytes.drop ((offset.toNat + n) * T.size) := by
  have hrange := hfilled.range
  have hcount := hfilled.count_ge
  have hmin : rangeBytes handle T position length ≤
      handle.content.length - (position * UInt64.ofNat T.size).toNat := min_le_right _ _
  rw [List.prefix_iff_getElem?]
  have hlength : ((handle.content.drop
      ((position * UInt64.ofNat T.size).toNat + n * T.size)).take
        (rangeBytes handle T position length - n * T.size)).length =
      rangeBytes handle T position length - n * T.size := by
    rw [List.length_take, List.length_drop]
    omega
  constructor
  · intro hothers
    rcases Nat.lt_or_ge (offset.toNat + n) buffer.count with hbehind | hle
    · refine Or.inr fun k hk => ?_
      rw [hlength] at hk
      have hfits := after.succ_mul_le_length (show offset.toNat + n < after.count by omega)
      have hsame := ElementVector.getElem?_of_elementAt_eq hfits
        (hothers (offset.toNat + n) hbehind (Or.inr le_rfl)) (k := k)
        (by rw [Nat.succ_mul] at hrange; omega)
      rw [List.getElem?_drop, ← hsame, hfilled.left_over hk hbehind, List.getElem_take,
        List.getElem_drop, List.getElem?_eq_getElem]
    · exact Or.inl hle
  · intro hcondition i hi houtside
    have hfits := after.succ_mul_le_length (show i < after.count by omega)
    have hfits' := buffer.succ_mul_le_length hi
    refine ElementVector.elementAt_congr hfits hfits' fun k hk => ?_
    have hinner : i * T.size + k < (i + 1) * T.size := by
      rw [Nat.succ_mul]
      omega
    rcases houtside with hbefore | hbehind
    · have hstep : (i + 1) * T.size ≤ offset.toNat * T.size :=
        Nat.mul_le_mul_right T.size hbefore
      exact hfilled.outside _ (by omega) (by omega) (Or.inl (by omega))
    · rcases Nat.eq_or_lt_of_le hbehind with hequal | hlater
      · subst hequal
        rcases Nat.lt_or_ge k (rangeBytes handle T position length - n * T.size) with
          hin | hout
        · have hprefix := hcondition.resolve_left (by omega) k (by rw [hlength]; exact hin)
          rw [List.getElem?_drop, List.getElem_take, List.getElem_drop,
            ← List.getElem?_eq_getElem] at hprefix
          rw [hfilled.left_over hin hi, ← hprefix]
        · refine hfilled.outside _ (by omega) (by omega) (Or.inr ?_)
          rw [Nat.add_mul]
          omega
      · have hstep := Nat.mul_le_mul_right T.size hlater
        refine hfilled.outside _ (by omega) (by omega) (Or.inr ?_)
        rw [Nat.succ_mul] at hstep hrange
        rw [Nat.add_mul] at hstep
        omega

end FilledIn

end Steps

/-- What a local file reads is a range of its bytes up to its size. -/
theorem readBytes_localFile {file : LocalFile} {files : FileSystem Bytes}
    {position length : UInt64} {bytes : Bytes}
    (hread : file.readBytes files position length = .ok bytes) :
    bytes = (((files.content file.inode).take file.size.toNat).drop position.toNat).take
      length.toNat := by
  by_cases hposition : position < int64Max
  · rw [LocalFile.readBytes_of_lt hposition, Except.ok.injEq] at hread
    rw [← hread, FileSystem.pread, List.drop_take, List.take_take]
  · simp [LocalFile.readBytes, UInt64.not_lt.1 hposition] at hread

/-- What `readBytes` of a local file leaves in the buffer, and its result. -/
def readLocalFile (file : LocalFile) (files : FileSystem Bytes) (position length : UInt64) :
    Bytes × Except Status UInt64 :=
  match file.readBytes files position length with
  | .error status => ([], .error status)
  | .ok bytes => (bytes, .ok (UInt64.ofNat bytes.length))

section LocalFile

variable (file : LocalFile) (files : FileSystem Bytes)

theorem length_localFile_lt :
    ((files.content file.inode).take file.size.toNat).length < 2 ^ 64 := by
  rw [List.length_take]
  have hlt := file.size.toNat_lt
  omega

theorem length_readLocalFile_le (position length : UInt64) :
    (readLocalFile file files position length).1.length ≤ length.toNat := by
  rw [readLocalFile]
  cases hread : file.readBytes files position length with
  | error status => exact Nat.zero_le _
  | ok bytes =>
      simp only [readBytes_localFile hread]
      exact List.length_take_le _ _

theorem readLocalFile_reads (position length count : UInt64)
    (hanswer : (readLocalFile file files position length).2 = .ok count) :
    (readLocalFile file files position length).1 =
        (((files.content file.inode).take file.size.toNat).drop position.toNat).take
          length.toNat ∧
      count.toNat = (readLocalFile file files position length).1.length := by
  have hle := length_readLocalFile_le file files position length
  rw [readLocalFile] at hanswer hle ⊢
  cases hread : file.readBytes files position length with
  | error status => simp [hread] at hanswer
  | ok bytes =>
      have hlt := length.toNat_lt
      simp only [hread, Except.ok.injEq] at hanswer hle
      refine ⟨readBytes_localFile hread, ?_⟩
      rw [← hanswer, UInt64.toNat_ofNat']
      exact Nat.mod_eq_of_lt (by omega)

end LocalFile

/-- A local file, as long as `pread` does not fail. -/
def ofLocalFile (file : LocalFile) (files : FileSystem Bytes) : ReadableHandle where
  content := (files.content file.inode).take file.size.toNat
  readBytes := readLocalFile file files
  content_lt := length_localFile_lt file files
  written_le := length_readLocalFile_le file files
  reads := readLocalFile_reads file files

/-- A file of three bytes on this node. -/
def threeBytes : ReadableHandle :=
  ofLocalFile ⟨text "/tmp/file", 0, 3⟩ ((FileSystem.empty).setContent 0 [1, 2, 3])

/-- `uint8_t` -/
def byteType : ElementType := ⟨1, [0], by decide, by decide, rfl⟩

def fiveZeros : ElementVector byteType := ⟨5, [0, 0, 0, 0, 0], by decide, rfl⟩

end GEDSFile

end GEDS
