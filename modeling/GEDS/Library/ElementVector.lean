/-
Vectors of elements of one size, over the bytes that they are made of.  A write of bytes need
not end where an element ends, so what it leaves is said byte by byte and then for the elements.
-/
import Mathlib.Data.List.Basic
import Mathlib.Tactic

namespace GEDS

/-- A type by its size and the bytes of a new element. -/
structure ElementType where
  size : Nat
  fresh : List UInt8
  positive : 0 < size
  size_lt : size < 2 ^ 63
  length_fresh : fresh.length = size

/-- `max_size` of a vector: as many elements as an object may have. -/
def ElementType.maxCount (T : ElementType) : Nat := (2 ^ 63 - 1) / T.size

/-- A vector of `count` elements. -/
structure ElementVector (T : ElementType) where
  count : Nat
  bytes : List UInt8
  count_le : count ≤ T.maxCount
  length_bytes : bytes.length = count * T.size

variable {T : ElementType}

/-- The element at an index of a stretch of bytes. -/
def elementAt (T : ElementType) (bytes : List UInt8) (index : Nat) : Option (List UInt8) :=
  if (index + 1) * T.size ≤ bytes.length then some ((bytes.drop (index * T.size)).take T.size)
  else none

/-- The bytes of so many new elements. -/
def freshElements (T : ElementType) : Nat → List UInt8
  | 0 => []
  | count + 1 => T.fresh ++ freshElements T count

theorem length_freshElements (count : Nat) :
    (freshElements T count).length = count * T.size := by
  induction count with
  | zero => simp [freshElements]
  | succ count ih =>
      rw [freshElements, List.length_append, ih, T.length_fresh]
      ring

namespace ElementVector

variable (vector : ElementVector T)

/-- `std::vector::resize` -/
def resize (count : Nat) (hcount : count ≤ T.maxCount) : ElementVector T where
  count := count
  count_le := hcount
  bytes := vector.bytes.take (count * T.size) ++ freshElements T (count - vector.count)
  length_bytes := by
    rw [List.length_append, List.length_take, vector.length_bytes, length_freshElements]
    rcases Nat.le_total count vector.count with hle | hle
    · have hbytes := Nat.mul_le_mul_right T.size hle
      simp only [Nat.sub_eq_zero_of_le hle]
      omega
    · have hbytes := Nat.mul_le_mul_right T.size hle
      rw [Nat.sub_mul]
      omega

/-- Bytes written into the elements from an offset on. -/
def write (offset : Nat) (written : List UInt8)
    (hfits : offset * T.size + written.length ≤ vector.bytes.length) : ElementVector T where
  count := vector.count
  count_le := vector.count_le
  bytes := vector.bytes.take (offset * T.size) ++ written ++
    vector.bytes.drop (offset * T.size + written.length)
  length_bytes := by
    rw [← vector.length_bytes, List.length_append, List.length_append, List.length_take,
      List.length_drop]
    omega

/-- `std::vector::resize`; `none` if it throws a `length_error`. -/
def resize? (count : Nat) : Option (ElementVector T) :=
  if hcount : count ≤ T.maxCount then some (vector.resize count hcount) else none

/-- A write through a pointer to an element; `none` if it leaves the vector. -/
def write? (offset : Nat) (written : List UInt8) : Option (ElementVector T) :=
  if hfits : offset * T.size + written.length ≤ vector.bytes.length then
    some (vector.write offset written hfits)
  else none

def element (index : Nat) : Option (List UInt8) := elementAt T vector.bytes index

variable {vector}

@[ext]
theorem ext {other : ElementVector T} (hcount : vector.count = other.count)
    (hbytes : vector.bytes = other.bytes) : vector = other := by
  cases vector
  cases other
  simp_all

theorem getElem?_resize {index count : Nat} (hcount : count ≤ T.maxCount)
    (hold : index < vector.bytes.length) (hnew : index < count * T.size) :
    (vector.resize count hcount).bytes[index]? = vector.bytes[index]? := by
  have htake : index < (vector.bytes.take (count * T.size)).length := by
    rw [List.length_take]
    omega
  rw [resize, List.getElem?_append_left htake, List.getElem?_take_of_lt hnew]

theorem getElem?_write (offset : Nat) (written : List UInt8)
    (hfits : offset * T.size + written.length ≤ vector.bytes.length) (index : Nat) :
    (vector.write offset written hfits).bytes[index]? =
      if offset * T.size ≤ index ∧ index < offset * T.size + written.length then
        written[index - offset * T.size]?
      else vector.bytes[index]? := by
  have hfront : (vector.bytes.take (offset * T.size)).length = offset * T.size := by
    rw [List.length_take]
    omega
  simp only [write]
  split_ifs with hinside
  · rw [List.append_assoc, List.getElem?_append_right (by omega), hfront,
      List.getElem?_append_left (by omega)]
  · rcases Nat.lt_or_ge index (offset * T.size) with hbefore | hbehind
    · rw [List.append_assoc, List.getElem?_append_left (by omega),
        List.getElem?_take_of_lt hbefore]
    · rw [List.getElem?_append_right (by rw [List.length_append]; omega), List.length_append,
        hfront, List.getElem?_drop]
      congr 1
      omega

theorem mul_lt_of_le_maxCount {count : Nat} (hcount : count ≤ T.maxCount) :
    count * T.size < 2 ^ 63 := by
  have hmul := Nat.mul_le_mul_right T.size hcount
  have hmax := Nat.div_mul_le_self (2 ^ 63 - 1) T.size
  rw [ElementType.maxCount] at hmul
  omega

/-- A write changes nothing exactly if the bytes are there already. -/
theorem write_eq_self_iff {offset : Nat} {written : List UInt8}
    (hfits : offset * T.size + written.length ≤ vector.bytes.length) :
    vector.write offset written hfits = vector ↔
      written <+: vector.bytes.drop (offset * T.size) := by
  have hsplit := List.take_append_drop (offset * T.size) vector.bytes
  have hiff : vector.write offset written hfits = vector ↔
      (vector.write offset written hfits).bytes = vector.bytes :=
    ⟨fun heq => congrArg bytes heq, fun hbytes => ext rfl hbytes⟩
  rw [hiff]
  constructor
  · intro hbytes
    refine ⟨vector.bytes.drop (offset * T.size + written.length), ?_⟩
    simp only [write, List.append_assoc] at hbytes
    exact List.append_cancel_left (hbytes.trans hsplit.symm)
  · rintro ⟨rest, hrest⟩
    simp only [write]
    rw [← List.drop_drop, ← hrest, List.drop_left, List.append_assoc, hrest, hsplit]

/-- Elements are told by their bytes. -/
theorem elementAt_congr {bytes other : List UInt8} {index otherIndex : Nat}
    (hfits : (index + 1) * T.size ≤ bytes.length)
    (hfits' : (otherIndex + 1) * T.size ≤ other.length)
    (hbytes : ∀ k, k < T.size → bytes[index * T.size + k]? = other[otherIndex * T.size + k]?) :
    elementAt T bytes index = elementAt T other otherIndex := by
  rw [elementAt, if_pos hfits, elementAt, if_pos hfits', Option.some.injEq]
  apply List.ext_getElem?
  intro k
  rw [List.getElem?_take, List.getElem?_take]
  split_ifs with hk
  · rw [List.getElem?_drop, List.getElem?_drop, hbytes k hk]
  · rfl

theorem getElem?_of_elementAt_eq {bytes other : List UInt8} {index otherIndex : Nat}
    (hfits : (index + 1) * T.size ≤ bytes.length)
    (hsame : elementAt T bytes index = elementAt T other otherIndex) {k : Nat} (hk : k < T.size) :
    bytes[index * T.size + k]? = other[otherIndex * T.size + k]? := by
  rw [elementAt, if_pos hfits, elementAt] at hsame
  split_ifs at hsame with hfits'
  rw [Option.some.injEq] at hsame
  have hbyte := congrArg (fun element => element[k]?) hsame
  simpa [List.getElem?_take, hk] using hbyte

theorem succ_mul_le_length (vector : ElementVector T) {index : Nat} (hindex : index < vector.count) :
    (index + 1) * T.size ≤ vector.bytes.length := by
  rw [vector.length_bytes]
  exact Nat.mul_le_mul_right T.size hindex

end ElementVector

end GEDS
