/-
Sparse arrays: a length, and an element at every index, which is zero from the
length on and wherever nothing was written.  A list that is padded with zeros
represents one.
-/
import GEDS.Library.FileSystem
import Mathlib

namespace GEDS

universe u

/-- An array that reads as zero behind its end. -/
@[ext] structure SparseArray (α : Type u) [Zero α] where
  length : Nat
  get : Nat → α
  zero : ∀ index, length ≤ index → get index = 0

namespace SparseArray

variable {α : Type u} [Zero α] (array : SparseArray α)

/-- Elements written at a position; nothing happens without elements. -/
def write (position : Nat) (elements : List α) : SparseArray α where
  length := if elements = [] then array.length
    else max array.length (position + elements.length)
  get index := if position ≤ index ∧ index < position + elements.length then
    elements.getD (index - position) 0 else array.get index
  zero := by
    intro index hindex
    split_ifs at hindex with hnil
    · rw [if_neg, array.zero index hindex]
      rw [hnil, List.length_nil]
      omega
    · rw [if_neg (by omega), array.zero index (by omega)]

/-- The array cut or extended to a length. -/
def truncate (size : Nat) : SparseArray α where
  length := size
  get index := if index < size then array.get index else 0
  zero index hindex := if_neg (by omega)

/-- So many elements from a position on, as far as there are. -/
def read (position count : Nat) : List α :=
  (List.range (min (position + count) array.length - position)).map fun index =>
    array.get (position + index)

def ofList (elements : List α) : SparseArray α where
  length := elements.length
  get index := elements.getD index 0
  zero index hindex := by simp [hindex]

variable {array}

@[simp] theorem length_ofList (elements : List α) : (ofList elements).length = elements.length :=
  rfl

theorem read_ofList (elements : List α) (position count : Nat) :
    (ofList elements).read position count = (elements.drop position).take count := by
  apply List.ext_getElem
  · simp only [read, length_ofList, List.length_map, List.length_range, List.length_take,
      List.length_drop]
    omega
  · intro index hleft hright
    simp only [read, List.length_map, List.length_range, length_ofList] at hleft
    have hindex : position + index < elements.length := by omega
    simp [read, ofList, hindex]

theorem write_nil (position : Nat) : array.write position [] = array := by
  ext index
  · simp [write]
  · have hnone : ¬ (position ≤ index ∧ index < position) := by omega
    simp [write, hnone]

/-- A write that goes on where the one before it stopped. -/
theorem write_write (position : Nat) (elements more : List α) :
    (array.write position elements).write (position + elements.length) more =
      array.write position (elements ++ more) := by
  by_cases hmore : more = []
  · rw [hmore, write_nil, List.append_nil]
  ext index
  · by_cases helements : elements = []
    · simp [write, helements]
    · simp only [write, helements, hmore, List.append_eq_nil_iff, and_self, ↓reduceIte,
        List.length_append]
      omega
  · simp only [write, List.length_append]
    by_cases hsecond : position + elements.length ≤ index ∧
        index < position + elements.length + more.length
    · rw [if_pos hsecond, if_pos (by omega), List.getD_append_right _ _ _ _ (by omega)]
      congr 1
      omega
    · rw [if_neg hsecond]
      by_cases hfirst : position ≤ index ∧ index < position + elements.length
      · rw [if_pos hfirst, if_pos (by omega), List.getD_append _ _ _ _ (by omega)]
      · rw [if_neg hfirst, if_neg (by omega)]

omit [Zero α] in
/-- What stands for a missing element matters only behind the end. -/
theorem getD_congr {elements : List α} {index : Nat} {missing missing' : α}
    (hmissing : elements.length ≤ index → missing = missing') :
    elements.getD index missing = elements.getD index missing' := by
  rcases Nat.lt_or_ge index elements.length with hinside | hbehind
  · rw [List.getD_eq_getElem _ _ hinside, List.getD_eq_getElem _ _ hinside]
  · rw [hmissing hbehind]

/-- From the position on, an element that was written or the one that was there -/
theorem get_write_add (position index : Nat) (elements : List α) :
    (array.write position elements).get (position + index) =
      elements.getD index (array.get (position + index)) := by
  simp only [write]
  split_ifs with hinside
  · rw [Nat.add_sub_cancel_left]
    exact getD_congr fun hbehind => absurd hinside.2 (by omega)
  · rw [List.getD_eq_default _ _ (by omega)]

theorem get_write_of_lt {position index : Nat} {elements : List α} (hindex : index < position) :
    (array.write position elements).get index = array.get index :=
  if_neg (by omega)

/-- A cut to the length or behind it changes no element. -/
theorem get_truncate_of_le {size : Nat} (hsize : array.length ≤ size) :
    (array.truncate size).get = array.get := by
  funext index
  simp only [truncate]
  split_ifs with hindex
  · rfl
  · exact (array.zero index (by omega)).symm

/-- A cut is the array of its length with the elements in front of it. -/
theorem truncate_eq_iff {array' : SparseArray α} {size : Nat} :
    array.truncate size = array' ↔
      size = array'.length ∧ ∀ index < size, array.get index = array'.get index := by
  constructor
  · rintro rfl
    exact ⟨rfl, fun index hindex => (if_pos hindex).symm⟩
  · rintro ⟨hlength, hget⟩
    ext index
    · exact hlength
    · simp only [truncate]
      split_ifs with hindex
      · exact hget index hindex
      · exact (array'.zero index (by omega)).symm

theorem get_write_congr {array' : SparseArray α} (hget : array'.get = array.get) (position : Nat)
    (elements : List α) : (array'.write position elements).get =
      (array.write position elements).get := by
  simp only [write, hget]

/-- Behind a cut the length does not matter. -/
theorem truncate_congr {array' : SparseArray α} (hget : array'.get = array.get) (size : Nat) :
    array'.truncate size = array.truncate size := by
  ext index
  · rfl
  · simp only [truncate, hget]

/-- An array that is written and cut, against one that is cut and written with other elements:
the cut of the one is the length of the other, there is nothing but zeros in the gap that the
write leaves, and an element that only one of the two writes was there before. -/
theorem truncate_write_eq_write_iff (array : SparseArray α) (position : Nat)
    (elements written : List α) (size size' : Nat) :
    (array.write position elements).truncate size' =
        (array.truncate size).write position written ↔
      (size' = if written = [] then size else max size (position + written.length)) ∧
      (written ≠ [] → ∀ index, size ≤ index → index < position → array.get index = 0) ∧
      ∀ index, position + index < size' →
        elements.getD index (array.get (position + index)) =
          written.getD index (array.get (position + index)) := by
  have hlength : ((array.truncate size).write position written).length =
      if written = [] then size else max size (position + written.length) := rfl
  rw [truncate_eq_iff, hlength]
  refine and_congr_right fun hlength => ?_
  -- behind the elements that are written, the array ends in front of the cut
  have hcut : ∀ index, position + index < size' → written.length ≤ index →
      position + index < size := by
    intro index hindex hbehind
    split_ifs at hlength <;> omega
  constructor
  · intro hget
    refine ⟨fun hwritten index hsize hposition => ?_, fun index hindex => ?_⟩
    · rw [if_neg hwritten] at hlength
      have hzero := hget index (by omega)
      rw [get_write_of_lt hposition, get_write_of_lt hposition] at hzero
      exact hzero.trans (if_neg (by omega))
    · have helement := hget (position + index) hindex
      rw [get_write_add, get_write_add] at helement
      exact helement.trans (getD_congr fun hbehind => if_pos (hcut index hindex hbehind))
  · rintro ⟨hgap, hget⟩ index hindex
    rcases Nat.lt_or_ge index position with hfront | hinside
    · rw [get_write_of_lt hfront, get_write_of_lt hfront]
      simp only [truncate]
      split_ifs with hsize
      · rfl
      · refine hgap ?_ index (by omega) hfront
        rintro rfl
        rw [if_pos rfl] at hlength
        omega
    · obtain ⟨offset, rfl⟩ := Nat.exists_eq_add_of_le hinside
      rw [get_write_add, get_write_add, hget offset hindex]
      exact getD_congr fun hbehind => (if_pos (hcut offset hindex hbehind)).symm

/-- A write behind a cut shows what was cut off in the gap in front of it. -/
theorem truncate_write_iff (array : SparseArray α) (position size : Nat) {elements : List α}
    (helements : elements ≠ []) :
    (array.write position elements).truncate (max size (position + elements.length)) =
      (array.truncate size).write position elements ↔
      ∀ index, size ≤ index → index < position → array.get index = 0 := by
  rw [truncate_write_eq_write_iff, if_neg helements, and_iff_right rfl,
    and_iff_left fun _ _ => rfl]
  exact ⟨fun hgap => hgap helements, fun hgap _ => hgap⟩

/-- A longer cut shows what was cut off before. -/
theorem truncate_truncate_iff (array : SparseArray α) (size size' : Nat) :
    array.truncate size' = (array.truncate size).truncate size' ↔
      ∀ index, size ≤ index → index < size' → array.get index = 0 := by
  refine truncate_eq_iff.trans ((and_iff_right rfl).trans ?_)
  constructor
  · intro hget index hsize hindex
    have hzero := hget index hindex
    simp only [truncate, hindex, ↓reduceIte] at hzero
    exact hzero.trans (if_neg (by omega))
  · intro hzero index hindex
    simp only [truncate, hindex, ↓reduceIte]
    split_ifs with hsize
    · rfl
    · exact hzero index (by omega) hindex

/-- A read of a cut array: as many elements as there are up to the cut. -/
theorem read_truncate (array : SparseArray α) (position count size : Nat) :
    (array.truncate size).read position count =
      (List.range (min count (size - position))).map fun index => array.get (position + index) := by
  have hcount : min (position + count) size - position = min count (size - position) := by omega
  rw [read]
  simp only [truncate, hcount]
  refine List.map_congr_left fun index hindex => ?_
  rw [List.mem_range] at hindex
  exact if_pos (by omega)

theorem getD_replicate_zero (count index : Nat) :
    (List.replicate count (0 : α)).getD index 0 = 0 := by
  rw [List.getD_eq_getElem?_getD, List.getElem?_replicate]
  split_ifs <;> rfl

/-- A file that is written. -/
theorem ofList_overwrite (content : List UInt8) (position : Nat) (bytes : List UInt8) :
    ofList (FileSystem.overwrite content position bytes) =
      (ofList content).write position bytes := by
  by_cases hbytes : bytes = []
  · rw [hbytes, write_nil, FileSystem.overwrite, if_pos rfl]
  · have hfront : (content.take position ++
        List.replicate (position - content.length) 0).length = position := by
      rw [List.length_append, List.length_take, List.length_replicate]
      omega
    ext index
    · simp only [ofList, write, FileSystem.overwrite, hbytes, ↓reduceIte, List.length_append,
        List.length_drop, List.length_take, List.length_replicate]
      omega
    · simp only [ofList, write, FileSystem.overwrite, hbytes, ↓reduceIte]
      by_cases hbefore : index < position
      · -- before the position: the old bytes, then the gap
        rw [if_neg (by omega), List.append_assoc _ bytes, List.getD_append _ _ _ _ (by omega)]
        by_cases hold : index < content.length
        · have htake : index < (content.take position).length := by
            rw [List.length_take]
            omega
          rw [List.getD_append _ _ _ _ htake, List.getD_eq_getElem _ _ htake,
            List.getD_eq_getElem _ _ hold, List.getElem_take]
        · have htake : (content.take position).length ≤ index := by
            rw [List.length_take]
            omega
          rw [List.getD_append_right _ _ _ _ htake, getD_replicate_zero,
            List.getD_eq_default _ _ (by omega)]
      · by_cases hinside : index < position + bytes.length
        · rw [if_pos ⟨by omega, hinside⟩, List.append_assoc _ bytes,
            List.getD_append_right _ _ _ _ (by omega), List.getD_append _ _ _ _ (by omega),
            hfront]
        · have hlength : (content.take position ++ List.replicate (position - content.length) 0 ++
              bytes).length = position + bytes.length := by
            rw [List.length_append, hfront]
          have hindex : position + bytes.length + (index - (position + bytes.length)) = index := by
            omega
          rw [if_neg (by omega), List.getD_append_right _ _ _ _ (by omega), hlength,
            List.getD_eq_getElem?_getD, List.getElem?_drop, hindex, List.getD_eq_getElem?_getD]

/-- A file that is cut or extended. -/
theorem ofList_truncate (content : List UInt8) (size : Nat) :
    ofList (content.take size ++ List.replicate (size - content.length) 0) =
      (ofList content).truncate size := by
  ext index
  · simp only [ofList, truncate, List.length_append, List.length_take, List.length_replicate]
    omega
  · simp only [ofList, truncate]
    by_cases hold : index < (content.take size).length
    · have hcontent : index < content.length := by
        rw [List.length_take] at hold
        omega
      have hsize : index < size := by
        rw [List.length_take] at hold
        omega
      rw [if_pos hsize, List.getD_append _ _ _ _ hold, List.getD_eq_getElem _ _ hold,
        List.getD_eq_getElem _ _ hcontent, List.getElem_take]
    · rw [List.getD_append_right _ _ _ _ (by omega), getD_replicate_zero]
      rw [List.length_take] at hold
      split_ifs with hsize
      · rw [List.getD_eq_default _ _ (by omega)]
      · rfl

end SparseArray

end GEDS
