/-
Allocation-only memory for shared pointers.  References are never reused, so a
cell that is still pointed to keeps its meaning after the structure that held
it was changed.
-/
import Mathlib.Logic.Function.Basic
import Mathlib.Tactic

namespace GEDS

universe u

/-- Cells numbered by allocation order; cells from `next` on are unused. -/
structure Heap (α : Type u) where
  next : Nat
  get : Nat → α

namespace Heap

variable {α : Type u}

def empty [Inhabited α] : Heap α := ⟨0, fun _ => default⟩

/-- `std::make_shared`: the reference of the new cell is the old `next`. -/
def alloc (heap : Heap α) (value : α) : Heap α :=
  ⟨heap.next + 1, Function.update heap.get heap.next value⟩

def set (heap : Heap α) (ref : Nat) (value : α) : Heap α :=
  ⟨heap.next, Function.update heap.get ref value⟩

@[simp] theorem next_alloc (heap : Heap α) (value : α) :
    (heap.alloc value).next = heap.next + 1 := rfl

@[simp] theorem next_set (heap : Heap α) (ref : Nat) (value : α) :
    (heap.set ref value).next = heap.next := rfl

@[simp] theorem get_alloc_next (heap : Heap α) (value : α) :
    (heap.alloc value).get heap.next = value := by
  simp [alloc]

theorem get_alloc_of_ne (heap : Heap α) (value : α) {ref : Nat}
    (hne : ref ≠ heap.next) : (heap.alloc value).get ref = heap.get ref := by
  simp [alloc, hne]

@[simp] theorem get_set_self (heap : Heap α) (ref : Nat) (value : α) :
    (heap.set ref value).get ref = value := by
  simp [set]

theorem get_set_of_ne (heap : Heap α) (value : α) {ref other : Nat}
    (hne : other ≠ ref) : (heap.set ref value).get other = heap.get other := by
  simp [set, hne]

end Heap

end GEDS
