/-
Words of 64 bits as numbers, as long as a sum does not wrap.
-/
import Mathlib.Tactic

namespace GEDS

variable {a b : UInt64} {n : Nat}

theorem toNat_pos_of_ne_zero (hne : a ≠ 0) : 0 < a.toNat := by
  rw [Nat.pos_iff_ne_zero]
  intro hzero
  exact hne (UInt64.toNat_inj.1 hzero)

theorem toNat_add_of_lt (hsum : a.toNat + b.toNat < 2 ^ 64) :
    (a + b).toNat = a.toNat + b.toNat := by
  rw [UInt64.toNat_add]
  exact Nat.mod_eq_of_lt hsum

theorem toNat_add_ofNat (hsum : a.toNat + n < 2 ^ 64) :
    (a + UInt64.ofNat n).toNat = a.toNat + n := by
  rw [UInt64.toNat_add, UInt64.toNat_ofNat']
  omega

/-- Adding up numbers as words. -/
theorem foldl_add_ofNat {α : Type*} (size : α → Nat) (list : List α) (start : Nat) :
    list.foldl (fun sum member => sum + UInt64.ofNat (size member)) (UInt64.ofNat start) =
      UInt64.ofNat (start + (list.map size).sum) := by
  induction list generalizing start with
  | nil => rfl
  | cons member rest ih =>
      rw [List.foldl_cons, ← UInt64.ofNat_add, ih, List.map_cons, List.sum_cons, Nat.add_assoc]

theorem toNat_add_one (hsum : a.toNat + 1 < 2 ^ 64) : (a + 1).toNat = a.toNat + 1 :=
  toNat_add_of_lt hsum

end GEDS
