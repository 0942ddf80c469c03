/-
Prefix probes on lexicographically ordered lists.  A probe compares a key by
its first `pre.length` letters only, so it is equivalent to every extension of
`pre` at once.  Both comparisons are monotone in the key, which is what makes
the extensions of one prefix a contiguous block of any ordered table.
-/
import Mathlib.Data.List.Lex
import Mathlib.Tactic

namespace GEDS

universe u

variable {α : Type u} [LinearOrder α]

/-- The key is below the probe: its cut is smaller than the prefix. -/
def probeBelow (pre key : List α) : Bool :=
  decide (key.take pre.length < pre)

/-- The key is above the probe: its cut is larger than the prefix. -/
def probeAbove (pre key : List α) : Bool :=
  decide (pre < key.take pre.length)

theorem lt_of_take_lt_take {left right : List α} {n : Nat}
    (hlt : left.take n < right.take n) : left < right := by
  induction n generalizing left right with
  | zero => simp at hlt
  | succ n ih =>
      cases right with
      | nil => simp at hlt
      | cons b right =>
          cases left with
          | nil => exact List.nil_lt_cons b right
          | cons a left =>
              rw [List.take_succ_cons, List.take_succ_cons,
                List.cons_lt_cons_iff] at hlt
              rw [List.cons_lt_cons_iff]
              exact hlt.imp_right fun htail => ⟨htail.1, ih htail.2⟩

/-- Cutting both sides at one length keeps the lexicographic order. -/
theorem take_le_take {left right : List α} (hle : left ≤ right) (n : Nat) :
    left.take n ≤ right.take n := by
  rw [← not_lt] at hle ⊢
  exact fun hlt => hle (lt_of_take_lt_take hlt)

theorem not_lt_of_isPrefix {pre key : List α} (hextends : pre <+: key) : ¬ key < pre :=
  List.IsPrefix.le hextends

/-- To be below the probe is to be below the prefix. -/
theorem probeBelow_iff_lt (pre key : List α) : probeBelow pre key = true ↔ key < pre := by
  rw [probeBelow, decide_eq_true_eq]
  constructor
  · intro hlt
    refine lt_of_take_lt_take (n := pre.length) ?_
    rwa [List.take_length]
  · intro hlt
    have hle := take_le_take hlt.le pre.length
    rw [List.take_length] at hle
    refine lt_of_le_of_ne hle fun heq => ?_
    have hextends : pre <+: key := by
      rw [← heq]
      exact List.take_prefix _ _
    exact not_lt_of_isPrefix hextends hlt

theorem probeBelow_of_le (pre : List α) {left right : List α} (hle : left ≤ right)
    (hbelow : probeBelow pre right = true) : probeBelow pre left = true := by
  simp only [probeBelow, decide_eq_true_eq] at hbelow ⊢
  exact lt_of_le_of_lt (take_le_take hle pre.length) hbelow

theorem probeAbove_of_le (pre : List α) {left right : List α} (hle : left ≤ right)
    (habove : probeAbove pre left = true) : probeAbove pre right = true := by
  simp only [probeAbove, decide_eq_true_eq] at habove ⊢
  exact lt_of_lt_of_le habove (take_le_take hle pre.length)

/-- A key equivalent to the probe is exactly an extension of the prefix. -/
theorem isPrefix_iff_not_probe (pre key : List α) :
    pre <+: key ↔ probeBelow pre key = false ∧ probeAbove pre key = false := by
  simp only [probeBelow, probeAbove, decide_eq_false_iff_not, not_lt]
  rw [List.prefix_iff_eq_take]
  constructor
  · intro heq
    exact ⟨heq.le, heq.ge⟩
  · rintro ⟨hle, hge⟩
    exact hle.antisymm hge

theorem probeBelow_probeAbove_disjoint (pre : List α) {key : List α}
    (hbelow : probeBelow pre key = true) : probeAbove pre key = false := by
  simp only [probeBelow, probeAbove, decide_eq_true_eq, decide_eq_false_iff_not,
    not_lt] at hbelow ⊢
  exact hbelow.le

end GEDS
