/-
A loop over a list that keeps an account of what it has taken, and breaks as soon as the
account says that it is enough.
-/
import Mathlib.Data.List.Infix

namespace GEDS

universe u v

variable {α : Type u} {σ : Type v} {enough : σ → Bool} {add : σ → α → σ} {account : σ}
  {list : List α}

/-- The elements that the loop takes; it looks at the account before each of them. -/
def takeUntil (enough : σ → Bool) (add : σ → α → σ) : σ → List α → List α
  | _, [] => []
  | account, x :: rest =>
      if enough account then [] else x :: takeUntil enough add (add account x) rest

namespace TakeUntil

theorem takes_isPrefix : takeUntil enough add account list <+: list := by
  induction list generalizing account with
  | nil => exact List.prefix_rfl
  | cons x rest ih =>
      rw [takeUntil]
      split_ifs
      · exact List.nil_prefix
      · exact List.cons_prefix_cons.2 ⟨rfl, ih⟩

/-- The loop ends with enough, unless it takes everything. -/
theorem all_or_enough : takeUntil enough add account list = list ∨
    enough ((takeUntil enough add account list).foldl add account) = true := by
  induction list generalizing account with
  | nil => exact Or.inl rfl
  | cons x rest ih =>
      rw [takeUntil]
      split_ifs with henough
      · exact Or.inr henough
      · rcases @ih (add account x) with hall | hrest
        · exact Or.inl (congrArg (x :: ·) hall)
        · exact Or.inr hrest

/-- The loop takes no element that it does not need. -/
theorem not_enough {fewer : List α} (hfewer : fewer <+: takeUntil enough add account list)
    (hproper : fewer ≠ takeUntil enough add account list) :
    enough (fewer.foldl add account) = false := by
  induction list generalizing account fewer with
  | nil => exact absurd (List.prefix_nil.1 hfewer) hproper
  | cons x rest ih =>
      rw [takeUntil] at hfewer hproper
      split_ifs at hfewer hproper with henough
      · exact absurd (List.prefix_nil.1 hfewer) hproper
      · cases fewer with
        | nil => exact Bool.eq_false_iff.2 henough
        | cons y fewer =>
            obtain ⟨rfl, hfewer⟩ := List.cons_prefix_cons.1 hfewer
            exact @ih (add account y) fewer hfewer fun hsame =>
              hproper (congrArg (y :: ·) hsame)

end TakeUntil

end GEDS
