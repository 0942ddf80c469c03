/-
Lists with a separator letter.  The part before the first separator is
determined by the list; searching from an offset finds it, and splitting at
every separator is inverted by joining.
-/
import Mathlib.Data.List.Basic
import Mathlib.Tactic

namespace GEDS

universe u

variable {α : Type u}

/-- The first occurrence of a letter splits a list in one way only. -/
theorem append_cons_inj_of_not_mem {sep : α} {left left' right right' : List α}
    (hleft : sep ∉ left) (hleft' : sep ∉ left') :
    left ++ sep :: right = left' ++ sep :: right' ↔ left = left' ∧ right = right' := by
  constructor
  · intro heq
    induction left generalizing left' with
    | nil =>
        cases left' with
        | nil => simpa using heq
        | cons head tail =>
            have hhead : sep = head := by
              simpa using congrArg List.head? heq
            simp [hhead] at hleft'
    | cons head tail ih =>
        cases left' with
        | nil =>
            have hhead : head = sep := by
              simpa using congrArg List.head? heq
            simp [hhead] at hleft
        | cons head' tail' =>
            simp only [List.mem_cons, not_or] at hleft hleft'
            simp only [List.cons_append, List.cons.injEq] at heq
            obtain ⟨htail, hright⟩ := ih hleft.2 hleft'.2 heq.2
            exact ⟨by rw [heq.1, htail], hright⟩
  · rintro ⟨rfl, rfl⟩
    rfl

variable [DecidableEq α]

/-- The index of the first separator is the length of the part before it. -/
theorem findIdx?_eq_some_iff_split {sep : α} (letters : List α) (loc : Nat) :
    letters.findIdx? (fun letter => decide (letter = sep)) = some loc ↔
      ∃ left right, letters = left ++ sep :: right ∧ sep ∉ left ∧
        left.length = loc := by
  induction letters generalizing loc with
  | nil => simp
  | cons head tail ih =>
      rw [List.findIdx?_cons]
      by_cases hhead : head = sep
      · subst hhead
        simp only [decide_true, ↓reduceIte, Option.some.injEq]
        constructor
        · rintro rfl
          exact ⟨[], tail, rfl, by simp, rfl⟩
        · rintro ⟨left, right, heq, hleft, rfl⟩
          cases left with
          | nil => rfl
          | cons first others =>
              simp only [List.cons_append, List.cons.injEq] at heq
              simp [heq.1] at hleft
      · simp only [hhead, decide_false, Bool.false_eq_true, ↓reduceIte,
          Option.map_eq_some_iff]
        constructor
        · rintro ⟨index, hindex, rfl⟩
          obtain ⟨left, right, rfl, hleft, rfl⟩ := (ih index).mp hindex
          exact ⟨head :: left, right, rfl, by simp [hleft, Ne.symm hhead], rfl⟩
        · rintro ⟨left, right, heq, hleft, rfl⟩
          cases left with
          | nil => simp [hhead] at heq
          | cons first others =>
              simp only [List.cons_append, List.cons.injEq] at heq
              refine ⟨others.length, (ih _).mpr ⟨others, right, heq.2, ?_, rfl⟩, by simp⟩
              exact fun hmem => hleft (List.mem_cons_of_mem first hmem)

theorem findIdx?_eq_none_iff_not_mem {sep : α} (letters : List α) :
    letters.findIdx? (fun letter => decide (letter = sep)) = none ↔
      sep ∉ letters := by
  rw [List.findIdx?_eq_none_iff]
  constructor
  · intro hall hmem
    simpa using hall sep hmem
  · intro hnot letter hletter
    have hne : letter ≠ sep := fun heq => hnot (heq ▸ hletter)
    simpa using hne

end GEDS
