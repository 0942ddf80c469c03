/-
Regular expressions as a backtracking matcher runs them: a repetition takes as
much as it can and gives back element by element when the rest does not match.
Repetitions are of single elements, which is what most hand-written formats use.
-/
import Mathlib.Data.List.Basic
import Mathlib.Logic.Function.Basic
import Mathlib.Tactic

namespace GEDS

universe u v

/-- What the groups of an expression have matched so far. -/
abbrev Captures (α : Type u) := Nat → Option (List α)

inductive Regex (α : Type u) where
  | nil
  | one (p : α → Bool)
  | star (p : α → Bool)
  | seq (first second : Regex α)
  | group (number : Nat) (body : Regex α)

namespace Regex

variable {α : Type u} {β : Type v}

/-- `p+` -/
def plus (p : α → Bool) : Regex α := seq (one p) (star p)

/-- The given elements one after the other. -/
def literal [DecidableEq α] : List α → Regex α
  | [] => nil
  | letter :: rest => seq (one fun c => decide (c = letter)) (literal rest)

/-- The longest repetition first, then shorter ones. -/
def greedy (p : α → Bool) (next : List α → Option β) : List α → Option β
  | [] => next []
  | letter :: rest =>
      if p letter then
        match greedy p next rest with
        | some result => some result
        | none => next (letter :: rest)
      else next (letter :: rest)

theorem greedy_cons (p : α → Bool) (next : List α → Option β) (letter : α) (rest : List α) :
    greedy p next (letter :: rest) =
      if p letter then (greedy p next rest).or (next (letter :: rest))
      else next (letter :: rest) := by
  rw [greedy]
  cases greedy p next rest <;> rfl

/-- Match at the start of the input and go on with `next` at what remains. -/
def run : Regex α → (List α → Captures α → Option β) → List α → Captures α → Option β
  | nil, next, input, groups => next input groups
  | one _, _, [], _ => none
  | one p, next, letter :: rest, groups => if p letter then next rest groups else none
  | star p, next, input, groups => greedy p (fun rest => next rest groups) input
  | seq first second, next, input, groups => first.run (second.run next) input groups
  | group number body, next, input, groups =>
      body.run (fun rest groups => next rest
        (Function.update groups number (some (input.take (input.length - rest.length)))))
        input groups

theorem run_one_nil (p : α → Bool) (next : List α → Captures α → Option β)
    (groups : Captures α) : (one p).run next [] groups = none := rfl

theorem run_one_cons (p : α → Bool) (next : List α → Captures α → Option β) (letter : α)
    (rest : List α) (groups : Captures α) :
    (one p).run next (letter :: rest) groups =
      if p letter then next rest groups else none := rfl

theorem run_star (p : α → Bool) (next : List α → Captures α → Option β) (input : List α)
    (groups : Captures α) :
    (star p).run next input groups = greedy p (fun rest => next rest groups) input := rfl

theorem run_seq (first second : Regex α) (next : List α → Captures α → Option β)
    (input : List α) (groups : Captures α) :
    (seq first second).run next input groups = first.run (second.run next) input groups := rfl

theorem run_group (number : Nat) (body : Regex α) (next : List α → Captures α → Option β)
    (input : List α) (groups : Captures α) :
    (group number body).run next input groups =
      body.run (fun rest groups => next rest
        (Function.update groups number (some (input.take (input.length - rest.length)))))
        input groups := rfl

/-- `std::regex_match`: the expression matches the whole input. -/
def regexMatch (expression : Regex α) (input : List α) : Option (Captures α) :=
  expression.run (fun rest groups => if rest.isEmpty then some groups else none) input
    fun _ => none

section Takes

variable {p : α → Bool} {word word' rest : List α} {first second body : Regex α}
  {change change' : Captures α → Captures α}

/-- In front of `rest`, the first way to match that anybody will accept takes
`word`, and sets the groups by `change`. -/
def Takes (expression : Regex α) (word rest : List α)
    (change : Captures α → Captures α) : Prop :=
  ∀ (next : List α → Captures α → Option (Captures α)) (groups : Captures α)
    (result : Captures α), next rest (change groups) = some result →
    expression.run next (word ++ rest) groups = some result

theorem greedy_append (next : List α → Option β) (hword : ∀ letter ∈ word, p letter = true)
    {result : β} (hrest : greedy p next rest = some result) :
    greedy p next (word ++ rest) = some result := by
  induction word with
  | nil => exact hrest
  | cons letter word ih =>
      have htail := ih fun other hother => hword other (List.mem_cons_of_mem letter hother)
      simp [greedy_cons, hword letter List.mem_cons_self, htail]

theorem greedy_of_stop (next : List α → Option β)
    (hstop : ∀ letter ∈ rest.head?, p letter = false) : greedy p next rest = next rest := by
  cases rest with
  | nil => rfl
  | cons letter rest => simp [greedy_cons, hstop letter rfl]

theorem Takes.star (hword : ∀ letter ∈ word, p letter = true)
    (hstop : ∀ letter ∈ rest.head?, p letter = false) : Takes (star p) word rest id := by
  intro next groups result hnext
  apply greedy_append _ hword
  rw [greedy_of_stop _ hstop]
  exact hnext

theorem Takes.one {letter : α} (hletter : p letter = true) : Takes (one p) [letter] rest id := by
  intro next groups result hnext
  simpa [run_one_cons, hletter] using hnext

theorem Takes.seq (hfirst : Takes first word (word' ++ rest) change)
    (hsecond : Takes second word' rest change') :
    Takes (seq first second) (word ++ word') rest (change' ∘ change) := by
  intro next groups result hnext
  rw [run_seq, List.append_assoc]
  apply hfirst
  exact hsecond next (change groups) result hnext

theorem Takes.group (number : Nat) (hbody : Takes body word rest change) :
    Takes (group number body) word rest fun groups =>
      Function.update (change groups) number (some word) := by
  intro next groups result hnext
  rw [run_group]
  apply hbody
  simpa using hnext

theorem Takes.plus (hne : word ≠ []) (hword : ∀ letter ∈ word, p letter = true)
    (hstop : ∀ letter ∈ rest.head?, p letter = false) : Takes (plus p) word rest id := by
  cases word with
  | nil => exact absurd rfl hne
  | cons letter word =>
      have hfirst : Takes (Regex.one p) [letter] (word ++ rest) id :=
        Takes.one (hword letter List.mem_cons_self)
      exact hfirst.seq (Takes.star (fun other hother =>
        hword other (List.mem_cons_of_mem letter hother)) hstop)

/-- A repetition that gives its last element back to what follows it. -/
theorem Takes.plus_one {q : α → Bool} (himp : ∀ letter, q letter = true → p letter = true)
    (hne : word ≠ []) (hword : ∀ letter ∈ word, p letter = true) {last : α}
    (hlast : q last = true) (hstop : ∀ letter ∈ rest.head?, p letter = false) :
    Takes (Regex.seq (Regex.plus p) (Regex.one q)) (word ++ [last]) rest id := by
  cases word with
  | nil => exact absurd rfl hne
  | cons letter word =>
      rw [List.forall_mem_cons] at hword
      intro next groups result hnext
      have hnone : (Regex.one q).run next rest groups = none := by
        cases rest with
        | nil => rfl
        | cons other rest =>
            have hother : q other ≠ true := fun hq => by
              have hp := himp other hq
              rw [hstop other rfl] at hp
              exact Bool.false_ne_true hp
            simp [run_one_cons, hother]
      have hgreedy : greedy p (fun rest => (Regex.one q).run next rest groups) (last :: rest) =
          some result := by
        simp only [greedy_cons, himp last hlast, ↓reduceIte, greedy_of_stop _ hstop, hnone,
          Option.none_or]
        simpa [run_one_cons, hlast] using hnext
      have hall := greedy_append _ hword.2 hgreedy
      simpa [run_seq, run_one_cons, run_star, Regex.plus, hword.1] using hall

theorem Takes.literal [DecidableEq α] (word rest : List α) : Takes (literal word) word rest id := by
  induction word with
  | nil =>
      intro next groups result hnext
      exact hnext
  | cons letter word ih =>
      have hfirst : Takes (Regex.one fun c => decide (c = letter)) [letter] (word ++ rest) id :=
        Takes.one (by simp)
      exact hfirst.seq ih

theorem Takes.regexMatch {expression : Regex α} (h : Takes expression word [] change) :
    expression.regexMatch word = some (change fun _ => none) := by
  have hrun := h (fun rest groups => if rest.isEmpty then some groups else none)
    (fun _ => none) _ rfl
  rwa [List.append_nil] at hrun

end Takes

section Parses

/-- The ways in which an expression may match a word, and what it captures then. -/
def Parses : Regex α → List α → Captures α → Captures α → Prop
  | nil, word, groups, groups' => word = [] ∧ groups' = groups
  | one p, word, groups, groups' => (∃ letter, word = [letter] ∧ p letter = true) ∧
      groups' = groups
  | star p, word, groups, groups' => (∀ letter ∈ word, p letter = true) ∧ groups' = groups
  | seq first second, word, groups, groups' => ∃ front back between, word = front ++ back ∧
      first.Parses front groups between ∧ second.Parses back between groups'
  | group number body, word, groups, groups' => ∃ inner, body.Parses word groups inner ∧
      groups' = Function.update inner number (some word)

theorem greedy_eq_some {p : α → Bool} {next : List α → Option β} {input : List α} {result : β}
    (hgreedy : greedy p next input = some result) :
    ∃ word rest, input = word ++ rest ∧ (∀ letter ∈ word, p letter = true) ∧
      next rest = some result := by
  induction input with
  | nil => exact ⟨[], [], rfl, by simp, hgreedy⟩
  | cons letter input ih =>
      by_cases hletter : p letter = true
      · cases htail : greedy p next input with
        | some found =>
            simp only [greedy_cons, hletter, ↓reduceIte, htail, Option.some_or] at hgreedy
            obtain ⟨word, rest, rfl, hword, hnext⟩ := ih (htail.trans hgreedy)
            refine ⟨letter :: word, rest, rfl, ?_, hnext⟩
            exact List.forall_mem_cons.2 ⟨hletter, hword⟩
        | none =>
            simp only [greedy_cons, hletter, ↓reduceIte, htail, Option.none_or] at hgreedy
            exact ⟨[], letter :: input, rfl, by simp, hgreedy⟩
      · simp only [greedy_cons, hletter] at hgreedy
        exact ⟨[], letter :: input, rfl, by simp, hgreedy⟩

/-- Whatever the matcher finds is one of the ways to match. -/
theorem run_eq_some {expression : Regex α} {next : List α → Captures α → Option β}
    {input : List α} {groups : Captures α} {result : β}
    (hrun : expression.run next input groups = some result) :
    ∃ word rest groups', input = word ++ rest ∧ expression.Parses word groups groups' ∧
      next rest groups' = some result := by
  induction expression generalizing next input groups with
  | nil => exact ⟨[], input, groups, rfl, ⟨rfl, rfl⟩, hrun⟩
  | one p =>
      cases input with
      | nil => simp [run_one_nil] at hrun
      | cons letter rest =>
          by_cases hletter : p letter = true
          · simp only [run_one_cons, hletter, ↓reduceIte] at hrun
            exact ⟨[letter], rest, groups, rfl, ⟨⟨letter, rfl, hletter⟩, rfl⟩, hrun⟩
          · simp [run_one_cons, hletter] at hrun
  | star p =>
      obtain ⟨word, rest, hinput, hword, hnext⟩ := greedy_eq_some hrun
      exact ⟨word, rest, groups, hinput, ⟨hword, rfl⟩, hnext⟩
  | seq first second ihfirst ihsecond =>
      obtain ⟨front, middle, between, rfl, hfirst, hrun⟩ := ihfirst hrun
      obtain ⟨back, rest, groups', rfl, hsecond, hnext⟩ := ihsecond hrun
      exact ⟨front ++ back, rest, groups', by simp,
        ⟨front, back, between, rfl, hfirst, hsecond⟩, hnext⟩
  | group number body ih =>
      obtain ⟨word, rest, inner, rfl, hbody, hnext⟩ := ih hrun
      refine ⟨word, rest, _, rfl, ⟨inner, hbody, rfl⟩, ?_⟩
      simpa using hnext

theorem regexMatch_eq_some {expression : Regex α} {input : List α} {groups : Captures α}
    (hmatch : expression.regexMatch input = some groups) :
    expression.Parses input (fun _ => none) groups := by
  obtain ⟨word, rest, groups', rfl, hparses, hnext⟩ := run_eq_some hmatch
  cases rest with
  | nil =>
      obtain rfl := Option.some.inj hnext
      rwa [List.append_nil]
  | cons letter rest => simp at hnext

theorem greedy_isSome {p : α → Bool} {next : List α → Option β} {word rest : List α}
    (hword : ∀ letter ∈ word, p letter = true) (hnext : (next rest).isSome) :
    (greedy p next (word ++ rest)).isSome := by
  have hrest : (greedy p next rest).isSome := by
    cases rest with
    | nil => exact hnext
    | cons letter rest =>
        rw [greedy_cons]
        cases hp : p letter with
        | true => cases greedy p next rest <;> simp [hnext]
        | false => simpa using hnext
  obtain ⟨result, hresult⟩ := Option.isSome_iff_exists.1 hrest
  rw [greedy_append next hword hresult]
  rfl

/-- The matcher finds something wherever there is a way to match. -/
theorem Parses.run_isSome {expression : Regex α} {next : List α → Captures α → Option β}
    {word rest : List α} {groups groups' : Captures α}
    (hparses : expression.Parses word groups groups') (hnext : (next rest groups').isSome) :
    (expression.run next (word ++ rest) groups).isSome := by
  induction expression generalizing next word rest groups groups' with
  | nil =>
      obtain ⟨rfl, rfl⟩ := hparses
      exact hnext
  | one p =>
      obtain ⟨⟨letter, rfl, hletter⟩, rfl⟩ := hparses
      simpa [run_one_cons, hletter] using hnext
  | star p =>
      obtain ⟨hword, rfl⟩ := hparses
      exact greedy_isSome hword hnext
  | seq first second ihfirst ihsecond =>
      obtain ⟨front, back, between, rfl, hfirst, hsecond⟩ := hparses
      rw [run_seq, List.append_assoc]
      exact ihfirst hfirst (ihsecond hsecond hnext)
  | group number body ih =>
      obtain ⟨inner, hbody, rfl⟩ := hparses
      rw [run_group]
      apply ih hbody
      simpa using hnext

theorem Parses.regexMatch_isSome {expression : Regex α} {input : List α} {groups : Captures α}
    (hparses : expression.Parses input (fun _ => none) groups) :
    (expression.regexMatch input).isSome := by
  rw [regexMatch, ← List.append_nil input]
  exact hparses.run_isSome rfl

theorem parses_literal [DecidableEq α] {expected word : List α} {groups groups' : Captures α} :
    (literal expected).Parses word groups groups' ↔ word = expected ∧ groups' = groups := by
  induction expected generalizing word groups with
  | nil => rfl
  | cons letter expected ih =>
      simp only [literal, Parses, decide_eq_true_eq]
      constructor
      · rintro ⟨front, back, between, rfl, ⟨⟨found, rfl, rfl⟩, rfl⟩, hback⟩
        obtain ⟨rfl, rfl⟩ := ih.1 hback
        exact ⟨rfl, rfl⟩
      · rintro ⟨rfl, rfl⟩
        exact ⟨[letter], expected, groups', rfl, ⟨⟨letter, rfl, rfl⟩, rfl⟩, ih.2 ⟨rfl, rfl⟩⟩

theorem parses_plus {p : α → Bool} {word : List α} {groups groups' : Captures α} :
    (plus p).Parses word groups groups' ↔
      word ≠ [] ∧ (∀ letter ∈ word, p letter = true) ∧ groups' = groups := by
  constructor
  · rintro ⟨front, back, between, rfl, ⟨⟨letter, rfl, hletter⟩, rfl⟩, hback, rfl⟩
    exact ⟨List.cons_ne_nil _ _, List.forall_mem_cons.2 ⟨hletter, hback⟩, rfl⟩
  · rintro ⟨hne, hword, rfl⟩
    obtain ⟨letter, rest, rfl⟩ := List.exists_cons_of_ne_nil hne
    obtain ⟨hletter, hrest⟩ := List.forall_mem_cons.1 hword
    exact ⟨[letter], rest, groups', rfl, ⟨⟨letter, rfl, hletter⟩, rfl⟩, hrest, rfl⟩

end Parses

end Regex

end GEDS
