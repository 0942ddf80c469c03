/-
Linearizability of concurrent histories, and sequential orders that grow by
insertion.  An anchor is a position in an order, named by the entry behind it;
`none` is the end.  A late operation may be inserted before an entry that
absorbs it: every state from that entry on, and every answer, stays as it was.
-/
import Mathlib.Data.List.Nodup
import Mathlib.Tactic

namespace GEDS

universe u v w

variable {σ : Type u} {ω : Type v} {ρ : Type w}

/-- Invocations and responses, in the order in which they happen. -/
inductive Event (ω : Type v) (ρ : Type w) where
  | invoke (id : Nat) (call : ω)
  | respond (id : Nat) (response : ρ)

/-- A call placed in a sequential order, with its answer. -/
structure Entry (ω : Type v) (ρ : Type w) where
  id : Nat
  call : ω
  response : ρ

/-- Real-time order: `first` responded before `second` was invoked. -/
def Precedes (history : List (Event ω ρ)) (first second : Nat) : Prop :=
  ∃ earlier later response call,
    history = earlier ++ .invoke second call :: later ∧
      .respond first response ∈ earlier

/-- A response never comes before an invocation of the past. -/
theorem precedes_append_respond {history : List (Event ω ρ)} {id : Nat} {response : ρ}
    {first second : Nat}
    (hprecedes : Precedes (history ++ [.respond id response]) first second) :
    Precedes history first second := by
  obtain ⟨earlier, later, response', call, hsplit, hmem⟩ := hprecedes
  rcases List.eq_nil_or_concat later with rfl | ⟨later', last, rfl⟩
  · have hlast := congrArg List.getLast? hsplit
    simp at hlast
  · rw [List.concat_eq_append, ← List.cons_append, ← List.append_assoc] at hsplit
    obtain ⟨hhistory, _⟩ := List.append_inj' hsplit rfl
    exact ⟨earlier, later', response', call, hhistory, hmem⟩

/-- A fresh invocation comes after past responses only. -/
theorem precedes_append_invoke {history : List (Event ω ρ)} {id : Nat} {call : ω}
    {first second : Nat}
    (hprecedes : Precedes (history ++ [.invoke id call]) first second)
    (hne : second ≠ id) : Precedes history first second := by
  obtain ⟨earlier, later, response', call', hsplit, hmem⟩ := hprecedes
  rcases List.eq_nil_or_concat later with rfl | ⟨later', last, rfl⟩
  · obtain ⟨_, hlast⟩ := List.append_inj' hsplit rfl
    rw [List.cons.injEq, Event.invoke.injEq] at hlast
    exact absurd hlast.1.1.symm hne
  · rw [List.concat_eq_append, ← List.cons_append, ← List.append_assoc] at hsplit
    obtain ⟨hhistory, _⟩ := List.append_inj' hsplit rfl
    exact ⟨earlier, later', response', call', hhistory, hmem⟩

theorem Precedes.responded {history : List (Event ω ρ)} {first second : Nat}
    (hprecedes : Precedes history first second) :
    ∃ response, .respond first response ∈ history := by
  obtain ⟨earlier, later, response, call, rfl, hmem⟩ := hprecedes
  exact ⟨response, List.mem_append_left _ hmem⟩

section Sequential

variable (perform : σ → ω → ρ × σ)

/-- Every entry of the order has the answer of the sequential object. -/
def Legal (state : σ) : List (Entry ω ρ) → Prop
  | [] => True
  | entry :: rest =>
      (perform state entry.call).1 = entry.response ∧
        Legal (perform state entry.call).2 rest

/-- The history has a sequential order of all completed calls, and possibly
some pending ones, that explains the answers and respects real time. -/
def Linearizable (init : σ) (history : List (Event ω ρ)) : Prop :=
  ∃ order : List (Entry ω ρ),
    (order.map Entry.id).Nodup ∧
      (∀ entry ∈ order, .invoke entry.id entry.call ∈ history) ∧
      (∀ id response, .respond id response ∈ history →
        ∃ entry ∈ order, entry.id = id ∧ entry.response = response) ∧
      Legal perform init order ∧
      order.Pairwise fun first second => ¬ Precedes history second.id first.id

/-- The state just before the anchor. -/
def stateBefore (state : σ) : List (Entry ω ρ) → Option Nat → σ
  | [], _ => state
  | entry :: rest, anchor =>
      if some entry.id = anchor then state
      else stateBefore (perform state entry.call).2 rest anchor

theorem stateBefore_nil (state : σ) (anchor : Option Nat) :
    stateBefore perform state [] anchor = state := rfl

theorem stateBefore_cons (state : σ) (entry : Entry ω ρ) (rest : List (Entry ω ρ))
    (anchor : Option Nat) :
    stateBefore perform state (entry :: rest) anchor =
      if some entry.id = anchor then state
      else stateBefore perform (perform state entry.call).2 rest anchor := rfl

end Sequential

/-- Insert an entry at the anchor. -/
def insertBefore (new : Entry ω ρ) : List (Entry ω ρ) → Option Nat → List (Entry ω ρ)
  | [], _ => [new]
  | entry :: rest, anchor =>
      if some entry.id = anchor then new :: entry :: rest
      else entry :: insertBefore new rest anchor

theorem insertBefore_nil (new : Entry ω ρ) (anchor : Option Nat) :
    insertBefore new [] anchor = [new] := rfl

theorem insertBefore_cons (new entry : Entry ω ρ) (rest : List (Entry ω ρ))
    (anchor : Option Nat) :
    insertBefore new (entry :: rest) anchor =
      if some entry.id = anchor then new :: entry :: rest
      else entry :: insertBefore new rest anchor := rfl

/-- The calls from the anchor on. -/
def idsFrom : List (Entry ω ρ) → Option Nat → List Nat
  | [], _ => []
  | entry :: rest, anchor =>
      if some entry.id = anchor then (entry :: rest).map Entry.id
      else idsFrom rest anchor

theorem idsFrom_nil (anchor : Option Nat) : idsFrom ([] : List (Entry ω ρ)) anchor = [] := rfl

theorem idsFrom_cons (entry : Entry ω ρ) (rest : List (Entry ω ρ)) (anchor : Option Nat) :
    idsFrom (entry :: rest) anchor =
      if some entry.id = anchor then (entry :: rest).map Entry.id else idsFrom rest anchor := rfl

/-- The anchor is the end or an entry of the order. -/
def IsAnchor (order : List (Entry ω ρ)) (anchor : Option Nat) : Prop :=
  ∀ id, anchor = some id → id ∈ order.map Entry.id

theorem idsFrom_none (order : List (Entry ω ρ)) : idsFrom order none = [] := by
  induction order with
  | nil => rfl
  | cons entry rest ih => simpa [idsFrom_cons] using ih

theorem isAnchor_none (order : List (Entry ω ρ)) : IsAnchor order none := by
  intro id hid
  exact absurd hid (Option.some_ne_none id).symm

theorem IsAnchor.ne_new {order : List (Entry ω ρ)} {anchor : Option Nat}
    (hanchor : IsAnchor order anchor) {id : Nat} (hnew : id ∉ order.map Entry.id) :
    some id ≠ anchor := by
  intro heq
  exact hnew (hanchor id heq.symm)

/-- Calls are named apart, so a name determines its entry. -/
theorem entry_eq_of_id_eq {order : List (Entry ω ρ)}
    (hnodup : (order.map Entry.id).Nodup) {entry entry' : Entry ω ρ}
    (hentry : entry ∈ order) (hentry' : entry' ∈ order) (hid : entry.id = entry'.id) :
    entry = entry' :=
  List.inj_on_of_nodup_map hnodup hentry hentry' hid

theorem IsAnchor.tail {entry : Entry ω ρ} {rest : List (Entry ω ρ)}
    {anchor : Option Nat} (hanchor : IsAnchor (entry :: rest) anchor)
    (hne : some entry.id ≠ anchor) : IsAnchor rest anchor := by
  intro id heq
  have hmem := hanchor id heq
  rw [List.map_cons, List.mem_cons] at hmem
  exact hmem.resolve_left fun hid => hne (heq ▸ hid ▸ rfl)

theorem insertBefore_perm (new : Entry ω ρ) (order : List (Entry ω ρ))
    (anchor : Option Nat) : (insertBefore new order anchor).Perm (new :: order) := by
  induction order with
  | nil => exact List.Perm.refl _
  | cons entry rest ih =>
      rw [insertBefore_cons]
      split_ifs with hhere
      · exact List.Perm.refl _
      · exact (ih.cons entry).trans (List.Perm.swap new entry rest)

theorem mem_insertBefore_iff (new : Entry ω ρ) (order : List (Entry ω ρ))
    (anchor : Option Nat) (entry : Entry ω ρ) :
    entry ∈ insertBefore new order anchor ↔ entry = new ∨ entry ∈ order := by
  rw [(insertBefore_perm new order anchor).mem_iff, List.mem_cons]

theorem insertBefore_nodup {new : Entry ω ρ} {order : List (Entry ω ρ)}
    {anchor : Option Nat} (hnodup : (order.map Entry.id).Nodup)
    (hnew : new.id ∉ order.map Entry.id) :
    ((insertBefore new order anchor).map Entry.id).Nodup := by
  rw [((insertBefore_perm new order anchor).map Entry.id).nodup_iff, List.map_cons,
    List.nodup_cons]
  exact ⟨hnew, hnodup⟩

theorem IsAnchor.insertBefore {order : List (Entry ω ρ)} {other : Option Nat}
    (hother : IsAnchor order other) (new : Entry ω ρ) (anchor : Option Nat) :
    IsAnchor (GEDS.insertBefore new order anchor) other := by
  intro id heq
  rw [((insertBefore_perm new order anchor).map Entry.id).mem_iff, List.map_cons]
  exact List.mem_cons_of_mem _ (hother id heq)

/-- Behind any old anchor, an insertion adds at most the new entry. -/
theorem mem_idsFrom_insertBefore {new : Entry ω ρ} {order : List (Entry ω ρ)}
    {anchor other : Option Nat} {id : Nat} (hnew : some new.id ≠ other)
    (hmem : id ∈ idsFrom (insertBefore new order anchor) other) :
    id = new.id ∨ id ∈ idsFrom order other := by
  induction order with
  | nil => simp [insertBefore_nil, idsFrom_cons, idsFrom_nil, hnew] at hmem
  | cons entry rest ih =>
      rw [insertBefore_cons] at hmem
      split_ifs at hmem with hhere
      · rw [idsFrom_cons, if_neg hnew] at hmem
        exact Or.inr hmem
      · rw [idsFrom_cons] at hmem ⊢
        split_ifs at hmem ⊢ with hentry
        · rw [List.map_cons, List.mem_cons,
            ((insertBefore_perm new rest anchor).map Entry.id).mem_iff,
            List.map_cons, List.mem_cons] at hmem
          rw [List.map_cons, List.mem_cons]
          tauto
        · exact ih hmem

theorem idsFrom_insertBefore_self {new : Entry ω ρ} {order : List (Entry ω ρ)}
    {anchor : Option Nat} (hnew : new.id ∉ order.map Entry.id) :
    idsFrom (insertBefore new order anchor) (some new.id) =
      new.id :: idsFrom order anchor := by
  induction order with
  | nil => simp [insertBefore_nil, idsFrom_cons, idsFrom_nil]
  | cons entry rest ih =>
      rw [List.map_cons, List.mem_cons, not_or] at hnew
      have hne : some entry.id ≠ some new.id := by
        simpa using Ne.symm hnew.1
      rw [insertBefore_cons]
      split_ifs with hhere
      · simp [idsFrom_cons, hhere]
      · rw [idsFrom_cons, if_neg hne, ih hnew.2, idsFrom_cons, if_neg hhere]

/-- A pairwise relation survives an insertion that respects it on both
sides. -/
theorem pairwise_insertBefore {R : Nat → Nat → Prop} {new : Entry ω ρ}
    {order : List (Entry ω ρ)} {anchor : Option Nat}
    (horder : order.Pairwise fun first second => R first.id second.id)
    (hbefore : ∀ entry ∈ order, R entry.id new.id)
    (hbehind : ∀ id ∈ idsFrom order anchor, R new.id id) :
    (insertBefore new order anchor).Pairwise fun first second =>
      R first.id second.id := by
  induction order with
  | nil => simp [insertBefore_nil]
  | cons entry rest ih =>
      rw [insertBefore_cons]
      rw [idsFrom_cons] at hbehind
      split_ifs at hbehind ⊢ with hhere
      · rw [List.pairwise_cons]
        exact ⟨fun other hother => hbehind _ (List.mem_map_of_mem hother), horder⟩
      · rw [List.pairwise_cons] at horder ⊢
        refine ⟨?_, ih horder.2 (fun other hother => hbefore other
          (List.mem_cons_of_mem entry hother)) hbehind⟩
        intro other hother
        rcases (mem_insertBefore_iff new rest anchor other).mp hother with rfl | hold
        · exact hbefore entry List.mem_cons_self
        · exact horder.1 other hold

section States

variable {perform : σ → ω → ρ × σ}

/-- The entry at the anchor behaves the same with the new call run just
before it. -/
def AbsorbedAt (perform : σ → ω → ρ × σ) (state : σ) (order : List (Entry ω ρ))
    (anchor : Option Nat) (call : ω) : Prop :=
  ∀ entry ∈ order, some entry.id = anchor →
    perform (perform (stateBefore perform state order anchor) call).2 entry.call =
      perform (stateBefore perform state order anchor) entry.call

theorem AbsorbedAt.tail {state : σ} {entry : Entry ω ρ} {rest : List (Entry ω ρ)}
    {anchor : Option Nat} {call : ω}
    (habsorb : AbsorbedAt perform state (entry :: rest) anchor call)
    (hne : some entry.id ≠ anchor) :
    AbsorbedAt perform (perform state entry.call).2 rest anchor call := by
  intro other hother hanchor
  have h := habsorb other (List.mem_cons_of_mem entry hother) hanchor
  simpa only [stateBefore_cons, hne, ↓reduceIte] using h

/-- Nothing stands behind the end. -/
theorem absorbedAt_none (state : σ) (order : List (Entry ω ρ)) (call : ω) :
    AbsorbedAt perform state order none call := by
  intro entry _ hentry
  exact absurd hentry (Option.some_ne_none entry.id)

/-- It is enough to look at the entry the anchor names. -/
theorem AbsorbedAt.of_entry {state : σ} {order : List (Entry ω ρ)} {entry : Entry ω ρ}
    {call : ω} (hnodup : (order.map Entry.id).Nodup) (hmem : entry ∈ order)
    (hsame : perform (perform (stateBefore perform state order (some entry.id)) call).2
        entry.call =
      perform (stateBefore perform state order (some entry.id)) entry.call) :
    AbsorbedAt perform state order (some entry.id) call := by
  intro other hother hid
  have heq := entry_eq_of_id_eq hnodup hother hmem (Option.some.inj hid)
  rw [heq]
  exact hsame

theorem legal_insertBefore {state : σ} {order : List (Entry ω ρ)} {new : Entry ω ρ}
    {anchor : Option Nat} (hlegal : Legal perform state order)
    (hanswer : (perform (stateBefore perform state order anchor) new.call).1 =
      new.response)
    (habsorb : AbsorbedAt perform state order anchor new.call) :
    Legal perform state (insertBefore new order anchor) := by
  induction order generalizing state with
  | nil => exact ⟨hanswer, trivial⟩
  | cons entry rest ih =>
      rw [insertBefore_cons]
      split_ifs with hhere
      · have hsame := habsorb entry List.mem_cons_self hhere
        rw [stateBefore_cons, if_pos hhere] at hanswer hsame
        refine ⟨hanswer, ?_⟩
        rw [Legal, hsame]
        exact hlegal
      · rw [stateBefore_cons, if_neg hhere] at hanswer
        exact ⟨hlegal.1, ih hlegal.2 hanswer (habsorb.tail hhere)⟩

/-- At its own anchor, an insertion appends the new call. -/
theorem stateBefore_insertBefore_anchor {state : σ} {order : List (Entry ω ρ)}
    {new : Entry ω ρ} {anchor : Option Nat} (hnew : some new.id ≠ anchor) :
    stateBefore perform state (insertBefore new order anchor) anchor =
      (perform (stateBefore perform state order anchor) new.call).2 := by
  induction order generalizing state with
  | nil => simp [insertBefore_nil, stateBefore_cons, stateBefore_nil, hnew]
  | cons entry rest ih =>
      rw [insertBefore_cons, stateBefore_cons perform state entry rest]
      split_ifs with hhere
      · simp [stateBefore_cons, hnew, hhere]
      · simp only [stateBefore_cons, hhere, ↓reduceIte]
        exact ih

/-- An absorbed insertion is invisible at every other anchor. -/
theorem stateBefore_insertBefore_other {state : σ} {order : List (Entry ω ρ)}
    {new : Entry ω ρ} {anchor other : Option Nat}
    (habsorb : AbsorbedAt perform state order anchor new.call)
    (hanchor : IsAnchor order anchor) (hother : IsAnchor order other)
    (hne : other ≠ anchor) (hnew : some new.id ≠ other) :
    stateBefore perform state (insertBefore new order anchor) other =
      stateBefore perform state order other := by
  induction order generalizing state with
  | nil =>
      have hend : ∀ position : Option Nat, IsAnchor ([] : List (Entry ω ρ)) position →
          position = none := by
        intro position hposition
        cases position with
        | none => rfl
        | some id => simpa using hposition id rfl
      exact absurd ((hend other hother).trans (hend anchor hanchor).symm) hne
  | cons entry rest ih =>
      rw [insertBefore_cons]
      split_ifs with hhere
      · have hsame := habsorb entry List.mem_cons_self hhere
        rw [stateBefore_cons, if_pos hhere] at hsame
        have hentry : some entry.id ≠ other := fun h => hne (h.symm.trans hhere)
        rw [stateBefore_cons, if_neg hnew, stateBefore_cons, if_neg hentry, hsame,
          stateBefore_cons, if_neg hentry]
      · rw [stateBefore_cons, stateBefore_cons]
        split_ifs with hentry
        · rfl
        · exact ih (habsorb.tail hhere) (hanchor.tail hhere) (hother.tail hentry)

/-- Just before the new entry the state is that of its anchor. -/
theorem stateBefore_insertBefore_new {state : σ} {order : List (Entry ω ρ)}
    {new : Entry ω ρ} {anchor : Option Nat} (hnew : new.id ∉ order.map Entry.id) :
    stateBefore perform state (insertBefore new order anchor) (some new.id) =
      stateBefore perform state order anchor := by
  induction order generalizing state with
  | nil => simp [insertBefore_nil, stateBefore_cons, stateBefore_nil]
  | cons entry rest ih =>
      rw [List.map_cons, List.mem_cons, not_or] at hnew
      have hne : some entry.id ≠ some new.id := by
        simpa using Ne.symm hnew.1
      rw [insertBefore_cons]
      split_ifs with hhere
      · simp [stateBefore_cons, hhere]
      · rw [stateBefore_cons, if_neg hne, stateBefore_cons, if_neg hhere]
        exact ih hnew.2

/-- Legality moves along an abstraction that commutes with the calls. -/
theorem Legal.of_abstraction {τ : Type u} {performAbs : τ → ω → ρ × τ}
    {Inv : σ → Prop} {abstraction : σ → τ}
    (hstep : ∀ state call, Inv state →
      (perform state call).1 = (performAbs (abstraction state) call).1 ∧
        abstraction (perform state call).2 =
          (performAbs (abstraction state) call).2 ∧
        Inv (perform state call).2)
    {state : σ} (hinv : Inv state) {order : List (Entry ω ρ)}
    (hlegal : Legal performAbs (abstraction state) order) :
    Legal perform state order := by
  induction order generalizing state with
  | nil => trivial
  | cons entry rest ih =>
      obtain ⟨hanswer, hstate, hinv'⟩ := hstep state entry.call hinv
      refine ⟨hanswer.trans hlegal.1, ih hinv' ?_⟩
      rw [hstate]
      exact hlegal.2

end States

end GEDS
