/-
Programs that share a state under locks, and run in any interleaving.  A lock is held shared or
exclusively; what is taken last is given back first.  Programs that take their locks in an
order never block each other, and what some locks guard stays as long as one of them is held.
-/
import Mathlib.Data.Finset.Max
import Mathlib.Logic.Hydra
import Mathlib.Tactic

namespace GEDS

namespace LockedPrograms

inductive LockMode where
  | shared
  | exclusive
deriving DecidableEq

/-- What is left of a call.  A step changes the shared state, with an answer of the world.
Between `enter` and `leave` the program works with a part of the shared state that it has read
at `enter`. -/
inductive Program (ℓ κ σ ω τ : Type) where
  | done
  | acquire (lock : ℓ) (mode : LockMode) (next : Program ℓ κ σ ω τ)
  | release (next : Program ℓ κ σ ω τ)
  | step (effect : σ → ω → σ) (next : σ → ω → Program ℓ κ σ ω τ)
  | enter (part : κ) (next : τ → Program ℓ κ σ ω τ)
  | leave (next : Program ℓ κ σ ω τ)

/-- A call that runs, with its locks and the parts it works with. -/
structure Thread (ℓ κ σ ω τ : Type) where
  program : Program ℓ κ σ ω τ
  held : List (ℓ × LockMode)
  relies : List (κ × τ)

structure System (ℓ κ σ ω τ : Type) where
  shared : σ
  threads : List (Thread ℓ κ σ ω τ)

/-- A call begins, or one that runs makes a step. -/
inductive Event (ℓ κ σ ω τ : Type) where
  | call (program : Program ℓ κ σ ω τ)
  | advance (index : Nat) (answer : ω)

variable {ℓ κ σ ω τ : Type}

def Event.program : Event ℓ κ σ ω τ → Option (Program ℓ κ σ ω τ)
  | .call program => some program
  | .advance _ _ => none

section Run

variable [DecidableEq ℓ] (recursive : ℓ → Bool) (view : κ → σ → τ)

/-- One of the two ways to hold the lock is exclusive. -/
def Thread.conflicts (thread : Thread ℓ κ σ ω τ) (lock : ℓ) (mode : LockMode) : Bool :=
  thread.held.any fun hold =>
    decide (hold.1 = lock) && (decide (mode = .exclusive) || decide (hold.2 = .exclusive))

def Thread.holds (thread : Thread ℓ κ σ ω τ) (lock : ℓ) : Bool :=
  thread.held.any fun hold => decide (hold.1 = lock)

/-- Whoever has a lock may take it once more only if it is recursive. -/
def System.mayAcquire (system : System ℓ κ σ ω τ) (index : Nat) (lock : ℓ) (mode : LockMode) :
    Bool :=
  (List.range system.threads.length).all fun other =>
    system.threads[other]?.all fun thread =>
      if other = index then recursive lock || !thread.holds lock
      else !thread.conflicts lock mode

/-- `none` if the thread waits for a lock, or if there is nothing left to do. -/
def Thread.advance (system : System ℓ κ σ ω τ) (index : Nat) (answer : ω)
    (thread : Thread ℓ κ σ ω τ) : Option (σ × Thread ℓ κ σ ω τ) :=
  match thread.program with
  | .done => none
  | .acquire lock mode next =>
      if system.mayAcquire recursive index lock mode then
        some (system.shared, ⟨next, (lock, mode) :: thread.held, thread.relies⟩)
      else none
  | .release next => some (system.shared, ⟨next, thread.held.tail, thread.relies⟩)
  | .step effect next =>
      some (effect system.shared answer,
        ⟨next system.shared answer, thread.held, thread.relies⟩)
  | .enter part next =>
      some (system.shared,
        ⟨next (view part system.shared), thread.held,
          (part, view part system.shared) :: thread.relies⟩)
  | .leave next => some (system.shared, ⟨next, thread.held, thread.relies.tail⟩)

def System.perform (system : System ℓ κ σ ω τ) :
    Event ℓ κ σ ω τ → Option (System ℓ κ σ ω τ)
  | .call program => some ⟨system.shared, system.threads ++ [⟨program, [], []⟩]⟩
  | .advance index answer =>
      match system.threads[index]? with
      | none => none
      | some thread =>
          (thread.advance recursive view system index answer).map fun result =>
            ⟨result.1, system.threads.set index result.2⟩

def System.run (system : System ℓ κ σ ω τ) (events : List (Event ℓ κ σ ω τ)) :
    Option (System ℓ κ σ ω τ) :=
  events.foldlM (System.perform recursive view) system

end Run

section Disciplines

/-- A lock is taken after those of smaller rank, and behind its gate if it has one.  There are
two ways out of the order: a recursive lock is taken again, and whoever has the gate for itself
may take the lock at any time. -/
structure MayTake (recursive : ℓ → Bool) (rank : ℓ → Nat) (gate : ℓ → Option ℓ)
    (held : List (ℓ × LockMode)) (lock : ℓ) : Prop where
  inOrder : (∀ hold ∈ held, rank hold.1 < rank lock) ∨
    (recursive lock = true ∧ (lock, LockMode.exclusive) ∈ held) ∨
    ∃ front, gate lock = some front ∧ (front, LockMode.exclusive) ∈ held ∧
      ∀ hold ∈ held, hold.1 ≠ lock
  behindGate : ∀ front, gate lock = some front → ∃ hold ∈ held, hold.1 = front

/-- The program takes its locks in order. -/
def Ordered (recursive : ℓ → Bool) (rank : ℓ → Nat) (gate : ℓ → Option ℓ) :
    List (ℓ × LockMode) → Program ℓ κ σ ω τ → Prop
  | _, .done => True
  | held, .acquire lock mode next =>
      MayTake recursive rank gate held lock ∧
        Ordered recursive rank gate ((lock, mode) :: held) next
  | held, .release next => Ordered recursive rank gate held.tail next
  | held, .step _ next => ∀ state answer, Ordered recursive rank gate held (next state answer)
  | held, .enter _ next => ∀ value, Ordered recursive rank gate held (next value)
  | held, .leave next => Ordered recursive rank gate held next

/-- Every lock on the stack lies above its gate. -/
def Gated (gate : ℓ → Option ℓ) : List (ℓ × LockMode) → Prop
  | [] => True
  | (lock, _) :: rest =>
      (∀ front, gate lock = some front → ∃ hold ∈ rest, hold.1 = front) ∧ Gated gate rest

/-- Who reads a part has one of the locks that guard it. -/
def MayRead (guards : List ℓ) (held : List (ℓ × LockMode)) : Prop :=
  ∃ hold ∈ held, hold.1 ∈ guards

/-- Who changes a part has all of the locks that guard it for itself. -/
def MayWrite (guards : List ℓ) (held : List (ℓ × LockMode)) : Prop :=
  ∀ lock ∈ guards, (lock, LockMode.exclusive) ∈ held

/-- The program works with each part only under its locks, and has none at its end. -/
def Guarded (view : κ → σ → τ) (guards : κ → List ℓ) :
    List (ℓ × LockMode) → List κ → Program ℓ κ σ ω τ → Prop
  | held, _, .done => held = []
  | held, inside, .acquire lock mode next => Guarded view guards ((lock, mode) :: held) inside next
  | held, inside, .release next =>
      (∀ part ∈ inside, MayRead (guards part) held.tail) ∧
        Guarded view guards held.tail inside next
  | held, inside, .step effect next =>
      (∀ part, (∀ state answer, view part (effect state answer) = view part state) ∨
        MayWrite (guards part) held ∧ part ∉ inside) ∧
      ∀ state answer, Guarded view guards held inside (next state answer)
  | held, inside, .enter part next =>
      MayRead (guards part) held ∧ ∀ value, Guarded view guards held (part :: inside) (next value)
  | held, inside, .leave next => Guarded view guards held inside.tail next

end Disciplines

/-- What stands at a place after one element was exchanged. -/
theorem getElem?_set_cases {α : Type} {list : List α} {index other : Nat} {new found : α}
    (hfound : (list.set index new)[other]? = some found) :
    other = index ∧ found = new ∨ other ≠ index ∧ list[other]? = some found := by
  rw [List.getElem?_set] at hfound
  split_ifs at hfound with hsame hlt
  · exact Or.inl ⟨hsame.symm, (Option.some.inj hfound).symm⟩
  · exact Or.inr ⟨fun h => hsame h.symm, hfound⟩

section Steps

variable [DecidableEq ℓ] {recursive : ℓ → Bool} {view : κ → σ → τ}

/-- The steps of a thread, one constructor for each. -/
inductive Thread.Step (recursive : ℓ → Bool) (view : κ → σ → τ) (system : System ℓ κ σ ω τ)
    (index : Nat) : Thread ℓ κ σ ω τ → σ → Thread ℓ κ σ ω τ → Prop
  | acquire {lock mode next held relies}
      (hfree : system.mayAcquire recursive index lock mode = true) :
      Step recursive view system index ⟨.acquire lock mode next, held, relies⟩ system.shared
        ⟨next, (lock, mode) :: held, relies⟩
  | release {next held relies} :
      Step recursive view system index ⟨.release next, held, relies⟩ system.shared
        ⟨next, held.tail, relies⟩
  | step {effect next held relies} (answer : ω) :
      Step recursive view system index ⟨.step effect next, held, relies⟩
        (effect system.shared answer) ⟨next system.shared answer, held, relies⟩
  | enter {part next held relies} :
      Step recursive view system index ⟨.enter part next, held, relies⟩ system.shared
        ⟨next (view part system.shared), held, (part, view part system.shared) :: relies⟩
  | leave {next held relies} :
      Step recursive view system index ⟨.leave next, held, relies⟩ system.shared
        ⟨next, held, relies.tail⟩

variable {system system' : System ℓ κ σ ω τ} {index : Nat} {thread thread' : Thread ℓ κ σ ω τ}
  {shared : σ} {answer : ω}

theorem step_of_advance
    (hstep : thread.advance recursive view system index answer = some (shared, thread')) :
    thread.Step recursive view system index shared thread' := by
  obtain ⟨program, held, relies⟩ := thread
  cases program with
  | done => exact absurd hstep (Option.some_ne_none _).symm
  | acquire lock mode next =>
      simp only [Thread.advance] at hstep
      split_ifs at hstep with hfree
      obtain ⟨rfl, rfl⟩ := Prod.mk.inj (Option.some.inj hstep)
      exact .acquire hfree
  | release next =>
      obtain ⟨rfl, rfl⟩ := Prod.mk.inj (Option.some.inj hstep)
      exact .release
  | step effect next =>
      obtain ⟨rfl, rfl⟩ := Prod.mk.inj (Option.some.inj hstep)
      exact .step answer
  | enter part next =>
      obtain ⟨rfl, rfl⟩ := Prod.mk.inj (Option.some.inj hstep)
      exact .enter
  | leave next =>
      obtain ⟨rfl, rfl⟩ := Prod.mk.inj (Option.some.inj hstep)
      exact .leave

/-- What an event does: a thread is added, or one of them makes a step. -/
theorem perform_cases {event : Event ℓ κ σ ω τ}
    (hevent : system.perform recursive view event = some system') :
    (∃ program, event = .call program ∧
      system' = ⟨system.shared, system.threads ++ [⟨program, [], []⟩]⟩) ∨
    ∃ index answer thread shared thread', event = .advance index answer ∧
      system.threads[index]? = some thread ∧ thread.Step recursive view system index shared thread' ∧
      system' = ⟨shared, system.threads.set index thread'⟩ := by
  cases event with
  | call program => exact Or.inl ⟨program, rfl, (Option.some.inj hevent).symm⟩
  | advance index answer =>
      rw [System.perform] at hevent
      cases hthread : system.threads[index]? with
      | none => simp [hthread] at hevent
      | some thread =>
          simp only [hthread] at hevent
          obtain ⟨⟨shared, thread'⟩, hadvance, hsystem⟩ := Option.map_eq_some_iff.1 hevent
          exact Or.inr ⟨index, answer, thread, shared, thread', rfl, hthread,
            step_of_advance hadvance, hsystem.symm⟩

omit [DecidableEq ℓ] in
theorem mem_of_mem_call {program : Program ℓ κ σ ω τ}
    (hmem : thread ∈ system.threads ++ [⟨program, [], []⟩]) :
    thread ∈ system.threads ∨ thread = ⟨program, [], []⟩ := by
  rcases List.mem_append.1 hmem with hold | hnew
  · exact Or.inl hold
  · exact Or.inr (List.mem_singleton.1 hnew)

end Steps

/-- Two threads hold the same lock only if both hold it shared. -/
def System.Exclusive (system : System ℓ κ σ ω τ) : Prop :=
  ∀ (i j : Nat) (first second : Thread ℓ κ σ ω τ), i ≠ j → system.threads[i]? = some first →
    system.threads[j]? = some second → ∀ lock mode, (lock, LockMode.exclusive) ∈ first.held →
      (lock, mode) ∉ second.held

section Exclusion

variable [DecidableEq ℓ] {recursive : ℓ → Bool} {view : κ → σ → τ}
  {system system' : System ℓ κ σ ω τ} {index : Nat} {thread thread' : Thread ℓ κ σ ω τ}
  {shared : σ}

theorem conflicts_eq_false_iff {lock : ℓ} {mode : LockMode} :
    thread.conflicts lock mode = false ↔
      ∀ held, (lock, held) ∈ thread.held → mode ≠ .exclusive ∧ held ≠ .exclusive := by
  simp only [Thread.conflicts, List.any_eq_false, Bool.and_eq_true, Bool.or_eq_true,
    decide_eq_true_eq, Prod.forall, not_and, not_or]
  constructor
  · intro h held hheld
    exact h lock held hheld rfl
  · rintro h lock' held hheld rfl
    exact h held hheld

theorem holds_eq_false_iff {lock : ℓ} :
    thread.holds lock = false ↔ ∀ hold ∈ thread.held, hold.1 ≠ lock := by
  simp only [Thread.holds, List.any_eq_false, decide_eq_true_eq, ne_eq]

theorem mayAcquire_iff {lock : ℓ} {mode : LockMode} :
    system.mayAcquire recursive index lock mode = true ↔
      (∀ thread, system.threads[index]? = some thread →
        recursive lock = true ∨ thread.holds lock = false) ∧
      ∀ other thread, other ≠ index → system.threads[other]? = some thread →
        thread.conflicts lock mode = false := by
  simp only [System.mayAcquire, List.all_eq_true, List.mem_range]
  constructor
  · intro h
    refine ⟨fun thread hthread => ?_, fun other thread hne hthread => ?_⟩
    · have hfree := h index (List.getElem?_eq_some_iff.1 hthread).1
      rwa [hthread, Option.all_some, if_pos rfl, Bool.or_eq_true, Bool.not_eq_true'] at hfree
    · have hfree := h other (List.getElem?_eq_some_iff.1 hthread).1
      rwa [hthread, Option.all_some, if_neg hne, Bool.not_eq_true'] at hfree
  · rintro ⟨hown, hother⟩ other -
    cases hthread : system.threads[other]? with
    | none => rfl
    | some thread =>
        rw [Option.all_some]
        split_ifs with hsame
        · subst hsame
          rw [Bool.or_eq_true, Bool.not_eq_true']
          exact hown thread hthread
        · rw [Bool.not_eq_true']
          exact hother other thread hsame hthread

/-- What a step does to the locks of its thread: it takes one that is free, gives back the
last one, or leaves them. -/
theorem Thread.Step.held (hstep : thread.Step recursive view system index shared thread') :
    (∃ lock mode, system.mayAcquire recursive index lock mode = true ∧
      thread'.held = (lock, mode) :: thread.held) ∨ thread'.held ⊆ thread.held := by
  cases hstep with
  | acquire hfree => exact Or.inl ⟨_, _, hfree, rfl⟩
  | release => exact Or.inr (List.tail_subset _)
  | step answer => exact Or.inr (List.Subset.refl _)
  | enter => exact Or.inr (List.Subset.refl _)
  | leave => exact Or.inr (List.Subset.refl _)

theorem System.Exclusive.advance (h : system.Exclusive)
    (hthread : system.threads[index]? = some thread)
    (hstep : thread.Step recursive view system index shared thread') :
    System.Exclusive ⟨shared, system.threads.set index thread'⟩ := by
  have hold : ∀ {other found}, other ≠ index → system.threads[other]? = some found →
      ∀ {lock mode held}, (lock, mode) ∈ thread'.held → (lock, held) ∈ found.held →
        mode ≠ .exclusive ∧ held ≠ .exclusive := by
    intro other found hne hfound lock mode held hmine htheirs
    have hkept : (lock, mode) ∈ thread.held → mode ≠ .exclusive ∧ held ≠ .exclusive := by
      intro hmine
      refine ⟨?_, ?_⟩
      · rintro rfl
        exact h index other thread found (Ne.symm hne) hthread hfound lock held hmine htheirs
      · rintro rfl
        exact h other index found thread hne hfound hthread lock mode htheirs hmine
    rcases hstep.held with ⟨taken, as, hfree, hheld⟩ | hfewer
    · rw [hheld] at hmine
      rcases List.mem_cons.1 hmine with heq | hmine
      · obtain ⟨rfl, rfl⟩ := Prod.mk.inj heq
        exact conflicts_eq_false_iff.1 ((mayAcquire_iff.1 hfree).2 other found hne hfound) held
          htheirs
      · exact hkept hmine
    · exact hkept (hfewer hmine)
  intro i j first second hij hfirst hsecond lock mode hexclusive hheld
  rcases getElem?_set_cases hfirst with ⟨rfl, rfl⟩ | ⟨hi, hfirst'⟩
  · rcases getElem?_set_cases hsecond with ⟨rfl, -⟩ | ⟨hj, hsecond'⟩
    · exact hij rfl
    · exact (hold hj hsecond' hexclusive hheld).1 rfl
  · rcases getElem?_set_cases hsecond with ⟨rfl, rfl⟩ | ⟨hj, hsecond'⟩
    · exact (hold hi hfirst' hheld hexclusive).2 rfl
    · exact h i j first second hij hfirst' hsecond' lock mode hexclusive hheld

omit [DecidableEq ℓ] in
theorem System.Exclusive.call (h : system.Exclusive) (program : Program ℓ κ σ ω τ) :
    System.Exclusive ⟨system.shared, system.threads ++ [⟨program, [], []⟩]⟩ := by
  have hcases : ∀ {i : Nat} {found : Thread ℓ κ σ ω τ},
      (system.threads ++ [⟨program, [], []⟩])[i]? = some found →
        system.threads[i]? = some found ∨ found.held = [] := by
    intro i found hfound
    rw [List.getElem?_append] at hfound
    split_ifs at hfound with hlt
    · exact Or.inl hfound
    · have hmem := List.mem_of_getElem? hfound
      rw [List.mem_singleton] at hmem
      rw [hmem]
      exact Or.inr rfl
  intro i j first second hij hfirst hsecond lock mode hexclusive hheld
  rcases hcases hfirst with hfirst | hnil
  · rcases hcases hsecond with hsecond | hnil
    · exact h i j first second hij hfirst hsecond lock mode hexclusive hheld
    · rw [hnil] at hheld
      cases hheld
  · rw [hnil] at hexclusive
    cases hexclusive

end Exclusion

section Guards

variable [DecidableEq ℓ] {recursive : ℓ → Bool} {view : κ → σ → τ} {guards : κ → List ℓ}
  {system system' : System ℓ κ σ ω τ}

/-- The thread works with parts as they are, and under their locks. -/
structure Thread.Relies (view : κ → σ → τ) (guards : κ → List ℓ) (shared : σ)
    (thread : Thread ℓ κ σ ω τ) : Prop where
  guarded : Guarded view guards thread.held (thread.relies.map Prod.fst) thread.program
  mayRead : ∀ part ∈ thread.relies.map Prod.fst, MayRead (guards part) thread.held
  current : ∀ pair ∈ thread.relies, view pair.1 shared = pair.2

omit [DecidableEq ℓ] in
theorem MayRead.cons {locks : List ℓ} {held : List (ℓ × LockMode)} (h : MayRead locks held)
    (hold : ℓ × LockMode) : MayRead locks (hold :: held) := by
  obtain ⟨mine, hmine, hlock⟩ := h
  exact ⟨mine, List.mem_cons_of_mem _ hmine, hlock⟩

omit [DecidableEq ℓ] in
/-- Who reads has a lock that nobody else can have for himself. -/
theorem not_mayWrite (hexclusive : system.Exclusive) {i j : Nat} {first second : Thread ℓ κ σ ω τ}
    (hij : i ≠ j) (hfirst : system.threads[i]? = some first)
    (hsecond : system.threads[j]? = some second) {locks : List ℓ}
    (hread : MayRead locks first.held) : ¬ MayWrite locks second.held := by
  intro hwrite
  obtain ⟨⟨lock, mode⟩, hhold, hguard⟩ := hread
  exact hexclusive j i second first hij.symm hsecond hfirst lock mode (hwrite lock hguard) hhold

/-- A step keeps a part, or its thread has all of the locks of the part to itself. -/
theorem Thread.Relies.advance {thread thread' : Thread ℓ κ σ ω τ} {index : Nat} {shared : σ}
    (h : thread.Relies view guards system.shared)
    (hstep : thread.Step recursive view system index shared thread') :
    thread'.Relies view guards shared ∧ ∀ part,
      view part shared = view part system.shared ∨ MayWrite (guards part) thread.held := by
  obtain ⟨hguarded, hread, hcurrent⟩ := h
  cases hstep with
  | acquire hfree =>
      exact ⟨⟨hguarded, fun part hpart => (hread part hpart).cons _, hcurrent⟩,
        fun part => Or.inl rfl⟩
  | release => exact ⟨⟨hguarded.2, hguarded.1, hcurrent⟩, fun part => Or.inl rfl⟩
  | step answer =>
      refine ⟨⟨hguarded.2 system.shared answer, hread, fun pair hpair => ?_⟩, fun part => ?_⟩
      · rcases hguarded.1 pair.1 with hkeeps | ⟨-, houtside⟩
        · rw [hkeeps]
          exact hcurrent pair hpair
        · exact absurd (List.mem_map_of_mem hpair) houtside
      · rcases hguarded.1 part with hkeeps | ⟨hwrite, -⟩
        · exact Or.inl (hkeeps system.shared answer)
        · exact Or.inr hwrite
  | enter =>
      refine ⟨⟨hguarded.2 _, fun part hpart => ?_, fun pair hpair => ?_⟩, fun part => Or.inl rfl⟩
      · rcases List.mem_cons.1 hpart with rfl | hbefore
        · exact hguarded.1
        · exact hread part hbefore
      · rcases List.mem_cons.1 hpair with rfl | hbefore
        · rfl
        · exact hcurrent pair hbefore
  | leave =>
      refine ⟨⟨?_, fun part hpart => ?_, fun pair hpair => ?_⟩, fun part => Or.inl rfl⟩
      · rw [List.map_tail]
        exact hguarded
      · rw [List.map_tail] at hpart
        exact hread part (List.mem_of_mem_tail hpart)
      · exact hcurrent pair (List.mem_of_mem_tail hpair)

/-- Exclusion holds, and each thread keeps to the guards. -/
structure System.Guarding (view : κ → σ → τ) (guards : κ → List ℓ)
    (system : System ℓ κ σ ω τ) : Prop where
  exclusive : system.Exclusive
  relies : ∀ thread ∈ system.threads, thread.Relies view guards system.shared

omit [DecidableEq ℓ] in
theorem System.Guarding.start (shared : σ) :
    System.Guarding view guards (⟨shared, []⟩ : System ℓ κ σ ω τ) :=
  ⟨fun _ _ _ _ _ hfirst => absurd (List.mem_of_getElem? hfirst) List.not_mem_nil,
    fun _ hmem => absurd hmem List.not_mem_nil⟩

theorem System.Guarding.perform (h : system.Guarding view guards) {event : Event ℓ κ σ ω τ}
    (hcall : ∀ program, event = .call program → Guarded view guards [] [] program)
    (hevent : system.perform recursive view event = some system') :
    system'.Guarding view guards := by
  rcases perform_cases hevent with ⟨program, hprogram, rfl⟩ |
    ⟨index, answer, thread, shared, thread', -, hthread, hstep, rfl⟩
  · refine ⟨h.exclusive.call program, fun thread hthread => ?_⟩
    rcases mem_of_mem_call hthread with hold | rfl
    · exact h.relies thread hold
    · exact ⟨hcall program hprogram, fun part hpart => absurd hpart List.not_mem_nil,
        fun pair hpair => absurd hpair List.not_mem_nil⟩
  · obtain ⟨hrelies, hchange⟩ := (h.relies thread (List.mem_of_getElem? hthread)).advance hstep
    refine ⟨h.exclusive.advance hthread hstep, fun other hother => ?_⟩
    obtain ⟨place, hplace⟩ := List.mem_iff_getElem?.1 hother
    rcases getElem?_set_cases hplace with ⟨-, rfl⟩ | ⟨hne, hold⟩
    · exact hrelies
    · -- the thread did not write what the other one works with
      obtain ⟨hguarded, hread, hcurrent⟩ := h.relies other (List.mem_of_getElem? hold)
      refine ⟨hguarded, hread, fun pair hpair => ?_⟩
      rcases hchange pair.1 with hsame | hwrite
      · exact hsame.trans (hcurrent pair hpair)
      · exact absurd hwrite (not_mayWrite h.exclusive hne hold hthread
          (hread pair.1 (List.mem_map_of_mem hpair)))

/-- In every state of a run everybody works with the parts as they are. -/
theorem System.Guarding.run (h : system.Guarding view guards) {events : List (Event ℓ κ σ ω τ)}
    (hcalls : ∀ program, Event.call program ∈ events → Guarded view guards [] [] program)
    (hrun : system.run recursive view events = some system') : system'.Guarding view guards := by
  induction events generalizing system with
  | nil =>
      obtain rfl := Option.some.inj hrun
      exact h
  | cons event rest ih =>
      rw [System.run, List.foldlM_cons] at hrun
      obtain ⟨next, hnext, hrest⟩ := Option.bind_eq_some_iff.1 hrun
      have hguarding := h.perform
        (fun program hprogram => hcalls program (hprogram ▸ List.mem_cons_self)) hnext
      exact ih hguarding (fun program hmem => hcalls program (List.mem_cons_of_mem _ hmem)) hrest

end Guards

section Order

variable [DecidableEq ℓ] {recursive : ℓ → Bool} {rank : ℓ → Nat} {gate : ℓ → Option ℓ}
  {view : κ → σ → τ} {system system' : System ℓ κ σ ω τ}

/-- The locks of a thread lie above their gates, and what is left of it takes the others in
order. -/
def Thread.InOrder (recursive : ℓ → Bool) (rank : ℓ → Nat) (gate : ℓ → Option ℓ)
    (thread : Thread ℓ κ σ ω τ) : Prop :=
  Ordered recursive rank gate thread.held thread.program ∧ Gated gate thread.held

omit [DecidableEq ℓ] in
theorem gated_of_mem {held : List (ℓ × LockMode)} (h : Gated gate held) {lock front : ℓ}
    {mode : LockMode} (hmem : (lock, mode) ∈ held) (hgate : gate lock = some front) :
    ∃ hold ∈ held, hold.1 = front := by
  induction held with
  | nil => cases hmem
  | cons top rest ih =>
      rcases List.mem_cons.1 hmem with rfl | hrest
      · obtain ⟨hold, hhold, hfront⟩ := h.1 front hgate
        exact ⟨hold, List.mem_cons_of_mem _ hhold, hfront⟩
      · obtain ⟨hold, hhold, hfront⟩ := ih h.2 hrest
        exact ⟨hold, List.mem_cons_of_mem _ hhold, hfront⟩

theorem Thread.InOrder.advance {thread thread' : Thread ℓ κ σ ω τ}
    (h : thread.InOrder recursive rank gate) {index : Nat} {shared : σ}
    (hstep : thread.Step recursive view system index shared thread') :
    thread'.InOrder recursive rank gate := by
  obtain ⟨hordered, hgated⟩ := h
  cases hstep with
  | acquire hfree => exact ⟨hordered.2, hordered.1.behindGate, hgated⟩
  | @release next held relies =>
      refine ⟨hordered, ?_⟩
      cases held with
      | nil => trivial
      | cons top rest => exact hgated.2
  | step answer => exact ⟨hordered _ _, hgated⟩
  | enter => exact ⟨hordered _, hgated⟩
  | leave => exact ⟨hordered, hgated⟩

/-- Each thread runs one of the calls, and is in order if the call is. -/
def System.Arises (recursive : ℓ → Bool) (rank : ℓ → Nat) (gate : ℓ → Option ℓ)
    (calls : List (Program ℓ κ σ ω τ)) (system : System ℓ κ σ ω τ) : Prop :=
  List.Forall₂ (fun program thread => Ordered recursive rank gate [] program →
    thread.InOrder recursive rank gate) calls system.threads

theorem forall₂_set {α β : Type} {rel : α → β → Prop} {left : List α} {right : List β}
    (h : List.Forall₂ rel left right) {index : Nat} {old new : β} (hold : right[index]? = some old)
    (hnew : ∀ item, rel item old → rel item new) : List.Forall₂ rel left (right.set index new) := by
  induction h generalizing index with
  | nil => cases hold
  | cons hhead htail ih =>
      cases index with
      | zero =>
          obtain rfl := Option.some.inj hold
          exact .cons (hnew _ hhead) htail
      | succ index => exact .cons hhead (ih hold)

theorem System.Arises.run {calls : List (Program ℓ κ σ ω τ)}
    (h : system.Arises recursive rank gate calls) {events : List (Event ℓ κ σ ω τ)}
    (hrun : system.run recursive view events = some system') :
    system'.Arises recursive rank gate (calls ++ events.filterMap Event.program) := by
  induction events generalizing system calls with
  | nil =>
      obtain rfl := Option.some.inj hrun
      rw [List.filterMap_nil, List.append_nil]
      exact h
  | cons event rest ih =>
      rw [System.run, List.foldlM_cons] at hrun
      obtain ⟨next, hnext, hrest⟩ := Option.bind_eq_some_iff.1 hrun
      rcases perform_cases hnext with ⟨program, rfl, rfl⟩ |
        ⟨index, answer, thread, shared, thread', rfl, hthread, hstep, rfl⟩
      · have hadded : System.Arises recursive rank gate (calls ++ [program])
            ⟨system.shared, system.threads ++ [⟨program, [], []⟩]⟩ :=
          List.rel_append h (.cons (fun hordered => ⟨hordered, trivial⟩) .nil)
        have harises := ih hadded hrest
        rwa [List.append_assoc] at harises
      · have hset : System.Arises recursive rank gate calls
            ⟨shared, system.threads.set index thread'⟩ :=
          forall₂_set h hthread fun program hinorder hordered => (hinorder hordered).advance hstep
        exact ih hset hrest

/-- The thread has something left to do, and waits for a lock. -/
def Waits (recursive : ℓ → Bool) (system : System ℓ κ σ ω τ) (index : Nat) (lock : ℓ) : Prop :=
  ∃ thread mode next, system.threads[index]? = some thread ∧
    thread.program = .acquire lock mode next ∧ system.mayAcquire recursive index lock mode = false

/-- A thread that cannot make a step waits. -/
theorem waits_of_stuck {index : Nat} {thread : Thread ℓ κ σ ω τ} {answer : ω}
    (hthread : system.threads[index]? = some thread) (hleft : thread.program ≠ .done)
    (hstuck : system.perform recursive view (.advance index answer) = none) :
    ∃ lock, Waits recursive system index lock := by
  simp only [System.perform, hthread, Option.map_eq_none_iff] at hstuck
  rw [Thread.advance] at hstuck
  cases hprogram : thread.program with
  | done => exact absurd hprogram hleft
  | acquire lock mode next =>
      simp only [hprogram] at hstuck
      split_ifs at hstuck with hfree
      exact ⟨lock, thread, mode, next, hthread, hprogram, Bool.eq_false_iff.2 hfree⟩
  | release next => simp [hprogram] at hstuck
  | step effect next => simp [hprogram] at hstuck
  | enter part next => simp [hprogram] at hstuck
  | leave next => simp [hprogram] at hstuck

/-- Whoever waits in order waits for a thread that holds the lock, and has only locks of
smaller rank. -/
theorem held_of_waits (hexclusive : system.Exclusive)
    (hordered : ∀ thread ∈ system.threads, thread.held ≠ [] → thread.InOrder recursive rank gate)
    {index : Nat} {lock : ℓ} (hwaits : Waits recursive system index lock)
    (hmine : ∀ thread, system.threads[index]? = some thread →
      thread.InOrder recursive rank gate) :
    (∀ thread : Thread ℓ κ σ ω τ, system.threads[index]? = some thread →
      ∀ hold ∈ thread.held, rank hold.1 < rank lock) ∧
      ∃ (other : Nat) (thread : Thread ℓ κ σ ω τ) (mode : LockMode),
        system.threads[other]? = some thread ∧ (lock, mode) ∈ thread.held := by
  obtain ⟨thread, mode, next, hthread, hprogram, hwaiting⟩ := hwaits
  obtain ⟨hinorder, -⟩ := hmine thread hthread
  rw [hprogram] at hinorder
  have hown : recursive lock = true ∨ thread.holds lock = false := by
    rcases hinorder.1.inOrder with hrank | ⟨hagain, -⟩ | ⟨-, -, -, hfree⟩
    · refine Or.inr (holds_eq_false_iff.2 fun hold hhold heq => ?_)
      have hless := hrank hold hhold
      rw [heq] at hless
      exact lt_irrefl _ hless
    · exact Or.inl hagain
    · exact Or.inr (holds_eq_false_iff.2 hfree)
  have hblocked : ∃ other holder held, other ≠ index ∧ system.threads[other]? = some holder ∧
      (lock, held) ∈ holder.held := by
    by_contra hnone
    push Not at hnone
    refine Bool.eq_false_iff.1 hwaiting (mayAcquire_iff.2 ⟨fun found hfound => ?_,
      fun other holder hne hholder => ?_⟩)
    · obtain rfl := Option.some.inj (hthread.symm.trans hfound)
      exact hown
    · rw [conflicts_eq_false_iff]
      intro held hheld
      exact absurd hheld (hnone other holder held hne hholder)
  obtain ⟨other, holder, held, hne, hholder, hheld⟩ := hblocked
  refine ⟨fun thread' hthread' => ?_, other, holder, held, hholder, hheld⟩
  obtain rfl := Option.some.inj (hthread.symm.trans hthread')
  rcases hinorder.1.inOrder with hrank | ⟨-, hagain⟩ | ⟨front, hfront, hgate, -⟩
  · exact hrank
  · exact absurd hheld (hexclusive index other thread holder hne.symm hthread hholder lock held
      hagain)
  · -- whoever holds the lock holds its gate too
    have hgated := (hordered holder (List.mem_of_getElem? hholder) (List.ne_nil_of_mem hheld)).2
    obtain ⟨⟨lock', mode'⟩, hhold, rfl⟩ := gated_of_mem hgated hheld hfront
    exact absurd hhold (hexclusive index other thread holder hne.symm hthread hholder lock' mode'
      hgate)

/-- The rank of the lock that the thread takes next. -/
def Thread.nextRank (rank : ℓ → Nat) (thread : Thread ℓ κ σ ω τ) : Nat :=
  match thread.program with
  | .acquire lock _ _ => rank lock
  | _ => 0

theorem rank_le_of_waits {index : Nat} {lock : ℓ} (hwaits : Waits recursive system index lock) :
    rank lock ≤ (system.threads.map (Thread.nextRank rank)).sum := by
  obtain ⟨thread, mode, next, hthread, hprogram, -⟩ := hwaits
  have hrank : thread.nextRank rank = rank lock := by rw [Thread.nextRank, hprogram]
  rw [← hrank]
  exact List.single_le_sum (fun _ _ => Nat.zero_le _) _
    (List.mem_map_of_mem (List.mem_of_getElem? hthread))

/-- Threads that take their locks in order do not all wait. -/
theorem exists_advance (hexclusive : system.Exclusive)
    (hdone : ∀ thread ∈ system.threads, thread.program = .done → thread.held = [])
    (hordered : ∀ thread ∈ system.threads, thread.program ≠ .done →
      thread.InOrder recursive rank gate) {index : Nat}
    {thread : Thread ℓ κ σ ω τ} (hthread : system.threads[index]? = some thread)
    (hleft : thread.program ≠ .done) (answer : ω) :
    ∃ other, (system.perform recursive view (.advance other answer)).isSome = true := by
  by_contra hnone
  push Not at hnone
  have hwaits : ∀ {other holder}, system.threads[other]? = some holder → holder.program ≠ .done →
      ∃ lock, Waits recursive system other lock := fun hholder hnot =>
    waits_of_stuck hholder hnot (Option.not_isSome_iff_eq_none.1 (hnone _))
  have hinorder : ∀ thread ∈ system.threads, thread.held ≠ [] →
      thread.InOrder recursive rank gate := fun thread hmem hheld =>
    hordered thread hmem fun hended => hheld (hdone thread hmem hended)
  have hclimbs : ∀ {other lock}, Waits recursive system other lock →
      (∀ thread : Thread ℓ κ σ ω τ, system.threads[other]? = some thread →
        ∀ hold ∈ thread.held, rank hold.1 < rank lock) ∧
      ∃ (other : Nat) (thread : Thread ℓ κ σ ω τ) (mode : LockMode),
        system.threads[other]? = some thread ∧ (lock, mode) ∈ thread.held := by
    intro other lock hlock
    obtain ⟨waiting, mode, next, hwaiting, hprogram, -⟩ := id hlock
    refine held_of_waits hexclusive hinorder hlock fun found hfound => ?_
    obtain rfl := Option.some.inj (hwaiting.symm.trans hfound)
    refine hordered waiting (List.mem_of_getElem? hwaiting) ?_
    rw [hprogram]
    exact fun hended => by cases hended
  -- each thread that waits leads to one that waits for a lock of a higher rank
  have hclimb : ∀ n, ∃ other lock, Waits recursive system other lock ∧ n ≤ rank lock := by
    intro n
    induction n with
    | zero =>
        obtain ⟨lock, hlock⟩ := hwaits hthread hleft
        exact ⟨index, lock, hlock, Nat.zero_le _⟩
    | succ n ih =>
        obtain ⟨waiting, lock, hlock, hrank⟩ := ih
        obtain ⟨-, other, holder, mode, hholder, hheld⟩ := hclimbs hlock
        have hnot : holder.program ≠ .done := fun hended =>
          List.ne_nil_of_mem hheld (hdone holder (List.mem_of_getElem? hholder) hended)
        obtain ⟨lock', hlock'⟩ := hwaits hholder hnot
        have hhigher : rank lock < rank lock' := (hclimbs hlock').1 holder hholder _ hheld
        exact ⟨other, lock', hlock', by omega⟩
  obtain ⟨other, lock, hlock, hrank⟩ :=
    hclimb ((system.threads.map (Thread.nextRank rank)).sum + 1)
  have hbound := @rank_le_of_waits _ _ _ _ _ _ recursive rank system other lock hlock
  omega

/-- Where nobody can make a step, all calls have ended, or one that does not take its locks
in order has not. -/
theorem exists_unordered_of_stuck {guards : κ → List ℓ} (hguarding : system.Guarding view guards)
    {calls : List (Program ℓ κ σ ω τ)} (harises : system.Arises recursive rank gate calls)
    {answer : ω} (hstuck : ∀ index, system.perform recursive view (.advance index answer) = none)
    {thread : Thread ℓ κ σ ω τ} (hmem : thread ∈ system.threads) (hleft : thread.program ≠ .done) :
    ∃ (index : Nat) (program : Program ℓ κ σ ω τ) (thread : Thread ℓ κ σ ω τ),
      calls[index]? = some program ∧ system.threads[index]? = some thread ∧
        thread.program ≠ .done ∧ ¬ Ordered recursive rank gate [] program := by
  by_contra hnone
  push Not at hnone
  have hordered : ∀ thread ∈ system.threads, thread.program ≠ .done →
      thread.InOrder recursive rank gate := by
    intro thread hthread hleft
    obtain ⟨index, hindex⟩ := List.mem_iff_getElem?.1 hthread
    obtain ⟨hlt, hget⟩ := List.getElem?_eq_some_iff.1 hindex
    have hcall : index < calls.length := harises.length_eq ▸ hlt
    have hinorder := harises.get hcall hlt
    simp only [List.get_eq_getElem] at hinorder
    rw [hget] at hinorder
    exact hinorder (hnone index _ thread (List.getElem?_eq_getElem hcall) hindex hleft)
  have hdone : ∀ thread ∈ system.threads, thread.program = .done → thread.held = [] := by
    intro thread hthread hended
    have hguarded := (hguarding.relies thread hthread).guarded
    rw [hended] at hguarded
    exact hguarded
  obtain ⟨index, hindex⟩ := List.mem_iff_getElem?.1 hmem
  obtain ⟨other, hother⟩ := @exists_advance _ _ _ _ _ _ _ _ _ view system hguarding.exclusive hdone
    hordered index thread hindex hleft answer
  rw [hstuck other] at hother
  cases hother

end Order

section Endings

/-- What is left after one step. -/
inductive Program.Follows : Program ℓ κ σ ω τ → Program ℓ κ σ ω τ → Prop
  | acquire {lock mode next} : Follows next (.acquire lock mode next)
  | release {next} : Follows next (.release next)
  | step {effect next} (state : σ) (answer : ω) : Follows (next state answer) (.step effect next)
  | enter {part next} (value : τ) : Follows (next value) (.enter part next)
  | leave {next} : Follows next (.leave next)

theorem Program.follows_wf :
    WellFounded (Program.Follows : Program ℓ κ σ ω τ → Program ℓ κ σ ω τ → Prop) := by
  refine ⟨fun program => ?_⟩
  induction program with
  | done => exact ⟨_, fun _ h => by cases h⟩
  | acquire lock mode next ih => exact ⟨_, fun _ h => by cases h; exact ih⟩
  | release next ih => exact ⟨_, fun _ h => by cases h; exact ih⟩
  | step effect next ih => exact ⟨_, fun _ h => by cases h with | step s a => exact ih s a⟩
  | enter part next ih => exact ⟨_, fun _ h => by cases h with | enter value => exact ih value⟩
  | leave next ih => exact ⟨_, fun _ h => by cases h; exact ih⟩

variable [DecidableEq ℓ] {recursive : ℓ → Bool} {view : κ → σ → τ}
  {system system' : System ℓ κ σ ω τ}

theorem Thread.Step.follows {index : Nat} {thread thread' : Thread ℓ κ σ ω τ} {shared : σ}
    (hstep : thread.Step recursive view system index shared thread') :
    thread'.program.Follows thread.program := by
  cases hstep with
  | acquire hfree => exact .acquire
  | release => exact .release
  | step answer => exact .step _ _
  | enter => exact .enter _
  | leave => exact .leave

/-- What is left of all the calls. -/
def System.left (system : System ℓ κ σ ω τ) : Multiset (Program ℓ κ σ ω τ) :=
  (system.threads.map Thread.program : List (Program ℓ κ σ ω τ))

theorem coe_set_add {α : Type} {list : List α} {index : Nat} {old new : α}
    (hold : list[index]? = some old) :
    ((list.set index new : List α) : Multiset α) + {old} = (list : Multiset α) + {new} := by
  induction list generalizing index with
  | nil => cases hold
  | cons head tail ih =>
      cases index with
      | zero =>
          obtain rfl := Option.some.inj hold
          rw [List.set_cons_zero, ← Multiset.cons_coe, ← Multiset.cons_coe,
            Multiset.add_comm, Multiset.singleton_add, Multiset.add_comm (head ::ₘ _),
            Multiset.singleton_add, Multiset.cons_swap]
      | succ index =>
          rw [List.set_cons_succ, ← Multiset.cons_coe, ← Multiset.cons_coe, Multiset.cons_add,
            Multiset.cons_add, ih hold]

/-- Some call makes a step. -/
def System.Continues (recursive : ℓ → Bool) (view : κ → σ → τ)
    (system' system : System ℓ κ σ ω τ) : Prop :=
  ∃ index answer, system.perform recursive view (.advance index answer) = some system'

/-- Calls do not run forever: while none begins, every run comes to an end. -/
theorem continues_wf : WellFounded
    (System.Continues recursive view : System ℓ κ σ ω τ → System ℓ κ σ ω τ → Prop) := by
  refine Subrelation.wf ?_ (InvImage.wf System.left Program.follows_wf.cutExpand)
  rintro system' system ⟨index, answer, hevent⟩
  rcases perform_cases hevent with ⟨program, hprogram, -⟩ |
    ⟨index, answer, thread, shared, thread', -, hthread, hstep, rfl⟩
  · cases hprogram
  · refine ⟨{thread'.program}, thread.program, fun program hprogram => ?_, ?_⟩
    · rw [Multiset.mem_singleton.1 hprogram]
      exact hstep.follows
    · simp only [System.left, List.map_set]
      exact coe_set_add (by rw [List.getElem?_map, hthread, Option.map_some])

end Endings

section Blocking

variable [DecidableEq ℓ] {recursive : ℓ → Bool} {view : κ → σ → τ}
  {system system' : System ℓ κ σ ω τ}

/-- The one thread waits for a lock that the other one holds. -/
structure Blocks (waiting holding : Thread ℓ κ σ ω τ) : Prop where
  waits : ∃ lock mode next, waiting.program = .acquire lock mode next ∧
    holding.conflicts lock mode = true

theorem advance_eq_none_of_blocks {i j : Nat} (hij : i ≠ j) {waiting holding : Thread ℓ κ σ ω τ}
    (hholding : system.threads[j]? = some holding) (h : Blocks waiting holding) (answer : ω) :
    waiting.advance recursive view system i answer = none := by
  obtain ⟨lock, mode, next, hprogram, hconflict⟩ := h.waits
  rw [Thread.advance, hprogram]
  simp only
  refine if_neg fun hfree => ?_
  have hnot := (mayAcquire_iff.1 hfree).2 j holding (Ne.symm hij) hholding
  rw [hconflict] at hnot
  cases hnot

/-- Two threads that wait for each other make no step in any run. -/
theorem run_of_blocks {i j : Nat} (hij : i ≠ j) {first second : Thread ℓ κ σ ω τ}
    (hfirst : system.threads[i]? = some first) (hsecond : system.threads[j]? = some second)
    (hblocked : Blocks first second) (hblocks : Blocks second first)
    {events : List (Event ℓ κ σ ω τ)} (hrun : system.run recursive view events = some system') :
    system'.threads[i]? = some first ∧ system'.threads[j]? = some second := by
  induction events generalizing system with
  | nil =>
      obtain rfl := Option.some.inj hrun
      exact ⟨hfirst, hsecond⟩
  | cons event rest ih =>
      rw [System.run, List.foldlM_cons] at hrun
      obtain ⟨next, hnext, hrest⟩ := Option.bind_eq_some_iff.1 hrun
      have hkeeps : next.threads[i]? = some first ∧ next.threads[j]? = some second := by
        cases event with
        | call program =>
            obtain rfl := Option.some.inj hnext
            exact ⟨List.getElem?_append_left (List.getElem?_eq_some_iff.1 hfirst).1 ▸ hfirst,
              List.getElem?_append_left (List.getElem?_eq_some_iff.1 hsecond).1 ▸ hsecond⟩
        | advance index answer =>
            have hnot : index ≠ i ∧ index ≠ j := by
              refine ⟨?_, ?_⟩
              · rintro rfl
                simp [System.perform, hfirst,
                  advance_eq_none_of_blocks hij hsecond hblocked] at hnext
              · rintro rfl
                simp [System.perform, hsecond,
                  advance_eq_none_of_blocks hij.symm hfirst hblocks] at hnext
            rcases perform_cases hnext with ⟨program, hprogram, -⟩ |
              ⟨index', answer', thread, shared, thread', heq, hthread, hstep, rfl⟩
            · cases hprogram
            · obtain ⟨rfl, rfl⟩ := Event.advance.inj heq
              exact ⟨by rw [List.getElem?_set_ne hnot.1, hfirst],
                by rw [List.getElem?_set_ne hnot.2, hsecond]⟩
      exact ih hkeeps.1 hkeeps.2 hrest

end Blocking

section Code

/-- A part of a program, which hands its result to what follows. -/
def Code (ℓ κ σ ω τ α : Type) := (α → Program ℓ κ σ ω τ) → Program ℓ κ σ ω τ

namespace Code

variable {α β : Type}

def result (value : α) : Code ℓ κ σ ω τ α := fun next => next value

def andThen (first : Code ℓ κ σ ω τ α) (second : α → Code ℓ κ σ ω τ β) : Code ℓ κ σ ω τ β :=
  fun next => first fun value => second value next

/-- One step: what it changes, and what it reads from the state before and from the world. -/
def act (effect : σ → ω → σ) (read : σ → ω → α) : Code ℓ κ σ ω τ α :=
  fun next => .step effect fun state answer => next (read state answer)

def ask (read : σ → ω → α) : Code ℓ κ σ ω τ α := act (fun state _ => state) read

def update (effect : σ → ω → σ) : Code ℓ κ σ ω τ Unit := act effect fun _ _ => ()

/-- A guard of a lock, and the block at whose end it goes out of scope. -/
def locked (lock : ℓ) (mode : LockMode) (body : Code ℓ κ σ ω τ α) : Code ℓ κ σ ω τ α :=
  fun next => .acquire lock mode (body fun value => .release (next value))

/-- Work with a part. -/
def working (part : κ) (body : τ → Code ℓ κ σ ω τ α) : Code ℓ κ σ ω τ α :=
  fun next => .enter part fun value => body value fun result => .leave (next result)

def forEach : List β → (β → Code ℓ κ σ ω τ Unit) → Code ℓ κ σ ω τ Unit
  | [], _ => result ()
  | item :: rest, body => (body item).andThen fun _ => forEach rest body

def program (code : Code ℓ κ σ ω τ α) : Program ℓ κ σ ω τ := code fun _ => .done

theorem andThen_assoc {γ : Type} (first : Code ℓ κ σ ω τ α) (second : α → Code ℓ κ σ ω τ β)
    (third : β → Code ℓ κ σ ω τ γ) :
    (first.andThen second).andThen third = first.andThen fun value => (second value).andThen third :=
  rfl

end Code

/-- Code that keeps to the guards if what follows does, under some locks and inside the work
with some parts.  Where it is `orderly`, it takes its locks in order too. -/
structure Fits {α : Type} (recursive : ℓ → Bool) (rank : ℓ → Nat) (gate : ℓ → Option ℓ)
    (view : κ → σ → τ) (guards : κ → List ℓ) (orderly : Bool) (held : List (ℓ × LockMode))
    (inside : List κ) (code : Code ℓ κ σ ω τ α) : Prop where
  ordered : orderly = true → ∀ next, (∀ value, Ordered recursive rank gate held (next value)) →
    Ordered recursive rank gate held (code next)
  guarded : ∀ next, (∀ part ∈ inside, MayRead (guards part) held) →
    (∀ value, Guarded view guards held inside (next value)) →
      Guarded view guards held inside (code next)

namespace Fits

variable {α β : Type} {recursive : ℓ → Bool} {rank : ℓ → Nat} {gate : ℓ → Option ℓ}
  {view : κ → σ → τ} {guards : κ → List ℓ} {orderly : Bool} {held : List (ℓ × LockMode)}
  {inside : List κ}

theorem result (value : α) : Fits recursive rank gate view guards orderly held inside
    (Code.result value : Code ℓ κ σ ω τ α) :=
  ⟨fun _ _ hnext => hnext value, fun _ _ hnext => hnext value⟩

theorem andThen {first : Code ℓ κ σ ω τ α} {second : α → Code ℓ κ σ ω τ β}
    (hfirst : Fits recursive rank gate view guards orderly held inside first)
    (hsecond : ∀ value, Fits recursive rank gate view guards orderly held inside (second value)) :
    Fits recursive rank gate view guards orderly held inside (first.andThen second) := by
  refine ⟨fun horderly next hnext => ?_, fun next hread hnext => ?_⟩
  · exact hfirst.ordered horderly _ fun value => (hsecond value).ordered horderly next hnext
  · exact hfirst.guarded _ hread fun value => (hsecond value).guarded next hread hnext

theorem act {effect : σ → ω → σ} {read : σ → ω → α}
    (heffect : ∀ part, (∀ state answer, view part (effect state answer) = view part state) ∨
      MayWrite (guards part) held ∧ part ∉ inside) :
    Fits recursive rank gate view guards orderly held inside
      (Code.act effect read : Code ℓ κ σ ω τ α) :=
  ⟨fun _ _ hnext state answer => hnext (read state answer),
    fun _ _ hnext => ⟨heffect, fun state answer => hnext (read state answer)⟩⟩

theorem ask (read : σ → ω → α) : Fits recursive rank gate view guards orderly held inside
    (Code.ask read : Code ℓ κ σ ω τ α) :=
  act fun _ => Or.inl fun _ _ => rfl

theorem update {effect : σ → ω → σ}
    (heffect : ∀ part, (∀ state answer, view part (effect state answer) = view part state) ∨
      MayWrite (guards part) held ∧ part ∉ inside) :
    Fits recursive rank gate view guards orderly held inside
      (Code.update effect : Code ℓ κ σ ω τ Unit) :=
  act heffect

theorem locked {lock : ℓ} {mode : LockMode} {body : Code ℓ κ σ ω τ α}
    (htake : orderly = true → MayTake recursive rank gate held lock)
    (hbody : Fits recursive rank gate view guards orderly ((lock, mode) :: held) inside body) :
    Fits recursive rank gate view guards orderly held inside (body.locked lock mode) := by
  refine ⟨fun horderly next hnext => ⟨htake horderly, hbody.ordered horderly _ hnext⟩,
    fun next hread hnext => ?_⟩
  exact hbody.guarded _ (fun part hpart => (hread part hpart).cons _) fun value =>
    ⟨hread, hnext value⟩

theorem working {part : κ} {body : τ → Code ℓ κ σ ω τ α} (hread : MayRead (guards part) held)
    (hbody : ∀ value, Fits recursive rank gate view guards orderly held (part :: inside)
      (body value)) :
    Fits recursive rank gate view guards orderly held inside (Code.working part body) := by
  refine ⟨fun horderly next hnext value => (hbody value).ordered horderly _ hnext,
    fun next hinside hnext => ⟨hread, fun value => (hbody value).guarded _ (fun other hother => ?_)
      hnext⟩⟩
  rcases List.mem_cons.1 hother with rfl | hbefore
  · exact hread
  · exact hinside other hbefore

theorem forEach {items : List β} {body : β → Code ℓ κ σ ω τ Unit}
    (hbody : ∀ item ∈ items, Fits recursive rank gate view guards orderly held inside
      (body item)) :
    Fits recursive rank gate view guards orderly held inside (Code.forEach items body) := by
  induction items with
  | nil => exact result ()
  | cons item rest ih =>
      exact (hbody item List.mem_cons_self).andThen fun _ =>
        ih fun other hother => hbody other (List.mem_cons_of_mem _ hother)

/-- A call whose code fits keeps to the disciplines. -/
theorem program {code : Code ℓ κ σ ω τ α}
    (h : Fits recursive rank gate view guards orderly [] [] code) :
    Guarded view guards [] [] code.program ∧
      (orderly = true → Ordered recursive rank gate [] code.program) :=
  ⟨h.guarded _ (fun _ hpart => absurd hpart List.not_mem_nil) fun _ => rfl,
    fun horderly => h.ordered horderly _ fun _ => trivial⟩

end Fits

end Code

section Completions

variable [DecidableEq ℓ] {recursive : ℓ → Bool} {view : κ → σ → τ} {α β : Type}

/-- One state is reached from another by steps of the calls that run. -/
def System.Reaches (recursive : ℓ → Bool) (view : κ → σ → τ) :
    System ℓ κ σ ω τ → System ℓ κ σ ω τ → Prop :=
  Relation.ReflTransGen fun system system' => system'.Continues recursive view system

theorem exists_run_of_reaches {system system' : System ℓ κ σ ω τ}
    (h : system.Reaches recursive view system') :
    ∃ steps : List (Nat × ω), system.run recursive view
      (steps.map fun step => .advance step.1 step.2) = some system' := by
  induction h using Relation.ReflTransGen.head_induction_on with
  | refl => exact ⟨[], rfl⟩
  | head hstep _ ih =>
      obtain ⟨index, answer, hnext⟩ := hstep
      obtain ⟨steps, hsteps⟩ := ih
      refine ⟨(index, answer) :: steps, ?_⟩
      rw [List.map_cons, System.run, List.foldlM_cons, hnext]
      exact hsteps

/-- Nobody else stands in the way of the lock, and neither does the thread itself. -/
structure Free (recursive : ℓ → Bool) (threads : List (Thread ℓ κ σ ω τ)) (index : Nat)
    (held : List (ℓ × LockMode)) (lock : ℓ) (mode : LockMode) : Prop where
  own : recursive lock = true ∨ ∀ hold ∈ held, hold.1 ≠ lock
  others : ∀ other thread, other ≠ index → threads[other]? = some thread →
    thread.conflicts lock mode = false

/-- While the others wait, the code runs to its end from one shared state to another, with a
result. -/
def Completes (recursive : ℓ → Bool) (view : κ → σ → τ) (threads : List (Thread ℓ κ σ ω τ))
    (index : Nat) (held : List (ℓ × LockMode)) (before : σ) (code : Code ℓ κ σ ω τ α) (after : σ)
    (value : α) : Prop :=
  ∀ next relies, System.Reaches recursive view ⟨before, threads.set index ⟨code next, held, relies⟩⟩
    ⟨after, threads.set index ⟨next value, held, relies⟩⟩

variable {threads : List (Thread ℓ κ σ ω τ)} {index : Nat} {held : List (ℓ × LockMode)}
  {before middle after : σ} {relies : List (κ × τ)} {program program' : Program ℓ κ σ ω τ}

theorem reaches_acquire (hindex : index < threads.length) {lock : ℓ} {mode : LockMode}
    (hfree : Free recursive threads index held lock mode) [Nonempty ω] :
    System.Reaches recursive view
      ⟨before, threads.set index ⟨.acquire lock mode program, held, relies⟩⟩
      ⟨before, threads.set index ⟨program, (lock, mode) :: held, relies⟩⟩ := by
  obtain ⟨answer⟩ := ‹Nonempty ω›
  refine .single ⟨index, answer, ?_⟩
  have hmay : System.mayAcquire recursive
      ⟨before, threads.set index ⟨.acquire lock mode program, held, relies⟩⟩ index lock mode = true := by
    refine mayAcquire_iff.2 ⟨fun thread hthread => ?_, fun other thread hne hthread => ?_⟩
    · rw [List.getElem?_set_self hindex] at hthread
      obtain rfl := Option.some.inj hthread
      exact hfree.own.imp_right holds_eq_false_iff.2
    · rw [List.getElem?_set_ne hne.symm] at hthread
      exact hfree.others other thread hne hthread
  simp only [System.perform, List.getElem?_set_self hindex, Thread.advance, if_pos hmay,
    Option.map_some, List.set_set]

namespace Completes

theorem result (value : α) : Completes recursive view threads index held before
    (Code.result value : Code ℓ κ σ ω τ α) before value :=
  fun _ _ => .refl

theorem andThen {first : Code ℓ κ σ ω τ α} {second : α → Code ℓ κ σ ω τ β} {value : α} {value' : β}
    (hfirst : Completes recursive view threads index held before first middle value)
    (hsecond : Completes recursive view threads index held middle (second value) after value') :
    Completes recursive view threads index held before (first.andThen second) after value' :=
  fun next relies => (hfirst _ relies).trans (hsecond next relies)

theorem act (hindex : index < threads.length) {effect : σ → ω → σ} {read : σ → ω → α} (answer : ω) :
    Completes recursive view threads index held before (Code.act effect read)
      (effect before answer) (read before answer) := by
  refine fun next relies => .single ⟨index, answer, ?_⟩
  simp only [System.perform, List.getElem?_set_self hindex, Code.act, Thread.advance,
    Option.map_some, List.set_set]

theorem ask (hindex : index < threads.length) {read : σ → ω → α} {value : α} (answer : ω)
    (hvalue : read before answer = value) :
    Completes recursive view threads index held before (Code.ask read) before value := by
  subst hvalue
  exact act hindex answer

theorem locked [Nonempty ω] (hindex : index < threads.length) {lock : ℓ} {mode : LockMode}
    {body : Code ℓ κ σ ω τ α} {value : α} (hfree : Free recursive threads index held lock mode)
    (hbody : Completes recursive view threads index ((lock, mode) :: held) before body after value) :
    Completes recursive view threads index held before (body.locked lock mode) after value := by
  intro next relies
  obtain ⟨answer⟩ := ‹Nonempty ω›
  refine (reaches_acquire hindex hfree).trans ((hbody _ relies).trans (.single ⟨index, answer, ?_⟩))
  simp only [System.perform, List.getElem?_set_self hindex, Thread.advance, Option.map_some,
    List.set_set, List.tail_cons]

end Completes

end Completions

end LockedPrograms

end GEDS
