/-
Where locks of file handles are taken out of order, calls can wait for each other forever: the
loop over all handles and the relocation of one of them, and a read and a seal of a file that was
relocated to a store.
-/
import GEDS.HandleOrder

namespace GEDS

namespace HandleLocks

open LockedPrograms

abbrev NodeThread := Thread NodeLock Handle NodeHandles Answer InnerHandle

abbrev NodeReaches : NodeSystem → NodeSystem → Prop :=
  System.Reaches NodeLock.recursive NodeHandles.fileHandle

/-- The two calls can come to a point from which on neither of them ends, whatever happens. -/
def MayDeadlock (shared : NodeHandles) (first second : NodeCall) : Prop :=
  ∃ events system, events.filterMap NodeEvent.call? = [first, second] ∧
    runCalls shared events = some system ∧ ∀ (later : List NodeEvent) system',
      System.run NodeLock.recursive NodeHandles.fileHandle system (later.map NodeEvent.event) =
          some system' →
        ∀ index < 2, ∃ thread : NodeThread, system'.threads[index]? = some thread ∧
          thread.program ≠ .done

section TwoThreads

variable {shared before after : NodeHandles} {held held' : List (NodeLock × LockMode)}
  {relies relies' : List (Handle × InnerHandle)} {lock lock' : NodeLock}
  {mode mode' taken taken' : LockMode} {first second : NodeThread}
  {next next' : Program NodeLock Handle NodeHandles Answer InnerHandle}

theorem conflicts_of_mem (hmem : (lock, taken) ∈ first.held)
    (hmode : mode = .exclusive ∨ taken = .exclusive) : first.conflicts lock mode = true := by
  rw [← Bool.not_eq_false, conflicts_eq_false_iff]
  intro h
  obtain ⟨hfirst, hsecond⟩ := h taken hmem
  rcases hmode with rfl | rfl
  · exact hfirst rfl
  · exact hsecond rfl

theorem conflicts_of_not_holds (hfree : first.holds lock = false) :
    first.conflicts lock mode = false :=
  conflicts_eq_false_iff.2 fun _ hmem => absurd rfl (holds_eq_false_iff.1 hfree _ hmem)

/-- Each of the two calls waits for a lock that the other one holds, and one of the two ways to
hold it is exclusive. -/
theorem mayDeadlock_of_reaches {one two : NodeCall}
    (hreaches : ∃ next next', NodeReaches
      ⟨shared, [⟨one.program, [], []⟩, ⟨two.program, [], []⟩]⟩
      ⟨after, [⟨.acquire lock mode next, held, relies⟩,
        ⟨.acquire lock' mode' next', held', relies'⟩]⟩)
    (hblocked : (lock, taken) ∈ held') (hmode : mode = .exclusive ∨ taken = .exclusive)
    (hblocks : (lock', taken') ∈ held) (hmode' : mode' = .exclusive ∨ taken' = .exclusive) :
    MayDeadlock shared one two := by
  obtain ⟨next, next', hreaches⟩ := hreaches
  obtain ⟨steps, hsteps⟩ := exists_run_of_reaches hreaches
  refine ⟨.call one :: .call two :: steps.map fun step => .advance step.1 step.2,
    ⟨after, [⟨.acquire lock mode next, held, relies⟩,
      ⟨.acquire lock' mode' next', held', relies'⟩]⟩, ?_, ?_,
    fun later system' hlater index hindex => ?_⟩
  · have hnone : (steps.map fun step => NodeEvent.advance step.1 step.2).filterMap
        NodeEvent.call? = [] := by
      rw [List.filterMap_eq_nil_iff]
      intro event hevent
      obtain ⟨step, -, rfl⟩ := List.mem_map.1 hevent
      rfl
    exact congrArg (fun rest => one :: two :: rest) hnone
  · rw [runCalls, List.map_cons, List.map_cons, List.map_map]
    exact hsteps
  · obtain ⟨hfirst, hsecond⟩ := run_of_blocks (by omega : 0 ≠ 1) rfl rfl
      ⟨_, _, _, rfl, conflicts_of_mem hblocked hmode⟩
      ⟨_, _, _, rfl, conflicts_of_mem hblocks hmode'⟩ hlater
    interval_cases index
    · exact ⟨_, hfirst, fun hended => by cases hended⟩
    · exact ⟨_, hsecond, fun hended => by cases hended⟩

/-- A lock is free for one of two threads if the other one does not hold it. -/
theorem free_first (hown : lock.recursive = true ∨ ∀ hold ∈ held, hold.1 ≠ lock)
    (hfree : second.holds lock = false) :
    Free NodeLock.recursive [first, second] 0 held lock mode := by
  refine ⟨hown, fun other thread hne hthread => ?_⟩
  match other, hne, hthread with
  | 0, hne, _ => exact absurd rfl hne
  | 1, _, hthread =>
      obtain rfl := Option.some.inj hthread
      exact conflicts_of_not_holds hfree

theorem free_second (hown : lock.recursive = true ∨ ∀ hold ∈ held, hold.1 ≠ lock)
    (hfree : first.holds lock = false) :
    Free NodeLock.recursive [first, second] 1 held lock mode := by
  refine ⟨hown, fun other thread hne hthread => ?_⟩
  match other, hne, hthread with
  | 0, _, hthread =>
      obtain rfl := Option.some.inj hthread
      exact conflicts_of_not_holds hfree
  | 1, hne, _ => exact absurd rfl hne

theorem reaches_acquire_first (hown : lock.recursive = true ∨ ∀ hold ∈ held, hold.1 ≠ lock)
    (hfree : second.holds lock = false) :
    NodeReaches ⟨before, [⟨.acquire lock mode next, held, relies⟩, second]⟩
      ⟨before, [⟨next, (lock, mode) :: held, relies⟩, second]⟩ :=
  @reaches_acquire _ _ _ _ _ _ _ _ [second, second] 0 held before relies next (by simp) lock mode
    (free_first hown hfree) _

theorem reaches_acquire_second (hown : lock.recursive = true ∨ ∀ hold ∈ held, hold.1 ≠ lock)
    (hfree : first.holds lock = false) :
    NodeReaches ⟨before, [first, ⟨.acquire lock mode next, held, relies⟩]⟩
      ⟨before, [first, ⟨next, (lock, mode) :: held, relies⟩]⟩ :=
  @reaches_acquire _ _ _ _ _ _ _ _ [first, first] 1 held before relies next (by simp) lock mode
    (free_second hown hfree) _

variable {α β : Type} {code : HandleCode α} {value : α} {follow : α → HandleCode β}
  {rest : β → Program NodeLock Handle NodeHandles Answer InnerHandle}

/-- The first of two threads runs some code while the other one waits. -/
abbrev RunsFirst (second : NodeThread) (held : List (NodeLock × LockMode)) (before : NodeHandles)
    (code : HandleCode α) (after : NodeHandles) (value : α) : Prop :=
  Completes NodeLock.recursive NodeHandles.fileHandle [second, second] 0 held before code after value

abbrev RunsSecond (first : NodeThread) (held : List (NodeLock × LockMode)) (before : NodeHandles)
    (code : HandleCode α) (after : NodeHandles) (value : α) : Prop :=
  Completes NodeLock.recursive NodeHandles.fileHandle [first, first] 1 held before code after value

theorem reaches_first (h : RunsFirst second held before code after value) :
    NodeReaches ⟨before, [⟨(code.andThen follow) rest, held, relies⟩, second]⟩
      ⟨after, [⟨follow value rest, held, relies⟩, second]⟩ :=
  h _ relies

theorem reaches_second (h : RunsSecond first held before code after value) :
    NodeReaches ⟨before, [first, ⟨(code.andThen follow) rest, held, relies⟩]⟩
      ⟨after, [first, ⟨follow value rest, held, relies⟩]⟩ :=
  h _ relies

end TwoThreads

section Store

variable {shared : NodeHandles} {handle : Handle}

/-- A read of a relocated file that fails and a seal of the file can wait for each other forever:
the one takes the lock of the file under that of the bytes, the other one the other way round.
A read of nothing does not fail. -/
theorem mayDeadlock_readBytes_seal (hclass : handle.handleClass = .s3)
    (hvalid : shared.isInvalid (.registered handle) = false) (position : Nat) {length : Nat}
    (hlength : length ≠ 0) :
    MayDeadlock shared (.readBytes handle position length) (.sealHandle handle) := by
  have hread : (NodeCall.readBytes handle position length).program =
      (s3ReadBytes (.registered handle) length).program := by
    simp only [NodeCall.program, readBytes, hclass]
  have hseal : (NodeCall.sealHandle handle).program = (s3Seal (.registered handle)).program := by
    simp only [NodeCall.program, sealHandle, hclass]
  obtain ⟨sealing, hsealing⟩ : ∃ sealing : NodeThread,
      sealing = ⟨(s3Seal (.registered handle)).program, [], []⟩ := ⟨_, rfl⟩
  have hvalidates : RunsFirst sealing [] shared
      (.ask fun s _ => !s.isInvalid (.registered handle)) shared true :=
    .ask (by simp) ⟨true, .remote, 0⟩ (by rw [hvalid]; rfl)
  have hfails : RunsFirst sealing [(.io (.registered handle), .shared)] shared
      (endpointReadBytes length) shared false := by
    rw [endpointReadBytes, if_neg hlength]
    exact .ask (by simp) ⟨false, .remote, 0⟩ rfl
  have hfree : sealing.holds (.io (.registered handle)) = false := by rw [hsealing]; rfl
  have hreaches : ∃ next next', NodeReaches
      ⟨shared, [⟨(s3ReadBytes (.registered handle) length).program, [], []⟩,
        ⟨(s3Seal (.registered handle)).program, [], []⟩]⟩
      ⟨shared, [⟨.acquire (.file (.registered handle)) .exclusive next,
          [(.io (.registered handle), .shared)], []⟩,
        ⟨.acquire (.io (.registered handle)) .exclusive next',
          [(.file (.registered handle), .exclusive)], []⟩]⟩ := by
    refine ⟨?next, ?next', ?reaches⟩
    case reaches =>
      rw [← hsealing, Code.program, s3ReadBytes]
      refine (reaches_first hvalidates).trans ?_
      refine (reaches_acquire_first (Or.inr (by simp)) hfree).trans ?_
      refine (reaches_first hfails).trans ?_
      rw [hsealing]
      refine reaches_acquire_second ?_ ?_
      · exact Or.inl rfl
      · exact holds_eq_false_iff.2 (by simp)
  rw [← hread, ← hseal] at hreaches
  exact mayDeadlock_of_reaches hreaches List.mem_cons_self (Or.inl rfl) List.mem_cons_self
    (Or.inl rfl)

end Store

section Relocation

variable {shared : NodeHandles} {handle : Handle} {second : NodeThread}

theorem holds_of_idle {thread : NodeThread} (hidle : thread.held = []) (lock : NodeLock) :
    thread.holds lock = false := by
  rw [Thread.holds, hidle]
  rfl

theorem runs_allAnswered {held : List (NodeLock × LockMode)} (questions : Nat) :
    RunsFirst second held shared (allAnswered questions) shared true := by
  induction questions with
  | zero => exact .result true
  | succ questions ih => exact .andThen (.ask (by simp) ⟨true, .remote, 0⟩ rfl) ih

/-- The relocation of an idle local file, up to its replacement in the registry. -/
theorem runs_localRelocate (hidle : second.held = [])
    (hvalid : shared.isInvalid (.registered handle) = false)
    (hunused : shared.openCount (.registered handle) = 0) (hblock : handle.isBlock = false) :
    ∃ after newHandle, RunsFirst second [(.file (.registered handle), .exclusive)] shared
        (localRelocate handle hblock) after (some newHandle) ∧
      after.fileHandles = shared.fileHandles ∧ after.openCount = shared.openCount := by
  have hfile : ∀ held, Free NodeLock.recursive [second, second] 0 held
      (.file (.registered handle)) .exclusive := fun held =>
    free_first (Or.inl rfl) (holds_of_idle hidle _)
  have hio : Free NodeLock.recursive [second, second] 0
      [(.file (.registered handle), .exclusive), (.file (.registered handle), .exclusive)]
      (.io (.registered handle)) .exclusive :=
    free_first (Or.inr (by simp)) (holds_of_idle hidle _)
  refine ⟨({ shared with made := shared.made + 1 } : NodeHandles).invalidate (.registered handle),
    ⟨shared.made, handle.bucket, handle.key, .s3, fun h => absurd h (Bool.eq_false_iff.1 hblock)⟩,
    ?_, rfl, rfl⟩
  obtain ⟨both, hboth⟩ : ∃ both, both =
      bothLocks handle [(.file (.registered handle), LockMode.exclusive)] := ⟨_, rfl⟩
  have hvalidated : RunsFirst second both shared (isValid (.registered handle)) shared true :=
    .locked (by simp) (hfile _) (.ask (by simp) ⟨true, .remote, 0⟩ (by rw [hvalid]; rfl))
  have hcounted : RunsFirst second both shared
      (.ask fun s _ => decide (s.openCount (.registered handle) > 0)) shared false :=
    .ask (by simp) ⟨true, .remote, 0⟩ (by rw [hunused]; rfl)
  have hdescribed : RunsFirst second both shared (metadata (.registered handle)) shared () :=
    .locked (by simp) (hfile _) (.result ())
  have hanswered : RunsFirst second both shared answered shared true :=
    .ask (by simp) ⟨true, .remote, 0⟩ rfl
  have hnumbered : RunsFirst second both shared newNumber { shared with made := shared.made + 1 }
      shared.made := .act (by simp) ⟨true, .remote, 0⟩
  have hinvalidated : RunsFirst second both { shared with made := shared.made + 1 }
      (.update fun s _ => s.invalidate (.registered handle)) _ () :=
    .act (by simp) ⟨true, .remote, 0⟩
  subst hboth
  refine .locked (by simp) (hfile _) (.locked (by simp) hio ?_)
  refine hvalidated.andThen (hcounted.andThen ((runs_allAnswered 4).andThen ?_))
  refine hdescribed.andThen (hanswered.andThen ?_)
  exact hnumbered.andThen (hinvalidated.andThen (.result _))

/-- The relocation waits for the registry with the lock of the file, once the file is moved. -/
theorem reaches_relocate (hidle : second.held = []) (hclass : handle.handleClass = .localFile)
    (hblock : handle.isBlock = false) (hregistered : handle ∈ shared.fileHandles)
    (hvalid : shared.isInvalid (.registered handle) = false)
    (hunused : shared.openCount (.registered handle) = 0) (force : Bool) :
    ∃ next after, NodeReaches ⟨shared, [⟨(relocate handle force).program, [], []⟩, second]⟩
        ⟨after, [⟨.acquire .registry .exclusive next,
          [(.file (.registered handle), .exclusive)], []⟩, second]⟩ ∧
      after.fileHandles = shared.fileHandles ∧ after.openCount = shared.openCount := by
  obtain ⟨after, newHandle, hmoved, hhandles, hcounts⟩ :=
    runs_localRelocate hidle hvalid hunused hblock
  have hfound : (shared.get handle.bucket handle.key).isSome = true :=
    List.find?_isSome.2 ⟨handle, hregistered, by simp⟩
  have hcounted : RunsFirst second [(.file (.registered handle), .exclusive)] shared
      (.ask fun s _ => decide (s.openCount (.registered handle) > 0) && !force) shared false :=
    .ask (by simp) ⟨true, .remote, 0⟩ (by rw [hunused]; rfl)
  have hexists : RunsFirst second [(.file (.registered handle), .exclusive)] shared
      (readRegistry fun s => (s.get handle.bucket handle.key).isSome) shared true :=
    .locked (by simp) (free_first (Or.inr (by simp)) (holds_of_idle hidle _))
      (.ask (by simp) ⟨true, .remote, 0⟩ hfound)
  have hmeasured : RunsFirst second [(.file (.registered handle), .exclusive)] shared
      (localStorageSize handle) shared () := by
    rw [localStorageSize, hclass]
    exact .result ()
  have hrelocated : RunsFirst second [(.file (.registered handle), .exclusive)] shared
      (relocateHandle handle hblock) after (some newHandle) := by
    rw [relocateHandle, hclass]
    exact hmoved
  refine ⟨?next, after, ?reaches, hhandles, hcounts⟩
  case reaches =>
    rw [Code.program, relocate]
    refine (reaches_acquire_first (Or.inl rfl) (holds_of_idle hidle _)).trans ?_
    refine (reaches_first hcounted).trans ((reaches_first hexists).trans ?_)
    refine (reaches_first hmeasured).trans ((reaches_first hmeasured).trans ?_)
    rw [dif_neg (Bool.eq_false_iff.1 hblock)]
    refine (reaches_first hrelocated).trans ?_
    exact .refl

end Relocation

section Loop

variable {shared : NodeHandles} {handle : Handle} {first : NodeThread} {force : Bool}

/-- What the loop does with a handle. -/
def collectOne (force : Bool) (item : Handle) : HandleCode Unit :=
  (Code.ask fun s _ => (decide (s.openCount (.registered item) = 0) || force) &&
    isRelocatable item).andThen fun asked =>
  if asked then (isValid (.registered item)).andThen fun _ => .result () else .result ()

theorem collectRelocatable_eq : collectRelocatable force = Code.locked .registry .shared
    ((Code.ask fun s _ => s.fileHandles).andThen fun handles =>
      .forEach handles (collectOne force)) :=
  rfl

theorem runs_collectOne {item : Handle}
    (hheld : first.held = [(.file (.registered handle), .exclusive)]) (hne : item ≠ handle) :
    RunsSecond first [(.registry, .shared)] shared (collectOne force item) shared () := by
  have hfree : first.holds (.file (.registered item)) = false := by
    rw [holds_eq_false_iff, hheld]
    simpa using hne.symm
  refine .andThen (.ask (by simp) ⟨true, .remote, 0⟩ rfl) ?_
  split_ifs
  · have hvalidated : RunsSecond first [(.registry, .shared)] shared (isValid (.registered item))
        shared (!shared.isInvalid (.registered item)) :=
      .locked (by simp) (free_second (Or.inl rfl) hfree) (.ask (by simp) ⟨true, .remote, 0⟩ rfl)
    exact hvalidated.andThen (.result ())
  · exact .result ()

/-- The loop comes to the handle that somebody else has locked. -/
theorem reaches_collect (hheld : first.held = [(.file (.registered handle), .exclusive)])
    {before rest : List Handle} (hbefore : handle ∉ before)
    {next : Unit → Program NodeLock Handle NodeHandles Answer InnerHandle} :
    NodeReaches
      ⟨shared, [first, ⟨Code.forEach (before ++ rest) (collectOne force) next,
        [(.registry, .shared)], []⟩]⟩
      ⟨shared, [first, ⟨Code.forEach rest (collectOne force) next, [(.registry, .shared)], []⟩]⟩ := by
  induction before with
  | nil => exact .refl
  | cons item before ih =>
      rw [List.mem_cons, not_or] at hbefore
      exact (reaches_second (runs_collectOne hheld (Ne.symm hbefore.1))).trans (ih hbefore.2)

/-- The loop of `GEDS::relocate` over all handles takes the lock of each file under that of the
registry; the relocation of an idle local file replaces the file in the registry under its lock.
The two can wait for each other forever. -/
theorem mayDeadlock_relocate_collectRelocatable (hclass : handle.handleClass = .localFile)
    (hblock : handle.isBlock = false) (hregistered : handle ∈ shared.fileHandles)
    (hvalid : shared.isInvalid (.registered handle) = false)
    (hunused : shared.openCount (.registered handle) = 0) (force' : Bool) :
    MayDeadlock shared (.relocate handle force) (.collectRelocatable force') := by
  obtain ⟨next, after, hrelocates, hhandles, hcounts⟩ :=
    @reaches_relocate shared handle ⟨(collectRelocatable force').program, [], []⟩ rfl hclass hblock
      hregistered hvalid hunused force
  obtain ⟨before, rest, hsplit, hbefore⟩ := List.eq_append_cons_of_mem hregistered
  obtain ⟨relocating, hrelocating⟩ : ∃ relocating : NodeThread, relocating =
    ⟨.acquire .registry .exclusive next, [(.file (.registered handle), .exclusive)], []⟩ := ⟨_, rfl⟩
  have hheld : relocating.held = [(.file (.registered handle), .exclusive)] := by rw [hrelocating]
  have hlisted : RunsSecond relocating [(.registry, .shared)] after (.ask fun s _ => s.fileHandles)
      after (before ++ handle :: rest) :=
    .ask (by simp) ⟨true, .remote, 0⟩ (by rw [hhandles, hsplit])
  have hasked : RunsSecond relocating [(.registry, .shared)] after
      (.ask fun s _ => (decide (s.openCount (.registered handle) = 0) || force') &&
        isRelocatable handle) after true :=
    .ask (by simp) ⟨true, .remote, 0⟩ (by
      simp only [hcounts, hunused, isRelocatable, hclass, decide_true, Bool.true_or, Bool.and_self])
  have hregistry : relocating.holds .registry = false := by
    rw [holds_eq_false_iff, hheld]
    simp
  have hreaches : ∃ next next', NodeReaches
      ⟨shared, [⟨(relocate handle force).program, [], []⟩,
        ⟨(collectRelocatable force').program, [], []⟩]⟩
      ⟨after, [⟨.acquire .registry .exclusive next, [(.file (.registered handle), .exclusive)], []⟩,
        ⟨.acquire (.file (.registered handle)) .exclusive next', [(.registry, .shared)], []⟩]⟩ := by
    refine ⟨next, ?next', hrelocates.trans ?reaches⟩
    case reaches =>
      rw [← hrelocating, Code.program, collectRelocatable_eq]
      refine (reaches_acquire_second (Or.inr (by simp)) hregistry).trans ?_
      refine (reaches_second hlisted).trans ((reaches_collect hheld hbefore).trans ?_)
      rw [Code.forEach, collectOne, Code.andThen_assoc]
      exact reaches_second hasked
  exact mayDeadlock_of_reaches hreaches List.mem_cons_self (Or.inl rfl) List.mem_cons_self
    (Or.inl rfl)

end Loop

namespace Sample

/-- A local file that nobody uses, and one that was relocated. -/
def kept : Handle := ⟨0, text "bucket", text "kept", .localFile, by simp⟩

def moved : Handle := ⟨1, text "bucket", text "moved", .s3, by decide⟩

def twoFiles : NodeHandles where
  fileHandles := [moved, kept]
  openCount := fun _ => 0
  isInvalid := fun _ => false
  replaced := fun _ => none
  blocks := fun _ _ _ => none
  made := 2

theorem relocating_deadlocks : MayDeadlock twoFiles (.relocate kept false) (.collectRelocatable true) :=
  mayDeadlock_relocate_collectRelocatable rfl (by decide) (by decide) rfl rfl true

theorem reading_deadlocks : MayDeadlock twoFiles (.readBytes moved 0 8) (.sealHandle moved) :=
  mayDeadlock_readBytes_seal rfl rfl 0 (by decide)

end Sample

end HandleLocks

end GEDS
