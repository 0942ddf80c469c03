/-
`GEDS::relocate` for a list of handles: a task for each handle that is still valid, at most so
many at a time, and a wait at the end for a counter that starts with the length of the list.
-/
import GEDS.Object

namespace GEDS

universe u

/-- Where the thread that called `relocate` is. -/
inductive BatchCaller (α : Type u) where
  | loop (rest : List α)
  | throttled (rest : List α)
  | waiting
  | returned
deriving DecidableEq

/-- `RelocateHelper`, the caller, and the tasks that are posted and have not finished. -/
structure BatchRelocation (α : Type u) where
  nTasks : UInt64
  activeTasks : Int
  caller : BatchCaller α
  pending : List α
deriving DecidableEq

/-- A `std::vector` of handles; its size is a `size_t`. -/
structure HandleVector (α : Type u) where
  handles : List α
  size_lt : handles.length < 2 ^ 64

inductive BatchEvent where
  /-- The loop takes the next handle and asks `isValid`. -/
  | reach (isValid : Bool)
  /-- The wait in the loop returns. -/
  | proceed
  | endLoop
  /-- A task ends, also by an exception, and counts itself out. -/
  | finish (index : Nat) (thrown : Bool)
  /-- The wait behind the loop returns. -/
  | leave
deriving DecidableEq

namespace BatchRelocation

variable {α : Type u}

def start (relocatable : HandleVector α) : BatchRelocation α where
  nTasks := UInt64.ofNat relocatable.handles.length
  activeTasks := 0
  caller := .loop relocatable.handles
  pending := []

/-- `none` if the step cannot be taken; `tpSize` is the size of the thread pool. -/
def step (tpSize : Int) (s : BatchRelocation α) : BatchEvent → Option (BatchRelocation α)
  | .reach isValid =>
      match s.caller with
      | .loop (fh :: rest) =>
          if isValid then
            some { s with
              activeTasks := s.activeTasks + 1
              caller := .throttled rest
              pending := s.pending ++ [fh] }
          else some { s with caller := .loop rest }
      | _ => none
  | .proceed =>
      match s.caller with
      | .throttled rest =>
          if s.activeTasks ≤ tpSize + 1 then some { s with caller := .loop rest } else none
      | _ => none
  | .endLoop =>
      match s.caller with
      | .loop [] => some { s with caller := .waiting }
      | _ => none
  | .finish index _ =>
      if index < s.pending.length then
        some { s with
          nTasks := s.nTasks - 1
          activeTasks := s.activeTasks - 1
          pending := s.pending.eraseIdx index }
      else none
  | .leave =>
      match s.caller with
      | .waiting => if s.nTasks = 0 then some { s with caller := .returned } else none
      | _ => none

def run (tpSize : Int) (s : BatchRelocation α) : List BatchEvent → Option (BatchRelocation α)
  | [] => some s
  | event :: rest => (s.step tpSize event).bind fun s => run tpSize s rest

/-- The handles that the loop has not reached. -/
def rest (s : BatchRelocation α) : List α :=
  match s.caller with
  | .loop rest | .throttled rest => rest
  | .waiting | .returned => []

/-- The loop is over and every posted task has finished. -/
def Complete (s : BatchRelocation α) : Prop := s.caller = .waiting ∧ s.pending = []

/-- A handle that is invalid when the loop reaches it. -/
def isSkip : BatchEvent → Bool
  | .reach isValid => !isValid
  | _ => false

/-- The counters, after some handles were skipped. -/
structure Counts (s : BatchRelocation α) (skipped : Nat) : Prop where
  nTasks : s.nTasks.toNat = skipped + s.pending.length + s.rest.length
  activeTasks : s.activeTasks = s.pending.length

variable {tpSize : Int} {s s' : BatchRelocation α} {skipped : Nat} {event : BatchEvent}

theorem start_counts (relocatable : HandleVector α) : (start relocatable).Counts 0 := by
  refine ⟨?_, rfl⟩
  simpa [start, rest] using relocatable.size_lt

/-- What a step does to the counters. -/
theorem Counts.step (hcounts : s.Counts skipped) (hstep : s.step tpSize event = some s') :
    s'.Counts (skipped + (if isSkip event then 1 else 0)) := by
  have hn := hcounts.nTasks
  have hactive := hcounts.activeTasks
  cases event with
  | reach isValid =>
      simp only [BatchRelocation.step] at hstep
      split at hstep
      · rename_i fh rest hcaller
        simp only [BatchRelocation.rest, hcaller, List.length_cons] at hn
        cases isValid with
        | true =>
            obtain rfl := Option.some.inj hstep
            refine ⟨?_, ?_⟩
            · simp only [BatchRelocation.rest, List.length_append, List.length_singleton, isSkip,
                Bool.not_true, Bool.false_eq_true, ↓reduceIte]
              omega
            · simp [hactive]
        | false =>
            obtain rfl := Option.some.inj hstep
            refine ⟨?_, hactive⟩
            simp only [BatchRelocation.rest, isSkip, Bool.not_false, ↓reduceIte]
            omega
      · cases hstep
  | proceed =>
      simp only [BatchRelocation.step] at hstep
      split at hstep
      · rename_i rest hcaller
        simp only [BatchRelocation.rest, hcaller] at hn
        split_ifs at hstep
        obtain rfl := Option.some.inj hstep
        exact ⟨hn, hactive⟩
      · cases hstep
  | endLoop =>
      simp only [BatchRelocation.step] at hstep
      split at hstep
      · rename_i hcaller
        simp only [BatchRelocation.rest, hcaller] at hn
        obtain rfl := Option.some.inj hstep
        exact ⟨hn, hactive⟩
      · cases hstep
  | finish index thrown =>
      simp only [BatchRelocation.step] at hstep
      split_ifs at hstep with hindex
      obtain rfl := Option.some.inj hstep
      have hone : (1 : UInt64).toNat = 1 := rfl
      have hpositive : 1 ≤ s.nTasks := by
        rw [UInt64.le_iff_toNat_le]
        omega
      refine ⟨?_, ?_⟩
      · rw [UInt64.toNat_sub_of_le _ _ hpositive, List.length_eraseIdx_of_lt hindex]
        simp only [isSkip, Bool.false_eq_true, ↓reduceIte]
        change s.nTasks.toNat - 1 = skipped + 0 + (s.pending.length - 1) + s.rest.length
        omega
      · change s.activeTasks - 1 = ((s.pending.eraseIdx index).length : Int)
        rw [List.length_eraseIdx_of_lt hindex, hactive]
        omega
  | leave =>
      simp only [BatchRelocation.step] at hstep
      split at hstep
      · rename_i hcaller
        simp only [BatchRelocation.rest, hcaller] at hn
        split_ifs at hstep
        obtain rfl := Option.some.inj hstep
        exact ⟨hn, hactive⟩
      · cases hstep

/-- What a run does to the counters: they stay too high by the handles that were skipped. -/
theorem Counts.run {events : List BatchEvent} (hcounts : s.Counts skipped)
    (hrun : s.run tpSize events = some s') : s'.Counts (skipped + events.countP isSkip) := by
  induction events generalizing s skipped with
  | nil =>
      obtain rfl := Option.some.inj hrun
      exact hcounts
  | cons event rest ih =>
      rw [BatchRelocation.run, Option.bind_eq_some_iff] at hrun
      obtain ⟨next, hstep, hrest⟩ := hrun
      have hnext := ih (hcounts.step hstep) hrest
      rwa [List.countP_cons, Nat.add_comm (rest.countP isSkip), ← Nat.add_assoc]

/-- Once every posted task has finished the counters are zero, and the last wait can return,
exactly if no handle was skipped. -/
theorem complete_iff (relocatable : HandleVector α) (tpSize : Int) (events : List BatchEvent)
    (s : BatchRelocation α) (hrun : (start relocatable).run tpSize events = some s)
    (hcomplete : s.Complete) :
    (s.nTasks = 0 ∧ s.activeTasks = 0 ∧ (s.step tpSize .leave).isSome = true) ↔
      ∀ event ∈ events, event ≠ .reach false := by
  obtain ⟨hcaller, hpending⟩ := hcomplete
  have hcounts := (start_counts relocatable).run hrun
  have hn := hcounts.nTasks
  have hactive := hcounts.activeTasks
  simp only [hpending, rest, hcaller, List.length_nil, Nat.zero_add, Nat.add_zero] at hn hactive
  have hskip : ∀ event, isSkip event = true ↔ event = .reach false := by
    intro event
    cases event <;> simp [isSkip]
  have hzero : s.nTasks = 0 ↔ ∀ event ∈ events, event ≠ .reach false := by
    rw [← UInt64.toNat_inj, hn, UInt64.toNat_zero, List.countP_eq_zero]
    simp only [hskip, ne_eq]
  constructor
  · rintro ⟨hdone, -, -⟩
    exact hzero.1 hdone
  · intro hnone
    have hdone := hzero.2 hnone
    refine ⟨hdone, by simpa using hactive, ?_⟩
    simp [step, hcaller, hdone]

/-- With a handle that was skipped nothing can happen any more: the wait never returns. -/
theorem stuck_of_skip {relocatable : HandleVector α} {events : List BatchEvent}
    (hrun : (start relocatable).run tpSize events = some s) (hcomplete : s.Complete)
    (hskipped : .reach false ∈ events) (event : BatchEvent) : s.step tpSize event = none := by
  obtain ⟨hcaller, hpending⟩ := hcomplete
  have hn := ((start_counts relocatable).run hrun).nTasks
  have hpositive : 0 < events.countP isSkip := List.countP_pos_iff.2 ⟨_, hskipped, rfl⟩
  have hne : s.nTasks ≠ 0 := by
    intro hzero
    rw [hzero, UInt64.toNat_zero] at hn
    omega
  cases event <;> simp [step, hcaller, hpending, hne]

/-- Two handles; the second has become invalid. -/
def twoHandles : HandleVector Nat := ⟨[7, 9], by decide⟩

/-- One task, which finishes, and still the counter is one. -/
theorem complete_with_skip :
    (start twoHandles).run 4 [.reach true, .proceed, .reach false, .finish 0 false, .endLoop] =
        some ⟨1, 0, .waiting, []⟩ ∧
      (⟨1, 0, .waiting, []⟩ : BatchRelocation Nat).Complete ∧
      ¬ ((⟨1, 0, .waiting, []⟩ : BatchRelocation Nat).nTasks = 0 ∧
        (⟨1, 0, .waiting, []⟩ : BatchRelocation Nat).activeTasks = 0 ∧
        ((⟨1, 0, .waiting, []⟩ : BatchRelocation Nat).step 4 .leave).isSome = true) :=
  ⟨by decide, ⟨rfl, rfl⟩, by decide⟩

/-- Both tasks finish, one of them by an exception. -/
theorem complete_iff_two :
    (⟨0, 0, .waiting, []⟩ : BatchRelocation Nat).nTasks = 0 ∧
      (⟨0, 0, .waiting, []⟩ : BatchRelocation Nat).activeTasks = 0 ∧
      ((⟨0, 0, .waiting, []⟩ : BatchRelocation Nat).step 4 .leave).isSome = true :=
  (complete_iff twoHandles 4
    [.reach true, .proceed, .reach true, .finish 1 true, .proceed, .finish 0 false, .endLoop]
    ⟨0, 0, .waiting, []⟩ (by decide) ⟨rfl, rfl⟩).2 (by decide)

end BatchRelocation

end GEDS
