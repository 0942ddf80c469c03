/-
The cycle of the storage monitoring thread: what it adds up, and the handles that it relocates
once the local storage is filled beyond its target.
-/
import GEDS.Library.TakeUntil
import GEDS.StorageAccounting

namespace GEDS

open SharedParts

universe u

/-- What a handle answers in one cycle.  Its size is asked for once more when the handles to
relocate are chosen. -/
structure HandleAnswers where
  localStorageSize : UInt64
  localMemorySize : UInt64
  isRelocatable : Bool
  openCount : Int
  isValid : Bool
  lastReleased : Int
  sizeWhenChosen : UInt64
deriving DecidableEq

/-- What a cycle has gathered from the handles. -/
structure MonitorCycle (ι : Type u) where
  memoryUsed : UInt64
  storageUsed : UInt64
  relocatable : List ι

namespace MonitorCycle

variable {ι : Type u} (answers : ι → HandleAnswers)

def mayRelocate (fh : ι) : Bool :=
  (answers fh).isRelocatable && decide ((answers fh).openCount = 0) && (answers fh).isValid

/-- The loop over `allFileHandles` -/
def gather (allFileHandles : List ι) : MonitorCycle ι :=
  allFileHandles.foldl (fun cycle fh =>
    { memoryUsed := cycle.memoryUsed + (answers fh).localMemorySize
      storageUsed := cycle.storageUsed + (answers fh).localStorageSize
      relocatable := if mayRelocate answers fh then cycle.relocatable ++ [fh]
        else cycle.relocatable }) ⟨0, 0, []⟩

/-- What `std::sort` may make of the handles; it is not stable. -/
structure Sorts (relocatable sorted : List ι) : Prop where
  perm : sorted.Perm relocatable
  released : sorted.Pairwise fun a b => (answers a).lastReleased ≤ (answers b).lastReleased

def relocateBytes (tasks : List ι) : UInt64 :=
  tasks.foldl (fun bytes fh => bytes + (answers fh).sizeWhenChosen) 0

/-- The handles that are relocated, of those that were sorted. -/
def tasks (storageUsed targetStorage : UInt64) (sorted : List ι) : List ι :=
  if storageUsed > targetStorage then
    takeUntil (fun bytes => decide (bytes > storageUsed - targetStorage))
      (fun bytes fh => bytes + (answers fh).sizeWhenChosen) 0 sorted
  else []

variable {answers}

theorem gather_eq (allFileHandles : List ι) (cycle : MonitorCycle ι) :
    allFileHandles.foldl (fun cycle fh =>
      { memoryUsed := cycle.memoryUsed + (answers fh).localMemorySize
        storageUsed := cycle.storageUsed + (answers fh).localStorageSize
        relocatable := if mayRelocate answers fh then cycle.relocatable ++ [fh]
          else cycle.relocatable }) cycle =
      { memoryUsed := allFileHandles.foldl
          (fun used fh => used + (answers fh).localMemorySize) cycle.memoryUsed
        storageUsed := allFileHandles.foldl
          (fun used fh => used + (answers fh).localStorageSize) cycle.storageUsed
        relocatable := cycle.relocatable ++ allFileHandles.filter (mayRelocate answers) } := by
  induction allFileHandles generalizing cycle with
  | nil => simp
  | cons fh rest ih =>
      rw [List.foldl_cons, ih, List.filter_cons]
      split_ifs <;> simp

theorem relocatable_gather (allFileHandles : List ι) :
    (gather answers allFileHandles).relocatable = allFileHandles.filter (mayRelocate answers) := by
  rw [gather, gather_eq, List.nil_append]

theorem storageUsed_gather (allFileHandles : List ι) :
    (gather answers allFileHandles).storageUsed =
      allFileHandles.foldl (fun used fh => used + (answers fh).localStorageSize) 0 := by
  rw [gather, gather_eq]

theorem tasks_isPrefix (storageUsed targetStorage : UInt64) (sorted : List ι) :
    tasks answers storageUsed targetStorage sorted <+: sorted := by
  rw [tasks]
  split_ifs
  · exact TakeUntil.takes_isPrefix
  · exact List.nil_prefix

/-- In every cycle, however the handles are sorted: nothing is relocated up to the target.
Beyond it only handles that are registered, relocatable, closed and valid are, each of them
released no later than those that stay; their bytes exceed what is too much unless there are no
other handles, and do not without the last of them. -/
theorem spills (allFileHandles : List ι) (targetStorage : UInt64) {sorted : List ι}
    (hsorts : Sorts answers (gather answers allFileHandles).relocatable sorted) :
    ∃ chosen left, sorted = chosen ++ left ∧
      tasks answers (gather answers allFileHandles).storageUsed targetStorage sorted = chosen ∧
      (chosen ≠ [] → (gather answers allFileHandles).storageUsed > targetStorage) ∧
      (∀ fh ∈ chosen, fh ∈ allFileHandles ∧ (answers fh).isRelocatable = true ∧
        (answers fh).openCount = 0 ∧ (answers fh).isValid = true) ∧
      (∀ fh ∈ chosen, ∀ kept ∈ left, (answers fh).lastReleased ≤ (answers kept).lastReleased) ∧
      ((gather answers allFileHandles).storageUsed > targetStorage → left = [] ∨
        relocateBytes answers chosen >
          (gather answers allFileHandles).storageUsed - targetStorage) ∧
      ∀ fewer, fewer <+: chosen → fewer ≠ chosen → relocateBytes answers fewer ≤
        (gather answers allFileHandles).storageUsed - targetStorage := by
  generalize hused : (gather answers allFileHandles).storageUsed = storageUsed
  obtain ⟨left, hleft⟩ := @tasks_isPrefix _ answers storageUsed targetStorage sorted
  refine ⟨_, left, hleft.symm, rfl, fun hsome => ?_, fun fh hfh => ?_, fun fh hfh kept hkept => ?_,
    fun hover => ?_, fun fewer hfewer hproper => ?_⟩
  · by_contra hunder
    rw [tasks, if_neg hunder] at hsome
    exact hsome rfl
  · have hgathered := hsorts.perm.subset (hleft ▸ List.mem_append_left left hfh)
    rw [relocatable_gather, List.mem_filter, mayRelocate, Bool.and_eq_true, Bool.and_eq_true,
      decide_eq_true_eq] at hgathered
    exact ⟨hgathered.1, hgathered.2.1.1, hgathered.2.1.2, hgathered.2.2⟩
  · have hreleased := hsorts.released
    rw [← hleft, List.pairwise_append] at hreleased
    exact hreleased.2.2 fh hfh kept hkept
  · rw [tasks, if_pos hover] at hleft ⊢
    rcases @TakeUntil.all_or_enough _ _ (fun bytes => decide (bytes > storageUsed - targetStorage))
      (fun bytes fh => bytes + (answers fh).sizeWhenChosen) 0 sorted with hall | henough
    · rw [hall] at hleft
      exact Or.inl (List.append_right_eq_self.1 hleft)
    · exact Or.inr (of_decide_eq_true henough)
  · rw [tasks] at hfewer hproper
    split_ifs at hfewer hproper
    · have hnot := TakeUntil.not_enough hfewer hproper
      exact UInt64.not_lt.1 (of_decide_eq_false hnot)
    · exact absurd (List.prefix_nil.1 hfewer) hproper

namespace Sample

/-- Three closed handles with the same size, the second one released first. -/
def threeHandles (fh : Nat) : HandleAnswers :=
  ⟨10, 0, true, 0, true, if fh = 1 then 5 else 7, 10⟩

theorem oldest_spilled : tasks threeHandles 30 25 [1, 0, 2] = [1] ∧
    (threeHandles 1).lastReleased ≤ (threeHandles 0).lastReleased := by
  have hsorts : Sorts threeHandles (gather threeHandles [0, 1, 2]).relocatable [1, 0, 2] :=
    ⟨by decide, by decide⟩
  obtain ⟨chosen, left, hsorted, htasks, -, -, hbefore, -, -⟩ := spills [0, 1, 2] 25 hsorts
  obtain rfl : chosen = [1] := htasks.symm.trans (by decide)
  obtain rfl : left = [0, 2] := (List.cons.inj hsorted).2.symm
  exact ⟨htasks, hbefore 1 List.mem_cons_self 0 List.mem_cons_self⟩

end Sample

end MonitorCycle

end GEDS
