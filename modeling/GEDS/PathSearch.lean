/-
The search behind `utility::prefixSearch`.  `std::map` and `std::set` look for the two ends of
`equal_range` by going down their tree, and each descent asks one comparison of the few keys on
its way only; what lies between the ends rests on the order of all the others.
-/
import GEDS.Library.SearchTree
import GEDS.Path

namespace GEDS

universe u v

variable {β : Type u} {ν : Type v}

/-- `std::map` with `utility::Path` as its key: a tree in the order of `Path::operator<`, where a
node carries a colour `β`.  For `std::set` there is no value beside the key. -/
structure PathMap (β : Type u) (ν : Type v) where
  tree : SearchTree β (Bytes × ν)
  sorted : tree.toList.Pairwise fun left right => left.1 < right.1

namespace PathMap

/-- The entries in the order of an iteration. -/
def entries (container : PathMap β ν) : List (Bytes × ν) := container.tree.toList

/-- The tree as a map of its own, its shape forgotten. -/
def toOrderedMap (container : PathMap β ν) : OrderedMap Bytes ν :=
  ⟨container.tree.toList, container.sorted⟩

/-- `utility::prefixSearch`: the positions of the two iterators of `equal_range`. -/
def prefixSearch (container : PathMap β ν) (pre : Bytes) : Nat × Nat :=
  (container.tree.lowerBound fun entry => pathLessProbe entry.1 ⟨pre⟩,
    container.tree.upperBound fun entry => probeLessPath ⟨pre⟩ entry.1)

/-- The entries from the first iterator up to the second. -/
def range (container : PathMap β ν) (bounds : Nat × Nat) : List (Bytes × ν) :=
  (container.entries.drop bounds.1).take (bounds.2 - bounds.1)

/-- The two comparisons exclude each other. -/
theorem probeLessPath_of_pathLessProbe {pre name : Bytes}
    (hbelow : pathLessProbe name ⟨pre⟩ = true) : probeLessPath ⟨pre⟩ name = false :=
  probeBelow_probeAbove_disjoint pre hbelow

/-- A name above the probe is above the prefix. -/
theorem lt_of_probeLessPath {pre name : Bytes} (habove : probeLessPath ⟨pre⟩ name = true) :
    pre < name := by
  rw [probeLessPath, decide_eq_true_eq] at habove
  exact lt_of_take_lt_take (n := pre.length) (by rwa [List.take_length])

/-- Where the two comparisons cut the entries into three blocks, the descents find the block in
the middle. -/
theorem prefixSearch_of_cut {container : PathMap β ν} {pre : Bytes}
    {lower middle upper : List (Bytes × ν)}
    (hcut : container.entries = lower ++ (middle ++ upper))
    (hlower : ∀ entry ∈ lower, pathLessProbe entry.1 ⟨pre⟩ = true ∧
      probeLessPath ⟨pre⟩ entry.1 = false)
    (hmiddle : ∀ entry ∈ middle, pathLessProbe entry.1 ⟨pre⟩ = false ∧
      probeLessPath ⟨pre⟩ entry.1 = false)
    (hupper : ∀ entry ∈ upper, pathLessProbe entry.1 ⟨pre⟩ = false ∧
      probeLessPath ⟨pre⟩ entry.1 = true) :
    container.prefixSearch pre = (lower.length, (lower ++ middle).length) := by
  have hlow : container.tree.lowerBound (fun entry => pathLessProbe entry.1 ⟨pre⟩) =
      lower.length := by
    refine SearchTree.lowerBound_of_cut hcut (fun entry hentry => (hlower entry hentry).1) ?_
    intro entry hentry
    rcases List.mem_append.1 hentry with hmem | hmem
    · exact (hmiddle entry hmem).1
    · exact (hupper entry hmem).1
  have hup : container.tree.upperBound (fun entry => probeLessPath ⟨pre⟩ entry.1) =
      (lower ++ middle).length := by
    refine @SearchTree.lowerBound_of_cut _ _ _ _ (lower ++ middle) upper
      (by rw [List.append_assoc]; exact hcut) ?_ ?_
    · intro entry hentry
      rcases List.mem_append.1 hentry with hmem | hmem
      · simp only [(hlower entry hmem).2, Bool.not_false]
      · simp only [(hmiddle entry hmem).2, Bool.not_false]
    · intro entry hentry
      simp only [(hupper entry hentry).2, Bool.not_true]
  rw [prefixSearch, hlow, hup]

/-- A name above the probe is not below it. -/
theorem not_pathLessProbe {pre name : Bytes} (habove : probeLessPath ⟨pre⟩ name = true) :
    pathLessProbe name ⟨pre⟩ = false := by
  cases hbelow : pathLessProbe name ⟨pre⟩ with
  | false => rfl
  | true => exact absurd habove (by simp [probeLessPath_of_pathLessProbe hbelow])

/-- Whatever the shape of the tree, the descents end where a scan of all the entries does. -/
theorem prefixSearch_toOrderedMap (container : PathMap β ν) (pre : Bytes) :
    container.prefixSearch pre = GEDS.prefixSearch container.toOrderedMap pre := by
  have hdescents := @prefixSearch_of_cut _ _ container pre _ _ _
    (container.toOrderedMap.entries_split (PathPrefixProbe.toProbe ⟨pre⟩)).symm ?_ ?_ ?_
  · rw [hdescents, GEDS.prefixSearch, OrderedMap.equalRange, OrderedMap.lowerBound_eq,
      OrderedMap.upperBound_eq]
  · intro entry hentry
    have hbelow : pathLessProbe entry.1 ⟨pre⟩ = true := (List.mem_filter.1 hentry).2
    exact ⟨hbelow, probeLessPath_of_pathLessProbe hbelow⟩
  · intro entry hentry
    exact (OrderedMap.Probe.accepts_eq_true _ _).1 (List.mem_filter.1 hentry).2
  · intro entry hentry
    have habove : probeLessPath ⟨pre⟩ entry.1 = true := (List.mem_filter.1 hentry).2
    exact ⟨not_pathLessProbe habove, habove⟩

/-- The keys below the prefix come first, then those that start with it, then those above it,
and `equal_range` is the block in the middle. -/
theorem prefixSearch_partitions (container : PathMap β ν) (pre : Bytes) :
    ∃ lower middle upper, container.entries = lower ++ (middle ++ upper) ∧
      container.prefixSearch pre = (lower.length, (lower ++ middle).length) ∧
      container.range (container.prefixSearch pre) = middle ∧
      middle = container.entries.filter (fun entry => decide (pre <+: entry.1)) ∧
      (∀ entry ∈ lower, pathLessProbe entry.1 ⟨pre⟩ = true ∧
        probeLessPath ⟨pre⟩ entry.1 = false ∧ entry.1 < pre ∧ ¬ pre <+: entry.1) ∧
      (∀ entry ∈ middle, pathLessProbe entry.1 ⟨pre⟩ = false ∧
        probeLessPath ⟨pre⟩ entry.1 = false ∧ pre <+: entry.1) ∧
      ∀ entry ∈ upper, pathLessProbe entry.1 ⟨pre⟩ = false ∧
        probeLessPath ⟨pre⟩ entry.1 = true ∧ pre < entry.1 ∧ ¬ pre <+: entry.1 := by
  have hfilter := range_prefixSearch container.toOrderedMap pre
  have hsplit := container.toOrderedMap.entries_split (PathPrefixProbe.toProbe ⟨pre⟩)
  refine ⟨_, _, _, hsplit.symm, ?_, ?_, ?_, ?_, ?_, ?_⟩
  · rw [prefixSearch_toOrderedMap, GEDS.prefixSearch, OrderedMap.equalRange,
      OrderedMap.lowerBound_eq, OrderedMap.upperBound_eq]
  · rw [prefixSearch_toOrderedMap]
    exact container.toOrderedMap.range_equalRange _
  · exact (container.toOrderedMap.range_equalRange _).symm.trans hfilter
  · intro entry hentry
    have hbelow : pathLessProbe entry.1 ⟨pre⟩ = true := (List.mem_filter.1 hentry).2
    refine ⟨hbelow, probeLessPath_of_pathLessProbe hbelow, (probeBelow_iff_lt pre _).1 hbelow, ?_⟩
    exact fun hextends => not_lt_of_isPrefix hextends ((probeBelow_iff_lt pre _).1 hbelow)
  · intro entry hentry
    have haccepts := (List.mem_filter.1 hentry).2
    obtain ⟨hbelow, habove⟩ := (OrderedMap.Probe.accepts_eq_true _ _).1 haccepts
    exact ⟨hbelow, habove, (PathPrefixProbe.accepts_iff ⟨pre⟩ entry.1).1 haccepts⟩
  · intro entry hentry
    have habove : probeLessPath ⟨pre⟩ entry.1 = true := (List.mem_filter.1 hentry).2
    refine ⟨not_pathLessProbe habove, habove, lt_of_probeLessPath habove, ?_⟩
    intro hextends
    have hnot := ((isPrefix_iff_not_probe pre entry.1).1 hextends).2
    exact Bool.false_ne_true (hnot.symm.trans habove)

end PathMap

end GEDS
