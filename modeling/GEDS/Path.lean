/-
`utility::Path` and its heterogeneous prefix probe.  A path is ordered by its
name; a probe compares only the leading bytes of the name, and `prefixSearch`
asks an ordered map for the block of names equivalent to the probe.
-/
import GEDS.Library.PrefixOrder
import GEDS.Library.OrderedMap
import GEDS.Object

namespace GEDS

universe v

variable {ν : Type v}

/-- `utility::PathPrefixProbe` -/
structure PathPrefixProbe where
  pre : Bytes

/-- `Path::operator<(const PathPrefixProbe &)`: the cut of the name is
smaller. -/
def pathLessProbe (name : Bytes) (probe : PathPrefixProbe) : Bool :=
  decide (name.take probe.pre.length < probe.pre)

/-- `PathPrefixProbe::operator<(const Path &)`: the cut of the name is
larger. -/
def probeLessPath (probe : PathPrefixProbe) (name : Bytes) : Bool :=
  decide (probe.pre < name.take probe.pre.length)

/-- The two comparisons form a probe of an ordered map. -/
def PathPrefixProbe.toProbe (probe : PathPrefixProbe) : OrderedMap.Probe Bytes where
  below name := pathLessProbe name probe
  above name := probeLessPath probe name
  below_of_le hle := probeBelow_of_le probe.pre hle
  above_of_le hle := probeAbove_of_le probe.pre hle
  disjoint hbelow := probeBelow_probeAbove_disjoint probe.pre hbelow

theorem PathPrefixProbe.accepts_iff (probe : PathPrefixProbe) (name : Bytes) :
    probe.toProbe.accepts name = true ↔ probe.pre <+: name := by
  rw [OrderedMap.Probe.accepts_eq_true]
  exact (isPrefix_iff_not_probe probe.pre name).symm

/-- `utility::prefixSearch` -/
def prefixSearch (container : OrderedMap Bytes ν) (pre : Bytes) : Nat × Nat :=
  container.equalRange (PathPrefixProbe.toProbe ⟨pre⟩)

theorem prefixSearch_le (container : OrderedMap Bytes ν) (pre : Bytes) :
    (prefixSearch container pre).1 ≤ (prefixSearch container pre).2 :=
  container.equalRange_le _

/-- The range found by `prefixSearch` holds exactly the names that extend the
prefix, in name order. -/
theorem range_prefixSearch (container : OrderedMap Bytes ν) (pre : Bytes) :
    container.range (prefixSearch container pre) =
      container.entries.filter (fun entry => decide (pre <+: entry.1)) := by
  rw [prefixSearch, OrderedMap.range_equalRange, OrderedMap.accepted]
  congr 1
  funext entry
  rw [Bool.eq_iff_iff, PathPrefixProbe.accepts_iff, decide_eq_true_iff]

/-- `map.erase(prefixStart, prefixEnd)` -/
def erasePrefixRange (container : OrderedMap Bytes ν) (pre : Bytes) :
    OrderedMap Bytes ν :=
  container.eraseRange (prefixSearch container pre) (prefixSearch_le container pre)

@[simp] theorem find_erasePrefixRange (container : OrderedMap Bytes ν)
    (pre name : Bytes) :
    (erasePrefixRange container pre).find name =
      if pre <+: name then none else container.find name := by
  have hfind := container.find_eraseRange_equalRange
    (PathPrefixProbe.toProbe ⟨pre⟩) name
  change (erasePrefixRange container pre).find name = _ at hfind
  rw [hfind]
  by_cases hpre : pre <+: name
  · rw [if_pos ((PathPrefixProbe.accepts_iff ⟨pre⟩ name).mpr hpre), if_pos hpre]
  · have hnot : ¬ (PathPrefixProbe.toProbe ⟨pre⟩).accepts name = true :=
      fun haccepts => hpre ((PathPrefixProbe.accepts_iff ⟨pre⟩ name).mp haccepts)
    rw [if_neg hnot, if_neg hpre]

end GEDS
