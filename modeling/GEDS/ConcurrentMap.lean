/-
`utility::ConcurrentMap`, an ordered map whose methods each run under the lock
of the map.
-/
import GEDS.Path

namespace GEDS

universe u v

/-- `utility::ConcurrentMap` -/
abbrev ConcurrentMap (κ : Type u) (ν : Type v) [LinearOrder κ] := OrderedMap κ ν

namespace ConcurrentMap

variable {κ : Type u} {ν : Type v} [LinearOrder κ] (map : ConcurrentMap κ ν)

def get (key : κ) : Option ν := map.find key

/-- The value that is in the map afterwards is returned. -/
def insertOrExists (key : κ) (value : ν) : ν × ConcurrentMap κ ν :=
  match map.find key with
  | none => (value, map.insert key value)
  | some existing => (existing, map)

def insertOrReplace (key : κ) (value : ν) : ConcurrentMap κ ν := map.insert key value

def remove (key : κ) : Bool × ConcurrentMap κ ν :=
  match map.find key with
  | none => (false, map)
  | some _ => (true, map.erase key)

def removeIf (key : κ) (selector : ν → Bool) : Bool × ConcurrentMap κ ν :=
  match map.find key with
  | none => (false, map)
  | some value => if selector value then (true, map.erase key) else (false, map)

def removeRange (probe : OrderedMap.Probe κ) : ConcurrentMap κ ν :=
  if (map.equalRange probe).1 ≠ map.endPos then
    map.eraseRange (map.equalRange probe) (map.equalRange_le probe)
  else map

theorem find_insertOrExists (key : κ) (value : ν) (other : κ) :
    (map.insertOrExists key value).2.find other =
      if other = key then some ((map.find key).getD value) else map.find other := by
  rw [insertOrExists]
  cases hfind : map.find key with
  | none => simp [OrderedMap.find_insert]
  | some existing =>
      split_ifs with hother
      · rw [hother]
        simpa using hfind
      · rfl

theorem insertOrExists_fst (key : κ) (value : ν) :
    (map.insertOrExists key value).1 = (map.find key).getD value := by
  rw [insertOrExists]
  cases map.find key <;> rfl

theorem find_remove (key other : κ) :
    (map.remove key).2.find other = if other = key then none else map.find other := by
  rw [remove]
  cases hfind : map.find key with
  | none =>
      split_ifs with hother
      · rw [hother]
        exact hfind
      · rfl
  | some value => exact map.find_erase key other

/-- The equal range of a probe is removed, wherever it starts. -/
theorem find_removeRange (probe : OrderedMap.Probe κ) (other : κ) :
    (map.removeRange probe).find other =
      if probe.accepts other then none else map.find other := by
  rw [removeRange]
  by_cases hend : (map.equalRange probe).1 = map.endPos
  · rw [if_neg (not_not.mpr hend)]
    split_ifs with haccepts
    · rw [OrderedMap.find_eq_none_iff]
      intro entry hentry heq
      have hbelow := (map.lowerBound_eq_endPos_iff probe).mp hend entry hentry
      rw [OrderedMap.Probe.accepts_eq_true, ← heq] at haccepts
      exact Bool.false_ne_true (haccepts.1.symm.trans hbelow)
    · rfl
  · rw [if_pos hend]
    exact map.find_eraseRange_equalRange probe other

end ConcurrentMap

end GEDS
