/-
Moving the entries of a partial map, one after the other.  Each move finds its target
free, so no entry is overwritten, also if targets are keys that were moved away before.
-/
import Mathlib.Data.List.Nodup
import Mathlib.Data.Set.Function
import Mathlib.Logic.Function.Basic

namespace GEDS

universe u v

variable {κ : Type u} {ν : Type v}

/-- An entry is not a target: the target would not be free. -/
theorem ne_target_of_some {entries : κ → Option ν} {free other : κ} {value : ν}
    (hfree : entries free = none) (hvalue : entries other = some value) : other ≠ free := by
  rintro rfl
  exact absurd (hfree.symm.trans hvalue) (Option.some_ne_none value).symm

variable [DecidableEq κ]

/-- What is under the source goes under the target. -/
def moveEntry (entries : κ → Option ν) (source target : κ) : κ → Option ν :=
  Function.update (Function.update entries target (entries source)) source none

/-- The entries after the moves of some keys, each to a target that is free then. -/
def Moved (target : κ → κ) : List κ → (κ → Option ν) → (κ → Option ν) → Prop
  | [], entries, entries' => entries' = entries
  | key :: rest, entries, entries' =>
      entries (target key) = none ∧ Moved target rest (moveEntry entries key (target key)) entries'

variable {target : κ → κ} {entries entries' : κ → Option ν} {keys : List κ} {key : κ} {value : ν}

theorem moveEntry_source (source other : κ) : moveEntry entries source other source = none :=
  Function.update_self _ _ _

theorem moveEntry_target {source other : κ} (hne : other ≠ source) :
    moveEntry entries source other other = entries source := by
  rw [moveEntry, Function.update_of_ne hne, Function.update_self]

theorem moveEntry_of_ne {source other : κ} (hsource : key ≠ source) (hother : key ≠ other) :
    moveEntry entries source other key = entries key := by
  rw [moveEntry, Function.update_of_ne hsource, Function.update_of_ne hother]

namespace Moved

/-- A key that is no source and no target keeps what it has. -/
theorem elsewhere (h : Moved target keys entries entries') (hkey : key ∉ keys)
    (htarget : ∀ other ∈ keys, target other ≠ key) : entries' key = entries key := by
  induction keys generalizing entries with
  | nil => rw [show entries' = entries from h]
  | cons head rest ih =>
      rw [List.mem_cons, not_or] at hkey
      rw [List.forall_mem_cons] at htarget
      rw [ih h.2 hkey.2 htarget.2, moveEntry_of_ne hkey.1 (Ne.symm htarget.1)]

/-- An entry whose key is no source is kept. -/
theorem kept (h : Moved target keys entries entries') (hkey : key ∉ keys)
    (hvalue : entries key = some value) : entries' key = some value := by
  induction keys generalizing entries with
  | nil => rwa [show entries' = entries from h]
  | cons head rest ih =>
      rw [List.mem_cons, not_or] at hkey
      apply ih h.2 hkey.2
      rw [moveEntry_of_ne hkey.1 (ne_target_of_some h.1 hvalue), hvalue]

/-- No entry is moved onto itself. -/
theorem target_ne (h : Moved target keys entries entries') (hnodup : keys.Nodup) (hkey : key ∈ keys)
    (hvalue : entries key = some value) : target key ≠ key := by
  induction keys generalizing entries with
  | nil => exact absurd hkey List.not_mem_nil
  | cons head rest ih =>
      rw [List.nodup_cons] at hnodup
      have hne := ne_target_of_some h.1 hvalue
      rcases List.mem_cons.1 hkey with rfl | hrest
      · exact hne.symm
      · have hhead : key ≠ head := fun heq => hnodup.1 (heq ▸ hrest)
        apply ih h.2 hnodup.2 hrest
        rw [moveEntry_of_ne hhead hne, hvalue]

/-- The entry of a source is under its target in the end. -/
theorem at_target (h : Moved target keys entries entries') (hnodup : keys.Nodup)
    (hinj : Set.InjOn target {key | key ∈ keys}) (hkey : key ∈ keys)
    (hvalue : ∀ other ∈ keys, entries other ≠ none) : entries' (target key) = entries key := by
  induction keys generalizing entries with
  | nil => exact absurd hkey List.not_mem_nil
  | cons head rest ih =>
      rw [List.nodup_cons] at hnodup
      rw [List.forall_mem_cons] at hvalue
      obtain ⟨found, hfound⟩ := Option.ne_none_iff_exists'.1 hvalue.1
      have hne : target head ≠ head := (ne_target_of_some h.1 hfound).symm
      -- a source that is left is not the target that was just filled
      have hleft : ∀ other ∈ rest, other ≠ head ∧ other ≠ target head := by
        intro other hother
        obtain ⟨found', hfound'⟩ := Option.ne_none_iff_exists'.1 (hvalue.2 other hother)
        exact ⟨fun heq => hnodup.1 (heq ▸ hother), ne_target_of_some h.1 hfound'⟩
      rcases List.mem_cons.1 hkey with rfl | hrest
      · rw [hfound]
        apply kept h.2 fun hmem => (hleft _ hmem).2 rfl
        rw [moveEntry_target hne, hfound]
      · rw [ih h.2 hnodup.2 (hinj.mono fun _ => List.mem_cons_of_mem head) hrest,
          moveEntry_of_ne (hleft key hrest).1 (hleft key hrest).2]
        intro other hother
        rw [moveEntry_of_ne (hleft other hother).1 (hleft other hother).2]
        exact hvalue.2 other hother

/-- A source that is no target has no entry in the end. -/
theorem gone (h : Moved target keys entries entries') (hkey : key ∈ keys)
    (htarget : ∀ other ∈ keys, target other ≠ key) : entries' key = none := by
  induction keys generalizing entries with
  | nil => exact absurd hkey List.not_mem_nil
  | cons head rest ih =>
      rw [List.forall_mem_cons] at htarget
      by_cases hrest : key ∈ rest
      · exact ih h.2 hrest htarget.2
      · obtain rfl : key = head := (List.mem_cons.1 hkey).resolve_right hrest
        rw [elsewhere h.2 hrest htarget.2, moveEntry_source]

end Moved

end GEDS
