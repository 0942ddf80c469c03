/-
Association lists and finite maps.  The list functions are usable inside a
nested inductive type; `AssocMap` adds the proof that no key occurs twice.
Iteration order carries no meaning: results about a traversal of such a map
are about its set of entries.
-/
import Mathlib.Data.List.Nodup
import Mathlib.Tactic

namespace GEDS

universe u v w

variable {κ : Type u} {ν : Type v} [DecidableEq κ]

theorem lookup_cons_eq_ite (key : κ) (entry : κ × ν) (rest : List (κ × ν)) :
    (entry :: rest).lookup key =
      if key = entry.1 then some entry.2 else rest.lookup key := by
  obtain ⟨head, value⟩ := entry
  by_cases heq : key = head
  · simp [heq]
  · have hbeq : (key == head) = false := beq_false_of_ne heq
    simp [List.lookup_cons, heq, hbeq]

theorem lookup_eq_none_iff_forall (key : κ) (entries : List (κ × ν)) :
    entries.lookup key = none ↔ ∀ entry ∈ entries, entry.1 ≠ key := by
  induction entries with
  | nil => simp
  | cons head tail ih =>
      rw [lookup_cons_eq_ite, List.forall_mem_cons]
      by_cases heq : key = head.1
      · simp [heq]
      · rw [if_neg heq, ih]
        exact (and_iff_right (Ne.symm heq)).symm

/-- With distinct keys, lookup is membership. -/
theorem lookup_eq_some_iff_mem {entries : List (κ × ν)}
    (hnodup : (entries.map Prod.fst).Nodup) (key : κ) (value : ν) :
    entries.lookup key = some value ↔ (key, value) ∈ entries := by
  induction entries with
  | nil => simp
  | cons head tail ih =>
      rw [List.map_cons, List.nodup_cons] at hnodup
      rw [lookup_cons_eq_ite, List.mem_cons]
      by_cases heq : key = head.1
      · have hnot : (key, value) ∉ tail := fun hmem =>
          hnodup.1 (heq ▸ List.mem_map_of_mem hmem)
        simp only [heq, ↓reduceIte, Option.some.injEq, Prod.ext_iff, true_and]
        constructor
        · exact fun hvalue => Or.inl hvalue.symm
        · rintro (hvalue | hmem)
          · exact hvalue.symm
          · exact absurd (heq ▸ hmem) hnot
      · have hne : (key, value) ≠ head := fun h => heq (congrArg Prod.fst h)
        simp [heq, hne, ih hnodup.2]

def assocErase (key : κ) (entries : List (κ × ν)) : List (κ × ν) :=
  entries.filter (fun entry => decide (entry.1 ≠ key))

def assocInsert (key : κ) (value : ν) (entries : List (κ × ν)) : List (κ × ν) :=
  assocErase key entries ++ [(key, value)]

@[simp] theorem lookup_assocErase (key other : κ) (entries : List (κ × ν)) :
    (assocErase key entries).lookup other =
      if other = key then none else entries.lookup other := by
  induction entries with
  | nil => simp [assocErase]
  | cons head tail ih =>
      rw [assocErase] at ih ⊢
      by_cases hhead : head.1 = key
      · rw [List.filter_cons_of_neg (by simpa using hhead), ih, lookup_cons_eq_ite]
        by_cases hother : other = key
        · simp [hother]
        · simp [hother, hhead]
      · rw [List.filter_cons_of_pos (by simpa using hhead), lookup_cons_eq_ite,
          lookup_cons_eq_ite, ih]
        by_cases hother : other = key
        · have hne : key ≠ head.1 := Ne.symm hhead
          simp [hother, hne]
        · simp [hother]

@[simp] theorem lookup_assocInsert (key : κ) (value : ν) (other : κ)
    (entries : List (κ × ν)) :
    (assocInsert key value entries).lookup other =
      if other = key then some value else entries.lookup other := by
  rw [assocInsert, List.lookup_append, lookup_assocErase, lookup_cons_eq_ite]
  by_cases hother : other = key <;> simp [hother]

theorem assocErase_keys_nodup (key : κ) {entries : List (κ × ν)}
    (hnodup : (entries.map Prod.fst).Nodup) :
    ((assocErase key entries).map Prod.fst).Nodup :=
  hnodup.sublist (List.filter_sublist.map Prod.fst)

theorem assocInsert_keys_nodup (key : κ) (value : ν) {entries : List (κ × ν)}
    (hnodup : (entries.map Prod.fst).Nodup) :
    ((assocInsert key value entries).map Prod.fst).Nodup := by
  rw [assocInsert, List.map_append, List.nodup_append']
  refine ⟨assocErase_keys_nodup key hnodup, by simp, ?_⟩
  simp [assocErase]

/-- A finite map without duplicated keys. -/
structure AssocMap (κ : Type u) (ν : Type v) where
  entries : List (κ × ν)
  nodup : (entries.map Prod.fst).Nodup

namespace AssocMap

def empty : AssocMap κ ν := ⟨[], by simp⟩

def find (table : AssocMap κ ν) (key : κ) : Option ν :=
  table.entries.lookup key

def insert (table : AssocMap κ ν) (key : κ) (value : ν) : AssocMap κ ν :=
  ⟨assocInsert key value table.entries,
    assocInsert_keys_nodup key value table.nodup⟩

def erase (table : AssocMap κ ν) (key : κ) : AssocMap κ ν :=
  ⟨assocErase key table.entries, assocErase_keys_nodup key table.nodup⟩

/-- The values met by iterating over the map. -/
def values (table : AssocMap κ ν) : List ν := table.entries.map Prod.snd

/-- The same keys with other values. -/
def map (table : AssocMap κ ν) (change : ν → ν) : AssocMap κ ν :=
  ⟨table.entries.map fun entry => (entry.1, change entry.2), by
    simpa [List.map_map, Function.comp_def] using table.nodup⟩

@[simp] theorem find_map (table : AssocMap κ ν) (change : ν → ν) (key : κ) :
    (table.map change).find key = (table.find key).map change := by
  obtain ⟨entries, hnodup⟩ := table
  simp only [find, map]
  clear hnodup
  induction entries with
  | nil => rfl
  | cons head tail ih =>
      rw [List.map_cons, lookup_cons_eq_ite, lookup_cons_eq_ite, ih]
      split_ifs <;> rfl

@[simp] theorem find_empty (key : κ) :
    (empty : AssocMap κ ν).find key = none := rfl

@[simp] theorem find_insert (table : AssocMap κ ν) (key : κ) (value : ν)
    (other : κ) : (table.insert key value).find other =
      if other = key then some value else table.find other :=
  lookup_assocInsert key value other table.entries

theorem find_insert_self (table : AssocMap κ ν) (key : κ) (value : ν) :
    (table.insert key value).find key = some value := by
  rw [find_insert, if_pos rfl]

theorem find_insert_of_ne (table : AssocMap κ ν) {key other : κ} (hne : other ≠ key)
    (value : ν) : (table.insert key value).find other = table.find other := by
  rw [find_insert, if_neg hne]

/-- What is found after an insertion was inserted or is old. -/
theorem find_insert_eq_some {table : AssocMap κ ν} {key other : κ} {value found : ν}
    (hfind : (table.insert key value).find other = some found) :
    other = key ∧ value = found ∨ other ≠ key ∧ table.find other = some found := by
  by_cases heq : other = key
  · rw [heq, find_insert_self] at hfind
    exact Or.inl ⟨heq, Option.some.inj hfind⟩
  · rw [find_insert_of_ne table heq] at hfind
    exact Or.inr ⟨heq, hfind⟩

@[simp] theorem find_erase (table : AssocMap κ ν) (key other : κ) :
    (table.erase key).find other =
      if other = key then none else table.find other :=
  lookup_assocErase key other table.entries

theorem find_erase_of_ne (table : AssocMap κ ν) {key other : κ} (hne : other ≠ key) :
    (table.erase key).find other = table.find other := by
  rw [find_erase, if_neg hne]

theorem find_erase_eq_some {table : AssocMap κ ν} {key other : κ} {found : ν}
    (hfind : (table.erase key).find other = some found) :
    other ≠ key ∧ table.find other = some found := by
  rw [find_erase] at hfind
  split_ifs at hfind with heq
  exact ⟨heq, hfind⟩

/-- The map without the keys that are not kept. -/
def filterKeys (table : AssocMap κ ν) (keep : κ → Bool) : AssocMap κ ν :=
  ⟨table.entries.filter fun entry => keep entry.1,
    table.nodup.sublist (List.filter_sublist.map Prod.fst)⟩

@[simp] theorem find_filterKeys (table : AssocMap κ ν) (keep : κ → Bool) (key : κ) :
    (table.filterKeys keep).find key = if keep key then table.find key else none := by
  obtain ⟨entries, hnodup⟩ := table
  simp only [find, filterKeys]
  clear hnodup
  induction entries with
  | nil => simp
  | cons head tail ih =>
      rw [List.filter_cons, lookup_cons_eq_ite]
      by_cases hhead : keep head.1
      · rw [if_pos hhead, lookup_cons_eq_ite, ih]
        by_cases heq : key = head.1
        · simp [heq, hhead]
        · simp [heq]
      · rw [if_neg hhead, ih]
        by_cases heq : key = head.1
        · simp [heq, hhead]
        · simp [heq]

theorem find_eq_some_iff (table : AssocMap κ ν) (key : κ) (value : ν) :
    table.find key = some value ↔ (key, value) ∈ table.entries :=
  lookup_eq_some_iff_mem table.nodup key value

theorem mem_values_iff (table : AssocMap κ ν) (value : ν) :
    value ∈ table.values ↔ ∃ key, table.find key = some value := by
  simp [values, find_eq_some_iff]

section Count

variable [DecidableEq ν] [BEq ν] [LawfulBEq ν] (table : AssocMap κ ν) (key : κ) (counted : ν)

theorem count_assocErase {entries : List (κ × ν)}
    (hnodup : (entries.map Prod.fst).Nodup) :
    ((assocErase key entries).map Prod.snd).count counted +
        (if entries.lookup key = some counted then 1 else 0) =
      (entries.map Prod.snd).count counted := by
  induction entries with
  | nil => simp [assocErase]
  | cons head tail ih =>
      rw [List.map_cons, List.nodup_cons] at hnodup
      have hih := ih hnodup.2
      rw [assocErase] at hih ⊢
      rw [lookup_cons_eq_ite, List.map_cons, List.count_cons]
      by_cases hhead : head.1 = key
      · have hnone : tail.lookup key = none :=
          (lookup_eq_none_iff_forall key tail).2 fun entry hentry heq =>
            hnodup.1 (hhead ▸ heq ▸ List.mem_map_of_mem hentry)
        rw [List.filter_cons_of_neg (by simpa using hhead)]
        simpa [hhead, hnone] using hih
      · rw [List.filter_cons_of_pos (by simpa using hhead), List.map_cons, List.count_cons,
          if_neg (Ne.symm hhead)]
        omega

theorem count_values_erase :
    (table.erase key).values.count counted +
        (if table.find key = some counted then 1 else 0) =
      table.values.count counted :=
  count_assocErase key counted table.nodup

theorem count_values_insert (value : ν) :
    (table.insert key value).values.count counted +
        (if table.find key = some counted then 1 else 0) =
      table.values.count counted + (if value = counted then 1 else 0) := by
  have herase := table.count_values_erase key counted
  have hinsert : (table.insert key value).values = (table.erase key).values ++ [value] := by
    simp [values, insert, assocInsert, erase]
  rw [hinsert, List.count_append, List.count_singleton]
  simp only [beq_iff_eq]
  omega

end Count

section Total

variable (weight : ν → Nat)

/-- The weights of all values together. -/
def total (table : AssocMap κ ν) : Nat := (table.values.map weight).sum

omit [DecidableEq κ] in
@[simp] theorem total_empty : (empty : AssocMap κ ν).total weight = 0 := rfl

theorem sum_assocErase (key : κ) {entries : List (κ × ν)}
    (hnodup : (entries.map Prod.fst).Nodup) :
    (((assocErase key entries).map Prod.snd).map weight).sum +
        ((entries.lookup key).map weight).getD 0 =
      ((entries.map Prod.snd).map weight).sum := by
  induction entries with
  | nil => simp [assocErase]
  | cons head tail ih =>
      rw [List.map_cons, List.nodup_cons] at hnodup
      have hih := ih hnodup.2
      rw [assocErase] at hih ⊢
      rw [lookup_cons_eq_ite, List.map_cons, List.map_cons, List.sum_cons]
      by_cases hhead : head.1 = key
      · have hnone : tail.lookup key = none :=
          (lookup_eq_none_iff_forall key tail).2 fun entry hentry heq =>
            hnodup.1 (hhead ▸ heq ▸ List.mem_map_of_mem hentry)
        rw [hnone, Option.map_none, Option.getD_none] at hih
        rw [List.filter_cons_of_neg (by simpa using hhead), if_pos hhead.symm, Option.map_some,
          Option.getD_some]
        omega
      · rw [List.filter_cons_of_pos (by simpa using hhead), List.map_cons, List.map_cons,
          List.sum_cons, if_neg (Ne.symm hhead)]
        omega

/-- A new value takes the place of the old one. -/
theorem total_insert (table : AssocMap κ ν) (key : κ) (value : ν) :
    (table.insert key value).total weight + ((table.find key).map weight).getD 0 =
      table.total weight + weight value := by
  have herase := sum_assocErase weight key table.nodup
  simp only [total, values, insert, assocInsert, find, List.map_append, List.sum_append,
    List.map_cons, List.map_nil, List.sum_cons, List.sum_nil]
  omega

end Total

end AssocMap

end GEDS
