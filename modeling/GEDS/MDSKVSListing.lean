/-
Listing a bucket.  The loop over the prefix range sorts every key into one of
two results: the key is listed, or it is cut behind its first delimiter and the
cut joins an ordered set.  The cut determines which common prefix a key
extends, so the two results partition the keys under the prefix.
-/
import GEDS.MDSKVSReference

namespace GEDS

/-- `cut` is the key up to and including its first delimiter behind the
prefix. -/
def IsCut (pre : Bytes) (delimiter : UInt8) (key cut : Bytes) : Prop :=
  ∃ middle rest, delimiter ∉ middle ∧ key = pre ++ (middle ++ delimiter :: rest) ∧
    cut = pre ++ (middle ++ [delimiter])

/-- A key can only extend the cut it has itself. -/
theorem IsCut.of_extends {pre key key' cut : Bytes} {delimiter : UInt8}
    (hcut : IsCut pre delimiter key cut) (hext : cut <+: key') :
    IsCut pre delimiter key' cut := by
  obtain ⟨middle, rest, hmiddle, hkey, rfl⟩ := hcut
  obtain ⟨tail, rfl⟩ := hext
  exact ⟨middle, tail, hmiddle, by simp, rfl⟩

theorem IsCut.unique {pre key cut cut' : Bytes} {delimiter : UInt8}
    (hcut : IsCut pre delimiter key cut) (hcut' : IsCut pre delimiter key cut') :
    cut = cut' := by
  obtain ⟨middle, rest, hmiddle, hkey, rfl⟩ := hcut
  obtain ⟨middle', rest', hmiddle', hkey', rfl⟩ := hcut'
  have htail := List.append_cancel_left (hkey.symm.trans hkey')
  rw [((append_cons_inj_of_not_mem hmiddle hmiddle').mp htail).1]

theorem IsCut.isPrefix {pre key cut : Bytes} {delimiter : UInt8}
    (hcut : IsCut pre delimiter key cut) : cut <+: key := by
  obtain ⟨middle, rest, _, rfl, rfl⟩ := hcut
  exact ⟨rest, by simp⟩

theorem IsCut.mem_drop {pre key cut : Bytes} {delimiter : UInt8}
    (hcut : IsCut pre delimiter key cut) : delimiter ∈ key.drop pre.length := by
  obtain ⟨middle, rest, _, rfl, _⟩ := hcut
  simp

/-- What the loop does with one key: `none` lists it. -/
def cutOf (prefixLength : Nat) (delimiter : UInt8) (key : Bytes) : Option Bytes :=
  if delimiter ≠ 0 then
    (findFrom key delimiter prefixLength).map fun loc => key.take (loc + 1)
  else none

theorem cutOf_eq_some_iff {pre key : Bytes} (hpre : pre <+: key) (delimiter : UInt8)
    (cut : Bytes) : cutOf pre.length delimiter key = some cut ↔
      delimiter ≠ 0 ∧ IsCut pre delimiter key cut := by
  obtain ⟨tail, rfl⟩ := hpre
  by_cases hzero : delimiter = 0
  · simp [cutOf, hzero]
  · simp only [cutOf, findFrom, ne_eq, hzero, not_false_eq_true, ↓reduceIte,
      Option.map_map, List.drop_left, Option.map_eq_some_iff, Function.comp_apply,
      findIdx?_eq_some_iff_split, true_and]
    constructor
    · rintro ⟨loc, ⟨middle, rest, rfl, hmiddle, rfl⟩, rfl⟩
      refine ⟨middle, rest, hmiddle, rfl, ?_⟩
      rw [show middle.length + pre.length + 1 = (pre ++ (middle ++ [delimiter])).length by
        simp; omega]
      rw [show pre ++ (middle ++ delimiter :: rest) =
        pre ++ (middle ++ [delimiter]) ++ rest by simp, List.take_left]
    · rintro ⟨middle, rest, hmiddle, hkey, rfl⟩
      have htail := List.append_cancel_left hkey
      refine ⟨middle.length, ⟨middle, rest, htail, hmiddle, rfl⟩, ?_⟩
      rw [show middle.length + pre.length + 1 = (pre ++ (middle ++ [delimiter])).length by
        simp; omega]
      rw [hkey, show pre ++ (middle ++ delimiter :: rest) =
        pre ++ (middle ++ [delimiter]) ++ rest by simp, List.take_left]

theorem cutOf_eq_none_iff {pre key : Bytes} (hpre : pre <+: key) (delimiter : UInt8) :
    cutOf pre.length delimiter key = none ↔
      delimiter = 0 ∨ delimiter ∉ key.drop pre.length := by
  obtain ⟨tail, rfl⟩ := hpre
  by_cases hzero : delimiter = 0
  · simp [cutOf, hzero]
  · simp only [cutOf, findFrom, ne_eq, hzero, not_false_eq_true, ↓reduceIte,
      Option.map_eq_none_iff, List.drop_left, findIdx?_eq_none_iff_not_mem, false_or]

namespace MDSKVSBucket

section Loop

variable (kvs : MDSKVS) (ref prefixLength : Nat) (delimiter : UInt8)

theorem listObject_eq (state : List Object × OrderedMap Bytes Unit)
    (entry : Bytes × Nat) :
    listObject kvs ref prefixLength delimiter state entry =
      match cutOf prefixLength delimiter entry.1 with
      | some cut => (state.1, state.2.insert cut ())
      | none => (state.1 ++ [readContainer kvs ref entry.2 entry.1], state.2) := by
  by_cases hzero : delimiter = 0
  · simp [listObject, cutOf, hzero]
  · cases hfind : findFrom entry.1 delimiter prefixLength <;>
      simp [listObject, cutOf, hzero, hfind]

/-- The loop lists the keys without a cut, in the order it meets them. -/
theorem foldl_listObject_fst (entries : List (Bytes × Nat))
    (state : List Object × OrderedMap Bytes Unit) :
    (entries.foldl (listObject kvs ref prefixLength delimiter) state).1 =
      state.1 ++ (entries.filter fun entry =>
        decide (cutOf prefixLength delimiter entry.1 = none)).map
          fun entry => readContainer kvs ref entry.2 entry.1 := by
  induction entries generalizing state with
  | nil => simp
  | cons entry rest ih =>
      rw [List.foldl_cons, ih, listObject_eq]
      cases hcut : cutOf prefixLength delimiter entry.1 with
      | none => simp [hcut]
      | some cut => simp [hcut]

/-- The loop collects the cuts of the other keys. -/
theorem foldl_listObject_snd (entries : List (Bytes × Nat))
    (state : List Object × OrderedMap Bytes Unit) (cut : Bytes) :
    (entries.foldl (listObject kvs ref prefixLength delimiter) state).2.find cut =
        some () ↔
      state.2.find cut = some () ∨
        ∃ entry ∈ entries, cutOf prefixLength delimiter entry.1 = some cut := by
  induction entries generalizing state with
  | nil => simp
  | cons entry rest ih =>
      rw [List.foldl_cons, ih, listObject_eq, List.exists_mem_cons_iff]
      cases hcut : cutOf prefixLength delimiter entry.1 with
      | none => simp
      | some first =>
          by_cases hfirst : cut = first
          · simp [hfirst]
          · simp [hfirst, Ne.symm hfirst]

end Loop

variable (kvs : MDSKVS) (ref : Nat) (keyPrefix : Bytes) (delimiter : UInt8)

theorem listObjects_fst : (listObjects kvs ref keyPrefix delimiter).1 =
    ((kvs.buckets.get ref).map.entries.filter fun entry =>
      decide (cutOf keyPrefix.length delimiter entry.1 = none) &&
        decide (keyPrefix <+: entry.1)).map
      fun entry => readContainer kvs ref entry.2 entry.1 := by
  simp only [listObjects, range_prefixSearch, foldl_listObject_fst, List.nil_append,
    List.filter_filter]

theorem mem_listObjects_fst_iff (obj : Object) :
    obj ∈ (listObjects kvs ref keyPrefix delimiter).1 ↔
      ∃ container, (kvs.buckets.get ref).map.find obj.id.key = some container ∧
        keyPrefix <+: obj.id.key ∧
        (delimiter = 0 ∨ delimiter ∉ obj.id.key.drop keyPrefix.length) ∧
        obj = readContainer kvs ref container obj.id.key := by
  rw [listObjects_fst, List.mem_map]
  constructor
  · rintro ⟨⟨key, container⟩, hmem, rfl⟩
    simp only [List.mem_filter, Bool.and_eq_true, decide_eq_true_eq] at hmem
    obtain ⟨hentry, hcut, hpre⟩ := hmem
    exact ⟨container, (OrderedMap.find_eq_some_iff _ _ _).mpr hentry, hpre,
      (cutOf_eq_none_iff hpre delimiter).mp hcut, rfl⟩
  · rintro ⟨container, hfind, hpre, hdelimiter, hobj⟩
    refine ⟨(obj.id.key, container), ?_, hobj.symm⟩
    simp only [List.mem_filter, Bool.and_eq_true, decide_eq_true_eq]
    exact ⟨(OrderedMap.find_eq_some_iff _ _ _).mp hfind,
      (cutOf_eq_none_iff hpre delimiter).mpr hdelimiter, hpre⟩

theorem listObjects_fst_sorted :
    ((listObjects kvs ref keyPrefix delimiter).1.map fun obj => obj.id.key).Pairwise
      (· < ·) := by
  rw [listObjects_fst, List.map_map, List.pairwise_map]
  exact (kvs.buckets.get ref).map.sorted.filter _

theorem mem_listObjects_snd_iff (cut : Bytes) :
    cut ∈ (listObjects kvs ref keyPrefix delimiter).2 ↔
      delimiter ≠ 0 ∧ ∃ key container,
        (kvs.buckets.get ref).map.find key = some container ∧
          IsCut keyPrefix delimiter key cut := by
  simp only [listObjects, OrderedMap.mem_keys_iff, range_prefixSearch]
  have hunit : ∀ result : Option Unit, (∃ value, result = some value) ↔
      result = some () := fun result => ⟨fun ⟨(), h⟩ => h, fun h => ⟨(), h⟩⟩
  rw [hunit, foldl_listObject_snd]
  simp only [OrderedMap.find_empty, reduceCtorEq, List.mem_filter, decide_eq_true_eq,
    false_or]
  constructor
  · rintro ⟨⟨key, container⟩, ⟨hentry, hpre⟩, hcut⟩
    obtain ⟨hzero, hcut⟩ := (cutOf_eq_some_iff hpre delimiter cut).mp hcut
    exact ⟨hzero, key, container, (OrderedMap.find_eq_some_iff _ _ _).mpr hentry, hcut⟩
  · rintro ⟨hzero, key, container, hfind, hcut⟩
    have hpre : keyPrefix <+: key := by
      obtain ⟨middle, rest, _, rfl, _⟩ := hcut
      exact List.prefix_append _ _
    exact ⟨(key, container), ⟨(OrderedMap.find_eq_some_iff _ _ _).mp hfind, hpre⟩,
      (cutOf_eq_some_iff hpre delimiter cut).mpr ⟨hzero, hcut⟩⟩

theorem listObjects_snd_sorted :
    (listObjects kvs ref keyPrefix delimiter).2.Pairwise (· < ·) :=
  OrderedMap.keys_sorted _

/-- A stored key under the prefix is listed exactly when it has no cut. -/
theorem listed_or_cut {key : Bytes} {container : Nat}
    (hfind : (kvs.buckets.get ref).map.find key = some container)
    (hpre : keyPrefix <+: key) :
    ((∃ obj ∈ (listObjects kvs ref keyPrefix delimiter).1, obj.id.key = key) ∧
        ∀ cut ∈ (listObjects kvs ref keyPrefix delimiter).2, ¬ cut <+: key) ∨
      ((∀ obj ∈ (listObjects kvs ref keyPrefix delimiter).1, obj.id.key ≠ key) ∧
        ∃! cut, cut ∈ (listObjects kvs ref keyPrefix delimiter).2 ∧ cut <+: key) := by
  cases hcut : cutOf keyPrefix.length delimiter key with
  | none =>
      have hdelimiter := (cutOf_eq_none_iff hpre delimiter).mp hcut
      refine Or.inl ⟨⟨readContainer kvs ref container key, ?_, rfl⟩, ?_⟩
      · exact (mem_listObjects_fst_iff kvs ref keyPrefix delimiter _).mpr
          ⟨container, hfind, hpre, hdelimiter, rfl⟩
      · intro cut hmem hext
        obtain ⟨hzero, other, _, _, hother⟩ :=
          (mem_listObjects_snd_iff kvs ref keyPrefix delimiter cut).mp hmem
        have hself := hother.of_extends hext
        exact (hdelimiter.resolve_left hzero) hself.mem_drop
  | some cut =>
      obtain ⟨hzero, hself⟩ := (cutOf_eq_some_iff hpre delimiter cut).mp hcut
      refine Or.inr ⟨?_, cut, ⟨?_, hself.isPrefix⟩, ?_⟩
      · rintro obj hobj rfl
        obtain ⟨_, _, _, hdelimiter, _⟩ :=
          (mem_listObjects_fst_iff kvs ref keyPrefix delimiter obj).mp hobj
        exact (hdelimiter.resolve_left hzero) hself.mem_drop
      · exact (mem_listObjects_snd_iff kvs ref keyPrefix delimiter cut).mpr
          ⟨hzero, key, container, hfind, hself⟩
      · rintro other ⟨hmem, hext⟩
        obtain ⟨_, _, _, _, hother⟩ :=
          (mem_listObjects_snd_iff kvs ref keyPrefix delimiter other).mp hmem
        exact (hother.of_extends hext).unique hself

/-- `listObjects` partitions the keys that start with the prefix: the listed
objects are exactly those without a delimiter behind it (all of them for
delimiter zero), once each and in key order; the common prefixes are the
sorted set of the cuts of the others. -/
theorem listObjects_partitions :
    (∀ obj, obj ∈ (listObjects kvs ref keyPrefix delimiter).1 ↔
        ∃ container, (kvs.buckets.get ref).map.find obj.id.key = some container ∧
          keyPrefix <+: obj.id.key ∧
          (delimiter = 0 ∨ delimiter ∉ obj.id.key.drop keyPrefix.length) ∧
          obj = ⟨⟨(kvs.buckets.get ref).name, obj.id.key⟩,
            kvs.containers.get container⟩) ∧
      ((listObjects kvs ref keyPrefix delimiter).1.map fun obj => obj.id.key).Pairwise
        (· < ·) ∧
      (∀ cut, cut ∈ (listObjects kvs ref keyPrefix delimiter).2 ↔
        delimiter ≠ 0 ∧ ∃ key container,
          (kvs.buckets.get ref).map.find key = some container ∧
            IsCut keyPrefix delimiter key cut) ∧
      (listObjects kvs ref keyPrefix delimiter).2.Pairwise (· < ·) ∧
      (∀ key container, (kvs.buckets.get ref).map.find key = some container →
        keyPrefix <+: key →
        ((∃ obj ∈ (listObjects kvs ref keyPrefix delimiter).1, obj.id.key = key) ∧
            ∀ cut ∈ (listObjects kvs ref keyPrefix delimiter).2, ¬ cut <+: key) ∨
          ((∀ obj ∈ (listObjects kvs ref keyPrefix delimiter).1, obj.id.key ≠ key) ∧
            ∃! cut, cut ∈ (listObjects kvs ref keyPrefix delimiter).2 ∧ cut <+: key)) ∧
      ∀ cut ∈ (listObjects kvs ref keyPrefix delimiter).2, ∃ key container,
        (kvs.buckets.get ref).map.find key = some container ∧ cut <+: key := by
  refine ⟨mem_listObjects_fst_iff kvs ref keyPrefix delimiter,
    listObjects_fst_sorted kvs ref keyPrefix delimiter,
    mem_listObjects_snd_iff kvs ref keyPrefix delimiter,
    listObjects_snd_sorted kvs ref keyPrefix delimiter, ?_, ?_⟩
  · intro key container hfind hpre
    exact listed_or_cut kvs ref keyPrefix delimiter hfind hpre
  · intro cut hmem
    obtain ⟨_, key, container, hfind, hcut⟩ :=
      (mem_listObjects_snd_iff kvs ref keyPrefix delimiter cut).mp hmem
    exact ⟨key, container, hfind, hcut.isPrefix⟩

end MDSKVSBucket

end GEDS
