/-
Deleting by prefix in the Go store.  The walk along the prefix stops at the
first missing directory and deletes what is recorded there, and it does not
descend below the directory where it stops.
-/
import GEDS.PrefixTreeInvariant

namespace GEDS

namespace PrefixTree

section DeletePrefix

theorem find_removeAll (deletedObjects : List Object) (directory : Directory)
    (key : Bytes) :
    (removeAll deletedObjects directory).objectsInThisAndChildDirectories.find key =
        (if ∃ object ∈ deletedObjects, object.id.key = key then none
          else directory.objectsInThisAndChildDirectories.find key) ∧
      (removeAll deletedObjects directory).objectsInThisDirectory.find key =
        if ∃ object ∈ deletedObjects, object.id.key = key then none
        else directory.objectsInThisDirectory.find key := by
  induction deletedObjects generalizing directory with
  | nil => simp [removeAll]
  | cons object rest ih =>
      have hstep := ih ((directory.remove object.id.key).forget object.id.key)
      rw [removeAll, List.foldl_cons]
      change (removeAll rest _).objectsInThisAndChildDirectories.find key = _ ∧
        (removeAll rest _).objectsInThisDirectory.find key = _
      rw [hstep.1, hstep.2]
      by_cases hkey : object.id.key = key
      · simp [hkey]
      · have hne : key ≠ object.id.key := Ne.symm hkey
        simp [hkey, hne]

variable (tree : PrefixTree) (objectID : ObjectID)

/-- Some deleted object has the key. -/
def Deletes (key : Bytes) : Prop :=
  ∃ object ∈ (tree.traverseDeleteObjectPrefix objectID).1, object.id.key = key

instance (key : Bytes) : Decidable (tree.Deletes objectID key) :=
  inferInstanceAs (Decidable (∃ object ∈ _, _))

theorem recordedAt_traverseDeleteObjectPrefix (path : List Bytes) (key : Bytes) :
    (tree.traverseDeleteObjectPrefix objectID).2.recordedAt path key =
      if path <+: tree.reach (getNestedPath objectID) ∧ tree.Deletes objectID key then none
      else tree.recordedAt path key := by
  rw [recordedAt, recordedAt, traverseDeleteObjectPrefix, Trie.valueAt_editAlong]
  by_cases hpath : path <+: tree.reach (getNestedPath objectID)
  · rw [if_pos hpath]
    cases tree.valueAt path with
    | none => simp
    | some directory =>
        simp only [Option.map_some, Option.bind_some, hpath, true_and]
        exact (find_removeAll _ directory key).1.trans (if_congr Iff.rfl rfl rfl)
  · rw [if_neg hpath, if_neg fun h => hpath h.1]

theorem heldAt_traverseDeleteObjectPrefix (path : List Bytes) (key : Bytes) :
    (tree.traverseDeleteObjectPrefix objectID).2.heldAt path key =
      if path <+: tree.reach (getNestedPath objectID) ∧ tree.Deletes objectID key then none
      else tree.heldAt path key := by
  rw [heldAt, heldAt, traverseDeleteObjectPrefix, Trie.valueAt_editAlong]
  by_cases hpath : path <+: tree.reach (getNestedPath objectID)
  · rw [if_pos hpath]
    cases tree.valueAt path with
    | none => simp
    | some directory =>
        simp only [Option.map_some, Option.bind_some, hpath, true_and]
        exact (find_removeAll _ directory key).2.trans (if_congr Iff.rfl rfl rfl)
  · rw [if_neg hpath, if_neg fun h => hpath h.1]

variable {tree}

/-- Everything recorded where the walk stops is deleted. -/
theorem Consistent.mem_deleted_iff (h : tree.Consistent) (object : Object) :
    object ∈ (tree.traverseDeleteObjectPrefix objectID).1 ↔
      tree.recordedAt (tree.reach (getNestedPath objectID)) object.id.key =
        some object := by
  have hvalues : object ∈ (tree.traverseDeleteObjectPrefix objectID).1 ↔
      ∃ key, tree.recordedAt (tree.reach (getNestedPath objectID)) key = some object := by
    rw [traverseDeleteObjectPrefix, AssocMap.mem_values_iff]
    simp only [recordedAt, Trie.valueAt_reach, Option.bind_some]
  rw [hvalues]
  constructor
  · rintro ⟨key, hrecorded⟩
    have hkey := (h.held_home (h.held_of_recorded hrecorded)).2
    rw [hkey]
    exact hrecorded
  · exact fun hrecorded => ⟨_, hrecorded⟩

theorem Consistent.deletes_iff (h : tree.Consistent) (key : Bytes) :
    tree.Deletes objectID key ↔
      tree.recordedAt (tree.reach (getNestedPath objectID)) key ≠ none := by
  rw [Option.ne_none_iff_exists']
  constructor
  · rintro ⟨object, hmem, rfl⟩
    exact ⟨object, (h.mem_deleted_iff objectID object).mp hmem⟩
  · rintro ⟨object, hrecorded⟩
    have hkey := (h.held_home (h.held_of_recorded hrecorded)).2
    refine ⟨object, (h.mem_deleted_iff objectID object).mpr ?_, hkey⟩
    rw [hkey]
    exact hrecorded

theorem Consistent.traverseDeleteObjectPrefix (h : tree.Consistent) :
    (tree.traverseDeleteObjectPrefix objectID).2.Consistent := by
  have hkeeps : ∀ {path : List Bytes} {key : Bytes} {object : Object},
      (tree.traverseDeleteObjectPrefix objectID).2.recordedAt path key = some object →
      ¬ (path <+: tree.reach (getNestedPath objectID) ∧ tree.Deletes objectID key) ∧
        tree.recordedAt path key = some object := by
    intro path key object hrecorded
    rw [recordedAt_traverseDeleteObjectPrefix] at hrecorded
    split_ifs at hrecorded with hdeleted
    exact ⟨hdeleted, hrecorded⟩
  refine ⟨?_, ?_, ?_, ?_⟩
  · intro path key object hheld
    rw [heldAt_traverseDeleteObjectPrefix] at hheld
    split_ifs at hheld
    exact h.held_home hheld
  · intro path key object hrecorded
    exact h.recorded_path (hkeeps hrecorded).2
  · intro path path' key object hrecorded hbelow hpath'
    obtain ⟨hnot, hold⟩ := hkeeps hrecorded
    rw [recordedAt_traverseDeleteObjectPrefix, if_neg]
    · exact h.recorded_below hold hbelow hpath'
    · exact fun hcase => hnot ⟨hbelow.trans hcase.1, hcase.2⟩
  · intro key
    rw [heldAt_traverseDeleteObjectPrefix, recordedAt_traverseDeleteObjectPrefix,
      h.held_eq_recorded]

end DeletePrefix

/-- The deepest directory on the path that exists. -/
def StopsAt (tree : PrefixTree) (path stop : List Bytes) : Prop :=
  stop <+: path ∧ tree.valueAt stop ≠ none ∧
    ∀ next, next <+: path → tree.valueAt next ≠ none → next <+: stop

theorem stopsAt_iff (tree : PrefixTree) (path stop : List Bytes) :
    tree.StopsAt path stop ↔ stop = tree.reach path := by
  have hreach : tree.valueAt (tree.reach path) ≠ none := by
    rw [Trie.valueAt_reach]
    exact Option.some_ne_none _
  constructor
  · rintro ⟨hon, hexists, hdeepest⟩
    have habove := (Trie.isPrefix_reach_iff tree hon).mpr hexists
    have hbelow := hdeepest _ (Trie.reach_isPrefix path tree) hreach
    exact habove.eq_of_length (le_antisymm habove.length_le hbelow.length_le)
  · rintro rfl
    refine ⟨Trie.reach_isPrefix path tree, hreach, ?_⟩
    intro next hnext hexists
    exact (Trie.isPrefix_reach_iff tree hnext).mpr hexists

/-- Where the walk of the prefix stops, every recorded key starts with the
prefix. -/
def StopsAtMatches (tree : PrefixTree) (objectID : ObjectID) : Prop :=
  ∀ stop, tree.StopsAt (getNestedPath objectID) stop → ∀ key object,
    tree.recordedAt stop key = some object → objectID.key <+: key

/-- Where the walk of the prefix stops, every recorded object lies in that very
directory. -/
def StopsAtHome (tree : PrefixTree) (objectID : ObjectID) : Prop :=
  ∀ stop, tree.StopsAt (getNestedPath objectID) stop → ∀ key object,
    tree.recordedAt stop key = some object → directoriesOf key = stop

variable {tree : PrefixTree} {objectID : ObjectID}

theorem Consistent.stopsAtMatches_iff (h : tree.Consistent) :
    tree.StopsAtMatches objectID ↔
      ∀ key, tree.Deletes objectID key → objectID.key <+: key := by
  constructor
  · intro hmatches key hdeletes
    obtain ⟨object, hrecorded⟩ := Option.ne_none_iff_exists'.mp
      ((h.deletes_iff objectID key).mp hdeletes)
    exact hmatches _ ((stopsAt_iff _ _ _).mpr rfl) key object hrecorded
  · intro hdeletes stop hstop key object hrecorded
    obtain rfl := (stopsAt_iff _ _ _).mp hstop
    apply hdeletes key
    rw [h.deletes_iff, hrecorded]
    exact Option.some_ne_none object

/-- The walk must reach the object's own directory to delete it for good. -/
theorem Consistent.stopsAtHome_iff (h : tree.Consistent) :
    tree.StopsAtHome objectID ↔ ∀ key, tree.Deletes objectID key →
      (tree.traverseDeleteObjectPrefix objectID).2.heldAt (directoriesOf key) key =
        none := by
  constructor
  · intro hhome key hdeletes
    obtain ⟨object, hrecorded⟩ := Option.ne_none_iff_exists'.mp
      ((h.deletes_iff objectID key).mp hdeletes)
    have heq := hhome _ ((stopsAt_iff _ _ _).mpr rfl) key object hrecorded
    rw [heldAt_traverseDeleteObjectPrefix, heq, if_pos ⟨List.prefix_refl _, hdeletes⟩]
  · intro hgone stop hstop key object hrecorded
    obtain rfl := (stopsAt_iff _ _ _).mp hstop
    have hdeletes : tree.Deletes objectID key := by
      rw [h.deletes_iff, hrecorded]
      exact Option.some_ne_none object
    have hheld := h.held_of_recorded hrecorded
    have habove : directoriesOf key <+: tree.reach (getNestedPath objectID) := by
      by_contra hdeeper
      have hafter := hgone key hdeletes
      rw [heldAt_traverseDeleteObjectPrefix, if_neg fun hcase => hdeeper hcase.1,
        hheld] at hafter
      exact Option.some_ne_none object hafter
    have hbelow := h.recorded_path hrecorded
    exact habove.eq_of_length (le_antisymm habove.length_le hbelow.length_le)

/-- A deleted object that is gone from its own directory is gone from all. -/
theorem Consistent.recordedAt_eq_none_of_gone (h : tree.Consistent) {key : Bytes}
    (hgone : tree.heldAt (directoriesOf key) key = none) (path : List Bytes) :
    tree.recordedAt path key = none := by
  cases hrecorded : tree.recordedAt path key with
  | none => rfl
  | some object => exact (h.held_of_recorded hrecorded).symm.trans hgone

/-- Deleting by prefix restores the tree invariant exactly when every deleted
object lies where the walk stops. -/
theorem Complete.traverseDeleteObjectPrefix_iff (hcomplete : tree.Complete)
    (h : tree.Consistent) :
    (tree.traverseDeleteObjectPrefix objectID).2.Complete ↔
      tree.StopsAtHome objectID := by
  have hafter := h.traverseDeleteObjectPrefix objectID
  rw [h.stopsAtHome_iff]
  constructor
  · intro hstill key hdeletes
    have hroot := hstill [] key List.nil_prefix
    rw [recordedAt_traverseDeleteObjectPrefix, if_pos ⟨List.nil_prefix, hdeletes⟩] at hroot
    exact hroot.symm
  · intro hgone path key hpath
    by_cases hdeletes : tree.Deletes objectID key
    · rw [hgone key hdeletes, hafter.recordedAt_eq_none_of_gone (hgone key hdeletes)]
    · rw [recordedAt_traverseDeleteObjectPrefix, if_neg fun hcase => hdeletes hcase.2,
        heldAt_traverseDeleteObjectPrefix, if_neg fun hcase => hdeletes hcase.2]
      exact hcomplete path key hpath

section List

theorem walkDown_eq (getCommonPrefix : Bool) (longestPath : Bytes) (path : List Bytes)
    (tree : PrefixTree) :
    (walkDown getCommonPrefix longestPath path tree).map Prod.snd = tree.subtree path := by
  induction path generalizing longestPath tree with
  | nil => rfl
  | cons name rest ih =>
      rw [walkDown, Trie.subtree]
      cases tree.child name with
      | none => rfl
      | some child => exact ih _ child

/-- Listing a directory gives what is recorded there. -/
theorem mem_traverseListObjects_iff (tree : PrefixTree) (objectID : ObjectID)
    (getCommonPrefix : Bool) (object : Object) :
    object ∈ (tree.traverseListObjects objectID getCommonPrefix).1 ↔
      ∃ key, tree.recordedAt (getNestedPath objectID) key = some object := by
  have hwalk := walkDown_eq getCommonPrefix [] (getNestedPath objectID) tree
  rw [traverseListObjects]
  simp only [recordedAt, Trie.valueAt, ← hwalk]
  cases walkDown getCommonPrefix [] (getNestedPath objectID) tree with
  | none => simp
  | some found => simp [AssocMap.mem_values_iff]

/-- With a delimiter the root lists what lies in it; everything else lists what
is recorded in a directory. -/
theorem mem_listObjects_iff (tree : PrefixTree) (objectID : ObjectID) (delimiter : Bytes)
    (object : Object) :
    object ∈ (tree.listObjects objectID delimiter).1 ↔
      if delimiter.length ≠ 0 ∧ objectID.key.length = 0 then
        ∃ key, tree.heldAt [] key = some object
      else ∃ key, tree.recordedAt (getNestedPath objectID) key = some object := by
  rw [listObjects]
  by_cases hdelimiter : delimiter.length = 0
  · simp only [hdelimiter, ↓reduceIte, ne_eq, not_true_eq_false, false_and]
    exact mem_traverseListObjects_iff tree objectID false object
  · by_cases hkey : objectID.key.length = 0
    · simp [hdelimiter, hkey, AssocMap.mem_values_iff, heldAt]
    · simp only [hdelimiter, hkey, ↓reduceIte, ne_eq, and_false]
      exact mem_traverseListObjects_iff tree objectID true object

end List

end PrefixTree

/-- The tree query a list request stands for; requests without a bucket or with
another delimiter than `/` have none. -/
def ObjectListRequest.query (request : ObjectListRequest) : Option (ObjectID × Bytes) :=
  match request.keyPrefix with
  | none => none
  | some objectID =>
      if objectID.bucket.length = 0 then none
      else
        match request.delimiter with
        | none => some (objectID, [])
        | some delimiter =>
            if delimiter = 0 then some (objectID, [])
            else if delimiter ≠ 0x2f then none
            else some (objectID, [slash])

namespace KeyValueStore

variable {kv : KeyValueStore}

theorem listObjects_eq (request : ObjectListRequest) :
    (kv.listObjects request).1 =
      match request.query with
      | none => ([], [])
      | some (objectID, delimiter) =>
          (kv.nestedDirectories objectID.bucket).listObjects objectID delimiter := by
  rw [listObjects, ObjectListRequest.query]
  cases request.keyPrefix with
  | none => rfl
  | some objectID =>
      by_cases hbucket : objectID.bucket.length = 0
      · simp [hbucket]
      · cases request.delimiter with
        | none => simp [hbucket]
        | some delimiter =>
            by_cases hzero : delimiter = 0
            · simp [hbucket, hzero]
            · by_cases hslash : delimiter = 0x2f
              · simp [hbucket, hslash]
              · simp [hbucket, hzero, hslash]

/-- What every reachable store has: consistent trees, with each object in the
tree of its own bucket. -/
structure Consistent (kv : KeyValueStore) : Prop where
  tree : ∀ bucket, (kv.nestedDirectories bucket).Consistent
  owned : ∀ {bucket : Bytes} {path : List Bytes} {key : Bytes} {object : Object},
    (kv.nestedDirectories bucket).heldAt path key = some object →
    object.id.bucket = bucket

theorem new_consistent : new.Consistent := by
  refine ⟨fun _ => (PrefixTree.new_consistent _).1, ?_⟩
  intro bucket path key object hheld
  cases path with
  | nil => exact absurd hheld (Option.some_ne_none object).symm
  | cons name rest => simp [PrefixTree.heldAt, makeNewPrefixTree] at hheld

theorem Consistent.perform (h : kv.Consistent) (request : ObjectRequest) :
    (kv.perform request).Consistent := by
  constructor
  · intro bucket
    rw [nestedDirectories_perform]
    split_ifs
    · cases request with
      | createObject object => exact (h.tree bucket).traverseCreateObject object
      | updateObject object => exact (h.tree bucket).traverseCreateObject object
      | deleteObject objectID => exact (h.tree bucket).traverseDeleteObject objectID
      | deleteObjectPrefix objectID =>
          exact (h.tree bucket).traverseDeleteObjectPrefix objectID
    · exact h.tree bucket
  · intro bucket path key object hheld
    rw [nestedDirectories_perform] at hheld
    split_ifs at hheld with hbucket
    · have hcreate : ∀ created : Object, created.id.bucket = bucket →
          ((kv.nestedDirectories bucket).traverseCreateObject created).heldAt path key =
            some object → object.id.bucket = bucket := by
        intro created hcreated hfound
        rw [PrefixTree.heldAt_traverseCreateObject] at hfound
        split_ifs at hfound
        · obtain rfl := Option.some.inj hfound
          exact hcreated
        · exact h.owned hfound
      cases request with
      | createObject created => exact hcreate created hbucket.symm hheld
      | updateObject created => exact hcreate created hbucket.symm hheld
      | deleteObject objectID =>
          change ((kv.nestedDirectories bucket).traverseDeleteObject objectID).heldAt
            path key = some object at hheld
          rw [PrefixTree.heldAt_traverseDeleteObject] at hheld
          split_ifs at hheld
          exact h.owned hheld
      | deleteObjectPrefix objectID =>
          change ((kv.nestedDirectories bucket).traverseDeleteObjectPrefix
            objectID).2.heldAt path key = some object at hheld
          rw [PrefixTree.heldAt_traverseDeleteObjectPrefix] at hheld
          split_ifs at hheld
          exact h.owned hheld
    · exact h.owned hheld

theorem Consistent.run (h : kv.Consistent) (requests : List ObjectRequest) :
    (kv.run requests).Consistent := by
  induction requests generalizing kv with
  | nil => exact h
  | cons request rest ih => exact ih (h.perform request)

theorem Consistent.deleteObjectPrefix (h : kv.Consistent) (objectID : ObjectID) :
    (kv.deleteObjectPrefix objectID).2.Consistent :=
  h.perform (.deleteObjectPrefix objectID)

theorem deleteObjectPrefix_fst (objectID : ObjectID) :
    (kv.deleteObjectPrefix objectID).1 =
      ((kv.nestedDirectories objectID.bucket).traverseDeleteObjectPrefix objectID).1 := by
  simp [deleteObjectPrefix]

theorem nestedDirectories_deleteObjectPrefix (objectID : ObjectID) (bucket : Bytes) :
    (kv.deleteObjectPrefix objectID).2.nestedDirectories bucket =
      if bucket = objectID.bucket then
        ((kv.nestedDirectories bucket).traverseDeleteObjectPrefix objectID).2
      else kv.nestedDirectories bucket :=
  nestedDirectories_perform (.deleteObjectPrefix objectID) bucket

section Spares

/-- Deleting by prefix returns and hides only objects under the prefix, and it
changes nothing when there are none. -/
structure Spares (kv : KeyValueStore) (objectID : ObjectID) : Prop where
  returned : ∀ object ∈ (kv.deleteObjectPrefix objectID).1,
    objectID.key <+: object.id.key
  lookups : ∀ other : ObjectID,
    ¬ (other.bucket = objectID.bucket ∧ objectID.key <+: other.key) →
    ((kv.deleteObjectPrefix objectID).2.lookupObject other).1 = (kv.lookupObject other).1
  lists : ∀ (request : ObjectListRequest) (object : Object),
    object ∈ (kv.listObjects request).1.1 →
    ¬ (object.id.bucket = objectID.bucket ∧ objectID.key <+: object.id.key) →
    object ∈ ((kv.deleteObjectPrefix objectID).2.listObjects request).1.1
  unchanged :
    (∀ key object, (kv.lookupObject ⟨objectID.bucket, key⟩).1 = .ok object →
      ¬ objectID.key <+: key) →
    (kv.deleteObjectPrefix objectID).1 = [] ∧
      ∀ bucket path, ((kv.deleteObjectPrefix objectID).2.nestedDirectories bucket).valueAt
        path = (kv.nestedDirectories bucket).valueAt path

variable {objectID : ObjectID}

/-- A key that is not deleted is where it was. -/
theorem recordedAt_deleteObjectPrefix {bucket key : Bytes}
    (hkeeps : ¬ (bucket = objectID.bucket ∧
      (kv.nestedDirectories bucket).Deletes objectID key)) (path : List Bytes) :
    ((kv.deleteObjectPrefix objectID).2.nestedDirectories bucket).recordedAt path key =
        (kv.nestedDirectories bucket).recordedAt path key ∧
      ((kv.deleteObjectPrefix objectID).2.nestedDirectories bucket).heldAt path key =
        (kv.nestedDirectories bucket).heldAt path key := by
  rw [nestedDirectories_deleteObjectPrefix]
  by_cases hbucket : bucket = objectID.bucket
  · have hnot : ¬ (kv.nestedDirectories bucket).Deletes objectID key :=
      fun hdeletes => hkeeps ⟨hbucket, hdeletes⟩
    rw [if_pos hbucket, PrefixTree.recordedAt_traverseDeleteObjectPrefix,
      PrefixTree.heldAt_traverseDeleteObjectPrefix]
    simp [hnot]
  · rw [if_neg hbucket]
    exact ⟨rfl, rfl⟩

theorem lookupObject_deleteObjectPrefix (h : kv.Consistent) {other : ObjectID}
    (hkeeps : ¬ (other.bucket = objectID.bucket ∧
      (kv.nestedDirectories other.bucket).Deletes objectID other.key)) :
    ((kv.deleteObjectPrefix objectID).2.lookupObject other).1 =
      (kv.lookupObject other).1 := by
  have hafter := h.deleteObjectPrefix objectID
  have hheld := (recordedAt_deleteObjectPrefix hkeeps
    (PrefixTree.directoriesOf other.key)).2
  rw [lookupObject_eq (hafter.tree other.bucket), lookupObject_eq (h.tree other.bucket),
    hheld]

theorem mem_listObjects_deleteObjectPrefix (h : kv.Consistent)
    {request : ObjectListRequest} {object : Object}
    (hlisted : object ∈ (kv.listObjects request).1.1)
    (hkeeps : ¬ (object.id.bucket = objectID.bucket ∧
      (kv.nestedDirectories object.id.bucket).Deletes objectID object.id.key)) :
    object ∈ ((kv.deleteObjectPrefix objectID).2.listObjects request).1.1 := by
  rw [listObjects_eq] at hlisted ⊢
  cases hquery : request.query with
  | none => simp [hquery] at hlisted
  | some query =>
      obtain ⟨listed, delimiter⟩ := query
      simp only [hquery] at hlisted ⊢
      have htree := h.tree listed.bucket
      rw [PrefixTree.mem_listObjects_iff] at hlisted ⊢
      split_ifs at hlisted ⊢ with hroot
      · obtain ⟨key, hheld⟩ := hlisted
        obtain ⟨_, rfl⟩ := htree.held_home hheld
        rw [h.owned hheld] at hkeeps
        exact ⟨_, (recordedAt_deleteObjectPrefix hkeeps []).2.trans hheld⟩
      · obtain ⟨key, hrecorded⟩ := hlisted
        have hheld := htree.held_of_recorded hrecorded
        obtain ⟨_, rfl⟩ := htree.held_home hheld
        rw [h.owned hheld] at hkeeps
        exact ⟨_, (recordedAt_deleteObjectPrefix hkeeps _).1.trans hrecorded⟩

/-- Nothing is recorded where the walk stops, so nothing is deleted. -/
theorem deleteObjectPrefix_unchanged (hnothing : (kv.deleteObjectPrefix objectID).1 = [])
    (bucket : Bytes) (path : List Bytes) :
    ((kv.deleteObjectPrefix objectID).2.nestedDirectories bucket).valueAt path =
      (kv.nestedDirectories bucket).valueAt path := by
  rw [nestedDirectories_deleteObjectPrefix]
  split_ifs with hbucket
  · subst hbucket
    rw [deleteObjectPrefix_fst] at hnothing
    change (Trie.editAlong (fun _ => PrefixTree.removeAll
      ((kv.nestedDirectories objectID.bucket).traverseDeleteObjectPrefix objectID).1) _
      _).valueAt path = _
    rw [hnothing, Trie.valueAt_editAlong]
    split_ifs
    · exact Option.map_id'
    · rfl
  · rfl

theorem Consistent.spares_iff (h : kv.Consistent) (objectID : ObjectID) :
    kv.Spares objectID ↔
      (kv.nestedDirectories objectID.bucket).StopsAtMatches objectID := by
  have htree := h.tree objectID.bucket
  rw [htree.stopsAtMatches_iff]
  constructor
  · rintro hspares key ⟨object, hmem, rfl⟩
    rw [← deleteObjectPrefix_fst] at hmem
    exact hspares.returned object hmem
  · intro hmatches
    have hkeeps : ∀ other : ObjectID,
        ¬ (other.bucket = objectID.bucket ∧ objectID.key <+: other.key) →
        ¬ (other.bucket = objectID.bucket ∧
          (kv.nestedDirectories other.bucket).Deletes objectID other.key) := by
      rintro other hother ⟨hbucket, hdeletes⟩
      rw [hbucket] at hdeletes
      exact hother ⟨hbucket, hmatches other.key hdeletes⟩
    refine ⟨?_, ?_, ?_, ?_⟩
    · intro object hmem
      rw [deleteObjectPrefix_fst] at hmem
      exact hmatches object.id.key ⟨object, hmem, rfl⟩
    · intro other hother
      exact lookupObject_deleteObjectPrefix h (hkeeps other hother)
    · intro request object hlisted hobject
      exact mem_listObjects_deleteObjectPrefix h hlisted (hkeeps object.id hobject)
    · intro hnone
      have hnothing : (kv.deleteObjectPrefix objectID).1 = [] := by
        rw [deleteObjectPrefix_fst, List.eq_nil_iff_forall_not_mem]
        intro object hmem
        have hheld := htree.held_of_recorded
          ((htree.mem_deleted_iff objectID object).mp hmem)
        have hfound : (kv.lookupObject ⟨objectID.bucket, object.id.key⟩).1 = .ok object := by
          rw [lookupObject_eq (h.tree _)]
          simp only [hheld]
        exact hnone _ _ hfound (hmatches object.id.key ⟨object, hmem, rfl⟩)
      exact ⟨hnothing, deleteObjectPrefix_unchanged hnothing⟩

/-- In every reachable store, deleting by prefix spares everything else exactly
when the deepest existing directory on the path of the prefix records only keys
that start with it. -/
theorem run_spares_iff (requests : List ObjectRequest) (objectID : ObjectID) :
    (new.run requests).Spares objectID ↔
      ((new.run requests).nestedDirectories objectID.bucket).StopsAtMatches objectID :=
  (new_consistent.run requests).spares_iff objectID

/-- The prefix names no directory, so the walk stops at the root. -/
theorem missing_prefix_not_spared :
    ¬ (new.run [.createObject (Sample.object (text "a") 1)]).Spares
      ⟨text "bucket", text "zzz"⟩ := by
  intro hspares
  have hstarts := hspares.returned (Sample.object (text "a") 1) (by decide)
  exact absurd hstarts (by decide)

end Spares

section Forgets

/-- What deleting by prefix returns is found no more. -/
def Forgets (kv : KeyValueStore) (objectID : ObjectID) : Prop :=
  ∀ object ∈ (kv.deleteObjectPrefix objectID).1,
    ((kv.deleteObjectPrefix objectID).2.lookupObject object.id).1 =
        .error (text "object does not exist") ∧
      ∀ request, ∀ found ∈ ((kv.deleteObjectPrefix objectID).2.listObjects request).1.1,
        found.id ≠ object.id

/-- An object that its own directory does not hold is found by no request. -/
theorem Consistent.not_found (h : kv.Consistent) {objectID : ObjectID}
    (hgone : (kv.nestedDirectories objectID.bucket).heldAt
      (PrefixTree.directoriesOf objectID.key) objectID.key = none) :
    (kv.lookupObject objectID).1 = .error (text "object does not exist") ∧
      ∀ request, ∀ found ∈ (kv.listObjects request).1.1, found.id ≠ objectID := by
  constructor
  · rw [lookupObject_eq (h.tree _), hgone]
  · rintro request found hfound rfl
    have hheld : (kv.nestedDirectories found.id.bucket).heldAt
        (PrefixTree.directoriesOf found.id.key) found.id.key = some found := by
      rw [listObjects_eq] at hfound
      cases hquery : request.query with
      | none => simp [hquery] at hfound
      | some query =>
          obtain ⟨listed, delimiter⟩ := query
          simp only [hquery] at hfound
          have htree := h.tree listed.bucket
          have hany : ∃ path key,
              (kv.nestedDirectories listed.bucket).heldAt path key = some found := by
            rw [PrefixTree.mem_listObjects_iff] at hfound
            split_ifs at hfound
            · obtain ⟨key, hheld⟩ := hfound
              exact ⟨_, key, hheld⟩
            · obtain ⟨key, hrecorded⟩ := hfound
              exact ⟨_, key, htree.held_of_recorded hrecorded⟩
          obtain ⟨path, key, hheld⟩ := hany
          obtain ⟨rfl, rfl⟩ := htree.held_home hheld
          rw [h.owned hheld]
          exact hheld
    rw [hgone] at hheld
    exact Option.some_ne_none found hheld.symm

theorem Consistent.forgets_iff (h : kv.Consistent) (objectID : ObjectID) :
    kv.Forgets objectID ↔
      (kv.nestedDirectories objectID.bucket).StopsAtHome objectID := by
  have htree := h.tree objectID.bucket
  have hafter := h.deleteObjectPrefix objectID
  have hsame : (kv.deleteObjectPrefix objectID).2.nestedDirectories objectID.bucket =
      ((kv.nestedDirectories objectID.bucket).traverseDeleteObjectPrefix objectID).2 := by
    rw [nestedDirectories_deleteObjectPrefix, if_pos rfl]
  have howned : ∀ object ∈ (kv.deleteObjectPrefix objectID).1,
      object.id.bucket = objectID.bucket := by
    intro object hmem
    rw [deleteObjectPrefix_fst] at hmem
    exact h.owned (htree.held_of_recorded ((htree.mem_deleted_iff objectID object).mp hmem))
  rw [htree.stopsAtHome_iff]
  constructor
  · rintro hforgets key ⟨object, hmem, rfl⟩
    rw [← deleteObjectPrefix_fst] at hmem
    obtain ⟨hlookup, _⟩ := hforgets object hmem
    rw [lookupObject_eq (hafter.tree _)] at hlookup
    rw [← hsame, ← howned object hmem]
    cases hheld : ((kv.deleteObjectPrefix objectID).2.nestedDirectories
        object.id.bucket).heldAt (PrefixTree.directoriesOf object.id.key)
        object.id.key with
    | none => rfl
    | some found =>
        simp [hheld] at hlookup
  · intro hgone object hmem
    refine hafter.not_found ?_
    have hdeletes : (kv.nestedDirectories objectID.bucket).Deletes objectID
        object.id.key := ⟨object, deleteObjectPrefix_fst objectID ▸ hmem, rfl⟩
    rw [howned object hmem]
    exact hsame ▸ hgone object.id.key hdeletes

/-- Every deletion by prefix in the run stops in the directory where all the
objects it deletes lie. -/
def StopsAtHomeThroughout (requests : List ObjectRequest) : Prop :=
  ∀ earlier objectID later, requests = earlier ++ .deleteObjectPrefix objectID :: later →
    ((new.run earlier).nestedDirectories objectID.bucket).StopsAtHome objectID

theorem run_append_singleton (earlier : List ObjectRequest) (request : ObjectRequest) :
    kv.run (earlier ++ [request]) = (kv.run earlier).perform request := by
  simp [run]

theorem StopsAtHomeThroughout.complete {requests : List ObjectRequest}
    (hhome : StopsAtHomeThroughout requests) (bucket : Bytes) :
    ((new.run requests).nestedDirectories bucket).Complete := by
  induction requests using List.reverseRecOn generalizing bucket with
  | nil => exact (PrefixTree.new_consistent _).2
  | append_singleton earlier request ih =>
      have hearlier : StopsAtHomeThroughout earlier := by
        intro first objectID rest heq
        exact hhome first objectID (rest ++ [request]) (by rw [heq]; simp)
      have hcomplete := ih hearlier bucket
      have hconsistent := (new_consistent.run earlier).tree bucket
      rw [run_append_singleton, nestedDirectories_perform]
      split_ifs with hbucket
      · cases request with
        | createObject object => exact hcomplete.traverseCreateObject object
        | updateObject object => exact hcomplete.traverseCreateObject object
        | deleteObject objectID => exact hcomplete.traverseDeleteObject objectID hconsistent
        | deleteObjectPrefix objectID =>
            have hstop := hhome earlier objectID [] rfl
            rw [show objectID.bucket = bucket from hbucket.symm] at hstop
            exact (hcomplete.traverseDeleteObjectPrefix_iff hconsistent).mpr hstop
      · exact hcomplete

/-- In every reachable store, deleting by prefix is final exactly when all the
objects recorded in the deepest existing directory on the path of the prefix
lie in that directory.  The same condition decides whether the tree invariant
survives, so it holds after every run whose deletions all meet it. -/
theorem run_forgets_iff (requests : List ObjectRequest) :
    (∀ objectID,
      ((new.run requests).Forgets objectID ↔
        ((new.run requests).nestedDirectories objectID.bucket).StopsAtHome objectID) ∧
      (((new.run requests).nestedDirectories objectID.bucket).Invariant →
        ((((new.run requests).deleteObjectPrefix objectID).2.nestedDirectories
            objectID.bucket).Invariant ↔
          ((new.run requests).nestedDirectories objectID.bucket).StopsAtHome objectID))) ∧
      (StopsAtHomeThroughout requests →
        ∀ bucket, ((new.run requests).nestedDirectories bucket).Invariant) := by
  have hrun := new_consistent.run requests
  refine ⟨fun objectID => ⟨hrun.forgets_iff objectID, ?_⟩, ?_⟩
  · intro hinvariant
    have htree := hrun.tree objectID.bucket
    have hafter := (hrun.deleteObjectPrefix objectID).tree objectID.bucket
    have hcomplete := htree.invariant_iff.mp hinvariant
    rw [hafter.invariant_iff, nestedDirectories_deleteObjectPrefix, if_pos rfl]
    exact hcomplete.traverseDeleteObjectPrefix_iff htree
  · intro hhome bucket
    exact (hrun.tree bucket).invariant_iff.mpr (hhome.complete bucket)

/-- The object lies below the directory of the prefix. -/
theorem nested_object_not_forgotten :
    ¬ (new.run [.createObject (Sample.object (text "a/b/c") 1)]).Forgets
      ⟨text "bucket", text "a/"⟩ := by
  intro hforgets
  obtain ⟨hlookup, _⟩ := hforgets (Sample.object (text "a/b/c") 1) (by decide)
  have hfound : (((new.run [.createObject (Sample.object (text "a/b/c") 1)]
      ).deleteObjectPrefix ⟨text "bucket", text "a/"⟩).2.lookupObject
      (Sample.object (text "a/b/c") 1).id).1 = .ok (Sample.object (text "a/b/c") 1) := rfl
  rw [hfound] at hlookup
  simp at hlookup

end Forgets

end KeyValueStore

end GEDS
