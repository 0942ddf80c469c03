/-
What the directories of the Go store hold: each object lies in the directory
of its own path and is recorded on the way to it.  Creates, updates and
deletes keep this up, so the store answers lookups like a map from keys to
objects.
-/
import GEDS.PrefixTree

namespace GEDS

namespace Directory

variable (directory : Directory) (object : Object) (key other : Bytes)

@[simp] theorem find_record :
    (directory.record object).objectsInThisAndChildDirectories.find other =
      if other = object.id.key then some object
      else directory.objectsInThisAndChildDirectories.find other := by
  simp [record]

@[simp] theorem held_record :
    (directory.record object).objectsInThisDirectory =
      directory.objectsInThisDirectory := rfl

@[simp] theorem find_put :
    (directory.put object).objectsInThisDirectory.find other =
      if other = object.id.key then some object
      else directory.objectsInThisDirectory.find other := by
  simp [put]

@[simp] theorem recorded_put :
    (directory.put object).objectsInThisAndChildDirectories =
      directory.objectsInThisAndChildDirectories := rfl

@[simp] theorem find_forget :
    (directory.forget key).objectsInThisAndChildDirectories.find other =
      if other = key then none
      else directory.objectsInThisAndChildDirectories.find other := by
  simp [forget]

@[simp] theorem held_forget :
    (directory.forget key).objectsInThisDirectory =
      directory.objectsInThisDirectory := rfl

@[simp] theorem find_remove :
    (directory.remove key).objectsInThisDirectory.find other =
      if other = key then none else directory.objectsInThisDirectory.find other := by
  simp [remove]

@[simp] theorem recorded_remove :
    (directory.remove key).objectsInThisAndChildDirectories =
      directory.objectsInThisAndChildDirectories := rfl

end Directory

namespace PrefixTree

/-- The object that `objectsInThisAndChildDirectories` has for a key. -/
def recordedAt (tree : PrefixTree) (path : List Bytes) (key : Bytes) : Option Object :=
  (tree.valueAt path).bind (·.objectsInThisAndChildDirectories.find key)

/-- The object that `objectsInThisDirectory` has for a key. -/
def heldAt (tree : PrefixTree) (path : List Bytes) (key : Bytes) : Option Object :=
  (tree.valueAt path).bind (·.objectsInThisDirectory.find key)

variable {tree : PrefixTree}

section Create

variable (tree) (object : Object)

theorem recordedAt_traverseCreateObject (path : List Bytes) (key : Bytes) :
    (tree.traverseCreateObject object).recordedAt path key =
      if path <+: directoriesOf object.id.key ∧ key = object.id.key then some object
      else tree.recordedAt path key := by
  rw [recordedAt, recordedAt, traverseCreateObject]
  by_cases hpath : path <+: directoriesOf object.id.key
  · obtain ⟨old, hnew, hold⟩ := Trie.valueAt_growAlong_of_isPrefix Directory.new
      (fun last directory =>
        if last then (directory.record object).put object else directory.record object)
      tree hpath
    have hbefore : (tree.valueAt path).bind (·.objectsInThisAndChildDirectories.find key) =
        old.objectsInThisAndChildDirectories.find key := by
      rcases hold with hold | ⟨hold, _, name, -, rfl⟩
      · rw [hold, Option.bind_some]
      · rw [hold]
        rfl
    rw [hnew, hbefore, Option.bind_some]
    by_cases hlast : path = directoriesOf object.id.key <;> simp [hlast, hpath]
  · rw [Trie.valueAt_growAlong_of_not_isPrefix _ _ _ hpath, if_neg fun h => hpath h.1]

theorem heldAt_traverseCreateObject (path : List Bytes) (key : Bytes) :
    (tree.traverseCreateObject object).heldAt path key =
      if path = directoriesOf object.id.key ∧ key = object.id.key then some object
      else tree.heldAt path key := by
  rw [heldAt, heldAt, traverseCreateObject]
  by_cases hpath : path <+: directoriesOf object.id.key
  · obtain ⟨old, hnew, hold⟩ := Trie.valueAt_growAlong_of_isPrefix Directory.new
      (fun last directory =>
        if last then (directory.record object).put object else directory.record object)
      tree hpath
    have hbefore : (tree.valueAt path).bind (·.objectsInThisDirectory.find key) =
        old.objectsInThisDirectory.find key := by
      rcases hold with hold | ⟨hold, _, name, -, rfl⟩
      · rw [hold, Option.bind_some]
      · rw [hold]
        rfl
    rw [hnew, hbefore, Option.bind_some]
    by_cases hlast : path = directoriesOf object.id.key <;> simp [hlast]
  · rw [Trie.valueAt_growAlong_of_not_isPrefix _ _ _ hpath, if_neg]
    exact fun h => hpath (h.1 ▸ List.prefix_refl _)

end Create

section Delete

variable (tree) (objectID : ObjectID)

theorem recordedAt_traverseDeleteObject (path : List Bytes) (key : Bytes) :
    (tree.traverseDeleteObject objectID).recordedAt path key =
      if path <+: tree.reach (directoriesOf objectID.key) ∧ key = objectID.key then none
      else tree.recordedAt path key := by
  rw [recordedAt, recordedAt, traverseDeleteObject, Trie.valueAt_editAlong]
  by_cases hpath : path <+: tree.reach (directoriesOf objectID.key)
  · rw [if_pos hpath]
    cases tree.valueAt path with
    | none => simp
    | some directory =>
        by_cases hlast : path = tree.reach (directoriesOf objectID.key) <;>
          simp [hlast, hpath]
  · rw [if_neg hpath, if_neg fun h => hpath h.1]

theorem heldAt_traverseDeleteObject (path : List Bytes) (key : Bytes) :
    (tree.traverseDeleteObject objectID).heldAt path key =
      if path = tree.reach (directoriesOf objectID.key) ∧ key = objectID.key then none
      else tree.heldAt path key := by
  rw [heldAt, heldAt, traverseDeleteObject, Trie.valueAt_editAlong]
  by_cases hpath : path <+: tree.reach (directoriesOf objectID.key)
  · rw [if_pos hpath]
    cases tree.valueAt path with
    | none => simp
    | some directory =>
        by_cases hlast : path = tree.reach (directoriesOf objectID.key) <;> simp [hlast]
  · rw [if_neg hpath, if_neg]
    exact fun h => hpath (h.1 ▸ List.prefix_refl _)

end Delete

/-- What every reachable tree has, whatever prefixes were deleted from it. -/
structure Consistent (tree : PrefixTree) : Prop where
  held_home : ∀ {path : List Bytes} {key : Bytes} {object : Object},
    tree.heldAt path key = some object →
    path = directoriesOf key ∧ object.id.key = key
  recorded_path : ∀ {path : List Bytes} {key : Bytes} {object : Object},
    tree.recordedAt path key = some object → path <+: directoriesOf key
  recorded_below : ∀ {path path' : List Bytes} {key : Bytes} {object : Object},
    tree.recordedAt path key = some object → path <+: path' →
    path' <+: directoriesOf key → tree.recordedAt path' key = some object
  held_eq_recorded : ∀ key, tree.heldAt (directoriesOf key) key =
    tree.recordedAt (directoriesOf key) key

/-- Each object lies in the directory of its own path only, and a directory
records the objects that lie in it or below it. -/
structure Invariant (tree : PrefixTree) : Prop where
  home : ∀ {path : List Bytes} {key : Bytes} {object : Object},
    tree.heldAt path key = some object → path = directoriesOf key
  union : ∀ {path : List Bytes} {key : Bytes} {object : Object},
    tree.recordedAt path key = some object ↔
      ∃ rest, tree.heldAt (path ++ rest) key = some object

/-- No directory on the way to an object misses it. -/
def Complete (tree : PrefixTree) : Prop :=
  ∀ path key, path <+: directoriesOf key →
    tree.recordedAt path key = tree.heldAt (directoriesOf key) key

theorem Consistent.held_of_recorded (h : tree.Consistent) {path : List Bytes}
    {key : Bytes} {object : Object} (hrecorded : tree.recordedAt path key = some object) :
    tree.heldAt (directoriesOf key) key = some object := by
  rw [h.held_eq_recorded]
  exact h.recorded_below hrecorded (h.recorded_path hrecorded) (List.prefix_refl _)

/-- The walk of `lookUpObject` may stop early, but then it finds nothing. -/
theorem Consistent.lookUpObject_eq (h : tree.Consistent) (objectID : ObjectID) :
    tree.lookUpObject objectID = tree.heldAt (directoriesOf objectID.key) objectID.key := by
  have hdeepest : tree.lookUpObject objectID =
      tree.heldAt (tree.reach (directoriesOf objectID.key)) objectID.key := by
    rw [lookUpObject, heldAt, Trie.valueAt_reach, Option.bind_some]
  rw [hdeepest]
  by_cases hreach : tree.reach (directoriesOf objectID.key) = directoriesOf objectID.key
  · rw [hreach]
  · have hmissing : tree.valueAt (directoriesOf objectID.key) = none := by
      by_contra hexists
      exact hreach ((Trie.reach_eq_self_iff _ _).mpr hexists)
    have hnothing : tree.heldAt (tree.reach (directoriesOf objectID.key)) objectID.key =
        none := by
      cases hheld : tree.heldAt (tree.reach (directoriesOf objectID.key)) objectID.key with
      | none => rfl
      | some object => exact absurd (h.held_home hheld).1 hreach
    rw [hnothing, heldAt, hmissing]
    rfl

theorem Consistent.invariant_iff (h : tree.Consistent) :
    tree.Invariant ↔ tree.Complete := by
  constructor
  · intro hinv path key hpath
    obtain ⟨rest, hrest⟩ := hpath
    apply Option.ext
    intro object
    constructor
    · exact fun hrecorded => h.held_of_recorded hrecorded
    · intro hheld
      exact hinv.union.mpr ⟨rest, hrest ▸ hheld⟩
  · intro hcomplete
    refine ⟨fun hheld => (h.held_home hheld).1, ?_⟩
    intro path key object
    constructor
    · intro hrecorded
      obtain ⟨rest, hrest⟩ := h.recorded_path hrecorded
      exact ⟨rest, hrest ▸ h.held_of_recorded hrecorded⟩
    · rintro ⟨rest, hheld⟩
      obtain ⟨hpath, _⟩ := h.held_home hheld
      rw [hcomplete path key (hpath ▸ List.prefix_append path rest), ← hpath]
      exact hheld

theorem new_consistent (thisDirectory : Bytes) :
    (makeNewPrefixTree thisDirectory).Consistent ∧
      (makeNewPrefixTree thisDirectory).Complete := by
  have hrecorded : ∀ path key,
      (makeNewPrefixTree thisDirectory).recordedAt path key = none := by
    intro path key
    cases path with
    | nil => rfl
    | cons name rest => simp [recordedAt, makeNewPrefixTree]
  have hheld : ∀ path key,
      (makeNewPrefixTree thisDirectory).heldAt path key = none := by
    intro path key
    cases path with
    | nil => rfl
    | cons name rest => simp [heldAt, makeNewPrefixTree]
  refine ⟨⟨?_, ?_, ?_, ?_⟩, ?_⟩
  · intro path key object h
    simp [hheld] at h
  · intro path key object h
    simp [hrecorded] at h
  · intro path path' key object h
    simp [hrecorded] at h
  · intro key
    rw [hheld, hrecorded]
  · intro path key _
    rw [hheld, hrecorded]

section Create

variable (object : Object)

theorem Consistent.traverseCreateObject (h : tree.Consistent) :
    (tree.traverseCreateObject object).Consistent := by
  refine ⟨?_, ?_, ?_, ?_⟩
  · intro path key found hheld
    rw [heldAt_traverseCreateObject] at hheld
    split_ifs at hheld with hhome
    · obtain rfl := Option.some.inj hheld
      rw [hhome.2]
      exact ⟨hhome.1, rfl⟩
    · exact h.held_home hheld
  · intro path key found hrecorded
    rw [recordedAt_traverseCreateObject] at hrecorded
    split_ifs at hrecorded with hpath
    · rw [hpath.2]
      exact hpath.1
    · exact h.recorded_path hrecorded
  · intro path path' key found hrecorded hbelow hpath'
    rw [recordedAt_traverseCreateObject] at hrecorded ⊢
    by_cases hkey : key = object.id.key
    · subst hkey
      have hpath := hbelow.trans hpath'
      rw [if_pos ⟨hpath, rfl⟩] at hrecorded
      rw [if_pos ⟨hpath', rfl⟩]
      exact hrecorded
    · rw [if_neg fun hcase => hkey hcase.2] at hrecorded ⊢
      exact h.recorded_below hrecorded hbelow hpath'
  · intro key
    rw [heldAt_traverseCreateObject, recordedAt_traverseCreateObject]
    by_cases hkey : key = object.id.key
    · subst hkey
      simp
    · rw [if_neg fun hcase => hkey hcase.2, if_neg fun hcase => hkey hcase.2]
      exact h.held_eq_recorded key

theorem Complete.traverseCreateObject (h : tree.Complete) :
    (tree.traverseCreateObject object).Complete := by
  intro path key hpath
  rw [heldAt_traverseCreateObject, recordedAt_traverseCreateObject]
  by_cases hkey : key = object.id.key
  · subst hkey
    simp [hpath]
  · rw [if_neg fun hcase => hkey hcase.2, if_neg fun hcase => hkey hcase.2]
    exact h path key hpath

end Create

section Delete

variable (objectID : ObjectID)

/-- When the walk stops early, the object is nowhere. -/
theorem Consistent.recordedAt_eq_none_of_missing (h : tree.Consistent) {key : Bytes}
    (hmissing : tree.reach (directoriesOf key) ≠ directoriesOf key) (path : List Bytes) :
    tree.recordedAt path key = none := by
  cases hrecorded : tree.recordedAt path key with
  | none => rfl
  | some object =>
      have hheld := h.held_of_recorded hrecorded
      have hgone : tree.valueAt (directoriesOf key) = none := by
        by_contra hexists
        exact hmissing ((Trie.reach_eq_self_iff _ _).mpr hexists)
      rw [heldAt, hgone] at hheld
      exact absurd hheld (Option.some_ne_none object).symm

theorem Consistent.recordedAt_traverseDeleteObject_self (h : tree.Consistent)
    (path : List Bytes) :
    (tree.traverseDeleteObject objectID).recordedAt path objectID.key = none := by
  rw [recordedAt_traverseDeleteObject]
  split_ifs with hpath
  · rfl
  · by_cases hreach : tree.reach (directoriesOf objectID.key) = directoriesOf objectID.key
    · cases hrecorded : tree.recordedAt path objectID.key with
      | none => rfl
      | some object =>
          have habove := h.recorded_path hrecorded
          rw [← hreach] at habove
          exact absurd ⟨habove, rfl⟩ hpath
    · exact h.recordedAt_eq_none_of_missing hreach path

theorem Consistent.heldAt_traverseDeleteObject_self (h : tree.Consistent)
    (path : List Bytes) :
    (tree.traverseDeleteObject objectID).heldAt path objectID.key = none := by
  rw [heldAt_traverseDeleteObject]
  split_ifs with hpath
  · rfl
  · cases hheld : tree.heldAt path objectID.key with
    | none => rfl
    | some object =>
        obtain ⟨rfl, _⟩ := h.held_home hheld
        rw [h.held_eq_recorded] at hheld
        by_cases hreach :
            tree.reach (directoriesOf objectID.key) = directoriesOf objectID.key
        · exact absurd ⟨hreach.symm, rfl⟩ hpath
        · rw [h.recordedAt_eq_none_of_missing hreach] at hheld
          exact absurd hheld (Option.some_ne_none object).symm

theorem recordedAt_traverseDeleteObject_of_ne (path : List Bytes) {key : Bytes}
    (hkey : key ≠ objectID.key) :
    (tree.traverseDeleteObject objectID).recordedAt path key =
      tree.recordedAt path key := by
  rw [recordedAt_traverseDeleteObject, if_neg fun hcase => hkey hcase.2]

theorem heldAt_traverseDeleteObject_of_ne (path : List Bytes) {key : Bytes}
    (hkey : key ≠ objectID.key) :
    (tree.traverseDeleteObject objectID).heldAt path key = tree.heldAt path key := by
  rw [heldAt_traverseDeleteObject, if_neg fun hcase => hkey hcase.2]

theorem Consistent.traverseDeleteObject (h : tree.Consistent) :
    (tree.traverseDeleteObject objectID).Consistent := by
  refine ⟨?_, ?_, ?_, ?_⟩
  · intro path key found hheld
    by_cases hkey : key = objectID.key
    · subst hkey
      simp [h.heldAt_traverseDeleteObject_self] at hheld
    · rw [heldAt_traverseDeleteObject_of_ne objectID path hkey] at hheld
      exact h.held_home hheld
  · intro path key found hrecorded
    by_cases hkey : key = objectID.key
    · subst hkey
      simp [h.recordedAt_traverseDeleteObject_self] at hrecorded
    · rw [recordedAt_traverseDeleteObject_of_ne objectID path hkey] at hrecorded
      exact h.recorded_path hrecorded
  · intro path path' key found hrecorded hbelow hpath'
    by_cases hkey : key = objectID.key
    · subst hkey
      simp [h.recordedAt_traverseDeleteObject_self] at hrecorded
    · rw [recordedAt_traverseDeleteObject_of_ne objectID _ hkey] at hrecorded ⊢
      exact h.recorded_below hrecorded hbelow hpath'
  · intro key
    by_cases hkey : key = objectID.key
    · subst hkey
      rw [h.heldAt_traverseDeleteObject_self, h.recordedAt_traverseDeleteObject_self]
    · rw [heldAt_traverseDeleteObject_of_ne objectID _ hkey,
        recordedAt_traverseDeleteObject_of_ne objectID _ hkey]
      exact h.held_eq_recorded key

theorem Complete.traverseDeleteObject (hcomplete : tree.Complete) (h : tree.Consistent) :
    (tree.traverseDeleteObject objectID).Complete := by
  intro path key hpath
  by_cases hkey : key = objectID.key
  · subst hkey
    rw [h.heldAt_traverseDeleteObject_self, h.recordedAt_traverseDeleteObject_self]
  · rw [heldAt_traverseDeleteObject_of_ne objectID _ hkey,
      recordedAt_traverseDeleteObject_of_ne objectID _ hkey]
    exact hcomplete path key hpath

end Delete

end PrefixTree

namespace KeyValueStore

variable {kv : KeyValueStore}

@[simp] theorem nestedDirectories_newBucketIfNotExist (bucket other : Bytes) :
    (kv.newBucketIfNotExist bucket).2.nestedDirectories other =
      kv.nestedDirectories other := by
  rw [newBucketIfNotExist]
  cases hfind : kv.buckets.find bucket with
  | some tree => rfl
  | none =>
      by_cases hother : other = bucket
      · subst hother
        simp [nestedDirectories, hfind]
      · simp [nestedDirectories, hother]

@[simp] theorem nestedDirectories_setNestedDirectories (bucket other : Bytes)
    (tree : PrefixTree) : (kv.setNestedDirectories bucket tree).nestedDirectories other =
      if other = bucket then tree else kv.nestedDirectories other := by
  by_cases hother : other = bucket
  · simp [nestedDirectories, setNestedDirectories, hother]
  · simp [nestedDirectories, setNestedDirectories, hother]

@[simp] theorem nestedDirectories_new (bucket : Bytes) :
    new.nestedDirectories bucket = makeNewPrefixTree (text "root") := rfl

end KeyValueStore

namespace ObjectRequest

/-- The bucket a request addresses. -/
def bucket : ObjectRequest → Bytes
  | .createObject object | .updateObject object => object.id.bucket
  | .deleteObject objectID | .deleteObjectPrefix objectID => objectID.bucket

/-- The object that a request is about. -/
def objectID : ObjectRequest → ObjectID
  | .createObject object | .updateObject object => object.id
  | .deleteObject objectID | .deleteObjectPrefix objectID => objectID

/-- The effect of a request on the tree of its bucket. -/
def onTree (tree : PrefixTree) : ObjectRequest → PrefixTree
  | .createObject object | .updateObject object => tree.traverseCreateObject object
  | .deleteObject objectID => tree.traverseDeleteObject objectID
  | .deleteObjectPrefix objectID => (tree.traverseDeleteObjectPrefix objectID).2

def isDeletePrefix : ObjectRequest → Bool
  | .deleteObjectPrefix _ => true
  | _ => false

/-- The effect of a request on a map from object names to objects. -/
def onStored (stored : ObjectID → Option Object) :
    ObjectRequest → ObjectID → Option Object
  | .createObject object | .updateObject object =>
      Function.update stored object.id (some object)
  | .deleteObject objectID => Function.update stored objectID none
  | .deleteObjectPrefix objectID => fun other =>
      if other.bucket = objectID.bucket ∧ objectID.key <+: other.key then none
      else stored other

/-- The object last stored under each name and not deleted since. -/
def lastStored (requests : List ObjectRequest) : ObjectID → Option Object :=
  requests.foldl onStored fun _ => none

/-- After one more create, update or delete, the directory of a key holds what
the map has for it. -/
theorem heldAt_onTree {tree : PrefixTree} (h : tree.Consistent) {request : ObjectRequest}
    (hplain : request.isDeletePrefix = false) {stored : ObjectID → Option Object}
    (hstored : ∀ key, tree.heldAt (PrefixTree.directoriesOf key) key =
      stored ⟨request.bucket, key⟩) (key : Bytes) :
    (request.onTree tree).heldAt (PrefixTree.directoriesOf key) key =
      request.onStored stored ⟨request.bucket, key⟩ := by
  have hcreate : ∀ object : Object, object.id.bucket = request.bucket →
      (tree.traverseCreateObject object).heldAt (PrefixTree.directoriesOf key) key =
        Function.update stored object.id (some object) ⟨request.bucket, key⟩ := by
    intro object hbucket
    rw [PrefixTree.heldAt_traverseCreateObject]
    by_cases hkey : key = object.id.key
    · have hid : object.id = ⟨request.bucket, key⟩ := by rw [← hbucket, hkey]
      rw [if_pos ⟨by rw [hkey], hkey⟩, ← hid, Function.update_self]
    · have hid : (⟨request.bucket, key⟩ : ObjectID) ≠ object.id :=
        fun heq => hkey (congrArg ObjectID.key heq)
      rw [if_neg fun hcase => hkey hcase.2, Function.update_of_ne hid, hstored]
  cases request with
  | createObject object => exact hcreate object rfl
  | updateObject object => exact hcreate object rfl
  | deleteObject objectID =>
      change (tree.traverseDeleteObject objectID).heldAt _ key =
        Function.update stored objectID none ⟨objectID.bucket, key⟩
      by_cases hkey : key = objectID.key
      · subst hkey
        rw [h.heldAt_traverseDeleteObject_self, Function.update_self]
      · have hid : (⟨objectID.bucket, key⟩ : ObjectID) ≠ objectID :=
          fun heq => hkey (congrArg ObjectID.key heq)
        rw [PrefixTree.heldAt_traverseDeleteObject_of_ne objectID _ hkey,
          Function.update_of_ne hid]
        exact hstored key
  | deleteObjectPrefix objectID => exact absurd hplain Bool.noConfusion

theorem onStored_of_ne {request : ObjectRequest} {stored : ObjectID → Option Object}
    {objectID : ObjectID} (hne : objectID.bucket ≠ request.bucket) :
    request.onStored stored objectID = stored objectID := by
  cases request with
  | createObject object =>
      exact Function.update_of_ne (fun heq => hne (congrArg ObjectID.bucket heq)) _ _
  | updateObject object =>
      exact Function.update_of_ne (fun heq => hne (congrArg ObjectID.bucket heq)) _ _
  | deleteObject other =>
      exact Function.update_of_ne (fun heq => hne (congrArg ObjectID.bucket heq)) _ _
  | deleteObjectPrefix other => exact if_neg fun hcase => hne hcase.1

end ObjectRequest

namespace KeyValueStore

variable {kv : KeyValueStore}

/-- A request works on the tree of its bucket and leaves the others alone. -/
theorem nestedDirectories_perform (request : ObjectRequest) (bucket : Bytes) :
    (kv.perform request).nestedDirectories bucket =
      if bucket = request.bucket then request.onTree (kv.nestedDirectories bucket)
      else kv.nestedDirectories bucket := by
  by_cases hbucket : bucket = request.bucket
  · subst hbucket
    cases request <;>
      simp [perform, createObject, updateObject, deleteObject, deleteObjectPrefix,
        ObjectRequest.bucket, ObjectRequest.onTree]
  · cases request <;>
      simp_all [perform, createObject, updateObject, deleteObject, deleteObjectPrefix,
        ObjectRequest.bucket]

/-- The store is a map: every directory holds what was last stored, and every
directory on the way records it. -/
structure Follows (kv : KeyValueStore) (stored : ObjectID → Option Object) : Prop where
  consistent : ∀ bucket, (kv.nestedDirectories bucket).Consistent
  complete : ∀ bucket, (kv.nestedDirectories bucket).Complete
  held : ∀ bucket key, (kv.nestedDirectories bucket).heldAt
    (PrefixTree.directoriesOf key) key = stored ⟨bucket, key⟩

theorem Follows.perform {stored : ObjectID → Option Object} (h : kv.Follows stored)
    {request : ObjectRequest} (hplain : request.isDeletePrefix = false) :
    (kv.perform request).Follows (request.onStored stored) := by
  have htree : ∀ tree : PrefixTree, tree.Consistent → tree.Complete →
      (request.onTree tree).Consistent ∧ (request.onTree tree).Complete := by
    intro tree hconsistent hcomplete
    cases request with
    | createObject object =>
        exact ⟨hconsistent.traverseCreateObject object,
          hcomplete.traverseCreateObject object⟩
    | updateObject object =>
        exact ⟨hconsistent.traverseCreateObject object,
          hcomplete.traverseCreateObject object⟩
    | deleteObject objectID =>
        exact ⟨hconsistent.traverseDeleteObject objectID,
          hcomplete.traverseDeleteObject objectID hconsistent⟩
    | deleteObjectPrefix objectID => exact absurd hplain Bool.noConfusion
  refine ⟨?_, ?_, ?_⟩
  · intro bucket
    rw [nestedDirectories_perform]
    split_ifs
    · exact (htree _ (h.consistent bucket) (h.complete bucket)).1
    · exact h.consistent bucket
  · intro bucket
    rw [nestedDirectories_perform]
    split_ifs
    · exact (htree _ (h.consistent bucket) (h.complete bucket)).2
    · exact h.complete bucket
  · intro bucket key
    rw [nestedDirectories_perform]
    split_ifs with hbucket
    · subst hbucket
      exact ObjectRequest.heldAt_onTree (h.consistent _) hplain (h.held _) key
    · rw [ObjectRequest.onStored_of_ne hbucket]
      exact h.held bucket key

theorem Follows.run {stored : ObjectID → Option Object} (h : kv.Follows stored)
    {requests : List ObjectRequest}
    (hplain : ∀ request ∈ requests, request.isDeletePrefix = false) :
    (kv.run requests).Follows (requests.foldl ObjectRequest.onStored stored) := by
  induction requests generalizing kv stored with
  | nil => exact h
  | cons request rest ih =>
      have hstep := h.perform (hplain request List.mem_cons_self)
      exact ih hstep fun other hother => hplain other (List.mem_cons_of_mem _ hother)

theorem new_follows : new.Follows fun _ => none := by
  obtain ⟨hconsistent, hcomplete⟩ := PrefixTree.new_consistent (text "root")
  refine ⟨fun _ => hconsistent, fun _ => hcomplete, ?_⟩
  intro bucket key
  rw [nestedDirectories_new, hconsistent.held_eq_recorded]
  cases PrefixTree.directoriesOf key with
  | nil => rfl
  | cons name rest => simp [PrefixTree.recordedAt, makeNewPrefixTree]

theorem lookupObject_eq {objectID : ObjectID}
    (hconsistent : (kv.nestedDirectories objectID.bucket).Consistent) :
    (kv.lookupObject objectID).1 =
      match (kv.nestedDirectories objectID.bucket).heldAt
        (PrefixTree.directoriesOf objectID.key) objectID.key with
      | none => .error (text "object does not exist")
      | some object => .ok object := by
  rw [← hconsistent.lookUpObject_eq, lookupObject]
  simp only [nestedDirectories_newBucketIfNotExist]
  cases (kv.nestedDirectories objectID.bucket).lookUpObject objectID <;> rfl

/-- After every sequence of creates, updates and deletes, `LookupObject`
answers with the object last stored and not deleted since; that object lies in
the directory of its own path and nowhere else, and every directory records
exactly what lies in it or below it. -/
theorem run_lookupObject (requests : List ObjectRequest)
    (hplain : ∀ request ∈ requests, request.isDeletePrefix = false) :
    (∀ objectID, ((new.run requests).lookupObject objectID).1 =
      match ObjectRequest.lastStored requests objectID with
      | none => .error (text "object does not exist")
      | some object => .ok object) ∧
      (∀ bucket path key, ((new.run requests).nestedDirectories bucket).heldAt path key =
        if path = PrefixTree.directoriesOf key then
          ObjectRequest.lastStored requests ⟨bucket, key⟩
        else none) ∧
      ∀ bucket, ((new.run requests).nestedDirectories bucket).Invariant := by
  have hfollows := new_follows.run hplain
  refine ⟨?_, ?_, ?_⟩
  · intro objectID
    rw [lookupObject_eq (hfollows.consistent _), hfollows.held]
    rfl
  · intro bucket path key
    split_ifs with hpath
    · rw [hpath]
      exact hfollows.held bucket key
    · cases hheld : ((new.run requests).nestedDirectories bucket).heldAt path key with
      | none => rfl
      | some object => exact absurd ((hfollows.consistent bucket).held_home hheld).1 hpath
  · intro bucket
    exact (hfollows.consistent bucket).invariant_iff.mpr (hfollows.complete bucket)

namespace Sample

def object (key : Bytes) (size : UInt64) : Object :=
  ⟨⟨text "bucket", key⟩, ⟨text "geds://node", size, size, none⟩⟩

/-- Keys with repeated and trailing separators, blanks, and no bytes at all. -/
def requests : List ObjectRequest :=
  [.createObject (object (text " a//b/ ") 1), .createObject (object (text "") 2),
    .updateObject (object (text " a//b/ ") 3), .deleteObject ⟨text "bucket", text ""⟩]

theorem lookupObject_eq_last :
    ((new.run requests).lookupObject ⟨text "bucket", text " a//b/ "⟩).1 =
        .ok (object (text " a//b/ ") 3) ∧
      ((new.run requests).lookupObject ⟨text "bucket", text ""⟩).1 =
        .error (text "object does not exist") := by
  have hplain : ∀ request ∈ requests, request.isDeletePrefix = false := by
    decide
  obtain ⟨hlookup, _⟩ := run_lookupObject requests hplain
  exact ⟨(hlookup _).trans rfl, (hlookup _).trans rfl⟩

end Sample

end KeyValueStore

end GEDS
