/-
Listing a bucket from the cache of a client that has subscribed to it.  The cache
is filled by lookups, by lists and by the publications of the server, and it is
asked first.
-/
import GEDS.MetadataCache
import GEDS.MDSKVSListing
import GEDS.PrefixTreeDelete

namespace GEDS

open Status

/-- What `mdsprocessor` publishes for a request on this store, before and after it is
carried out. -/
def KeyValueStore.publications (store : KeyValueStore) (request : ObjectRequest) :
    List Publication :=
  request.announcement.toList ++
    match request with
    | .deleteObjectPrefix objectID =>
        (store.deleteObjectPrefix objectID).1.map (⟨·, .deleteObject⟩)
    | _ => []

/-- A client with its cache, beside the server.  The publications about the bucket that
come after the subscription are delivered one by one, in the order of the changes. -/
structure Caching where
  store : KeyValueStore
  cache : MDSKVS
  subscribed : Bool
  pending : List Publication

/-- What happens to the server and the client; a call of the client may fail to reach
the server, with a message. -/
inductive CachingEvent where
  | createBucket (bucket : Bytes)
  | deleteBucket (bucket : Bytes)
  | change (request : ObjectRequest)
  | subscribe
  | deliver
  | lookup (id : ObjectID) (invalidate : Bool) (failure : Option Bytes)
  | listPrefix (id : ObjectID) (delimiter : UInt8) (failure : Option Bytes)
  | updateObject (object : Object) (failure : Option Bytes)
  | deleteObject (id : ObjectID) (failure : Option Bytes)

/-- What `listPrefix` sends: `delimiter` is a signed `char`. -/
def listRequest (id : ObjectID) (delimiter : UInt8) : ObjectListRequest where
  keyPrefix := some id
  delimiter :=
    if 0 < delimiter ∧ delimiter < 0x80 then some (Int32.ofNat delimiter.toNat) else none

namespace Caching

section Calls

def new (defaultBucket : Option Bytes) : Caching where
  store := KeyValueStore.new
  cache := MDSKVS.new defaultBucket
  subscribed := false
  pending := []

variable (bucket : Bytes) (s : Caching)

/-- The server carries out a request, and publishes to the subscriber of the bucket. -/
def change (request : ObjectRequest) : Caching :=
  { s with
    store := s.store.perform request
    pending := s.pending ++
      if s.subscribed then
        (s.store.publications request).filter fun publication =>
          decide (publication.object.id.bucket = bucket)
      else [] }

/-- One round of the loop in `subscribeStream`. -/
def deliver : Caching :=
  match s.pending with
  | [] => s
  | publication :: pending =>
      { s with cache := s.cache.receive publication, pending := pending }

/-- `_mdsCache.createObject(obj, true)` for the objects of a response. -/
def remember (objects : List Object) (cache : MDSKVS) : MDSKVS :=
  objects.foldl (fun cache object => (cache.createObject object true).2) cache

/-- The part of `MetadataService::lookup` that asks the server. -/
def lookupRemote (id : ObjectID) (failure : Option Bytes) : Except Status Object × Caching :=
  match failure with
  | some message =>
      (.error (unavailableError (text "Unable to execute Lookup command: " ++ message)), s)
  | none =>
      match s.store.lookupObject id with
      | (.error _, store) => (.error (notFoundError []), { s with store := store })
      | (.ok object, store) =>
          (.ok object, { s with store := store, cache := remember [object] s.cache })

/-- `MetadataService::lookup` -/
def lookup (id : ObjectID) (invalidate : Bool) (failure : Option Bytes) :
    Except Status Object × Caching :=
  if invalidate then s.lookupRemote id failure
  else
    match s.cache.lookup id with
    | .ok object => (.ok object, s)
    | .error _ => s.lookupRemote id failure

/-- `MetadataService::listPrefix` -/
def listPrefix (id : ObjectID) (delimiter : UInt8) (failure : Option Bytes) :
    Except Status (List Object × List Bytes) × Caching :=
  match failure with
  | some message =>
      (.error (unavailableError (text "Unable to execute List command: " ++ message)), s)
  | none =>
      let response := s.store.listObjects (listRequest id delimiter)
      (.ok response.1,
        { s with store := response.2, cache := remember response.1.1 s.cache })

/-- `MetadataService::listPrefixFromCache` -/
def listPrefixFromCache (id : ObjectID) (delimiter : UInt8) (failure : Option Bytes) :
    Except Status (List Object × List Bytes) × Caching :=
  match s.cache.listObjects id delimiter with
  | .ok listing => (.ok listing, s)
  | .error _ => s.listPrefix id delimiter failure

/-- `MetadataService::updateObject`: the cache first. -/
def updateObject (object : Object) (failure : Option Bytes) : Caching :=
  let s := { s with cache := (s.cache.updateObject object).2 }
  if failure.isSome then s else s.change bucket (.updateObject object)

/-- `MetadataService::deleteObject` -/
def deleteObject (id : ObjectID) (failure : Option Bytes) : Caching :=
  let s := { s with cache := (s.cache.deleteObject id).2 }
  if failure.isSome then s else s.change bucket (.deleteObject id)

def perform : CachingEvent → Caching
  | .createBucket created => { s with store := (s.store.createBucket created).2 }
  | .deleteBucket deleted => { s with store := (s.store.deleteBucket deleted).2 }
  | .change request => s.change bucket request
  | .subscribe => { s with subscribed := true }
  | .deliver => s.deliver
  | .lookup id invalidate failure => (s.lookup id invalidate failure).2
  | .listPrefix id delimiter failure => (s.listPrefix id delimiter failure).2
  | .updateObject object failure => s.updateObject bucket object failure
  | .deleteObject id failure => s.deleteObject bucket id failure

def run (events : List CachingEvent) : Caching := events.foldl (perform bucket) s

end Calls

end Caching

/-- The same objects and the same common prefixes, in any order. -/
def SameListing (listing other : List Object × List Bytes) : Prop :=
  (∀ object, object ∈ listing.1 ↔ object ∈ other.1) ∧ ∀ name, name ∈ listing.2 ↔ name ∈ other.2

theorem SameListing.symm {listing other : List Object × List Bytes}
    (hsame : SameListing listing other) : SameListing other listing :=
  ⟨fun object => (hsame.1 object).symm, fun name => (hsame.2 name).symm⟩

theorem SameListing.trans {listing other third : List Object × List Bytes}
    (hsame : SameListing listing other) (hthird : SameListing other third) :
    SameListing listing third :=
  ⟨fun object => (hsame.1 object).trans (hthird.1 object),
    fun name => (hsame.2 name).trans (hthird.2 name)⟩

/-- Nothing is recorded in the root, and it has no directories. -/
structure PrefixTree.Bare (tree : PrefixTree) : Prop where
  recorded : ∀ key, tree.recordedAt [] key = none
  children : tree.children = []

/-- What the server lists for a whole bucket; nothing, if the bucket has no name. -/
def KeyValueStore.listed (store : KeyValueStore) (id : ObjectID) : Option Object :=
  if id.bucket.length = 0 then none
  else (store.nestedDirectories id.bucket).recordedAt [] id.key

namespace Caching

/-- The cache and the server list the same for a prefix and a delimiter. -/
def ListsAlike (s : Caching) (id : ObjectID) (delimiter : UInt8) : Prop :=
  ∃ listing, (s.listPrefixFromCache id delimiter none).1 = .ok listing ∧
    SameListing listing (s.store.listObjects (listRequest id delimiter)).1

/-- Neither the cache nor the server has anything in the bucket, not even a directory. -/
structure NothingListed (s : Caching) (bucket : Bytes) : Prop where
  cache : s.cache.contents bucket = some Contents.empty
  store : bucket.length = 0 ∨ (s.store.nestedDirectories bucket).Bare

/-- The cache has what the server lists for the whole bucket. -/
def CachesAll (s : Caching) (bucket : Bytes) : Prop :=
  ∀ key, s.cache.entry ⟨bucket, key⟩ = s.store.listed ⟨bucket, key⟩

/-- What holds in every run. -/
structure Invariant (s : Caching) : Prop where
  store : s.store.Consistent
  cache : s.cache.WellFormed

section Runs

variable {s : Caching}

theorem consistent_of_trees {store after : KeyValueStore} (hstore : store.Consistent)
    (hsame : ∀ bucket, after.nestedDirectories bucket = store.nestedDirectories bucket ∨
      after.nestedDirectories bucket = KeyValueStore.new.nestedDirectories bucket) :
    after.Consistent := by
  constructor
  · intro bucket
    rcases hsame bucket with heq | heq
    · rw [heq]
      exact hstore.tree bucket
    · rw [heq]
      exact KeyValueStore.new_consistent.tree bucket
  · intro bucket path key object hheld
    rcases hsame bucket with heq | heq
    · rw [heq] at hheld
      exact hstore.owned hheld
    · rw [heq] at hheld
      exact KeyValueStore.new_consistent.owned hheld

theorem createBucket_trees (store : KeyValueStore) (created bucket : Bytes) :
    (store.createBucket created).2.nestedDirectories bucket = store.nestedDirectories bucket := by
  have hsame := @KeyValueStore.nestedDirectories_newBucketIfNotExist store created bucket
  rw [KeyValueStore.createBucket]
  split_ifs <;> exact hsame

theorem deleteBucket_trees (store : KeyValueStore) (deleted bucket : Bytes) :
    (store.deleteBucket deleted).2.nestedDirectories bucket = store.nestedDirectories bucket ∨
      (store.deleteBucket deleted).2.nestedDirectories bucket =
        KeyValueStore.new.nestedDirectories bucket := by
  rw [KeyValueStore.deleteBucket]
  cases store.buckets.find deleted with
  | none => exact Or.inl rfl
  | some tree =>
      by_cases heq : bucket = deleted
      · right
        simp [KeyValueStore.nestedDirectories, KeyValueStore.new, heq]
      · left
        simp [KeyValueStore.nestedDirectories, heq]

theorem lookupObject_trees (store : KeyValueStore) (id : ObjectID) (bucket : Bytes) :
    (store.lookupObject id).2.nestedDirectories bucket = store.nestedDirectories bucket := by
  have hsame := @KeyValueStore.nestedDirectories_newBucketIfNotExist store id.bucket bucket
  rw [KeyValueStore.lookupObject]
  split <;> exact hsame

theorem listObjects_trees (store : KeyValueStore) (request : ObjectListRequest)
    (bucket : Bytes) :
    (store.listObjects request).2.nestedDirectories bucket = store.nestedDirectories bucket := by
  have hsame : ∀ created,
      (store.newBucketIfNotExist created).2.nestedDirectories bucket =
        store.nestedDirectories bucket := fun created =>
    @KeyValueStore.nestedDirectories_newBucketIfNotExist store created bucket
  rw [KeyValueStore.listObjects]
  cases request.keyPrefix with
  | none => rfl
  | some id =>
      dsimp only
      split_ifs
      · rfl
      · cases request.delimiter with
        | none => exact hsame id.bucket
        | some delimiter =>
            dsimp only
            split_ifs
            · exact hsame id.bucket
            · rfl
            · exact hsame id.bucket

theorem remember_wellFormed (objects : List Object) {cache : MDSKVS}
    (hwf : cache.WellFormed) : (remember objects cache).WellFormed := by
  induction objects generalizing cache with
  | nil => exact hwf
  | cons object rest ih =>
      exact ih (MDSKVS.perform_refines hwf (.createObject object true)).2.2

theorem Invariant.change (hinv : s.Invariant) (bucket : Bytes) (request : ObjectRequest) :
    (s.change bucket request).Invariant :=
  ⟨hinv.store.perform request, hinv.cache⟩

theorem Invariant.lookupRemote (hinv : s.Invariant) (id : ObjectID) (failure : Option Bytes) :
    (s.lookupRemote id failure).2.Invariant := by
  have hstore := consistent_of_trees hinv.store fun bucket =>
    Or.inl (lookupObject_trees s.store id bucket)
  unfold Caching.lookupRemote
  cases failure with
  | some message => exact hinv
  | none =>
      dsimp only
      revert hstore
      obtain ⟨answer, store⟩ := s.store.lookupObject id
      intro hstore
      cases answer with
      | error message => exact ⟨hstore, hinv.cache⟩
      | ok object => exact ⟨hstore, remember_wellFormed [object] hinv.cache⟩

theorem Invariant.lookup (hinv : s.Invariant) (id : ObjectID) (invalidate : Bool)
    (failure : Option Bytes) : (s.lookup id invalidate failure).2.Invariant := by
  unfold Caching.lookup
  split_ifs
  · exact hinv.lookupRemote id failure
  · split
    · exact hinv
    · exact hinv.lookupRemote id failure

theorem Invariant.listPrefix (hinv : s.Invariant) (id : ObjectID) (delimiter : UInt8)
    (failure : Option Bytes) : (s.listPrefix id delimiter failure).2.Invariant := by
  unfold Caching.listPrefix
  cases failure with
  | some message => exact hinv
  | none =>
      exact ⟨consistent_of_trees hinv.store fun bucket => Or.inl (listObjects_trees _ _ bucket),
        remember_wellFormed _ hinv.cache⟩

theorem Invariant.perform (hinv : s.Invariant) (bucket : Bytes) (event : CachingEvent) :
    (s.perform bucket event).Invariant := by
  cases event with
  | createBucket created =>
      exact ⟨consistent_of_trees hinv.store fun other =>
        Or.inl (createBucket_trees s.store created other), hinv.cache⟩
  | deleteBucket deleted =>
      exact ⟨consistent_of_trees hinv.store (deleteBucket_trees s.store deleted), hinv.cache⟩
  | change request => exact hinv.change bucket request
  | subscribe => exact ⟨hinv.store, hinv.cache⟩
  | deliver =>
      change s.deliver.Invariant
      unfold Caching.deliver
      split
      · exact hinv
      · exact ⟨hinv.store, MDSKVS.receive_wellFormed hinv.cache _⟩
  | lookup id invalidate failure => exact hinv.lookup id invalidate failure
  | listPrefix id delimiter failure => exact hinv.listPrefix id delimiter failure
  | updateObject object failure =>
      have hcached : ({ s with cache := (s.cache.updateObject object).2 } : Caching).Invariant :=
        ⟨hinv.store, (MDSKVS.perform_refines hinv.cache (.updateObject object)).2.2⟩
      change (s.updateObject bucket object failure).Invariant
      unfold Caching.updateObject
      dsimp only
      split_ifs
      · exact hcached
      · exact hcached.change bucket _
  | deleteObject id failure =>
      have hcached : ({ s with cache := (s.cache.deleteObject id).2 } : Caching).Invariant :=
        ⟨hinv.store, (MDSKVS.perform_refines hinv.cache (.deleteObject id)).2.2⟩
      change (s.deleteObject bucket id failure).Invariant
      unfold Caching.deleteObject
      dsimp only
      split_ifs
      · exact hcached
      · exact hcached.change bucket _

theorem new_invariant (defaultBucket : Option Bytes) : (new defaultBucket).Invariant :=
  ⟨KeyValueStore.new_consistent, (MDSKVS.new_wellFormed defaultBucket).1⟩

theorem Invariant.run (hinv : s.Invariant) (bucket : Bytes) (events : List CachingEvent) :
    (s.run bucket events).Invariant := by
  induction events generalizing s with
  | nil => exact hinv
  | cons event rest ih => exact ih (hinv.perform bucket event)

end Runs

section Cache

variable {s : Caching} {bucket : Bytes}

/-- A bucket that the cache does not know is listed by the server. -/
theorem listsAlike_of_unknown (hunknown : s.cache.contents bucket = none) (keyPrefix : Bytes)
    (delimiter : UInt8) : s.ListsAlike ⟨bucket, keyPrefix⟩ delimiter := by
  have hfind := (MDSKVS.contents_eq_none_iff s.cache bucket).1 hunknown
  refine ⟨_, ?_, fun _ => Iff.rfl, fun _ => Iff.rfl⟩
  simp only [listPrefixFromCache, MDSKVS.listObjects, MDSKVS.getBucket, hfind, listPrefix]

theorem listsAlike_iff_of_found {ref : Nat} (hfind : s.cache.map.find bucket = some ref)
    (keyPrefix : Bytes) (delimiter : UInt8) :
    s.ListsAlike ⟨bucket, keyPrefix⟩ delimiter ↔
      SameListing (MDSKVSBucket.listObjects s.cache ref keyPrefix delimiter)
        (s.store.listObjects (listRequest ⟨bucket, keyPrefix⟩ delimiter)).1 := by
  have hcached : (s.listPrefixFromCache ⟨bucket, keyPrefix⟩ delimiter none).1 =
      .ok (MDSKVSBucket.listObjects s.cache ref keyPrefix delimiter) := by
    simp only [listPrefixFromCache, MDSKVS.listObjects, MDSKVS.getBucket, hfind]
  rw [ListsAlike, hcached]
  constructor
  · rintro ⟨listing, hlisting, hsame⟩
    rwa [Except.ok.inj hlisting]
  · exact fun hsame => ⟨_, rfl, hsame⟩

theorem listObjects_of_empty {cache : MDSKVS} {ref : Nat}
    (hempty : cache.bucketContents ref = Contents.empty) (keyPrefix : Bytes)
    (delimiter : UInt8) :
    SameListing (MDSKVSBucket.listObjects cache ref keyPrefix delimiter) ([], []) := by
  have hnone : ∀ key container, (cache.buckets.get ref).map.find key ≠ some container := by
    intro key container hfind
    have hsome := MDSKVS.bucketContents_of_find hfind
    rw [hempty] at hsome
    cases hsome
  refine ⟨fun object => ⟨fun hmem => ?_, nofun⟩, fun name => ⟨fun hmem => ?_, nofun⟩⟩
  · obtain ⟨container, hfind, -⟩ :=
      (MDSKVSBucket.mem_listObjects_fst_iff cache ref keyPrefix delimiter object).1 hmem
    exact absurd hfind (hnone _ _)
  · obtain ⟨-, key, container, hfind, -⟩ :=
      (MDSKVSBucket.mem_listObjects_snd_iff cache ref keyPrefix delimiter name).1 hmem
    exact absurd hfind (hnone _ _)

/-- A bucket lists nothing only if it has nothing. -/
theorem empty_of_listObjects {cache : MDSKVS} {ref : Nat} {delimiter : UInt8}
    (hlisting : SameListing (MDSKVSBucket.listObjects cache ref [] delimiter) ([], [])) :
    cache.bucketContents ref = Contents.empty := by
  obtain ⟨hobjects, hnames⟩ := hlisting
  funext key
  rw [Contents.empty, MDSKVS.bucketContents_eq_none_iff]
  cases hfind : (cache.buckets.get ref).map.find key with
  | none => rfl
  | some container =>
      rcases MDSKVSBucket.listed_or_cut cache ref [] delimiter hfind List.nil_prefix with
        ⟨⟨object, hmem, -⟩, -⟩ | ⟨-, cut, ⟨hmem, -⟩, -⟩
      · exact absurd ((hobjects object).1 hmem) List.not_mem_nil
      · exact absurd ((hnames cut).1 hmem) List.not_mem_nil

end Cache

section Server

variable {store : KeyValueStore} {bucket : Bytes}

/-- The server knows one delimiter only. -/
theorem listObjects_comma (keyPrefix : Bytes) :
    (store.listObjects (listRequest ⟨bucket, keyPrefix⟩ 0x2c)).1 = ([], []) := by
  have hquery : (listRequest ⟨bucket, keyPrefix⟩ 0x2c).query = none := by
    simp only [ObjectListRequest.query, listRequest]
    split_ifs <;> first | rfl | contradiction
  rw [KeyValueStore.listObjects_eq, hquery]

theorem listObjects_unnamed (hbucket : bucket.length = 0) (keyPrefix : Bytes)
    (delimiter : UInt8) :
    (store.listObjects (listRequest ⟨bucket, keyPrefix⟩ delimiter)).1 = ([], []) := by
  have hquery : (listRequest ⟨bucket, keyPrefix⟩ delimiter).query = none := by
    simp only [ObjectListRequest.query, listRequest, hbucket, ↓reduceIte]
  rw [KeyValueStore.listObjects_eq, hquery]

theorem listObjects_whole (hbucket : bucket.length ≠ 0) :
    (store.listObjects (listRequest ⟨bucket, []⟩ 0)).1 =
      (store.nestedDirectories bucket).listObjects ⟨bucket, []⟩ [] := by
  have hquery : (listRequest ⟨bucket, []⟩ 0).query = some (⟨bucket, []⟩, []) := by
    simp [ObjectListRequest.query, listRequest, hbucket]
  rw [KeyValueStore.listObjects_eq, hquery]

theorem listObjects_slash (hbucket : bucket.length ≠ 0) :
    (store.listObjects (listRequest ⟨bucket, []⟩ slash)).1 =
      (store.nestedDirectories bucket).listObjects ⟨bucket, []⟩ [slash] := by
  have hquery : (listRequest ⟨bucket, []⟩ slash).query = some (⟨bucket, []⟩, [slash]) := by
    simp only [ObjectListRequest.query, listRequest, hbucket, ↓reduceIte]
    rfl
  rw [KeyValueStore.listObjects_eq, hquery]

/-- A bucket that lists nothing has nothing, and no directory. -/
theorem bare_of_listObjects (hbucket : bucket.length ≠ 0)
    (hwhole : SameListing (store.listObjects (listRequest ⟨bucket, []⟩ 0)).1 ([], []))
    (hslash : SameListing (store.listObjects (listRequest ⟨bucket, []⟩ slash)).1 ([], [])) :
    (store.nestedDirectories bucket).Bare := by
  rw [listObjects_whole hbucket] at hwhole
  rw [listObjects_slash hbucket] at hslash
  constructor
  · intro key
    cases hrecorded : (store.nestedDirectories bucket).recordedAt [] key with
    | none => rfl
    | some object =>
        have hmem := (PrefixTree.mem_listObjects_iff (store.nestedDirectories bucket)
          ⟨bucket, []⟩ [] object).2 ⟨key, hrecorded⟩
        exact absurd ((hwhole.1 object).1 hmem) List.not_mem_nil
  · cases hchildren : (store.nestedDirectories bucket).children with
    | nil => rfl
    | cons child rest =>
        have hmem : child.1 ++ [slash] ∈
            ((store.nestedDirectories bucket).listObjects ⟨bucket, []⟩ [slash]).2 := by
          simp [PrefixTree.listObjects, hchildren]
        exact absurd ((hslash.2 _).1 hmem) List.not_mem_nil

/-- Where the root has nothing, there is nothing further down. -/
theorem recordedAt_of_bare {tree : PrefixTree} (hbare : tree.Bare) (path : List Bytes)
    (key : Bytes) : tree.recordedAt path key = none := by
  cases path with
  | nil => exact hbare.recorded key
  | cons name rest =>
      have hchild : tree.child name = none := by rw [Trie.child, hbare.children]; rfl
      rw [PrefixTree.recordedAt, Trie.valueAt_cons, hchild]
      rfl

theorem traverseListObjects_of_bare {tree : PrefixTree} (hbare : tree.Bare) (id : ObjectID)
    (getCommonPrefix : Bool) (name : Bytes) :
    name ∉ (tree.traverseListObjects id getCommonPrefix).2 := by
  rw [PrefixTree.traverseListObjects]
  cases getNestedPath id with
  | nil => simp [PrefixTree.walkDown, hbare.children]
  | cons first rest =>
      have hchild : tree.child first = none := by rw [Trie.child, hbare.children]; rfl
      simp [PrefixTree.walkDown, hchild]

theorem listObjects_of_bare {tree : PrefixTree} (htree : tree.Consistent) (hbare : tree.Bare)
    (id : ObjectID) (delimiter : Bytes) :
    SameListing (tree.listObjects id delimiter) ([], []) := by
  refine ⟨fun object => ⟨fun hmem => ?_, nofun⟩, fun name => ⟨fun hmem => ?_, nofun⟩⟩
  · exfalso
    rw [PrefixTree.mem_listObjects_iff] at hmem
    split_ifs at hmem
    · obtain ⟨key, hheld⟩ := hmem
      have hhome := (htree.held_home hheld).1
      rw [hhome, htree.held_eq_recorded, recordedAt_of_bare hbare] at hheld
      cases hheld
    · obtain ⟨key, hrecorded⟩ := hmem
      rw [recordedAt_of_bare hbare] at hrecorded
      cases hrecorded
  · exfalso
    rw [PrefixTree.listObjects] at hmem
    split_ifs at hmem
    · exact List.not_mem_nil hmem
    · simp [hbare.children] at hmem
    · exact traverseListObjects_of_bare hbare id true name hmem

theorem query_listRequest {id asked : ObjectID} {delimiter : UInt8} {separator : Bytes}
    (hquery : (listRequest id delimiter).query = some (asked, separator)) : id = asked := by
  simp only [ObjectListRequest.query, listRequest] at hquery
  split_ifs at hquery with hbucket hset
  · dsimp only at hquery
    split_ifs at hquery <;> exact congrArg Prod.fst (Option.some.inj hquery)
  · exact congrArg Prod.fst (Option.some.inj hquery)

theorem store_lists_nothing (hstore : store.Consistent)
    (hnothing : bucket.length = 0 ∨ (store.nestedDirectories bucket).Bare) (keyPrefix : Bytes)
    (delimiter : UInt8) :
    SameListing (store.listObjects (listRequest ⟨bucket, keyPrefix⟩ delimiter)).1 ([], []) := by
  rcases hnothing with hunnamed | hbare
  · rw [listObjects_unnamed hunnamed]
    exact ⟨fun _ => Iff.rfl, fun _ => Iff.rfl⟩
  · rw [KeyValueStore.listObjects_eq]
    cases hquery : (listRequest ⟨bucket, keyPrefix⟩ delimiter).query with
    | none => exact ⟨fun _ => Iff.rfl, fun _ => Iff.rfl⟩
    | some query =>
        obtain ⟨id, separator⟩ := query
        obtain rfl := query_listRequest hquery
        exact listObjects_of_bare (hstore.tree bucket) hbare _ separator

end Server

/-- The cache and the server list the same for every prefix and every delimiter exactly
if the cache does not know the bucket or nothing at all is in it. -/
theorem Invariant.listsAlike_iff {s : Caching} (hinv : s.Invariant) (bucket : Bytes) :
    (∀ keyPrefix delimiter, s.ListsAlike ⟨bucket, keyPrefix⟩ delimiter) ↔
      s.cache.contents bucket = none ∨ s.NothingListed bucket := by
  cases hfind : s.cache.map.find bucket with
  | none =>
      have hunknown := (MDSKVS.contents_eq_none_iff s.cache bucket).2 hfind
      exact ⟨fun _ => Or.inl hunknown, fun _ => listsAlike_of_unknown hunknown⟩
  | some ref =>
      have hcontents := MDSKVS.contents_of_find hfind
      simp only [listsAlike_iff_of_found hfind]
      constructor
      · intro halike
        have hcomma := halike [] 0x2c
        rw [listObjects_comma] at hcomma
        have hempty := empty_of_listObjects hcomma
        refine Or.inr ⟨hcontents.trans (congrArg some hempty), ?_⟩
        by_cases hbucket : bucket.length = 0
        · exact Or.inl hbucket
        · have hserver : ∀ delimiter,
              SameListing (s.store.listObjects (listRequest ⟨bucket, []⟩ delimiter)).1 ([], []) :=
            fun delimiter => (halike [] delimiter).symm.trans
              (listObjects_of_empty hempty [] delimiter)
          exact Or.inr (bare_of_listObjects hbucket (hserver 0) (hserver slash))
      · rintro (hunknown | hnothing) keyPrefix delimiter
        · rw [hcontents] at hunknown
          cases hunknown
        · have hempty := Option.some.inj (hcontents.symm.trans hnothing.cache)
          exact (listObjects_of_empty hempty keyPrefix delimiter).trans
            (store_lists_nothing hinv.store hnothing.store keyPrefix delimiter).symm

section Whole

variable {s : Caching} {bucket : Bytes}

theorem listed_id {store : KeyValueStore} (hstore : store.Consistent) {id : ObjectID}
    {object : Object} (hlisted : store.listed id = some object) : object.id = id := by
  rw [KeyValueStore.listed] at hlisted
  split_ifs at hlisted
  have hheld := (hstore.tree id.bucket).held_of_recorded hlisted
  have hkey := ((hstore.tree id.bucket).held_home hheld).2
  have hbucket := hstore.owned hheld
  obtain ⟨⟨otherBucket, otherKey⟩, info⟩ := object
  obtain ⟨bucket, key⟩ := id
  exact congrArg₂ ObjectID.mk hbucket hkey

/-- What a bucket lists, by the entries of the store. -/
theorem mem_listed_iff {cache : MDSKVS} (hwf : cache.WellFormed) {ref : Nat}
    (hfind : cache.map.find bucket = some ref) (keyPrefix : Bytes) (delimiter : UInt8)
    (object : Object) :
    object ∈ (MDSKVSBucket.listObjects cache ref keyPrefix delimiter).1 ↔
      object.id.bucket = bucket ∧ cache.entry object.id = some object ∧
        keyPrefix <+: object.id.key ∧
        (delimiter = 0 ∨ delimiter ∉ object.id.key.drop keyPrefix.length) := by
  rw [MDSKVSBucket.mem_listObjects_fst_iff, MDSKVS.entry_eq hwf]
  have hname := hwf.named hfind
  obtain ⟨⟨objectBucket, key⟩, info⟩ := object
  constructor
  · rintro ⟨container, hcontainer, hprefix, hdelimiter, hobject⟩
    obtain rfl : objectBucket = bucket := by
      rw [← hname]
      exact congrArg (fun object => object.id.bucket) hobject
    have hinfo : info = cache.containers.get container := congrArg Object.info hobject
    refine ⟨rfl, ?_, hprefix, hdelimiter⟩
    rw [MDSKVS.contents_of_find hfind, Option.bind_some,
      MDSKVS.bucketContents_of_find hcontainer, hinfo]
    rfl
  · rintro ⟨rfl, hentry, hprefix, hdelimiter⟩
    dsimp only at hentry
    rw [MDSKVS.contents_of_find hfind, Option.bind_some] at hentry
    obtain ⟨found, hfound, hobject⟩ := Option.map_eq_some_iff.1 hentry
    obtain ⟨container, hcontainer, rfl⟩ := Option.map_eq_some_iff.1 hfound
    refine ⟨container, hcontainer, hprefix, hdelimiter, ?_⟩
    rw [MDSKVSBucket.readContainer, hname, ← hobject]

/-- The whole bucket as the cache lists it. -/
theorem mem_whole_cache (hwf : s.cache.WellFormed) {ref : Nat}
    (hfind : s.cache.map.find bucket = some ref) (object : Object) :
    object ∈ (MDSKVSBucket.listObjects s.cache ref [] 0).1 ↔
      object.id.bucket = bucket ∧ s.cache.entry object.id = some object := by
  rw [mem_listed_iff hwf hfind]
  simp

/-- The whole bucket as the server lists it. -/
theorem mem_whole_store (hstore : s.store.Consistent) (object : Object) :
    object ∈ (s.store.listObjects (listRequest ⟨bucket, []⟩ 0)).1.1 ↔
      object.id.bucket = bucket ∧ s.store.listed object.id = some object := by
  by_cases hbucket : bucket.length = 0
  · rw [listObjects_unnamed hbucket]
    constructor
    · exact nofun
    · rintro ⟨rfl, hlisted⟩
      rw [KeyValueStore.listed, if_pos hbucket] at hlisted
      cases hlisted
  · rw [listObjects_whole hbucket, PrefixTree.mem_listObjects_iff]
    constructor
    · rintro ⟨key, hrecorded⟩
      have hlisted : s.store.listed ⟨bucket, key⟩ = some object := by
        rw [KeyValueStore.listed, if_neg hbucket]
        exact hrecorded
      have hid := listed_id hstore hlisted
      exact ⟨congrArg ObjectID.bucket hid, hid ▸ hlisted⟩
    · rintro ⟨rfl, hlisted⟩
      rw [KeyValueStore.listed, if_neg hbucket] at hlisted
      exact ⟨object.id.key, hlisted⟩

theorem not_mem_whole_store (name : Bytes) :
    name ∉ (s.store.listObjects (listRequest ⟨bucket, []⟩ 0)).1.2 := by
  by_cases hbucket : bucket.length = 0
  · rw [listObjects_unnamed hbucket]
    exact List.not_mem_nil
  · rw [listObjects_whole hbucket, PrefixTree.listObjects, if_pos List.length_nil]
    exact List.not_mem_nil

/-- The whole bucket is listed right exactly if the cache does not know it or has all of
it. -/
theorem Invariant.whole_listsAlike_iff (hinv : s.Invariant) :
    s.ListsAlike ⟨bucket, []⟩ 0 ↔
      s.cache.contents bucket = none ∨ s.CachesAll bucket := by
  cases hfind : s.cache.map.find bucket with
  | none =>
      have hunknown := (MDSKVS.contents_eq_none_iff s.cache bucket).2 hfind
      exact ⟨fun _ => Or.inl hunknown, fun _ => listsAlike_of_unknown hunknown [] 0⟩
  | some ref =>
      have hcontents := MDSKVS.contents_of_find hfind
      rw [listsAlike_iff_of_found hfind]
      constructor
      · rintro ⟨hobjects, -⟩
        right
        intro key
        apply Option.ext
        intro object
        have hsame := hobjects object
        rw [mem_whole_cache hinv.cache hfind, mem_whole_store hinv.store] at hsame
        constructor
        · intro hentry
          have hid := MDSKVS.entry_id hinv.cache hentry
          have hlisted := (hsame.1 ⟨congrArg ObjectID.bucket hid, hid ▸ hentry⟩).2
          rwa [hid] at hlisted
        · intro hlisted
          have hid := listed_id hinv.store hlisted
          have hentry := (hsame.2 ⟨congrArg ObjectID.bucket hid, hid ▸ hlisted⟩).2
          rwa [hid] at hentry
      · rintro (hunknown | hall)
        · rw [hcontents] at hunknown
          cases hunknown
        · refine ⟨fun object => ?_, fun name => ?_⟩
          · rw [mem_whole_cache hinv.cache hfind, mem_whole_store hinv.store]
            constructor
            · rintro ⟨rfl, hentry⟩
              exact ⟨rfl, (hall object.id.key).symm.trans hentry⟩
            · rintro ⟨rfl, hlisted⟩
              exact ⟨rfl, (hall object.id.key).trans hlisted⟩
          · have hcache : name ∉ (MDSKVSBucket.listObjects s.cache ref [] 0).2 := by
              rw [MDSKVSBucket.mem_listObjects_snd_iff]
              exact fun hmem => hmem.1 rfl
            exact iff_of_false hcache (not_mem_whole_store name)

end Whole

/-- After every history, the cache and the server list the same for every prefix and
delimiter exactly if the cache does not know the bucket or neither has anything in it;
and they list the same for the whole bucket exactly if the cache does not know it or has
all that the server lists. -/
theorem run_listsAlike_iff (defaultBucket : Option Bytes) (bucket : Bytes)
    (events : List CachingEvent) :
    ((∀ keyPrefix delimiter,
        ((new defaultBucket).run bucket events).ListsAlike ⟨bucket, keyPrefix⟩ delimiter) ↔
      ((new defaultBucket).run bucket events).cache.contents bucket = none ∨
        ((new defaultBucket).run bucket events).NothingListed bucket) ∧
    (((new defaultBucket).run bucket events).ListsAlike ⟨bucket, []⟩ 0 ↔
      ((new defaultBucket).run bucket events).cache.contents bucket = none ∨
        ((new defaultBucket).run bucket events).CachesAll bucket) := by
  have hinv := (new_invariant defaultBucket).run bucket events
  exact ⟨hinv.listsAlike_iff bucket, hinv.whole_listsAlike_iff⟩

namespace Sample

def data : Bytes := text "data"

def object (key : Bytes) : Object := ⟨⟨data, key⟩, ⟨text "geds://node", 1, 1, none⟩⟩

/-- Two objects are there when the client subscribes; it looks up one of them. -/
def events : List CachingEvent :=
  [.change (.createObject (object (text "a"))), .change (.createObject (object (text "b"))),
    .subscribe, .lookup ⟨data, text "a"⟩ false none]

/-- The cache knows the bucket by then, and lists it without the other object. -/
theorem looked_up_not_listsAlike :
    ((new none).run data events).pending = [] ∧
      ¬ ((new none).run data events).ListsAlike ⟨data, []⟩ 0 := by
  refine ⟨by decide, ?_⟩
  rintro ⟨listing, hlisting, hobjects, -⟩
  have hserver : object (text "b") ∈
      (((new none).run data events).store.listObjects (listRequest ⟨data, []⟩ 0)).1.1 := by
    decide
  have hcache : (((new none).run data events).listPrefixFromCache ⟨data, []⟩ 0 none).1 =
      .ok ([object (text "a")], []) := by
    rfl
  rw [hcache] at hlisting
  obtain rfl := Except.ok.inj hlisting
  exact absurd ((hobjects _).2 hserver) (by decide)

end Sample

end Caching

end GEDS
