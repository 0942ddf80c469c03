/-
The two metadata servers under one protocol.  The server in C++ keeps an ordered map
for each bucket and searches it for prefixes, the one in Go a tree of directories; one
asks for buckets and objects that exist, the other makes what is missing.
-/
import GEDS.CacheListing
import GEDS.Library.WriteBehind
import GEDS.PrefixTreeNames

namespace GEDS

/-- The requests of the protocol on objects, and the one that makes a bucket; the
delimiter of a list is `/` or absent. -/
inductive MetadataRequest where
  | createBucket (bucket : Bytes)
  | create (object : Object)
  | update (object : Object)
  | delete (id : ObjectID)
  | deletePrefix (id : ObjectID)
  | lookup (id : ObjectID)
  | list (id : ObjectID) (delimited : Bool)

/-- What a server answers; the texts of errors are left out. -/
inductive MetadataOutcome where
  | status (code : StatusCode)
  | object (result : Except StatusCode Object)
  | listing (result : Except StatusCode (List Object × List Bytes))

/-- The same code, the same object, or the same sets of objects and prefixes. -/
def MetadataOutcome.Same : MetadataOutcome → MetadataOutcome → Prop
  | .status code, .status other => code = other
  | .object result, .object other => result = other
  | .listing (.ok result), .listing (.ok other) => SameListing result other
  | .listing (.error code), .listing (.error other) => code = other
  | _, _ => False

/-- `MetadataServiceImpl` of the server in C++. -/
def MDSKVS.serve (kvs : MDSKVS) : MetadataRequest → MetadataOutcome × MDSKVS
  | .createBucket bucket => (kvs.createBucket bucket).map (.status ·.code) fun kvs => kvs
  | .create object => (kvs.createObject object false).map (.status ·.code) fun kvs => kvs
  | .update object => (kvs.updateObject object).map (.status ·.code) fun kvs => kvs
  | .delete id => (kvs.deleteObject id).map (.status ·.code) fun kvs => kvs
  | .deletePrefix id => (kvs.deleteObjectPrefix id).map (.status ·.code) fun kvs => kvs
  | .lookup id => (.object ((kvs.lookup id).mapError Status.code), kvs)
  | .list id delimited =>
      (.listing ((kvs.listObjects id (if delimited then slash else 0)).mapError Status.code), kvs)

/-- `mdsservice` of the server in Go.  Its stores of objects return no error. -/
def KeyValueStore.serve (kv : KeyValueStore) : MetadataRequest → MetadataOutcome × KeyValueStore
  | .createBucket bucket =>
      match kv.createBucket bucket with
      | (.error _, kv) => (.status .alreadyExists, kv)
      | (.ok _, kv) => (.status .ok, kv)
  | .create object => (.status .ok, kv.createObject object)
  | .update object => (.status .ok, kv.updateObject object)
  | .delete id => (.status .ok, kv.deleteObject id)
  | .deletePrefix id => (.status .ok, (kv.deleteObjectPrefix id).2)
  | .lookup id =>
      match kv.lookupObject id with
      | (.error _, kv) => (.object (.error .notFound), kv)
      | (.ok object, kv) => (.object (.ok object), kv)
  | .list id delimited =>
      let response := kv.listObjects ⟨some id, if delimited then some 0x2f else none⟩
      (.listing (.ok response.1), response.2)

/-- Both servers, given the same requests. -/
structure Servers where
  cpp : MDSKVS
  go : KeyValueStore

namespace Servers

section Requests

variable (s : Servers)

/-- Both start without buckets. -/
def new : Servers := ⟨MDSKVS.new none, KeyValueStore.new⟩

def perform (request : MetadataRequest) : Servers where
  cpp := (s.cpp.serve request).2
  go := (s.go.serve request).2

def run (requests : List MetadataRequest) : Servers := requests.foldl perform s

/-- Both give the same outcome to a request. -/
def Agree (request : MetadataRequest) : Prop :=
  (s.cpp.serve request).1.Same (s.go.serve request).1

def HasBucket (bucket : Bytes) : Prop := s.cpp.contents bucket ≠ none

def Stores (id : ObjectID) : Prop := s.cpp.entry id ≠ none

/-- The map and the tree find the same objects to delete by prefix. -/
structure DeletesAlike (id : ObjectID) : Prop where
  found : ∃ contents, s.cpp.contents id.bucket = some contents ∧ ¬ contents.AllBelow id.key
  alike : ∀ stop, (s.go.nestedDirectories id.bucket).StopsAt (getNestedPath id) stop →
    ∀ key, s.Stores ⟨id.bucket, key⟩ →
      (id.key <+: key ↔ stop <+: PrefixTree.directoriesOf key) ∧
        (id.key <+: key → PrefixTree.directoriesOf key = stop)

/-- The map and the tree list the same objects and the same common prefixes. -/
structure ListsAlike (id : ObjectID) (delimited : Bool) : Prop where
  named : id.bucket ≠ []
  bucket : s.HasBucket id.bucket
  objects : ∀ key, s.Stores ⟨id.bucket, key⟩ →
    ((id.key <+: key ∧ (delimited = true → slash ∉ key.drop id.key.length)) ↔
      if delimited = true ∧ id.key = [] then PrefixTree.directoriesOf key = []
      else getNestedPath id <+: PrefixTree.directoriesOf key)
  prefixes : delimited = true → ∀ text,
    (∃ key, s.Stores ⟨id.bucket, key⟩ ∧ IsCut id.key slash key text) ↔
      ∃ name, (s.go.nestedDirectories id.bucket).valueAt (getNestedPath id ++ [name]) ≠ none ∧
        text = PrefixTree.directoryName (getNestedPath id ++ [name])

/-- Both have the same buckets with the same objects, and the tree finds all it has. -/
structure Related : Prop where
  wellFormed : s.cpp.WellFormed
  follows : s.go.Follows s.cpp.entry
  named : ∀ bucket, (s.go.nestedDirectories bucket).Named
  buckets : ∀ bucket, s.cpp.contents bucket = none ↔ s.go.buckets.find bucket = none

end Requests

section Cpp

variable {kvs : MDSKVS}

theorem contents_perform (hwf : kvs.WellFormed) {call : Call} (hcall : call.staysInBucket = true)
    (bucket : Bytes) :
    (kvs.perform call).2.contents bucket = none ↔ kvs.contents bucket = none := by
  rw [(MDSKVS.perform_refines hwf call).2.1, Reference.perform_eq_onBucket _ hcall,
    Reference.onBucket]
  cases hcontents : kvs.contents call.bucket with
  | none => rfl
  | some contents =>
      by_cases hbucket : bucket = call.bucket
      · simp [hbucket, hcontents]
      · simp [Function.update_of_ne hbucket]

theorem perform_answer (hwf : kvs.WellFormed) {call : Call} (hcall : call.staysInBucket = true)
    {contents : Contents} (hcontents : kvs.contents call.bucket = some contents) :
    (kvs.perform call).1 = (contents.perform call.bucket call).1 := by
  rw [(MDSKVS.perform_refines hwf call).1, Reference.perform_eq_onBucket _ hcall,
    Reference.onBucket, hcontents]

/-- An object that is stored lies in a bucket. -/
theorem contents_of_entry (hwf : kvs.WellFormed) {id : ObjectID} (hentry : kvs.entry id ≠ none) :
    ∃ contents info, kvs.contents id.bucket = some contents ∧ contents id.key = some info := by
  rw [MDSKVS.entry_eq hwf] at hentry
  cases hcontents : kvs.contents id.bucket with
  | none => simp [hcontents] at hentry
  | some contents =>
      cases hinfo : contents id.key with
      | none => simp [hcontents, hinfo] at hentry
      | some info => exact ⟨contents, info, rfl, hinfo⟩

theorem createObject_code (hwf : kvs.WellFormed) {object : Object}
    (hbucket : kvs.contents object.id.bucket ≠ none) :
    (kvs.createObject object false).1.code = .ok := by
  obtain ⟨contents, hcontents⟩ := Option.ne_none_iff_exists'.1 hbucket
  have hanswer := @perform_answer kvs hwf (.createObject object false) rfl contents hcontents
  exact congrArg Response.code hanswer

theorem updateObject_code (hwf : kvs.WellFormed) {object : Object}
    (hentry : kvs.entry object.id ≠ none) : (kvs.updateObject object).1.code = .ok := by
  obtain ⟨contents, info, hcontents, hinfo⟩ := contents_of_entry hwf hentry
  have hanswer := @perform_answer kvs hwf (.updateObject object) rfl contents hcontents
  simp only [Contents.perform, hinfo] at hanswer
  exact congrArg Response.code hanswer

theorem deleteObject_code (hwf : kvs.WellFormed) {id : ObjectID}
    (hentry : kvs.entry id ≠ none) : (kvs.deleteObject id).1.code = .ok := by
  obtain ⟨contents, info, hcontents, hinfo⟩ := contents_of_entry hwf hentry
  have hanswer := @perform_answer kvs hwf (.deleteObject id) rfl contents hcontents
  simp only [Contents.perform, hinfo] at hanswer
  exact congrArg Response.code hanswer

theorem deleteObjectPrefix_code (hwf : kvs.WellFormed) {id : ObjectID} {contents : Contents}
    (hcontents : kvs.contents id.bucket = some contents) (hfound : ¬ contents.AllBelow id.key) :
    (kvs.deleteObjectPrefix id).1.code = .ok := by
  have hanswer := @perform_answer kvs hwf (.deleteObjectPrefix id) rfl contents hcontents
  simp only [Contents.perform, if_neg hfound] at hanswer
  exact congrArg Response.code hanswer

/-- A call about an object that is missing finds no bucket, or no object in it. -/
theorem missing_code (hwf : kvs.WellFormed) {call : Call} (hcall : call.staysInBucket = true)
    {id : ObjectID} (hbucket : call.bucket = id.bucket) (hentry : kvs.entry id = none)
    (hmissing : ∀ contents : Contents, contents id.key = none →
      (contents.perform call.bucket call).1.code = .notFound) :
    (kvs.perform call).1.code = .notFound := by
  rw [MDSKVS.entry_eq hwf, ← hbucket] at hentry
  rw [(MDSKVS.perform_refines hwf call).1, Reference.perform_eq_onBucket _ hcall,
    Reference.onBucket]
  cases hcontents : kvs.contents call.bucket with
  | none => cases call <;> rfl
  | some contents =>
      rw [hcontents, Option.bind_some, Option.map_eq_none_iff] at hentry
      exact hmissing contents hentry

/-- In a bucket that exists, the flag makes no difference. -/
theorem createObject_force {object : Object} (hbucket : kvs.contents object.id.bucket ≠ none) :
    kvs.createObject object false = kvs.createObject object true := by
  obtain ⟨ref, hfind⟩ := Option.ne_none_iff_exists'.1
    (mt (MDSKVS.contents_eq_none_iff kvs object.id.bucket).2 hbucket)
  simp [MDSKVS.createObject, MDSKVS.getBucket, hfind]

end Cpp

section Go

variable {kv : KeyValueStore}

theorem newBucket_of_found {bucket : Bytes} (hbucket : kv.buckets.find bucket ≠ none) :
    kv.newBucketIfNotExist bucket = (true, kv) := by
  obtain ⟨tree, hfind⟩ := Option.ne_none_iff_exists'.1 hbucket
  rw [KeyValueStore.newBucketIfNotExist, hfind]

theorem buckets_perform {request : ObjectRequest} (hbucket : kv.buckets.find request.bucket ≠ none)
    (bucket : Bytes) :
    (kv.perform request).buckets.find bucket = none ↔ kv.buckets.find bucket = none := by
  have hset : ∀ tree : PrefixTree,
      (kv.setNestedDirectories request.bucket tree).buckets.find bucket = none ↔
        kv.buckets.find bucket = none := by
    intro tree
    rw [KeyValueStore.setNestedDirectories, AssocMap.find_insert]
    by_cases heq : bucket = request.bucket
    · rw [if_pos heq, heq]
      exact iff_of_false (Option.some_ne_none tree) hbucket
    · rw [if_neg heq]
  have hnew := newBucket_of_found hbucket
  cases request with
  | createObject object =>
      simp only [ObjectRequest.bucket] at hset hnew
      simp only [KeyValueStore.perform, KeyValueStore.createObject, hnew]
      exact hset _
  | updateObject object =>
      simp only [ObjectRequest.bucket] at hset hnew
      simp only [KeyValueStore.perform, KeyValueStore.updateObject, hnew]
      exact hset _
  | deleteObject id =>
      simp only [ObjectRequest.bucket] at hset hnew
      simp only [KeyValueStore.perform, KeyValueStore.deleteObject, hnew]
      exact hset _
  | deleteObjectPrefix id =>
      simp only [ObjectRequest.bucket] at hset hnew
      simp only [KeyValueStore.perform, KeyValueStore.deleteObjectPrefix, hnew]
      exact hset _

end Go

section Steps

variable {s : Servers}

theorem Related.goBucket (h : s.Related) {bucket : Bytes} (hbucket : s.HasBucket bucket) :
    s.go.buckets.find bucket ≠ none :=
  fun hnone => hbucket ((h.buckets bucket).2 hnone)

theorem Related.hasBucket (h : s.Related) {id : ObjectID} (hstores : s.Stores id) :
    s.HasBucket id.bucket := by
  obtain ⟨contents, info, hcontents, -⟩ := contents_of_entry h.wellFormed hstores
  rw [HasBucket, hcontents]
  exact Option.some_ne_none contents

/-- A change of the objects that is the same in the map and in the tree. -/
theorem Related.change (h : s.Related) (request : ObjectRequest) (call : Call)
    (hcall : call.staysInBucket = true)
    (hentry : (s.cpp.perform call).2.entry = request.onStored s.cpp.entry)
    (hbucket : s.HasBucket request.bucket)
    (hfollows : (s.go.perform request).Follows (request.onStored s.cpp.entry)) :
    Related ⟨(s.cpp.perform call).2, s.go.perform request⟩ where
  wellFormed := (MDSKVS.perform_refines h.wellFormed call).2.2
  follows := hentry ▸ hfollows
  named := by
    intro bucket
    rw [KeyValueStore.nestedDirectories_perform]
    split_ifs
    · exact (h.named bucket).onTree request
    · exact h.named bucket
  buckets := by
    intro bucket
    rw [contents_perform h.wellFormed hcall, h.buckets bucket, buckets_perform (h.goBucket hbucket)]

/-- The map and the tree delete the same objects by prefix. -/
theorem Related.followsDeletePrefix (h : s.Related) {id : ObjectID} (halike : s.DeletesAlike id) :
    (s.go.perform (.deleteObjectPrefix id)).Follows
      ((ObjectRequest.deleteObjectPrefix id).onStored s.cpp.entry) := by
  have htree := h.follows.consistent id.bucket
  have hcomplete := h.follows.complete id.bucket
  have hstops := (PrefixTree.stopsAt_iff (s.go.nestedDirectories id.bucket) (getNestedPath id) _).2
    rfl
  -- A key is deleted from the tree just in case it is stored and starts with the prefix.
  have hstored : ∀ key, (s.go.nestedDirectories id.bucket).heldAt
      (PrefixTree.directoriesOf key) key ≠ none ↔ s.Stores ⟨id.bucket, key⟩ := by
    intro key
    rw [h.follows.held]
    rfl
  have hdeletes : ∀ key, (s.go.nestedDirectories id.bucket).Deletes id key ↔
      s.Stores ⟨id.bucket, key⟩ ∧ id.key <+: key := by
    intro key
    rw [htree.deletes_iff]
    constructor
    · intro hrecorded
      obtain ⟨object, hobject⟩ := Option.ne_none_iff_exists'.1 hrecorded
      have hpath := htree.recorded_path hobject
      have hstores := (hstored key).1 (by
        rw [htree.held_of_recorded hobject]
        exact Option.some_ne_none object)
      exact ⟨hstores, (halike.alike _ hstops key hstores).1.2 hpath⟩
    · rintro ⟨hstores, hprefix⟩
      have hpath := (halike.alike _ hstops key hstores).1.1 hprefix
      rw [hcomplete _ key hpath]
      exact (hstored key).2 hstores
  have hhome : (s.go.nestedDirectories id.bucket).StopsAtHome id := by
    intro stop hstop key object hrecorded
    have hstores := (hstored key).1 (by
      rw [htree.held_of_recorded hrecorded]
      exact Option.some_ne_none object)
    obtain ⟨hiff, heq⟩ := halike.alike stop hstop key hstores
    exact heq (hiff.2 (htree.recorded_path hrecorded))
  refine ⟨fun bucket => ?_, fun bucket => ?_, fun bucket key => ?_⟩
  · rw [KeyValueStore.nestedDirectories_perform]
    split_ifs with hbucket
    · rw [hbucket]
      exact htree.traverseDeleteObjectPrefix id
    · exact h.follows.consistent bucket
  · rw [KeyValueStore.nestedDirectories_perform]
    split_ifs with hbucket
    · rw [hbucket]
      exact (hcomplete.traverseDeleteObjectPrefix_iff htree).2 hhome
    · exact h.follows.complete bucket
  · rw [KeyValueStore.nestedDirectories_perform]
    by_cases hbucket : bucket = id.bucket
    · subst hbucket
      rw [if_pos (show id.bucket = (ObjectRequest.deleteObjectPrefix id).bucket from rfl)]
      change ((s.go.nestedDirectories id.bucket).traverseDeleteObjectPrefix id).2.heldAt _ key =
        if id.bucket = id.bucket ∧ id.key <+: key then none else s.cpp.entry ⟨id.bucket, key⟩
      by_cases hprefix : id.key <+: key
      · rw [if_pos ⟨rfl, hprefix⟩]
        by_cases hstores : s.Stores ⟨id.bucket, key⟩
        · exact htree.stopsAtHome_iff.1 hhome key ((hdeletes key).2 ⟨hstores, hprefix⟩)
        · rw [PrefixTree.heldAt_traverseDeleteObjectPrefix,
            if_neg fun hcase => hstores ((hdeletes key).1 hcase.2).1]
          exact not_not.1 fun hheld => hstores ((hstored key).1 hheld)
      · rw [if_neg fun hcase => hprefix hcase.2,
          PrefixTree.heldAt_traverseDeleteObjectPrefix,
          if_neg fun hcase => hprefix ((hdeletes key).1 hcase.2).2]
        exact h.follows.held id.bucket key
    · rw [if_neg (by exact hbucket), ObjectRequest.onStored_of_ne (by exact hbucket)]
      exact h.follows.held bucket key

theorem Related.createBucket (h : s.Related) (bucket : Bytes) :
    s.Agree (.createBucket bucket) ∧ (s.perform (.createBucket bucket)).Related := by
  cases hfind : s.cpp.map.find bucket with
  | some ref =>
      have hcpp : s.cpp.createBucket bucket = (bucketAlreadyExists bucket, s.cpp) := by
        simp only [MDSKVS.createBucket, hfind]
      have hgo : s.go.createBucket bucket = (.error (text "bucket already exists"), s.go) := by
        have hbucket : s.HasBucket bucket := by
          rw [HasBucket, MDSKVS.contents_of_find hfind]
          exact Option.some_ne_none _
        simp [KeyValueStore.createBucket, newBucket_of_found (h.goBucket hbucket)]
      constructor
      · simp only [Agree, MDSKVS.serve, KeyValueStore.serve, hcpp, hgo]
        rfl
      · simp only [perform, MDSKVS.serve, KeyValueStore.serve, hcpp, hgo]
        exact h
  | none =>
      have hnone := (MDSKVS.contents_eq_none_iff s.cpp bucket).2 hfind
      obtain ⟨-, hcontents, hafter⟩ := MDSKVS.perform_refines h.wellFormed (.createBucket bucket)
      simp only [Reference.perform, hnone] at hcontents
      have hgo : s.go.createBucket bucket = (.ok (), (s.go.newBucketIfNotExist bucket).2) := by
        simp [KeyValueStore.createBucket, KeyValueStore.newBucketIfNotExist,
          (h.buckets bucket).1 hnone]
      have hcode : (s.cpp.createBucket bucket).1.code = .ok := by
        simp only [MDSKVS.createBucket, hfind]
        rfl
      have hentry : (s.cpp.createBucket bucket).2.entry = s.cpp.entry := by
        funext id
        rw [MDSKVS.entry_eq h.wellFormed]
        change (s.cpp.perform (.createBucket bucket)).2.entry id = _
        rw [MDSKVS.entry_eq hafter, hcontents]
        by_cases hid : id.bucket = bucket
        · simp [hid, hnone, Contents.empty]
        · simp [Function.update_of_ne hid]
      constructor
      · simp only [Agree, MDSKVS.serve, KeyValueStore.serve, hgo]
        exact hcode
      · simp only [perform, MDSKVS.serve, KeyValueStore.serve, hgo]
        refine ⟨hafter, ?_, ?_, ?_⟩
        · refine ⟨fun other => ?_, fun other => ?_, fun other key => ?_⟩
          · rw [KeyValueStore.nestedDirectories_newBucketIfNotExist]
            exact h.follows.consistent other
          · rw [KeyValueStore.nestedDirectories_newBucketIfNotExist]
            exact h.follows.complete other
          · rw [KeyValueStore.nestedDirectories_newBucketIfNotExist, h.follows.held]
            exact (congrFun hentry _).symm
        · intro other
          rw [KeyValueStore.nestedDirectories_newBucketIfNotExist]
          exact h.named other
        · intro other
          change (s.cpp.perform (.createBucket bucket)).2.contents other = none ↔ _
          rw [hcontents, KeyValueStore.newBucketIfNotExist, (h.buckets bucket).1 hnone]
          by_cases hother : other = bucket
          · simp [hother]
          · simp [hother, h.buckets other]

theorem Related.create (h : s.Related) {object : Object}
    (hbucket : s.HasBucket object.id.bucket) :
    s.Agree (.create object) ∧ (s.perform (.create object)).Related := by
  refine ⟨createObject_code h.wellFormed hbucket, ?_⟩
  refine h.change (.createObject object) (.createObject object false) rfl ?_
    hbucket (h.follows.perform rfl)
  change (s.cpp.createObject object false).2.entry = _
  rw [createObject_force hbucket, MDSKVS.createObject_entry h.wellFormed]
  rfl

theorem Related.update (h : s.Related) {object : Object} (hstores : s.Stores object.id) :
    s.Agree (.update object) ∧ (s.perform (.update object)).Related := by
  refine ⟨updateObject_code h.wellFormed hstores, ?_⟩
  refine h.change (.updateObject object) (.updateObject object) rfl ?_
    (h.hasBucket hstores) (h.follows.perform rfl)
  change (s.cpp.updateObject object).2.entry = _
  rw [MDSKVS.updateObject_entry h.wellFormed, if_pos (Option.isSome_iff_ne_none.2 hstores)]
  rfl

theorem Related.delete (h : s.Related) {id : ObjectID} (hstores : s.Stores id) :
    s.Agree (.delete id) ∧ (s.perform (.delete id)).Related := by
  refine ⟨deleteObject_code h.wellFormed hstores, ?_⟩
  refine h.change (.deleteObject id) (.deleteObject id) rfl ?_
    (h.hasBucket hstores) (h.follows.perform rfl)
  exact MDSKVS.deleteObject_entry h.wellFormed id

theorem Related.deletePrefix (h : s.Related) {id : ObjectID} (halike : s.DeletesAlike id) :
    s.Agree (.deletePrefix id) ∧ (s.perform (.deletePrefix id)).Related := by
  obtain ⟨contents, hcontents, hfound⟩ := halike.found
  have hbucket : s.HasBucket id.bucket := by
    rw [HasBucket, hcontents]
    exact Option.some_ne_none contents
  refine ⟨deleteObjectPrefix_code h.wellFormed hcontents hfound, ?_⟩
  refine h.change (.deleteObjectPrefix id) (.deleteObjectPrefix id) rfl ?_
    hbucket (h.followsDeletePrefix halike)
  funext other
  exact MDSKVS.deleteObjectPrefix_entry h.wellFormed id other

theorem Related.lookup (h : s.Related) {id : ObjectID} (hbucket : s.HasBucket id.bucket) :
    s.Agree (.lookup id) ∧ (s.perform (.lookup id)).Related := by
  have hgo : s.go.lookupObject id =
      ((s.cpp.entry id).elim (.error (text "object does not exist")) .ok, s.go) := by
    have hlookup := (h.follows.consistent id.bucket).lookUpObject_eq id
    rw [h.follows.held] at hlookup
    rw [KeyValueStore.lookupObject, newBucket_of_found (h.goBucket hbucket)]
    cases hcached : s.cpp.entry id with
    | none => simp only [hlookup, hcached, Option.elim_none]
    | some object => simp only [hlookup, hcached, Option.elim_some]
  have hcpp := MDSKVS.lookup_eq_reference h.wellFormed id
  have hentry := MDSKVS.entry_eq h.wellFormed id
  obtain ⟨contents, hcontents⟩ := Option.ne_none_iff_exists'.1 hbucket
  simp only [Reference.lookup, hcontents] at hcpp
  simp only [hcontents, Option.bind_some] at hentry
  constructor
  · cases hinfo : contents id.key with
    | none =>
        simp only [hinfo] at hcpp hentry
        simp only [Agree, MDSKVS.serve, KeyValueStore.serve, hcpp, hgo, hentry]
        rfl
    | some info =>
        simp only [hinfo] at hcpp hentry
        simp only [Agree, MDSKVS.serve, KeyValueStore.serve, hcpp, hgo, hentry]
        rfl
  · simp only [perform, MDSKVS.serve, KeyValueStore.serve, hgo]
    cases s.cpp.entry id <;> exact h

/-- What the tree lists, by the entries of the map. -/
theorem Related.mem_go_iff (h : s.Related) (id : ObjectID) (delimited : Bool) (object : Object) :
    object ∈ ((s.go.nestedDirectories id.bucket).listObjects id
        (if delimited then [slash] else [])).1 ↔
      object.id.bucket = id.bucket ∧ s.cpp.entry object.id = some object ∧
        if delimited = true ∧ id.key = [] then PrefixTree.directoriesOf object.id.key = []
        else getNestedPath id <+: PrefixTree.directoriesOf object.id.key := by
  have htree := h.follows.consistent id.bucket
  have hroot : ((if delimited then [slash] else []).length ≠ 0 ∧ id.key.length = 0) ↔
      (delimited = true ∧ id.key = []) := by
    cases delimited <;> simp
  have hentry : ∀ key, (s.go.nestedDirectories id.bucket).heldAt
      (PrefixTree.directoriesOf key) key = some object →
      object.id = ⟨id.bucket, key⟩ ∧ s.cpp.entry object.id = some object := by
    intro key hheld
    rw [h.follows.held] at hheld
    have hid := MDSKVS.entry_id h.wellFormed hheld
    exact ⟨hid, hid ▸ hheld⟩
  have hheld : object.id.bucket = id.bucket → s.cpp.entry object.id = some object →
      (s.go.nestedDirectories id.bucket).heldAt (PrefixTree.directoriesOf object.id.key)
        object.id.key = some object := by
    intro hbucket hstored
    rw [h.follows.held, ← hbucket]
    exact hstored
  rw [PrefixTree.mem_listObjects_iff, if_congr hroot rfl rfl]
  split_ifs with hcase
  · constructor
    · rintro ⟨key, hroot⟩
      have hpath := (htree.held_home hroot).1
      rw [hpath] at hroot
      obtain ⟨hid, hstored⟩ := hentry key hroot
      rw [hid]
      exact ⟨rfl, hid ▸ hstored, hpath.symm⟩
    · rintro ⟨hbucket, hstored, hpath⟩
      exact ⟨object.id.key, hpath ▸ hheld hbucket hstored⟩
  · constructor
    · rintro ⟨key, hrecorded⟩
      obtain ⟨hid, hstored⟩ := hentry key (htree.held_of_recorded hrecorded)
      rw [hid]
      exact ⟨rfl, hid ▸ hstored, htree.recorded_path hrecorded⟩
    · rintro ⟨hbucket, hstored, hpath⟩
      refine ⟨object.id.key, ?_⟩
      rw [h.follows.complete id.bucket _ _ hpath]
      exact hheld hbucket hstored

theorem stores_iff (hwf : s.cpp.WellFormed) {bucket : Bytes} {ref : Nat}
    (hfind : s.cpp.map.find bucket = some ref) (key : Bytes) :
    s.Stores ⟨bucket, key⟩ ↔ ∃ container, (s.cpp.buckets.get ref).map.find key = some container := by
  rw [Stores, MDSKVS.entry_eq hwf, MDSKVS.contents_of_find hfind, Option.bind_some,
    ← Option.ne_none_iff_exists', ne_eq, Option.map_eq_none_iff,
    MDSKVS.bucketContents_eq_none_iff]

theorem Related.list (h : s.Related) {id : ObjectID} {delimited : Bool}
    (halike : s.ListsAlike id delimited) :
    s.Agree (.list id delimited) ∧ (s.perform (.list id delimited)).Related := by
  obtain ⟨ref, hfind⟩ := Option.ne_none_iff_exists'.1
    (mt (MDSKVS.contents_eq_none_iff s.cpp id.bucket).2 halike.bucket)
  have hlength : id.bucket.length ≠ 0 := fun hzero =>
    halike.named (List.length_eq_zero_iff.1 hzero)
  have hgo : s.go.listObjects ⟨some id, if delimited then some 0x2f else none⟩ =
      ((s.go.nestedDirectories id.bucket).listObjects id (if delimited then [slash] else []),
        s.go) := by
    rw [KeyValueStore.listObjects]
    cases delimited <;> simp [hlength, newBucket_of_found (h.goBucket halike.bucket)]
  have hcpp : s.cpp.listObjects id (if delimited then slash else 0) =
      .ok (MDSKVSBucket.listObjects s.cpp ref id.key (if delimited then slash else 0)) := by
    simp only [MDSKVS.listObjects, MDSKVS.getBucket, hfind]
  have hslash : ∀ key : Bytes, ((if delimited then slash else 0) = 0 ∨
      (if delimited then slash else 0) ∉ key) ↔ (delimited = true → slash ∉ key) := by
    intro key
    cases delimited <;> simp [slash]
  constructor
  · simp only [Agree, MDSKVS.serve, KeyValueStore.serve, hcpp, hgo]
    refine ⟨fun object => ?_, fun text => ?_⟩
    · rw [Caching.mem_listed_iff h.wellFormed hfind, h.mem_go_iff, hslash]
      refine and_congr_right fun hbucket => and_congr_right fun hstored => ?_
      apply halike.objects
      rw [Stores, ← hbucket]
      change s.cpp.entry object.id ≠ none
      rw [hstored]
      exact Option.some_ne_none object
    · rw [MDSKVSBucket.mem_listObjects_snd_iff]
      cases delimited with
      | false => exact iff_of_false (fun hcut => hcut.1 rfl) List.not_mem_nil
      | true =>
          simp only [↓reduceIte]
          rw [(h.named id.bucket).mem_commonPrefixes_iff, ← halike.prefixes rfl]
          constructor
          · rintro ⟨-, key, container, hcontainer, hcut⟩
            exact ⟨key, (stores_iff h.wellFormed hfind key).2 ⟨container, hcontainer⟩, hcut⟩
          · rintro ⟨key, hstores, hcut⟩
            obtain ⟨container, hcontainer⟩ := (stores_iff h.wellFormed hfind key).1 hstores
            exact ⟨by decide, key, container, hcontainer, hcut⟩
  · simp only [perform, MDSKVS.serve, KeyValueStore.serve, hgo]
    exact h

theorem new_related : new.Related := by
  obtain ⟨hwf, hcontents⟩ := MDSKVS.new_wellFormed none
  have hentry : (MDSKVS.new none).entry = fun _ => none := funext (MDSKVS.new_entry none)
  refine ⟨hwf, ?_, fun bucket => PrefixTree.new_named _, fun bucket => ?_⟩
  · change KeyValueStore.new.Follows (MDSKVS.new none).entry
    rw [hentry]
    exact KeyValueStore.new_follows
  · change (MDSKVS.new none).contents bucket = none ↔ _
    rw [hcontents]
    exact iff_of_true rfl rfl

end Steps

/-- The server in C++ refuses what the one in Go carries out. -/
def OnlyGo (s : Servers) (request : MetadataRequest) : Prop :=
  (s.cpp.serve request).1 = .status .notFound ∧ (s.go.serve request).1 = .status .ok

theorem create_onlyGo {s : Servers} {object : Object}
    (hmissing : ¬ s.HasBucket object.id.bucket) : s.OnlyGo (.create object) := by
  have hfind := (MDSKVS.contents_eq_none_iff s.cpp _).1 (not_not.1 hmissing)
  refine ⟨?_, rfl⟩
  simp only [MDSKVS.serve, MDSKVS.createObject, MDSKVS.getBucket, hfind]
  rfl

theorem Related.update_onlyGo {s : Servers} (h : s.Related) {object : Object}
    (hmissing : ¬ s.Stores object.id) : s.OnlyGo (.update object) := by
  refine ⟨congrArg MetadataOutcome.status ?_, rfl⟩
  refine @missing_code s.cpp h.wellFormed (.updateObject object) rfl object.id rfl
    (not_not.1 hmissing) fun contents hnone => ?_
  simp only [Contents.perform, hnone]
  rfl

theorem Related.delete_onlyGo {s : Servers} (h : s.Related) {id : ObjectID}
    (hmissing : ¬ s.Stores id) : s.OnlyGo (.delete id) := by
  refine ⟨congrArg MetadataOutcome.status ?_, rfl⟩
  refine @missing_code s.cpp h.wellFormed (.deleteObject id) rfl id rfl
    (not_not.1 hmissing) fun contents hnone => ?_
  simp only [Contents.perform, hnone]
  rfl

end Servers

end GEDS
