/-
The cache of one client that is the only writer.  The server behaves as a map from
names to object infos; every call of the client succeeds in reaching it.  Updates,
deletions, lookups and lists keep what is cached equal to what the server has, and
`createObject` does not look at the cache.
-/
import GEDS.CacheListing

namespace GEDS

open Status

/-- The server as a map.  The two servers differ in whether an update of a missing
object stores it. -/
structure MapServer where
  objects : AssocMap ObjectID ObjectInfo
  storesMissing : Bool

namespace MapServer

variable (server : MapServer)

def createObject (object : Object) : MapServer :=
  { server with objects := server.objects.insert object.id object.info }

def updateObject (object : Object) : MapServer :=
  if (server.objects.find object.id).isSome || server.storesMissing then
    server.createObject object
  else server

def deleteObject (id : ObjectID) : MapServer :=
  { server with objects := server.objects.erase id }

def deleteObjectPrefix (id : ObjectID) : MapServer :=
  { server with
    objects := server.objects.filterKeys fun other =>
      !decide (other.bucket = id.bucket ∧ id.key <+: other.key) }

def lookup (id : ObjectID) : Except Status Object :=
  match server.objects.find id with
  | none => .error (notFoundError [])
  | some info => .ok ⟨id, info⟩

/-- The objects below the prefix, cut at the delimiter if the request has one. -/
def listObjects (id : ObjectID) (delimiter : UInt8) : List Object × List Bytes :=
  let below := server.objects.entries.filter fun entry =>
    decide (entry.1.bucket = id.bucket ∧ id.key <+: entry.1.key)
  let cut := fun entry : ObjectID × ObjectInfo => cutOf id.key.length delimiter entry.1.key
  ((below.filter fun entry => (cut entry).isNone).map fun entry => ⟨entry.1, entry.2⟩,
    (below.filterMap cut).dedup)

end MapServer

/-- The calls of a client on the objects. -/
inductive ClientCall where
  | createObject (object : Object)
  | updateObject (object : Object)
  | deleteObject (id : ObjectID)
  | deleteObjectPrefix (id : ObjectID)
  | lookup (id : ObjectID) (invalidate : Bool)
  | listPrefix (id : ObjectID) (delimiter : UInt8)

/-- `MetadataService` with its `_mdsCache`, and the server behind it. -/
structure MetadataService where
  server : MapServer
  cache : MDSKVS

namespace MetadataService

section Calls

variable (s : MetadataService)

/-- `MetadataService::createObject` -/
def createObject (object : Object) : MetadataService :=
  { s with server := s.server.createObject object }

/-- `MetadataService::updateObject` -/
def updateObject (object : Object) : MetadataService where
  server := s.server.updateObject object
  cache := (s.cache.updateObject object).2

/-- `MetadataService::deleteObject` -/
def deleteObject (id : ObjectID) : MetadataService where
  server := s.server.deleteObject id
  cache := (s.cache.deleteObject id).2

/-- `MetadataService::deleteObjectPrefix` -/
def deleteObjectPrefix (id : ObjectID) : MetadataService where
  server := s.server.deleteObjectPrefix id
  cache := (s.cache.deleteObjectPrefix id).2

/-- The part of `MetadataService::lookup` that asks the server. -/
def lookupRemote (id : ObjectID) : Except Status Object × MetadataService :=
  match s.server.lookup id with
  | .error status => (.error status, s)
  | .ok object => (.ok object, { s with cache := Caching.remember [object] s.cache })

/-- `MetadataService::lookup` -/
def lookup (id : ObjectID) (invalidate : Bool) : Except Status Object × MetadataService :=
  if invalidate then s.lookupRemote id
  else
    match s.cache.lookup id with
    | .ok object => (.ok object, s)
    | .error _ => s.lookupRemote id

/-- `MetadataService::listPrefix`; `delimiter` is a signed `char`, and is sent if it is
positive. -/
def listPrefix (id : ObjectID) (delimiter : UInt8) :
    (List Object × List Bytes) × MetadataService :=
  let listing := s.server.listObjects id
    (if (listRequest id delimiter).delimiter.isSome then delimiter else 0)
  (listing, { s with cache := Caching.remember listing.1 s.cache })

def perform : ClientCall → MetadataService
  | .createObject object => s.createObject object
  | .updateObject object => s.updateObject object
  | .deleteObject id => s.deleteObject id
  | .deleteObjectPrefix id => s.deleteObjectPrefix id
  | .lookup id invalidate => (s.lookup id invalidate).2
  | .listPrefix id delimiter => (s.listPrefix id delimiter).2

def run (calls : List ClientCall) : MetadataService := calls.foldl perform s

/-- A lookup that may use the cache returns what the server holds. -/
def Coherent : Prop := ∀ id, (s.lookup id false).1 = s.server.lookup id

/-- A call does not create an object while the cache has another one under its name. -/
def Harmless : ClientCall → Prop
  | .createObject object => ∀ cached, s.cache.entry object.id = some cached → cached = object
  | _ => True

/-- What is cached is what the server has. -/
structure Invariant : Prop where
  wellFormed : s.cache.WellFormed
  cached : ∀ {id : ObjectID} {object : Object}, s.cache.entry id = some object →
    s.server.lookup id = .ok object

end Calls

section Server

variable {server : MapServer}

theorem lookup_eq_ok_iff (id : ObjectID) (object : Object) :
    server.lookup id = .ok object ↔
      object.id = id ∧ server.objects.find id = some object.info := by
  obtain ⟨name, info⟩ := object
  rw [MapServer.lookup]
  cases server.objects.find id with
  | none => simp
  | some found =>
      simp only [Except.ok.injEq, Object.mk.injEq, Option.some.injEq]
      exact ⟨fun h => ⟨h.1.symm, h.2⟩, fun h => ⟨h.1.symm, h.2⟩⟩

theorem lookup_createObject (object : Object) (id : ObjectID) :
    (server.createObject object).lookup id =
      if id = object.id then .ok object else server.lookup id := by
  by_cases hid : id = object.id
  · rw [if_pos hid, lookup_eq_ok_iff]
    simp [MapServer.createObject, hid]
  · simp [MapServer.lookup, MapServer.createObject, hid]

theorem lookup_deleteObject_of_ne {id other : ObjectID} (hne : other ≠ id) :
    (server.deleteObject id).lookup other = server.lookup other := by
  simp [MapServer.lookup, MapServer.deleteObject, hne]

theorem lookup_deleteObjectPrefix_of_not {id other : ObjectID}
    (hnot : ¬ (other.bucket = id.bucket ∧ id.key <+: other.key)) :
    (server.deleteObjectPrefix id).lookup other = server.lookup other := by
  have hkept : (server.deleteObjectPrefix id).objects.find other = server.objects.find other := by
    rw [MapServer.deleteObjectPrefix, AssocMap.find_filterKeys, decide_eq_false hnot]
    exact if_pos rfl
  simp only [MapServer.lookup, hkept]

/-- Everything that is listed is in the map. -/
theorem lookup_of_listed {id : ObjectID} {delimiter : UInt8} {object : Object}
    (hlisted : object ∈ (server.listObjects id delimiter).1) :
    server.lookup object.id = .ok object := by
  rw [MapServer.listObjects] at hlisted
  obtain ⟨entry, hentry, rfl⟩ := List.mem_map.1 hlisted
  have hmem := List.mem_of_mem_filter (List.mem_of_mem_filter hentry)
  rw [lookup_eq_ok_iff]
  exact ⟨rfl, (AssocMap.find_eq_some_iff _ _ _).2 hmem⟩

end Server

section Steps

variable {s : MetadataService}

theorem lookup_cached {id : ObjectID} {object : Object}
    (hentry : s.cache.entry id = some object) : (s.lookup id false).1 = .ok object := by
  have hlookup : s.cache.lookup id = .ok object := toOption_eq_some_iff.1 hentry
  rw [MetadataService.lookup, if_neg Bool.false_ne_true, hlookup]

theorem lookupRemote_fst (id : ObjectID) : (s.lookupRemote id).1 = s.server.lookup id := by
  rw [lookupRemote]
  cases s.server.lookup id <;> rfl

theorem lookup_uncached {id : ObjectID} (hentry : s.cache.entry id = none) :
    (s.lookup id false).1 = s.server.lookup id := by
  rw [MDSKVS.entry] at hentry
  rw [MetadataService.lookup, if_neg Bool.false_ne_true]
  cases hlookup : s.cache.lookup id with
  | error status => exact lookupRemote_fst id
  | ok found => simp [hlookup, Except.toOption] at hentry

theorem Invariant.coherent (hinv : s.Invariant) : s.Coherent := by
  intro id
  cases hentry : s.cache.entry id with
  | none => exact lookup_uncached hentry
  | some object => rw [lookup_cached hentry, hinv.cached hentry]

/-- Objects that the server has may be cached. -/
theorem Invariant.remember (hinv : s.Invariant) {objects : List Object}
    (hobjects : ∀ object ∈ objects, s.server.lookup object.id = .ok object) :
    ({ s with cache := Caching.remember objects s.cache } : MetadataService).Invariant := by
  induction objects generalizing s with
  | nil => exact hinv
  | cons object rest ih =>
      have hobject := hobjects object List.mem_cons_self
      have hone : ({ s with cache := (s.cache.createObject object true).2 } :
          MetadataService).Invariant := by
        constructor
        · exact (MDSKVS.perform_refines hinv.wellFormed (.createObject object true)).2.2
        · intro id found hentry
          rw [MDSKVS.createObject_entry hinv.wellFormed] at hentry
          by_cases hid : id = object.id
          · subst hid
            rw [Function.update_self, Option.some.injEq] at hentry
            exact hentry ▸ hobject
          · rw [Function.update_of_ne hid] at hentry
            exact hinv.cached hentry
      exact ih hone fun other hother => hobjects other (List.mem_cons_of_mem _ hother)

theorem Invariant.createObject (hinv : s.Invariant) {object : Object}
    (hharmless : s.Harmless (.createObject object)) : (s.createObject object).Invariant := by
  constructor
  · exact hinv.wellFormed
  · intro id found hentry
    change (s.server.createObject object).lookup id = _
    rw [lookup_createObject]
    split_ifs with hid
    · subst hid
      rw [hharmless found hentry]
    · exact hinv.cached hentry

theorem Invariant.updateObject (hinv : s.Invariant) (object : Object) :
    (s.updateObject object).Invariant := by
  constructor
  · exact (MDSKVS.perform_refines hinv.wellFormed (.updateObject object)).2.2
  · intro id found hentry
    change (s.server.updateObject object).lookup id = _
    change (s.cache.updateObject object).2.entry id = _ at hentry
    rw [MDSKVS.updateObject_entry hinv.wellFormed] at hentry
    cases hcached : s.cache.entry object.id with
    | some cached =>
        have hserver := (lookup_eq_ok_iff _ _).1 (hinv.cached hcached)
        rw [MapServer.updateObject, hserver.2, if_pos (by simp), lookup_createObject]
        rw [hcached, if_pos Option.isSome_some] at hentry
        split_ifs with hid
        · rw [hid, Function.update_self, Option.some.injEq] at hentry
          rw [hentry]
        · rw [Function.update_of_ne hid] at hentry
          exact hinv.cached hentry
    | none =>
        rw [hcached, if_neg (by simp)] at hentry
        have hid : id ≠ object.id := by
          rintro rfl
          rw [hcached] at hentry
          cases hentry
        rw [MapServer.updateObject]
        split_ifs
        · rw [lookup_createObject, if_neg hid]
          exact hinv.cached hentry
        · exact hinv.cached hentry

theorem Invariant.deleteObject (hinv : s.Invariant) (id : ObjectID) :
    (s.deleteObject id).Invariant := by
  constructor
  · exact (MDSKVS.perform_refines hinv.wellFormed (.deleteObject id)).2.2
  · intro other found hentry
    change (s.cache.deleteObject id).2.entry other = _ at hentry
    rw [MDSKVS.deleteObject_entry hinv.wellFormed] at hentry
    have hne : other ≠ id := by
      rintro rfl
      rw [Function.update_self] at hentry
      cases hentry
    rw [Function.update_of_ne hne] at hentry
    exact (lookup_deleteObject_of_ne hne).trans (hinv.cached hentry)

theorem Invariant.deleteObjectPrefix (hinv : s.Invariant) (id : ObjectID) :
    (s.deleteObjectPrefix id).Invariant := by
  constructor
  · exact (MDSKVS.perform_refines hinv.wellFormed (.deleteObjectPrefix id)).2.2
  · intro other found hentry
    change (s.cache.deleteObjectPrefix id).2.entry other = _ at hentry
    rw [MDSKVS.deleteObjectPrefix_entry hinv.wellFormed] at hentry
    split_ifs at hentry with hbelow
    exact (lookup_deleteObjectPrefix_of_not hbelow).trans (hinv.cached hentry)

theorem Invariant.lookupRemote (hinv : s.Invariant) (id : ObjectID) :
    (s.lookupRemote id).2.Invariant := by
  unfold MetadataService.lookupRemote
  cases hserver : s.server.lookup id with
  | error status => exact hinv
  | ok object =>
      apply hinv.remember
      intro other hother
      rw [List.mem_singleton.1 hother, ((lookup_eq_ok_iff _ _).1 hserver).1, hserver]

theorem Invariant.lookup (hinv : s.Invariant) (id : ObjectID) (invalidate : Bool) :
    (s.lookup id invalidate).2.Invariant := by
  unfold MetadataService.lookup
  split_ifs
  · exact hinv.lookupRemote id
  · split
    · exact hinv
    · exact hinv.lookupRemote id

/-- Only `createObject` can break the invariant. -/
theorem Invariant.perform (hinv : s.Invariant) {call : ClientCall} (hharmless : s.Harmless call) :
    (s.perform call).Invariant := by
  cases call with
  | createObject object => exact hinv.createObject hharmless
  | updateObject object => exact hinv.updateObject object
  | deleteObject id => exact hinv.deleteObject id
  | deleteObjectPrefix id => exact hinv.deleteObjectPrefix id
  | lookup id invalidate => exact hinv.lookup id invalidate
  | listPrefix id delimiter => exact hinv.remember fun object hlisted => lookup_of_listed hlisted

/-- An object created over another one that is cached is not seen. -/
theorem Harmless.of_coherent {call : ClientCall} (hcoherent : (s.perform call).Coherent) :
    s.Harmless call := by
  cases call with
  | createObject object =>
      intro cached hcached
      have hlookup := hcoherent object.id
      have hcache : (s.perform (.createObject object)).cache.entry object.id = some cached :=
        hcached
      rw [lookup_cached hcache] at hlookup
      change _ = (s.server.createObject object).lookup object.id at hlookup
      rw [lookup_createObject, if_pos rfl] at hlookup
      exact Except.ok.inj hlookup
  | updateObject object => trivial
  | deleteObject id => trivial
  | deleteObjectPrefix id => trivial
  | lookup id invalidate => trivial
  | listPrefix id delimiter => trivial

end Steps

theorem run_concat (s : MetadataService) (calls : List ClientCall) (call : ClientCall) :
    s.run (calls ++ [call]) = (s.run calls).perform call := by
  rw [run, List.foldl_append]
  rfl

/-- In every run from an empty cache, whatever the server has at its start, lookups return
what the server holds in every state reached exactly if no object is ever created while
the cache has another one under its name. -/
theorem run_coherent_iff (server : MapServer) (defaultBucket : Option Bytes)
    (calls : List ClientCall) :
    (∀ reached, reached <+: calls →
        (run ⟨server, MDSKVS.new defaultBucket⟩ reached).Coherent) ↔
      ∀ reached call, reached ++ [call] <+: calls →
        (run ⟨server, MDSKVS.new defaultBucket⟩ reached).Harmless call := by
  constructor
  · intro hcoherent reached call hprefix
    apply Harmless.of_coherent
    rw [← run_concat]
    exact hcoherent _ hprefix
  · intro hharmless reached hprefix
    apply Invariant.coherent
    -- From the back: each call finds the invariant that the calls before it left.
    induction reached using List.reverseRecOn with
    | nil =>
        refine ⟨(MDSKVS.new_wellFormed defaultBucket).1, ?_⟩
        intro id object hentry
        rw [show (run ⟨server, MDSKVS.new defaultBucket⟩ []).cache =
          MDSKVS.new defaultBucket from rfl, MDSKVS.new_entry] at hentry
        cases hentry
    | append_singleton before call ih =>
        have hbefore := ih ((List.prefix_append before [call]).trans hprefix)
        rw [run_concat]
        exact hbefore.perform (hharmless before call hprefix)

namespace Sample

def id : ObjectID := ⟨text "data", text "a"⟩

def stored (size : UInt64) : Object := ⟨id, ⟨text "geds://node", size, size, none⟩⟩

def start : MetadataService := ⟨⟨AssocMap.empty, false⟩, MDSKVS.new none⟩

def calls : List ClientCall :=
  [.createObject (stored 1), .lookup id false, .createObject (stored 2)]

/-- The object is looked up and then created anew with another size; the next lookup still
returns the old size. -/
theorem recreated_not_coherent :
    ((start.run calls).lookup id false).1 = .ok (stored 1) ∧
      (start.run calls).server.lookup id = .ok (stored 2) ∧ ¬ (start.run calls).Coherent := by
  have hcached : ((start.run calls).lookup id false).1 = .ok (stored 1) := by rfl
  have hserver : (start.run calls).server.lookup id = .ok (stored 2) := by rfl
  refine ⟨hcached, hserver, fun hcoherent => ?_⟩
  have hsame := hcached.symm.trans ((hcoherent id).trans hserver)
  exact absurd (Except.ok.inj hsame) (by decide)

end Sample

end MetadataService

end GEDS
