/-
The cache of a client whose calls may fail or be rejected.  `updateObject`, `deleteObject` and
`deleteObjectPrefix` change the cache before they ask the server; an update that the server
refuses stays in the cache.
-/
import GEDS.CacheCoherence
import GEDS.Relocation

namespace GEDS

open Status

/-- How a call of the metadata server ends: it fails without effect, the server rejects it, or
the server does what it is asked for. -/
inductive ServerReply where
  | unreached (message : Bytes)
  | rejected (status : FailedStatus)
  | served

/-- What changes the objects of the server. -/
inductive ServerCall where
  | object (call : ClientCall)
  | deleteBucket (bucket : Bytes)

namespace MapServer

variable (server : MapServer)

def deleteBucket (bucket : Bytes) : MapServer :=
  { server with objects := server.objects.filterKeys fun id => !decide (id.bucket = bucket) }

def perform : ServerCall → MapServer
  | .object (.createObject object) => server.createObject object
  | .object (.updateObject object) => server.updateObject object
  | .object (.deleteObject id) => server.deleteObject id
  | .object (.deleteObjectPrefix id) => server.deleteObjectPrefix id
  | .object (.lookup _ _) => server
  | .object (.listPrefix _ _) => server
  | .deleteBucket bucket => server.deleteBucket bucket

/-- The server has no object to update, and does not store one. -/
def lacks (object : Object) : Bool :=
  (server.objects.find object.id).isNone && !server.storesMissing

/-- What is published about a call.  Only the server that stores missing objects publishes. -/
def publications (call : ServerCall) : List Publication :=
  if server.storesMissing then
    match call with
    | .object (.createObject object) => (ObjectRequest.createObject object).announcement.toList
    | .object (.updateObject object) => (ObjectRequest.updateObject object).announcement.toList
    | .object (.deleteObject id) => (ObjectRequest.deleteObject id).announcement.toList
    | .object (.deleteObjectPrefix id) => (server.listObjects id 0).1.map (⟨·, .deleteObject⟩)
    | .object (.lookup _ _) => []
    | .object (.listPrefix _ _) => []
    | .deleteBucket _ => []
  else []

end MapServer

/-- `MetadataService` with its connection, and what the server published so far. -/
structure ConnectedService where
  connected : Bool
  service : MetadataService
  published : List Publication

/-- The calls of the client, those of others on the server, and the rounds of the loop in
`subscribeStream`, which may get what was published at any time. -/
inductive ConnectedEvent where
  | connection (connected : Bool)
  | createObject (object : Object) (reply : ServerReply)
  | updateObject (object : Object) (reply : ServerReply)
  | deleteObject (id : ObjectID) (reply : ServerReply)
  | deleteObjectPrefix (id : ObjectID) (reply : ServerReply)
  | deleteBucket (bucket : Bytes) (reply : ServerReply)
  | lookupBucket (bucket : Bytes) (reply : ServerReply)
  | lookup (id : ObjectID) (invalidate : Bool) (reply : ServerReply)
  | listPrefix (id : ObjectID) (delimiter : UInt8) (reply : ServerReply)
  | listPrefixFromCache (id : ObjectID) (delimiter : UInt8) (reply : ServerReply)
  | other (call : ServerCall)
  | deliver (index : Nat)

namespace ConnectedService

section Calls

variable (s : ConnectedService)

/-- A client that was just made. -/
def new (server : MapServer) (defaultBucket : Option Bytes) : ConnectedService where
  connected := false
  service := ⟨server, MDSKVS.new defaultBucket⟩
  published := []

def withCache (cache : MDSKVS) : ConnectedService :=
  { s with service := { s.service with cache := cache } }

/-- The server carries out a call, and publishes it. -/
def serve (call : ServerCall) : ConnectedService :=
  { s with
    service := { s.service with server := s.service.server.perform call }
    published := s.published ++ s.service.server.publications call }

/-- `METADATASERVICE_CHECK_CONNECTED` -/
def notConnected : Status := failedPreconditionError (text "Not connected.")

/-- `"Unable to execute " + name + " command: " + message` -/
def unableToExecute (name message : Bytes) : Status :=
  unavailableError (text "Unable to execute " ++ name ++ text " command: " ++ message)

/-- A call that changes the server: what it returns if the server carries it out. -/
def command (name : Bytes) (call : ServerCall) (answer : Status) :
    ServerReply → Status × ConnectedService
  | .unreached message => (unableToExecute name message, s)
  | .rejected status => (status.val, s)
  | .served => (answer, s.serve call)

/-- `MetadataService::createObject` -/
def createObject (object : Object) (reply : ServerReply) : Status × ConnectedService :=
  if s.connected then s.command (text "Create") (.object (.createObject object)) okStatus reply
  else (notConnected, s)

/-- `MetadataService::updateObject` -/
def updateObject (object : Object) (reply : ServerReply) : Status × ConnectedService :=
  if s.connected then
    let cached := s.withCache (s.service.cache.updateObject object).2
    cached.command (text "Update") (.object (.updateObject object))
      (if s.service.server.lacks object then keyDoesNotExist object.id.key else okStatus) reply
  else (notConnected, s)

/-- `MetadataService::deleteObject` -/
def deleteObject (id : ObjectID) (reply : ServerReply) : Status × ConnectedService :=
  if s.connected then
    let cached := s.withCache (s.service.cache.deleteObject id).2
    cached.command (text "Delete") (.object (.deleteObject id)) okStatus reply
  else (notConnected, s)

/-- `MetadataService::deleteObjectPrefix` -/
def deleteObjectPrefix (id : ObjectID) (reply : ServerReply) : Status × ConnectedService :=
  if s.connected then
    let cached := s.withCache (s.service.cache.deleteObjectPrefix id).2
    cached.command (text "Delete") (.object (.deleteObjectPrefix id)) okStatus reply
  else (notConnected, s)

/-- `MetadataService::deleteBucket` -/
def deleteBucket (bucket : Bytes) (reply : ServerReply) : Status × ConnectedService :=
  if s.connected then s.command (text "DeleteBucket") (.deleteBucket bucket) okStatus reply
  else (notConnected, s)

/-- `MetadataService::lookupBucket`: a bucket that the server does not have is forgotten. -/
def lookupBucket (bucket : Bytes) (reply : ServerReply) : Status × ConnectedService :=
  if s.connected then
    match reply with
    | .unreached message => (unableToExecute (text "LookupBucket") message, s)
    | .rejected status => (status.val, s.withCache (s.service.cache.deleteBucket bucket).2)
    | .served => (okStatus, s)
  else (notConnected, s)

/-- The part of `MetadataService::lookup` that asks the server. -/
def lookupRemote (id : ObjectID) : ServerReply → Except Status Object × ConnectedService
  | .unreached message => (.error (unableToExecute (text "Lookup") message), s)
  | .rejected status => (.error status.val, s)
  | .served =>
      let looked := s.service.lookupRemote id
      (looked.1, { s with service := looked.2 })

/-- `MetadataService::lookup` -/
def lookup (id : ObjectID) (invalidate : Bool) (reply : ServerReply) :
    Except Status Object × ConnectedService :=
  if s.connected then
    if invalidate then s.lookupRemote id reply
    else
      match s.service.cache.lookup id with
      | .ok object => (.ok object, s)
      | .error _ => s.lookupRemote id reply
  else (.error notConnected, s)

/-- `MetadataService::listPrefix` -/
def listPrefix (id : ObjectID) (delimiter : UInt8) (reply : ServerReply) :
    Except Status (List Object × List Bytes) × ConnectedService :=
  if s.connected then
    match reply with
    | .unreached message => (.error (unableToExecute (text "List") message), s)
    | .rejected status => (.error status.val, s)
    | .served =>
        let listed := s.service.listPrefix id delimiter
        (.ok listed.1, { s with service := listed.2 })
  else (.error notConnected, s)

/-- `MetadataService::listPrefixFromCache` -/
def listPrefixFromCache (id : ObjectID) (delimiter : UInt8) (reply : ServerReply) :
    Except Status (List Object × List Bytes) × ConnectedService :=
  match s.service.cache.listObjects id delimiter with
  | .ok listing => (.ok listing, s)
  | .error _ => s.listPrefix id delimiter reply

/-- One round of the loop in `subscribeStream`. -/
def deliver (index : Nat) : ConnectedService :=
  match s.published[index]? with
  | none => s
  | some publication => s.withCache (s.service.cache.receive publication)

def perform : ConnectedEvent → ConnectedService
  | .connection connected => { s with connected := connected }
  | .createObject object reply => (s.createObject object reply).2
  | .updateObject object reply => (s.updateObject object reply).2
  | .deleteObject id reply => (s.deleteObject id reply).2
  | .deleteObjectPrefix id reply => (s.deleteObjectPrefix id reply).2
  | .deleteBucket bucket reply => (s.deleteBucket bucket reply).2
  | .lookupBucket bucket reply => (s.lookupBucket bucket reply).2
  | .lookup id invalidate reply => (s.lookup id invalidate reply).2
  | .listPrefix id delimiter reply => (s.listPrefix id delimiter reply).2
  | .listPrefixFromCache id delimiter reply => (s.listPrefixFromCache id delimiter reply).2
  | .other call => s.serve call
  | .deliver index => s.deliver index

def run (events : List ConnectedEvent) : ConnectedService := events.foldl perform s

/-- The object that the cache has, which `lookup` then returns. -/
def cached (id : ObjectID) : Option Object := s.service.cache.entry id

/-- The client asks the server for an update, and the server does not carry it out. -/
def Refuses (object : Object) : ServerReply → Prop
  | .unreached _ => s.connected = true
  | .rejected _ => s.connected = true
  | .served => s.connected = true ∧ s.service.server.lacks object = true

end Calls

section Entries

theorem entry_deleteBucket {cache : MDSKVS} (hwf : cache.WellFormed) (bucket : Bytes)
    {id : ObjectID} {object : Object}
    (hentry : (cache.deleteBucket bucket).2.entry id = some object) :
    cache.entry id = some object := by
  rw [MDSKVS.deleteBucket] at hentry
  cases hfind : cache.map.find bucket with
  | none =>
      rw [hfind] at hentry
      exact hentry
  | some ref =>
      rw [hfind] at hentry
      obtain ⟨hcontents, hafter⟩ := MDSKVS.deleteBucket_refines hwf bucket
      rw [MDSKVS.entry_eq hafter, hcontents, Function.update_apply] at hentry
      split_ifs at hentry
      · cases hentry
      · rwa [MDSKVS.entry_eq hwf]

theorem wellFormed_deleteBucket {cache : MDSKVS} (hwf : cache.WellFormed) (bucket : Bytes) :
    (cache.deleteBucket bucket).2.WellFormed :=
  (MDSKVS.perform_refines hwf (.deleteBucket bucket)).2.2

/-- Remembering objects adds them and nothing else. -/
theorem entry_remember {objects : List Object} {cache : MDSKVS} (hwf : cache.WellFormed)
    {id : ObjectID} {object : Object}
    (hentry : (Caching.remember objects cache).entry id = some object) :
    cache.entry id = some object ∨ object ∈ objects := by
  induction objects generalizing cache with
  | nil => exact Or.inl hentry
  | cons first rest ih =>
      have hafter := (MDSKVS.perform_refines hwf (.createObject first true)).2.2
      rcases ih hafter hentry with hentry | hrest
      · change (cache.createObject first true).2.entry id = some object at hentry
        rw [MDSKVS.createObject_entry hwf, Function.update_apply] at hentry
        split_ifs at hentry
        · obtain rfl := Option.some.inj hentry
          exact Or.inr List.mem_cons_self
        · exact Or.inl hentry
      · exact Or.inr (List.mem_cons_of_mem _ hrest)

end Entries

/-- What is cached, and what was published as created or updated, was stored at some time. -/
structure Accepted (ever : Object → Prop) (s : ConnectedService) : Prop where
  wellFormed : s.service.cache.WellFormed
  cached : ∀ {id object}, s.cached id = some object → ever object
  published : ∀ {publication}, publication ∈ s.published →
    publication.publicationType = .createObject ∨ publication.publicationType = .updateObject →
    ever publication.object

section Steps

variable {s : ConnectedService} {ever : Object → Prop}

/-- What the server has counts as stored. -/
def Knows (ever : Object → Prop) (server : MapServer) : Prop :=
  ∀ object, server.lookup object.id = .ok object → ever object

theorem Accepted.mono (h : Accepted ever s) {later : Object → Prop}
    (hlater : ∀ object, ever object → later object) : Accepted later s :=
  ⟨h.wellFormed, fun hcached => hlater _ (h.cached hcached),
    fun hmem htype => hlater _ (h.published hmem htype)⟩

theorem Accepted.withCache (h : Accepted ever s) {cache : MDSKVS} (hwf : cache.WellFormed)
    (hentries : ∀ {id object}, cache.entry id = some object →
      s.cached id = some object ∨ ever object) : Accepted ever (s.withCache cache) := by
  refine ⟨hwf, fun hcached => ?_, h.published⟩
  rcases hentries hcached with hold | hnew
  · exact h.cached hold
  · exact hnew

theorem lookup_updateObject {server : MapServer} {object : Object}
    (hlacks : server.lacks object = false) :
    (server.updateObject object).lookup object.id = .ok object := by
  have hstores : ((server.objects.find object.id).isSome || server.storesMissing) = true := by
    rw [MapServer.lacks] at hlacks
    cases hfind : server.objects.find object.id <;> simp_all
  rw [MapServer.updateObject, if_pos hstores, MetadataService.lookup_createObject, if_pos rfl]

/-- What the server publishes as created or updated it stores in the same call. -/
theorem lookup_published {server : MapServer} {call : ServerCall} {publication : Publication}
    (hmem : publication ∈ server.publications call)
    (htype : publication.publicationType = .createObject ∨
      publication.publicationType = .updateObject) :
    (server.perform call).lookup publication.object.id = .ok publication.object := by
  unfold MapServer.publications at hmem
  split_ifs at hmem with hstores
  · cases call with
    | deleteBucket bucket => simp at hmem
    | object call =>
        cases call with
        | createObject object =>
            simp only [ObjectRequest.announcement, Option.toList_some, List.mem_singleton] at hmem
            subst hmem
            exact (MetadataService.lookup_createObject object object.id).trans (if_pos rfl)
        | updateObject object =>
            simp only [ObjectRequest.announcement, Option.toList_some, List.mem_singleton] at hmem
            subst hmem
            exact lookup_updateObject (by simp [MapServer.lacks, hstores])
        | deleteObject id =>
            simp only [ObjectRequest.announcement, Option.toList_some, List.mem_singleton] at hmem
            subst hmem
            simp at htype
        | deleteObjectPrefix id =>
            obtain ⟨object, -, rfl⟩ := List.mem_map.1 hmem
            simp at htype
        | lookup id invalidate => simp at hmem
        | listPrefix id delimiter => simp at hmem
  · cases hmem

theorem Accepted.serve (h : Accepted ever s) {call : ServerCall}
    (hafter : Knows ever (s.serve call).service.server) : Accepted ever (s.serve call) := by
  refine ⟨h.wellFormed, h.cached, fun hmem htype => ?_⟩
  rcases List.mem_append.1 hmem with hold | hnew
  · exact h.published hold htype
  · exact hafter _ (lookup_published hnew htype)

theorem Accepted.command (h : Accepted ever s) {name : Bytes} {call : ServerCall}
    {answer : Status} {reply : ServerReply}
    (hafter : Knows ever (s.command name call answer reply).2.service.server) :
    Accepted ever (s.command name call answer reply).2 := by
  cases reply with
  | unreached message => exact h
  | rejected status => exact h
  | served => exact h.serve hafter

theorem Accepted.deleteObject (h : Accepted ever s) {id : ObjectID} {reply : ServerReply}
    (hafter : Knows ever (s.deleteObject id reply).2.service.server) :
    Accepted ever (s.deleteObject id reply).2 := by
  rw [ConnectedService.deleteObject] at hafter ⊢
  split_ifs at hafter ⊢
  · refine Accepted.command (h.withCache ?_ fun {other object} hentry => ?_) hafter
    · exact (MDSKVS.perform_refines h.wellFormed (.deleteObject id)).2.2
    · rw [MDSKVS.deleteObject_entry h.wellFormed, Function.update_apply] at hentry
      split_ifs at hentry
      exact Or.inl hentry
  · exact h

theorem Accepted.deleteObjectPrefix (h : Accepted ever s) {id : ObjectID} {reply : ServerReply}
    (hafter : Knows ever (s.deleteObjectPrefix id reply).2.service.server) :
    Accepted ever (s.deleteObjectPrefix id reply).2 := by
  rw [ConnectedService.deleteObjectPrefix] at hafter ⊢
  split_ifs at hafter ⊢
  · refine Accepted.command (h.withCache ?_ fun {other object} hentry => ?_) hafter
    · exact (MDSKVS.perform_refines h.wellFormed (.deleteObjectPrefix id)).2.2
    · rw [MDSKVS.deleteObjectPrefix_entry h.wellFormed] at hentry
      split_ifs at hentry
      exact Or.inl hentry
  · exact h

theorem Accepted.lookupBucket (h : Accepted ever s) (bucket : Bytes) (reply : ServerReply) :
    Accepted ever (s.lookupBucket bucket reply).2 := by
  unfold ConnectedService.lookupBucket
  split_ifs
  · cases reply with
    | unreached message => exact h
    | rejected status =>
        exact h.withCache (wellFormed_deleteBucket h.wellFormed bucket)
          fun hentry => Or.inl (entry_deleteBucket h.wellFormed bucket hentry)
    | served => exact h
  · exact h

/-- Objects that the server has may be remembered. -/
theorem Accepted.remember (h : Accepted ever s) {objects : List Object}
    (hobjects : ∀ object ∈ objects, ever object) :
    Accepted ever (s.withCache (Caching.remember objects s.service.cache)) := by
  apply h.withCache (Caching.remember_wellFormed objects h.wellFormed)
  intro id object hentry
  rcases entry_remember h.wellFormed hentry with hold | hmem
  · exact Or.inl hold
  · exact Or.inr (hobjects object hmem)

theorem Accepted.lookupRemote (h : Accepted ever s) (hserver : Knows ever s.service.server)
    (id : ObjectID) (reply : ServerReply) : Accepted ever (s.lookupRemote id reply).2 := by
  cases reply with
  | unreached message => exact h
  | rejected status => exact h
  | served =>
      change Accepted ever { s with service := (s.service.lookupRemote id).2 }
      rw [MetadataService.lookupRemote]
      cases hlookup : s.service.server.lookup id with
      | error status => exact h
      | ok object =>
          apply h.remember
          intro other hother
          obtain rfl := List.mem_singleton.1 hother
          apply hserver
          rwa [((MetadataService.lookup_eq_ok_iff _ _).1 hlookup).1]

theorem Accepted.lookup (h : Accepted ever s) (hserver : Knows ever s.service.server)
    (id : ObjectID) (invalidate : Bool) (reply : ServerReply) :
    Accepted ever (s.lookup id invalidate reply).2 := by
  rw [ConnectedService.lookup]
  split_ifs
  · exact h.lookupRemote hserver id reply
  · cases s.service.cache.lookup id with
    | ok object => exact h
    | error status => exact h.lookupRemote hserver id reply
  · exact h

theorem Accepted.listPrefix (h : Accepted ever s) (hserver : Knows ever s.service.server)
    (id : ObjectID) (delimiter : UInt8) (reply : ServerReply) :
    Accepted ever (s.listPrefix id delimiter reply).2 := by
  unfold ConnectedService.listPrefix
  split_ifs
  · cases reply with
    | unreached message => exact h
    | rejected status => exact h
    | served =>
        exact h.remember fun object hlisted =>
          hserver object (MetadataService.lookup_of_listed hlisted)
  · exact h

theorem Accepted.deliver (h : Accepted ever s) (index : Nat) :
    Accepted ever (s.deliver index) := by
  rw [ConnectedService.deliver]
  cases hget : s.published[index]? with
  | none => exact h
  | some publication =>
      have hmem : publication ∈ s.published := List.mem_of_getElem? hget
      apply h.withCache (MDSKVS.receive_wellFormed h.wellFormed publication)
      intro id object hentry
      rw [MDSKVS.receive_entry h.wellFormed, Publication.onEntries] at hentry
      have hpublished := @Accepted.published _ _ h publication hmem
      cases htype : publication.publicationType with
      | noPublication =>
          simp only [htype] at hentry
          exact Or.inl hentry
      | createObject =>
          simp only [htype, Function.update_apply] at hentry
          split_ifs at hentry
          · obtain rfl := Option.some.inj hentry
            exact Or.inr (hpublished (Or.inl htype))
          · exact Or.inl hentry
      | updateObject =>
          simp only [htype] at hentry
          split_ifs at hentry
          · rw [Function.update_apply] at hentry
            split_ifs at hentry
            · obtain rfl := Option.some.inj hentry
              exact Or.inr (hpublished (Or.inr htype))
            · exact Or.inl hentry
          · exact Or.inl hentry
      | deleteObject =>
          simp only [htype, Function.update_apply] at hentry
          split_ifs at hentry
          exact Or.inl hentry

/-- What an update leaves in the cache, however it ends. -/
theorem cached_updateObject (hwf : s.service.cache.WellFormed) (object : Object)
    (reply : ServerReply) :
    (s.updateObject object reply).2.cached =
      if s.connected = true ∧ (s.cached object.id).isSome = true then
        Function.update s.cached object.id (some object)
      else s.cached := by
  rw [updateObject]
  by_cases hconnected : s.connected = true
  · have hcommand : ∀ (cached : ConnectedService) (answer : Status),
        (cached.command (text "Update") (.object (.updateObject object)) answer reply).2.cached =
          cached.cached := by
      intro cached answer
      cases reply <;> rfl
    rw [if_pos hconnected, hcommand]
    simp only [hconnected, true_and]
    exact MDSKVS.updateObject_entry hwf object
  · rw [if_neg hconnected, if_neg fun hboth => hconnected hboth.1]

/-- An update returns an error exactly if the client is not connected or the server does not
carry it out. -/
theorem updateObject_failed_iff (object : Object) (reply : ServerReply) :
    (s.updateObject object reply).1.ok = false ↔
      s.connected = false ∨ s.Refuses object reply := by
  rw [updateObject]
  by_cases hconnected : s.connected = true
  · rw [if_pos hconnected]
    cases reply with
    | unreached message => exact iff_of_true rfl (Or.inr hconnected)
    | rejected status => exact iff_of_true status.property (Or.inr hconnected)
    | served =>
        simp only [command, Refuses, hconnected, Bool.true_eq_false, true_and, false_or]
        split_ifs with hlacks
        · exact iff_of_true rfl hlacks
        · exact iff_of_false Bool.noConfusion hlacks
  · rw [if_neg hconnected]
    exact iff_of_true rfl (Or.inl (Bool.eq_false_iff.2 hconnected))

/-- The cache has the object already, or has nothing under its name. -/
def Agrees (s : ConnectedService) (object : Object) : Prop :=
  ∀ cached, s.cached object.id = some cached → cached = object

/-- The new info is the old one, or is stored at some time, or the server has it now. -/
theorem Accepted.updateObject (h : Accepted ever s) {object : Object} {reply : ServerReply}
    (hafter : Knows ever (s.updateObject object reply).2.service.server)
    (hagrees : s.Refuses object reply → s.Agrees object ∨ ever object) :
    Accepted ever (s.updateObject object reply).2 := by
  by_cases hconnected : s.connected = true
  · rw [ConnectedService.updateObject, if_pos hconnected] at hafter ⊢
    refine Accepted.command (h.withCache ?_ fun {id found} hentry => ?_) hafter
    · exact (MDSKVS.perform_refines h.wellFormed (.updateObject object)).2.2
    · rw [MDSKVS.updateObject_entry h.wellFormed] at hentry
      split_ifs at hentry with hcached
      · rw [Function.update_apply] at hentry
        split_ifs at hentry with hid
        · obtain rfl := Option.some.inj hentry
          obtain ⟨old, hold⟩ := Option.isSome_iff_exists.1 hcached
          by_cases hrefuses : s.Refuses object reply
          · rcases hagrees hrefuses with hsame | hever
            · rw [hid]
              exact Or.inl (hold.trans (congrArg some (hsame old hold)))
            · exact Or.inr hever
          · right
            cases reply with
            | unreached message => exact absurd hconnected hrefuses
            | rejected status => exact absurd hconnected hrefuses
            | served =>
                apply hafter
                apply lookup_updateObject
                rw [← Bool.not_eq_true]
                exact fun hlacks => hrefuses ⟨hconnected, hlacks⟩
        · exact Or.inl hentry
      · exact Or.inl hentry
  · rw [ConnectedService.updateObject, if_neg hconnected]
    exact h

/-- Only an update that the server does not carry out can break the invariant. -/
theorem Accepted.perform (h : Accepted ever s) {event : ConnectedEvent}
    (hserver : Knows ever s.service.server) (hafter : Knows ever (s.perform event).service.server)
    (hagrees : ∀ object reply, event = .updateObject object reply → s.Refuses object reply →
      s.Agrees object ∨ ever object) : Accepted ever (s.perform event) := by
  cases event with
  | connection connected => exact ⟨h.wellFormed, h.cached, h.published⟩
  | createObject object reply =>
      change Accepted ever (s.createObject object reply).2
      change Knows ever (s.createObject object reply).2.service.server at hafter
      rw [ConnectedService.createObject] at hafter ⊢
      split_ifs at hafter ⊢
      · exact h.command hafter
      · exact h
  | updateObject object reply => exact h.updateObject hafter (hagrees object reply rfl)
  | deleteObject id reply => exact h.deleteObject hafter
  | deleteObjectPrefix id reply => exact h.deleteObjectPrefix hafter
  | deleteBucket bucket reply =>
      change Accepted ever (s.deleteBucket bucket reply).2
      change Knows ever (s.deleteBucket bucket reply).2.service.server at hafter
      rw [ConnectedService.deleteBucket] at hafter ⊢
      split_ifs at hafter ⊢
      · exact h.command hafter
      · exact h
  | lookupBucket bucket reply => exact h.lookupBucket bucket reply
  | lookup id invalidate reply => exact h.lookup hserver id invalidate reply
  | listPrefix id delimiter reply => exact h.listPrefix hserver id delimiter reply
  | listPrefixFromCache id delimiter reply =>
      change Accepted ever (s.listPrefixFromCache id delimiter reply).2
      rw [listPrefixFromCache]
      cases s.service.cache.listObjects id delimiter with
      | ok listing => exact h
      | error status => exact h.listPrefix hserver id delimiter reply
  | other call => exact h.serve hafter
  | deliver index => exact h.deliver index

end Steps

section Runs

/-- The server had the object in a state that the events lead to. -/
def StoredWithin (start : ConnectedService) (events : List ConnectedEvent) (object : Object) :
    Prop :=
  ∃ before, before <+: events ∧
    (start.run before).service.server.lookup object.id = .ok object

/-- In every state, what the cache returns was stored by the server at some time, and an
update that returns an error does not change what the cache returns. -/
structure AcceptedOnly (start : ConnectedService) (events : List ConnectedEvent) : Prop where
  stored : ∀ reached, reached <+: events → ∀ id object,
    (start.run reached).cached id = some object →
      object.id = id ∧ StoredWithin start reached object
  failed : ∀ reached object reply, reached ++ [.updateObject object reply] <+: events →
    ((start.run reached).updateObject object reply).1.ok = false →
      ((start.run reached).updateObject object reply).2.cached = (start.run reached).cached

theorem run_append_singleton (start : ConnectedService) (events : List ConnectedEvent)
    (event : ConnectedEvent) : start.run (events ++ [event]) = (start.run events).perform event := by
  rw [run, List.foldl_append]
  rfl

theorem StoredWithin.mono {start : ConnectedService} {events later : List ConnectedEvent}
    {object : Object} (h : StoredWithin start events object) (hlater : events <+: later) :
    StoredWithin start later object := by
  obtain ⟨before, hbefore, hstored⟩ := h
  exact ⟨before, hbefore.trans hlater, hstored⟩

/-- Every update that the server does not carry out finds the same object in the cache, or
none. -/
def RefusalsAgree (start : ConnectedService) (events : List ConnectedEvent) : Prop :=
  ∀ reached object reply, reached ++ [.updateObject object reply] <+: events →
    (start.run reached).Refuses object reply → (start.run reached).Agrees object

theorem new_accepted (server : MapServer) (defaultBucket : Option Bytes)
    (ever : Object → Prop) : Accepted ever (new server defaultBucket) := by
  refine ⟨(MDSKVS.new_wellFormed defaultBucket).1, fun {id object} hcached => ?_,
    fun hmem => absurd hmem List.not_mem_nil⟩
  have hnone : (MDSKVS.new defaultBucket).entry id = some object := hcached
  rw [MDSKVS.new_entry] at hnone
  cases hnone

theorem run_wellFormed (server : MapServer) (defaultBucket : Option Bytes)
    (events : List ConnectedEvent) :
    ((new server defaultBucket).run events).service.cache.WellFormed := by
  have haccepted : Accepted (fun _ => True) ((new server defaultBucket).run events) := by
    induction events using List.reverseRecOn with
    | nil => exact new_accepted server defaultBucket _
    | append_singleton before event ih =>
        rw [run_append_singleton]
        exact ih.perform (fun _ _ => trivial) (fun _ _ => trivial)
          fun _ _ _ _ => Or.inr trivial
  exact haccepted.wellFormed

theorem run_accepted {server : MapServer} {defaultBucket : Option Bytes}
    {events : List ConnectedEvent} (hagree : RefusalsAgree (new server defaultBucket) events)
    {reached : List ConnectedEvent} (hreached : reached <+: events) :
    Accepted (StoredWithin (new server defaultBucket) reached)
      ((new server defaultBucket).run reached) := by
  -- From the back: what was stored before stays so.
  induction reached using List.reverseRecOn with
  | nil => exact new_accepted server defaultBucket _
  | append_singleton before event ih =>
      have hbefore := ih ((List.prefix_append before [event]).trans hreached)
      have hlater : ∀ object, StoredWithin (new server defaultBucket) before object →
          StoredWithin (new server defaultBucket) (before ++ [event]) object :=
        fun object hstored => hstored.mono (List.prefix_append before [event])
      rw [run_append_singleton]
      apply (hbefore.mono hlater).perform
      · exact fun object hserver => ⟨before, List.prefix_append before [event], hserver⟩
      · intro object hserver
        rw [← run_append_singleton] at hserver
        exact ⟨_, List.prefix_rfl, hserver⟩
      · rintro object reply rfl hrefuses
        exact Or.inl (hagree before object reply hreached hrefuses)

/-- In every run of a client from its start, whatever the server has and whatever fails, the
cache returns only what the server stored, and failed updates do not change it, exactly if
every update that the server does not carry out finds the same object in the cache, or
none. -/
theorem run_acceptedOnly_iff (server : MapServer) (defaultBucket : Option Bytes)
    (events : List ConnectedEvent) :
    AcceptedOnly (new server defaultBucket) events ↔
      RefusalsAgree (new server defaultBucket) events := by
  constructor
  · intro haccepted reached object reply hprefix hrefuses cached hcached
    have hfailed := (updateObject_failed_iff object reply).2 (Or.inr hrefuses)
    have hsame := haccepted.failed reached object reply hprefix hfailed
    have hconnected : ((new server defaultBucket).run reached).connected = true := by
      cases reply with
      | unreached message => exact hrefuses
      | rejected status => exact hrefuses
      | served => exact hrefuses.1
    rw [cached_updateObject (run_wellFormed server defaultBucket reached),
      if_pos ⟨hconnected, by rw [hcached, Option.isSome_some]⟩] at hsame
    have hnow := congrFun hsame object.id
    rw [Function.update_self, hcached] at hnow
    exact (Option.some.inj hnow).symm
  · intro hagree
    refine ⟨fun reached hreached id object hcached => ?_, ?_⟩
    · have haccepted := run_accepted hagree hreached
      exact ⟨MDSKVS.entry_id haccepted.wellFormed hcached, haccepted.cached hcached⟩
    · intro reached object reply hprefix hfailed
      rw [cached_updateObject (run_wellFormed server defaultBucket reached)]
      split_ifs with hcached
      · have hrefuses := ((updateObject_failed_iff object reply).1 hfailed).resolve_left
          (by simp [hcached.1])
        obtain ⟨old, hold⟩ := Option.isSome_iff_exists.1 hcached.2
        obtain rfl := hagree reached object reply hprefix hrefuses old hold
        rw [← hold, Function.update_eq_self]
      · rfl

end Runs

namespace Sample

def id : ObjectID := ⟨text "data", text "a"⟩

def stored (size : UInt64) : Object := ⟨id, ⟨text "geds://node", size, size, none⟩⟩

/-- An object is created and looked up, and an update of it does not reach the server. -/
def failing : List ConnectedEvent :=
  [.connection true, .createObject (stored 1) .served, .lookup id false .served,
    .updateObject (stored 2) (.unreached (text "Code: 14"))]

def start : ConnectedService := new ⟨AssocMap.empty, false⟩ none

/-- The update returns an error, and the next lookup returns an info that the server never
had. -/
theorem failing_not_accepted :
    ((start.run (failing.take 3)).updateObject (stored 2) (.unreached (text "Code: 14"))).1 =
        unableToExecute (text "Update") (text "Code: 14") ∧
      ((start.run failing).lookup id false .served).1 = .ok (stored 2) ∧
      (∀ before, before <+: failing →
        (start.run before).service.server.lookup id ≠ .ok (stored 2)) ∧
      ¬ AcceptedOnly start failing := by
  have hlookup : ((start.run failing).lookup id false .served).1 = .ok (stored 2) := by rfl
  have hnever : ∀ before, before <+: failing →
      (start.run before).service.server.lookup id ≠ .ok (stored 2) := by
    intro before hbefore hstored
    have hmem := (List.mem_inits before failing).2 hbefore
    have hfind := ((MetadataService.lookup_eq_ok_iff _ _).1 hstored).2
    have hall : ∀ before ∈ failing.inits,
        (start.run before).service.server.objects.find id ≠ some (stored 2).info := by
      decide
    exact hall before hmem hfind
  refine ⟨rfl, hlookup, hnever, fun haccepted => ?_⟩
  obtain ⟨-, before, hbefore, hstored⟩ :=
    haccepted.stored failing List.prefix_rfl id (stored 2) rfl
  exact hnever before hbefore hstored

end Sample

end ConnectedService

end GEDS
