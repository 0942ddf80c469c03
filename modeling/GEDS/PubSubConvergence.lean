/-
The cache of a subscriber beside the store of the server.  A handler publishes
before it changes the store, every publication is matched by a goroutine of its
own, and the client takes the messages as they come.
-/
import GEDS.MetadataCache
import GEDS.PubSubDelivery

namespace GEDS

/-- The capacity of the `Publication` channel. -/
def channelBufferSize : Nat := 500

/-- The server with the requests whose handlers have published and not yet changed the
store, the publications in the channel and in goroutines, and the stream and the cache
of one subscriber.  `changed` and `sent` have the order in which the store was changed
and the publications were sent. -/
structure Publishing where
  store : KeyValueStore
  handlers : AssocMap Nat ObjectRequest
  channel : List (Nat × Publication)
  matching : List (Nat × Publication)
  stream : List Publication
  cache : MDSKVS
  changed : List (Nat × ObjectRequest)
  sent : List (Nat × Publication)

inductive PublishingEvent where
  | publish (rpc : Nat) (request : ObjectRequest)
  | change (rpc : Nat)
  | listen
  | send (rpc : Nat)
  | read

namespace Publishing

def new (defaultBucket : Option Bytes) : Publishing where
  store := KeyValueStore.new
  handlers := AssocMap.empty
  channel := []
  matching := []
  stream := []
  cache := MDSKVS.new defaultBucket
  changed := []
  sent := []

section Steps

variable (pubsub : PubSub) (subscriberID : Bytes) (s : Publishing)

/-- `CreateObject`, `UpdateObject` and `DeleteObject` up to the publication; the channel
blocks when it is full. -/
def publish (rpc : Nat) (request : ObjectRequest) : Option Publishing :=
  match request.announcement with
  | none => none
  | some publication =>
      if (s.handlers.find rpc).isSome ∨ rpc ∈ s.changed.map Prod.fst ∨
          channelBufferSize ≤ s.channel.length then none
      else
        some { s with
          handlers := s.handlers.insert rpc request
          channel := s.channel ++ [(rpc, publication)] }

/-- The rest of the handler. -/
def change (rpc : Nat) : Option Publishing :=
  match s.handlers.find rpc with
  | none => none
  | some request =>
      some { s with
        store := s.store.perform request
        handlers := s.handlers.erase rpc
        changed := s.changed ++ [(rpc, request)] }

/-- `runPubSubEventListeners` starts a goroutine. -/
def listen : Option Publishing :=
  match s.channel with
  | [] => none
  | publication :: channel =>
      some { s with channel := channel, matching := s.matching ++ [publication] }

/-- The messages that `matchPubSub` sends to the subscriber. -/
def copies (publication : Publication) : List Publication :=
  List.replicate
    ((pubsub.matchPubSub publication.object fun _ => false).1.count subscriberID) publication

/-- Some goroutine gets to send. -/
def send (rpc : Nat) : Option Publishing :=
  match s.matching.find? fun entry => decide (entry.1 = rpc) with
  | none => none
  | some entry =>
      some { s with
        matching := s.matching.eraseP fun entry => decide (entry.1 = rpc)
        stream := s.stream ++ copies pubsub subscriberID entry.2
        sent := s.sent ++ [entry] }

/-- One round of the loop in `subscribeStream`. -/
def read : Option Publishing :=
  match s.stream with
  | [] => none
  | publication :: stream =>
      some { s with stream := stream, cache := s.cache.receive publication }

def perform : PublishingEvent → Option Publishing
  | .publish rpc request => s.publish rpc request
  | .change rpc => s.change rpc
  | .listen => s.listen
  | .send rpc => s.send pubsub subscriberID rpc
  | .read => s.read

def run : List PublishingEvent → Publishing → Option Publishing
  | [], s => some s
  | event :: events, s => (s.perform pubsub subscriberID event).bind (run events)

/-- All requests are done and all publications have been delivered. -/
structure Quiet : Prop where
  handlers : ∀ rpc, s.handlers.find rpc = none
  channel : s.channel = []
  matching : s.matching = []
  stream : s.stream = []

/-- The cache has what the store has under a name. -/
def Agrees (id : ObjectID) : Prop :=
  s.cache.entry id = (s.store.lookupObject id).1.toOption

/-- The subscriber has a stream and a subscription for the object. -/
def Covered (id : ObjectID) : Prop :=
  (pubsub.openStream subscriberID).isSome ∧
    ∀ object, object.id = id → subscriberID ∈ pubsub.matchingSubscribers object

/-- The requests on an object in the order in which they changed the store. -/
def changedOrder (id : ObjectID) : List Nat :=
  (s.changed.filter fun entry => decide (entry.2.objectID = id)).map Prod.fst

/-- The requests on an object in the order in which their publications were sent. -/
def sentOrder (id : ObjectID) : List Nat :=
  (s.sent.filter fun entry => decide (entry.2.object.id = id)).map Prod.fst

/-- A step that updates an object finds it in the store. -/
def updateStored : PublishingEvent → Bool
  | .change rpc =>
      match s.handlers.find rpc with
      | some (.updateObject object) => (s.store.lookupObject object.id).1.toOption.isSome
      | _ => true
  | _ => true

/-- All steps of a run do. -/
def updatesStored : List PublishingEvent → Publishing → Bool
  | [], _ => true
  | event :: events, s =>
      s.updateStored event &&
        match s.perform pubsub subscriberID event with
        | none => true
        | some next => updatesStored events next

end Steps

section Entries

/-- The entries after publications have been received in this order. -/
def entriesAfter (publications : List Publication) (entries : ObjectID → Option Object) :
    ObjectID → Option Object :=
  publications.foldl (fun current publication => publication.onEntries current) entries

/-- Only the publications for an object matter to its entry. -/
theorem entriesAfter_filter (id : ObjectID) (publications : List Publication)
    {entries others : ObjectID → Option Object} (hsame : entries id = others id) :
    entriesAfter publications entries id =
      entriesAfter (publications.filter fun publication => decide (publication.object.id = id))
        others id := by
  induction publications generalizing entries others with
  | nil => exact hsame
  | cons publication rest ih =>
      by_cases hid : publication.object.id = id
      · rw [List.filter_cons_of_pos (by simpa using hid)]
        exact ih (publication.onEntries_congr hsame)
      · rw [List.filter_cons_of_neg (by simpa using hid)]
        exact ih ((Publication.onEntries_of_ne (Ne.symm hid) entries).trans hsame)

theorem entriesAfter_append (publications more : List Publication)
    (entries : ObjectID → Option Object) :
    entriesAfter (publications ++ more) entries =
      entriesAfter more (entriesAfter publications entries) :=
  List.foldl_append

theorem announcement_objectID {request : ObjectRequest} {publication : Publication}
    (hannounced : request.announcement = some publication) :
    publication.object.id = request.objectID := by
  cases request with
  | deleteObjectPrefix id => cases hannounced
  | createObject object => rw [← Option.some.inj hannounced]; rfl
  | updateObject object => rw [← Option.some.inj hannounced]; rfl
  | deleteObject id => rw [← Option.some.inj hannounced]; rfl

theorem isDeletePrefix_of_announced {request : ObjectRequest} {publication : Publication}
    (hannounced : request.announcement = some publication) : request.isDeletePrefix = false := by
  cases request with
  | deleteObjectPrefix id => cases hannounced
  | createObject object => rfl
  | updateObject object => rfl
  | deleteObject id => rfl

/-- The effect of a publication on a cache is the effect of its request on the store, but
for an update of an object that is not there. -/
theorem onEntries_eq_onStored {request : ObjectRequest} {publication : Publication}
    (hannounced : request.announcement = some publication)
    {entries : ObjectID → Option Object}
    (hupdate : ∀ object, request = .updateObject object → (entries object.id).isSome) :
    publication.onEntries entries = request.onStored entries := by
  cases request with
  | deleteObjectPrefix id => cases hannounced
  | createObject object =>
      rw [← Option.some.inj hannounced]
      rfl
  | updateObject object =>
      rw [← Option.some.inj hannounced]
      exact if_pos (hupdate object rfl)
  | deleteObject id =>
      rw [← Option.some.inj hannounced]
      rfl

end Entries

theorem copies_of_covered {pubsub : PubSub} {subscriberID : Bytes} {id : ObjectID}
    (hcovered : Covered pubsub subscriberID id) {publication : Publication}
    (hid : publication.object.id = id) :
    copies pubsub subscriberID publication = [publication] := by
  obtain ⟨hopen, hmem⟩ := hcovered
  have hcount := @PubSub.count_sendToEach pubsub (fun _ => false) []
    (pubsub.matchingSubscribers publication.object) subscriberID
  rw [if_pos ⟨List.not_mem_nil, hmem _ hid, hopen⟩] at hcount
  rw [copies, PubSub.matchPubSub, hcount]
  rfl

/-- What is sent for other objects does not matter, and what is sent for this one is sent
once. -/
theorem filter_flatMap_copies {pubsub : PubSub} {subscriberID : Bytes} {id : ObjectID}
    (hcovered : Covered pubsub subscriberID id) (sent : List (Nat × Publication)) :
    (sent.flatMap fun entry => copies pubsub subscriberID entry.2).filter
        (fun publication => decide (publication.object.id = id)) =
      (sent.filter fun entry => decide (entry.2.object.id = id)).map Prod.snd := by
  induction sent with
  | nil => rfl
  | cons entry rest ih =>
      rw [List.flatMap_cons, List.filter_append, ih]
      by_cases hid : entry.2.object.id = id
      · rw [copies_of_covered hcovered hid, List.filter_cons_of_pos (by simpa using hid),
          List.filter_cons_of_pos (by simpa using hid)]
        rfl
      · rw [List.filter_cons_of_neg (p := fun entry : Nat × Publication =>
          decide (entry.2.object.id = id)) (by simpa using hid)]
        simp [copies, hid]

/-- What the store has after its changes. -/
def stored (changed : List (Nat × ObjectRequest)) : ObjectID → Option Object :=
  ObjectRequest.lastStored (changed.map Prod.snd)

/-- The publications of the changes, in the order of the changes. -/
def announced (changed : List (Nat × ObjectRequest)) : List Publication :=
  changed.filterMap fun entry => entry.2.announcement

theorem stored_append (changed : List (Nat × ObjectRequest)) (rpc : Nat)
    (request : ObjectRequest) :
    stored (changed ++ [(rpc, request)]) = request.onStored (stored changed) := by
  simp [stored, ObjectRequest.lastStored]

/-- What holds in every run in which updates find their objects. -/
structure Invariant (pubsub : PubSub) (subscriberID : Bytes) (s : Publishing) : Prop where
  follows : s.store.Follows (stored s.changed)
  wellFormed : s.cache.WellFormed
  received : ∃ received, received ++ s.stream =
      (s.sent.flatMap fun entry => copies pubsub subscriberID entry.2) ∧
    s.cache.entry = entriesAfter received fun _ => none
  nodup : (s.changed.map Prod.fst).Nodup
  pending : ∀ rpc request, s.handlers.find rpc = some request →
    rpc ∉ s.changed.map Prod.fst ∧ request.announcement.isSome
  known : ∀ entry ∈ s.channel ++ s.matching ++ s.sent, ∃ request,
    (s.handlers.find entry.1 = some request ∨ (entry.1, request) ∈ s.changed) ∧
      request.announcement = some entry.2
  agrees : entriesAfter (announced s.changed) (fun _ => none) = stored s.changed

theorem new_invariant (pubsub : PubSub) (subscriberID : Bytes) (defaultBucket : Option Bytes) :
    (new defaultBucket).Invariant pubsub subscriberID where
  follows := KeyValueStore.new_follows
  wellFormed := (MDSKVS.new_wellFormed defaultBucket).1
  received := ⟨[], rfl, funext (MDSKVS.new_entry defaultBucket)⟩
  nodup := List.nodup_nil
  pending := nofun
  known := nofun
  agrees := rfl

variable {pubsub : PubSub} {subscriberID : Bytes} {s next : Publishing}

theorem Invariant.publish (hinv : s.Invariant pubsub subscriberID) {rpc : Nat}
    {request : ObjectRequest} (hstep : s.publish rpc request = some next) :
    next.Invariant pubsub subscriberID := by
  unfold Publishing.publish at hstep
  split at hstep
  · cases hstep
  · next publication hannounced =>
    split_ifs at hstep with hbusy
    obtain rfl := Option.some.inj hstep
    obtain ⟨hfresh, hnew, -⟩ : ¬ (s.handlers.find rpc).isSome ∧ rpc ∉ s.changed.map Prod.fst ∧
        ¬ channelBufferSize ≤ s.channel.length := by
      simpa only [not_or] using hbusy
    refine ⟨hinv.follows, hinv.wellFormed, hinv.received, hinv.nodup, ?_, ?_, hinv.agrees⟩
    · intro other asked hfind
      by_cases heq : other = rpc
      · subst heq
        obtain rfl : request = asked := by simpa using hfind
        exact ⟨hnew, by rw [hannounced]; rfl⟩
      · exact hinv.pending other asked (by simpa [heq] using hfind)
    · intro entry hmem
      have hkept : (∃ asked, (s.handlers.find entry.1 = some asked ∨
          (entry.1, asked) ∈ s.changed) ∧ asked.announcement = some entry.2) →
          ∃ asked, ((s.handlers.insert rpc request).find entry.1 = some asked ∨
            (entry.1, asked) ∈ s.changed) ∧ asked.announcement = some entry.2 := by
        rintro ⟨asked, hasked | hdone, hentry⟩
        · have hne : entry.1 ≠ rpc := by
            rintro rfl
            exact hfresh (by rw [hasked]; rfl)
          exact ⟨asked, Or.inl (by simpa [hne] using hasked), hentry⟩
        · exact ⟨asked, Or.inr hdone, hentry⟩
      by_cases hold : entry ∈ s.channel ++ s.matching ++ s.sent
      · exact hkept (hinv.known entry hold)
      · obtain rfl : entry = (rpc, publication) := by
          simp only [List.mem_append, List.mem_singleton] at hmem hold
          tauto
        exact ⟨request, Or.inl (by simp), hannounced⟩

theorem Invariant.lookupObject (hinv : s.Invariant pubsub subscriberID) (id : ObjectID) :
    (s.store.lookupObject id).1.toOption = stored s.changed id := by
  rw [KeyValueStore.lookupObject_eq (hinv.follows.consistent _), hinv.follows.held]
  cases stored s.changed ⟨id.bucket, id.key⟩ <;> rfl

theorem Invariant.change (hinv : s.Invariant pubsub subscriberID) {rpc : Nat}
    (hstored : s.updateStored (.change rpc)) (hstep : s.change rpc = some next) :
    next.Invariant pubsub subscriberID := by
  unfold Publishing.change at hstep
  split at hstep
  · cases hstep
  · next request hfind =>
    obtain rfl := Option.some.inj hstep
    obtain ⟨hnew, hannounced⟩ := hinv.pending rpc request hfind
    obtain ⟨publication, hannounced⟩ := Option.isSome_iff_exists.1 hannounced
    refine ⟨?_, hinv.wellFormed, hinv.received, ?_, ?_, ?_, ?_⟩
    · rw [stored_append]
      exact hinv.follows.perform (isDeletePrefix_of_announced hannounced)
    · rw [List.map_append]
      exact List.nodup_append.2 ⟨hinv.nodup, List.nodup_singleton _, by
        intro other hother last hlast
        rw [List.mem_singleton.1 hlast]
        rintro rfl
        exact hnew hother⟩
    · intro other asked hother
      have hne : other ≠ rpc := by
        rintro rfl
        simp at hother
      obtain ⟨hnot, hsome⟩ := hinv.pending other asked (by simpa [hne] using hother)
      refine ⟨?_, hsome⟩
      simpa [hne] using hnot
    · intro entry hmem
      obtain ⟨asked, hasked | hdone, hentry⟩ := hinv.known entry hmem
      · by_cases heq : entry.1 = rpc
        · obtain rfl : request = asked := by
            rw [heq, hfind] at hasked
            exact Option.some.inj hasked
          exact ⟨request, Or.inr (by simp [heq]), hentry⟩
        · exact ⟨asked, Or.inl (by simpa [heq] using hasked), hentry⟩
      · exact ⟨asked, Or.inr (List.mem_append_left _ hdone), hentry⟩
    · have hupdate : ∀ object, request = .updateObject object →
          (stored s.changed object.id).isSome := by
        rintro object rfl
        simpa [updateStored, hfind, hinv.lookupObject] using hstored
      have hmore : announced (s.changed ++ [(rpc, request)]) =
          announced s.changed ++ [publication] := by
        simp [announced, hannounced]
      rw [hmore, entriesAfter_append, hinv.agrees, stored_append]
      exact onEntries_eq_onStored hannounced hupdate

theorem Invariant.listen (hinv : s.Invariant pubsub subscriberID)
    (hstep : s.listen = some next) : next.Invariant pubsub subscriberID := by
  unfold Publishing.listen at hstep
  split at hstep
  · cases hstep
  · next publication channel hchannel =>
    obtain rfl := Option.some.inj hstep
    refine ⟨hinv.follows, hinv.wellFormed, hinv.received, hinv.nodup, hinv.pending, ?_,
      hinv.agrees⟩
    intro entry hmem
    apply hinv.known
    rw [hchannel]
    simp only [List.mem_append, List.mem_cons] at hmem ⊢
    tauto

theorem Invariant.send (hinv : s.Invariant pubsub subscriberID) {rpc : Nat}
    (hstep : s.send pubsub subscriberID rpc = some next) :
    next.Invariant pubsub subscriberID := by
  unfold Publishing.send at hstep
  split at hstep
  · cases hstep
  · next sending hfind =>
    obtain rfl := Option.some.inj hstep
    have hmatching : sending ∈ s.matching := List.mem_of_find?_eq_some hfind
    obtain ⟨received, hreceived, hcache⟩ := hinv.received
    refine ⟨hinv.follows, hinv.wellFormed, ⟨received, ?_, hcache⟩, hinv.nodup, hinv.pending, ?_,
      hinv.agrees⟩
    · rw [List.flatMap_append, ← hreceived]
      simp
    · intro entry hmem
      apply hinv.known
      simp only [List.mem_append, List.mem_singleton] at hmem ⊢
      rcases hmem with (hchannel | herased) | hsent | rfl
      · exact Or.inl (Or.inl hchannel)
      · exact Or.inl (Or.inr (List.mem_of_mem_eraseP herased))
      · exact Or.inr hsent
      · exact Or.inl (Or.inr hmatching)

theorem Invariant.read (hinv : s.Invariant pubsub subscriberID) (hstep : s.read = some next) :
    next.Invariant pubsub subscriberID := by
  unfold Publishing.read at hstep
  split at hstep
  · cases hstep
  · next publication stream hstream =>
    obtain rfl := Option.some.inj hstep
    obtain ⟨received, hreceived, hcache⟩ := hinv.received
    refine ⟨hinv.follows, MDSKVS.receive_wellFormed hinv.wellFormed publication,
      ⟨received ++ [publication], ?_, ?_⟩, hinv.nodup, hinv.pending, hinv.known, hinv.agrees⟩
    · rw [← hreceived, hstream, List.append_assoc]
      rfl
    · rw [MDSKVS.receive_entry hinv.wellFormed, hcache, entriesAfter_append]
      rfl

theorem Invariant.perform (hinv : s.Invariant pubsub subscriberID) {event : PublishingEvent}
    (hstored : s.updateStored event)
    (hstep : s.perform pubsub subscriberID event = some next) :
    next.Invariant pubsub subscriberID := by
  cases event with
  | publish rpc request => exact hinv.publish hstep
  | change rpc => exact hinv.change hstored hstep
  | listen => exact hinv.listen hstep
  | send rpc => exact hinv.send hstep
  | read => exact hinv.read hstep

theorem Invariant.run {events : List PublishingEvent} (hinv : s.Invariant pubsub subscriberID)
    (hstored : updatesStored pubsub subscriberID events s)
    (hrun : Publishing.run pubsub subscriberID events s = some next) :
    next.Invariant pubsub subscriberID := by
  induction events generalizing s with
  | nil =>
      obtain rfl := Option.some.inj hrun
      exact hinv
  | cons event events ih =>
      obtain ⟨middle, hstep, hrest⟩ := Option.bind_eq_some_iff.1 hrun
      rw [updatesStored, hstep, Bool.and_eq_true] at hstored
      exact ih (hinv.perform hstored.1 hstep) hstored.2 hrest

theorem announced_cons (entry : Nat × ObjectRequest) (rest : List (Nat × ObjectRequest)) :
    announced (entry :: rest) = entry.2.announcement.toList ++ announced rest := by
  simp only [announced, List.filterMap_cons]
  cases entry.2.announcement <;> rfl

/-- Publications that come from these changes, with the same numbers, are those of the
changes. -/
theorem announced_of_order {changed done : List (Nat × ObjectRequest)}
    (hnodup : (changed.map Prod.fst).Nodup) (hdone : ∀ entry ∈ done, entry ∈ changed)
    {sent : List (Nat × Publication)} (horder : done.map Prod.fst = sent.map Prod.fst)
    (hknown : ∀ entry ∈ sent, ∃ request, (entry.1, request) ∈ changed ∧
      request.announcement = some entry.2) :
    announced done = sent.map Prod.snd := by
  induction sent generalizing done with
  | nil =>
      rw [List.map_eq_nil_iff.1 horder]
      rfl
  | cons entry rest ih =>
      cases done with
      | nil => cases horder
      | cons first others =>
          obtain ⟨hfirst, hothers⟩ := List.cons.inj horder
          obtain ⟨request, hmem, hannounced⟩ := hknown entry List.mem_cons_self
          have hsame : first.2 = request := by
            have hmine : (entry.1, first.2) ∈ changed := hfirst ▸ hdone first List.mem_cons_self
            have hone := (lookup_eq_some_iff_mem hnodup _ _).2 hmine
            have htwo := (lookup_eq_some_iff_mem hnodup _ _).2 hmem
            exact Option.some.inj (hone.symm.trans htwo)
          have hrest := ih (fun other hother => hdone other (List.mem_cons_of_mem _ hother))
            hothers fun other hother => hknown other (List.mem_cons_of_mem _ hother)
          rw [announced_cons, hsame, hannounced, hrest]
          rfl

/-- The publications for an object are those of the requests on it. -/
theorem filter_announced (id : ObjectID) (changed : List (Nat × ObjectRequest)) :
    (announced changed).filter (fun publication => decide (publication.object.id = id)) =
      announced (changed.filter fun entry => decide (entry.2.objectID = id)) := by
  induction changed with
  | nil => rfl
  | cons entry rest ih =>
      rw [announced_cons, List.filter_append, ih]
      cases hannounced : entry.2.announcement with
      | none =>
          by_cases hid : entry.2.objectID = id
          · rw [List.filter_cons_of_pos (by simpa using hid), announced_cons, hannounced]
            rfl
          · rw [List.filter_cons_of_neg (by simpa using hid)]
            rfl
      | some publication =>
          have hobject := announcement_objectID hannounced
          by_cases hid : entry.2.objectID = id
          · rw [List.filter_cons_of_pos (by simpa using hid), announced_cons, hannounced]
            simp [hobject, hid]
          · rw [List.filter_cons_of_neg (by simpa using hid)]
            simp [hobject, hid]

theorem Invariant.agrees_of_order (hinv : s.Invariant pubsub subscriberID) {id : ObjectID}
    (hcovered : Covered pubsub subscriberID id) (hquiet : s.Quiet)
    (horder : s.changedOrder id = s.sentOrder id) : s.Agrees id := by
  obtain ⟨received, hreceived, hcache⟩ := hinv.received
  rw [hquiet.stream, List.append_nil] at hreceived
  have hknown : ∀ entry ∈ s.sent.filter fun entry => decide (entry.2.object.id = id),
      ∃ request, (entry.1, request) ∈ s.changed ∧ request.announcement = some entry.2 := by
    intro entry hmem
    obtain ⟨request, hpending | hdone, hannounced⟩ :=
      hinv.known entry (List.mem_append_right _ (List.mem_filter.1 hmem).1)
    · rw [hquiet.handlers] at hpending
      cases hpending
    · exact ⟨request, hdone, hannounced⟩
  have hsame := announced_of_order hinv.nodup (fun entry hmem => (List.mem_filter.1 hmem).1)
    horder hknown
  calc s.cache.entry id
      = entriesAfter (received.filter fun publication => decide (publication.object.id = id))
          (fun _ => none) id := by rw [hcache, entriesAfter_filter id received rfl]
    _ = entriesAfter ((announced s.changed).filter fun publication =>
          decide (publication.object.id = id)) (fun _ => none) id := by
        rw [hreceived, filter_flatMap_copies hcovered, filter_announced, hsame]
    _ = stored s.changed id := by rw [← entriesAfter_filter id _ rfl, hinv.agrees]
    _ = (s.store.lookupObject id).1.toOption := (hinv.lookupObject id).symm

/-- When all is delivered the subscriber has what the server has, in every run in which
updates find their objects in the store, if the publications for the object were sent in
the order in which the store was changed. -/
theorem run_agrees {defaultBucket : Option Bytes} {events : List PublishingEvent}
    {id : ObjectID} (hcovered : Covered pubsub subscriberID id)
    (hrun : run pubsub subscriberID events (new defaultBucket) = some s) (hquiet : s.Quiet)
    (hstored : updatesStored pubsub subscriberID events (new defaultBucket) = true)
    (horder : s.changedOrder id = s.sentOrder id) : s.Agrees id :=
  ((new_invariant pubsub subscriberID defaultBucket).run hstored hrun).agrees_of_order
    hcovered hquiet horder

namespace Sample

def alice : Bytes := text "alice"

def id : ObjectID := ⟨text "data", text "key"⟩

/-- Alice has a stream and has subscribed to the bucket. -/
def service : PubSub :=
  PubSub.new.run [.subscribeStream alice 1, .subscribe ⟨.bucket, alice, text "data", []⟩]

theorem matchingSubscribers_congr {s : PubSub} {object other : Object}
    (hid : object.id = other.id) : s.matchingSubscribers object = s.matchingSubscribers other := by
  obtain ⟨id, info⟩ := object
  obtain ⟨otherID, otherInfo⟩ := other
  obtain rfl : id = otherID := hid
  rfl

theorem covered : Covered service alice id := by
  refine ⟨by decide, ?_⟩
  intro object hid
  have hsame := @matchingSubscribers_congr service object ⟨id, default⟩ hid
  rw [hsame]
  decide

def object (size : UInt64) : Object := ⟨id, ⟨text "geds://node", size, size, none⟩⟩

/-- The requests overlap, and the goroutines send in the order of the changes. -/
def orderly : List PublishingEvent :=
  [.publish 0 (.createObject (object 1)), .publish 1 (.updateObject (object 2)), .change 0,
    .change 1, .listen, .listen, .send 0, .read, .send 1, .read]

def afterOrderly : Publishing := (run service alice orderly (new none)).get (by decide)

theorem quiet_of_handlers {s : Publishing} (hhandlers : s.handlers.entries = [])
    (hchannel : s.channel = []) (hmatching : s.matching = []) (hstream : s.stream = []) :
    s.Quiet := by
  refine ⟨?_, hchannel, hmatching, hstream⟩
  intro rpc
  rw [AssocMap.find, hhandlers]
  rfl

theorem orderly_agrees :
    afterOrderly.cache.entry id = some (object 2) ∧ afterOrderly.Agrees id := by
  have hrun : run service alice orderly (new none) = some afterOrderly :=
    (Option.some_get _).symm
  have hquiet : afterOrderly.Quiet :=
    quiet_of_handlers (by decide) (by decide) (by decide) (by decide)
  exact ⟨by decide, run_agrees covered hrun hquiet (by decide) (by decide)⟩

/-- The goroutine of the second request overtakes that of the first. -/
def disorderly : List PublishingEvent :=
  [.publish 0 (.createObject (object 1)), .change 0, .publish 1 (.deleteObject id), .change 1,
    .listen, .listen, .send 1, .send 0, .read, .read]

def afterDisorderly : Publishing := (run service alice disorderly (new none)).get (by decide)

/-- The object is deleted, and the subscriber keeps it. -/
theorem disorderly_not_agreeing :
    Covered service alice id ∧
      run service alice disorderly (new none) = some afterDisorderly ∧ afterDisorderly.Quiet ∧
      ¬ afterDisorderly.Agrees id := by
  refine ⟨covered, (Option.some_get _).symm,
    quiet_of_handlers (by decide) (by decide) (by decide) (by decide), ?_⟩
  intro hagrees
  have hcached : afterDisorderly.cache.entry id = some (object 1) := by decide
  have hstored : (afterDisorderly.store.lookupObject id).1.toOption = none := by decide
  rw [Agrees, hcached, hstored] at hagrees
  cases hagrees

end Sample

end Publishing

end GEDS
