/-
The number of subscriptions.  `subscriptionsCounter` is to be the number of slots that bear
the name of the subscriber; `Unsubscribe` counts first, and afterwards gives up one slot of
a slice in each table, whosever it is.
-/
import GEDS.Library.WriteBehind
import GEDS.PubSubDelivery

namespace GEDS

open WriteBehind

/-- The name in the slot that `removeElementFromSlice` gives up. -/
def emptiedSlot (subscribers : List Bytes) (subscriberID : Bytes) : List Bytes :=
  if subscribers = [] then [] else [subscribers.getD (slotIndex subscribers subscriberID) []]

/-- The subscriber in the event has a name. -/
def PubSubEvent.Named : PubSubEvent → Prop
  | .subscribe event | .unsubscribe event => event.subscriberID ≠ []
  | .subscribeStream subscriberID _ => subscriberID ≠ []
  | .publish _ _ => True

instance : (event : PubSubEvent) → Decidable event.Named
  | .subscribe event | .unsubscribe event =>
      inferInstanceAs (Decidable (event.subscriberID ≠ []))
  | .subscribeStream subscriberID _ => inferInstanceAs (Decidable (subscriberID ≠ []))
  | .publish _ _ => isTrue trivial

theorem count_removeElementFromSlice_emptiedSlot (subscribers : List Bytes)
    (subscriberID name : Bytes) :
    (removeElementFromSlice subscribers subscriberID).count name +
        (emptiedSlot subscribers subscriberID).count name =
      subscribers.count name +
        if name = [] then (emptiedSlot subscribers subscriberID).length else 0 := by
  by_cases hne : subscribers = []
  · subst hne
    simp [removeElementFromSlice, emptiedSlot]
  · have hcount := count_removeElementFromSlice hne subscriberID name
    rw [emptiedSlot, if_neg hne, List.count_singleton]
    simp only [beq_iff_eq, List.length_singleton]
    by_cases hname : name = []
    · rw [if_pos hname]
      rwa [if_pos hname.symm] at hcount
    · rw [if_neg hname]
      rwa [if_neg (Ne.symm hname)] at hcount

namespace PubSub

variable {s : PubSub} {event : SubscriptionEvent}

/-- How many slots of both tables bear the name. -/
def occurrences (s : PubSub) (name : Bytes) : Nat :=
  s.subscribedItems.total (·.count name) +
    s.subscribedPrefix.total fun inBucket => inBucket.total (·.count name)

/-- The names in the slots that the event gives up. -/
def emptied (s : PubSub) (unsubscription : SubscriptionEvent) : List Bytes :=
  match createSubscriptionKey unsubscription with
  | .error _ => []
  | .ok id =>
      emptiedSlot ((s.subscribedItems.find id).getD []) unsubscription.subscriberID ++
        emptiedSlot (((s.subscribedPrefix.find unsubscription.bucketID).bind
          (·.find id)).getD []) unsubscription.subscriberID

/-- Each counter is the number of subscriptions in the tables. -/
def Counted (s : PubSub) : Prop :=
  ∀ subscriberID streamer, s.subscriberStreams.find subscriberID = some streamer →
    streamer.subscriptionsCounter = s.occurrences subscriberID

/-- `Unsubscribe` closes a stream only when its subscriber has no subscription left. -/
def ClosesLast (s : PubSub) : PubSubEvent → Prop
  | .unsubscribe event => ∀ subscriberID, s.openStream subscriberID ≠ none →
      (s.unsubscribe event).2.openStream subscriberID = none →
        (s.unsubscribe event).2.occurrences subscriberID = 0
  | .subscribe _ | .subscribeStream _ _ | .publish _ _ => True

/-- A subscriber that is known gives up one slot of its own, and nobody gives up a slot of
somebody else. -/
def EmptiesOwn (s : PubSub) : PubSubEvent → Prop
  | .unsubscribe event =>
      (s.subscriberStreams.find event.subscriberID ≠ none →
        (s.emptied event).count event.subscriberID = 1) ∧
      ∀ name ∈ s.emptied event, name = event.subscriberID ∨ name = []
  | .subscribe _ | .subscribeStream _ _ | .publish _ _ => True

section Tables

variable (table : AssocMap Bytes (List Bytes)) (id subscriberID name : Bytes)

theorem total_appendTo :
    (appendTo table id subscriberID).total (·.count name) =
      table.total (·.count name) + if subscriberID = name then 1 else 0 := by
  have htotal := table.total_insert (·.count name) id ((table.find id).getD [] ++ [subscriberID])
  rw [List.count_append, List.count_singleton] at htotal
  simp only [beq_iff_eq] at htotal
  rw [appendTo]
  cases hfind : table.find id with
  | none =>
      simp only [hfind, Option.map_none, Option.getD_none, List.count_nil] at htotal ⊢
      omega
  | some subscribers =>
      simp only [hfind, Option.map_some, Option.getD_some] at htotal ⊢
      omega

theorem total_removeFrom :
    (removeFrom table id subscriberID).total (·.count name) +
        (emptiedSlot ((table.find id).getD []) subscriberID).count name =
      table.total (·.count name) + if name = [] then
        (emptiedSlot ((table.find id).getD []) subscriberID).length else 0 := by
  rw [removeFrom]
  cases hfind : table.find id with
  | none => simp [emptiedSlot]
  | some subscribers =>
      have htotal := table.total_insert (·.count name) id
        (removeElementFromSlice subscribers subscriberID)
      have hslice := count_removeElementFromSlice_emptiedSlot subscribers subscriberID name
      simp only [hfind, Option.map_some, Option.getD_some] at htotal ⊢
      omega

end Tables

theorem occurrences_of_sameTables {s' : PubSub} (hsame : SameTables s s') :
    s'.occurrences = s.occurrences := by
  funext name
  rw [occurrences, occurrences, hsame.1, hsame.2]

/-- A subscription takes one slot. -/
theorem occurrences_addSubscription {id : Bytes} (hid : createSubscriptionKey event = .ok id)
    (name : Bytes) :
    (s.addSubscription event id).occurrences name =
      s.occurrences name + if event.subscriberID = name then 1 else 0 := by
  obtain ⟨type, subscriberID, bucketID, key⟩ := event
  have hitems := total_appendTo s.subscribedItems id subscriberID name
  cases type with
  | noSubscription => cases hid
  | bucket =>
      simp only [addSubscription, occurrences, hitems]
      omega
  | object =>
      simp only [addSubscription, occurrences, hitems]
      omega
  | keyPrefix =>
      have hinner := total_appendTo ((s.subscribedPrefix.find bucketID).getD AssocMap.empty) id
        subscriberID name
      have houter := s.subscribedPrefix.total_insert (fun inBucket => inBucket.total (·.count name))
        bucketID (appendTo ((s.subscribedPrefix.find bucketID).getD AssocMap.empty) id subscriberID)
      simp only [addSubscription, occurrences]
      cases hfind : s.subscribedPrefix.find bucketID with
      | none =>
          simp only [hfind, Option.getD_none, Option.map_none, AssocMap.total_empty] at hinner houter ⊢
          omega
      | some inBucket =>
          simp only [hfind, Option.getD_some, Option.map_some] at hinner houter ⊢
          omega

/-- A removal gives up the emptied slots; their names are empty afterwards. -/
theorem occurrences_removeSubscription {id : Bytes} (hid : createSubscriptionKey event = .ok id)
    (name : Bytes) :
    (s.removeSubscription event id).occurrences name + (s.emptied event).count name =
      s.occurrences name + if name = [] then (s.emptied event).length else 0 := by
  have hitems := total_removeFrom s.subscribedItems id event.subscriberID name
  have hlength : ∀ first second : List Bytes, (if name = [] then (first ++ second).length else 0) =
      (if name = [] then first.length else 0) + if name = [] then second.length else 0 := by
    intro first second
    rw [List.length_append]
    split_ifs <;> rfl
  simp only [emptied, hid, List.count_append, hlength, removeSubscription, occurrences]
  cases hfind : s.subscribedPrefix.find event.bucketID with
  | none =>
      simp only [Option.bind_none, Option.getD_none, emptiedSlot, ↓reduceIte, List.count_nil,
        List.length_nil, ite_self] at hitems ⊢
      omega
  | some inBucket =>
      have hinner := total_removeFrom inBucket id event.subscriberID name
      have houter := s.subscribedPrefix.total_insert (fun inBucket => inBucket.total (·.count name))
        event.bucketID (removeFrom inBucket id event.subscriberID)
      simp only [hfind, Option.map_some, Option.getD_some, Option.bind_some] at houter ⊢
      omega

theorem occurrences_unsubscribe (name : Bytes) :
    (s.unsubscribe event).2.occurrences name + (s.emptied event).count name =
      s.occurrences name + if name = [] then (s.emptied event).length else 0 := by
  have hsame : SameTables s (s.discountSubscription event.subscriberID) :=
    sameTables_discountSubscription event.subscriberID
  rw [unsubscribe]
  cases hid : createSubscriptionKey event with
  | error failure =>
      simp only [emptied, hid, occurrences_of_sameTables hsame, List.count_nil, List.length_nil,
        ite_self]
  | ok id =>
      have hremoved := @occurrences_removeSubscription (s.discountSubscription event.subscriberID)
        event id hid name
      have hemptied : (s.discountSubscription event.subscriberID).emptied event =
          s.emptied event := by
        simp only [emptied, hid, hsame.1, hsame.2]
      rwa [hemptied, occurrences_of_sameTables hsame] at hremoved

/-- The counter of a subscriber that is known. -/
def counterOf (s : PubSub) (subscriberID : Bytes) : Option Int :=
  (s.subscriberStreams.find subscriberID).map (·.subscriptionsCounter)

theorem counted_iff : s.Counted ↔
    ∀ subscriberID counter, s.counterOf subscriberID = some counter →
      counter = s.occurrences subscriberID := by
  constructor
  · intro hcounted subscriberID counter hcounter
    obtain ⟨streamer, hfind, rfl⟩ := Option.map_eq_some_iff.1 hcounter
    exact hcounted subscriberID streamer hfind
  · intro hcounted subscriberID streamer hfind
    exact hcounted subscriberID _ (by rw [counterOf, hfind, Option.map_some])

section Streamers

variable (subscriberID other : Bytes)

theorem find_removeSubscriberStream {streamer : SubscriberStream}
    (hfind : s.subscriberStreams.find subscriberID = some streamer) :
    (s.removeSubscriberStream subscriberID streamer).subscriberStreams.find other =
      if other = subscriberID then some { streamer with stream := none }
      else s.subscriberStreams.find other := by
  rw [removeSubscriberStream]
  cases hstream : streamer.stream with
  | none =>
      split_ifs with heq
      · rw [heq, hfind, ← hstream]
      · rfl
  | some stream => exact AssocMap.find_insert _ _ _ _

theorem find_discountSubscription :
    (s.discountSubscription subscriberID).subscriberStreams.find other =
      if other = subscriberID then (s.subscriberStreams.find subscriberID).map fun streamer =>
        ⟨if streamer.subscriptionsCounter - 1 ≤ 0 then none else streamer.stream,
          streamer.subscriptionsCounter - 1⟩
      else s.subscriberStreams.find other := by
  rw [discountSubscription]
  cases hfind : s.subscriberStreams.find subscriberID with
  | none =>
      split_ifs with heq
      · rw [heq, hfind, Option.map_none]
      · rfl
  | some streamer =>
      simp only [Option.map_some]
      by_cases hcounter : streamer.subscriptionsCounter - 1 ≤ 0
      · rw [if_pos hcounter, if_pos hcounter,
          find_removeSubscriberStream subscriberID other (AssocMap.find_insert_self _ _ _)]
        split_ifs with heq
        · rfl
        · exact AssocMap.find_insert_of_ne _ heq _
      · rw [if_neg hcounter, if_neg hcounter]
        exact AssocMap.find_insert _ _ _ _

theorem counterOf_discountSubscription :
    (s.discountSubscription subscriberID).counterOf other =
      if other = subscriberID then (s.counterOf subscriberID).map (· - 1)
      else s.counterOf other := by
  rw [counterOf, find_discountSubscription]
  split_ifs with heq
  · rw [counterOf, Option.map_map, Option.map_map]
    rfl
  · rfl

theorem counterOf_countSubscription :
    (s.countSubscription subscriberID).counterOf other =
      if other = subscriberID then some ((s.counterOf subscriberID).getD 0 + 1)
      else s.counterOf other := by
  rw [counterOf, countSubscription, AssocMap.find_insert, counterOf, counterOf]
  split_ifs with heq
  · cases s.subscriberStreams.find subscriberID <;> rfl
  · rfl

theorem counterOf_subscribeStream (stream : Nat) :
    (s.subscribeStream subscriberID stream).counterOf other =
      if other = subscriberID then some ((s.counterOf subscriberID).getD 0)
      else s.counterOf other := by
  rw [counterOf, subscribeStream]
  cases hfind : s.subscriberStreams.find subscriberID with
  | none =>
      simp only [AssocMap.find_insert, counterOf, hfind]
      split_ifs <;> rfl
  | some streamer =>
      simp only [AssocMap.find_insert, counterOf, hfind]
      split_ifs with heq
      · rfl
      · rw [find_removeSubscriberStream subscriberID other hfind, if_neg heq]

theorem counterOf_sendPublication (broken : Nat → Bool) :
    (s.sendPublication broken subscriberID).2.counterOf other = s.counterOf other := by
  rw [sendPublication]
  cases hfind : s.subscriberStreams.find subscriberID with
  | none => rfl
  | some streamer =>
      cases hstream : streamer.stream with
      | none => simp only [hstream]
      | some stream =>
          simp only [hstream]
          split_ifs
          · rw [counterOf, find_removeSubscriberStream subscriberID other hfind, counterOf]
            split_ifs with heq
            · rw [heq, hfind]
              rfl
            · rfl
          · rfl

end Streamers

theorem counterOf_sendToEach (broken : Nat → Bool) (sentSubscriptions subscribers : List Bytes)
    (other : Bytes) :
    (sendToEach broken sentSubscriptions s subscribers).2.counterOf other = s.counterOf other := by
  induction subscribers generalizing s sentSubscriptions with
  | nil => rfl
  | cons subscriberID rest ih =>
      rw [sendToEach_cons]
      by_cases hsent : subscriberID ∈ sentSubscriptions
      · rw [if_pos hsent]
        exact ih sentSubscriptions
      · rw [if_neg hsent]
        exact (ih _).trans (counterOf_sendPublication subscriberID other broken)

theorem counterOf_unsubscribe (other : Bytes) :
    (s.unsubscribe event).2.counterOf other =
      if other = event.subscriberID then (s.counterOf event.subscriberID).map (· - 1)
      else s.counterOf other := by
  rw [← counterOf_discountSubscription, unsubscribe]
  cases createSubscriptionKey event with
  | error failure => rfl
  | ok id =>
      simp only [removeSubscription]
      cases (s.discountSubscription event.subscriberID).subscribedPrefix.find event.bucketID <;> rfl

/-- The counters are right, and whoever has a slot is known; nobody bears the empty name. -/
structure Ledger (s : PubSub) : Prop where
  counted : s.Counted
  known : ∀ {name : Bytes}, name ≠ [] → s.occurrences name ≠ 0 → s.counterOf name ≠ none
  unnamed : s.counterOf [] = none

theorem new_ledger : new.Ledger where
  counted _ _ hfind := by cases hfind
  known _ hoccurs := absurd rfl hoccurs
  unnamed := rfl

/-- A subscriber that is not known has no slot. -/
theorem Ledger.getD_counterOf (h : s.Ledger) {name : Bytes} (hname : name ≠ []) :
    (s.counterOf name).getD 0 = s.occurrences name := by
  cases hcounter : s.counterOf name with
  | none =>
      by_contra hne
      refine h.known hname ?_ hcounter
      intro hzero
      rw [hzero] at hne
      exact hne rfl
  | some counter => exact counted_iff.1 h.counted name counter hcounter

/-- Only the counters and the slots matter. -/
theorem Ledger.of_eq {s' : PubSub} (h : s.Ledger) (hcounter : s'.counterOf = s.counterOf)
    (hoccurs : s'.occurrences = s.occurrences) : s'.Ledger where
  counted := by
    rw [counted_iff, hcounter, hoccurs]
    exact counted_iff.1 h.counted
  known := by
    rw [hcounter, hoccurs]
    exact h.known
  unnamed := by rw [hcounter, h.unnamed]

/-- One subscriber is counted anew. -/
theorem Ledger.recount {s' : PubSub} (h : s.Ledger) {subscriberID : Bytes}
    (hname : subscriberID ≠ [])
    (hcounter : ∀ other, s'.counterOf other = if other = subscriberID then
      some (s'.occurrences subscriberID : Int) else s.counterOf other)
    (hoccurs : ∀ other, other ≠ subscriberID → s'.occurrences other = s.occurrences other) :
    s'.Ledger where
  counted := by
    rw [counted_iff]
    intro other counter hfound
    rw [hcounter] at hfound
    split_ifs at hfound with heq
    · rw [heq, ← Option.some.inj hfound]
    · rw [hoccurs other heq]
      exact counted_iff.1 h.counted other counter hfound
  known := by
    intro other hother hslots
    rw [hcounter]
    split_ifs with heq
    · exact Option.some_ne_none _
    · rw [hoccurs other heq] at hslots
      exact h.known hother hslots
  unnamed := by rw [hcounter, if_neg hname.symm, h.unnamed]

theorem Ledger.subscribe (h : s.Ledger) (hname : event.subscriberID ≠ []) :
    (s.subscribe event).2.Ledger := by
  rw [PubSub.subscribe]
  cases hid : createSubscriptionKey event with
  | error failure => exact h
  | ok id =>
      have hcounters : (s.addSubscription event id).counterOf = s.counterOf := by
        funext other
        rw [counterOf, counterOf, addSubscription]
        cases event.subscriptionType <;> rfl
      have hslots := occurrences_of_sameTables
        (sameTables_countSubscription (s := s.addSubscription event id) event.subscriberID)
      refine h.recount hname ?_ ?_
      · intro other
        dsimp only
        rw [counterOf_countSubscription, hcounters, h.getD_counterOf hname, hslots,
          occurrences_addSubscription hid, if_pos rfl, Nat.cast_add, Nat.cast_one]
      · intro other hother
        dsimp only
        rw [hslots, occurrences_addSubscription hid, if_neg (Ne.symm hother), Nat.add_zero]

theorem Ledger.subscribeStream (h : s.Ledger) {subscriberID : Bytes} (hname : subscriberID ≠ [])
    (stream : Nat) : (s.subscribeStream subscriberID stream).Ledger := by
  have hslots := occurrences_of_sameTables
    (sameTables_subscribeStream (s := s) subscriberID stream)
  refine h.recount hname ?_ ?_
  · intro other
    rw [counterOf_subscribeStream, h.getD_counterOf hname, hslots]
  · intro other _
    rw [hslots]

theorem Ledger.publish (h : s.Ledger) (object : Object) (broken : Nat → Bool) :
    (s.matchPubSub object broken).2.Ledger :=
  h.of_eq (funext fun other => counterOf_sendToEach broken [] _ other)
    (occurrences_of_sameTables (sameTables_sendToEach broken [] _))

/-- Counters stay right exactly if the subscriber gives up a slot of its own and nobody
else does. -/
theorem Ledger.counted_unsubscribe_iff (h : s.Ledger) (hname : event.subscriberID ≠ []) :
    (s.unsubscribe event).2.Counted ↔ s.EmptiesOwn (.unsubscribe event) := by
  have hslots : ∀ {name : Bytes}, name ≠ [] → (s.unsubscribe event).2.occurrences name +
      (s.emptied event).count name = s.occurrences name := by
    intro name hname
    rw [occurrences_unsubscribe, if_neg hname, Nat.add_zero]
  have hbefore := counted_iff.1 h.counted
  rw [counted_iff]
  simp only [counterOf_unsubscribe]
  constructor
  · intro hafter
    refine ⟨?_, ?_⟩
    · intro hknown
      obtain ⟨streamer, hfind⟩ := Option.ne_none_iff_exists'.1 hknown
      have hcounter : s.counterOf event.subscriberID = some streamer.subscriptionsCounter := by
        rw [counterOf, hfind, Option.map_some]
      have hold := hbefore _ _ hcounter
      have hnew := hafter event.subscriberID (streamer.subscriptionsCounter - 1)
        (by rw [if_pos rfl, hcounter, Option.map_some])
      have hgiven := hslots hname
      omega
    · intro name hmem
      by_contra hother
      obtain ⟨hne, hnonempty⟩ := not_or.1 hother
      have hpos := List.count_pos_iff.2 hmem
      have hgiven := hslots hnonempty
      obtain ⟨counter, hcounter⟩ :=
        Option.ne_none_iff_exists'.1 (h.known hnonempty (by omega))
      have hold := hbefore name counter hcounter
      have hnew := hafter name counter (by rw [if_neg hne, hcounter])
      omega
  · rintro ⟨hown, hnobody⟩ name counter hcounter
    split_ifs at hcounter with heq
    · subst heq
      obtain ⟨old, hold, rfl⟩ := Option.map_eq_some_iff.1 hcounter
      obtain ⟨streamer, hfind, -⟩ := Option.map_eq_some_iff.1 hold
      have hone := hown (by rw [hfind]; exact Option.some_ne_none _)
      have hgiven := hslots hname
      have hcount := hbefore _ _ hold
      omega
    · have hnonempty : name ≠ [] := by
        rintro rfl
        rw [h.unnamed] at hcounter
        cases hcounter
      have hnone : (s.emptied event).count name = 0 :=
        List.count_eq_zero.2 fun hmem => (hnobody name hmem).elim heq hnonempty
      have hgiven := hslots hnonempty
      rw [hbefore name counter hcounter]
      omega

theorem Ledger.unsubscribe (h : s.Ledger) (hname : event.subscriberID ≠ [])
    (hcounted : (s.unsubscribe event).2.Counted) : (s.unsubscribe event).2.Ledger where
  counted := hcounted
  known := by
    intro name hnonempty hoccurs
    have hslots := @occurrences_unsubscribe s event name
    rw [if_neg hnonempty, Nat.add_zero] at hslots
    obtain ⟨counter, hcounter⟩ := Option.ne_none_iff_exists'.1 (h.known hnonempty (by omega))
    rw [counterOf_unsubscribe]
    split_ifs with heq
    · rw [← heq, hcounter]
      exact Option.some_ne_none _
    · rw [hcounter]
      exact Option.some_ne_none _
  unnamed := by rw [counterOf_unsubscribe, if_neg hname.symm, h.unnamed]

/-- Where the counters stay right, a stream is closed with the last subscription. -/
theorem closesLast_of_counted (hcounted : (s.unsubscribe event).2.Counted) :
    s.ClosesLast (.unsubscribe event) := by
  intro subscriberID hopen hclosed
  have hfind : (s.unsubscribe event).2.subscriberStreams.find subscriberID =
      (s.discountSubscription event.subscriberID).subscriberStreams.find subscriberID := by
    rw [PubSub.unsubscribe]
    cases createSubscriptionKey event with
    | error failure => rfl
    | ok id =>
        simp only [removeSubscription]
        cases (s.discountSubscription event.subscriberID).subscribedPrefix.find event.bucketID <;>
          rfl
  rw [find_discountSubscription] at hfind
  rw [openStream, hfind] at hclosed
  rw [openStream] at hopen
  split_ifs at hclosed hfind with heq
  · subst heq
    cases hstreamer : s.subscriberStreams.find event.subscriberID with
    | none => simp [hstreamer] at hopen
    | some streamer =>
        rw [hstreamer] at hclosed hfind hopen
        have hcount := hcounted _ _ hfind
        by_cases hlast : streamer.subscriptionsCounter - 1 ≤ 0
        · simp only at hcount
          omega
        · simp only [Option.map_some, Option.bind_some, if_neg hlast] at hclosed
          simp only [Option.bind_some] at hopen
          exact absurd hclosed hopen
  · exact absurd hclosed hopen

/-- One call: the counters stay right exactly if it gives up no slot it should not. -/
theorem Ledger.perform_iff (h : s.Ledger) {event : PubSubEvent} (hnamed : event.Named) :
    (s.perform event).Counted ↔ s.EmptiesOwn event := by
  cases event with
  | subscribe event => exact iff_of_true (h.subscribe hnamed).counted trivial
  | unsubscribe event => exact h.counted_unsubscribe_iff hnamed
  | subscribeStream subscriberID stream =>
      exact iff_of_true (h.subscribeStream hnamed stream).counted trivial
  | publish object broken => exact iff_of_true (h.publish object broken).counted trivial

theorem Ledger.perform (h : s.Ledger) {event : PubSubEvent} (hnamed : event.Named)
    (hcounted : (s.perform event).Counted) : (s.perform event).Ledger ∧ s.ClosesLast event := by
  cases event with
  | subscribe event => exact ⟨h.subscribe hnamed, trivial⟩
  | unsubscribe event => exact ⟨h.unsubscribe hnamed hcounted, closesLast_of_counted hcounted⟩
  | subscribeStream subscriberID stream => exact ⟨h.subscribeStream hnamed stream, trivial⟩
  | publish object broken => exact ⟨h.publish object broken, trivial⟩

theorem Ledger.run_iff (h : s.Ledger) {events : List PubSubEvent}
    (hnamed : ∀ event ∈ events, event.Named) :
    ((∀ earlier, earlier <+: events → (s.run earlier).Counted) ∧
      Throughout PubSub.perform ClosesLast s events) ↔
        Throughout PubSub.perform EmptiesOwn s events := by
  induction events generalizing s with
  | nil =>
      refine iff_of_true ⟨?_, trivial⟩ trivial
      intro earlier hearlier
      rw [List.prefix_nil.1 hearlier]
      exact h.counted
  | cons event rest ih =>
      have hfirst := hnamed event List.mem_cons_self
      have hlater := fun other hmem => hnamed other (List.mem_cons_of_mem event hmem)
      constructor
      · rintro ⟨hcounted, -, hcloses⟩
        have hnext : (s.perform event).Counted :=
          hcounted [event] (List.prefix_append [event] rest)
        refine ⟨(h.perform_iff hfirst).1 hnext, (ih (h.perform hfirst hnext).1 hlater).1
          ⟨?_, hcloses⟩⟩
        intro earlier hearlier
        exact hcounted (event :: earlier) ((List.prefix_cons_inj event).2 hearlier)
      · rintro ⟨hown, hrest⟩
        have hnext := (h.perform_iff hfirst).2 hown
        obtain ⟨hledger, hcloses⟩ := h.perform hfirst hnext
        obtain ⟨hcounted, hothers⟩ := (ih hledger hlater).2 hrest
        refine ⟨?_, hcloses, hothers⟩
        intro earlier hearlier
        cases earlier with
        | nil => exact h.counted
        | cons first earlier =>
            obtain ⟨rfl, hbegins⟩ := List.cons_prefix_cons.1 hearlier
            exact hcounted earlier hbegins

/-- In every run of calls by subscribers with names: the counters are right in every state
and streams are closed with the last subscription, exactly if every `Unsubscribe` gives up
one slot of its own subscriber and none of anybody else. -/
theorem run_countsHeld_iff (events : List PubSubEvent) (hnamed : ∀ event ∈ events, event.Named) :
    ((∀ earlier, earlier <+: events → (new.run earlier).Counted) ∧
      Throughout perform ClosesLast new events) ↔ Throughout perform EmptiesOwn new events :=
  new_ledger.run_iff hnamed

namespace Sample

/-- Alice gives up the object, then the bucket. -/
def settled : List PubSubEvent :=
  [.subscribeStream alice 1, .subscribe (objectEvent alice), .subscribe (bucketEvent alice),
    .subscribe (bucketEvent bob), .unsubscribe (objectEvent alice),
    .unsubscribe (bucketEvent alice)]

theorem settled_counted :
    (∀ event ∈ settled, event.Named) ∧
      ∀ earlier, earlier <+: settled → (new.run earlier).Counted := by
  have hnamed : ∀ event ∈ settled, event.Named := by decide
  refine ⟨hnamed, ((run_countsHeld_iff settled hnamed).2 ?_).1⟩
  refine ⟨trivial, trivial, trivial, trivial, ⟨fun _ => ?_, ?_⟩, ⟨fun _ => ?_, ?_⟩, trivial⟩
  · decide
  · decide
  · decide
  · decide

/-- Alice gives up something without a type. -/
def untyped : List PubSubEvent :=
  [.subscribeStream alice 1, .subscribe (bucketEvent alice),
    .unsubscribe ⟨.noSubscription, alice, text "data", text ""⟩]

/-- The call fails, the counter is zero and the stream is closed; the slot is still there. -/
theorem untyped_miscounted :
    ¬ ∀ events : List PubSubEvent, (∀ earlier, earlier <+: events → (new.run earlier).Counted) ∧
      Throughout perform ClosesLast new events := by
  intro hall
  obtain ⟨-, hcloses⟩ := hall untyped
  exact absurd (hcloses.2.2.1 alice (by decide) (by decide)) (by decide)

end Sample

end PubSub

end GEDS
