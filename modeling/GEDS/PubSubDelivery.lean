/-
Who gets a publication.  The slices of the two tables are compared with the
subscriptions each subscriber holds; they agree as long as no removal hits the
slot of somebody else.
-/
import GEDS.PubSub
import Mathlib.Data.List.Perm.Basic

namespace GEDS

/-- What can be subscribed to. -/
inductive Subscription where
  | bucket (bucketID : Bytes)
  | object (bucketID key : Bytes)
  | keyPrefix (bucketID key : Bytes)
deriving DecidableEq

namespace Subscription

def bucketID : Subscription → Bytes
  | .bucket bucketID | .object bucketID _ | .keyPrefix bucketID _ => bucketID

/-- The subscription matches publications for the object. -/
def Covers (object : Object) : Subscription → Prop
  | .bucket bucketID => bucketID = object.id.bucket
  | .object bucketID key => bucketID = object.id.bucket ∧ key = object.id.key
  | .keyPrefix bucketID key => bucketID = object.id.bucket ∧ key <+: object.id.key

theorem Covers.bucketID_eq {object : Object} {item : Subscription}
    (hcovers : item.Covers object) : item.bucketID = object.id.bucket := by
  cases item with
  | bucket bucketID => exact hcovers
  | object bucketID key => exact hcovers.1
  | keyPrefix bucketID key => exact hcovers.1

/-- The subscription in the other table that has the same key there. -/
def twin : Subscription → Option Subscription
  | .bucket _ => none
  | .object bucketID key => some (.keyPrefix bucketID key)
  | .keyPrefix bucketID key => some (.object bucketID key)

end Subscription

def SubscriptionEvent.item (event : SubscriptionEvent) : Option Subscription :=
  match event.subscriptionType with
  | .noSubscription => none
  | .bucket => some (.bucket event.bucketID)
  | .object => some (.object event.bucketID event.key)
  | .keyPrefix => some (.keyPrefix event.bucketID event.key)

/-- The bucket names in the event have no separator. -/
def PubSubEvent.Plain : PubSubEvent → Prop
  | .subscribe event | .unsubscribe event => slash ∉ event.bucketID
  | .subscribeStream _ _ | .publish _ _ => True

instance : (event : PubSubEvent) → Decidable event.Plain
  | .subscribe event | .unsubscribe event =>
      inferInstanceAs (Decidable (slash ∉ event.bucketID))
  | .subscribeStream _ _ | .publish _ _ => isTrue trivial

/-- How often each subscriber holds each subscription. -/
abbrev Holdings := Subscription → Bytes → Nat

namespace Holdings

def add (held : Holdings) (item : Subscription) (subscriberID : Bytes) : Holdings :=
  Function.update held item
    (Function.update (held item) subscriberID (held item subscriberID + 1))

/-- Giving up what is not held changes nothing. -/
def drop (held : Holdings) (item : Subscription) (subscriberID : Bytes) : Holdings :=
  Function.update held item
    (Function.update (held item) subscriberID (held item subscriberID - 1))

def perform (held : Holdings) : PubSubEvent → Holdings
  | .subscribe subscription =>
      match subscription.item with
      | none => held
      | some item => held.add item subscription.subscriberID
  | .unsubscribe unsubscription =>
      match unsubscription.item with
      | none => held
      | some item => held.drop item unsubscription.subscriberID
  | .subscribeStream _ _ | .publish _ _ => held

/-- What is held after a sequence of events. -/
def run (held : Holdings) (events : List PubSubEvent) : Holdings :=
  events.foldl perform held

def none : Holdings := fun _ _ => 0

/-- The subscriber holds a subscription that covers the object. -/
def Matches (held : Holdings) (object : Object) (subscriberID : Bytes) : Prop :=
  ∃ item : Subscription, item.Covers object ∧ 0 < held item subscriberID

end Holdings

section Slice

variable {subscribers : List Bytes} {subscriberID : Bytes}

/-- The slot that `removeElementFromSlice` gives up. -/
def slotIndex (subscribers : List Bytes) (subscriberID : Bytes) : Nat :=
  (subscribers.idxOf? subscriberID).getD 0

theorem slotIndex_lt (hne : subscribers ≠ []) (subscriberID : Bytes) :
    slotIndex subscribers subscriberID < subscribers.length := by
  rw [slotIndex]
  cases hidx : subscribers.idxOf? subscriberID with
  | none => exact List.length_pos_iff.mpr hne
  | some index =>
      obtain ⟨hlt, _⟩ := List.idxOf?_eq_some_iff.mp hidx
      exact hlt

/-- The slot is replaced by an empty name; the order of the others may
change. -/
theorem removeElementFromSlice_perm (hne : subscribers ≠ []) (subscriberID : Bytes) :
    (removeElementFromSlice subscribers subscriberID).Perm
      ([] :: subscribers.eraseIdx (slotIndex subscribers subscriberID)) := by
  have hlt := slotIndex_lt hne subscriberID
  rw [removeElementFromSlice]
  change ((subscribers.set (slotIndex subscribers subscriberID) _).set _ []).Perm _
  generalize slotIndex subscribers subscriberID = index at hlt ⊢
  obtain ⟨front, last, rfl⟩ := List.eq_nil_or_concat subscribers |>.resolve_left hne
  simp only [List.concat_eq_append, List.length_append, List.length_singleton,
    Nat.add_sub_cancel] at hlt ⊢
  have hlast : (front ++ [last]).getLastD [] = last := by
    simp [List.getLastD_eq_getLast?]
  have hend : ∀ other : List Bytes, other.length = front.length → ∀ final,
      (other ++ [final]).set front.length ([] : Bytes) = other ++ [[]] := by
    intro other hlength final
    simp [← hlength]
  rw [hlast]
  rcases Nat.lt_succ_iff_lt_or_eq.mp hlt with hfront | rfl
  · -- the last subscriber moves into the slot
    rw [List.set_append_left _ _ hfront, List.eraseIdx_append_of_lt_length hfront,
      hend _ (by simp)]
    refine (List.perm_append_singleton _ _).trans (List.Perm.cons _ ?_)
    refine (List.set_perm_cons_eraseIdx hfront last).trans ?_
    exact (List.perm_append_singleton _ _).symm
  · -- the slot is the last one
    rw [List.set_append_right _ _ le_rfl, List.eraseIdx_append_of_length_le le_rfl]
    simp only [Nat.sub_self, List.set_cons_zero, List.eraseIdx_cons_zero, List.append_nil]
    rw [hend _ rfl]
    exact List.perm_append_singleton _ _

/-- Counting names: the one in the slot goes, an empty one comes. -/
theorem count_removeElementFromSlice (hne : subscribers ≠ [])
    (subscriberID other : Bytes) :
    (removeElementFromSlice subscribers subscriberID).count other +
        (if subscribers.getD (slotIndex subscribers subscriberID) [] = other then 1 else 0) =
      subscribers.count other + if [] = other then 1 else 0 := by
  have hlt := slotIndex_lt hne subscriberID
  have hafter := (removeElementFromSlice_perm hne subscriberID).count_eq other
  have hbefore := (List.getElem_cons_eraseIdx_perm hlt).count_eq other
  rw [List.count_cons] at hafter hbefore
  simp only [List.getD_eq_getElem?_getD, List.getElem?_eq_getElem hlt, Option.getD_some]
  simp only [beq_iff_eq] at hafter hbefore
  omega

theorem slot_of_mem (hmem : subscriberID ∈ subscribers) :
    subscribers.getD (slotIndex subscribers subscriberID) [] = subscriberID := by
  obtain ⟨index, hindex⟩ := Option.isSome_iff_exists.mp (List.isSome_idxOf?.mpr hmem)
  obtain ⟨hlt, hget, _⟩ := List.idxOf?_eq_some_iff.mp hindex
  simp only [slotIndex, hindex, Option.getD_some, List.getD_eq_getElem?_getD,
    List.getElem?_eq_getElem hlt, hget]

theorem slot_of_not_mem (hmem : subscriberID ∉ subscribers) :
    subscribers.getD (slotIndex subscribers subscriberID) [] = subscribers.headD [] := by
  rw [slotIndex, List.idxOf?_eq_none_iff.mpr hmem]
  cases subscribers <;> rfl

/-- The removal hits the subscriber itself or a slot that is free. -/
def DropsOwn (subscribers : List Bytes) (subscriberID : Bytes) : Prop :=
  subscriberID ∈ subscribers ∨ subscribers.headD [] = []

/-- The removal hits a slot that is free. -/
def DropsNone (subscribers : List Bytes) (subscriberID : Bytes) : Prop :=
  (subscriberID ∈ subscribers → subscriberID = []) ∧
    (subscriberID ∉ subscribers → subscribers.headD [] = [])

instance : Decidable (DropsOwn subscribers subscriberID) :=
  inferInstanceAs (Decidable (_ ∨ _))

instance : Decidable (DropsNone subscribers subscriberID) :=
  inferInstanceAs (Decidable ((_ → _) ∧ (_ → _)))

/-- Names other than the empty one are counted as before, except that the
subscriber loses one slot if it has any. -/
theorem DropsOwn.count (hdrops : DropsOwn subscribers subscriberID) {other : Bytes}
    (hother : other ≠ []) :
    (removeElementFromSlice subscribers subscriberID).count other =
      if other = subscriberID then subscribers.count other - 1
      else subscribers.count other := by
  by_cases hmem : subscriberID ∈ subscribers
  · have hcount := count_removeElementFromSlice (List.ne_nil_of_mem hmem) subscriberID other
    rw [slot_of_mem hmem, if_neg hother.symm] at hcount
    by_cases heq : other = subscriberID
    · rw [if_pos heq.symm] at hcount
      rw [if_pos heq]
      omega
    · rw [if_neg (Ne.symm heq)] at hcount
      rw [if_neg heq]
      omega
  · have hhead := hdrops.resolve_left hmem
    by_cases hne : subscribers = []
    · subst hne
      by_cases heq : other = subscriberID <;> simp [removeElementFromSlice, heq]
    · have hcount := count_removeElementFromSlice hne subscriberID other
      rw [slot_of_not_mem hmem, hhead, if_neg hother.symm] at hcount
      by_cases heq : other = subscriberID
      · have hzero : subscribers.count other = 0 :=
          List.count_eq_zero.mpr (heq ▸ hmem)
        rw [if_pos heq]
        omega
      · rw [if_neg heq]
        omega

theorem DropsNone.count (hdrops : DropsNone subscribers subscriberID) (other : Bytes) :
    (removeElementFromSlice subscribers subscriberID).count other =
      subscribers.count other := by
  obtain ⟨hfound, hmissing⟩ := hdrops
  by_cases hne : subscribers = []
  · subst hne
    simp [removeElementFromSlice]
  · have hslot : subscribers.getD (slotIndex subscribers subscriberID) [] = [] := by
      by_cases hmem : subscriberID ∈ subscribers
      · rw [slot_of_mem hmem, hfound hmem]
      · rw [slot_of_not_mem hmem, hmissing hmem]
    have hcount := count_removeElementFromSlice hne subscriberID other
    rw [hslot] at hcount
    omega

/-- Free slots are never taken away. -/
theorem count_nil_le_removeElementFromSlice :
    subscribers.count [] ≤ (removeElementFromSlice subscribers subscriberID).count [] := by
  by_cases hne : subscribers = []
  · simp [hne]
  · have hcount := count_removeElementFromSlice hne subscriberID []
    rw [if_pos rfl] at hcount
    split_ifs at hcount <;> omega

end Slice

namespace PubSub

/-- The slice of a subscription; a missing one is empty. -/
def slots (s : PubSub) : Subscription → List Bytes
  | .bucket bucketID => (s.subscribedItems.find bucketID).getD []
  | .object bucketID key => (s.subscribedItems.find (fullName bucketID key)).getD []
  | .keyPrefix bucketID key =>
      ((s.subscribedPrefix.find bucketID).bind (·.find (fullName bucketID key))).getD []

/-- A bucket name without a separator is not the full name of an object. -/
theorem ne_fullName {bucketID bucketID' key : Bytes} (hslash : slash ∉ bucketID) :
    bucketID ≠ fullName bucketID' key := by
  rintro rfl
  exact hslash (List.mem_append_right _ List.mem_cons_self)

theorem find_appendTo (table : AssocMap Bytes (List Bytes)) (id subscriberID other : Bytes) :
    ((appendTo table id subscriberID).find other).getD [] =
      if other = id then (table.find id).getD [] ++ [subscriberID]
      else (table.find other).getD [] := by
  rw [appendTo, AssocMap.find_insert]
  split_ifs <;> rfl

theorem find_removeFrom (table : AssocMap Bytes (List Bytes))
    (id subscriberID other : Bytes) :
    ((removeFrom table id subscriberID).find other).getD [] =
      if other = id then removeElementFromSlice ((table.find id).getD []) subscriberID
      else (table.find other).getD [] := by
  rw [removeFrom]
  cases hfind : table.find id with
  | none =>
      split_ifs with hother
      · rw [hother, hfind]
        rfl
      · rfl
  | some subscribers =>
      rw [AssocMap.find_insert]
      split_ifs <;> rfl

variable {s : PubSub} {event : SubscriptionEvent} {item : Subscription}

/-- A new subscription takes one more slot of its own slice. -/
theorem slots_addSubscription (hitem : event.item = some item)
    (hslash : slash ∉ event.bucketID) {other : Subscription}
    (hother : slash ∉ other.bucketID) {id : Bytes}
    (hid : createSubscriptionKey event = .ok id) :
    (s.addSubscription event id).slots other =
      if other = item then s.slots item ++ [event.subscriberID] else s.slots other := by
  obtain ⟨type, subscriberID, bucketID, key⟩ := event
  cases type with
  | noSubscription => simp [SubscriptionEvent.item] at hitem
  | bucket =>
      obtain rfl := Option.some.inj hitem
      obtain rfl := Except.ok.inj hid
      cases other with
      | bucket bucketID' => simp [addSubscription, slots, find_appendTo]
      | object bucketID' key' =>
          have hne : fullName bucketID' key' ≠ bucketID := (ne_fullName hslash).symm
          simp [addSubscription, slots, find_appendTo, hne]
      | keyPrefix bucketID' key' => simp [addSubscription, slots]
  | object =>
      obtain rfl := Option.some.inj hitem
      obtain rfl := Except.ok.inj hid
      cases other with
      | bucket bucketID' =>
          have hne : bucketID' ≠ fullName bucketID key := ne_fullName hother
          simp [addSubscription, slots, find_appendTo, hne]
      | object bucketID' key' =>
          have heq : fullName bucketID' key' = fullName bucketID key ↔
              bucketID' = bucketID ∧ key' = key := fullName_inj hother hslash
          simp [addSubscription, slots, find_appendTo, heq]
      | keyPrefix bucketID' key' => simp [addSubscription, slots]
  | keyPrefix =>
      obtain rfl := Option.some.inj hitem
      obtain rfl := Except.ok.inj hid
      cases other with
      | bucket bucketID' => simp [addSubscription, slots]
      | object bucketID' key' => simp [addSubscription, slots]
      | keyPrefix bucketID' key' =>
          by_cases hbucket : bucketID' = bucketID
          · subst hbucket
            simp only [addSubscription, slots, AssocMap.find_insert, ↓reduceIte,
              Option.bind_some, find_appendTo, fullName_inj_right,
              Subscription.keyPrefix.injEq, true_and]
            cases s.subscribedPrefix.find bucketID' <;> rfl
          · simp [addSubscription, slots, hbucket]

theorem subscribedItems_removeSubscription (id name : Bytes) :
    ((s.removeSubscription event id).subscribedItems.find name).getD [] =
      if name = id then
        removeElementFromSlice ((s.subscribedItems.find name).getD []) event.subscriberID
      else (s.subscribedItems.find name).getD [] := by
  have htable : (s.removeSubscription event id).subscribedItems =
      removeFrom s.subscribedItems id event.subscriberID := by
    rw [removeSubscription]
    cases s.subscribedPrefix.find event.bucketID <;> rfl
  rw [htable, find_removeFrom]
  split_ifs with hname
  · rw [hname]
  · rfl

theorem subscribedPrefix_removeSubscription (id bucketID name : Bytes) :
    (((s.removeSubscription event id).subscribedPrefix.find bucketID).bind
        (·.find name)).getD [] =
      if bucketID = event.bucketID ∧ name = id then
        removeElementFromSlice
          (((s.subscribedPrefix.find bucketID).bind (·.find name)).getD [])
          event.subscriberID
      else ((s.subscribedPrefix.find bucketID).bind (·.find name)).getD [] := by
  rw [removeSubscription]
  by_cases hbucket : bucketID = event.bucketID
  · subst hbucket
    cases hfind : s.subscribedPrefix.find event.bucketID with
    | none =>
        simp only [hfind, Option.bind_none, Option.getD_none]
        split_ifs <;> rfl
    | some inBucket =>
        simp only [AssocMap.find_insert, ↓reduceIte, Option.bind_some, find_removeFrom,
          true_and]
        split_ifs with hname
        · rw [hname]
        · rfl
  · simp only [hbucket, false_and, ↓reduceIte]
    cases s.subscribedPrefix.find event.bucketID with
    | none => rfl
    | some inBucket => simp [hbucket]

/-- Objects and prefixes of the same name share one identifier, so the slices of
both are changed. -/
theorem slots_removeSubscription_fullName (hslash : slash ∉ event.bucketID)
    {other : Subscription} (hother : slash ∉ other.bucketID) :
    (s.removeSubscription event (fullName event.bucketID event.key)).slots other =
      if other = .object event.bucketID event.key ∨
          other = .keyPrefix event.bucketID event.key then
        removeElementFromSlice (s.slots other) event.subscriberID
      else s.slots other := by
  cases other with
  | bucket bucketID' =>
      have hne : bucketID' ≠ fullName event.bucketID event.key := ne_fullName hother
      simp [slots, subscribedItems_removeSubscription, hne]
  | object bucketID' key' =>
      have hinj : fullName bucketID' key' = fullName event.bucketID event.key ↔
          bucketID' = event.bucketID ∧ key' = event.key := fullName_inj hother hslash
      simp only [slots, subscribedItems_removeSubscription, hinj,
        Subscription.object.injEq, reduceCtorEq, or_false]
  | keyPrefix bucketID' key' =>
      have hinj : fullName bucketID' key' = fullName event.bucketID event.key ↔
          bucketID' = event.bucketID ∧ key' = event.key := fullName_inj hother hslash
      have hboth : bucketID' = event.bucketID ∧
          fullName bucketID' key' = fullName event.bucketID event.key ↔
            bucketID' = event.bucketID ∧ key' = event.key := by
        rw [hinj]
        tauto
      simp only [slots, subscribedPrefix_removeSubscription, hboth,
        Subscription.keyPrefix.injEq, reduceCtorEq, false_or]

/-- The identifier of a bucket names no object and no prefix. -/
theorem slots_removeSubscription_bucket (hslash : slash ∉ event.bucketID)
    (other : Subscription) :
    (s.removeSubscription event event.bucketID).slots other =
      if other = .bucket event.bucketID then
        removeElementFromSlice (s.slots other) event.subscriberID
      else s.slots other := by
  cases other with
  | bucket bucketID' =>
      simp only [slots, subscribedItems_removeSubscription, Subscription.bucket.injEq]
  | object bucketID' key' =>
      have hne : fullName bucketID' key' ≠ event.bucketID := (ne_fullName hslash).symm
      simp [slots, subscribedItems_removeSubscription, hne]
  | keyPrefix bucketID' key' =>
      have hne : fullName bucketID' key' ≠ event.bucketID := (ne_fullName hslash).symm
      simp [slots, subscribedPrefix_removeSubscription, hne]

/-- Giving up a subscription removes the subscriber from its own slice and from
that of the twin. -/
theorem slots_removeSubscription (hitem : event.item = some item)
    (hslash : slash ∉ event.bucketID) {other : Subscription}
    (hother : slash ∉ other.bucketID) {id : Bytes}
    (hid : createSubscriptionKey event = .ok id) :
    (s.removeSubscription event id).slots other =
      if other = item ∨ item.twin = some other then
        removeElementFromSlice (s.slots other) event.subscriberID
      else s.slots other := by
  have hfull := @slots_removeSubscription_fullName s event hslash other hother
  have hbucket := @slots_removeSubscription_bucket s event hslash other
  obtain ⟨type, subscriberID, bucketID, key⟩ := event
  cases type with
  | noSubscription => simp [SubscriptionEvent.item] at hitem
  | bucket =>
      obtain rfl := Option.some.inj hitem
      obtain rfl := Except.ok.inj hid
      rw [hbucket]
      simp [Subscription.twin]
  | object =>
      obtain rfl := Option.some.inj hitem
      obtain rfl := Except.ok.inj hid
      rw [hfull]
      simp [Subscription.twin, eq_comm]
  | keyPrefix =>
      obtain rfl := Option.some.inj hitem
      obtain rfl := Except.ok.inj hid
      rw [hfull]
      simp [Subscription.twin, eq_comm, or_comm]

/-- The two tables of slices, which streams never change. -/
def SameTables (s s' : PubSub) : Prop :=
  s'.subscribedItems = s.subscribedItems ∧ s'.subscribedPrefix = s.subscribedPrefix

theorem SameTables.slots_eq {s' : PubSub} (hsame : SameTables s s') : s'.slots = s.slots := by
  funext item
  cases item <;> simp [slots, hsame.1, hsame.2]

theorem SameTables.trans {s' s'' : PubSub} (hfirst : SameTables s s')
    (hsecond : SameTables s' s'') : SameTables s s'' :=
  ⟨hsecond.1.trans hfirst.1, hsecond.2.trans hfirst.2⟩

theorem sameTables_countSubscription (subscriberID : Bytes) :
    SameTables s (s.countSubscription subscriberID) := ⟨rfl, rfl⟩

theorem sameTables_removeSubscriberStream (subscriberID : Bytes)
    (streamer : SubscriberStream) :
    SameTables s (s.removeSubscriberStream subscriberID streamer) := by
  rw [removeSubscriberStream]
  cases streamer.stream <;> exact ⟨rfl, rfl⟩

theorem sameTables_subscribeStream (subscriberID : Bytes) (stream : Nat) :
    SameTables s (s.subscribeStream subscriberID stream) := by
  rw [subscribeStream]
  cases s.subscriberStreams.find subscriberID with
  | none => exact ⟨rfl, rfl⟩
  | some streamer => exact sameTables_removeSubscriberStream subscriberID streamer

theorem sameTables_discountSubscription (subscriberID : Bytes) :
    SameTables s (s.discountSubscription subscriberID) := by
  rw [discountSubscription]
  cases s.subscriberStreams.find subscriberID with
  | none => exact ⟨rfl, rfl⟩
  | some streamer =>
      simp only
      split_ifs
      · refine SameTables.trans ?_ (sameTables_removeSubscriberStream subscriberID _)
        exact ⟨rfl, rfl⟩
      · exact ⟨rfl, rfl⟩

theorem sameTables_sendPublication (broken : Nat → Bool) (subscriberID : Bytes) :
    SameTables s (s.sendPublication broken subscriberID).2 := by
  rw [sendPublication]
  cases s.subscriberStreams.find subscriberID with
  | none => exact ⟨rfl, rfl⟩
  | some streamer =>
      cases hstream : streamer.stream with
      | none =>
          simp only [hstream]
          exact ⟨rfl, rfl⟩
      | some stream =>
          simp only [hstream]
          split_ifs
          · exact sameTables_removeSubscriberStream subscriberID streamer
          · exact ⟨rfl, rfl⟩

theorem sendToEach_cons (broken : Nat → Bool) (sentSubscriptions : List Bytes)
    (subscriberID : Bytes) (rest : List Bytes) :
    sendToEach broken sentSubscriptions s (subscriberID :: rest) =
      if subscriberID ∈ sentSubscriptions then sendToEach broken sentSubscriptions s rest
      else
        (if (s.sendPublication broken subscriberID).1.isSome then
          subscriberID :: (sendToEach broken (subscriberID :: sentSubscriptions)
            (s.sendPublication broken subscriberID).2 rest).1
        else (sendToEach broken (subscriberID :: sentSubscriptions)
          (s.sendPublication broken subscriberID).2 rest).1,
        (sendToEach broken (subscriberID :: sentSubscriptions)
          (s.sendPublication broken subscriberID).2 rest).2) := rfl

theorem sameTables_sendToEach (broken : Nat → Bool) (sentSubscriptions : List Bytes)
    (subscribers : List Bytes) :
    SameTables s (sendToEach broken sentSubscriptions s subscribers).2 := by
  induction subscribers generalizing s sentSubscriptions with
  | nil => exact ⟨rfl, rfl⟩
  | cons subscriberID rest ih =>
      rw [sendToEach_cons]
      by_cases hsent : subscriberID ∈ sentSubscriptions
      · rw [if_pos hsent]
        exact ih sentSubscriptions
      · rw [if_neg hsent]
        exact (sameTables_sendPublication broken subscriberID).trans (ih _)

/-- Prefixes are filed under full names of their own bucket. -/
def PrefixesNamed (s : PubSub) : Prop :=
  ∀ bucketID inBucket id, s.subscribedPrefix.find bucketID = some inBucket →
    inBucket.find id ≠ none → ∃ key, id = fullName bucketID key

theorem PrefixesNamed.of_sameTables {s' : PubSub} (hnamed : s.PrefixesNamed)
    (hsame : SameTables s s') : s'.PrefixesNamed := by
  intro bucketID inBucket id hfind
  rw [hsame.2] at hfind
  exact hnamed bucketID inBucket id hfind

theorem PrefixesNamed.addSubscription (hnamed : s.PrefixesNamed)
    {id : Bytes} (hid : createSubscriptionKey event = .ok id) :
    (s.addSubscription event id).PrefixesNamed := by
  obtain ⟨type, subscriberID, bucketID, key⟩ := event
  cases type with
  | noSubscription => exact hnamed
  | bucket => exact hnamed
  | object => exact hnamed
  | keyPrefix =>
      obtain rfl := Except.ok.inj hid
      intro bucketID' inBucket id hfind hsome
      simp only [PubSub.addSubscription, AssocMap.find_insert] at hfind
      split_ifs at hfind with hbucket
      · subst hbucket
        obtain rfl := Option.some.inj hfind
        rw [appendTo, AssocMap.find_insert] at hsome
        split_ifs at hsome with hname
        · exact ⟨key, hname⟩
        · cases hold : s.subscribedPrefix.find bucketID' with
          | none => simp [hold] at hsome
          | some inBucket =>
              rw [hold] at hsome
              exact hnamed bucketID' inBucket id hold hsome
      · exact hnamed bucketID' inBucket id hfind hsome

theorem PrefixesNamed.removeSubscription (hnamed : s.PrefixesNamed) (id : Bytes) :
    (s.removeSubscription event id).PrefixesNamed := by
  intro bucketID inBucket name hfind hsome
  rw [PubSub.removeSubscription] at hfind
  cases hold : s.subscribedPrefix.find event.bucketID with
  | none =>
      simp only [hold] at hfind
      exact hnamed bucketID inBucket name hfind hsome
  | some old =>
      simp only [hold, AssocMap.find_insert] at hfind
      split_ifs at hfind with hbucket
      · subst hbucket
        obtain rfl := Option.some.inj hfind
        apply hnamed _ old name hold
        rw [removeFrom] at hsome
        cases hslice : old.find id with
        | none => simpa [hslice] using hsome
        | some subscribers =>
            simp only [hslice, AssocMap.find_insert] at hsome
            split_ifs at hsome with hname
            · rw [hname, hslice]
              exact Option.some_ne_none _
            · exact hsome
      · exact hnamed bucketID inBucket name hfind hsome

theorem mem_prefixSubscribers_iff (hnamed : s.PrefixesNamed) (object : Object)
    (subscriberID : Bytes) :
    subscriberID ∈ s.prefixSubscribers object ↔
      ∃ key, key <+: object.id.key ∧
        subscriberID ∈ s.slots (.keyPrefix object.id.bucket key) := by
  rw [prefixSubscribers]
  cases hfind : s.subscribedPrefix.find object.id.bucket with
  | none => simp [slots, hfind]
  | some inBucket =>
      have hstarts : ∀ key, (fullName object.id.bucket key).isPrefixOf
          (createSubscriptionKeyForMatching object).2 = true ↔ key <+: object.id.key := by
        intro key
        rw [createSubscriptionKeyForMatching, List.isPrefixOf_iff_prefix, fullName, fullName,
          List.prefix_append_right_inj, List.cons_prefix_cons]
        exact and_iff_right rfl
      simp only [List.mem_flatMap, slots, hfind, Option.bind_some]
      constructor
      · rintro ⟨entry, hentry, hmem⟩
        have hslice := (AssocMap.find_eq_some_iff inBucket entry.1 entry.2).mpr hentry
        have hsome : inBucket.find entry.1 ≠ none := by
          rw [hslice]
          exact Option.some_ne_none _
        obtain ⟨key, hkey⟩ := hnamed _ inBucket entry.1 hfind hsome
        rw [hkey] at hslice hmem
        split_ifs at hmem with hstart
        · exact ⟨key, (hstarts key).mp hstart, by simpa [hslice] using hmem⟩
        · simp at hmem
      · rintro ⟨key, hkey, hmem⟩
        cases hslice : inBucket.find (fullName object.id.bucket key) with
        | none => simp [hslice] at hmem
        | some subscribers =>
            rw [hslice] at hmem
            refine ⟨(fullName object.id.bucket key, subscribers),
              (AssocMap.find_eq_some_iff _ _ _).mp hslice, ?_⟩
            simpa [(hstarts key).mpr hkey] using hmem

/-- The collected subscribers are those with a slot in a slice that covers the
object. -/
theorem mem_matchingSubscribers_iff (hnamed : s.PrefixesNamed) (object : Object)
    (subscriberID : Bytes) :
    subscriberID ∈ s.matchingSubscribers object ↔
      ∃ item : Subscription, item.Covers object ∧ subscriberID ∈ s.slots item := by
  rw [matchingSubscribers, List.mem_append, List.mem_append,
    mem_prefixSubscribers_iff hnamed]
  constructor
  · rintro ((hmem | hmem) | ⟨key, hkey, hmem⟩)
    · exact ⟨.bucket object.id.bucket, rfl, hmem⟩
    · exact ⟨.object object.id.bucket object.id.key, ⟨rfl, rfl⟩, hmem⟩
    · exact ⟨.keyPrefix object.id.bucket key, ⟨rfl, hkey⟩, hmem⟩
  · rintro ⟨item, hcovers, hmem⟩
    cases item with
    | bucket bucketID =>
        obtain rfl : bucketID = object.id.bucket := hcovers
        exact Or.inl (Or.inl hmem)
    | object bucketID key =>
        obtain ⟨rfl, rfl⟩ : bucketID = object.id.bucket ∧ key = object.id.key := hcovers
        exact Or.inl (Or.inr hmem)
    | keyPrefix bucketID key =>
        obtain ⟨rfl, hkey⟩ : bucketID = object.id.bucket ∧ key <+: object.id.key := hcovers
        exact Or.inr ⟨key, hkey, hmem⟩

/-- Each slice counts what its subscribers hold.  The empty name also marks
free slots, so it may be counted too often. -/
structure Tracks (s : PubSub) (held : Holdings) : Prop where
  named : s.PrefixesNamed
  count : ∀ {item : Subscription}, slash ∉ item.bucketID → ∀ {subscriberID : Bytes},
    subscriberID ≠ [] → (s.slots item).count subscriberID = held item subscriberID
  empty : ∀ {item : Subscription}, slash ∉ item.bucketID →
    held item [] ≤ (s.slots item).count []

theorem new_tracks : new.Tracks Holdings.none := by
  have hslots : ∀ item, new.slots item = [] := by
    intro item
    cases item <;> rfl
  refine ⟨?_, ?_, ?_⟩
  · intro bucketID inBucket id hfind
    exact absurd hfind (Option.some_ne_none inBucket).symm
  · intro item _ subscriberID _
    rw [hslots]
    rfl
  · intro item _
    exact Nat.zero_le _

theorem Tracks.of_sameTables {s' : PubSub} {held : Holdings} (h : s.Tracks held)
    (hsame : SameTables s s') : s'.Tracks held := by
  refine ⟨h.named.of_sameTables hsame, ?_, ?_⟩
  · intro item hslash subscriberID hname
    rw [hsame.slots_eq]
    exact h.count hslash hname
  · intro item hslash
    rw [hsame.slots_eq]
    exact h.empty hslash

/-- A subscription event with a type has an item and a key. -/
theorem createSubscriptionKey_of_item (hitem : event.item = some item) :
    ∃ id, createSubscriptionKey event = .ok id ∧ item.bucketID = event.bucketID := by
  obtain ⟨type, subscriberID, bucketID, key⟩ := event
  cases type with
  | noSubscription => simp [SubscriptionEvent.item] at hitem
  | bucket => exact ⟨_, rfl, Option.some.inj hitem ▸ rfl⟩
  | object => exact ⟨_, rfl, Option.some.inj hitem ▸ rfl⟩
  | keyPrefix => exact ⟨_, rfl, Option.some.inj hitem ▸ rfl⟩

theorem createSubscriptionKey_of_none (hitem : event.item = none) :
    createSubscriptionKey event = .error (text "subscription type not found") := by
  obtain ⟨type, subscriberID, bucketID, key⟩ := event
  cases type with
  | noSubscription => rfl
  | bucket => simp [SubscriptionEvent.item] at hitem
  | object => simp [SubscriptionEvent.item] at hitem
  | keyPrefix => simp [SubscriptionEvent.item] at hitem

theorem Tracks.subscribe {held : Holdings} (h : s.Tracks held)
    (hslash : slash ∉ event.bucketID) :
    (s.subscribe event).2.Tracks (held.perform (.subscribe event)) := by
  cases hitem : event.item with
  | none =>
      simp only [PubSub.subscribe, createSubscriptionKey_of_none hitem, Holdings.perform,
        hitem]
      exact h
  | some item =>
      obtain ⟨id, hid, _⟩ := createSubscriptionKey_of_item hitem
      simp only [PubSub.subscribe, hid, Holdings.perform, hitem]
      apply Tracks.of_sameTables _ (sameTables_countSubscription _)
      have hslots := @slots_addSubscription s event item hitem hslash
      refine ⟨h.named.addSubscription hid, ?_, ?_⟩
      · intro other hother subscriberID hname
        rw [hslots hother hid, Holdings.add]
        by_cases heq : other = item
        · subst heq
          rw [if_pos rfl, Function.update_self, List.count_append, h.count hother hname]
          by_cases hsub : subscriberID = event.subscriberID
          · simp [hsub]
          · have hne : event.subscriberID ≠ subscriberID := Ne.symm hsub
            simp [hsub, hne]
        · rw [if_neg heq, Function.update_of_ne heq]
          exact h.count hother hname
      · intro other hother
        rw [hslots hother hid, Holdings.add]
        by_cases heq : other = item
        · subst heq
          have hold := h.empty hother
          rw [if_pos rfl, Function.update_self, List.count_append]
          by_cases hsub : [] = event.subscriberID
          · simp only [← hsub, Function.update_self, List.count_singleton_self]
            omega
          · rw [Function.update_of_ne hsub]
            omega
        · rw [if_neg heq, Function.update_of_ne heq]
          exact h.empty hother

/-- The event hits no slot of a subscription that is still held. -/
def Harmless (s : PubSub) : PubSubEvent → Prop
  | .unsubscribe event =>
      ∀ item ∈ event.item, DropsOwn (s.slots item) event.subscriberID ∧
        ∀ twin ∈ item.twin, DropsNone (s.slots twin) event.subscriberID
  | .subscribe _ | .subscribeStream _ _ | .publish _ _ => True

instance (s : PubSub) : (event : PubSubEvent) → Decidable (s.Harmless event)
  | .unsubscribe event =>
      inferInstanceAs (Decidable (∀ item ∈ event.item, _ ∧ ∀ twin ∈ item.twin, _))
  | .subscribe _ | .subscribeStream _ _ | .publish _ _ => isTrue trivial

/-- A harmless removal takes from each slice what the subscriber gives up. -/
theorem Tracks.removeSubscription {held : Holdings} (h : s.Tracks held)
    (hitem : event.item = some item) (hslash : slash ∉ event.bucketID) {id : Bytes}
    (hid : createSubscriptionKey event = .ok id)
    (hown : DropsOwn (s.slots item) event.subscriberID)
    (htwin : ∀ twin ∈ item.twin, DropsNone (s.slots twin) event.subscriberID) :
    (s.removeSubscription event id).Tracks (held.drop item event.subscriberID) := by
  have hslots := @slots_removeSubscription s event item hitem hslash
  refine ⟨h.named.removeSubscription id, ?_, ?_⟩
  · intro other hother subscriberID hname
    have hcount := h.count hother hname
    rw [hslots hother hid, Holdings.drop]
    by_cases heq : other = item
    · subst heq
      rw [if_pos (Or.inl rfl), Function.update_self, hown.count hname, hcount]
      by_cases hsub : subscriberID = event.subscriberID
      · rw [if_pos hsub, hsub, Function.update_self]
      · rw [if_neg hsub, Function.update_of_ne hsub]
    · rw [Function.update_of_ne heq]
      by_cases htwins : item.twin = some other
      · rw [if_pos (Or.inr htwins), (htwin other htwins).count]
        exact hcount
      · rw [if_neg (not_or.mpr ⟨heq, htwins⟩)]
        exact hcount
  · intro other hother
    have hempty := h.empty hother
    have hless : held.drop item event.subscriberID other [] ≤ held other [] := by
      rw [Holdings.drop]
      by_cases heq : other = item
      · subst heq
        rw [Function.update_self]
        by_cases hsub : [] = event.subscriberID
        · rw [← hsub, Function.update_self]
          exact Nat.sub_le _ _
        · rw [Function.update_of_ne hsub]
      · rw [Function.update_of_ne heq]
    rw [hslots hother hid]
    split_ifs
    · exact hless.trans (hempty.trans count_nil_le_removeElementFromSlice)
    · exact hless.trans hempty

theorem Tracks.unsubscribe {held : Holdings} (h : s.Tracks held)
    (hslash : slash ∉ event.bucketID) (hharmless : s.Harmless (.unsubscribe event)) :
    (s.unsubscribe event).2.Tracks (held.perform (.unsubscribe event)) := by
  have hdiscount := sameTables_discountSubscription (s := s) event.subscriberID
  cases hitem : event.item with
  | none =>
      simp only [PubSub.unsubscribe, createSubscriptionKey_of_none hitem, Holdings.perform,
        hitem]
      exact h.of_sameTables hdiscount
  | some item =>
      obtain ⟨id, hid, _⟩ := createSubscriptionKey_of_item hitem
      simp only [PubSub.unsubscribe, hid, Holdings.perform, hitem]
      obtain ⟨hown, htwin⟩ := hharmless item hitem
      rw [← hdiscount.slots_eq] at hown htwin
      have hbefore := h.of_sameTables hdiscount
      generalize s.discountSubscription event.subscriberID = current at *
      exact hbefore.removeSubscription hitem hslash hid hown htwin

theorem Tracks.perform {held : Holdings} (h : s.Tracks held) {event : PubSubEvent}
    (hplain : event.Plain) (hharmless : s.Harmless event) :
    (s.perform event).Tracks (held.perform event) := by
  cases event with
  | subscribe event => exact h.subscribe hplain
  | unsubscribe event => exact h.unsubscribe hplain hharmless
  | subscribeStream subscriberID stream =>
      exact h.of_sameTables (sameTables_subscribeStream subscriberID stream)
  | publish object broken =>
      exact h.of_sameTables (sameTables_sendToEach broken [] (s.matchingSubscribers object))

/-- A run in which no event is harmful. -/
def HarmlessFrom (s : PubSub) : List PubSubEvent → Prop
  | [] => True
  | event :: rest => s.Harmless event ∧ (s.perform event).HarmlessFrom rest

instance decidableHarmlessFrom : (s : PubSub) → (events : List PubSubEvent) →
    Decidable (s.HarmlessFrom events)
  | _, [] => isTrue trivial
  | s, event :: rest =>
      have := decidableHarmlessFrom (s.perform event) rest
      inferInstanceAs (Decidable (s.Harmless event ∧ (s.perform event).HarmlessFrom rest))

theorem Tracks.run {events : List PubSubEvent} {held : Holdings} (h : s.Tracks held)
    (hplain : ∀ event ∈ events, event.Plain) (hharmless : s.HarmlessFrom events) :
    (s.run events).Tracks (held.run events) := by
  induction events generalizing s held with
  | nil => exact h
  | cons event rest ih =>
      obtain ⟨hfirst, hrest⟩ := hharmless
      have hnext := h.perform (hplain event List.mem_cons_self) hfirst
      exact ih hnext (fun event hmem => hplain event (List.mem_cons_of_mem _ hmem)) hrest

/-- The open stream of a subscriber. -/
def openStream (s : PubSub) (subscriberID : Bytes) : Option Nat :=
  (s.subscriberStreams.find subscriberID).bind (·.stream)

theorem sendPublication_fst (broken : Nat → Bool) (subscriberID : Bytes) :
    (s.sendPublication broken subscriberID).1 = s.openStream subscriberID := by
  rw [sendPublication, openStream]
  cases s.subscriberStreams.find subscriberID with
  | none => rfl
  | some streamer =>
      cases hstream : streamer.stream with
      | none => simp [hstream]
      | some stream =>
          simp only [hstream, Option.bind_some]
          split_ifs <;> rfl

/-- A broken stream costs nobody else's stream. -/
theorem openStream_sendPublication (broken : Nat → Bool) {subscriberID other : Bytes}
    (hne : other ≠ subscriberID) :
    (s.sendPublication broken subscriberID).2.openStream other = s.openStream other := by
  rw [sendPublication]
  cases s.subscriberStreams.find subscriberID with
  | none => rfl
  | some streamer =>
      cases hstream : streamer.stream with
      | none => simp only [hstream]
      | some stream =>
          simp only [hstream]
          split_ifs
          · simp [openStream, removeSubscriberStream, hstream, hne]
          · rfl

/-- The loop sends once to every subscriber of the list that has a stream and
was not served before. -/
theorem count_sendToEach (broken : Nat → Bool) (sentSubscriptions subscribers : List Bytes)
    (other : Bytes) :
    (sendToEach broken sentSubscriptions s subscribers).1.count other =
      if other ∉ sentSubscriptions ∧ other ∈ subscribers ∧ (s.openStream other).isSome
      then 1 else 0 := by
  induction subscribers generalizing s sentSubscriptions with
  | nil =>
      rw [if_neg (fun h => List.not_mem_nil h.2.1)]
      rfl
  | cons subscriberID rest ih =>
      rw [sendToEach_cons]
      by_cases hsent : subscriberID ∈ sentSubscriptions
      · rw [if_pos hsent, ih]
        have hskip : other ∉ sentSubscriptions → other ≠ subscriberID := by
          rintro hother rfl
          exact hother hsent
        congr 1
        simp only [List.mem_cons, eq_iff_iff]
        tauto
      · rw [if_neg hsent]
        simp only [sendPublication_fst]
        by_cases heq : other = subscriberID
        · subst heq
          have hrest := ih (s := (s.sendPublication broken other).2)
            (other :: sentSubscriptions)
          rw [if_neg (fun h => h.1 List.mem_cons_self)] at hrest
          by_cases hopen : (s.openStream other).isSome
          · rw [if_pos hopen, List.count_cons_self, hrest,
              if_pos ⟨hsent, List.mem_cons_self, hopen⟩]
          · rw [if_neg hopen, hrest, if_neg (fun h => hopen h.2.2)]
        · have hrest := ih (s := (s.sendPublication broken subscriberID).2)
            (subscriberID :: sentSubscriptions)
          rw [openStream_sendPublication broken heq] at hrest
          have hhead : ∀ sent : List Bytes,
              (if (s.openStream subscriberID).isSome then subscriberID :: sent
                else sent).count other = sent.count other := by
            intro sent
            split_ifs
            · exact List.count_cons_of_ne (Ne.symm heq)
            · rfl
          rw [hhead, hrest]
          simp [heq]

/-- `matchPubSub` sends the publication once to each subscriber that has a
stream and holds a matching subscription, and to nobody else. -/
def Delivers (s : PubSub) (held : Holdings) (object : Object) : Prop :=
  ∀ (broken : Nat → Bool) (subscriberID : Bytes),
    ((s.openStream subscriberID).isSome ∧ held.Matches object subscriberID →
      (s.matchPubSub object broken).1.count subscriberID = 1) ∧
    (¬ ((s.openStream subscriberID).isSome ∧ held.Matches object subscriberID) →
      subscriberID ∉ (s.matchPubSub object broken).1)

/-- A free slot, which bears the empty name, is not taken for a subscription: the
empty name has no stream, or holds a matching subscription itself, or no slice
that covers the object has a free slot. -/
def FreeSlotsUnread (s : PubSub) (held : Holdings) (object : Object) : Prop :=
  (s.openStream []).isSome → held.Matches object [] ∨
    ∀ item : Subscription, item.Covers object → (s.slots item).count [] = held item []

/-- A subscriber with a stream is collected exactly if it holds a subscription
that covers the object. -/
theorem Tracks.mem_matchingSubscribers_iff {held : Holdings} (h : s.Tracks held)
    {object : Object} (hslash : slash ∉ object.id.bucket)
    (hfree : s.FreeSlotsUnread held object) {subscriberID : Bytes}
    (hopen : (s.openStream subscriberID).isSome) :
    subscriberID ∈ s.matchingSubscribers object ↔ held.Matches object subscriberID := by
  rw [PubSub.mem_matchingSubscribers_iff h.named]
  have hplain : ∀ {item : Subscription}, item.Covers object → slash ∉ item.bucketID := by
    intro item hcovers
    rw [Subscription.Covers.bucketID_eq hcovers]
    exact hslash
  have hheld : ∀ {item : Subscription}, item.Covers object →
      0 < held item subscriberID → subscriberID ∈ s.slots item := by
    intro item hcovers hpos
    apply List.count_pos_iff.mp
    by_cases hname : subscriberID = []
    · subst hname
      exact hpos.trans_le (h.empty (hplain hcovers))
    · rw [h.count (hplain hcovers) hname]
      exact hpos
  constructor
  · rintro ⟨item, hcovers, hmem⟩
    have hpos := List.count_pos_iff.mpr hmem
    by_cases hname : subscriberID = []
    · subst hname
      rcases hfree hopen with hmatches | hnone
      · exact hmatches
      · exact ⟨item, hcovers, hnone item hcovers ▸ hpos⟩
    · exact ⟨item, hcovers, h.count (hplain hcovers) hname ▸ hpos⟩
  · rintro ⟨item, hcovers, hpos⟩
    exact ⟨item, hcovers, hheld hcovers hpos⟩

theorem Tracks.delivers {held : Holdings} (h : s.Tracks held) {object : Object}
    (hslash : slash ∉ object.id.bucket) (hfree : s.FreeSlotsUnread held object) :
    s.Delivers held object := by
  intro broken subscriberID
  have hcount := count_sendToEach (s := s) broken [] (s.matchingSubscribers object)
    subscriberID
  rw [← matchPubSub] at hcount
  constructor
  · rintro ⟨hopen, hmatches⟩
    have hmem := (h.mem_matchingSubscribers_iff hslash hfree hopen).mpr hmatches
    rw [hcount, if_pos ⟨List.not_mem_nil, hmem, hopen⟩]
  · intro hnone
    apply List.count_eq_zero.mp
    rw [hcount, if_neg]
    rintro ⟨_, hmem, hopen⟩
    exact hnone ⟨hopen, (h.mem_matchingSubscribers_iff hslash hfree hopen).mp hmem⟩

/-- In every run in which no removal hits a subscription that is still held,
publications reach the holders of matching subscriptions and nobody else. -/
theorem run_delivers (events : List PubSubEvent) (hplain : ∀ event ∈ events, event.Plain)
    (hharmless : new.HarmlessFrom events) (object : Object)
    (hslash : slash ∉ object.id.bucket)
    (hfree : (new.run events).FreeSlotsUnread (Holdings.none.run events) object) :
    (new.run events).Delivers (Holdings.none.run events) object :=
  (new_tracks.run hplain hharmless).delivers hslash hfree

namespace Sample

def alice : Bytes := text "alice"

def bob : Bytes := text "bob"

def object : Object := ⟨⟨text "data", text "key"⟩, ⟨text "geds://node", 1, 1, none⟩⟩

def objectEvent (subscriberID : Bytes) : SubscriptionEvent :=
  ⟨.object, subscriberID, text "data", text "key"⟩

def bucketEvent (subscriberID : Bytes) : SubscriptionEvent :=
  ⟨.bucket, subscriberID, text "data", text ""⟩

/-- Alice holds the object twice over, Bob gives up the bucket. -/
def orderly : List PubSubEvent :=
  [.subscribeStream alice 1, .subscribeStream bob 2, .subscribe (objectEvent alice),
    .subscribe (bucketEvent alice), .subscribe (bucketEvent bob),
    .subscribe (bucketEvent bob), .unsubscribe (bucketEvent bob),
    .unsubscribe (bucketEvent bob)]

theorem orderly_delivers :
    (∀ event ∈ orderly, event.Plain) ∧ new.HarmlessFrom orderly ∧
      (new.run orderly).Delivers (Holdings.none.run orderly) object := by
  have hplain : ∀ event ∈ orderly, event.Plain := by
    decide
  have hharmless : new.HarmlessFrom orderly := by
    decide
  refine ⟨hplain, hharmless, run_delivers orderly hplain hharmless object (by decide) ?_⟩
  intro hopen
  exact absurd hopen (by decide)

/-- Bob gives up what he does not hold. -/
def disorderly : List PubSubEvent :=
  [.subscribeStream alice 1, .subscribe (objectEvent alice), .unsubscribe (objectEvent bob)]

/-- The removal takes the first slot, which is Alice's. -/
theorem disorderly_not_delivers :
    (∀ event ∈ disorderly, event.Plain) ∧ slash ∉ object.id.bucket ∧
      ¬ (new.run disorderly).Delivers (Holdings.none.run disorderly) object := by
  refine ⟨by decide, by decide, ?_⟩
  intro hdelivers
  have hmatches : (Holdings.none.run disorderly).Matches object alice :=
    ⟨.object (text "data") (text "key"), ⟨rfl, rfl⟩, by decide⟩
  have honce := (hdelivers (fun _ => false) alice).1 ⟨by decide, hmatches⟩
  exact absurd honce (by decide)

end Sample

end PubSub

end GEDS
