/-
The publish/subscribe service of the Go metadata server.  Subscribers of a
bucket or an object share one table of slices, subscribers of a prefix have
another; a slice is changed in place and never gets shorter.
-/
import GEDS.Library.AssocMap
import GEDS.Object

namespace GEDS

/-- `protos.SubscriptionType` -/
inductive SubscriptionType where
  | noSubscription
  | bucket
  | object
  | keyPrefix
deriving DecidableEq

/-- `protos.SubscriptionEvent` -/
structure SubscriptionEvent where
  subscriptionType : SubscriptionType
  subscriberID : Bytes
  bucketID : Bytes
  key : Bytes
deriving DecidableEq

/-- `SubscriberStream`; the `finished` channel is made together with the stream
and named by it. -/
structure SubscriberStream where
  stream : Option Nat
  subscriptionsCounter : Int

/-- `pubsub.Service`, with the streams whose `finished` channel got a value. -/
structure PubSub where
  subscriberStreams : AssocMap Bytes SubscriberStream
  subscribedItems : AssocMap Bytes (List Bytes)
  subscribedPrefix : AssocMap Bytes (AssocMap Bytes (List Bytes))
  finished : List Nat

def createSubscriptionKey (subscription : SubscriptionEvent) : Except Bytes Bytes :=
  match subscription.subscriptionType with
  | .bucket => .ok subscription.bucketID
  | .object | .keyPrefix => .ok (fullName subscription.bucketID subscription.key)
  | .noSubscription => .error (text "subscription type not found")

def createSubscriptionKeyForMatching (object : Object) : Bytes × Bytes :=
  (object.id.bucket, fullName object.id.bucket object.id.key)

/-- The contents of the slice after `removeElementFromSlice`: the caller keeps
its old length, and a subscriber that is not found has index zero. -/
def removeElementFromSlice (subscribers : List Bytes) (subscriberID : Bytes) :
    List Bytes :=
  let index := (subscribers.idxOf? subscriberID).getD 0
  (subscribers.set index (subscribers.getLastD [])).set (subscribers.length - 1) []

namespace PubSub

def new : PubSub := ⟨AssocMap.empty, AssocMap.empty, AssocMap.empty, []⟩

variable (s : PubSub)

/-- `append` to a slice of a table; a missing slice is `nil`. -/
def appendTo (table : AssocMap Bytes (List Bytes)) (id subscriberID : Bytes) :
    AssocMap Bytes (List Bytes) :=
  table.insert id ((table.find id).getD [] ++ [subscriberID])

/-- The section of `Subscribe` that changes the tables. -/
def addSubscription (subscription : SubscriptionEvent) (subscribedItemID : Bytes) :
    PubSub :=
  match subscription.subscriptionType with
  | .bucket | .object =>
      { s with subscribedItems :=
        appendTo s.subscribedItems subscribedItemID subscription.subscriberID }
  | .keyPrefix =>
      let inBucket := (s.subscribedPrefix.find subscription.bucketID).getD AssocMap.empty
      { s with
        subscribedPrefix := s.subscribedPrefix.insert subscription.bucketID
          (appendTo inBucket subscribedItemID subscription.subscriberID) }
  | .noSubscription => s

/-- The section of `Subscribe` that counts the subscription. -/
def countSubscription (subscriberID : Bytes) : PubSub :=
  let streamer := match s.subscriberStreams.find subscriberID with
    | some streamer =>
        { streamer with subscriptionsCounter := streamer.subscriptionsCounter + 1 }
    | none => ⟨none, 1⟩
  { s with subscriberStreams := s.subscriberStreams.insert subscriberID streamer }

def subscribe (subscription : SubscriptionEvent) : Except Bytes Unit × PubSub :=
  match createSubscriptionKey subscription with
  | .error failure => (.error failure, s)
  | .ok subscribedItemID =>
      (.ok (), (s.addSubscription subscription subscribedItemID).countSubscription
        subscription.subscriberID)

/-- `removeSubscriberStream` on the streamer of a subscriber. -/
def removeSubscriberStream (subscriberID : Bytes) (streamer : SubscriberStream) : PubSub :=
  match streamer.stream with
  | none => s
  | some stream =>
      { s with
        subscriberStreams :=
          s.subscriberStreams.insert subscriberID { streamer with stream := none }
        finished := s.finished ++ [stream] }

/-- The section of `SubscribeStream` that registers the stream. -/
def subscribeStream (subscriberID : Bytes) (stream : Nat) : PubSub :=
  match s.subscriberStreams.find subscriberID with
  | none =>
      { s with subscriberStreams :=
        s.subscriberStreams.insert subscriberID ⟨some stream, 0⟩ }
  | some streamer =>
      let s := s.removeSubscriberStream subscriberID streamer
      { s with subscriberStreams :=
        s.subscriberStreams.insert subscriberID { streamer with stream := some stream } }

/-- The section of `removeSubscriber` that counts, and closes the stream of a
subscriber whose counter is used up. -/
def discountSubscription (subscriberID : Bytes) : PubSub :=
  match s.subscriberStreams.find subscriberID with
  | none => s
  | some streamer =>
      let streamer :=
        { streamer with subscriptionsCounter := streamer.subscriptionsCounter - 1 }
      let s := { s with
        subscriberStreams := s.subscriberStreams.insert subscriberID streamer }
      if streamer.subscriptionsCounter ≤ 0 then
        s.removeSubscriberStream subscriberID streamer
      else s

/-- Remove the subscriber from one slice of a table, if there is one. -/
def removeFrom (table : AssocMap Bytes (List Bytes)) (id subscriberID : Bytes) :
    AssocMap Bytes (List Bytes) :=
  match table.find id with
  | none => table
  | some currentSubscribers =>
      table.insert id (removeElementFromSlice currentSubscribers subscriberID)

/-- The sections of `removeSubscriber` that change the tables: both of them,
whatever the type of the subscription. -/
def removeSubscription (unsubscription : SubscriptionEvent) (subscribedItemID : Bytes) :
    PubSub :=
  let s :=
    { s with
      subscribedItems :=
        removeFrom s.subscribedItems subscribedItemID unsubscription.subscriberID }
  match s.subscribedPrefix.find unsubscription.bucketID with
  | none => s
  | some inBucket =>
      { s with
        subscribedPrefix := s.subscribedPrefix.insert unsubscription.bucketID
          (removeFrom inBucket subscribedItemID unsubscription.subscriberID) }

/-- `Unsubscribe` -/
def unsubscribe (unsubscription : SubscriptionEvent) : Except Bytes Unit × PubSub :=
  let s := s.discountSubscription unsubscription.subscriberID
  match createSubscriptionKey unsubscription with
  | .error failure => (.error failure, s)
  | .ok subscribedItemID => (.ok (), s.removeSubscription unsubscription subscribedItemID)

/-- `sendPublication`: the stream on which `Send` is called, if any; a stream
that fails is closed. -/
def sendPublication (broken : Nat → Bool) (subscriberID : Bytes) : Option Nat × PubSub :=
  match s.subscriberStreams.find subscriberID with
  | none => (none, s)
  | some streamer =>
      match streamer.stream with
      | none => (none, s)
      | some stream =>
          if broken stream then
            (some stream, s.removeSubscriberStream subscriberID streamer)
          else (some stream, s)

/-- The part of `matchPubSub` that collects the subscribers of prefixes.  A Go
map is read in no fixed order; only which subscribers are collected matters
below. -/
def prefixSubscribers (object : Object) : List Bytes :=
  match s.subscribedPrefix.find object.id.bucket with
  | none => []
  | some subscribersInBucket => subscribersInBucket.entries.flatMap fun entry =>
      if entry.1.isPrefixOf (createSubscriptionKeyForMatching object).2 then entry.2
      else []

/-- The subscribers that `matchPubSub` collects; some occur more than once. -/
def matchingSubscribers (object : Object) : List Bytes :=
  let keys := createSubscriptionKeyForMatching object
  (s.subscribedItems.find keys.1).getD [] ++ (s.subscribedItems.find keys.2).getD [] ++
    s.prefixSubscribers object

/-- The loop of `matchPubSub` over the collected subscribers. -/
def sendToEach (broken : Nat → Bool) (sentSubscriptions : List Bytes) (s : PubSub) :
    List Bytes → List Bytes × PubSub
  | [] => ([], s)
  | subscriberID :: rest =>
      if subscriberID ∈ sentSubscriptions then sendToEach broken sentSubscriptions s rest
      else
        let sent := s.sendPublication broken subscriberID
        let after := sendToEach broken (subscriberID :: sentSubscriptions) sent.2 rest
        (if sent.1.isSome then subscriberID :: after.1 else after.1, after.2)

/-- `matchPubSub`: the subscribers on whose streams the publication is sent, in
this order. -/
def matchPubSub (object : Object) (broken : Nat → Bool) : List Bytes × PubSub :=
  sendToEach broken [] s (s.matchingSubscribers object)

end PubSub

/-- What may happen to the service. -/
inductive PubSubEvent where
  | subscribe (subscription : SubscriptionEvent)
  | unsubscribe (unsubscription : SubscriptionEvent)
  | subscribeStream (subscriberID : Bytes) (stream : Nat)
  | publish (object : Object) (broken : Nat → Bool)

namespace PubSub

def perform (s : PubSub) : PubSubEvent → PubSub
  | .subscribe subscription => (s.subscribe subscription).2
  | .unsubscribe unsubscription => (s.unsubscribe unsubscription).2
  | .subscribeStream subscriberID stream => s.subscribeStream subscriberID stream
  | .publish object broken => (s.matchPubSub object broken).2

def run (s : PubSub) (events : List PubSubEvent) : PubSub := events.foldl perform s

end PubSub

end GEDS
