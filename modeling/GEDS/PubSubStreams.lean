/-
The streams of the publish/subscribe service, section by section.  The table gives a pointer
to the streamer of a subscriber; a reconnect changes the streamer in place, under a lock that
`sendPublication` holds neither while it reads the stream nor while it sends.
-/
import GEDS.Library.AssocMap
import GEDS.Library.Heap
import GEDS.Object

namespace GEDS

/-- `SubscriberStream`; a stream has the number of the `SubscribeStream` call it belongs to,
and so has the channel that the call made. -/
structure Streamer where
  stream : Option Nat
  finished : Option Nat
  subscriptionsCounter : Int

instance : Inhabited Streamer := ⟨⟨none, none, 0⟩⟩

/-- `chan bool`: how many values were sent on it, and how many were received. -/
structure FinishedChannel where
  sent : Nat
  received : Nat

/-- The buffer of `make(chan bool, 2)` has no room. -/
def FinishedChannel.full (channel : FinishedChannel) : Bool :=
  decide (2 ≤ channel.sent - channel.received)

/-- Where a call of `SubscribeStream` stands. -/
inductive HandlerPhase where
  | notCalled
  | waiting
  | returned
deriving DecidableEq

/-- Where a call of `sendPublication` stands: with the pointer to the streamer, after the
first and the second test of its stream, in `Send`, and behind a `Send` that failed. -/
inductive SendPhase where
  | notCalled
  | fetched (streamer : Nat)
  | found (streamer : Nat)
  | foundAgain (streamer : Nat)
  | sending (streamer stream : Nat)
  | failed (streamer stream : Nat)
  | returned

/-- What stops the service: a send on a channel that blocks under the lock, or `Send` called
on a stream that is `nil` by then. -/
inductive Halt where
  | blocked
  | panicked
deriving DecidableEq

/-- The part of `pubsub.Service` that `subscribersStreamLock` protects, with the calls. -/
structure StreamService where
  streamers : Heap Streamer
  subscriberStreams : AssocMap Bytes Nat
  channels : Nat → FinishedChannel
  handlers : Nat → HandlerPhase
  sends : Nat → SendPhase
  halted : Option Halt

/-- What may happen next. -/
inductive StreamEvent where
  | subscribe (subscriberID : Bytes)
  | unsubscribe (subscriberID : Bytes)
  | subscribeStream (handler : Nat) (subscriberID : Bytes)
  | receive (handler : Nat)
  | contextDone (handler : Nat)
  | sendPublication (send : Nat) (subscriberID : Bytes)
  | proceed (send : Nat)
  | sendReturns (send : Nat) (ok : Bool)
  | cleanUp (send : Nat)

namespace StreamService

def new : StreamService :=
  ⟨Heap.empty, AssocMap.empty, fun _ => ⟨0, 0⟩, fun _ => .notCalled, fun _ => .notCalled, none⟩

variable (s : StreamService)

def setStreamer (ref : Nat) (streamer : Streamer) : StreamService :=
  { s with streamers := s.streamers.set ref streamer }

def setCounter (ref : Nat) (subscriptionsCounter : Int) : StreamService :=
  s.setStreamer ref
    { s.streamers.get ref with subscriptionsCounter := subscriptionsCounter }

/-- A new streamer in the table. -/
def allocStreamer (subscriberID : Bytes) (streamer : Streamer) : StreamService :=
  { s with
    streamers := s.streamers.alloc streamer
    subscriberStreams := s.subscriberStreams.insert subscriberID s.streamers.next }

/-- `channel <- true`; `none` is the `nil` channel, on which a send blocks as well. -/
def signal : Option Nat → StreamService
  | none => { s with halted := some .blocked }
  | some channel =>
      if (s.channels channel).full then { s with halted := some .blocked }
      else
        { s with
          channels := Function.update s.channels channel
            ⟨(s.channels channel).sent + 1, (s.channels channel).received⟩ }

/-- `removeSubscriberStream`; the stream is cleared when the send on the channel is over. -/
def removeSubscriberStream (ref : Nat) : StreamService :=
  match (s.streamers.get ref).stream with
  | none => s
  | some _ =>
      let s := s.signal (s.streamers.get ref).finished
      if s.halted.isSome then s
      else s.setStreamer ref { s.streamers.get ref with stream := none }

/-- The section of `Subscribe` that counts the subscription. -/
def subscribe (subscriberID : Bytes) : StreamService :=
  match s.subscriberStreams.find subscriberID with
  | some ref => s.setCounter ref ((s.streamers.get ref).subscriptionsCounter + 1)
  | none => s.allocStreamer subscriberID ⟨none, none, 1⟩

/-- The section of `removeSubscriber` that counts. -/
def unsubscribe (subscriberID : Bytes) : StreamService :=
  match s.subscriberStreams.find subscriberID with
  | none => s
  | some ref =>
      let s := s.setCounter ref ((s.streamers.get ref).subscriptionsCounter - 1)
      if (s.streamers.get ref).subscriptionsCounter ≤ 0 then s.removeSubscriberStream ref
      else s

/-- The stream and the channel of a call are put into the streamer. -/
def register (ref handler : Nat) : StreamService :=
  let s := s.setStreamer ref
    { s.streamers.get ref with stream := some handler, finished := some handler }
  { s with handlers := Function.update s.handlers handler .waiting }

/-- The section of `SubscribeStream` that registers the stream of the call. -/
def subscribeStream (handler : Nat) (subscriberID : Bytes) : StreamService :=
  match s.handlers handler with
  | .waiting | .returned => s
  | .notCalled =>
      match s.subscriberStreams.find subscriberID with
      | none =>
          let s := s.allocStreamer subscriberID ⟨some handler, some handler, 0⟩
          { s with handlers := Function.update s.handlers handler .waiting }
      | some ref =>
          let s := s.removeSubscriberStream ref
          if s.halted.isSome then s else s.register ref handler

/-- `case <-finished` -/
def receive (handler : Nat) : StreamService :=
  if s.handlers handler = .waiting ∧
      (s.channels handler).received < (s.channels handler).sent then
    { s with
      channels := Function.update s.channels handler
        ⟨(s.channels handler).sent, (s.channels handler).received + 1⟩
      handlers := Function.update s.handlers handler .returned }
  else s

/-- `case <-context.Done()` -/
def contextDone (handler : Nat) : StreamService :=
  if s.handlers handler = .waiting then
    { s with handlers := Function.update s.handlers handler .returned }
  else s

def setSend (send : Nat) (phase : SendPhase) : StreamService :=
  { s with sends := Function.update s.sends send phase }

/-- The section of `sendPublication` under the read lock. -/
def sendPublication (send : Nat) (subscriberID : Bytes) : StreamService :=
  match s.sends send with
  | .notCalled =>
      match s.subscriberStreams.find subscriberID with
      | none => s.setSend send .returned
      | some ref => s.setSend send (.fetched ref)
  | _ => s

/-- `sendPublication` reads the stream of the streamer: in two tests, and to call `Send`. -/
def proceed (send : Nat) : StreamService :=
  match s.sends send with
  | .fetched ref =>
      match (s.streamers.get ref).stream with
      | none => s.setSend send .returned
      | some _ => s.setSend send (.found ref)
  | .found ref =>
      match (s.streamers.get ref).stream with
      | none => s.setSend send .returned
      | some _ => s.setSend send (.foundAgain ref)
  | .foundAgain ref =>
      match (s.streamers.get ref).stream with
      | none => { s with halted := some .panicked }
      | some stream => s.setSend send (.sending ref stream)
  | _ => s

/-- `Send` returns. -/
def sendReturns (send : Nat) (ok : Bool) : StreamService :=
  match s.sends send with
  | .sending ref stream =>
      if ok then s.setSend send .returned else s.setSend send (.failed ref stream)
  | _ => s

/-- `removeSubscriberStreamWithLock` after a `Send` that failed. -/
def cleanUp (send : Nat) : StreamService :=
  match s.sends send with
  | .failed ref _ =>
      let s := s.removeSubscriberStream ref
      if s.halted.isSome then s else s.setSend send .returned
  | _ => s

def perform : StreamEvent → StreamService
  | .subscribe subscriberID => s.subscribe subscriberID
  | .unsubscribe subscriberID => s.unsubscribe subscriberID
  | .subscribeStream handler subscriberID => s.subscribeStream handler subscriberID
  | .receive handler => s.receive handler
  | .contextDone handler => s.contextDone handler
  | .sendPublication send subscriberID => s.sendPublication send subscriberID
  | .proceed send => s.proceed send
  | .sendReturns send ok => s.sendReturns send ok
  | .cleanUp send => s.cleanUp send

/-- Nothing happens any more in a service that has stopped. -/
def step (event : StreamEvent) : StreamService :=
  if s.halted.isSome then s else s.perform event

def run (events : List StreamEvent) : StreamService := events.foldl step s

variable {s}

/-- The stream in a streamer is that of a call that has registered it there, and nothing was
sent on the channel of that call so far. -/
structure Sound (s : StreamService) : Prop where
  named : ∀ {ref stream : Nat}, (s.streamers.get ref).stream = some stream →
    (s.streamers.get ref).finished = some stream ∧ s.handlers stream ≠ .notCalled ∧
      (s.channels stream).sent = 0
  unique : ∀ {ref ref' stream : Nat}, (s.streamers.get ref).stream = some stream →
    (s.streamers.get ref').stream = some stream → ref = ref'
  fresh : ∀ {handler : Nat}, s.handlers handler = .notCalled → (s.channels handler).sent = 0
  once : ∀ channel, (s.channels channel).sent ≤ 1
  unblocked : s.halted ≠ some .blocked

theorem new_sound : new.Sound where
  named hstream := by simp [new, Heap.empty, default] at hstream
  unique hstream := by simp [new, Heap.empty, default] at hstream
  fresh _ := rfl
  once _ := Nat.zero_le 1
  unblocked := by simp [new]

/-- Where every streamer has the stream it had, or none, and nothing is sent, all stays as
it is. -/
theorem Sound.of_streams {s' : StreamService} (h : s.Sound)
    (hstream : ∀ {ref stream : Nat}, (s'.streamers.get ref).stream = some stream →
      (s.streamers.get ref).stream = some stream ∧
        (s'.streamers.get ref).finished = (s.streamers.get ref).finished)
    (hsent : ∀ channel, (s'.channels channel).sent = (s.channels channel).sent)
    (hhandlers : ∀ {handler : Nat}, s'.handlers handler = .notCalled ↔
      s.handlers handler = .notCalled)
    (hhalted : s'.halted ≠ some .blocked) : s'.Sound := by
  refine ⟨?_, ?_, ?_, ?_, hhalted⟩
  · intro ref stream hafter
    obtain ⟨hbefore, hfinished⟩ := hstream hafter
    obtain ⟨hown, hcalled, hnone⟩ := h.named hbefore
    exact ⟨hfinished.trans hown, fun hnot => hcalled (hhandlers.1 hnot), (hsent _).trans hnone⟩
  · intro ref ref' stream hafter hafter'
    exact h.unique (hstream hafter).1 (hstream hafter').1
  · intro handler hnot
    rw [hsent]
    exact h.fresh (hhandlers.1 hnot)
  · intro channel
    rw [hsent]
    exact h.once channel

theorem get_setStreamer (ref : Nat) (streamer : Streamer) (other : Nat) :
    (s.setStreamer ref streamer).streamers.get other =
      if other = ref then streamer else s.streamers.get other := by
  by_cases heq : other = ref
  · subst heq
    rw [if_pos rfl]
    exact Heap.get_set_self _ _ _
  · rw [if_neg heq]
    exact Heap.get_set_of_ne _ _ heq

theorem get_allocStreamer (subscriberID : Bytes) (streamer : Streamer) (other : Nat) :
    (s.allocStreamer subscriberID streamer).streamers.get other =
      if other = s.streamers.next then streamer else s.streamers.get other := by
  by_cases heq : other = s.streamers.next
  · subst heq
    rw [if_pos rfl]
    exact Heap.get_alloc_next _ _
  · rw [if_neg heq]
    exact Heap.get_alloc_of_ne _ _ heq

theorem Sound.setCounter (h : s.Sound) (ref : Nat) (counter : Int) :
    (s.setCounter ref counter).Sound := by
  refine h.of_streams ?_ (fun _ => rfl) Iff.rfl h.unblocked
  intro other stream hstream
  rw [StreamService.setCounter, get_setStreamer] at hstream ⊢
  split_ifs at hstream ⊢ with heq
  · subst heq
    exact ⟨hstream, rfl⟩
  · exact ⟨hstream, rfl⟩

theorem Sound.setSend (h : s.Sound) (send : Nat) (phase : SendPhase) :
    (s.setSend send phase).Sound :=
  h.of_streams (fun hstream => ⟨hstream, rfl⟩) (fun _ => rfl) Iff.rfl h.unblocked

theorem Sound.allocStreamer (h : s.Sound) (subscriberID : Bytes) (counter : Int) :
    (s.allocStreamer subscriberID ⟨none, none, counter⟩).Sound := by
  refine h.of_streams ?_ (fun _ => rfl) Iff.rfl h.unblocked
  intro ref stream hstream
  rw [get_allocStreamer] at hstream ⊢
  split_ifs at hstream ⊢
  exact ⟨hstream, rfl⟩

/-- `removeSubscriberStream` signals the stream of the streamer, and its send goes through. -/
theorem Sound.removeSubscriberStream_eq (h : s.Sound) {ref stream : Nat}
    (hstream : (s.streamers.get ref).stream = some stream) (hhalted : s.halted = none) :
    s.removeSubscriberStream ref = { s with
      streamers := s.streamers.set ref { s.streamers.get ref with stream := none }
      channels := Function.update s.channels stream ⟨1, (s.channels stream).received⟩ } := by
  obtain ⟨hfinished, -, hsent⟩ := h.named hstream
  have hroom : (s.channels stream).full = false := by
    simp [FinishedChannel.full, hsent]
  simp [removeSubscriberStream, hstream, hfinished, signal, hroom, hhalted, setStreamer, hsent]

theorem removeSubscriberStream_of_none {ref : Nat}
    (hstream : (s.streamers.get ref).stream = none) : s.removeSubscriberStream ref = s := by
  simp only [removeSubscriberStream, hstream]

/-- What `removeSubscriberStream` has nothing to do with. -/
theorem Sound.removeSubscriberStream_keeps (h : s.Sound) (hhalted : s.halted = none) (ref : Nat) :
    (s.removeSubscriberStream ref).subscriberStreams = s.subscriberStreams ∧
      (s.removeSubscriberStream ref).sends = s.sends ∧
      ((s.removeSubscriberStream ref).streamers.get ref).subscriptionsCounter =
        (s.streamers.get ref).subscriptionsCounter := by
  cases hstream : (s.streamers.get ref).stream with
  | none =>
      rw [removeSubscriberStream_of_none hstream]
      exact ⟨rfl, rfl, rfl⟩
  | some stream =>
      rw [h.removeSubscriberStream_eq hstream hhalted]
      refine ⟨rfl, rfl, ?_⟩
      rw [Heap.get_set_self]

/-- What `removeSubscriberStream` leaves. -/
theorem Sound.removeSubscriberStream (h : s.Sound) (hhalted : s.halted = none) (ref : Nat) :
    (s.removeSubscriberStream ref).Sound ∧ (s.removeSubscriberStream ref).halted = none ∧
      ((s.removeSubscriberStream ref).streamers.get ref).stream = none ∧
      (s.removeSubscriberStream ref).handlers = s.handlers := by
  cases hstream : (s.streamers.get ref).stream with
  | none =>
      rw [removeSubscriberStream_of_none hstream]
      exact ⟨h, hhalted, hstream, rfl⟩
  | some stream =>
      rw [h.removeSubscriberStream_eq hstream hhalted]
      have hget : ∀ other, (s.streamers.set ref
          { s.streamers.get ref with stream := none }).get other =
          if other = ref then { s.streamers.get ref with stream := none }
          else s.streamers.get other := get_setStreamer ref _
      refine ⟨⟨?_, ?_, ?_, ?_, h.unblocked⟩, hhalted, ?_, rfl⟩
      · intro other found hfound
        simp only [hget] at hfound ⊢
        split_ifs at hfound ⊢ with hne
        have hother : found ≠ stream := by
          rintro rfl
          exact hne (h.unique hfound hstream)
        rw [Function.update_of_ne hother]
        exact h.named hfound
      · intro other other' found hfound hfound'
        simp only [hget] at hfound hfound'
        split_ifs at hfound hfound'
        exact h.unique hfound hfound'
      · intro handler hnot
        have hother : handler ≠ stream := by
          rintro rfl
          exact (h.named hstream).2.1 hnot
        simp only [Function.update_of_ne hother]
        exact h.fresh hnot
      · intro channel
        by_cases heq : channel = stream
        · subst heq
          simp only [Function.update_self, le_refl]
        · simp only [Function.update_of_ne heq]
          exact h.once channel
      · simp only [hget, ↓reduceIte]

/-- A call that was not made before puts its stream where there is none. -/
theorem Sound.registered {s' : StreamService} (h : s.Sound) (own : Nat) {handler : Nat}
    (hnot : s.handlers handler = .notCalled)
    (hget : ∀ ref, ref ≠ own → s'.streamers.get ref = s.streamers.get ref)
    (hstream : (s'.streamers.get own).stream = some handler)
    (hfinished : (s'.streamers.get own).finished = some handler)
    (hchannels : s'.channels = s.channels)
    (hhandlers : s'.handlers = Function.update s.handlers handler .waiting)
    (hhalted : s'.halted = s.halted) : s'.Sound := by
  have hother : ∀ {ref stream : Nat}, ref ≠ own → (s'.streamers.get ref).stream = some stream →
      (s.streamers.get ref).stream = some stream ∧ stream ≠ handler := by
    intro ref stream hne hfound
    rw [hget ref hne] at hfound
    refine ⟨hfound, ?_⟩
    rintro rfl
    exact (h.named hfound).2.1 hnot
  refine ⟨?_, ?_, ?_, ?_, by rw [hhalted]; exact h.unblocked⟩
  · intro ref stream hfound
    rw [hchannels, hhandlers]
    by_cases hown : ref = own
    · subst hown
      obtain rfl := Option.some.inj (hstream.symm.trans hfound)
      refine ⟨hfinished, ?_, h.fresh hnot⟩
      rw [Function.update_self]
      exact HandlerPhase.noConfusion
    · obtain ⟨hbefore, hne⟩ := hother hown hfound
      rw [hget ref hown, Function.update_of_ne hne]
      exact h.named hbefore
  · intro ref ref' stream hfound hfound'
    by_cases hown : ref = own
    · by_cases hown' : ref' = own
      · rw [hown, hown']
      · rw [hown] at hfound
        exact absurd (Option.some.inj (hfound.symm.trans hstream)) (hother hown' hfound').2
    · by_cases hown' : ref' = own
      · rw [hown'] at hfound'
        exact absurd (Option.some.inj (hfound'.symm.trans hstream)) (hother hown hfound).2
      · exact h.unique (hother hown hfound).1 (hother hown' hfound').1
  · intro other hfree
    rw [hchannels]
    rw [hhandlers, Function.update_apply] at hfree
    split_ifs at hfree
    exact h.fresh hfree
  · rw [hchannels]
    exact h.once

theorem Sound.subscribeStream (h : s.Sound) (hhalted : s.halted = none) (handler : Nat)
    (subscriberID : Bytes) : (s.subscribeStream handler subscriberID).Sound := by
  rw [StreamService.subscribeStream]
  cases hnot : s.handlers handler with
  | waiting => exact h
  | returned => exact h
  | notCalled =>
      cases hfind : s.subscriberStreams.find subscriberID with
      | none =>
          refine h.registered s.streamers.next hnot ?_ ?_ ?_ rfl rfl rfl
          · intro ref hne
            exact Heap.get_alloc_of_ne _ _ hne
          · exact congrArg Streamer.stream (Heap.get_alloc_next _ _)
          · exact congrArg Streamer.finished (Heap.get_alloc_next _ _)
      | some ref =>
          obtain ⟨hremoved, hrunning, -, hhandlers⟩ := h.removeSubscriberStream hhalted ref
          simp only [hrunning, Option.isSome_none, Bool.false_eq_true, ↓reduceIte]
          refine hremoved.registered ref (hhandlers ▸ hnot) ?_ ?_ ?_ rfl rfl rfl
          · intro other hne
            exact Heap.get_set_of_ne _ _ hne
          · exact congrArg Streamer.stream (Heap.get_set_self _ _ _)
          · exact congrArg Streamer.finished (Heap.get_set_self _ _ _)

theorem Sound.receive (h : s.Sound) (handler : Nat) : (s.receive handler).Sound := by
  rw [StreamService.receive]
  split_ifs with hready
  · refine h.of_streams (fun hstream => ⟨hstream, rfl⟩) ?_ ?_ h.unblocked
    · intro channel
      by_cases heq : channel = handler
      · subst heq
        simp only [Function.update_self]
      · simp only [Function.update_of_ne heq]
    · intro other
      by_cases heq : other = handler
      · subst heq
        simp [hready.1]
      · simp only [Function.update_of_ne heq]
  · exact h

theorem Sound.contextDone (h : s.Sound) (handler : Nat) : (s.contextDone handler).Sound := by
  rw [StreamService.contextDone]
  split_ifs with hwaiting
  · refine h.of_streams (fun hstream => ⟨hstream, rfl⟩) (fun _ => rfl) ?_ h.unblocked
    intro other
    by_cases heq : other = handler
    · subst heq
      simp [hwaiting]
    · simp only [Function.update_of_ne heq]
  · exact h

theorem Sound.proceed (h : s.Sound) (send : Nat) : (s.proceed send).Sound := by
  rw [StreamService.proceed]
  cases s.sends send with
  | fetched ref =>
      dsimp only
      cases (s.streamers.get ref).stream <;> exact h.setSend send _
  | found ref =>
      dsimp only
      cases (s.streamers.get ref).stream <;> exact h.setSend send _
  | foundAgain ref =>
      dsimp only
      cases (s.streamers.get ref).stream with
      | none =>
          exact h.of_streams (fun hstream => ⟨hstream, rfl⟩) (fun _ => rfl) Iff.rfl (by simp)
      | some stream => exact h.setSend send _
  | notCalled => exact h
  | sending ref stream => exact h
  | failed ref stream => exact h
  | returned => exact h

theorem Sound.sendPublication (h : s.Sound) (send : Nat) (subscriberID : Bytes) :
    (s.sendPublication send subscriberID).Sound := by
  rw [StreamService.sendPublication]
  split
  · cases s.subscriberStreams.find subscriberID <;> exact h.setSend send _
  · exact h

theorem Sound.sendReturns (h : s.Sound) (send : Nat) (ok : Bool) :
    (s.sendReturns send ok).Sound := by
  rw [StreamService.sendReturns]
  split
  · cases ok <;> exact h.setSend send _
  · exact h

theorem Sound.subscribe (h : s.Sound) (subscriberID : Bytes) :
    (s.subscribe subscriberID).Sound := by
  rw [StreamService.subscribe]
  cases s.subscriberStreams.find subscriberID with
  | none => exact h.allocStreamer subscriberID 1
  | some ref => exact h.setCounter ref _

theorem Sound.unsubscribe (h : s.Sound) (hhalted : s.halted = none) (subscriberID : Bytes) :
    (s.unsubscribe subscriberID).Sound := by
  rw [StreamService.unsubscribe]
  cases s.subscriberStreams.find subscriberID with
  | none => exact h
  | some ref =>
      have hcounted := h.setCounter ref ((s.streamers.get ref).subscriptionsCounter - 1)
      dsimp only
      split_ifs
      · exact (hcounted.removeSubscriberStream hhalted ref).1
      · exact hcounted

theorem Sound.cleanUp (h : s.Sound) (hhalted : s.halted = none) (send : Nat) :
    (s.cleanUp send).Sound := by
  rw [StreamService.cleanUp]
  split
  · rename_i ref stream hsend
    obtain ⟨hremoved, hrunning, -, -⟩ := h.removeSubscriberStream hhalted ref
    simp only [hrunning, Option.isSome_none, Bool.false_eq_true, ↓reduceIte]
    exact hremoved.setSend send _
  · exact h

theorem Sound.step (h : s.Sound) (event : StreamEvent) : (s.step event).Sound := by
  rw [StreamService.step]
  cases hhalted : s.halted with
  | some halt => exact h
  | none =>
      cases event with
      | subscribe subscriberID => exact h.subscribe subscriberID
      | unsubscribe subscriberID => exact h.unsubscribe hhalted subscriberID
      | subscribeStream handler subscriberID =>
          exact h.subscribeStream hhalted handler subscriberID
      | receive handler => exact h.receive handler
      | contextDone handler => exact h.contextDone handler
      | sendPublication send subscriberID => exact h.sendPublication send subscriberID
      | proceed send => exact h.proceed send
      | sendReturns send ok => exact h.sendReturns send ok
      | cleanUp send => exact h.cleanUp hhalted send

theorem Sound.run (h : s.Sound) (events : List StreamEvent) : (s.run events).Sound := by
  induction events generalizing s with
  | nil => exact h
  | cons event rest ih => exact ih (h.step event)

/-- In every interleaving each channel gets one value at most, and the service never stands
in a send on one of them. -/
theorem run_signalsOnce (events : List StreamEvent) :
    (∀ channel, ((new.run events).channels channel).sent ≤ 1) ∧
      (new.run events).halted ≠ some .blocked :=
  ⟨(new_sound.run events).once, (new_sound.run events).unblocked⟩

end StreamService

end GEDS
