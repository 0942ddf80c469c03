/-
One call after the other.  Calls that nothing interrupts do in their sections what the model
of whole calls says, on the streamers that the table points to.
-/
import GEDS.PubSubDelivery
import GEDS.PubSubStreams

namespace GEDS

/-- What the table of whole calls has of a streamer. -/
def Streamer.shown (streamer : Streamer) : SubscriberStream :=
  ⟨streamer.stream, streamer.subscriptionsCounter⟩

/-- The stream that is registered by the call. -/
def PubSubEvent.opened : PubSubEvent → Option Nat
  | .subscribeStream _ stream => some stream
  | .subscribe _ | .unsubscribe _ | .publish _ _ => none

namespace PubSub

theorem streams_addSubscription (t : PubSub) (subscription : SubscriptionEvent)
    (id : Bytes) :
    (t.addSubscription subscription id).subscriberStreams = t.subscriberStreams ∧
      (t.addSubscription subscription id).finished = t.finished := by
  rw [addSubscription]
  cases subscription.subscriptionType <;> exact ⟨rfl, rfl⟩

theorem streams_removeSubscription (t : PubSub) (unsubscription : SubscriptionEvent) (id : Bytes) :
    (t.removeSubscription unsubscription id).subscriberStreams = t.subscriberStreams ∧
      (t.removeSubscription unsubscription id).finished = t.finished := by
  rw [removeSubscription]
  dsimp only
  cases t.subscribedPrefix.find unsubscription.bucketID <;> exact ⟨rfl, rfl⟩

end PubSub

namespace StreamService

/-- All sections of a call of `sendPublication`, and what `Send` returns. -/
def sendSections (send : Nat) (subscriberID : Bytes) (ok : Bool) : List StreamEvent :=
  [.sendPublication send subscriberID, .proceed send, .proceed send, .proceed send,
    .sendReturns send ok, .cleanUp send]

/-- The calls of `sendPublication` in the loop of `matchPubSub`, and the number that comes
next. -/
def sectionsOfEach (broken : Nat → Bool) (send : Nat) (sentSubscriptions : List Bytes)
    (t : PubSub) : List Bytes → List StreamEvent × Nat
  | [] => ([], send)
  | subscriberID :: rest =>
      if subscriberID ∈ sentSubscriptions then
        sectionsOfEach broken send sentSubscriptions t rest
      else
        let ok := (t.openStream subscriberID).all (!broken ·)
        let after := sectionsOfEach broken (send + 1) (subscriberID :: sentSubscriptions)
          (t.sendPublication broken subscriberID).2 rest
        (sendSections send subscriberID ok ++ after.1, after.2)

/-- The sections of a call that `subscribersStreamLock` protects. -/
def sectionsOf (t : PubSub) (send : Nat) : PubSubEvent → List StreamEvent × Nat
  | .subscribe subscription =>
      match createSubscriptionKey subscription with
      | .error _ => ([], send)
      | .ok _ => ([.subscribe subscription.subscriberID], send)
  | .unsubscribe unsubscription => ([.unsubscribe unsubscription.subscriberID], send)
  | .subscribeStream subscriberID stream => ([.subscribeStream stream subscriberID], send)
  | .publish object broken => sectionsOfEach broken send [] t (t.matchingSubscribers object)

/-- The sections of the calls, one call after the other. -/
def sections (t : PubSub) (send : Nat) : List PubSubEvent → List StreamEvent
  | [] => []
  | event :: rest =>
      (sectionsOf t send event).1 ++ sections (t.perform event) (sectionsOf t send event).2 rest

/-- The streamers behind the pointers are those of the table of whole calls, and as many
values were sent on the channels. -/
structure Shows (s : StreamService) (t : PubSub) : Prop where
  sound : s.Sound
  running : s.halted = none
  allocated : ∀ {subscriberID : Bytes} {ref : Nat},
    s.subscriberStreams.find subscriberID = some ref → ref < s.streamers.next
  apart : ∀ {subscriberID other : Bytes} {ref : Nat},
    s.subscriberStreams.find subscriberID = some ref →
      s.subscriberStreams.find other = some ref → subscriberID = other
  streams : ∀ subscriberID, t.subscriberStreams.find subscriberID =
    (s.subscriberStreams.find subscriberID).map fun ref => (s.streamers.get ref).shown
  finished : ∀ channel, t.finished.count channel = (s.channels channel).sent

/-- The calls that are still to come have not begun. -/
structure Awaits (s : StreamService) (send : Nat) (handlers : List Nat) : Prop where
  sends : ∀ later, send ≤ later → s.sends later = .notCalled
  handlers : ∀ handler ∈ handlers, s.handlers handler = .notCalled

variable {s s' : StreamService} {t t' : PubSub} {subscriberID : Bytes} {ref : Nat}
  {streamer : Streamer}

theorem new_shows : new.Shows PubSub.new where
  sound := new_sound
  running := rfl
  allocated hfind := by simp [new] at hfind
  apart hfind := by simp [new] at hfind
  streams _ := rfl
  finished _ := rfl

/-- The streamer of a subscriber is changed in place. -/
theorem Shows.set (h : s.Shows t) (hfind : s.subscriberStreams.find subscriberID = some ref)
    (hsound : s'.Sound) (hrunning : s'.halted = none)
    (htable : s'.subscriberStreams = s.subscriberStreams)
    (hstreamers : s'.streamers = s.streamers.set ref streamer)
    (hshown : t'.subscriberStreams = t.subscriberStreams.insert subscriberID streamer.shown)
    (hfinished : ∀ channel, t'.finished.count channel = (s'.channels channel).sent) :
    s'.Shows t' where
  sound := hsound
  running := hrunning
  allocated hother := by
    rw [htable] at hother
    rw [hstreamers, Heap.next_set]
    exact h.allocated hother
  apart hfirst hsecond := by
    rw [htable] at hfirst hsecond
    exact h.apart hfirst hsecond
  streams other := by
    rw [hshown, htable, hstreamers, AssocMap.find_insert]
    split_ifs with heq
    · rw [heq, hfind, Option.map_some, Heap.get_set_self]
    · rw [h.streams]
      cases hother : s.subscriberStreams.find other with
      | none => rfl
      | some found =>
          have hne : found ≠ ref := by
            rintro rfl
            exact heq (h.apart hother hfind)
          rw [Option.map_some, Option.map_some, Heap.get_set_of_ne _ _ hne]
  finished := hfinished

/-- A new streamer is put into the table. -/
theorem Shows.alloc (h : s.Shows t) (hsound : s'.Sound) (hrunning : s'.halted = none)
    (htable : s'.subscriberStreams = s.subscriberStreams.insert subscriberID s.streamers.next)
    (hstreamers : s'.streamers = s.streamers.alloc streamer)
    (hshown : t'.subscriberStreams = t.subscriberStreams.insert subscriberID streamer.shown)
    (hfinished : ∀ channel, t'.finished.count channel = (s'.channels channel).sent) :
    s'.Shows t' where
  sound := hsound
  running := hrunning
  allocated hother := by
    rw [htable, AssocMap.find_insert] at hother
    rw [hstreamers, Heap.next_alloc]
    split_ifs at hother
    · rw [← Option.some.inj hother]
      exact Nat.lt_succ_self _
    · exact Nat.lt_succ_of_lt (h.allocated hother)
  apart hfirst hsecond := by
    rw [htable, AssocMap.find_insert] at hfirst hsecond
    split_ifs at hfirst hsecond with hown hown' hown'
    · exact hown.trans hown'.symm
    · rw [← Option.some.inj hfirst] at hsecond
      exact absurd (h.allocated hsecond) (Nat.lt_irrefl _)
    · rw [← Option.some.inj hsecond] at hfirst
      exact absurd (h.allocated hfirst) (Nat.lt_irrefl _)
    · exact h.apart hfirst hsecond
  streams other := by
    rw [hshown, htable, hstreamers, AssocMap.find_insert, AssocMap.find_insert]
    split_ifs
    · rw [Option.map_some, Heap.get_alloc_next]
    · rw [h.streams]
      cases hother : s.subscriberStreams.find other with
      | none => rfl
      | some found =>
          rw [Option.map_some, Option.map_some, Heap.get_alloc_of_ne _ _ (h.allocated hother).ne]
  finished := hfinished

/-- Only the tables of subscriptions, or the calls under way, differ. -/
theorem Shows.congr (h : s.Shows t) (hsound : s'.Sound) (hrunning : s'.halted = s.halted)
    (htable : s'.subscriberStreams = s.subscriberStreams) (hstreamers : s'.streamers = s.streamers)
    (hchannels : s'.channels = s.channels)
    (hstreams : t'.subscriberStreams = t.subscriberStreams)
    (hfinished : t'.finished = t.finished) : s'.Shows t' where
  sound := hsound
  running := hrunning.trans h.running
  allocated := by
    rw [htable, hstreamers]
    exact h.allocated
  apart := by
    rw [htable]
    exact h.apart
  streams := by
    rw [hstreams, htable, hstreamers]
    exact h.streams
  finished := by
    rw [hfinished, hchannels]
    exact h.finished

theorem Shows.setSend (h : s.Shows t) (send : Nat) (phase : SendPhase) :
    (s.setSend send phase).Shows t :=
  h.congr (h.sound.setSend send phase) rfl rfl rfl rfl rfl rfl

theorem Shows.removeSubscriberStream (h : s.Shows t)
    (hfind : s.subscriberStreams.find subscriberID = some ref) :
    (s.removeSubscriberStream ref).Shows
      (t.removeSubscriberStream subscriberID (s.streamers.get ref).shown) := by
  obtain ⟨hsound, hrunning, -, -⟩ := h.sound.removeSubscriberStream h.running ref
  cases hstream : (s.streamers.get ref).stream with
  | none =>
      simp only [removeSubscriberStream_of_none hstream, PubSub.removeSubscriberStream,
        Streamer.shown, hstream]
      exact h
  | some stream =>
      obtain ⟨-, -, hsent⟩ := h.sound.named hstream
      rw [h.sound.removeSubscriberStream_eq hstream h.running] at hsound hrunning ⊢
      simp only [PubSub.removeSubscriberStream, Streamer.shown, hstream]
      refine h.set hfind hsound hrunning rfl rfl rfl ?_
      intro channel
      dsimp only
      rw [List.count_append, h.finished, Function.update_apply, List.count_singleton]
      by_cases hown : channel = stream
      · simp [hown, hsent]
      · simp [hown, Ne.symm hown]

theorem Shows.subscribe (h : s.Shows t) (subscriberID : Bytes) :
    (s.subscribe subscriberID).Shows (t.countSubscription subscriberID) := by
  have hsound := h.sound.subscribe subscriberID
  rw [StreamService.subscribe] at hsound ⊢
  rw [PubSub.countSubscription, h.streams]
  cases hfind : s.subscriberStreams.find subscriberID with
  | none =>
      simp only [hfind] at hsound
      exact h.alloc hsound h.running rfl rfl rfl h.finished
  | some ref =>
      simp only [hfind] at hsound
      exact h.set hfind hsound h.running rfl rfl rfl h.finished

theorem Shows.unsubscribe (h : s.Shows t) (subscriberID : Bytes) :
    (s.unsubscribe subscriberID).Shows (t.discountSubscription subscriberID) := by
  rw [StreamService.unsubscribe, PubSub.discountSubscription, h.streams]
  cases hfind : s.subscriberStreams.find subscriberID with
  | none => exact h
  | some ref =>
      have hcounter : ∀ counter, ((s.setCounter ref counter).streamers.get ref) =
          { s.streamers.get ref with subscriptionsCounter := counter } := by
        intro counter
        rw [setCounter, get_setStreamer, if_pos rfl]
      have hcounted : (s.setCounter ref ((s.streamers.get ref).subscriptionsCounter - 1)).Shows
          { t with
            subscriberStreams := t.subscriberStreams.insert subscriberID
              ⟨(s.streamers.get ref).stream, (s.streamers.get ref).subscriptionsCounter - 1⟩ } :=
        h.set hfind (h.sound.setCounter ref _) h.running rfl rfl rfl h.finished
      have hremoved := hcounted.removeSubscriberStream hfind
      simp only [Option.map_some, Streamer.shown, hcounter] at hremoved ⊢
      split_ifs
      · exact hremoved
      · exact hcounted

theorem Shows.subscribeStream (h : s.Shows t) {handler : Nat}
    (hfresh : s.handlers handler = .notCalled) (subscriberID : Bytes) :
    (s.subscribeStream handler subscriberID).Shows (t.subscribeStream subscriberID handler) := by
  have hsound := h.sound.subscribeStream h.running handler subscriberID
  rw [StreamService.subscribeStream] at hsound ⊢
  rw [PubSub.subscribeStream, h.streams]
  cases hfind : s.subscriberStreams.find subscriberID with
  | none =>
      simp only [hfresh, hfind] at hsound ⊢
      exact h.alloc hsound h.running rfl rfl rfl h.finished
  | some ref =>
      have hremoved := h.removeSubscriberStream hfind
      obtain ⟨htable, -, hcounter⟩ := h.sound.removeSubscriberStream_keeps h.running ref
      simp only [hfresh, hfind, hremoved.running, Option.isSome_none, Bool.false_eq_true,
        ↓reduceIte] at hsound ⊢
      rw [← htable] at hfind
      refine hremoved.set hfind hsound hremoved.running rfl rfl ?_ hremoved.finished
      simp only [Option.map_some, Streamer.shown, hcounter]

/-- A call goes on in a service that runs. -/
theorem step_of_running (hrunning : s.halted = none) (event : StreamEvent) :
    s.step event = s.perform event := by
  rw [StreamService.step, hrunning]
  rfl

/-- A call of `sendPublication` that is over does nothing more. -/
theorem run_of_returned {send : Nat} (hreturned : s.sends send = .returned)
    {events : List StreamEvent}
    (hevents : ∀ event ∈ events, event = .proceed send ∨ (∃ ok, event = .sendReturns send ok) ∨
      event = .cleanUp send) : s.run events = s := by
  induction events with
  | nil => rfl
  | cons event rest ih =>
      have hidle : s.step event = s := by
        rw [StreamService.step]
        rcases hevents event List.mem_cons_self with rfl | ⟨ok, rfl⟩ | rfl
        · simp [perform, proceed, hreturned]
        · simp [perform, sendReturns, hreturned]
        · simp [perform, cleanUp, hreturned]
      have hrest := ih fun other hmem => hevents other (List.mem_cons_of_mem _ hmem)
      rw [run, List.foldl_cons, hidle]
      exact hrest

theorem setSend_setSend (send : Nat) (phase phase' : SendPhase) :
    (s.setSend send phase).setSend send phase' = s.setSend send phase' := by
  simp [setSend]

theorem Sound.removeSubscriberStream_setSend (h : s.Sound) (hhalted : s.halted = none)
    (send : Nat) (phase : SendPhase) (ref : Nat) :
    (s.setSend send phase).removeSubscriberStream ref =
      (s.removeSubscriberStream ref).setSend send phase := by
  cases hstream : (s.streamers.get ref).stream with
  | none =>
      rw [removeSubscriberStream_of_none hstream]
      exact removeSubscriberStream_of_none hstream
  | some stream =>
      rw [h.removeSubscriberStream_eq hstream hhalted]
      exact (h.setSend send phase).removeSubscriberStream_eq hstream hhalted

/-- A call of `sendPublication` from its beginning to its end. -/
theorem run_sendSections (h : s.Shows t) {send : Nat} (hfresh : s.sends send = .notCalled)
    (subscriberID : Bytes) (ok : Bool) :
    s.run (sendSections send subscriberID ok) =
      match s.subscriberStreams.find subscriberID with
      | none => s.setSend send .returned
      | some ref =>
          if (s.streamers.get ref).stream.isNone || ok then s.setSend send .returned
          else (s.removeSubscriberStream ref).setSend send .returned := by
  have hover : ∀ events : List StreamEvent,
      (∀ event ∈ events, event = .proceed send ∨ (∃ ok, event = .sendReturns send ok) ∨
        event = .cleanUp send) →
      (s.setSend send .returned).run events = s.setSend send .returned := by
    intro events hevents
    exact run_of_returned (Function.update_self _ _ _) hevents
  have hphase : ∀ phase, (s.setSend send phase).sends send = phase :=
    fun phase => Function.update_self _ _ _
  have hrunning : ∀ phase, (s.setSend send phase).halted = none := fun phase => h.running
  rw [sendSections, run, List.foldl_cons, step_of_running h.running, perform,
    StreamService.sendPublication, hfresh]
  cases hfind : s.subscriberStreams.find subscriberID with
  | none => exact hover _ (by simp)
  | some ref =>
      dsimp only
      rw [List.foldl_cons, step_of_running (hrunning _), perform, proceed, hphase]
      cases hstream : (s.streamers.get ref).stream with
      | none =>
          have hget : ((s.setSend send (.fetched ref)).streamers.get ref).stream = none := hstream
          simp only [hget, setSend_setSend, Option.isNone_none, Bool.true_or, ↓reduceIte]
          exact hover _ (by simp)
      | some stream =>
          have hget : ∀ phase, ((s.setSend send phase).streamers.get ref).stream = some stream :=
            fun phase => hstream
          have hfound : (s.setSend send (.found ref)).step (.proceed send) =
              s.setSend send (.foundAgain ref) := by
            rw [step_of_running (hrunning _), perform, proceed, hphase]
            simp only [hget, setSend_setSend]
          have hfoundAgain : (s.setSend send (.foundAgain ref)).step (.proceed send) =
              s.setSend send (.sending ref stream) := by
            rw [step_of_running (hrunning _), perform, proceed, hphase]
            simp only [hget, setSend_setSend]
          have hsending : (s.setSend send (.sending ref stream)).step (.sendReturns send ok) =
              s.setSend send (if ok then .returned else .failed ref stream) := by
            rw [step_of_running (hrunning _), perform, sendReturns, hphase]
            cases ok <;> simp [setSend_setSend]
          simp only [hget, setSend_setSend]
          rw [List.foldl_cons, hfound, List.foldl_cons, hfoundAgain, List.foldl_cons, hsending]
          cases ok with
          | true =>
              simp only [Bool.or_true, ↓reduceIte]
              exact hover _ (by simp)
          | false =>
              have hremoved := (h.sound.removeSubscriberStream h.running ref).2.1
              simp only [Option.isNone_some, Bool.or_self, Bool.false_eq_true, ↓reduceIte]
              rw [List.foldl_cons, List.foldl_nil, step_of_running (hrunning _), perform, cleanUp,
                hphase]
              simp only [h.sound.removeSubscriberStream_setSend h.running, setSend_setSend]
              have hhalted : ((s.removeSubscriberStream ref).setSend send
                  (.failed ref stream)).halted = none := hremoved
              rw [hhalted]
              rfl

theorem Awaits.sent {send : Nat} {handlers : List Nat} (hawaits : s.Awaits send handlers)
    (hsends : s'.sends = Function.update s.sends send .returned)
    (hhandlers : s'.handlers = s.handlers) : s'.Awaits (send + 1) handlers where
  sends later hle := by
    rw [hsends, Function.update_of_ne (Nat.ne_of_gt hle)]
    exact hawaits.sends later (Nat.le_of_succ_le hle)
  handlers handler hmem := by
    rw [hhandlers]
    exact hawaits.handlers handler hmem

/-- A call of `sendPublication` that runs alone. -/
theorem Shows.sendPublication (h : s.Shows t) {send : Nat} {handlers : List Nat}
    (hawaits : s.Awaits send handlers) (broken : Nat → Bool) (subscriberID : Bytes) {ok : Bool}
    (hok : ∀ stream, t.openStream subscriberID = some stream → ok = !broken stream) :
    (s.run (sendSections send subscriberID ok)).Shows (t.sendPublication broken subscriberID).2 ∧
      (s.run (sendSections send subscriberID ok)).Awaits (send + 1) handlers := by
  have hreturned : (s.setSend send .returned).Awaits (send + 1) handlers := hawaits.sent rfl rfl
  rw [run_sendSections h (hawaits.sends send le_rfl), PubSub.sendPublication, h.streams]
  rw [PubSub.openStream, h.streams] at hok
  cases hfind : s.subscriberStreams.find subscriberID with
  | none => exact ⟨h.setSend send _, hreturned⟩
  | some ref =>
      rw [hfind] at hok
      cases hstream : (s.streamers.get ref).stream with
      | none =>
          simp only [Option.map_some, Streamer.shown, hstream, Option.isNone_none, Bool.true_or,
            ↓reduceIte]
          exact ⟨h.setSend send _, hreturned⟩
      | some stream =>
          have hremoved := h.removeSubscriberStream hfind
          simp only [Option.map_some, Option.bind_some, Streamer.shown, hstream,
            Option.some.injEq, forall_eq'] at hok hremoved ⊢
          obtain ⟨-, hsends, -⟩ := h.sound.removeSubscriberStream_keeps h.running ref
          obtain ⟨-, -, -, hhandlers⟩ := h.sound.removeSubscriberStream h.running ref
          cases hbroken : broken stream with
          | false =>
              rw [hok, hbroken]
              exact ⟨h.setSend send _, hreturned⟩
          | true =>
              rw [hok, hbroken]
              refine ⟨hremoved.setSend send _, hawaits.sent ?_ hhandlers⟩
              exact congrArg (Function.update · send SendPhase.returned) hsends

theorem sectionsOfEach_cons (broken : Nat → Bool) (send : Nat) (sentSubscriptions : List Bytes)
    (subscriberID : Bytes) (rest : List Bytes) :
    sectionsOfEach broken send sentSubscriptions t (subscriberID :: rest) =
      if subscriberID ∈ sentSubscriptions then sectionsOfEach broken send sentSubscriptions t rest
      else
        (sendSections send subscriberID ((t.openStream subscriberID).all (!broken ·)) ++
          (sectionsOfEach broken (send + 1) (subscriberID :: sentSubscriptions)
            (t.sendPublication broken subscriberID).2 rest).1,
        (sectionsOfEach broken (send + 1) (subscriberID :: sentSubscriptions)
          (t.sendPublication broken subscriberID).2 rest).2) := rfl

/-- The loop of `matchPubSub`. -/
theorem Shows.sendToEach (h : s.Shows t) {send : Nat} {handlers : List Nat}
    (hawaits : s.Awaits send handlers) (broken : Nat → Bool)
    (sentSubscriptions subscribers : List Bytes) :
    (s.run (sectionsOfEach broken send sentSubscriptions t subscribers).1).Shows
        (PubSub.sendToEach broken sentSubscriptions t subscribers).2 ∧
      (s.run (sectionsOfEach broken send sentSubscriptions t subscribers).1).Awaits
        (sectionsOfEach broken send sentSubscriptions t subscribers).2 handlers := by
  induction subscribers generalizing s t send sentSubscriptions with
  | nil => exact ⟨h, hawaits⟩
  | cons subscriberID rest ih =>
      rw [sectionsOfEach_cons, PubSub.sendToEach_cons]
      by_cases hsent : subscriberID ∈ sentSubscriptions
      · rw [if_pos hsent, if_pos hsent]
        exact ih h hawaits sentSubscriptions
      · rw [if_neg hsent, if_neg hsent]
        have hok : ∀ stream, t.openStream subscriberID = some stream →
            (t.openStream subscriberID).all (!broken ·) = !broken stream := by
          intro stream hstream
          rw [hstream, Option.all_some]
        obtain ⟨hshows, hnext⟩ := h.sendPublication hawaits broken subscriberID hok
        simp only [run, List.foldl_append]
        exact ih hshows hnext (subscriberID :: sentSubscriptions)

theorem run_singleton (hrunning : s.halted = none) (event : StreamEvent) :
    s.run [event] = s.perform event := step_of_running hrunning event

theorem Awaits.congr {send : Nat} {handlers : List Nat} (hawaits : s.Awaits send handlers)
    (hsends : s'.sends = s.sends) (hhandlers : s'.handlers = s.handlers) :
    s'.Awaits send handlers where
  sends later hle := by
    rw [hsends]
    exact hawaits.sends later hle
  handlers handler hmem := by
    rw [hhandlers]
    exact hawaits.handlers handler hmem

theorem Awaits.subscribe {send : Nat} {handlers : List Nat} (hawaits : s.Awaits send handlers)
    (subscriberID : Bytes) : (s.subscribe subscriberID).Awaits send handlers := by
  rw [StreamService.subscribe]
  cases s.subscriberStreams.find subscriberID <;> exact hawaits.congr rfl rfl

theorem Awaits.unsubscribe {send : Nat} {handlers : List Nat} (hawaits : s.Awaits send handlers)
    (h : s.Sound) (hrunning : s.halted = none) (subscriberID : Bytes) :
    (s.unsubscribe subscriberID).Awaits send handlers := by
  rw [StreamService.unsubscribe]
  cases s.subscriberStreams.find subscriberID with
  | none => exact hawaits
  | some ref =>
      have hcounted := h.setCounter ref ((s.streamers.get ref).subscriptionsCounter - 1)
      dsimp only
      split_ifs
      · exact hawaits.congr (hcounted.removeSubscriberStream_keeps hrunning ref).2.1
          (hcounted.removeSubscriberStream hrunning ref).2.2.2
      · exact hawaits.congr rfl rfl

/-- The handler that registers its stream is the only one that is no longer awaited. -/
theorem Awaits.subscribeStream {send handler : Nat} {later : List Nat}
    (hawaits : s.Awaits send (handler :: later)) (hnew : handler ∉ later) (h : s.Sound)
    (hrunning : s.halted = none) (subscriberID : Bytes) :
    (s.subscribeStream handler subscriberID).Awaits send later := by
  have hregistered : ∀ s' : StreamService, s'.sends = s.sends →
      s'.handlers = Function.update s.handlers handler .waiting → s'.Awaits send later := by
    intro s' hsends hhandlers
    refine ⟨fun later hle => by rw [hsends, hawaits.sends later hle], ?_⟩
    intro other hmem
    have hne : other ≠ handler := by
      rintro rfl
      exact hnew hmem
    rw [hhandlers, Function.update_of_ne hne]
    exact hawaits.handlers other (List.mem_cons_of_mem _ hmem)
  obtain ⟨-, hremoved, -, hhandlers⟩ := h.removeSubscriberStream hrunning
    ((s.subscriberStreams.find subscriberID).getD 0)
  obtain ⟨-, hsends, -⟩ := h.removeSubscriberStream_keeps hrunning
    ((s.subscriberStreams.find subscriberID).getD 0)
  rw [StreamService.subscribeStream, hawaits.handlers handler List.mem_cons_self]
  cases hfind : s.subscriberStreams.find subscriberID with
  | none => exact hregistered _ rfl rfl
  | some ref =>
      rw [hfind, Option.getD_some] at hremoved hhandlers hsends
      simp only [hremoved, Option.isSome_none, Bool.false_eq_true, ↓reduceIte]
      refine hregistered _ hsends ?_
      exact congrArg (Function.update · handler HandlerPhase.waiting) hhandlers

/-- A call that runs alone. -/
theorem Shows.perform (h : s.Shows t) {send : Nat} (event : PubSubEvent) {later : List Nat}
    (hawaits : s.Awaits send (event.opened.toList ++ later))
    (hnodup : (event.opened.toList ++ later).Nodup) :
    (s.run (sectionsOf t send event).1).Shows (t.perform event) ∧
      (s.run (sectionsOf t send event).1).Awaits (sectionsOf t send event).2 later := by
  cases event with
  | subscribe subscription =>
      rw [sectionsOf, PubSub.perform, PubSub.subscribe]
      cases createSubscriptionKey subscription with
      | error failure => exact ⟨h, hawaits⟩
      | ok id =>
          obtain ⟨hstreams, hfinished⟩ := t.streams_addSubscription subscription id
          have hadded : s.Shows (t.addSubscription subscription id) :=
            h.congr h.sound rfl rfl rfl rfl hstreams hfinished
          dsimp only
          rw [run_singleton h.running]
          exact ⟨hadded.subscribe _, hawaits.subscribe _⟩
  | unsubscribe unsubscription =>
      have hcounted := h.unsubscribe unsubscription.subscriberID
      rw [sectionsOf, PubSub.perform, PubSub.unsubscribe, run_singleton h.running]
      refine ⟨?_, hawaits.unsubscribe h.sound h.running _⟩
      cases createSubscriptionKey unsubscription with
      | error failure => exact hcounted
      | ok id =>
          obtain ⟨hstreams, hfinished⟩ := PubSub.streams_removeSubscription
            (t.discountSubscription unsubscription.subscriberID) unsubscription id
          exact hcounted.congr hcounted.sound rfl rfl rfl rfl hstreams hfinished
  | subscribeStream subscriberID stream =>
      have hnew : stream ∉ later := (List.nodup_cons.1 hnodup).1
      rw [sectionsOf, PubSub.perform, run_singleton h.running]
      exact ⟨h.subscribeStream (hawaits.handlers stream List.mem_cons_self) subscriberID,
        hawaits.subscribeStream hnew h.sound h.running subscriberID⟩
  | publish object broken => exact h.sendToEach hawaits broken [] _

/-- Calls that run one after the other, in their sections. -/
theorem Shows.run (h : s.Shows t) {send : Nat} {events : List PubSubEvent}
    (hawaits : s.Awaits send (events.filterMap PubSubEvent.opened))
    (hnodup : (events.filterMap PubSubEvent.opened).Nodup) :
    (s.run (sections t send events)).Shows (t.run events) := by
  induction events generalizing s t send with
  | nil => exact h
  | cons event rest ih =>
      have hopened : (event :: rest).filterMap PubSubEvent.opened =
          event.opened.toList ++ rest.filterMap PubSubEvent.opened := by
        rw [List.filterMap_cons]
        cases event.opened <;> rfl
      rw [hopened] at hawaits hnodup
      obtain ⟨hshows, hnext⟩ := h.perform event hawaits hnodup
      rw [sections, StreamService.run, List.foldl_append]
      exact ih hshows hnext (List.nodup_append.1 hnodup).2.1

/-- In any history of whole calls, each with a stream of its own, the sections do what the
calls do, and so no stream is signalled twice. -/
theorem run_sections (events : List PubSubEvent)
    (hnodup : (events.filterMap PubSubEvent.opened).Nodup) :
    (new.run (sections PubSub.new 0 events)).Shows (PubSub.new.run events) ∧
      (PubSub.new.run events).finished.Nodup := by
  have hshows : (new.run (sections PubSub.new 0 events)).Shows (PubSub.new.run events) :=
    new_shows.run ⟨fun _ _ => rfl, fun _ _ => rfl⟩ hnodup
  refine ⟨hshows, List.nodup_iff_count_le_one.2 fun stream => ?_⟩
  rw [hshows.finished]
  exact hshows.sound.once stream

end StreamService

end GEDS
