/-
What a failed `Send` closes.  The streamer is fetched, used and cleaned up in separate
sections, and the cleanup takes whatever stream it finds in it by then.
-/
import GEDS.Library.WriteBehind
import GEDS.PubSubStreams

namespace GEDS

open WriteBehind

/-- The streamer that a call of `sendPublication` has a pointer to. -/
def SendPhase.streamer : SendPhase → Option Nat
  | .fetched ref | .found ref | .foundAgain ref | .sending ref _ | .failed ref _ => some ref
  | .notCalled | .returned => none

/-- The stream on which `Send` was called, until the call is over. -/
def SendPhase.stream : SendPhase → Option (Nat × Nat)
  | .sending ref stream | .failed ref stream => some (ref, stream)
  | .notCalled | .fetched _ | .found _ | .foundAgain _ | .returned => none

theorem SendPhase.streamer_of_stream {phase : SendPhase} {ref stream : Nat}
    (hstream : phase.stream = some (ref, stream)) : phase.streamer = some ref := by
  cases phase <;> simp_all [SendPhase.stream, SendPhase.streamer]

namespace StreamService

variable {s : StreamService}

/-- The cleanup after a `Send` that failed signals and clears no other stream than the one
on which it failed. -/
def ClosesOwn (s : StreamService) : StreamEvent → Prop
  | .cleanUp send => ∀ ref stream, s.sends send = .failed ref stream → ∀ other, other ≠ stream →
      (s.step (.cleanUp send)).channels other = s.channels other ∧
      ∀ holder, (s.streamers.get holder).stream = some other →
        ((s.step (.cleanUp send)).streamers.get holder).stream = some other
  | _ => True

/-- When the cleanup runs, the streamer has no newer stream. -/
def NoneNewer (s : StreamService) : StreamEvent → Prop
  | .cleanUp send => s.halted = none → ∀ ref stream, s.sends send = .failed ref stream →
      ∀ newer, (s.streamers.get ref).stream = some newer → newer = stream
  | _ => True

/-- Nobody reconnects while a `Send` to the subscriber is under way. -/
def NoReconnect (s : StreamService) : StreamEvent → Prop
  | .subscribeStream _ subscriberID => ∀ ref, s.subscriberStreams.find subscriberID = some ref →
      ∀ send stream, (s.sends send).stream ≠ some (ref, stream)
  | _ => True

/-- The cleanup closes its own stream exactly if the streamer has no newer one. -/
theorem Sound.closesOwn_iff (h : s.Sound) (event : StreamEvent) :
    s.ClosesOwn event ↔ s.NoneNewer event := by
  cases event with
  | cleanUp send =>
      cases hhalted : s.halted with
      | some halt => simp [ClosesOwn, NoneNewer, StreamService.step, hhalted]
      | none =>
          have hstep : ∀ ref stream, s.sends send = .failed ref stream →
              (s.step (.cleanUp send)).channels = (s.removeSubscriberStream ref).channels ∧
              (s.step (.cleanUp send)).streamers = (s.removeSubscriberStream ref).streamers := by
            intro ref stream hsend
            obtain ⟨-, hrunning, -, -⟩ := h.removeSubscriberStream hhalted ref
            simp [StreamService.step, hhalted, StreamService.perform, StreamService.cleanUp, hsend,
              hrunning, StreamService.setSend]
          constructor
          · intro hcloses _ ref stream hsend newer hnewer
            by_contra hne
            obtain ⟨hchannels, -⟩ := hcloses ref stream hsend newer hne
            rw [(hstep ref stream hsend).1, h.removeSubscriberStream_eq hnewer hhalted] at hchannels
            have hsent := congrArg FinishedChannel.sent hchannels
            rw [(h.named hnewer).2.2] at hsent
            simp at hsent
          · intro hnone ref stream hsend other hother
            obtain ⟨hchannels, hstreamers⟩ := hstep ref stream hsend
            rw [hchannels, hstreamers]
            cases hstream : (s.streamers.get ref).stream with
            | none =>
                rw [removeSubscriberStream_of_none hstream]
                exact ⟨rfl, fun _ hholder => hholder⟩
            | some newer =>
                obtain rfl := hnone hhalted ref stream hsend newer hstream
                rw [h.removeSubscriberStream_eq hstream hhalted]
                refine ⟨Function.update_of_ne hother _ _, ?_⟩
                intro holder hholder
                have hne : holder ≠ ref := by
                  rintro rfl
                  exact hother (Option.some.inj (hholder.symm.trans hstream))
                rw [Heap.get_set_of_ne _ _ hne]
                exact hholder
  | subscribe subscriberID => exact Iff.rfl
  | unsubscribe subscriberID => exact Iff.rfl
  | subscribeStream handler subscriberID => exact Iff.rfl
  | receive handler => exact Iff.rfl
  | contextDone handler => exact Iff.rfl
  | sendPublication send subscriberID => exact Iff.rfl
  | proceed send => exact Iff.rfl
  | sendReturns send ok => exact Iff.rfl

/-- The streamers that are in use exist, and a streamer on which a `Send` is under way has
its stream, or none any more. -/
structure Tracked (s : StreamService) : Prop where
  sound : s.Sound
  table : ∀ {subscriberID : Bytes} {ref : Nat}, s.subscriberStreams.find subscriberID = some ref →
    ref < s.streamers.next
  fetched : ∀ {send ref : Nat}, (s.sends send).streamer = some ref → ref < s.streamers.next
  current : ∀ {send ref stream : Nat}, (s.sends send).stream = some (ref, stream) →
    ∀ newer, (s.streamers.get ref).stream = some newer → newer = stream

theorem new_tracked : new.Tracked where
  sound := new_sound
  table hfind := by simp [new] at hfind
  fetched hfetched := by cases hfetched
  current hsend := by cases hsend

/-- Streams go away, and nothing else happens to the streamers. -/
theorem Tracked.of_fading {s' : StreamService} (h : s.Tracked) (hsound : s'.Sound)
    (hnext : s'.streamers.next = s.streamers.next)
    (htable : s'.subscriberStreams = s.subscriberStreams) (hsends : s'.sends = s.sends)
    (hfades : ∀ {ref stream : Nat}, (s'.streamers.get ref).stream = some stream →
      (s.streamers.get ref).stream = some stream) : s'.Tracked where
  sound := hsound
  table hfind := by
    rw [hnext]
    rw [htable] at hfind
    exact h.table hfind
  fetched hfetched := by
    rw [hnext]
    rw [hsends] at hfetched
    exact h.fetched hfetched
  current hsend newer hnewer := by
    rw [hsends] at hsend
    exact h.current hsend newer (hfades hnewer)

/-- A call of `sendPublication` goes on. -/
theorem Tracked.setSend (h : s.Tracked) (send : Nat) {phase : SendPhase}
    (hfetched : ∀ ref, phase.streamer = some ref → ref < s.streamers.next)
    (hcurrent : ∀ ref stream, phase.stream = some (ref, stream) →
      ∀ newer, (s.streamers.get ref).stream = some newer → newer = stream) :
    (s.setSend send phase).Tracked where
  sound := h.sound.setSend send phase
  table := h.table
  fetched := by
    intro other ref hother
    change (Function.update s.sends send phase other).streamer = some ref at hother
    by_cases heq : other = send
    · subst heq
      rw [Function.update_self] at hother
      exact hfetched ref hother
    · rw [Function.update_of_ne heq] at hother
      exact h.fetched hother
  current := by
    intro other ref stream hother
    change (Function.update s.sends send phase other).stream = some (ref, stream) at hother
    by_cases heq : other = send
    · subst heq
      rw [Function.update_self] at hother
      exact hcurrent ref stream hother
    · rw [Function.update_of_ne heq] at hother
      exact h.current hother

theorem Tracked.returns (h : s.Tracked) (send : Nat) : (s.setSend send .returned).Tracked := by
  refine h.setSend send ?_ ?_
  · intro ref hfetched
    cases hfetched
  · intro ref stream hstream
    cases hstream

/-- A call that has not reached `Send` only has its pointer. -/
theorem Tracked.tests (h : s.Tracked) (send : Nat) {phase : SendPhase} {ref : Nat}
    (hlt : ref < s.streamers.next) (hphase : phase.streamer = some ref)
    (hnone : phase.stream = none) : (s.setSend send phase).Tracked := by
  refine h.setSend send ?_ ?_
  · intro other hother
    rwa [← Option.some.inj (hphase.symm.trans hother)]
  · intro other stream hstream
    rw [hnone] at hstream
    cases hstream

/-- A new streamer disturbs nobody. -/
theorem Tracked.alloc {s' : StreamService} (h : s.Tracked) (hsound : s'.Sound)
    {subscriberID : Bytes} {streamer : Streamer}
    (hstreamers : s'.streamers = s.streamers.alloc streamer)
    (htable : s'.subscriberStreams = s.subscriberStreams.insert subscriberID s.streamers.next)
    (hsends : s'.sends = s.sends) : s'.Tracked where
  sound := hsound
  table := by
    intro other ref hfind
    rw [htable, AssocMap.find_insert] at hfind
    rw [hstreamers, Heap.next_alloc]
    split_ifs at hfind
    · rw [← Option.some.inj hfind]
      exact Nat.lt_succ_self _
    · exact Nat.lt_succ_of_lt (h.table hfind)
  fetched := by
    intro send ref hsend
    rw [hsends] at hsend
    rw [hstreamers, Heap.next_alloc]
    exact Nat.lt_succ_of_lt (h.fetched hsend)
  current := by
    intro send ref stream hsend newer hnewer
    rw [hsends] at hsend
    have hlt := h.fetched (SendPhase.streamer_of_stream hsend)
    rw [hstreamers, Heap.get_alloc_of_ne _ _ hlt.ne] at hnewer
    exact h.current hsend newer hnewer

theorem Tracked.setCounter (h : s.Tracked) (ref : Nat) (counter : Int) :
    (s.setCounter ref counter).Tracked := by
  refine h.of_fading (h.sound.setCounter ref counter) rfl rfl rfl ?_
  intro other stream hstream
  rw [StreamService.setCounter, get_setStreamer] at hstream
  split_ifs at hstream with heq
  · exact heq ▸ hstream
  · exact hstream

theorem Tracked.removeSubscriberStream (h : s.Tracked) (hhalted : s.halted = none) (ref : Nat) :
    (s.removeSubscriberStream ref).Tracked := by
  cases hstream : (s.streamers.get ref).stream with
  | none =>
      rw [removeSubscriberStream_of_none hstream]
      exact h
  | some stream =>
      have hsound := (h.sound.removeSubscriberStream hhalted ref).1
      rw [h.sound.removeSubscriberStream_eq hstream hhalted] at hsound ⊢
      refine h.of_fading hsound rfl rfl rfl ?_
      intro other found hfound
      change ((s.streamers.set ref _).get other).stream = some found at hfound
      by_cases heq : other = ref
      · subst heq
        rw [Heap.get_set_self] at hfound
        cases hfound
      · rwa [Heap.get_set_of_ne _ _ heq] at hfound

theorem Tracked.subscribeStream (h : s.Tracked) (hhalted : s.halted = none) {handler : Nat}
    {subscriberID : Bytes} (hquiet : s.NoReconnect (.subscribeStream handler subscriberID)) :
    (s.subscribeStream handler subscriberID).Tracked := by
  have hsound := h.sound.subscribeStream hhalted handler subscriberID
  rw [StreamService.subscribeStream] at hsound ⊢
  cases hnot : s.handlers handler with
  | waiting => exact h
  | returned => exact h
  | notCalled =>
      cases hfind : s.subscriberStreams.find subscriberID with
      | none =>
          simp only [hnot, hfind] at hsound
          exact h.alloc hsound rfl rfl rfl
      | some ref =>
          have hremoved := h.removeSubscriberStream hhalted ref
          obtain ⟨-, hrunning, -, -⟩ := h.sound.removeSubscriberStream hhalted ref
          simp only [hnot, hfind, hrunning, Option.isSome_none, Bool.false_eq_true,
            ↓reduceIte] at hsound ⊢
          obtain ⟨-, hsends, -⟩ := h.sound.removeSubscriberStream_keeps hhalted ref
          refine ⟨hsound, hremoved.table, hremoved.fetched, ?_⟩
          intro send other stream hsend newer hnewer
          have hne : other ≠ ref := by
            rintro rfl
            change ((s.removeSubscriberStream other).sends send).stream = _ at hsend
            rw [hsends] at hsend
            exact hquiet other hfind send stream hsend
          refine hremoved.current hsend newer ?_
          change (((s.removeSubscriberStream ref).streamers.set ref _).get other).stream =
            some newer at hnewer
          rwa [Heap.get_set_of_ne _ _ hne] at hnewer

theorem Tracked.unsubscribe (h : s.Tracked) (hhalted : s.halted = none) (subscriberID : Bytes) :
    (s.unsubscribe subscriberID).Tracked := by
  rw [StreamService.unsubscribe]
  cases s.subscriberStreams.find subscriberID with
  | none => exact h
  | some ref =>
      have hcounted := h.setCounter ref ((s.streamers.get ref).subscriptionsCounter - 1)
      dsimp only
      split_ifs
      · exact hcounted.removeSubscriberStream hhalted ref
      · exact hcounted

theorem Tracked.sendPublication (h : s.Tracked) (send : Nat) (subscriberID : Bytes) :
    (s.sendPublication send subscriberID).Tracked := by
  rw [StreamService.sendPublication]
  split
  · cases hfind : s.subscriberStreams.find subscriberID with
    | none => exact h.returns send
    | some ref => exact h.tests send (h.table hfind) rfl rfl
  · exact h

/-- `Send` is called on the stream that the streamer has at that moment. -/
theorem Tracked.proceed (h : s.Tracked) (send : Nat) : (s.proceed send).Tracked := by
  have hsound := h.sound.proceed send
  have hfetched : ∀ {ref : Nat}, (s.sends send).streamer = some ref → ref < s.streamers.next :=
    h.fetched
  rw [StreamService.proceed] at hsound ⊢
  cases hphase : s.sends send with
  | fetched ref =>
      rw [hphase] at hfetched
      dsimp only
      cases (s.streamers.get ref).stream with
      | none => exact h.returns send
      | some stream => exact h.tests send (hfetched rfl) rfl rfl
  | found ref =>
      rw [hphase] at hfetched
      dsimp only
      cases (s.streamers.get ref).stream with
      | none => exact h.returns send
      | some stream => exact h.tests send (hfetched rfl) rfl rfl
  | foundAgain ref =>
      rw [hphase] at hfetched hsound
      dsimp only at hsound ⊢
      cases hstream : (s.streamers.get ref).stream with
      | none =>
          rw [hstream] at hsound
          exact h.of_fading hsound rfl rfl rfl id
      | some stream =>
          refine h.setSend send (fun other hother => hfetched hother) ?_
          intro other sent hsent newer hnewer
          obtain ⟨rfl, rfl⟩ := Prod.mk.inj (Option.some.inj hsent)
          exact Option.some.inj (hnewer.symm.trans hstream)
  | notCalled => exact h
  | sending ref stream => exact h
  | failed ref stream => exact h
  | returned => exact h

theorem Tracked.sendReturns (h : s.Tracked) (send : Nat) (ok : Bool) :
    (s.sendReturns send ok).Tracked := by
  rw [StreamService.sendReturns]
  split
  · rename_i ref stream hsend
    cases ok with
    | true => exact h.returns send
    | false =>
        have hstream : (s.sends send).stream = some (ref, stream) := by rw [hsend, SendPhase.stream]
        refine h.setSend send ?_ ?_
        · intro other hother
          obtain rfl := Option.some.inj hother
          exact h.fetched (SendPhase.streamer_of_stream hstream)
        · intro other sent hsent
          obtain ⟨rfl, rfl⟩ := Prod.mk.inj (Option.some.inj hsent)
          exact h.current hstream
  · exact h

theorem Tracked.cleanUp (h : s.Tracked) (hhalted : s.halted = none) (send : Nat) :
    (s.cleanUp send).Tracked := by
  rw [StreamService.cleanUp]
  split
  · rename_i ref stream hsend
    have hremoved := h.removeSubscriberStream hhalted ref
    obtain ⟨-, hrunning, -, -⟩ := h.sound.removeSubscriberStream hhalted ref
    simp only [hrunning, Option.isSome_none, Bool.false_eq_true, ↓reduceIte]
    exact hremoved.returns send
  · exact h

theorem Tracked.step (h : s.Tracked) {event : StreamEvent} (hquiet : s.NoReconnect event) :
    (s.step event).Tracked := by
  have hsound := h.sound.step event
  rw [StreamService.step] at hsound ⊢
  cases hhalted : s.halted with
  | some halt => exact h
  | none =>
      simp only [hhalted, Option.isSome_none, Bool.false_eq_true, ↓reduceIte] at hsound ⊢
      cases event with
      | subscribe subscriberID =>
          simp only [StreamService.perform, StreamService.subscribe] at hsound ⊢
          cases hfind : s.subscriberStreams.find subscriberID with
          | none =>
              rw [hfind] at hsound
              exact h.alloc hsound rfl rfl rfl
          | some ref => exact h.setCounter ref _
      | unsubscribe subscriberID => exact h.unsubscribe hhalted subscriberID
      | subscribeStream handler subscriberID => exact h.subscribeStream hhalted hquiet
      | receive handler =>
          simp only [StreamService.perform, StreamService.receive] at hsound ⊢
          split_ifs at hsound ⊢
          · exact h.of_fading hsound rfl rfl rfl id
          · exact h
      | contextDone handler =>
          simp only [StreamService.perform, StreamService.contextDone] at hsound ⊢
          split_ifs at hsound ⊢
          · exact h.of_fading hsound rfl rfl rfl id
          · exact h
      | sendPublication send subscriberID => exact h.sendPublication send subscriberID
      | proceed send => exact h.proceed send
      | sendReturns send ok => exact h.sendReturns send ok
      | cleanUp send => exact h.cleanUp hhalted send

/-- As long as nobody reconnects during a `Send`, the streamer has no newer stream. -/
theorem Tracked.noneNewer (h : s.Tracked) (event : StreamEvent) : s.NoneNewer event := by
  cases event with
  | cleanUp send =>
      intro _ ref stream hsend
      have hstream : (s.sends send).stream = some (ref, stream) := by rw [hsend, SendPhase.stream]
      exact h.current hstream
  | subscribe subscriberID => trivial
  | unsubscribe subscriberID => trivial
  | subscribeStream handler subscriberID => trivial
  | receive handler => trivial
  | contextDone handler => trivial
  | sendPublication send subscriberID => trivial
  | proceed send => trivial
  | sendReturns send ok => trivial

theorem Sound.throughout_closesOwn_iff (h : s.Sound) (events : List StreamEvent) :
    Throughout StreamService.step ClosesOwn s events ↔
      Throughout StreamService.step NoneNewer s events := by
  induction events generalizing s with
  | nil => exact Iff.rfl
  | cons event rest ih => exact and_congr (h.closesOwn_iff event) (ih (h.step event))

theorem Tracked.throughout_noneNewer (h : s.Tracked) {events : List StreamEvent}
    (hquiet : Throughout StreamService.step NoReconnect s events) :
    Throughout StreamService.step NoneNewer s events := by
  induction events generalizing s with
  | nil => trivial
  | cons event rest ih => exact ⟨h.noneNewer event, ih (h.step hquiet.1) hquiet.2⟩

/-- In every interleaving: the cleanups after failed sends close the streams on which the
sends failed and no others exactly if no cleanup finds a newer stream in its streamer.  None
does if nobody reconnects between the begin of a `Send` and its end. -/
theorem run_closesOwn (events : List StreamEvent) :
    (Throughout step ClosesOwn new events ↔ Throughout step NoneNewer new events) ∧
      (Throughout step NoReconnect new events → Throughout step ClosesOwn new events) :=
  ⟨new_sound.throughout_closesOwn_iff events, fun hquiet =>
    (new_sound.throughout_closesOwn_iff events).2 (new_tracked.throughout_noneNewer hquiet)⟩

namespace Sample

def subscriber : Bytes := text "alice"

/-- Alice reconnects while a publication is being sent to her on her old stream. -/
def reconnecting : List StreamEvent :=
  [.subscribeStream 0 subscriber, .sendPublication 0 subscriber, .proceed 0, .proceed 0,
    .proceed 0, .subscribeStream 1 subscriber, .sendReturns 0 false]

theorem newStream_closed :
    ¬ ∀ events, Throughout step ClosesOwn new events := by
  intro hall
  have hcloses := hall (reconnecting ++ [.cleanUp 0])
  have hlast : (new.run reconnecting).ClosesOwn (.cleanUp 0) :=
    hcloses.2.2.2.2.2.2.2.1
  exact absurd (congrArg FinishedChannel.sent (hlast 0 0 rfl 1 (by decide)).1) (by decide)

/-- She reconnects before it is sent. -/
def orderly : List StreamEvent :=
  [.subscribeStream 0 subscriber, .subscribeStream 1 subscriber, .sendPublication 0 subscriber,
    .proceed 0, .proceed 0, .proceed 0, .sendReturns 0 false, .cleanUp 0]

theorem orderly_closesOwn :
    Throughout step NoReconnect new orderly ∧ Throughout step ClosesOwn new orderly := by
  have hquiet : Throughout step NoReconnect new orderly := by
    refine ⟨?_, ?_, trivial, trivial, trivial, trivial, trivial, trivial, trivial⟩
    · intro ref hfind
      cases hfind
    · intro ref hfind send stream hsend
      cases hsend
  exact ⟨hquiet, (run_closesOwn orderly).2 hquiet⟩

end Sample

end StreamService

end GEDS
