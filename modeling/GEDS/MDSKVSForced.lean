/-
Concurrent creates that make their bucket when it is missing.  The bucket is looked up,
created and looked up again in separate sections; a call that finds it created by another
one in between gives up, and its object is lost.
-/
import GEDS.Library.WriteBehind
import GEDS.MDSKVSConcurrent

namespace GEDS

open WriteBehind

/-- Only forced creates are called. -/
def Action.Forced : Action → Prop
  | .invoke _ call => ∃ obj, call = .createObject obj true
  | .advance _ | .respond _ => True

/-- The action is the next section of the call. -/
def Action.advances (id : Nat) : Action → Bool
  | .advance other => decide (other = id)
  | _ => false

/-- What `lookup` finds under a name. -/
def MDSKVS.stored (kvs : MDSKVS) (id : ObjectID) : Option ObjectInfo :=
  (kvs.contents id.bucket).bind fun contents => contents id.key

theorem MDSKVS.lookup_of_stored {kvs : MDSKVS} (hwf : kvs.WellFormed) {id : ObjectID}
    {info : ObjectInfo} (hstored : kvs.stored id = some info) :
    kvs.lookup id = .ok ⟨id, info⟩ := by
  obtain ⟨contents, hcontents, hinfo⟩ := Option.bind_eq_some_iff.1 hstored
  rw [lookup_eq_reference hwf, Reference.lookup, hcontents]
  dsimp only
  rw [hinfo]

/-- The bucket gets the object under its name, and nothing else changes. -/
theorem MDSKVS.stored_createObject {kvs : MDSKVS} (hwf : kvs.WellFormed) {ref : Nat} {obj : Object}
    (hfind : kvs.map.find obj.id.bucket = some ref) :
    (MDSKVSBucket.createObject kvs ref obj).2.stored =
      Function.update kvs.stored obj.id (some obj.info) := by
  have hcontents := (MDSKVS.createObject_touches hwf ref obj).contents_update hwf hfind
  funext id
  rw [stored, hcontents]
  by_cases hid : id = obj.id
  · rw [hid, Function.update_self, Function.update_self, Option.bind_some, Function.update_self]
  · rw [Function.update_of_ne hid, stored]
    by_cases hbucket : id.bucket = obj.id.bucket
    · have hkey : id.key ≠ obj.id.key := fun hkey => hid (congrArg₂ ObjectID.mk hbucket hkey)
      rw [hbucket, Function.update_self, Option.bind_some, Function.update_of_ne hkey,
        contents_of_find hfind, Option.bind_some]
    · rw [Function.update_of_ne hbucket]

/-- The call has its answer. -/
def Phase.Answered (response : Response) (phase : Phase) : Prop :=
  phase = .finished response ∨ phase = .returned response

namespace Concurrent

/-- A name is found with the info of one of the calls for it. -/
def Written (state : Concurrent) (id : ObjectID) : Prop :=
  ∃ caller obj phase, state.calls caller = some (.createObject obj true, phase) ∧
    obj.id = id ∧ state.kvs.lookup id = .ok ⟨id, obj.info⟩

/-- The same, of the contents of the store. -/
def StoredBy (state : Concurrent) (id : ObjectID) : Prop :=
  ∃ caller obj phase, state.calls caller = some (.createObject obj true, phase) ∧
    obj.id = id ∧ state.kvs.stored id = some obj.info

/-- Every forced create that came to an end returned OK, and its key is there. -/
def NoneLost (state : Concurrent) : Prop :=
  ∀ caller obj phase response, state.calls caller = some (.createObject obj true, phase) →
    phase.Answered response → response = .status .okStatus ∧ state.Written obj.id

/-- A call that missed its bucket finds it missing still when it creates it. -/
def CreatesMissing (state : Concurrent) : Action → Prop
  | .advance caller => ∀ call, state.calls caller = some (call, .bucketMissing) →
      state.kvs.map.find call.bucket = none
  | .invoke _ _ | .respond _ => True

/-- Where a call may stand while no bucket is deleted. -/
def Reached (state : Concurrent) (obj : Object) : Phase → Prop
  | .start | .bucketMissing => True
  | .bucketCreated => state.kvs.map.find obj.id.bucket ≠ none
  | .bucket ref => state.kvs.map.find obj.id.bucket = some ref
  | .container _ _ => False
  | .finished response | .returned response =>
      response = .status .okStatus ∧ state.StoredBy obj.id

/-- All calls are forced creates that may stand where they do. -/
structure Progressing (state : Concurrent) : Prop where
  wellFormed : state.kvs.WellFormed
  stands : ∀ {caller : Nat} {call : Call} {phase : Phase},
    state.calls caller = some (call, phase) →
      ∃ obj, call = .createObject obj true ∧ state.Reached obj phase

/-- Nothing that a step must not take away is taken away. -/
structure Grows (state state' : Concurrent) : Prop where
  buckets : ∀ {bucket : Bytes} {ref : Nat}, state.kvs.map.find bucket = some ref →
    state'.kvs.map.find bucket = some ref
  calls : ∀ {caller : Nat} {call : Call} {phase : Phase},
    state.calls caller = some (call, phase) →
      ∃ phase', state'.calls caller = some (call, phase')
  stored : ∀ {id : ObjectID} {info : ObjectInfo}, state.kvs.stored id = some info →
    state'.kvs.stored id = some info ∨ state'.StoredBy id

variable {state state' : Concurrent}

theorem StoredBy.grow (hgrows : Grows state state') {id : ObjectID}
    (hstored : state.StoredBy id) : state'.StoredBy id := by
  obtain ⟨caller, obj, phase, hcall, hid, hinfo⟩ := hstored
  rcases hgrows.stored hinfo with hsame | hwritten
  · obtain ⟨phase', hcall'⟩ := hgrows.calls hcall
    exact ⟨caller, obj, phase', hcall', hid, hsame⟩
  · exact hwritten

theorem Reached.grow (hgrows : Grows state state') {obj : Object} {phase : Phase}
    (hreached : state.Reached obj phase) : state'.Reached obj phase := by
  cases phase with
  | start => trivial
  | bucketMissing => trivial
  | bucketCreated =>
      obtain ⟨ref, hfind⟩ := Option.ne_none_iff_exists'.1 hreached
      exact Option.ne_none_iff_exists'.2 ⟨ref, hgrows.buckets hfind⟩
  | bucket ref => exact hgrows.buckets hreached
  | container ref container => exact hreached
  | finished response => exact ⟨hreached.1, hreached.2.grow hgrows⟩
  | returned response => exact ⟨hreached.1, hreached.2.grow hgrows⟩

/-- The state after a section of a call. -/
def moved (state : Concurrent) (caller : Nat) (call : Call) (next : Phase × MDSKVS) :
    Concurrent :=
  { state with
    kvs := next.2
    calls := Function.update state.calls caller (some (call, next.1)) }

section Sections

variable {caller : Nat} {call : Call} {obj : Object} {phase : Phase} {next : Phase × MDSKVS}

@[simp] theorem kvs_moved : (state.moved caller call next).kvs = next.2 := rfl

@[simp] theorem calls_moved_self :
    (state.moved caller call next).calls caller = some (call, next.1) :=
  Function.update_self _ _ _

theorem calls_moved_of_ne {other : Nat} (hne : other ≠ caller) :
    (state.moved caller call next).calls other = state.calls other :=
  Function.update_of_ne hne _ _

/-- A section of one call: the others stand where they stood. -/
theorem Progressing.moved (h : state.Progressing)
    (hcall : state.calls caller = some (.createObject obj true, phase))
    (hwf : next.2.WellFormed)
    (hbuckets : ∀ {bucket : Bytes} {ref : Nat}, state.kvs.map.find bucket = some ref →
      next.2.map.find bucket = some ref)
    (hstored : ∀ {id : ObjectID} {info : ObjectInfo}, state.kvs.stored id = some info →
      next.2.stored id = some info ∨
        (state.moved caller (.createObject obj true) next).StoredBy id)
    (hreached : (state.moved caller (.createObject obj true) next).Reached obj next.1) :
    (state.moved caller (.createObject obj true) next).Progressing := by
  have hgrows : Grows state (state.moved caller (.createObject obj true) next) := by
    refine ⟨hbuckets, ?_, hstored⟩
    intro other call other_phase hother
    by_cases heq : other = caller
    · subst heq
      rw [hcall, Option.some.injEq, Prod.mk.injEq] at hother
      rw [← hother.1]
      exact ⟨next.1, calls_moved_self⟩
    · exact ⟨other_phase, (calls_moved_of_ne heq).trans hother⟩
  refine ⟨hwf, ?_⟩
  intro other call other_phase hother
  by_cases heq : other = caller
  · subst heq
    rw [calls_moved_self, Option.some.injEq, Prod.mk.injEq] at hother
    obtain ⟨rfl, rfl⟩ := hother
    exact ⟨obj, rfl, hreached⟩
  · rw [calls_moved_of_ne heq] at hother
    obtain ⟨other_obj, rfl, hold⟩ := h.stands hother
    exact ⟨other_obj, rfl, hold.grow hgrows⟩

/-- A section that leaves the store alone. -/
theorem Progressing.wait (h : state.Progressing)
    (hcall : state.calls caller = some (.createObject obj true, phase)) {phase' : Phase}
    (hreached : (state.moved caller (.createObject obj true) (phase', state.kvs)).Reached obj
      phase') :
    (state.moved caller (.createObject obj true) (phase', state.kvs)).Progressing :=
  h.moved hcall h.wellFormed id Or.inl hreached

theorem StoredBy.wait (hcall : state.calls caller = some (.createObject obj true, phase))
    {id : ObjectID} (hstored : state.StoredBy id) (phase' : Phase) :
    (state.moved caller (.createObject obj true) (phase', state.kvs)).StoredBy id := by
  obtain ⟨other, other_obj, other_phase, hother, hid, hinfo⟩ := hstored
  by_cases heq : other = caller
  · subst heq
    rw [hcall, Option.some.injEq, Prod.mk.injEq, Call.createObject.injEq] at hother
    exact ⟨other, other_obj, phase', by rw [calls_moved_self, hother.1.1], hid, hinfo⟩
  · exact ⟨other, other_obj, other_phase, (calls_moved_of_ne heq).trans hother, hid, hinfo⟩

/-- The section that creates the missing bucket. -/
theorem Progressing.createBucket (h : state.Progressing)
    (hcall : state.calls caller = some (.createObject obj true, phase))
    (hfind : state.kvs.map.find obj.id.bucket = none) :
    (state.moved caller (.createObject obj true)
      (.bucketCreated, (state.kvs.createBucket obj.id.bucket).2)).Progressing := by
  obtain ⟨-, hcreated, hcontents, hwf⟩ := MDSKVS.createBucket_refines h.wellFormed hfind
  apply h.moved hcall hwf
  · intro bucket ref hold
    have hne : bucket ≠ obj.id.bucket := by
      rintro rfl
      exact absurd (hfind.symm.trans hold) (by simp)
    simp only [MDSKVS.createBucket, hfind, OrderedMap.find_insert, if_neg hne, hold]
  · intro id info hold
    left
    have hne : id.bucket ≠ obj.id.bucket := by
      intro heq
      rw [MDSKVS.stored, heq, (MDSKVS.contents_eq_none_iff _ _).2 hfind] at hold
      cases hold
    rw [MDSKVS.stored, hcontents, Function.update_of_ne hne]
    exact hold
  · change (state.kvs.createBucket obj.id.bucket).2.map.find obj.id.bucket ≠ none
    rw [hcreated]
    exact Option.some_ne_none _

/-- The section that stores the object. -/
theorem Progressing.createObject (h : state.Progressing) {ref : Nat}
    (hcall : state.calls caller = some (.createObject obj true, phase))
    (hfind : state.kvs.map.find obj.id.bucket = some ref) :
    (state.moved caller (.createObject obj true) (.finished (.status .okStatus),
      (MDSKVSBucket.createObject state.kvs ref obj).2)).Progressing := by
  have htouch := MDSKVS.createObject_touches h.wellFormed ref obj
  have hstored := MDSKVS.stored_createObject h.wellFormed hfind
  have hown : (state.moved caller (.createObject obj true) (.finished (.status .okStatus),
      (MDSKVSBucket.createObject state.kvs ref obj).2)).StoredBy obj.id := by
    refine ⟨caller, obj, _, calls_moved_self, rfl, ?_⟩
    rw [kvs_moved, hstored, Function.update_self]
  apply h.moved hcall htouch.wellFormed
  · intro bucket other hold
    rw [htouch.map_eq]
    exact hold
  · intro id info hold
    by_cases hid : id = obj.id
    · exact Or.inr (hid ▸ hown)
    · left
      rw [hstored, Function.update_of_ne hid]
      exact hold
  · exact ⟨rfl, hown⟩

/-- What a forced create does next, as long as no bucket is deleted. -/
theorem Progressing.advance (h : state.Progressing)
    (hcall : state.calls caller = some (.createObject obj true, phase))
    (hmissing : phase = .bucketMissing → state.kvs.map.find obj.id.bucket = none) :
    (state.moved caller (.createObject obj true)
      (state.kvs.advance (.createObject obj true) phase)).Progressing := by
  obtain ⟨_, hobj, hreached⟩ := h.stands hcall
  obtain rfl : obj = _ := by
    injection hobj
  cases phase with
  | start =>
      simp only [MDSKVS.advance, MDSKVS.enter, MDSKVS.getBucket]
      cases hfind : state.kvs.map.find obj.id.bucket with
      | none => exact h.wait hcall trivial
      | some ref => exact h.wait hcall hfind
  | bucketMissing =>
      have hfind := hmissing rfl
      have hok := (MDSKVS.createBucket_refines h.wellFormed hfind).1
      have hadvance : state.kvs.advance (.createObject obj true) .bucketMissing =
          (.bucketCreated, (state.kvs.createBucket obj.id.bucket).2) := by
        simp [MDSKVS.advance, Call.bucket, hok, Status.ok, Status.okStatus]
      rw [hadvance]
      exact h.createBucket hcall hfind
  | bucketCreated =>
      obtain ⟨ref, hfind⟩ := Option.ne_none_iff_exists'.1 hreached
      simp only [MDSKVS.advance, MDSKVS.getBucket, Call.bucket, hfind]
      exact h.wait hcall hfind
  | bucket ref => exact h.createObject hcall hreached
  | container ref container => exact absurd hreached id
  | finished response => exact h.wait hcall ⟨hreached.1, hreached.2.wait hcall _⟩
  | returned response => exact h.wait hcall ⟨hreached.1, hreached.2.wait hcall _⟩

end Sections

theorem moved_of_advance {caller : Nat} {call : Call} {phase : Phase}
    (hcall : state.calls caller = some (call, phase)) :
    state.act (.advance caller) = state.moved caller call (state.kvs.advance call phase) := by
  simp only [act, hcall]
  rfl

/-- A call that begins takes nothing away. -/
theorem Progressing.invoke (h : state.Progressing) (caller : Nat) (obj : Object) :
    (state.act (.invoke caller (.createObject obj true))).Progressing := by
  rw [Concurrent.act]
  cases hcall : state.calls caller with
  | some call => exact h
  | none =>
      refine ⟨h.wellFormed, ?_⟩
      have hkept : ∀ {other : Nat} {call : Call × Phase}, state.calls other = some call →
          Function.update state.calls caller (some (.createObject obj true, .start)) other =
            some call := by
        intro other call hother
        have hne : other ≠ caller := by
          rintro rfl
          exact absurd (hcall.symm.trans hother) (by simp)
        rw [Function.update_of_ne hne, hother]
      have hgrows : Grows state { state with
          calls := Function.update state.calls caller (some (.createObject obj true, .start))
          history := state.history ++ [.invoke caller (.createObject obj true)] } :=
        ⟨id, fun hold => ⟨_, hkept hold⟩, Or.inl⟩
      intro other call phase hother
      change Function.update state.calls caller _ other = _ at hother
      rw [Function.update_apply] at hother
      split_ifs at hother
      · rw [Option.some.injEq, Prod.mk.injEq] at hother
        obtain ⟨rfl, rfl⟩ := hother
        exact ⟨obj, rfl, trivial⟩
      · obtain ⟨other_obj, rfl, hreached⟩ := h.stands hother
        exact ⟨other_obj, rfl, hreached.grow hgrows⟩

theorem Progressing.respond (h : state.Progressing) (caller : Nat) :
    (state.act (.respond caller)).Progressing := by
  rw [Concurrent.act]
  split
  · rename_i call response hcall
    obtain ⟨obj, rfl, hreached⟩ := h.stands hcall
    have hmoved := @Progressing.wait state caller obj _ h hcall (.returned response)
      ⟨hreached.1, hreached.2.wait hcall _⟩
    exact ⟨hmoved.wellFormed, hmoved.stands⟩
  · exact h

/-- No action loses a call. -/
theorem Progressing.act (h : state.Progressing) {action : Action} (hforced : action.Forced)
    (hmissing : state.CreatesMissing action) : (state.act action).Progressing := by
  cases action with
  | invoke caller call =>
      obtain ⟨obj, rfl⟩ := hforced
      exact h.invoke caller obj
  | advance caller =>
      cases hcall : state.calls caller with
      | none =>
          simp only [Concurrent.act, hcall]
          exact h
      | some entry =>
          obtain ⟨call, phase⟩ := entry
          obtain ⟨obj, rfl, -⟩ := h.stands hcall
          rw [moved_of_advance hcall]
          refine h.advance hcall ?_
          rintro rfl
          exact hmissing _ hcall
  | respond caller => exact h.respond caller

theorem Progressing.noneLost (h : state.Progressing) : state.NoneLost := by
  intro caller obj phase response hcall hanswered
  obtain ⟨other, hobj, hreached⟩ := h.stands hcall
  obtain rfl : obj = other := by injection hobj
  have hstored : response = .status .okStatus ∧ state.StoredBy obj.id := by
    rcases hanswered with rfl | rfl <;> exact hreached
  obtain ⟨hok, writer, written, writerPhase, hwriter, hid, hinfo⟩ := hstored
  exact ⟨hok, writer, written, writerPhase, hwriter, hid,
    MDSKVS.lookup_of_stored h.wellFormed hinfo⟩

/-- What an action may do to a call that was made. -/
theorem calls_act {caller : Nat} {call : Call} {phase : Phase}
    (hcall : state.calls caller = some (call, phase)) (action : Action) :
    ∃ phase', (state.act action).calls caller = some (call, phase') ∧
      (action.advances caller = true ∧ phase' = (state.kvs.advance call phase).1 ∨
        action.advances caller = false ∧
          (phase' = phase ∨ ∃ response, phase = .finished response ∧ phase' = .returned response)) := by
  cases action with
  | invoke other called =>
      refine ⟨phase, ?_, Or.inr ⟨rfl, Or.inl rfl⟩⟩
      rw [act]
      cases hother : state.calls other with
      | some entry => exact hcall
      | none =>
          have hne : caller ≠ other := by
            rintro rfl
            exact absurd (hcall.symm.trans hother) (by simp)
          exact (Function.update_of_ne hne _ _).trans hcall
  | advance other =>
      by_cases heq : caller = other
      · subst heq
        rw [moved_of_advance hcall]
        exact ⟨_, calls_moved_self, Or.inl ⟨by simp [Action.advances], rfl⟩⟩
      · refine ⟨phase, ?_, Or.inr ⟨by simp [Action.advances, Ne.symm heq], Or.inl rfl⟩⟩
        cases hother : state.calls other with
        | none =>
            simp only [act, hother]
            exact hcall
        | some entry =>
            rw [moved_of_advance hother, calls_moved_of_ne heq]
            exact hcall
  | respond other =>
      rw [act]
      split
      · rename_i called answer hother
        by_cases heq : caller = other
        · subst heq
          rw [hcall, Option.some.injEq, Prod.mk.injEq] at hother
          obtain ⟨rfl, rfl⟩ := hother
          exact ⟨_, Function.update_self _ _ _, Or.inr ⟨rfl, Or.inr ⟨answer, rfl, rfl⟩⟩⟩
        · exact ⟨phase, (Function.update_of_ne heq _ _).trans hcall, Or.inr ⟨rfl, Or.inl rfl⟩⟩
      · exact ⟨phase, hcall, Or.inr ⟨rfl, Or.inl rfl⟩⟩

/-- An answer stays what it is. -/
theorem answered_act {caller : Nat} {call : Call} {phase : Phase} {response : Response}
    (hcall : state.calls caller = some (call, phase)) (hanswered : phase.Answered response)
    (action : Action) :
    ∃ phase', (state.act action).calls caller = some (call, phase') ∧
      phase'.Answered response := by
  obtain ⟨phase', hcall', ⟨-, rfl⟩ | ⟨-, rfl | ⟨answer, rfl, rfl⟩⟩⟩ := calls_act hcall action
  · refine ⟨_, hcall', ?_⟩
    rcases hanswered with rfl | rfl
    · exact Or.inl rfl
    · exact Or.inr rfl
  · exact ⟨_, hcall', hanswered⟩
  · refine ⟨_, hcall', Or.inr ?_⟩
    rcases hanswered with hfinished | hreturned
    · injection hfinished with hanswer
      rw [hanswer]
    · cases hreturned

theorem answered_run {caller : Nat} {call : Call} {phase : Phase} {response : Response}
    (hcall : state.calls caller = some (call, phase)) (hanswered : phase.Answered response)
    (actions : List Action) :
    ∃ phase', (state.run actions).calls caller = some (call, phase') ∧
      phase'.Answered response := by
  induction actions generalizing state phase with
  | nil => exact ⟨phase, hcall, hanswered⟩
  | cons action rest ih =>
      obtain ⟨phase', hcall', hanswered'⟩ := answered_act hcall hanswered action
      exact ih hcall' hanswered'

/-- A call that finds its bucket created by another one fails. -/
theorem noneLost_iff_throughout (h : state.Progressing) {actions : List Action}
    (hforced : ∀ action ∈ actions, action.Forced) :
    (state.run actions).NoneLost ↔ Throughout act CreatesMissing state actions := by
  induction actions generalizing state with
  | nil => exact iff_of_true h.noneLost trivial
  | cons action rest ih =>
      have hrest := fun hmissing : state.CreatesMissing action =>
        ih (h.act (hforced action List.mem_cons_self) hmissing)
          fun other hmem => hforced other (List.mem_cons_of_mem action hmem)
      constructor
      · intro hnone
        have hmissing : state.CreatesMissing action := by
          cases action with
          | invoke caller call => trivial
          | respond caller => trivial
          | advance caller =>
              intro call hcall
              by_contra hfind
              obtain ⟨obj, rfl, -⟩ := h.stands hcall
              obtain ⟨ref, hfind⟩ := Option.ne_none_iff_exists'.1 hfind
              have hfailed : state.kvs.advance (.createObject obj true) .bucketMissing =
                  (.finished (.status (bucketAlreadyExists obj.id.bucket)), state.kvs) := by
                rw [Call.bucket] at hfind
                simp [MDSKVS.advance, MDSKVS.createBucket, Call.bucket, hfind,
                  bucketAlreadyExists, Status.alreadyExistsError, Status.ok, Call.failed]
              obtain ⟨phase, hend, hanswered⟩ := @answered_run (state.act (.advance caller)) caller
                (.createObject obj true) _ _
                (by rw [moved_of_advance hcall, calls_moved_self, hfailed]) (Or.inl rfl) rest
              exact absurd (hnone caller obj phase _ hend hanswered).1 (by
                simp [bucketAlreadyExists, Status.alreadyExistsError, Status.okStatus])
        exact ⟨hmissing, (hrest hmissing).1 hnone⟩
      · rintro ⟨hmissing, hlater⟩
        exact (hrest hmissing).2 hlater

/-- How many sections a forced create has at most before it; it never waits for a
container. -/
def sectionsLeft : Phase → Option Nat
  | .start => some 4
  | .bucketMissing => some 3
  | .bucketCreated => some 2
  | .bucket _ => some 1
  | .container _ _ => none
  | .finished _ | .returned _ => some 0

theorem answered_of_sectionsLeft {phase : Phase} (hleft : sectionsLeft phase = some 0) :
    ∃ response, phase.Answered response := by
  cases phase with
  | finished response => exact ⟨response, Or.inl rfl⟩
  | returned response => exact ⟨response, Or.inr rfl⟩
  | start => cases hleft
  | bucketMissing => cases hleft
  | bucketCreated => cases hleft
  | bucket ref => cases hleft
  | container ref container => cases hleft

theorem sectionsLeft_advance (kvs : MDSKVS) (obj : Object) {phase : Phase} {left : Nat}
    (hleft : sectionsLeft phase = some left) :
    ∃ left' ≤ left - 1, sectionsLeft (kvs.advance (.createObject obj true) phase).1 =
      some left' := by
  cases phase with
  | start =>
      obtain rfl := Option.some.inj hleft
      simp only [MDSKVS.advance, MDSKVS.enter]
      cases kvs.getBucket obj.id.bucket with
      | error status => exact ⟨3, le_rfl, rfl⟩
      | ok ref => exact ⟨1, by omega, rfl⟩
  | bucketMissing =>
      obtain rfl := Option.some.inj hleft
      simp only [MDSKVS.advance]
      split_ifs
      · exact ⟨2, le_rfl, rfl⟩
      · exact ⟨0, by omega, rfl⟩
  | bucketCreated =>
      obtain rfl := Option.some.inj hleft
      simp only [MDSKVS.advance]
      cases kvs.getBucket (Call.createObject obj true).bucket with
      | error status => exact ⟨0, by omega, rfl⟩
      | ok ref => exact ⟨1, le_rfl, rfl⟩
  | bucket ref =>
      obtain rfl := Option.some.inj hleft
      exact ⟨0, le_rfl, rfl⟩
  | container ref container => cases hleft
  | finished response => exact ⟨0, Nat.zero_le _, rfl⟩
  | returned response => exact ⟨0, Nat.zero_le _, rfl⟩

/-- A call comes closer to its end with each of its sections, whatever the others do. -/
theorem sectionsLeft_run {caller : Nat} {obj : Object} {phase : Phase} {left : Nat}
    (hcall : state.calls caller = some (.createObject obj true, phase))
    (hleft : sectionsLeft phase = some left) (actions : List Action) :
    ∃ phase' left', (state.run actions).calls caller = some (.createObject obj true, phase') ∧
      sectionsLeft phase' = some left' ∧
      left' ≤ left - actions.countP (Action.advances caller) := by
  induction actions generalizing state phase left with
  | nil => exact ⟨phase, left, hcall, hleft, le_rfl⟩
  | cons action rest ih =>
      have hstep : ∃ phase' left', (state.act action).calls caller =
          some (.createObject obj true, phase') ∧ sectionsLeft phase' = some left' ∧
          left' ≤ left - if Action.advances caller action then 1 else 0 := by
        obtain ⟨phase', hcall', ⟨hown, rfl⟩ | ⟨hother, rfl | ⟨answer, rfl, rfl⟩⟩⟩ :=
          calls_act hcall action
        · obtain ⟨left', hle, hleft'⟩ := sectionsLeft_advance state.kvs obj hleft
          exact ⟨_, left', hcall', hleft', by rwa [if_pos hown]⟩
        · exact ⟨_, left, hcall', hleft, by rw [hother]; exact le_rfl⟩
        · exact ⟨_, 0, hcall', rfl, Nat.zero_le _⟩
      obtain ⟨phase', left', hcall', hleft', hle⟩ := hstep
      obtain ⟨phase'', left'', hend, hleft'', hle'⟩ := ih hcall' hleft'
      refine ⟨phase'', left'', hend, hleft'', hle'.trans ?_⟩
      rw [List.countP_cons]
      omega

/-- A store on which no call is running. -/
def idle (kvs : MDSKVS) : Concurrent := ⟨kvs, fun _ => none, []⟩

/-- Whatever was in the store, and in every interleaving of forced creates: all those that
ended returned OK, and their keys are found with the info of one of the calls for them,
exactly if none of them found its bucket created by another one after it had missed it.
Each of them ends with its fourth section at the latest. -/
theorem run_forcedCreates (defaultBucket : Option Bytes) (calls : List Call)
    (actions : List Action) (hforced : ∀ action ∈ actions, action.Forced) :
    (((idle ((MDSKVS.new defaultBucket).run calls)).run actions).NoneLost ↔
      Throughout act CreatesMissing (idle ((MDSKVS.new defaultBucket).run calls)) actions) ∧
    ∀ earlier caller obj later,
      actions = earlier ++ .invoke caller (.createObject obj true) :: later →
      ((idle ((MDSKVS.new defaultBucket).run calls)).run earlier).calls caller = none →
      4 ≤ later.countP (Action.advances caller) →
      ∃ phase response, ((idle ((MDSKVS.new defaultBucket).run calls)).run actions).calls caller =
        some (.createObject obj true, phase) ∧ phase.Answered response := by
  have hwf := (MDSKVS.run_refines (MDSKVS.new_wellFormed defaultBucket).1 calls).1
  generalize (MDSKVS.new defaultBucket).run calls = kvs at hwf ⊢
  constructor
  · exact noneLost_iff_throughout ⟨hwf, fun hcall => by cases hcall⟩ hforced
  · rintro earlier caller obj later rfl hfree hcount
    rw [run, List.foldl_append, List.foldl_cons]
    change ∃ phase response, ((((idle kvs).run earlier).act
      (.invoke caller (.createObject obj true))).run later).calls caller = _ ∧ _
    have hinvoked : (((idle kvs).run earlier).act
        (.invoke caller (.createObject obj true))).calls caller =
          some (.createObject obj true, .start) := by
      simp only [act, hfree]
      exact Function.update_self _ _ _
    obtain ⟨phase, left, hend, hleft, hle⟩ := sectionsLeft_run hinvoked rfl later
    obtain rfl : left = 0 := by omega
    obtain ⟨response, hanswered⟩ := answered_of_sectionsLeft hleft
    exact ⟨phase, response, hend, hanswered⟩

namespace Forced.Sample

def object (key : Bytes) : Object := ⟨⟨text "data", key⟩, ⟨text "geds://node", 1, 1, none⟩⟩

/-- Two calls for one bucket, one after the other. -/
def inTurn : List Action :=
  [.invoke 0 (.createObject (object (text "a")) true), .advance 0, .advance 0, .advance 0,
    .advance 0, .invoke 1 (.createObject (object (text "b")) true), .advance 1, .advance 1]

/-- Both miss the bucket before one of them creates it. -/
def racing : List Action :=
  [.invoke 0 (.createObject (object (text "a")) true),
    .invoke 1 (.createObject (object (text "b")) true),
    .advance 0, .advance 1, .advance 0, .advance 1]

theorem inTurn_forced : ∀ action ∈ inTurn, action.Forced := by
  simp [inTurn, Action.Forced]

theorem inTurn_noneLost :
    (∀ action ∈ inTurn, action.Forced) ∧
      ((idle ((MDSKVS.new none).run [])).run inTurn).NoneLost := by
  refine ⟨inTurn_forced, (run_forcedCreates none [] inTurn inTurn_forced).1.2 ?_⟩
  refine ⟨trivial, ?_, ?_, ?_, ?_, trivial, ?_, ?_, trivial⟩
  all_goals
    intro call hcall
    cases hcall
    try rfl

theorem racing_lost :
    ¬ ∀ (kvs : MDSKVS) (actions : List Action), kvs.WellFormed →
      (∀ action ∈ actions, action.Forced) → ((idle kvs).run actions).NoneLost := by
  intro hall
  have hnone := hall (MDSKVS.new none) racing (MDSKVS.new_wellFormed none).1
    (by simp [racing, Action.Forced])
  have hend : ((idle (MDSKVS.new none)).run racing).calls 1 = some
      (.createObject (object (text "b")) true,
        .finished (.status (bucketAlreadyExists (text "data")))) := rfl
  exact absurd (hnone 1 _ _ _ hend (Or.inl rfl)).1 (by
    simp [bucketAlreadyExists, Status.alreadyExistsError, Status.okStatus])

end Forced.Sample

end Concurrent

end GEDS
