/-
Every interleaving of calls on the metadata store is linearizable: each call
takes effect in the section that answers it, at the place of the order where
the memory it points to still was the memory of the store.
-/
import GEDS.MDSKVSOrder

namespace GEDS

/-- `createObject` with `forceCreateBucket`. -/
def Call.forcesBucket : Call → Bool
  | .createObject _ forceCreateBucket => forceCreateBucket
  | _ => false

theorem Call.ne_forced {call : Call} (hplain : call.forcesBucket = false) (obj : Object) :
    call ≠ .createObject obj true := by
  rintro rfl
  exact absurd hplain Bool.noConfusion

/-- The call holds a pointer to the bucket; what was placed behind the point
where the bucket left the table had not returned when the call began. -/
structure HoldsBucket (ghost : Ghost) (kvs : MDSKVS) (history : List (Event Call Response))
    (id : Nat) (call : Call) (ref : Nat) : Prop where
  new : id ∉ ghost.order.map Entry.id
  stays : call.staysInBucket = true
  lt : ref < kvs.buckets.next
  named : (kvs.buckets.get ref).name = call.bucket
  behind : ∀ {other : Nat}, other ∈ idsFrom ghost.order (ghost.detachedBy ref) →
    ¬ Precedes history other id

/-- The call holds a pointer to the container of its key as well. -/
structure HoldsContainer (ghost : Ghost) (kvs : MDSKVS)
    (history : List (Event Call Response)) (id : Nat) (call : Call)
    (ref container : Nat) : Prop extends HoldsBucket ghost kvs history id call ref where
  container_lt : container < kvs.containers.next
  owner : ghost.owner container = (ref, call.key)
  accesses : (∃ obj, call = .updateObject obj) ∨ ∃ object, call = .lookup object
  unlinked_behind : ∀ {other : Nat},
    other ∈ idsFrom ghost.order (ghost.unlinkedBy container) →
    ¬ Precedes history other id

/-- What is known about a call in each phase. -/
def Stands (ghost : Ghost) (kvs : MDSKVS) (history : List (Event Call Response))
    (id : Nat) (call : Call) : Phase → Prop
  | .start => id ∉ ghost.order.map Entry.id
  | .bucketMissing | .bucketCreated => False
  | .bucket ref => HoldsBucket ghost kvs history id call ref
  | .container ref container => HoldsContainer ghost kvs history id call ref container
  | .finished response | .returned response => ⟨id, call, response⟩ ∈ ghost.order

/-- The section gives the call its place in the order. -/
def TakesEffect (init : Reference) (ghost : Ghost) (kvs : MDSKVS)
    (history : List (Event Call Response)) (id : Nat) (call : Call)
    (next : Phase × MDSKVS) : Prop :=
  ∃ response anchor ghost', next.1 = .finished response ∧
    id ∉ ghost.order.map Entry.id ∧
    Commits init ghost kvs ⟨id, call, response⟩ anchor ghost' next.2 ∧
    ∀ other ∈ idsFrom ghost.order anchor, ¬ Precedes history other id

/-- The section only moves the call on. -/
def MovesOn (ghost : Ghost) (kvs : MDSKVS) (history : List (Event Call Response))
    (id : Nat) (call : Call) (next : Phase × MDSKVS) : Prop :=
  next.2 = kvs ∧ Stands ghost kvs history id call next.1

section Sections

variable {init : Reference} {ghost : Ghost} {kvs : MDSKVS}
  {history : List (Event Call Response)} {id : Nat} {call : Call}

theorem Explains.contents_perform (h : Explains init ghost kvs) (call : Call) :
    kvs.contents.perform call = ((kvs.perform call).1, (kvs.perform call).2.contents) := by
  obtain ⟨hanswer, hcontents, _⟩ := MDSKVS.perform_refines h.wellFormed call
  rw [hanswer, hcontents]

/-- A call on the table of buckets. -/
theorem enter_table (h : Explains init ghost kvs) (hplain : call.forcesBucket = false)
    (hstays : call.staysInBucket = false) (hnew : id ∉ ghost.order.map Entry.id) :
    TakesEffect init ghost kvs history id call (kvs.enter call) := by
  rw [MDSKVS.enter_of_table kvs hstays (Call.ne_forced hplain)]
  have hperform := h.contents_perform call
  have hcommit : ∃ ghost', Commits init ghost kvs ⟨id, call, (kvs.perform call).1⟩ none
      ghost' (kvs.perform call).2 := by
    cases call with
    | createBucket bucket =>
        cases hfind : kvs.map.find bucket with
        | none => exact h.commit_createBucket hnew hfind hperform
        | some ref =>
            have hsame : (kvs.perform (.createBucket bucket)).2 = kvs := by
              simp [MDSKVS.perform, MDSKVS.createBucket, hfind]
            rw [hsame] at hperform ⊢
            exact h.commit_observation hnew hperform
    | deleteBucket bucket =>
        cases hfind : kvs.map.find bucket with
        | none =>
            have hsame : (kvs.perform (.deleteBucket bucket)).2 = kvs := by
              simp [MDSKVS.perform, MDSKVS.deleteBucket, hfind]
            rw [hsame] at hperform ⊢
            exact h.commit_observation hnew hperform
        | some ref =>
            have herase : (kvs.perform (.deleteBucket bucket)).2 =
                { kvs with map := kvs.map.erase bucket } := by
              simp [MDSKVS.perform, MDSKVS.deleteBucket, hfind]
            rw [herase] at hperform ⊢
            exact h.commit_deleteBucket hnew rfl hfind hperform
    | bucketStatus bucket => exact h.commit_observation hnew hperform
    | createObject obj force => simp_all [Call.staysInBucket, Call.forcesBucket]
    | updateObject obj => simp [Call.staysInBucket] at hstays
    | deleteObject key => simp [Call.staysInBucket] at hstays
    | deleteObjectPrefix key => simp [Call.staysInBucket] at hstays
    | lookup key => simp [Call.staysInBucket] at hstays
  obtain ⟨ghost', hghost⟩ := hcommit
  refine ⟨_, none, ghost', rfl, hnew, hghost, ?_⟩
  rw [idsFrom_none]
  exact fun other hother => absurd hother List.not_mem_nil

/-- An object call looks for its bucket. -/
theorem enter_object (h : Explains init ghost kvs) (hstays : call.staysInBucket = true)
    (hnew : id ∉ ghost.order.map Entry.id) :
    MovesOn ghost kvs history id call (kvs.enter call) ∨
      TakesEffect init ghost kvs history id call (kvs.enter call) := by
  cases hfind : kvs.map.find call.bucket with
  | none =>
      have hperform : kvs.contents.perform call = (call.missing, kvs.contents) := by
        rw [Reference.perform_eq_onBucket _ hstays, Reference.onBucket,
          (MDSKVS.contents_eq_none_iff kvs _).mpr hfind]
      rw [MDSKVS.enter_of_missing kvs hstays hfind]
      have hcommit : ∃ ghost', Commits init ghost kvs ⟨id, call, call.missing⟩ none
          ghost' kvs := h.commit_observation hnew hperform
      obtain ⟨ghost', hghost⟩ := hcommit
      refine Or.inr ⟨_, none, ghost', rfl, hnew, hghost, ?_⟩
      rw [idsFrom_none]
      exact fun other hother => absurd hother List.not_mem_nil
  | some ref =>
      rw [MDSKVS.enter_of_find kvs hstays hfind]
      refine Or.inl ⟨rfl, hnew, hstays, h.wellFormed.bucket_lt hfind,
        h.wellFormed.named hfind, ?_⟩
      intro other hother
      rw [h.buckets.attached hfind, idsFrom_none] at hother
      exact absurd hother List.not_mem_nil

/-- A section that answers inside the bucket. -/
theorem HoldsBucket.takesEffect (h : Explains init ghost kvs) {ref : Nat}
    (hholds : HoldsBucket ghost kvs history id call ref) {kvs' : MDSKVS}
    (hstep : BucketStep kvs kvs' ref call) {response : Response}
    (hanswer : ((kvs.bucketContents ref).perform call.bucket call).1 = response) :
    TakesEffect init ghost kvs history id call (.finished response, kvs') := by
  have hcommit : ∃ ghost', Commits init ghost kvs ⟨id, call, response⟩
      (ghost.detachedBy ref) ghost' kvs' :=
    h.commit_bucket hholds.new hholds.lt hholds.named hholds.stays hstep hanswer
  obtain ⟨ghost', hghost⟩ := hcommit
  exact ⟨response, _, ghost', rfl, hholds.new, hghost, fun _ hother => hholds.behind hother⟩

/-- The container of the key was found and is linked now. -/
theorem HoldsBucket.found (h : Explains init ghost kvs) {ref : Nat}
    (hholds : HoldsBucket ghost kvs history id call ref) {container : Nat}
    (hfind : (kvs.buckets.get ref).map.find call.key = some container)
    (haccesses : (∃ obj, call = .updateObject obj) ∨ ∃ object, call = .lookup object) :
    HoldsContainer ghost kvs history id call ref container := by
  obtain ⟨howner, hnone⟩ := h.containers.linked hfind
  refine ⟨hholds, h.wellFormed.container_lt hfind, howner, haccesses, ?_⟩
  intro other hother
  rw [hnone, idsFrom_none] at hother
  exact absurd hother List.not_mem_nil

/-- The section under the lock of the bucket. -/
theorem HoldsBucket.enterBucket (h : Explains init ghost kvs) {ref : Nat}
    (hholds : HoldsBucket ghost kvs history id call ref) :
    MovesOn ghost kvs history id call (kvs.enterBucket call ref) ∨
      TakesEffect init ghost kvs history id call (kvs.enterBucket call ref) := by
  have hwf := h.wellFormed
  have hname := hholds.named
  have hanswer := (MDSKVSBucket.perform_refines hwf call hname).1
  cases call with
  | createObject obj force =>
      exact Or.inr (hholds.takesEffect h (BucketStep.createObject hwf obj force)
        hanswer.symm)
  | deleteObject key =>
      exact Or.inr (hholds.takesEffect h (BucketStep.deleteObject hwf key hname)
        hanswer.symm)
  | deleteObjectPrefix key =>
      exact Or.inr (hholds.takesEffect h (BucketStep.deleteObjectPrefix hwf key hname)
        hanswer.symm)
  | updateObject obj =>
      rw [MDSKVS.enterBucket, MDSKVSBucket.getObject]
      cases hfind : (kvs.buckets.get ref).map.find obj.id.key with
      | none =>
          have hnone := (MDSKVS.bucketContents_eq_none_iff kvs ref _).mpr hfind
          refine Or.inr (hholds.takesEffect h (BucketStep.refl hwf ?_) ?_)
          · simp [Contents.perform, hnone]
          · simp [Contents.perform, hnone]
      | some container => exact Or.inl ⟨rfl, hholds.found h hfind (Or.inl ⟨obj, rfl⟩)⟩
  | lookup key =>
      rw [MDSKVS.enterBucket, MDSKVSBucket.getObject]
      cases hfind : (kvs.buckets.get ref).map.find key.key with
      | none =>
          have hnone := (MDSKVS.bucketContents_eq_none_iff kvs ref _).mpr hfind
          refine Or.inr (hholds.takesEffect h (BucketStep.refl hwf ?_) ?_)
          · simp [Contents.perform, hnone]
          · simp [Contents.perform, hnone]
      | some container => exact Or.inl ⟨rfl, hholds.found h hfind (Or.inr ⟨key, rfl⟩)⟩
  | createBucket bucket => exact absurd hholds.stays Bool.noConfusion
  | deleteBucket bucket => exact absurd hholds.stays Bool.noConfusion
  | bucketStatus bucket => exact absurd hholds.stays Bool.noConfusion

/-- A section on a container that was unlinked meanwhile. -/
theorem HoldsContainer.takesEffect (h : Explains init ghost kvs) {ref container : Nat}
    (hholds : HoldsContainer ghost kvs history id call ref container) {killed : Nat}
    (hunlinked : ghost.unlinkedBy container = some killed) {response : Response}
    (info : ObjectInfo)
    (heffect : ∀ contents : Contents,
      contents call.key = some (kvs.containers.get container) →
      contents.perform call.bucket call =
        (response, Function.update contents call.key (some info))) :
    TakesEffect init ghost kvs history id call
      (.finished response, MDSKVSBucket.writeContainer kvs container info) := by
  obtain ⟨killer, hmem, rfl, hbucket, hunlinks⟩ :=
    h.containers.unlinked hholds.container_lt hunlinked
  have howner := hholds.owner
  have hlate : Explains.LateAccess ghost kvs ⟨id, call, response⟩ killer container info := by
    refine ⟨hholds.container_lt, hunlinked, hmem, hunlinks, ?_, hholds.stays, ?_, ?_⟩
    · rw [hbucket, howner]
      exact hholds.named
    · rw [howner]
      exact hholds.named
    · rw [howner]
      exact heffect
  obtain ⟨ghost', hghost⟩ := Explains.commit_late h hholds.new hlate
  refine ⟨response, _, ghost', rfl, hholds.new, hghost, ?_⟩
  intro other hother
  rw [← hunlinked] at hother
  exact hholds.unlinked_behind hother

/-- The section under the lock of the container. -/
theorem HoldsContainer.enterContainer (h : Explains init ghost kvs) {ref container : Nat}
    (hholds : HoldsContainer ghost kvs history id call ref container) :
    TakesEffect init ghost kvs history id call
      (kvs.enterContainer call ref container) := by
  have howner := hholds.owner
  cases hunlinked : ghost.unlinkedBy container with
  | none =>
      have hfind := h.containers.in_bucket hholds.container_lt hunlinked
      rw [howner] at hfind
      have hcontents := MDSKVS.bucketContents_of_find hfind
      rcases hholds.accesses with ⟨obj, rfl⟩ | ⟨object, rfl⟩
      · apply hholds.toHoldsBucket.takesEffect h
          (BucketStep.writeContainer h.wellFormed hfind)
        change kvs.bucketContents ref obj.id.key = _ at hcontents
        simp [Contents.perform, hcontents]
      · change kvs.bucketContents ref object.key = _ at hcontents
        have hname : (kvs.buckets.get ref).name = object.bucket := hholds.named
        apply hholds.toHoldsBucket.takesEffect h (BucketStep.refl h.wellFormed _)
        · simp [Contents.perform, hcontents, MDSKVSBucket.readContainer, hname,
            Call.bucket]
        · simp [Contents.perform, hcontents]
  | some killed =>
      rcases hholds.accesses with ⟨obj, rfl⟩ | ⟨object, rfl⟩
      · apply hholds.takesEffect h hunlinked obj.info
        intro contents hvalue
        change contents obj.id.key = _ at hvalue
        simp [Contents.perform, hvalue, Call.key]
      · have hname : (kvs.buckets.get ref).name = object.bucket := hholds.named
        have hsame : MDSKVSBucket.writeContainer kvs container
            (kvs.containers.get container) = kvs := by
          simp [MDSKVSBucket.writeContainer, Heap.set]
        have hread : TakesEffect init ghost kvs history id (.lookup object)
            (.finished (.object (.ok
              (MDSKVSBucket.readContainer kvs ref container object.key))),
              MDSKVSBucket.writeContainer kvs container
                (kvs.containers.get container)) := by
          apply hholds.takesEffect h hunlinked
          intro contents hvalue
          change contents object.key = _ at hvalue
          have hupdate : Function.update contents object.key
              (some (kvs.containers.get container)) = contents := by
            rw [← hvalue, Function.update_eq_self]
          simp [Contents.perform, hvalue, Call.key, MDSKVSBucket.readContainer, hname,
            Call.bucket, hupdate]
        rwa [hsame] at hread

/-- Every section moves its call on or lets it take effect. -/
theorem Stands.advance (h : Explains init ghost kvs) (hplain : call.forcesBucket = false)
    {phase : Phase} (hstands : Stands ghost kvs history id call phase) :
    MovesOn ghost kvs history id call (kvs.advance call phase) ∨
      TakesEffect init ghost kvs history id call (kvs.advance call phase) := by
  cases phase with
  | start =>
      cases hstays : call.staysInBucket with
      | true => exact enter_object h hstays hstands
      | false => exact Or.inr (enter_table h hplain hstays hstands)
  | bucketMissing => exact hstands.elim
  | bucketCreated => exact hstands.elim
  | bucket ref => exact HoldsBucket.enterBucket h hstands
  | container ref container => exact Or.inr (HoldsContainer.enterContainer h hstands)
  | finished response => exact Or.inl ⟨rfl, hstands⟩
  | returned response => exact Or.inl ⟨rfl, hstands⟩

/-- A longer history that puts nothing new before the call. -/
theorem Stands.mono_history {history' : List (Event Call Response)} {phase : Phase}
    (hstands : Stands ghost kvs history id call phase)
    (hmono : ∀ other, Precedes history' other id → Precedes history other id) :
    Stands ghost kvs history' id call phase := by
  cases phase with
  | start => exact hstands
  | bucketMissing => exact hstands
  | bucketCreated => exact hstands
  | bucket ref =>
      exact { (hstands : HoldsBucket ghost kvs history id call ref) with
        behind := fun hother hbefore => hstands.behind hother (hmono _ hbefore) }
  | container ref container =>
      exact { (hstands : HoldsContainer ghost kvs history id call ref container) with
        behind := fun hother hbefore => hstands.behind hother (hmono _ hbefore)
        unlinked_behind := fun hother hbefore =>
          hstands.unlinked_behind hother (hmono _ hbefore) }
  | finished response => exact hstands
  | returned response => exact hstands

variable {entry : Entry Call Response} {anchor : Option Nat} {ghost' : Ghost}
  {kvs' : MDSKVS}

theorem Commits.mem_ids_iff (hcommits : Commits init ghost kvs entry anchor ghost' kvs')
    (other : Nat) : other ∈ ghost'.order.map Entry.id ↔
      other = entry.id ∨ other ∈ ghost.order.map Entry.id := by
  rw [hcommits.order_eq, ((insertBefore_perm entry ghost.order anchor).map Entry.id).mem_iff,
    List.map_cons, List.mem_cons]

theorem HoldsBucket.commit (hcommits : Commits init ghost kvs entry anchor ghost' kvs')
    (hne : id ≠ entry.id) (hpending : ¬ Precedes history entry.id id) {ref : Nat}
    (hholds : HoldsBucket ghost kvs history id call ref) :
    HoldsBucket ghost' kvs' history id call ref := by
  refine ⟨?_, hholds.stays, hholds.lt.trans_le hcommits.buckets_le,
    (hcommits.name_eq hholds.lt).trans hholds.named, ?_⟩
  · rw [hcommits.mem_ids_iff, not_or]
    exact ⟨hne, hholds.new⟩
  · intro other hother
    rcases hcommits.bucket_grows hholds.lt hother with rfl | hold
    · exact hpending
    · exact hholds.behind hold

/-- A call that took effect leaves the others where they stand. -/
theorem Stands.commit (hcommits : Commits init ghost kvs entry anchor ghost' kvs')
    (hne : id ≠ entry.id) (hpending : ¬ Precedes history entry.id id) {phase : Phase}
    (hstands : Stands ghost kvs history id call phase) :
    Stands ghost' kvs' history id call phase := by
  have hmem : ∀ response, (⟨id, call, response⟩ : Entry Call Response) ∈ ghost.order →
      (⟨id, call, response⟩ : Entry Call Response) ∈ ghost'.order := by
    intro response hold
    rw [hcommits.order_eq, mem_insertBefore_iff]
    exact Or.inr hold
  cases phase with
  | start =>
      change id ∉ _
      rw [hcommits.mem_ids_iff, not_or]
      exact ⟨hne, hstands⟩
  | bucketMissing => exact hstands
  | bucketCreated => exact hstands
  | bucket ref => exact HoldsBucket.commit hcommits hne hpending hstands
  | container ref container =>
      have hholds : HoldsContainer ghost kvs history id call ref container := hstands
      refine ⟨hholds.toHoldsBucket.commit hcommits hne hpending,
        hholds.container_lt.trans_le hcommits.containers_le,
        (hcommits.owner_eq hholds.container_lt).trans hholds.owner, hholds.accesses, ?_⟩
      intro other hother
      rcases hcommits.container_grows hholds.container_lt hother with rfl | hold | hold
      · exact hpending
      · exact hholds.unlinked_behind hold
      · rw [hholds.owner] at hold
        exact hholds.behind hold
  | finished response => exact hmem response hstands
  | returned response => exact hmem response hstands

end Sections

namespace Concurrent

/-- The history records every call and every answer. -/
structure Recorded (state : Concurrent) : Prop where
  plain : ∀ {id : Nat} {call : Call} {phase : Phase},
    state.calls id = some (call, phase) → call.forcesBucket = false
  invoked : ∀ {id : Nat} {call : Call} {phase : Phase},
    state.calls id = some (call, phase) → .invoke id call ∈ state.history
  responded : ∀ {id : Nat} {response : Response}, .respond id response ∈ state.history →
    ∃ call, state.calls id = some (call, .returned response)

/-- The order explains the memory, the answers given so far and real time. -/
structure Invariant (init : Reference) (state : Concurrent) (ghost : Ghost) : Prop where
  explains : Explains init ghost state.kvs
  recorded : state.Recorded
  stands : ∀ {id : Nat} {call : Call} {phase : Phase},
    state.calls id = some (call, phase) →
    Stands ghost state.kvs state.history id call phase
  entries : ∀ {entry : Entry Call Response}, entry ∈ ghost.order →
    ∃ phase, state.calls entry.id = some (entry.call, phase)
  realTime : ghost.order.Pairwise fun first second =>
    ¬ Precedes state.history second.id first.id

variable {init : Reference} {state : Concurrent} {ghost : Ghost}

theorem update_eq_some_cases {calls : Nat → Option (Call × Phase)} {id other : Nat}
    {new entry : Call × Phase}
    (hother : Function.update calls id (some new) other = some entry) :
    (other = id ∧ entry = new) ∨ (other ≠ id ∧ calls other = some entry) := by
  by_cases heq : other = id
  · subst heq
    rw [Function.update_self, Option.some.injEq] at hother
    exact Or.inl ⟨rfl, hother.symm⟩
  · rw [Function.update_of_ne heq] at hother
    exact Or.inr ⟨heq, hother⟩

/-- A call that has not returned precedes nothing. -/
theorem Recorded.not_precedes (h : state.Recorded) {id : Nat} {call : Call}
    {phase : Phase} (hcall : state.calls id = some (call, phase))
    (hphase : ∀ response, phase ≠ .returned response) (other : Nat) :
    ¬ Precedes state.history id other := by
  intro hprecedes
  obtain ⟨response, hresponded⟩ := hprecedes.responded
  obtain ⟨call', hcall'⟩ := h.responded hresponded
  rw [hcall, Option.some.injEq, Prod.mk.injEq] at hcall'
  exact hphase response hcall'.2

/-- Changing the phase of a call forgets no call. -/
theorem exists_phase_update {calls : Nat → Option (Call × Phase)} {id : Nat} {call : Call}
    {phase : Phase} (hcall : calls id = some (call, phase)) (next : Phase) {other : Nat}
    {call' : Call} {phase' : Phase} (hother : calls other = some (call', phase')) :
    ∃ phase'', Function.update calls id (some (call, next)) other =
      some (call', phase'') := by
  by_cases heq : other = id
  · subst heq
    rw [hcall, Option.some.injEq, Prod.mk.injEq] at hother
    exact ⟨next, by rw [Function.update_self, hother.1]⟩
  · exact ⟨phase', (Function.update_of_ne heq _ _).trans hother⟩

/-- The history stays right while a call moves from phase to phase. -/
theorem Recorded.setPhase (h : state.Recorded) {id : Nat} {call : Call} {phase : Phase}
    (hcall : state.calls id = some (call, phase))
    (hphase : ∀ response, phase ≠ .returned response) (kvs : MDSKVS) (next : Phase) :
    Recorded ⟨kvs, Function.update state.calls id (some (call, next)),
      state.history⟩ := by
  refine ⟨?_, ?_, ?_⟩
  · intro other call' phase' hother
    rcases update_eq_some_cases hother with ⟨_, heq⟩ | ⟨_, hold⟩
    · rw [Prod.mk.injEq] at heq
      exact heq.1 ▸ h.plain hcall
    · exact h.plain hold
  · intro other call' phase' hother
    rcases update_eq_some_cases hother with ⟨rfl, heq⟩ | ⟨_, hold⟩
    · rw [Prod.mk.injEq] at heq
      rw [heq.1]
      exact h.invoked hcall
    · exact h.invoked hold
  · intro other response hother
    obtain ⟨call', hcall'⟩ := h.responded hother
    have hne : other ≠ id := by
      rintro rfl
      rw [hcall, Option.some.injEq, Prod.mk.injEq] at hcall'
      exact hphase response hcall'.2
    exact ⟨call', (Function.update_of_ne hne _ _).trans hcall'⟩

theorem Invariant.ne_of_fresh (h : Invariant init state ghost) {id : Nat}
    (hfresh : state.calls id = none) : id ∉ ghost.order.map Entry.id := by
  intro hmem
  obtain ⟨entry, hentry, rfl⟩ := List.mem_map.mp hmem
  obtain ⟨phase, hphase⟩ := h.entries hentry
  rw [hfresh] at hphase
  exact Option.some_ne_none _ hphase.symm

theorem Invariant.invoke (h : Invariant init state ghost) {id : Nat} {call : Call}
    (hplain : call.forcesBucket = false) (hfresh : state.calls id = none) :
    Invariant init { state with
      calls := Function.update state.calls id (some (call, .start))
      history := state.history ++ [.invoke id call] } ghost := by
  have hkeep : ∀ {other : Nat} {entry : Call × Phase}, state.calls other = some entry →
      other ≠ id ∧
        Function.update state.calls id (some (call, .start)) other = some entry := by
    intro other entry hother
    have hne : other ≠ id := by
      intro heq
      rw [heq, hfresh] at hother
      exact Option.some_ne_none entry hother.symm
    exact ⟨hne, (Function.update_of_ne hne _ _).trans hother⟩
  refine ⟨h.explains, ⟨?_, ?_, ?_⟩, ?_, ?_, ?_⟩
  · intro other call' phase hother
    rcases update_eq_some_cases hother with ⟨_, heq⟩ | ⟨_, hold⟩
    · rw [Prod.mk.injEq] at heq
      exact heq.1 ▸ hplain
    · exact h.recorded.plain hold
  · intro other call' phase hother
    rcases update_eq_some_cases hother with ⟨rfl, heq⟩ | ⟨_, hold⟩
    · rw [Prod.mk.injEq] at heq
      rw [heq.1]
      exact List.mem_append_right _ List.mem_cons_self
    · exact List.mem_append_left _ (h.recorded.invoked hold)
  · intro other response hother
    rcases List.mem_append.mp hother with hold | hnew
    · obtain ⟨call', hcall'⟩ := h.recorded.responded hold
      exact ⟨call', (hkeep hcall').2⟩
    · simp at hnew
  · intro other call' phase hother
    rcases update_eq_some_cases hother with ⟨rfl, heq⟩ | ⟨hne, hold⟩
    · rw [Prod.mk.injEq] at heq
      rw [heq.2]
      exact h.ne_of_fresh hfresh
    · exact (h.stands hold).mono_history fun _ hprecedes =>
        precedes_append_invoke hprecedes hne
  · intro entry hentry
    obtain ⟨phase, hphase⟩ := h.entries hentry
    exact ⟨phase, (hkeep hphase).2⟩
  · refine h.realTime.imp_of_mem ?_
    intro first second hfirst _ hnot hprecedes
    obtain ⟨phase, hphase⟩ := h.entries hfirst
    exact hnot (precedes_append_invoke hprecedes (hkeep hphase).1)

theorem Invariant.movesOn (h : Invariant init state ghost) {id : Nat} {call : Call}
    {phase next : Phase} (hcall : state.calls id = some (call, phase))
    (hphase : ∀ response, phase ≠ .returned response)
    (hstands : Stands ghost state.kvs state.history id call next) :
    Invariant init { state with
      calls := Function.update state.calls id (some (call, next)) } ghost := by
  refine ⟨h.explains, h.recorded.setPhase hcall hphase _ _, ?_, ?_, h.realTime⟩
  · intro other call' phase' hother
    rcases update_eq_some_cases hother with ⟨rfl, heq⟩ | ⟨_, hold⟩
    · rw [Prod.mk.injEq] at heq
      rw [heq.1, heq.2]
      exact hstands
    · exact h.stands hold
  · intro entry hentry
    obtain ⟨phase', hphase'⟩ := h.entries hentry
    exact exists_phase_update hcall _ hphase'

/-- The answer becomes visible. -/
theorem Invariant.respond (h : Invariant init state ghost) {id : Nat} {call : Call}
    {response : Response} (hcall : state.calls id = some (call, .finished response)) :
    Invariant init { state with
      calls := Function.update state.calls id (some (call, .returned response))
      history := state.history ++ [.respond id response] } ghost := by
  have hphase : ∀ answer, Phase.finished response ≠ .returned answer :=
    fun _ => Phase.noConfusion
  have hstands : Stands ghost state.kvs state.history id call (.returned response) := by
    have hfinished := h.stands hcall
    exact hfinished
  have hmoved := h.movesOn hcall hphase hstands
  refine ⟨h.explains, ⟨hmoved.recorded.plain, ?_, ?_⟩, ?_, hmoved.entries, ?_⟩
  · intro other call' phase hother
    exact List.mem_append_left _ (hmoved.recorded.invoked hother)
  · intro other response' hother
    rcases List.mem_append.mp hother with hold | hnew
    · exact hmoved.recorded.responded hold
    · simp only [List.mem_singleton, Event.respond.injEq] at hnew
      obtain ⟨rfl, rfl⟩ := hnew
      exact ⟨call, Function.update_self _ _ _⟩
  · intro other call' phase hother
    exact (hmoved.stands hother).mono_history fun _ => precedes_append_respond
  · refine h.realTime.imp ?_
    intro first second hnot hprecedes
    exact hnot (precedes_append_respond hprecedes)

/-- A call takes its place in the order; the others stay where they stand. -/
theorem Invariant.takesEffect (h : Invariant init state ghost) {id : Nat} {call : Call}
    {phase : Phase} (hcall : state.calls id = some (call, phase))
    (hphase : ∀ response, phase ≠ .returned response) {next : Phase × MDSKVS}
    (heffect : TakesEffect init ghost state.kvs state.history id call next) :
    ∃ ghost', Invariant init { state with
      kvs := next.2
      calls := Function.update state.calls id (some (call, next.1)) } ghost' := by
  obtain ⟨response, anchor, ghost', hnext, hnew, hcommits, hbehind⟩ := heffect
  have hpending := h.recorded.not_precedes hcall hphase
  have hmem : ∀ {entry : Entry Call Response}, entry ∈ ghost'.order ↔
      entry = ⟨id, call, response⟩ ∨ entry ∈ ghost.order := by
    intro entry
    rw [hcommits.order_eq, mem_insertBefore_iff]
  rw [hnext]
  refine ⟨ghost', hcommits.explains, h.recorded.setPhase hcall hphase _ _, ?_, ?_, ?_⟩
  · intro other call' phase' hother
    rcases update_eq_some_cases hother with ⟨rfl, heq⟩ | ⟨hne, hold⟩
    · rw [Prod.mk.injEq] at heq
      rw [heq.1, heq.2]
      exact hmem.mpr (Or.inl rfl)
    · exact (h.stands hold).commit hcommits hne (hpending other)
  · intro entry hentry
    rcases hmem.mp hentry with rfl | hold
    · exact ⟨_, Function.update_self _ _ _⟩
    · obtain ⟨phase', hphase'⟩ := h.entries hold
      exact exists_phase_update hcall _ hphase'
  · rw [hcommits.order_eq]
    apply pairwise_insertBefore (R := fun first second =>
      ¬ Precedes state.history second first) h.realTime
    · intro entry _
      exact hpending entry.id
    · exact hbehind

/-- One scheduler step. -/
theorem Invariant.act (h : Invariant init state ghost) (action : Action)
    (hplain : ∀ id call, action = .invoke id call → call.forcesBucket = false) :
    ∃ ghost', Invariant init (state.act action) ghost' := by
  cases action with
  | invoke id call =>
      rw [Concurrent.act]
      cases hcall : state.calls id with
      | some entry => exact ⟨ghost, h⟩
      | none => exact ⟨ghost, h.invoke (hplain id call rfl) hcall⟩
  | respond id =>
      rw [Concurrent.act]
      split
      · rename_i call response hcall
        exact ⟨ghost, h.respond hcall⟩
      · exact ⟨ghost, h⟩
  | advance id =>
      rw [Concurrent.act]
      cases hcall : state.calls id with
      | none => exact ⟨ghost, h⟩
      | some entry =>
          obtain ⟨call, phase⟩ := entry
          by_cases hreturned : ∃ response, phase = .returned response
          · obtain ⟨response, rfl⟩ := hreturned
            have hsame : Function.update state.calls id (some (call, .returned response)) =
                state.calls := by
              rw [← hcall, Function.update_eq_self]
            simp only [MDSKVS.advance, hsame]
            exact ⟨ghost, h⟩
          · have hphase := not_exists.mp hreturned
            rcases (h.stands hcall).advance h.explains (h.recorded.plain hcall) with
              ⟨hkvs, hstands⟩ | heffect
            · simp only [hkvs]
              exact ⟨ghost, h.movesOn hcall hphase hstands⟩
            · exact h.takesEffect hcall hphase heffect

theorem Invariant.run (h : Invariant init state ghost) (actions : List Action)
    (hplain : ∀ id call, .invoke id call ∈ actions → call.forcesBucket = false) :
    ∃ ghost', Invariant init (state.run actions) ghost' := by
  induction actions generalizing state ghost with
  | nil => exact ⟨ghost, h⟩
  | cons action rest ih =>
      obtain ⟨ghost', hact⟩ := h.act action fun id call heq =>
        hplain id call (heq ▸ List.mem_cons_self)
      exact ih hact fun id call hmem => hplain id call (List.mem_cons_of_mem _ hmem)

/-- At first there are no calls; at most the default bucket exists. -/
theorem new_invariant (defaultBucket : Option Bytes) :
    ∃ ghost, Invariant (Reference.new defaultBucket) (new defaultBucket) ghost := by
  obtain ⟨hwf, hcontents⟩ := MDSKVS.new_wellFormed defaultBucket
  have hnone : ∀ {ref : Nat} {key : Bytes},
      ((MDSKVS.new defaultBucket).buckets.get ref).map.find key = none := by
    intro ref key
    cases hfind : ((MDSKVS.new defaultBucket).buckets.get ref).map.find key with
    | none => rfl
    | some container =>
        have hlt := hwf.container_lt hfind
        cases defaultBucket <;> exact absurd hlt (Nat.not_lt_zero container)
  have hattached : ∀ {ref : Nat}, ref < (MDSKVS.new defaultBucket).buckets.next →
      (MDSKVS.new defaultBucket).map.find
        ((MDSKVS.new defaultBucket).buckets.get ref).name = some ref := by
    intro ref href
    cases defaultBucket with
    | none => exact absurd href (Nat.not_lt_zero ref)
    | some bucket =>
        have hzero : ref = 0 := Nat.lt_one_iff.mp href
        subst hzero
        simp [MDSKVS.new, MDSKVS.createBucket, Heap.empty, Heap.alloc]
  have hcontainers : (MDSKVS.new defaultBucket).containers.next = 0 := by
    cases defaultBucket <;> rfl
  refine ⟨⟨[], fun _ => none, fun _ => none, fun _ => (0, [])⟩,
    ⟨hwf, List.nodup_nil, trivial, ?_, ?_⟩, ⟨?_, ?_, ?_⟩, ?_, ?_, List.Pairwise.nil⟩
  · refine ⟨hcontents.symm, fun _ => rfl, fun href _ => hattached href, ?_, ?_, ?_⟩ <;>
      simp
  · refine ⟨?_, ?_, ?_, ?_, ?_, ?_⟩ <;> simp [new, hcontainers, hnone]
  all_goals simp [new]

/-- An explained history is linearizable with respect to the sequential
store. -/
theorem Invariant.linearizable {defaultBucket : Option Bytes}
    (h : Invariant (Reference.new defaultBucket) state ghost) :
    Linearizable MDSKVS.perform (MDSKVS.new defaultBucket) state.history := by
  obtain ⟨hwf, hcontents⟩ := MDSKVS.new_wellFormed defaultBucket
  refine ⟨ghost.order, h.explains.nodup, ?_, ?_, ?_, h.realTime⟩
  · intro entry hentry
    obtain ⟨phase, hphase⟩ := h.entries hentry
    exact h.recorded.invoked hphase
  · intro id response hresponded
    obtain ⟨call, hcall⟩ := h.recorded.responded hresponded
    exact ⟨_, h.stands hcall, rfl, rfl⟩
  · have hlegal := h.explains.legal
    rw [← hcontents] at hlegal
    exact hlegal.of_abstraction
      (fun (kvs : MDSKVS) call (hinv : kvs.WellFormed) =>
        MDSKVS.perform_refines hinv call) hwf

/-- Every history of concurrent calls is linearizable, whatever the
interleaving of their sections. -/
theorem run_linearizable (defaultBucket : Option Bytes) (actions : List Action)
    (hplain : ∀ id call, .invoke id call ∈ actions → call.forcesBucket = false) :
    Linearizable MDSKVS.perform (MDSKVS.new defaultBucket)
      ((new defaultBucket).run actions).history := by
  obtain ⟨ghost, hnew⟩ := new_invariant defaultBucket
  obtain ⟨ghost', hrun⟩ := hnew.run actions hplain
  exact hrun.linearizable

namespace LateUpdate

def object : Object := ⟨⟨text "bucket", text "key"⟩, ⟨text "geds://node", 3, 3, none⟩⟩

/-- The update holds the container when its bucket is deleted. -/
def actions : List Action :=
  [.invoke 0 (.createBucket (text "bucket")), .advance 0, .respond 0,
    .invoke 1 (.createObject object false), .advance 1, .advance 1, .respond 1,
    .invoke 2 (.updateObject object), .advance 2, .advance 2,
    .invoke 3 (.deleteBucket (text "bucket")), .advance 3, .respond 3,
    .advance 2, .respond 2]

theorem history_linearizable :
    ((new none).run actions).history.length = 8 ∧
      Linearizable MDSKVS.perform (MDSKVS.new none)
        ((new none).run actions).history := by
  refine ⟨by decide, run_linearizable none actions ?_⟩
  intro id call hmem
  simp only [actions, List.mem_cons, List.not_mem_nil, Action.invoke.injEq, reduceCtorEq,
    or_false, false_or] at hmem
  rcases hmem with ⟨_, rfl⟩ | ⟨_, rfl⟩ | ⟨_, rfl⟩ | ⟨_, rfl⟩ <;> rfl

end LateUpdate

end Concurrent

end GEDS
