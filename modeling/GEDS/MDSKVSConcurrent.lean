/-
Concurrent calls on the metadata store.  A call advances by the sections its
locks protect: the pointer to the bucket is fetched in one, the pointer to the
container in the next, and the container is read or written in a third.
Between two sections any other call may run.
-/
import GEDS.Library.Linearization
import GEDS.MDSKVSReference

namespace GEDS

/-- Where a call stands between two sections. -/
inductive Phase where
  | start
  | bucketMissing
  | bucketCreated
  | bucket (ref : Nat)
  | container (ref : Nat) (container : Nat)
  | finished (response : Response)
  | returned (response : Response)

/-- A call that ends with a failed status. -/
def Call.failed : Call → Status → Response
  | .lookup _, status => .object (.error status)
  | _, status => .status status

theorem Call.missing_eq_failed (call : Call) :
    call.missing = call.failed (bucketDoesNotExist call.bucket) := by
  cases call <;> rfl

namespace MDSKVS

variable (kvs : MDSKVS)

/-- The first section: calls on the table of buckets are over after it, object
calls leave `getBucket` with the pointer to their bucket. -/
def enter (call : Call) : Phase × MDSKVS :=
  match call with
  | .createBucket _ | .deleteBucket _ | .bucketStatus _ =>
      (.finished (kvs.perform call).1, (kvs.perform call).2)
  | .createObject obj forceCreateBucket =>
      match kvs.getBucket obj.id.bucket with
      | .ok ref => (.bucket ref, kvs)
      | .error status =>
          if forceCreateBucket then (.bucketMissing, kvs)
          else (.finished (call.failed status), kvs)
  | .updateObject _ | .deleteObject _ | .deleteObjectPrefix _ | .lookup _ =>
      match kvs.getBucket call.bucket with
      | .ok ref => (.bucket ref, kvs)
      | .error status => (.finished (call.failed status), kvs)

/-- The section under the lock of the bucket. -/
def enterBucket (call : Call) (ref : Nat) : Phase × MDSKVS :=
  match call with
  | .createObject obj _ =>
      let result := MDSKVSBucket.createObject kvs ref obj
      (.finished (.status result.1), result.2)
  | .deleteObject id =>
      let result := MDSKVSBucket.deleteObject kvs ref id.key
      (.finished (.status result.1), result.2)
  | .deleteObjectPrefix id =>
      let result := MDSKVSBucket.deleteObjectPrefix kvs ref id.key
      (.finished (.status result.1), result.2)
  | .updateObject obj =>
      match MDSKVSBucket.getObject kvs ref obj.id.key with
      | .error status => (.finished (.status status), kvs)
      | .ok container => (.container ref container, kvs)
  | .lookup id =>
      match MDSKVSBucket.getObject kvs ref id.key with
      | .error status => (.finished (.object (.error status)), kvs)
      | .ok container => (.container ref container, kvs)
  | .createBucket _ | .deleteBucket _ | .bucketStatus _ => (.bucket ref, kvs)

/-- The section under the lock of the container. -/
def enterContainer (call : Call) (ref container : Nat) : Phase × MDSKVS :=
  match call with
  | .updateObject obj =>
      (.finished (.status .okStatus),
        MDSKVSBucket.writeContainer kvs container obj.info)
  | .lookup id =>
      (.finished (.object (.ok (MDSKVSBucket.readContainer kvs ref container id.key))),
        kvs)
  | _ => (.container ref container, kvs)

/-- The next section of a call. -/
def advance (call : Call) : Phase → Phase × MDSKVS
  | .start => kvs.enter call
  | .bucketMissing =>
      let created := kvs.createBucket call.bucket
      if created.1.ok then (.bucketCreated, created.2)
      else (.finished (call.failed created.1), created.2)
  | .bucketCreated =>
      match kvs.getBucket call.bucket with
      | .ok ref => (.bucket ref, kvs)
      | .error status => (.finished (call.failed status), kvs)
  | .bucket ref => kvs.enterBucket call ref
  | .container ref container => kvs.enterContainer call ref container
  | .finished response => (.finished response, kvs)
  | .returned response => (.returned response, kvs)

/-- Some number of sections of one call, with nothing in between. -/
def advanceTimes (call : Call) : Nat → Phase × MDSKVS → Phase × MDSKVS
  | 0, state => state
  | count + 1, state => advanceTimes call count (state.2.advance call state.1)

/-- The sections of a call run one after another give this answer. -/
def Finishes (call : Call) (state : Phase × MDSKVS) (result : Response × MDSKVS) :
    Prop :=
  ∃ count, advanceTimes call count state = (.finished result.1, result.2)

theorem Finishes.now (call : Call) (result : Response × MDSKVS) :
    Finishes call (.finished result.1, result.2) result :=
  ⟨0, rfl⟩

theorem Finishes.advance {call : Call} {state next : Phase × MDSKVS}
    {result : Response × MDSKVS} (hfinish : Finishes call next result)
    (hnext : state.2.advance call state.1 = next) : Finishes call state result := by
  obtain ⟨count, hcount⟩ := hfinish
  exact ⟨count + 1, by rw [advanceTimes, hnext, hcount]⟩

/-- An object call whose bucket was found answers as the sequential code. -/
theorem finishes_bucket (call : Call) (ref : Nat)
    (hcall : call.staysInBucket = true ∨ ∃ obj, call = .createObject obj true) :
    Finishes call (.bucket ref, kvs) (MDSKVSBucket.perform kvs ref call) := by
  cases call with
  | createObject obj force => exact (Finishes.now _ _).advance rfl
  | deleteObject id => exact (Finishes.now _ _).advance rfl
  | deleteObjectPrefix id => exact (Finishes.now _ _).advance rfl
  | updateObject obj =>
      cases hget : MDSKVSBucket.getObject kvs ref obj.id.key with
      | error status =>
          apply (Finishes.now _ _).advance
          simp [advance, enterBucket, hget, MDSKVSBucket.perform,
            MDSKVSBucket.updateObject]
      | ok container =>
          have hadvance : kvs.advance (.updateObject obj) (.bucket ref) =
              (.container ref container, kvs) := by
            simp [advance, enterBucket, hget]
          refine ((Finishes.now _ _).advance ?_).advance hadvance
          simp [advance, enterContainer, MDSKVSBucket.perform,
            MDSKVSBucket.updateObject, hget]
  | lookup id =>
      cases hget : MDSKVSBucket.getObject kvs ref id.key with
      | error status =>
          apply (Finishes.now _ _).advance
          simp [advance, enterBucket, hget, MDSKVSBucket.perform, MDSKVSBucket.lookup]
      | ok container =>
          have hadvance : kvs.advance (.lookup id) (.bucket ref) =
              (.container ref container, kvs) := by
            simp [advance, enterBucket, hget]
          refine ((Finishes.now _ _).advance ?_).advance hadvance
          simp [advance, enterContainer, MDSKVSBucket.perform, MDSKVSBucket.lookup, hget]
  | createBucket bucket => simp [Call.staysInBucket] at hcall
  | deleteBucket bucket => simp [Call.staysInBucket] at hcall
  | bucketStatus bucket => simp [Call.staysInBucket] at hcall

theorem enter_of_missing {call : Call} (hcall : call.staysInBucket = true)
    (hfind : kvs.map.find call.bucket = none) :
    kvs.enter call = (.finished call.missing, kvs) := by
  rw [Call.missing_eq_failed]
  cases call <;> simp_all [enter, getBucket, Call.bucket, Call.staysInBucket]

theorem enter_of_find {call : Call} (hcall : call.staysInBucket = true) {ref : Nat}
    (hfind : kvs.map.find call.bucket = some ref) :
    kvs.enter call = (.bucket ref, kvs) := by
  cases call <;> simp_all [enter, getBucket, Call.bucket, Call.staysInBucket]

theorem enter_of_table {call : Call} (hcall : call.staysInBucket = false)
    (hforced : ∀ obj, call ≠ .createObject obj true) :
    kvs.enter call = (.finished (kvs.perform call).1, (kvs.perform call).2) := by
  cases call with
  | createObject obj force =>
      have hforce : force = true := by simpa [Call.staysInBucket] using hcall
      exact absurd (congrArg _ hforce) (hforced obj)
  | updateObject obj => simp [Call.staysInBucket] at hcall
  | deleteObject id => simp [Call.staysInBucket] at hcall
  | deleteObjectPrefix id => simp [Call.staysInBucket] at hcall
  | lookup id => simp [Call.staysInBucket] at hcall
  | createBucket bucket => rfl
  | deleteBucket bucket => rfl
  | bucketStatus bucket => rfl

/-- Without interference the sections add up to the sequential code. -/
theorem finishes_perform (call : Call) :
    Finishes call (.start, kvs) (kvs.perform call) := by
  cases hstays : call.staysInBucket with
  | true =>
      rw [perform_eq_dispatch kvs hstays, dispatch, getBucket]
      cases hfind : kvs.map.find call.bucket with
      | none => exact (Finishes.now _ _).advance (enter_of_missing kvs hstays hfind)
      | some ref =>
          exact (finishes_bucket kvs call ref (Or.inl hstays)).advance
            (enter_of_find kvs hstays hfind)
  | false =>
      by_cases hforced : ∃ obj, call = .createObject obj true
      · obtain ⟨obj, rfl⟩ := hforced
        cases hfind : kvs.map.find obj.id.bucket with
        | some ref =>
            have hperform : kvs.perform (.createObject obj true) =
                MDSKVSBucket.perform kvs ref (.createObject obj true) := by
              simp [perform, createObject, getBucket, hfind, MDSKVSBucket.perform]
            rw [hperform]
            apply (finishes_bucket kvs _ ref (Or.inr ⟨obj, rfl⟩)).advance
            simp [advance, enter, getBucket, hfind]
        | none =>
            have hcreated : (kvs.createBucket obj.id.bucket).1 = .okStatus := by
              rw [createBucket, hfind]
            have hfind' : (kvs.createBucket obj.id.bucket).2.map.find obj.id.bucket =
                some kvs.buckets.next := by
              rw [createBucket, hfind]
              simp
            have hok : Status.okStatus.ok = true := rfl
            have hperform : kvs.perform (.createObject obj true) =
                MDSKVSBucket.perform (kvs.createBucket obj.id.bucket).2
                  kvs.buckets.next (.createObject obj true) := by
              simp [perform, createObject, getBucket, hfind, hfind', hcreated, hok,
                MDSKVSBucket.perform]
            have hentered : kvs.advance (.createObject obj true) .start =
                (.bucketMissing, kvs) := by
              simp [advance, enter, getBucket, hfind]
            have hmade : kvs.advance (.createObject obj true) .bucketMissing =
                (.bucketCreated, (kvs.createBucket obj.id.bucket).2) := by
              simp [advance, hcreated, hok, Call.bucket]
            have hfetched : (kvs.createBucket obj.id.bucket).2.advance
                (.createObject obj true) .bucketCreated =
                (.bucket kvs.buckets.next, (kvs.createBucket obj.id.bucket).2) := by
              simp [advance, getBucket, hfind', Call.bucket]
            have hbucket := finishes_bucket (kvs.createBucket obj.id.bucket).2
              (.createObject obj true) kvs.buckets.next (Or.inr ⟨obj, rfl⟩)
            have hlast : Finishes (.createObject obj true)
                (.bucketCreated, (kvs.createBucket obj.id.bucket).2) _ :=
              hbucket.advance hfetched
            have hmissing : Finishes (.createObject obj true) (.bucketMissing, kvs) _ :=
              hlast.advance hmade
            rw [hperform]
            exact hmissing.advance hentered
      · exact (Finishes.now _ _).advance
          (enter_of_table kvs hstays (not_exists.mp hforced))

end MDSKVS

/-- The store, the calls that were made so far and the visible history. -/
structure Concurrent where
  kvs : MDSKVS
  calls : Nat → Option (Call × Phase)
  history : List (Event Call Response)

/-- What the scheduler may do next. -/
inductive Action where
  | invoke (id : Nat) (call : Call)
  | advance (id : Nat)
  | respond (id : Nat)

namespace Concurrent

def new (defaultBucket : Option Bytes) : Concurrent :=
  ⟨MDSKVS.new defaultBucket, fun _ => none, []⟩

/-- One scheduler step; an action that is not possible changes nothing. -/
def act (state : Concurrent) : Action → Concurrent
  | .invoke id call =>
      match state.calls id with
      | some _ => state
      | none =>
          { state with
            calls := Function.update state.calls id (some (call, .start))
            history := state.history ++ [.invoke id call] }
  | .advance id =>
      match state.calls id with
      | none => state
      | some (call, phase) =>
          let next := state.kvs.advance call phase
          { state with
            kvs := next.2
            calls := Function.update state.calls id (some (call, next.1)) }
  | .respond id =>
      match state.calls id with
      | some (call, .finished response) =>
          { state with
            calls := Function.update state.calls id (some (call, .returned response))
            history := state.history ++ [.respond id response] }
      | _ => state

/-- Any interleaving: the actions in the order the scheduler picks them. -/
def run (state : Concurrent) (actions : List Action) : Concurrent :=
  actions.foldl act state

end Concurrent

end GEDS
