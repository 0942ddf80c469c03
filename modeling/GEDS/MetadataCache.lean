/-
The metadata that a client caches: what the server publishes about its objects,
and what the loop of `MetadataService::subscribeStream` does with it.
-/
import GEDS.MDSKVSReference
import GEDS.PrefixTreeInvariant

namespace GEDS

/-- `PublicationType` -/
inductive PublicationType where
  | noPublication
  | createObject
  | updateObject
  | deleteObject
deriving DecidableEq

/-- `SubscriptionStreamResponse` -/
structure Publication where
  object : Object
  publicationType : PublicationType
deriving DecidableEq

/-- What `mdsprocessor` publishes before it changes the store.  `DeletePrefix` does not:
it publishes afterwards what it deleted. -/
def ObjectRequest.announcement : ObjectRequest → Option Publication
  | .createObject object => some ⟨object, .createObject⟩
  | .updateObject object => some ⟨object, .updateObject⟩
  | .deleteObject objectID => some ⟨⟨objectID, default⟩, .deleteObject⟩
  | .deleteObjectPrefix _ => none

namespace MDSKVS

/-- The body of the loop in `subscribeStream`. -/
def receive (cache : MDSKVS) (publication : Publication) : MDSKVS :=
  match publication.publicationType with
  | .createObject => (cache.createObject publication.object true).2
  | .updateObject => (cache.updateObject publication.object).2
  | .deleteObject => (cache.deleteObject publication.object.id).2
  | .noPublication => cache

/-- The object that the store has under a name. -/
def entry (kvs : MDSKVS) (id : ObjectID) : Option Object := (kvs.lookup id).toOption

end MDSKVS

/-- The effect of a publication on the entries of a cache: an update of an object that
is not there is dropped. -/
def Publication.onEntries (publication : Publication) (entries : ObjectID → Option Object) :
    ObjectID → Option Object :=
  match publication.publicationType with
  | .createObject => Function.update entries publication.object.id (some publication.object)
  | .updateObject =>
      if (entries publication.object.id).isSome then
        Function.update entries publication.object.id (some publication.object)
      else entries
  | .deleteObject => Function.update entries publication.object.id none
  | .noPublication => entries

theorem Publication.onEntries_of_ne {publication : Publication} {id : ObjectID}
    (hne : id ≠ publication.object.id) (entries : ObjectID → Option Object) :
    publication.onEntries entries id = entries id := by
  rw [onEntries]
  cases publication.publicationType with
  | updateObject =>
      dsimp only
      split_ifs
      · exact Function.update_of_ne hne _ _
      · rfl
  | noPublication => rfl
  | createObject => exact Function.update_of_ne hne _ _
  | deleteObject => exact Function.update_of_ne hne _ _

/-- What a publication leaves under its own name depends on nothing else. -/
theorem Publication.onEntries_congr (publication : Publication) {id : ObjectID}
    {entries others : ObjectID → Option Object} (hsame : entries id = others id) :
    publication.onEntries entries id = publication.onEntries others id := by
  by_cases hid : id = publication.object.id
  · subst hid
    simp only [onEntries, hsame]
    cases publication.publicationType with
    | updateObject =>
        dsimp only
        split_ifs
        · simp
        · exact hsame
    | noPublication => exact hsame
    | createObject => simp
    | deleteObject => simp
  · rw [onEntries_of_ne hid, onEntries_of_ne hid, hsame]

/-- What an answer has is what it was given. -/
theorem toOption_eq_some_iff {α : Type} {answer : Except Status α} {value : α} :
    answer.toOption = some value ↔ answer = .ok value := by
  cases answer <;> simp [Except.toOption]

namespace MDSKVS

variable {cache : MDSKVS}

/-- The entries of the reference model. -/
theorem entry_eq (hwf : cache.WellFormed) (id : ObjectID) :
    cache.entry id =
      ((cache.contents id.bucket).bind fun contents => contents id.key).map (⟨id, ·⟩) := by
  rw [entry, lookup_eq_reference hwf, Reference.lookup]
  cases cache.contents id.bucket with
  | none => rfl
  | some contents =>
      simp only [Option.bind_some]
      cases contents id.key <;> rfl

theorem entry_id (hwf : cache.WellFormed) {id : ObjectID} {object : Object}
    (hentry : cache.entry id = some object) : object.id = id := by
  rw [entry_eq hwf] at hentry
  obtain ⟨info, -, rfl⟩ := Option.map_eq_some_iff.1 hentry
  rfl

/-- Nothing is stored in a store that was just made. -/
theorem new_entry (defaultBucket : Option Bytes) (id : ObjectID) :
    (new defaultBucket).entry id = none := by
  obtain ⟨hwf, hcontents⟩ := new_wellFormed defaultBucket
  rw [entry_eq hwf, hcontents]
  cases defaultBucket with
  | none => rfl
  | some bucket =>
      simp only [Reference.new, Function.update_apply]
      split_ifs <;> rfl

theorem ObjectID.ne_cases {id other : ObjectID} (hne : id ≠ other) :
    id.bucket ≠ other.bucket ∨ id.bucket = other.bucket ∧ id.key ≠ other.key := by
  by_cases hbucket : id.bucket = other.bucket
  · right
    refine ⟨hbucket, fun hkey => hne ?_⟩
    obtain ⟨bucket, key⟩ := id
    obtain ⟨bucket', key'⟩ := other
    exact congrArg₂ ObjectID.mk hbucket hkey
  · exact Or.inl hbucket

theorem entry_congr {after : MDSKVS} (hwf : cache.WellFormed) (hafter : after.WellFormed)
    (hsame : after.contents = cache.contents) : after.entry = cache.entry := by
  funext id
  rw [entry_eq hafter, entry_eq hwf, hsame]

/-- A bucket changes under one key. -/
theorem entry_of_contents {after : MDSKVS} (hwf : cache.WellFormed) (hafter : after.WellFormed)
    {id : ObjectID} {before : Contents} {info : Option ObjectInfo}
    (hbefore : (cache.contents id.bucket).getD Contents.empty = before)
    (hcontents : after.contents = Function.update cache.contents id.bucket
      (some (Function.update before id.key info))) :
    after.entry = Function.update cache.entry id (info.map (⟨id, ·⟩)) := by
  funext other
  rw [entry_eq hafter, hcontents]
  by_cases hother : other = id
  · subst hother
    simp
  · rw [Function.update_of_ne hother, entry_eq hwf]
    rcases ObjectID.ne_cases hother with hbucket | ⟨hbucket, hkey⟩
    · rw [Function.update_of_ne hbucket]
    · rw [hbucket, Function.update_self, ← hbefore]
      simp only [Option.bind_some, Function.update_of_ne hkey]
      cases cache.contents id.bucket <;> rfl

/-- The call on the cache that a publication stands for. -/
theorem receive_eq_perform (publication : Publication) :
    cache.receive publication =
      match publication.publicationType with
      | .createObject => (cache.perform (.createObject publication.object true)).2
      | .updateObject => (cache.perform (.updateObject publication.object)).2
      | .deleteObject => (cache.perform (.deleteObject publication.object.id)).2
      | .noPublication => cache := by
  rw [receive]
  cases publication.publicationType <;> rfl

theorem receive_wellFormed (hwf : cache.WellFormed) (publication : Publication) :
    (cache.receive publication).WellFormed := by
  rw [receive_eq_perform]
  cases publication.publicationType with
  | noPublication => exact hwf
  | createObject => exact (perform_refines hwf _).2.2
  | updateObject => exact (perform_refines hwf _).2.2
  | deleteObject => exact (perform_refines hwf _).2.2

theorem createObject_entry (hwf : cache.WellFormed) (object : Object) :
    (cache.createObject object true).2.entry =
      Function.update cache.entry object.id (some object) := by
  obtain ⟨-, hcontents, hafter⟩ := perform_refines hwf (.createObject object true)
  cases hbucket : cache.contents object.id.bucket with
  | none =>
      simp only [Reference.perform, hbucket] at hcontents
      exact entry_of_contents hwf hafter (by rw [hbucket]; rfl) hcontents
  | some contents =>
      simp only [Reference.perform, hbucket, Reference.onBucket, Call.bucket,
        Contents.perform] at hcontents
      exact entry_of_contents hwf hafter (by rw [hbucket]; rfl) hcontents

/-- An object that is not cached is not updated. -/
theorem updateObject_entry (hwf : cache.WellFormed) (object : Object) :
    (cache.updateObject object).2.entry =
      if (cache.entry object.id).isSome then
        Function.update cache.entry object.id (some object)
      else cache.entry := by
  obtain ⟨-, hcontents, hafter⟩ := perform_refines hwf (.updateObject object)
  have hentry := entry_eq hwf object.id
  cases hbucket : cache.contents object.id.bucket with
  | none =>
      simp only [hbucket, Option.bind_none, Option.map_none] at hentry
      simp only [Reference.perform, Reference.onBucket, Call.bucket, hbucket] at hcontents
      rw [hentry]
      exact entry_congr hwf hafter hcontents
  | some contents =>
      simp only [Reference.perform, Reference.onBucket, Call.bucket, hbucket,
        Contents.perform] at hcontents
      simp only [hbucket, Option.bind_some] at hentry
      cases hkey : contents object.id.key with
      | none =>
          simp only [hkey] at hcontents hentry
          rw [← hbucket, Function.update_eq_self] at hcontents
          rw [hentry]
          exact entry_congr hwf hafter hcontents
      | some info =>
          simp only [hkey] at hcontents hentry
          rw [hentry]
          exact entry_of_contents hwf hafter (by rw [hbucket]; rfl) hcontents

theorem deleteObject_entry (hwf : cache.WellFormed) (id : ObjectID) :
    (cache.deleteObject id).2.entry = Function.update cache.entry id none := by
  obtain ⟨-, hcontents, hafter⟩ := perform_refines hwf (.deleteObject id)
  have hentry := entry_eq hwf id
  have hmissing : cache.entry id = none →
      (cache.perform (.deleteObject id)).2.contents = cache.contents →
      (cache.perform (.deleteObject id)).2.entry = Function.update cache.entry id none := by
    intro hnone hsame
    rw [← hnone, Function.update_eq_self]
    exact entry_congr hwf hafter hsame
  cases hbucket : cache.contents id.bucket with
  | none =>
      simp only [hbucket, Option.bind_none, Option.map_none] at hentry
      simp only [Reference.perform, Reference.onBucket, Call.bucket, hbucket] at hcontents
      exact hmissing hentry hcontents
  | some contents =>
      simp only [Reference.perform, Reference.onBucket, Call.bucket, hbucket,
        Contents.perform] at hcontents
      simp only [hbucket, Option.bind_some] at hentry
      cases hkey : contents id.key with
      | none =>
          simp only [hkey] at hcontents hentry
          rw [← hbucket, Function.update_eq_self] at hcontents
          exact hmissing hentry hcontents
      | some info =>
          simp only [hkey] at hcontents
          exact entry_of_contents hwf hafter (by rw [hbucket]; rfl) hcontents

theorem deleteObjectPrefix_entry (hwf : cache.WellFormed) (id other : ObjectID) :
    (cache.deleteObjectPrefix id).2.entry other =
      if other.bucket = id.bucket ∧ id.key <+: other.key then none else cache.entry other := by
  obtain ⟨-, hcontents, hafter⟩ := perform_refines hwf (.deleteObjectPrefix id)
  change (cache.perform (.deleteObjectPrefix id)).2.entry other = _
  rw [entry_eq hafter, entry_eq hwf, hcontents]
  simp only [Reference.perform, Reference.onBucket, Call.bucket]
  by_cases hbucket : other.bucket = id.bucket
  · cases hfound : cache.contents id.bucket with
    | none => simp [hbucket, hfound]
    | some contents =>
        simp only [Contents.perform, hbucket, hfound, Function.update_self,
          Option.bind_some, true_and, Contents.erasePrefix]
        split_ifs <;> rfl
  · rw [if_neg fun hboth => hbucket hboth.1]
    cases cache.contents id.bucket with
    | none => rfl
    | some contents => simp only [Function.update_of_ne hbucket]

/-- What the loop does with a publication. -/
theorem receive_entry (hwf : cache.WellFormed) (publication : Publication) :
    (cache.receive publication).entry = publication.onEntries cache.entry := by
  rw [receive, Publication.onEntries]
  cases publication.publicationType with
  | noPublication => rfl
  | createObject => exact createObject_entry hwf publication.object
  | updateObject => exact updateObject_entry hwf publication.object
  | deleteObject => exact deleteObject_entry hwf publication.object.id

end MDSKVS

end GEDS
