/-
`GEDSAbstractFileHandle::relocate`: a local object moves to the object store.
Each remote step may also take effect and report a failure, and the upload is
deleted again when the metadata service seems not to know about it.
-/
import GEDS.Object

namespace GEDS

open Status

/-- A status that reports a failure. -/
def FailedStatus := { status : Status // status.ok = false }

/-- How a remote step ends. -/
inductive Outcome where
  | succeeds
  | failsWithoutEffect (status : FailedStatus)
  | takesEffectButFails (status : FailedStatus)

namespace Outcome

def status : Outcome → Status
  | succeeds => okStatus
  | failsWithoutEffect status | takesEffectButFails status => status.val

def takesEffect : Outcome → Bool
  | succeeds | takesEffectButFails _ => true
  | failsWithoutEffect _ => false

theorem takesEffect_of_ok {outcome : Outcome} (hok : outcome.status.ok = true) :
    outcome.takesEffect = true := by
  cases outcome with
  | succeeds => rfl
  | failsWithoutEffect status => exact absurd hok (by simp [Outcome.status, status.property])
  | takesEffectButFails status => rfl

end Outcome

/-- What `relocate` sees of an object: the handle with the bytes it holds and the
bytes that opening its path reads, what the metadata service has recorded, and
what the object store has under the name. -/
structure Relocation where
  bucket : Bytes
  key : Bytes
  hostname : Bytes
  port : UInt16
  metadata : Option Bytes
  isValid : Bool
  openCount : Int
  isMapped : Bool
  content : Bytes
  pathContent : Bytes
  recorded : Option ObjectInfo
  stored : Option Bytes

/-- What the steps of `relocate` answer; `ready` is the status of the checks that
`GEDS::seal` and `MetadataService::createObject` make before they send. -/
structure RelocateAnswers where
  hasEndpoint : Bool
  fsync : Status
  put : Outcome
  fileStatus : Outcome
  constructorStatus : Outcome
  ready : Status
  create : Outcome
  delete : Outcome

namespace Relocation

variable (object : Relocation)

def identifier : Bytes := fullName object.bucket object.key

/-- `computeHostUri` -/
def hostURI : Bytes :=
  text "geds://" ++ object.hostname ++ text ":" ++ text (toString object.port.toNat)

/-- `GEDSS3FileHandle::location` -/
def s3Location : Bytes := text "s3://" ++ fullName object.bucket object.key

/-- The bytes that are put into the object store: a mapped file is read from memory,
any other is opened again by its path. -/
def uploaded : Bytes := if object.isMapped then object.content else object.pathContent

/-- `Endpoint::putObject` -/
def putObject (outcome : Outcome) : Relocation :=
  if outcome.takesEffect then { object with stored := some object.uploaded } else object

/-- `Endpoint::deleteObject` -/
def deleteObject (outcome : Outcome) : Relocation :=
  if outcome.takesEffect then { object with stored := none } else object

/-- `GEDSS3FileHandle::factory` with its constructor: the size of the stored object. -/
def factory (answers : RelocateAnswers) : Except Status UInt64 :=
  if answers.fileStatus.status.ok then
    if answers.constructorStatus.status.ok then
      .ok (UInt64.ofNat (object.stored.getD []).length)
    else .error answers.constructorStatus.status
  else .error answers.fileStatus.status

/-- `GEDSS3FileHandle::seal` -/
def sealStored (size : UInt64) (answers : RelocateAnswers) : Status × Relocation :=
  if answers.ready.ok then
    (answers.create.status,
      if answers.create.takesEffect then
        { object with recorded := some ⟨object.s3Location, size, size, object.metadata⟩ }
      else object)
  else (answers.ready, object)

/-- The steps of `relocate` after the checks. -/
def moveToStore (answers : RelocateAnswers) : Status × Relocation :=
  let put := object.putObject answers.put
  if answers.put.status.ok then
    match put.factory answers with
    | .error status => (status, put)
    | .ok size =>
        let done := put.sealStored size answers
        if done.1.ok then (okStatus, { done.2 with isValid := false })
        else (done.1, done.2.deleteObject answers.delete)
  else
    (unknownError (text "Unable to relocate " ++ object.identifier ++ text " to s3: Reason " ++
      answers.put.status.message), put)

/-- `GEDSAbstractFileHandle::relocate`; with an OK status there is a new handle. -/
def relocate (answers : RelocateAnswers) : Status × Relocation :=
  if object.isValid = false then
    (unavailableError (text "The file " ++ object.identifier ++ text " is no longer valid!"),
      object)
  else if 0 < object.openCount then
    (unavailableError (text "Unable to relocate " ++ object.identifier ++
      text " reason: The file is still in use."), object)
  else if answers.hasEndpoint = false then
    (unavailableError (text "Unable to relocate " ++ object.identifier ++
      text " reason: No tier configured for " ++ object.bucket), object)
  else if answers.fsync.ok then object.moveToStore answers
  else (answers.fsync, object)

/-- The object is local and sealed: the metadata service sends readers to this node. -/
def Sealed : Prop :=
  object.isValid = true ∧ ∃ info, object.recorded = some info ∧ info.location = object.hostURI

/-- The recorded location names a place with the full content: this node while the
handle is valid, or the object store. -/
def Found : Prop :=
  ∃ info, object.recorded = some info ∧
    (info.location = object.hostURI ∧ object.isValid = true ∨
      info.location = object.s3Location ∧ object.stored = some object.content)

/-- All steps up to the metadata service are taken, and it records the new place. -/
def Records (answers : RelocateAnswers) : Prop :=
  ¬ 0 < object.openCount ∧ answers.hasEndpoint = true ∧ answers.fsync.ok = true ∧
    answers.put.status.ok = true ∧ answers.fileStatus.status.ok = true ∧
    answers.constructorStatus.status.ok = true ∧ answers.ready.ok = true ∧
    answers.create.takesEffect = true

/-- The new place is recorded, and then the upload is deleted, or it was not the
content of the handle. -/
def Misleads (answers : RelocateAnswers) : Prop :=
  object.Records answers ∧
    (answers.create.status.ok = false ∧ answers.delete.takesEffect = true ∨
      object.uploaded ≠ object.content)

section Steps

variable {object} {answers : RelocateAnswers}

theorem hostURI_ne_s3Location : object.hostURI ≠ object.s3Location := by
  have hhost : text "geds://" = 0x67 :: text "eds://" := by decide
  have hstore : text "s3://" = 0x73 :: text "3://" := by decide
  intro heq
  rw [hostURI, s3Location, hhost, hstore] at heq
  injection heq with hletter
  exact absurd hletter (by decide)

/-- Nothing but the copy in the object store has changed. -/
def OnlyStored (object after : Relocation) : Prop :=
  ∃ stored, after = { object with stored := stored }

theorem OnlyStored.found {after : Relocation} (honly : object.OnlyStored after)
    (hsealed : object.Sealed) : after.Found := by
  obtain ⟨stored, rfl⟩ := honly
  obtain ⟨hvalid, info, hrecorded, hlocation⟩ := hsealed
  exact ⟨info, hrecorded, Or.inl ⟨hlocation, hvalid⟩⟩

theorem onlyStored_refl : object.OnlyStored object := ⟨object.stored, rfl⟩

theorem onlyStored_putObject (outcome : Outcome) : object.OnlyStored (object.putObject outcome) := by
  rw [putObject]
  split_ifs
  · exact ⟨some object.uploaded, rfl⟩
  · exact onlyStored_refl

theorem OnlyStored.deleteObject {after : Relocation} (honly : object.OnlyStored after)
    (outcome : Outcome) : object.OnlyStored (after.deleteObject outcome) := by
  obtain ⟨stored, rfl⟩ := honly
  rw [Relocation.deleteObject]
  split_ifs
  · exact ⟨none, rfl⟩
  · exact ⟨stored, rfl⟩

theorem moveToStore_of_not_recorded
    (hrecords : ¬ (answers.put.status.ok = true ∧ answers.fileStatus.status.ok = true ∧
      answers.constructorStatus.status.ok = true ∧ answers.ready.ok = true ∧
      answers.create.takesEffect = true)) :
    object.OnlyStored (object.moveToStore answers).2 := by
  have hput := @onlyStored_putObject object answers.put
  by_cases hstored : answers.put.status.ok = true
  · by_cases hstatus : answers.fileStatus.status.ok = true
    · by_cases hconstructed : answers.constructorStatus.status.ok = true
      · simp only [moveToStore, factory, sealStored, hstored, hstatus, hconstructed, ↓reduceIte]
        by_cases hready : answers.ready.ok = true
        · have heffect : answers.create.takesEffect = false := by
            simpa [hstored, hstatus, hconstructed, hready] using hrecords
          have hfailed : answers.create.status.ok ≠ true := fun hok => by
            simp [Outcome.takesEffect_of_ok hok] at heffect
          simp only [hready, hfailed, heffect, Bool.false_eq_true, ↓reduceIte]
          exact hput.deleteObject answers.delete
        · simp only [hready, Bool.false_eq_true, ↓reduceIte]
          exact hput.deleteObject answers.delete
      · simp only [moveToStore, factory, hstored, hstatus, hconstructed, Bool.false_eq_true,
          ↓reduceIte]
        exact hput
    · simp only [moveToStore, factory, hstored, hstatus, Bool.false_eq_true, ↓reduceIte]
      exact hput
  · simp only [moveToStore, hstored, Bool.false_eq_true, ↓reduceIte]
    exact hput

/-- Where the object is looked for, and what is there, once the new place was
recorded. -/
theorem relocate_of_records (hvalid : object.isValid = true) (hrecords : object.Records answers) :
    ∃ info valid, (object.relocate answers).2 =
        { object with
          isValid := valid
          recorded := some info
          stored := if answers.create.status.ok = false ∧ answers.delete.takesEffect = true
            then none else some object.uploaded } ∧
      info.location = object.s3Location := by
  obtain ⟨hclosed, hendpoint, hfsync, hput, hstatus, hconstructed, hready, hcreate⟩ := hrecords
  have heffect := Outcome.takesEffect_of_ok hput
  simp only [relocate, hvalid, Bool.true_eq_false, hclosed, hendpoint, hfsync, ↓reduceIte,
    moveToStore, hput, factory, hstatus, hconstructed, sealStored, hready, hcreate, putObject,
    heffect]
  by_cases hok : answers.create.status.ok = true
  · simp only [hok, ↓reduceIte, Bool.true_eq_false, false_and]
    exact ⟨⟨object.s3Location, _, _, object.metadata⟩, false, rfl, rfl⟩
  · rw [Bool.not_eq_true] at hok
    by_cases hdelete : answers.delete.takesEffect = true
    · simp only [hok, Bool.false_eq_true, ↓reduceIte, deleteObject, hdelete, and_self]
      exact ⟨⟨object.s3Location, _, _, object.metadata⟩, true, rfl, rfl⟩
    · simp only [hok, Bool.false_eq_true, ↓reduceIte, deleteObject, hdelete, and_false]
      exact ⟨⟨object.s3Location, _, _, object.metadata⟩, true, rfl, rfl⟩

theorem relocate_of_not_records (hvalid : object.isValid = true)
    (hrecords : ¬ object.Records answers) :
    object.OnlyStored (object.relocate answers).2 := by
  simp only [relocate, hvalid, Bool.true_eq_false, ↓reduceIte]
  by_cases hopen : 0 < object.openCount
  · simp only [hopen, ↓reduceIte]
    exact onlyStored_refl
  · by_cases hendpoint : answers.hasEndpoint = true
    · by_cases hfsync : answers.fsync.ok = true
      · simp only [hopen, hendpoint, hfsync, Bool.true_eq_false, ↓reduceIte]
        apply moveToStore_of_not_recorded
        intro hsteps
        exact hrecords ⟨hopen, hendpoint, hfsync, hsteps⟩
      · simp only [hopen, hendpoint, hfsync, Bool.true_eq_false, ↓reduceIte]
        exact onlyStored_refl
    · simp only [hopen, hendpoint, ↓reduceIte]
      exact onlyStored_refl

end Steps

/-- A sealed local object is found after `relocate`, however its steps end, just if
its new place was not recorded, or its bytes are there and stay there. -/
theorem relocate_found_iff (object : Relocation) (answers : RelocateAnswers)
    (hsealed : object.Sealed) :
    (object.relocate answers).2.Found ↔ ¬ object.Misleads answers := by
  by_cases hrecords : object.Records answers
  · obtain ⟨info, valid, hafter, hlocation⟩ := relocate_of_records hsealed.1 hrecords
    have hne : info.location ≠ object.hostURI := by
      rw [hlocation]
      exact hostURI_ne_s3Location.symm
    have hfound : (object.relocate answers).2.Found ↔
        (if answers.create.status.ok = false ∧ answers.delete.takesEffect = true
          then none else some object.uploaded) = some object.content := by
      rw [hafter]
      constructor
      · rintro ⟨other, hother, ⟨hhost, -⟩ | ⟨-, hstored⟩⟩
        · obtain rfl := Option.some.inj hother
          exact absurd hhost hne
        · exact hstored
      · intro hstored
        exact ⟨info, rfl, Or.inr ⟨hlocation, hstored⟩⟩
    rw [hfound, Misleads, and_iff_right hrecords, not_or, not_not]
    split_ifs with hdeleted
    · simp [hdeleted]
    · simp [hdeleted]
  · have hfound := (relocate_of_not_records hsealed.1 hrecords).found hsealed
    exact iff_of_true hfound fun hmisleads => hrecords hmisleads.1

namespace Sample

/-- A sealed object on this node. -/
def onNode : Relocation where
  bucket := text "abc"
  key := text "key"
  hostname := text "10.0.0.1"
  port := 4381
  metadata := none
  isValid := true
  openCount := 0
  isMapped := false
  content := text "data"
  pathContent := text "data"
  recorded := some ⟨text "geds://10.0.0.1:4381", 4, 4, none⟩
  stored := none

def succeeding : RelocateAnswers :=
  ⟨true, okStatus, .succeeds, .succeeds, .succeeds, okStatus, .succeeds, .succeeds⟩

/-- The answer of the metadata service is lost on the way. -/
def lost : FailedStatus :=
  ⟨unavailableError (text "Unable to execute Create command: Socket closed"), by decide⟩

theorem onNode_sealed : onNode.Sealed := ⟨rfl, _, rfl, by decide⟩

theorem succeeding_found : (onNode.relocate succeeding).2.Found := by
  apply (relocate_found_iff onNode succeeding onNode_sealed).mpr
  rintro ⟨-, ⟨hfailed, -⟩ | hother⟩
  · exact absurd hfailed (by decide)
  · exact hother rfl

/-- The new place is recorded, the answer is lost, and the upload is deleted. -/
theorem lost_not_found :
    ¬ ∀ (object : Relocation) (answers : RelocateAnswers), object.Sealed →
      (object.relocate answers).2.Found := by
  intro hall
  obtain ⟨info, hinfo, hfound⟩ :=
    hall onNode { succeeding with create := .takesEffectButFails lost } onNode_sealed
  have hrecorded : (onNode.relocate { succeeding with
      create := .takesEffectButFails lost }).2.recorded =
        some ⟨text "s3://abc/key", 4, 4, none⟩ := by rfl
  obtain rfl := Option.some.inj (hrecorded.symm.trans hinfo)
  rcases hfound with ⟨hhost, -⟩ | ⟨-, hstored⟩
  · exact absurd hhost (by decide)
  · exact absurd hstored (by decide)

end Sample

end Relocation

end GEDS
