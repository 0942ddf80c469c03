/-
`GEDS::relocate` beside other threads.  The call holds the lock of its handle
from the check to the end, and takes the lock of the registry for the check and
for the replacement only: `create` and the three steps of `deleteObject` come in
between.
-/
import GEDS.NodeBacking

namespace GEDS

open Status

/-- How far a call of `GEDS::relocate` has come. -/
inductive RelocationPhase where
  | checked
  | uploaded
  | reopened
  | sealedAs (added : Nat)
deriving DecidableEq

/-- A call of `GEDS::relocate`; it is overtaken if its handle is not the one that is
registered for the path, from the beginning or by a call of another thread. -/
structure RelocationCall where
  handle : Nat
  path : Bytes
  phase : RelocationPhase
  overtaken : Bool

/-- How far a call of `GEDS::deleteObject` has come. -/
inductive DeletionPhase where
  | deletedRecord
  | deletedStored
deriving DecidableEq

structure DeletionCall where
  bucket : Bytes
  key : Bytes
  phase : DeletionPhase

def DeletionCall.path (call : DeletionCall) : Bytes := getPath call.bucket call.key

/-- A record at the metadata service: of which object it is, and whether it was made
by a relocation. -/
structure SealedRecord where
  object : Nat
  relocated : Bool
deriving DecidableEq

/-- A node with the calls of `GEDS::relocate` and `GEDS::deleteObject` that are under
way, by their threads, the records of the metadata service and the object store.
`objects` has what `create` and `deleteObject` leave under a path in the registry,
`origin` the handle that `create` made for the object behind a handle, and `oldest`
the oldest object that a relocation may still record under a path. -/
structure Relocating where
  node : Node
  calls : AssocMap Nat RelocationCall
  deletions : AssocMap Nat DeletionCall
  records : Bytes → Option SealedRecord
  stored : Bytes → Option Nat
  objects : Bytes → Option Nat
  origin : Nat → Nat
  oldest : Bytes → Nat

inductive RelocatingEvent where
  | start (answer : Status)
  | create (bucket key : Bytes) (overwrite : Bool) (answers : CreateAnswers)
  | sealFile (id : Nat) (answer : Status)
  | deleteRecord (thread : Nat) (bucket key : Bytes) (answer : Status)
  | deleteStored (thread : Nat) (answer : Status)
  | unregister (thread : Nat)
  | copyFile (id : Nat)
  | closeFile (id : Nat)
  | addReference (id : Nat)
  | dropReference (id : Nat)
  | check (thread id : Nat) (force : Bool)
  | upload (thread : Nat) (answer : Status)
  | reopen (thread : Nat) (answer : Status)
  | sealStored (thread : Nat) (answer cleanup : Status)
  | replace (thread : Nat)

namespace Relocating

def new (pathPrefix : Bytes) : Relocating where
  node := Node.new pathPrefix
  calls := AssocMap.empty
  deletions := AssocMap.empty
  records := fun _ => none
  stored := fun _ => none
  objects := fun _ => none
  origin := id
  oldest := fun _ => 0

variable (s : Relocating)

/-- Some call holds the lock of the handle. -/
def isLocked (id : Nat) : Bool := s.calls.values.any fun call => decide (call.handle = id)

/-- Some call deletes the path, and has not come to the registry yet. -/
def isDeleting (path : Bytes) : Bool :=
  s.deletions.values.any fun call => decide (call.path = path)

def isBusy (thread : Nat) : Bool :=
  (s.calls.find thread).isSome || (s.deletions.find thread).isSome

/-- Another object, or none, comes under the path in the registry. -/
def overtake (path : Bytes) (object : Option Nat) : Relocating :=
  { s with
    objects := Function.update s.objects path object
    calls := s.calls.map fun call =>
      if call.path = path then { call with overtaken := true } else call }

def create (bucket key : Bytes) (overwrite : Bool) (answers : CreateAnswers) : Relocating :=
  let created := s.node.create bucket key overwrite answers
  match created.1 with
  | .error _ => { s with node := created.2 }
  | .ok id =>
      { s with node := created.2, origin := Function.update s.origin id id }.overtake
        (getPath bucket key) (some id)

/-- `GEDS::seal` for a handle that is in use, with the lock of the handle.  The record of
the handle that is registered is not to be replaced by that of an older object. -/
def sealFile (id : Nat) (answer : Status) : Option Relocating :=
  if s.isLocked id then none
  else
    match s.node.handles.find id with
    | none => none
    | some handle =>
        let path := getPath handle.bucket handle.key
        if answer.ok then
          some { s with
            records := Function.update s.records path (some ⟨s.origin id, false⟩)
            oldest :=
              if s.node.fileHandles.find path = some id then
                Function.update s.oldest path (max (s.oldest path) (s.origin id))
              else s.oldest }
        else some s

/-- The first part of `GEDS::deleteObject`, at the metadata service; `NotFound` is an
answer, too.  All objects that the path had so far are deleted. -/
def deleteRecord (thread : Nat) (bucket key : Bytes) (answer : Status) : Option Relocating :=
  if s.isBusy thread then none
  else if ¬ answer.ok ∧ answer.code ≠ .notFound then some s
  else
    let path := getPath bucket key
    some { s with
      records := Function.update s.records path none
      oldest := Function.update s.oldest path s.node.nextHandle
      deletions := s.deletions.insert thread ⟨bucket, key, .deletedRecord⟩ }

/-- The second part, on S3; the answer is not looked at. -/
def deleteStored (thread : Nat) (answer : Status) : Option Relocating :=
  match s.deletions.find thread with
  | some ⟨bucket, key, .deletedRecord⟩ =>
      let path := getPath bucket key
      some { s with
        stored :=
          if cacheBlockMarker.isPrefixOf key = false ∧ answer.ok then
            Function.update s.stored path none
          else s.stored
        deletions := s.deletions.insert thread ⟨bucket, key, .deletedStored⟩ }
  | _ => none

/-- The third part, in the registry.  Objects that came under the path in the meantime
are deleted with the others. -/
def unregister (thread : Nat) : Option Relocating :=
  match s.deletions.find thread with
  | some ⟨bucket, key, .deletedStored⟩ =>
      let path := getPath bucket key
      some ({ s with
        node := (s.node.deleteObject bucket key okStatus).2
        oldest := Function.update s.oldest path s.node.nextHandle
        deletions := s.deletions.erase thread }.overtake path none)
  | _ => none

/-- The first part of `GEDS::relocate`.  A cache block is removed at once. -/
def check (thread id : Nat) (force : Bool) : Option Relocating :=
  if s.isBusy thread ∨ s.isLocked id then none
  else
    match s.node.handles.find id with
    | none => none
    | some handle =>
        let path := getPath handle.bucket handle.key
        if (0 < handle.openCount ∧ force = false) ∨ s.node.fileHandles.get path = none then
          some s
        else if cacheBlockMarker.isPrefixOf handle.key then
          let removed := s.node.fileHandles.removeIf path fun existing =>
            decide (id = existing ∧ handle.openCount = 0)
          some { s with node := { s.node with fileHandles := removed.2 }.release id }
        else
          let call : RelocationCall :=
            ⟨id, path, .checked, decide (s.node.fileHandles.get path ≠ some id)⟩
          some { s with calls := s.calls.insert thread call }

/-- `GEDSAbstractFileHandle::relocate` up to the upload. -/
def upload (thread : Nat) (answer : Status) : Option Relocating :=
  match s.calls.find thread with
  | some ⟨id, path, .checked, overtaken⟩ =>
      match s.node.handles.find id with
      | none => none
      | some handle =>
          if handle.file.isSome ∧ handle.isValid ∧ ¬ 0 < handle.openCount ∧ answer.ok then
            some { s with
              stored := Function.update s.stored path (some (s.origin id))
              calls := s.calls.insert thread ⟨id, path, .uploaded, overtaken⟩ }
          else some { s with calls := s.calls.erase thread }
  | _ => none

/-- `GEDSS3FileHandle::factory`, which asks S3 for what was uploaded. -/
def reopen (thread : Nat) (answer : Status) : Option Relocating :=
  match s.calls.find thread with
  | some ⟨id, path, .uploaded, overtaken⟩ =>
      if answer.ok ∧ (s.stored path).isSome then
        some { s with calls := s.calls.insert thread ⟨id, path, .reopened, overtaken⟩ }
      else some { s with calls := s.calls.erase thread }
  | _ => none

/-- The rest of `GEDSAbstractFileHandle::relocate`: the record is made at the metadata
service, or the upload is taken back. -/
def sealStored (thread : Nat) (answer cleanup : Status) : Option Relocating :=
  match s.calls.find thread with
  | some ⟨id, path, .reopened, overtaken⟩ =>
      match s.node.handles.find id with
      | none => none
      | some handle =>
          if answer.ok then
            let added := s.node.addHandle handle.bucket handle.key none
            some { s with
              node := added.2.modifyHandle id fun handle => { handle with isValid := false }
              records := Function.update s.records path (some ⟨s.origin id, true⟩)
              origin := Function.update s.origin added.1 (s.origin id)
              calls := s.calls.insert thread ⟨id, path, .sealedAs added.1, overtaken⟩ }
          else
            some { s with
              stored := if cleanup.ok then Function.update s.stored path none else s.stored
              calls := s.calls.erase thread }
  | _ => none

/-- The end of `GEDS::relocate`. -/
def replace (thread : Nat) : Option Relocating :=
  match s.calls.find thread with
  | some ⟨_, path, .sealedAs added, _⟩ =>
      some { s with
        node := (s.node.replaceHandle path added).dropReference added
        calls := s.calls.erase thread }
  | _ => none

/-- One step, if the thread can make it now. -/
def perform : RelocatingEvent → Option Relocating
  | .start answer => some { s with node := s.node.start answer }
  | .create bucket key overwrite answers => some (s.create bucket key overwrite answers)
  | .sealFile id answer => s.sealFile id answer
  | .deleteRecord thread bucket key answer => s.deleteRecord thread bucket key answer
  | .deleteStored thread answer => s.deleteStored thread answer
  | .unregister thread => s.unregister thread
  | .copyFile id =>
      if s.isLocked id then none else some { s with node := s.node.openFile id }
  | .closeFile id =>
      if s.isLocked id then none else some { s with node := s.node.closeFile id }
  | .addReference id => some { s with node := s.node.addReference id }
  | .dropReference id => some { s with node := s.node.dropReference id }
  | .check thread id force => s.check thread id force
  | .upload thread answer => s.upload thread answer
  | .reopen thread answer => s.reopen thread answer
  | .sealStored thread answer cleanup => s.sealStored thread answer cleanup
  | .replace thread => s.replace thread

def run : List RelocatingEvent → Relocating → Option Relocating
  | [], s => some s
  | event :: events, s => (s.perform event).bind (run events)

/-- No relocation puts an older object, or one that was deleted, in the place of what
there is: every registered handle is of the object that was registered last for its path
and not deleted since, and every record that a relocation made is of an object that was
created after the last deletion, and not before the one that was sealed last. -/
structure Current : Prop where
  registered : ∀ {path id}, s.node.fileHandles.find path = some id →
    s.objects path = some (s.origin id)
  recorded : ∀ {path record}, s.records path = some record → record.relocated = true →
    s.oldest path ≤ record.object

/-- A call that was overtaken, or has a deletion of its path beside it, makes a record,
or one that was overtaken comes to its end. -/
def endsOvertaken : RelocatingEvent → Bool
  | .sealStored thread answer _ =>
      answer.ok && (s.calls.find thread).any fun call =>
        decide (call.phase = .reopened) && (call.overtaken || s.isDeleting call.path)
  | .replace thread => (s.calls.find thread).any (·.overtaken)
  | _ => false

/-- No such step is in a run. -/
def neverOvertaken : List RelocatingEvent → Relocating → Bool
  | [], _ => true
  | event :: events, s =>
      !s.endsOvertaken event && match s.perform event with
        | none => true
        | some t => neverOvertaken events t

end Relocating

namespace Node

variable {node : Node} {bucket key : Bytes} {overwrite : Bool} {answers : CreateAnswers}

/-- A creation registers the handle that it made, or leaves the registry alone. -/
theorem Numbered.createAsFileHandle_registry (hnumbered : node.Numbered) :
    ((∃ status, (node.createAsFileHandle bucket key overwrite answers).1 = .error status) ∧
        (node.createAsFileHandle bucket key overwrite answers).2.fileHandles =
          node.fileHandles ∧
        node.nextHandle ≤ (node.createAsFileHandle bucket key overwrite answers).2.nextHandle) ∨
      (node.createAsFileHandle bucket key overwrite answers).1 = .ok node.nextHandle ∧
        (node.createAsFileHandle bucket key overwrite answers).2.fileHandles =
          node.fileHandles.insert (getPath bucket key) node.nextHandle ∧
        (node.createAsFileHandle bucket key overwrite answers).2.nextHandle =
          node.nextHandle + 1 := by
  by_cases hopens : node.OpensFile bucket key answers
  · obtain ⟨known, hcreated⟩ :=
      @createAsFileHandle_of_opens node bucket key overwrite answers hopens
    rw [hcreated]
    cases overwrite with
    | true =>
        have hsame := @sameRegistry_releaseAll
          { withNewFile { node with knownBuckets := known } bucket key with
            fileHandles := node.fileHandles.insert (getPath bucket key) node.nextHandle }
          (node.fileHandles.get (getPath bucket key)).toList
        exact Or.inr ⟨rfl, hsame.1, hsame.2⟩
    | false =>
        cases hfind : node.fileHandles.find (getPath bucket key) with
        | none =>
            have hinserted : (node.fileHandles.insertOrExists (getPath bucket key)
                node.nextHandle) = (node.nextHandle,
                  node.fileHandles.insert (getPath bucket key) node.nextHandle) := by
              rw [ConcurrentMap.insertOrExists, hfind]
            have hregistry : (withNewFile { node with knownBuckets := known } bucket
                key).fileHandles = node.fileHandles := rfl
            simp only [Bool.false_eq_true, ↓reduceIte, Node.registerHandle, hregistry, hinserted,
              ne_eq, not_true_eq_false]
            exact Or.inr ⟨trivial, trivial, rfl⟩
        | some existing =>
            have hne : existing ≠ node.nextHandle := Nat.ne_of_lt (hnumbered _ _ hfind)
            have hinserted : (node.fileHandles.insertOrExists (getPath bucket key)
                node.nextHandle) = (existing, node.fileHandles) := by
              rw [ConcurrentMap.insertOrExists, hfind]
            have hregistry : (withNewFile { node with knownBuckets := known } bucket
                key).fileHandles = node.fileHandles := rfl
            have hsame := @sameRegistry_dropReference
              { withNewFile { node with knownBuckets := known } bucket key with
                fileHandles := node.fileHandles } node.nextHandle
            simp only [Bool.false_eq_true, ↓reduceIte, Node.registerHandle, hregistry, hinserted,
              ne_eq, hne, not_false_eq_true]
            refine Or.inl ⟨⟨_, rfl⟩, hsame.1, ?_⟩
            rw [hsame.2]
            exact Nat.le_succ node.nextHandle
  · obtain ⟨hstatus, hkept⟩ :=
      @createAsFileHandle_of_not_opens node bucket key overwrite answers hopens
    exact Or.inl ⟨hstatus, hkept.registry, hkept.next.ge⟩

theorem Numbered.create_registry (hnumbered : node.Numbered) :
    ((∃ status, (node.create bucket key overwrite answers).1 = .error status) ∧
        (node.create bucket key overwrite answers).2.fileHandles = node.fileHandles ∧
        node.nextHandle ≤ (node.create bucket key overwrite answers).2.nextHandle) ∨
      (node.create bucket key overwrite answers).1 = .ok node.nextHandle ∧
        (node.create bucket key overwrite answers).2.fileHandles =
          node.fileHandles.insert (getPath bucket key) node.nextHandle ∧
        (node.create bucket key overwrite answers).2.nextHandle = node.nextHandle + 1 := by
  rw [Node.create]
  rcases @Numbered.createAsFileHandle_registry node bucket key overwrite answers hnumbered with
    ⟨⟨status, hresult⟩, hregistry, hnext⟩ | ⟨hresult, hregistry, hnext⟩
  · simp only [hresult]
    exact Or.inl ⟨⟨status, rfl⟩, hregistry, hnext⟩
  · simp only [hresult]
    have hsame := (sameRegistry_modifyHandle node.nextHandle _).trans
      (@sameRegistry_dropReference
        ((node.createAsFileHandle bucket key overwrite answers).2.openFile node.nextHandle)
        node.nextHandle)
    exact Or.inr ⟨trivial, hsame.1.trans hregistry, hsame.2.trans hnext⟩

theorem deleteObject_registry (answer : Status) :
    ((node.deleteObject bucket key answer).1.ok = true ∧
        (node.deleteObject bucket key answer).2.nextHandle = node.nextHandle ∧
        ∀ path, (node.deleteObject bucket key answer).2.fileHandles.find path =
          if path = getPath bucket key then none else node.fileHandles.find path) ∨
      (node.deleteObject bucket key answer).1.ok = false ∧
        (node.deleteObject bucket key answer).2 = node := by
  simp only [deleteObject]
  split_ifs with hfailed
  · exact Or.inr ⟨by simpa using hfailed.1, rfl⟩
  · have hsame := @sameRegistry_releaseAll
      { node with fileHandles := (node.fileHandles.remove (getPath bucket key)).2 }
      (node.fileHandles.get (getPath bucket key)).toList
    refine Or.inl ⟨rfl, hsame.2, fun path => ?_⟩
    rw [hsame.1]
    simp only [ConcurrentMap.find_remove]
    split_ifs <;> rfl

/-- Only the handle itself is taken out. -/
theorem find_removeIf_of_ne {path other : Bytes} {id existing : Nat} {also : Prop}
    [Decidable also] (map : ConcurrentMap Bytes Nat) (hfind : map.find other = some existing)
    (hne : existing ≠ id) :
    (map.removeIf path fun existing => decide (id = existing ∧ also)).2.find other =
      some existing := by
  rw [ConcurrentMap.removeIf]
  cases hpath : map.find path with
  | none => exact hfind
  | some value =>
      simp only
      split_ifs with hremoved
      · have hother : other ≠ path := by
          rintro rfl
          obtain rfl := Option.some.inj (hpath.symm.trans hfind)
          exact hne (of_decide_eq_true hremoved).1.symm
        rw [OrderedMap.find_erase, if_neg hother, hfind]
      · exact hfind

end Node

namespace Relocating

open Node

/-- A call that was not overtaken finds its handle registered, and the handle that it
will put there stands for the same object. -/
structure RegistryInvariant (s : Relocating) : Prop where
  numbered : s.node.Numbered
  current : ∀ path id, s.node.fileHandles.find path = some id →
    s.objects path = some (s.origin id)
  registered : ∀ {thread call}, s.calls.find thread = some call → call.overtaken = false →
    s.node.fileHandles.find call.path = some call.handle
  sameOrigin : ∀ {thread call added}, s.calls.find thread = some call →
    call.overtaken = false → call.phase = .sealedAs added →
    added < s.node.nextHandle ∧ s.origin added = s.origin call.handle
  exclusive : ∀ {thread thread' call call'}, s.calls.find thread = some call →
    s.calls.find thread' = some call' → call.handle = call'.handle → thread = thread'

/-- What is registered, and not about to be removed, may still be recorded; while a path
is deleted, no relocation has a record for it. -/
structure RecordInvariant (s : Relocating) : Prop where
  origin_le : ∀ id, s.origin id ≤ id
  oldest_le : ∀ path, s.oldest path ≤ s.node.nextHandle
  newest : ∀ {path id}, s.node.fileHandles.find path = some id → s.isDeleting path = false →
    s.oldest path ≤ s.origin id
  unrecorded : ∀ {path record}, s.isDeleting path = true → s.records path = some record →
    record.relocated = false
  recorded : ∀ {path record}, s.records path = some record → record.relocated = true →
    s.oldest path ≤ record.object

structure Invariant (s : Relocating) : Prop where
  registry : s.RegistryInvariant
  records : s.RecordInvariant

variable {s t : Relocating}

theorem Invariant.current (h : s.Invariant) : s.Current :=
  ⟨fun {path id} => h.registry.current path id, h.records.recorded⟩

theorem new_registryInvariant (pathPrefix : Bytes) : (new pathPrefix).RegistryInvariant where
  numbered := new_numbered pathPrefix
  current path id hfind := by simp [new, Node.new] at hfind
  registered hfind := by simp [new] at hfind
  sameOrigin hfind := by simp [new] at hfind
  exclusive hfind := by simp [new] at hfind

theorem new_recordInvariant (pathPrefix : Bytes) : (new pathPrefix).RecordInvariant where
  origin_le id := le_rfl
  oldest_le path := Nat.zero_le _
  newest hfind := by simp [new, Node.new] at hfind
  unrecorded _ hrecord := by cases hrecord
  recorded hrecord := by cases hrecord

theorem new_invariant (pathPrefix : Bytes) : (new pathPrefix).Invariant :=
  ⟨new_registryInvariant pathPrefix, new_recordInvariant pathPrefix⟩

section Steps

/-- What changes neither the registry nor the meaning of the old handles. -/
theorem RegistryInvariant.setNode (h : s.RegistryInvariant) {node : Node} {origin : Nat → Nat}
    (hnumbered : node.Numbered) (hregistry : node.fileHandles = s.node.fileHandles)
    (hnext : s.node.nextHandle ≤ node.nextHandle)
    (horigin : ∀ id, id < s.node.nextHandle → origin id = s.origin id) :
    RegistryInvariant { s with node := node, origin := origin } where
  numbered := hnumbered
  current path id hfind := by
    rw [hregistry] at hfind
    change s.objects path = some (origin id)
    rw [horigin id (h.numbered path id hfind)]
    exact h.current path id hfind
  registered hfind hkept := by
    rw [hregistry]
    exact h.registered hfind hkept
  sameOrigin hfind hkept hphase := by
    obtain ⟨hadded, hsame⟩ := h.sameOrigin hfind hkept hphase
    have hhandle := h.numbered _ _ (h.registered hfind hkept)
    refine ⟨hadded.trans_le hnext, ?_⟩
    exact (horigin _ hadded).trans (hsame.trans (horigin _ hhandle).symm)
  exclusive := h.exclusive

theorem RegistryInvariant.of_sameRegistry (h : s.RegistryInvariant) {node : Node}
    (hsame : SameRegistry s.node node) : RegistryInvariant { s with node := node } :=
  h.setNode (h.numbered.of_sameRegistry hsame) hsame.1 hsame.2.ge fun _ _ => rfl

/-- Another object comes under a path: the calls for the path are overtaken. -/
theorem RegistryInvariant.overtake (h : s.RegistryInvariant) {node : Node} {origin : Nat → Nat}
    (hnumbered : node.Numbered) (hnext : s.node.nextHandle ≤ node.nextHandle)
    (horigin : ∀ id, id < s.node.nextHandle → origin id = s.origin id)
    {path : Bytes} {object : Option Nat}
    (hother : ∀ other, other ≠ path →
      node.fileHandles.find other = s.node.fileHandles.find other)
    (hpath : ∀ id, node.fileHandles.find path = some id → object = some (origin id)) :
    (Relocating.overtake { s with node := node, origin := origin } path
      object).RegistryInvariant := by
  have hcalls : ∀ {thread call},
      (Relocating.overtake { s with node := node, origin := origin } path object).calls.find
        thread = some call →
      ∃ before, s.calls.find thread = some before ∧ call.handle = before.handle ∧
        call.path = before.path ∧ call.phase = before.phase ∧
        (call.overtaken = false → before.overtaken = false ∧ before.path ≠ path) := by
    intro thread call hfind
    rw [Relocating.overtake, AssocMap.find_map, Option.map_eq_some_iff] at hfind
    obtain ⟨before, hbefore, rfl⟩ := hfind
    refine ⟨before, hbefore, ?_⟩
    by_cases heq : before.path = path
    · simp [heq]
    · simp [heq]
  refine ⟨hnumbered, ?_, ?_, ?_, ?_⟩
  · intro other id hfind
    change Function.update s.objects path object other = some (origin id)
    by_cases heq : other = path
    · rw [heq, Function.update_self]
      exact hpath id (heq ▸ hfind)
    · have hold : s.node.fileHandles.find other = some id := (hother other heq).symm.trans hfind
      rw [Function.update_of_ne heq, horigin id (h.numbered other id hold)]
      exact h.current other id hold
  · intro thread call hfind hkept
    obtain ⟨before, hbefore, hhandle, hsame, -, hovertaken⟩ := hcalls hfind
    obtain ⟨hkept, hne⟩ := hovertaken hkept
    rw [hhandle, hsame]
    exact (hother _ hne).trans (h.registered hbefore hkept)
  · intro thread call added hfind hkept hphase
    obtain ⟨before, hbefore, hhandle, -, hsame, hovertaken⟩ := hcalls hfind
    obtain ⟨hkept, -⟩ := hovertaken hkept
    obtain ⟨hadded, horiginal⟩ := h.sameOrigin hbefore hkept (hsame ▸ hphase)
    have hlt := h.numbered _ _ (h.registered hbefore hkept)
    refine ⟨hadded.trans_le hnext, ?_⟩
    change origin added = origin call.handle
    rw [horigin _ hadded, hhandle, horigin _ hlt, horiginal]
  · intro thread thread' call call' hfind hfind' heq
    obtain ⟨before, hbefore, hhandle, -⟩ := hcalls hfind
    obtain ⟨before', hbefore', hhandle', -⟩ := hcalls hfind'
    exact h.exclusive hbefore hbefore' (hhandle.symm.trans (heq.trans hhandle'))

theorem RegistryInvariant.create (h : s.RegistryInvariant) (bucket key : Bytes) (overwrite : Bool)
    (answers : CreateAnswers) : (s.create bucket key overwrite answers).RegistryInvariant := by
  have hnumbered := h.numbered.create bucket key overwrite answers
  rcases @Numbered.create_registry s.node bucket key overwrite answers h.numbered with
    ⟨⟨status, hresult⟩, hregistry, hnext⟩ | ⟨hresult, hregistry, hnext⟩
  · simp only [Relocating.create, hresult]
    exact h.setNode hnumbered hregistry hnext fun _ _ => rfl
  · simp only [Relocating.create, hresult]
    apply h.overtake hnumbered (hnext ▸ Nat.le_succ _)
    · intro id hid
      exact Function.update_of_ne (Nat.ne_of_lt hid) _ _
    · intro other hother
      rw [hregistry, OrderedMap.find_insert, if_neg hother]
    · intro id hfind
      rw [hregistry, OrderedMap.find_insert, if_pos rfl, Option.some.injEq] at hfind
      rw [← hfind, Function.update_self]

/-- The registry does not depend on the records, the store and the deletions. -/
theorem RegistryInvariant.withRecords (h : s.RegistryInvariant)
    {deletions : AssocMap Nat DeletionCall} {records : Bytes → Option SealedRecord}
    {stored : Bytes → Option Nat} {oldest : Bytes → Nat} :
    RegistryInvariant { s with
      deletions := deletions, records := records, stored := stored, oldest := oldest } where
  numbered := h.numbered
  current := h.current
  registered := h.registered
  sameOrigin := h.sameOrigin
  exclusive := h.exclusive

theorem find_deleteObject (bucket key path : Bytes) :
    (s.node.deleteObject bucket key okStatus).2.fileHandles.find path =
      if path = getPath bucket key then none else s.node.fileHandles.find path := by
  rcases @deleteObject_registry s.node bucket key okStatus with ⟨-, -, hregistry⟩ | ⟨hfailed, -⟩
  · exact hregistry path
  · cases hfailed

theorem nextHandle_deleteObject (bucket key : Bytes) :
    (s.node.deleteObject bucket key okStatus).2.nextHandle = s.node.nextHandle := by
  rcases @deleteObject_registry s.node bucket key okStatus with ⟨-, hnext, -⟩ | ⟨hfailed, -⟩
  · exact hnext
  · cases hfailed

theorem RegistryInvariant.unregister (h : s.RegistryInvariant) {thread : Nat}
    (hstep : s.unregister thread = some t) : t.RegistryInvariant := by
  simp only [Relocating.unregister] at hstep
  split at hstep
  case _ bucket key hcall =>
      obtain rfl := Option.some.inj hstep
      refine (@RegistryInvariant.withRecords s h (s.deletions.erase thread) s.records s.stored
        (Function.update s.oldest (getPath bucket key) s.node.nextHandle)).overtake
        (h.numbered.deleteObject bucket key okStatus) (nextHandle_deleteObject bucket key).ge
        (fun _ _ => rfl) ?_ ?_
      · intro other hother
        rw [find_deleteObject, if_neg hother]
      · intro id hfind
        rw [find_deleteObject, if_pos rfl] at hfind
        cases hfind
  · cases hstep

/-- A call goes on with its handle and path, as far as it was known. -/
theorem RegistryInvariant.setPhase (h : s.RegistryInvariant) {thread : Nat} {call : RelocationCall}
    (hfind : s.calls.find thread = some call) {phase : RelocationPhase}
    (hphase : call.overtaken = false → ∀ added, phase = .sealedAs added →
      added < s.node.nextHandle ∧ s.origin added = s.origin call.handle) :
    RegistryInvariant { s with calls := s.calls.insert thread { call with phase := phase } } := by
  have hcalls : ∀ {other found},
      (s.calls.insert thread { call with phase := phase }).find other = some found →
      ∃ before, s.calls.find other = some before ∧ found.handle = before.handle ∧
        found.path = before.path ∧ found.overtaken = before.overtaken ∧
        (found.phase = before.phase ∨ before = call ∧ found.phase = phase) := by
    intro other found hfound
    rw [AssocMap.find_insert] at hfound
    by_cases heq : other = thread
    · rw [if_pos heq, Option.some.injEq] at hfound
      exact ⟨call, heq ▸ hfind, hfound ▸ ⟨rfl, rfl, rfl, Or.inr ⟨rfl, rfl⟩⟩⟩
    · rw [if_neg heq] at hfound
      exact ⟨found, hfound, rfl, rfl, rfl, Or.inl rfl⟩
  refine ⟨h.numbered, h.current, ?_, ?_, ?_⟩
  · intro other found hfound hkept
    obtain ⟨before, hbefore, hhandle, hpath, hovertaken, -⟩ := hcalls hfound
    rw [hhandle, hpath]
    exact h.registered hbefore (hovertaken ▸ hkept)
  · intro other found added hfound hkept hadded
    obtain ⟨before, hbefore, hhandle, -, hovertaken, hsame | ⟨rfl, hsame⟩⟩ := hcalls hfound
    · rw [hhandle]
      exact h.sameOrigin hbefore (hovertaken ▸ hkept) (hsame ▸ hadded)
    · rw [hhandle]
      exact hphase (hovertaken ▸ hkept) added (hsame ▸ hadded)
  · intro other other' found found' hfound hfound' heq
    obtain ⟨before, hbefore, hhandle, -⟩ := hcalls hfound
    obtain ⟨before', hbefore', hhandle', -⟩ := hcalls hfound'
    exact h.exclusive hbefore hbefore' (hhandle.symm.trans (heq.trans hhandle'))

theorem RegistryInvariant.endCall (h : s.RegistryInvariant) (thread : Nat) :
    RegistryInvariant { s with calls := s.calls.erase thread } where
  numbered := h.numbered
  current := h.current
  registered hfind := h.registered (AssocMap.find_erase_eq_some hfind).2
  sameOrigin hfind := h.sameOrigin (AssocMap.find_erase_eq_some hfind).2
  exclusive hfind hfind' :=
    h.exclusive (AssocMap.find_erase_eq_some hfind).2 (AssocMap.find_erase_eq_some hfind').2

theorem handle_ne_of_not_locked {id : Nat} (hlocked : s.isLocked id ≠ true) {thread : Nat}
    {call : RelocationCall} (hfind : s.calls.find thread = some call) : call.handle ≠ id := by
  intro heq
  apply hlocked
  rw [isLocked, List.any_eq_true]
  exact ⟨call, (AssocMap.mem_values_iff _ _).2 ⟨thread, hfind⟩, by simpa using heq⟩

/-- A cache block is taken out of the registry; no call under way is for it. -/
theorem RegistryInvariant.evict (h : s.RegistryInvariant) {id : Nat}
    (hlocked : s.isLocked id ≠ true) (path : Bytes) (openCount : Int) :
    RegistryInvariant { s with
      node := { s.node with
        fileHandles := (s.node.fileHandles.removeIf path fun existing =>
          decide (id = existing ∧ openCount = 0)).2 } } where
  numbered := h.numbered.of_removed (find_removeIf _ _ _)
  current other existing hfind := by
    rcases find_removeIf s.node.fileHandles path
      (fun existing => decide (id = existing ∧ openCount = 0)) other with hnone | hsame
    · exact absurd (hnone.symm.trans hfind) (Option.some_ne_none existing).symm
    · exact h.current other existing (hsame.symm.trans hfind)
  registered hfind hkept :=
    find_removeIf_of_ne _ (h.registered hfind hkept) (handle_ne_of_not_locked hlocked hfind)
  sameOrigin := h.sameOrigin
  exclusive := h.exclusive

/-- A call begins; it holds a lock that nobody held. -/
theorem RegistryInvariant.beginCall (h : s.RegistryInvariant) (thread : Nat) {call : RelocationCall}
    (hlocked : s.isLocked call.handle ≠ true) (hphase : call.phase = .checked)
    (hregistered : call.overtaken = false →
      s.node.fileHandles.find call.path = some call.handle) :
    RegistryInvariant { s with calls := s.calls.insert thread call } := by
  have hcalls : ∀ {other found}, (s.calls.insert thread call).find other = some found →
      other = thread ∧ found = call ∨ s.calls.find other = some found := by
    intro other found hfind
    rw [AssocMap.find_insert] at hfind
    by_cases heq : other = thread
    · rw [if_pos heq, Option.some.injEq] at hfind
      exact Or.inl ⟨heq, hfind.symm⟩
    · rw [if_neg heq] at hfind
      exact Or.inr hfind
  refine ⟨h.numbered, h.current, ?_, ?_, ?_⟩
  · intro other found hfind hkept
    rcases hcalls hfind with ⟨-, rfl⟩ | hold
    · exact hregistered hkept
    · exact h.registered hold hkept
  · intro other found added hfind hkept hsealed
    rcases hcalls hfind with ⟨-, rfl⟩ | hold
    · rw [hphase] at hsealed
      cases hsealed
    · exact h.sameOrigin hold hkept hsealed
  · intro other other' found found' hfind hfind' heq
    rcases hcalls hfind with ⟨rfl, rfl⟩ | hold
    · rcases hcalls hfind' with ⟨rfl, rfl⟩ | hold'
      · rfl
      · exact absurd heq.symm (handle_ne_of_not_locked hlocked hold')
    · rcases hcalls hfind' with ⟨rfl, rfl⟩ | hold'
      · exact absurd heq (handle_ne_of_not_locked hlocked hold)
      · exact h.exclusive hold hold' heq

theorem RegistryInvariant.check (h : s.RegistryInvariant) {thread id : Nat} {force : Bool}
    (hstep : s.check thread id force = some t) : t.RegistryInvariant := by
  simp only [Relocating.check] at hstep
  split at hstep
  · simp at hstep
  case _ hfree =>
      rw [not_or] at hfree
      split at hstep
      · simp at hstep
      · split at hstep
        · exact Option.some.inj hstep ▸ h
        · split at hstep
          · obtain rfl := Option.some.inj hstep
            exact (h.evict hfree.2 _ _).of_sameRegistry (sameRegistry_release id)
          · obtain rfl := Option.some.inj hstep
            apply h.beginCall thread hfree.2 rfl
            intro hkept
            exact not_not.1 (of_decide_eq_false hkept)

theorem RegistryInvariant.upload (h : s.RegistryInvariant) {thread : Nat} {answer : Status}
    (hstep : s.upload thread answer = some t) : t.RegistryInvariant := by
  simp only [Relocating.upload] at hstep
  split at hstep
  case _ id path overtaken hcall =>
      split at hstep
      · simp at hstep
      · split at hstep
        · obtain rfl := Option.some.inj hstep
          exact (h.setPhase hcall fun _ added hphase => by cases hphase).withRecords
        · exact Option.some.inj hstep ▸ h.endCall thread
  · simp at hstep

theorem RegistryInvariant.reopen (h : s.RegistryInvariant) {thread : Nat} {answer : Status}
    (hstep : s.reopen thread answer = some t) : t.RegistryInvariant := by
  simp only [Relocating.reopen] at hstep
  split at hstep
  case _ id path overtaken hcall =>
      split at hstep
      · obtain rfl := Option.some.inj hstep
        exact h.setPhase hcall fun _ added hphase => by cases hphase
      · exact Option.some.inj hstep ▸ h.endCall thread
  · simp at hstep

theorem RegistryInvariant.sealStored (h : s.RegistryInvariant) {thread : Nat}
    {answer cleanup : Status} (hstep : s.sealStored thread answer cleanup = some t) :
    t.RegistryInvariant := by
  simp only [Relocating.sealStored] at hstep
  split at hstep
  case _ id path overtaken hcall =>
      split at hstep
      · simp at hstep
      case _ handle hhandle =>
          split at hstep
          · obtain rfl := Option.some.inj hstep
            have hsame := @sameRegistry_modifyHandle
              (s.node.addHandle handle.bucket handle.key none).2 id
              fun handle => { handle with isValid := false }
            have hnumbered := (h.numbered.addHandle handle.bucket handle.key none).of_sameRegistry
              hsame
            have hadded := @RegistryInvariant.setNode s h _
              (Function.update s.origin s.node.nextHandle (s.origin id)) hnumbered hsame.1
              (hsame.2 ▸ Nat.le_succ _)
              fun other hother => Function.update_of_ne (Nat.ne_of_lt hother) _ _
            refine (hadded.setPhase hcall fun hkept added hphase => ?_).withRecords
            obtain rfl := RelocationPhase.sealedAs.inj hphase
            have hlt := h.numbered _ _ (h.registered hcall hkept)
            refine ⟨hsame.2 ▸ Nat.lt_succ_self _, ?_⟩
            change Function.update s.origin s.node.nextHandle (s.origin id) s.node.nextHandle =
              Function.update s.origin s.node.nextHandle (s.origin id) id
            rw [Function.update_self, Function.update_of_ne (Nat.ne_of_lt hlt)]
          · exact Option.some.inj hstep ▸ (h.endCall thread).withRecords
  · simp at hstep

theorem find_replaceHandle (path : Bytes) (added : Nat) (other : Bytes) :
    ((s.node.replaceHandle path added).dropReference added).fileHandles.find other =
      if other = path then some added else s.node.fileHandles.find other := by
  have hsame := (@sameRegistry_releaseAll
    { s.node with fileHandles := s.node.fileHandles.insert path added }
    (s.node.fileHandles.get path).toList).trans (sameRegistry_dropReference added)
  have hfind : (s.node.fileHandles.insert path added).find other =
      if other = path then some added else s.node.fileHandles.find other := by
    rw [OrderedMap.find_insert]
    split_ifs <;> rfl
  rw [← hfind]
  exact congrArg (fun map => OrderedMap.find map other) hsame.1

theorem nextHandle_replaceHandle (path : Bytes) (added : Nat) :
    ((s.node.replaceHandle path added).dropReference added).nextHandle = s.node.nextHandle :=
  ((@sameRegistry_releaseAll
    { s.node with fileHandles := s.node.fileHandles.insert path added }
    (s.node.fileHandles.get path).toList).trans (sameRegistry_dropReference added)).2

theorem RegistryInvariant.replace (h : s.RegistryInvariant) {thread : Nat}
    (hevent : s.endsOvertaken (.replace thread) = false) (hstep : s.replace thread = some t) :
    t.RegistryInvariant := by
  simp only [Relocating.replace] at hstep
  split at hstep
  case _ id path added overtaken hcall =>
      obtain rfl := Option.some.inj hstep
      have hkept : overtaken = false := by simpa [endsOvertaken, hcall] using hevent
      obtain ⟨hadded, horigin⟩ := h.sameOrigin hcall hkept rfl
      have hregistered := h.registered hcall hkept
      refine ⟨?_, ?_, ?_, ?_, ?_⟩
      · exact (h.numbered.replaceHandle hadded path).of_sameRegistry
          (sameRegistry_dropReference added)
      · intro other existing hfind
        rw [find_replaceHandle] at hfind
        by_cases heq : other = path
        · rw [if_pos heq, Option.some.injEq] at hfind
          change s.objects other = some (s.origin existing)
          rw [← hfind, heq, horigin]
          exact h.current path id hregistered
        · rw [if_neg heq] at hfind
          exact h.current other existing hfind
      · intro other call hfind hfree
        obtain ⟨hother, hfind⟩ := AssocMap.find_erase_eq_some hfind
        -- two calls for one path would be for the same handle
        have hne : call.path ≠ path := by
          intro heq
          have hhandle := h.registered hfind hfree
          rw [heq, hregistered, Option.some.injEq] at hhandle
          exact hother (h.exclusive hfind hcall hhandle.symm)
        rw [find_replaceHandle, if_neg hne]
        exact h.registered hfind hfree
      · intro other call later hfind hfree hphase
        have hbefore := (AssocMap.find_erase_eq_some hfind).2
        obtain ⟨hlater, hsameOrigin⟩ := h.sameOrigin hbefore hfree hphase
        exact ⟨(nextHandle_replaceHandle path added).symm ▸ hlater, hsameOrigin⟩
      · intro other other' call call' hfind hfind'
        exact h.exclusive (AssocMap.find_erase_eq_some hfind).2
          (AssocMap.find_erase_eq_some hfind').2
  · simp at hstep

/-- A step that is not about records keeps them, if it registers nothing that is older
than what may be recorded. -/
theorem RecordInvariant.of_kept (h : s.RecordInvariant) (hdeletions : t.deletions = s.deletions)
    (hrecords : t.records = s.records) (holdest : t.oldest = s.oldest)
    (horigin : ∀ id, t.origin id ≤ id) (hnext : s.node.nextHandle ≤ t.node.nextHandle)
    (hnewest : ∀ {path id}, t.node.fileHandles.find path = some id →
      s.isDeleting path = false → s.oldest path ≤ t.origin id) : t.RecordInvariant := by
  have hdeleting : ∀ path, t.isDeleting path = s.isDeleting path := by
    intro path
    rw [isDeleting, hdeletions]
    rfl
  constructor
  · exact horigin
  · intro path
    rw [holdest]
    exact (h.oldest_le path).trans hnext
  · intro path id hfind hfree
    rw [holdest]
    exact hnewest hfind (hdeleting path ▸ hfree)
  · intro path record hdelete hrecord
    exact h.unrecorded (hdeleting path ▸ hdelete) (hrecords ▸ hrecord)
  · intro path record hrecord hrelocated
    rw [holdest]
    exact h.recorded (hrecords ▸ hrecord) hrelocated

theorem RecordInvariant.of_sameRegistry (h : s.RecordInvariant) {node : Node}
    (hsame : SameRegistry s.node node) : RecordInvariant { s with node := node } :=
  h.of_kept rfl rfl rfl h.origin_le hsame.2.ge fun hfind hfree =>
    h.newest (hsame.1 ▸ hfind) hfree

/-- A new object is newer than all others. -/
theorem RecordInvariant.create (h : s.RecordInvariant) (hnumbered : s.node.Numbered)
    (bucket key : Bytes) (overwrite : Bool) (answers : CreateAnswers) :
    (s.create bucket key overwrite answers).RecordInvariant := by
  rcases @Numbered.create_registry s.node bucket key overwrite answers hnumbered with
    ⟨⟨status, hresult⟩, hregistry, hnext⟩ | ⟨hresult, hregistry, hnext⟩
  · simp only [Relocating.create, hresult]
    exact h.of_kept rfl rfl rfl h.origin_le hnext fun hfind hfree =>
      h.newest (hregistry ▸ hfind) hfree
  · simp only [Relocating.create, hresult]
    refine h.of_kept rfl rfl rfl ?_ (hnext ▸ Nat.le_succ _) ?_
    · intro id
      change Function.update s.origin s.node.nextHandle s.node.nextHandle id ≤ id
      rw [Function.update_apply]
      split_ifs with hid
      · exact hid.ge
      · exact h.origin_le id
    · intro path id hfind hfree
      change (s.node.create bucket key overwrite answers).2.fileHandles.find path =
        some id at hfind
      change s.oldest path ≤ Function.update s.origin s.node.nextHandle s.node.nextHandle id
      rw [hregistry, OrderedMap.find_insert] at hfind
      split_ifs at hfind with hpath
      · obtain rfl := Option.some.inj hfind
        rw [Function.update_self]
        exact h.oldest_le path
      · rw [Function.update_of_ne (Nat.ne_of_lt (hnumbered path id hfind))]
        exact h.newest hfind hfree

/-- The record of a handle that is in use is not made by a relocation. -/
theorem RecordInvariant.sealFile (h : s.RecordInvariant) (hnumbered : s.node.Numbered) {id : Nat}
    {answer : Status} (hstep : s.sealFile id answer = some t) : t.RecordInvariant := by
  simp only [Relocating.sealFile] at hstep
  split at hstep
  · cases hstep
  · split at hstep
    · cases hstep
    case _ handle hhandle =>
        split at hstep
        · obtain rfl := Option.some.inj hstep
          have hrecord : ∀ {path record}, (Function.update s.records
              (getPath handle.bucket handle.key) (some ⟨s.origin id, false⟩)) path =
                some record → record.relocated = true →
              path ≠ getPath handle.bucket handle.key ∧ s.records path = some record := by
            intro path record hrecord hrelocated
            rw [Function.update_apply] at hrecord
            split_ifs at hrecord with hpath
            · rw [← Option.some.inj hrecord] at hrelocated
              cases hrelocated
            · exact ⟨hpath, hrecord⟩
          refine ⟨h.origin_le, ?_, ?_, ?_, ?_⟩
          · intro path
            dsimp only
            split_ifs with hregistered
            · rw [Function.update_apply]
              split_ifs with hpath
              · have hlt := hnumbered _ id hregistered
                exact max_le (h.oldest_le _) ((h.origin_le id).trans hlt.le)
              · exact h.oldest_le path
            · exact h.oldest_le path
          · intro path other hfind hfree
            dsimp only
            split_ifs with hregistered
            · rw [Function.update_apply]
              split_ifs with hpath
              · subst hpath
                obtain rfl := Option.some.inj (hregistered.symm.trans hfind)
                exact max_le (h.newest hfind hfree) le_rfl
              · exact h.newest hfind hfree
            · exact h.newest hfind hfree
          · intro path record hdelete hfound
            by_contra hrelocated
            rw [Bool.not_eq_false] at hrelocated
            exact absurd (h.unrecorded hdelete (hrecord hfound hrelocated).2)
              (by rw [hrelocated]; decide)
          · intro path record hfound hrelocated
            obtain ⟨hpath, hbefore⟩ := hrecord hfound hrelocated
            dsimp only
            split_ifs with hregistered
            · rw [Function.update_of_ne hpath]
              exact h.recorded hbefore hrelocated
            · exact h.recorded hbefore hrelocated
        · exact Option.some.inj hstep ▸ h

theorem isDeleting_iff (path : Bytes) : s.isDeleting path = true ↔
    ∃ thread call, s.deletions.find thread = some call ∧ call.path = path := by
  rw [isDeleting, List.any_eq_true]
  constructor
  · rintro ⟨call, hmem, hpath⟩
    obtain ⟨thread, hfind⟩ := (AssocMap.mem_values_iff _ _).1 hmem
    exact ⟨thread, call, hfind, of_decide_eq_true hpath⟩
  · rintro ⟨thread, call, hfind, hpath⟩
    exact ⟨call, (AssocMap.mem_values_iff _ _).2 ⟨thread, hfind⟩, decide_eq_true hpath⟩

/-- All that was created so far under a path is deleted. -/
theorem RecordInvariant.expire (h : s.RecordInvariant) (path : Bytes)
    (hdeletions : ∀ other, other ≠ path → t.isDeleting other = s.isDeleting other)
    (hrecords : ∀ other, other ≠ path → t.records other = s.records other)
    (hunrecorded : ∀ record, t.records path = some record → record.relocated = false)
    (holdest : t.oldest = Function.update s.oldest path s.node.nextHandle)
    (horigin : t.origin = s.origin) (hnext : t.node.nextHandle = s.node.nextHandle)
    (hregistry : ∀ other, other ≠ path →
      t.node.fileHandles.find other = s.node.fileHandles.find other)
    (hremoved : t.isDeleting path = true ∨ t.node.fileHandles.find path = none) :
    t.RecordInvariant := by
  refine ⟨horigin ▸ h.origin_le, ?_, ?_, ?_, ?_⟩
  · intro other
    rw [holdest, hnext, Function.update_apply]
    split_ifs
    · exact le_rfl
    · exact h.oldest_le other
  · intro other id hfind hfree
    by_cases hother : other = path
    · subst hother
      rcases hremoved with hdelete | hnone
      · rw [hdelete] at hfree
        cases hfree
      · rw [hnone] at hfind
        cases hfind
    · rw [holdest, horigin, Function.update_of_ne hother]
      exact h.newest (hregistry other hother ▸ hfind) (hdeletions other hother ▸ hfree)
  · intro other record hdelete hrecord
    by_cases hother : other = path
    · exact hunrecorded record (hother ▸ hrecord)
    · exact h.unrecorded (hdeletions other hother ▸ hdelete) (hrecords other hother ▸ hrecord)
  · intro other record hrecord hrelocated
    by_cases hother : other = path
    · rw [hunrecorded record (hother ▸ hrecord)] at hrelocated
      cases hrelocated
    · rw [holdest, Function.update_of_ne hother]
      exact h.recorded (hrecords other hother ▸ hrecord) hrelocated

theorem RecordInvariant.deleteRecord (h : s.RecordInvariant) {thread : Nat} {bucket key : Bytes}
    {answer : Status} (hstep : s.deleteRecord thread bucket key answer = some t) :
    t.RecordInvariant := by
  simp only [Relocating.deleteRecord] at hstep
  split at hstep
  · cases hstep
  case _ hfree =>
      split at hstep
      · exact Option.some.inj hstep ▸ h
      · obtain rfl := Option.some.inj hstep
        rw [isBusy, Bool.or_eq_true, not_or, Bool.not_eq_true, Option.isSome_eq_false_iff,
          Bool.not_eq_true, Option.isSome_eq_false_iff, Option.isNone_iff_eq_none,
          Option.isNone_iff_eq_none] at hfree
        refine h.expire (getPath bucket key) ?_ ?_ ?_ rfl rfl rfl (fun _ _ => rfl)
          (Or.inl ?_)
        · intro other hother
          rw [Bool.eq_iff_iff, isDeleting_iff, isDeleting_iff]
          constructor
          · rintro ⟨found, call, hfind, hpath⟩
            rcases AssocMap.find_insert_eq_some hfind with ⟨-, rfl⟩ | ⟨-, hfind⟩
            · exact absurd hpath.symm hother
            · exact ⟨found, call, hfind, hpath⟩
          · rintro ⟨found, call, hfind, hpath⟩
            have hne : found ≠ thread := by
              rintro rfl
              rw [hfree.2] at hfind
              cases hfind
            exact ⟨found, call, (AssocMap.find_insert_of_ne _ hne _).trans hfind, hpath⟩
        · exact fun other hother => Function.update_of_ne hother _ _
        · intro record hrecord
          dsimp only at hrecord
          rw [Function.update_self] at hrecord
          cases hrecord
        · exact (isDeleting_iff _).2 ⟨thread, _, AssocMap.find_insert_self _ _ _, rfl⟩

/-- The second part of a deletion changes only how far the call has come. -/
theorem RecordInvariant.deleteStored (h : s.RecordInvariant) {thread : Nat} {answer : Status}
    (hstep : s.deleteStored thread answer = some t) : t.RecordInvariant := by
  simp only [Relocating.deleteStored] at hstep
  split at hstep
  case _ bucket key hcall =>
      obtain rfl := Option.some.inj hstep
      have hdeleting : ∀ path, isDeleting { s with
          stored := if cacheBlockMarker.isPrefixOf key = false ∧ answer.ok then
            Function.update s.stored (getPath bucket key) none else s.stored
          deletions := s.deletions.insert thread ⟨bucket, key, .deletedStored⟩ } path =
            s.isDeleting path := by
        intro path
        rw [Bool.eq_iff_iff, isDeleting_iff, isDeleting_iff]
        constructor
        · rintro ⟨found, call, hfind, hpath⟩
          rcases AssocMap.find_insert_eq_some hfind with ⟨rfl, rfl⟩ | ⟨-, hfind⟩
          · exact ⟨found, _, hcall, hpath⟩
          · exact ⟨found, call, hfind, hpath⟩
        · rintro ⟨found, call, hfind, hpath⟩
          by_cases hfound : found = thread
          · obtain rfl := Option.some.inj (hcall.symm.trans (hfound ▸ hfind))
            exact ⟨thread, _, AssocMap.find_insert_self _ _ _, hpath⟩
          · exact ⟨found, call, (AssocMap.find_insert_of_ne _ hfound _).trans hfind, hpath⟩
      refine ⟨h.origin_le, h.oldest_le, fun hfind hfree => ?_, fun hdelete hrecord => ?_,
        h.recorded⟩
      · exact h.newest hfind (hdeleting _ ▸ hfree)
      · exact h.unrecorded (hdeleting _ ▸ hdelete) hrecord
  · cases hstep

theorem RecordInvariant.unregister (h : s.RecordInvariant) {thread : Nat}
    (hstep : s.unregister thread = some t) : t.RecordInvariant := by
  simp only [Relocating.unregister] at hstep
  split at hstep
  case _ bucket key hcall =>
      obtain rfl := Option.some.inj hstep
      refine h.expire (getPath bucket key) ?_ (fun _ _ => rfl) ?_ rfl rfl
        (nextHandle_deleteObject bucket key) ?_ (Or.inr ?_)
      · intro other hother
        rw [Bool.eq_iff_iff, isDeleting_iff, isDeleting_iff]
        constructor
        · rintro ⟨found, call, hfind, hpath⟩
          exact ⟨found, call, (AssocMap.find_erase_eq_some hfind).2, hpath⟩
        · rintro ⟨found, call, hfind, hpath⟩
          have hne : found ≠ thread := by
            rintro rfl
            obtain rfl := Option.some.inj (hcall.symm.trans hfind)
            exact hother hpath.symm
          exact ⟨found, call, (AssocMap.find_erase_of_ne _ hne).trans hfind, hpath⟩
      · exact fun record => h.unrecorded ((isDeleting_iff _).2 ⟨thread, _, hcall, rfl⟩)
      · intro other hother
        exact (find_deleteObject bucket key other).trans (if_neg hother)
      · exact (find_deleteObject bucket key _).trans (if_pos rfl)
  · cases hstep

theorem RecordInvariant.check (h : s.RecordInvariant) {thread id : Nat} {force : Bool}
    (hstep : s.check thread id force = some t) : t.RecordInvariant := by
  simp only [Relocating.check] at hstep
  split at hstep
  · cases hstep
  · split at hstep
    · cases hstep
    case _ handle hhandle =>
        split at hstep
        · exact Option.some.inj hstep ▸ h
        · split at hstep
          · obtain rfl := Option.some.inj hstep
            have hsame := @sameRegistry_release { s.node with
              fileHandles := (s.node.fileHandles.removeIf (getPath handle.bucket handle.key)
                fun existing => decide (id = existing ∧ handle.openCount = 0)).2 } id
            refine h.of_kept rfl rfl rfl h.origin_le hsame.2.ge fun {path found} hfind hfree => ?_
            rw [hsame.1] at hfind
            rcases find_removeIf s.node.fileHandles (getPath handle.bucket handle.key)
              (fun existing => decide (id = existing ∧ handle.openCount = 0)) path with
              hnone | hkept
            · rw [hnone] at hfind
              cases hfind
            · exact h.newest (hkept ▸ hfind) hfree
          · obtain rfl := Option.some.inj hstep
            exact h.of_kept rfl rfl rfl h.origin_le le_rfl h.newest

theorem RecordInvariant.upload (h : s.RecordInvariant) {thread : Nat} {answer : Status}
    (hstep : s.upload thread answer = some t) : t.RecordInvariant := by
  simp only [Relocating.upload] at hstep
  split at hstep
  · split at hstep
    · cases hstep
    · split at hstep <;> obtain rfl := Option.some.inj hstep
      · exact h.of_kept rfl rfl rfl h.origin_le le_rfl h.newest
      · exact h.of_kept rfl rfl rfl h.origin_le le_rfl h.newest
  · cases hstep

theorem RecordInvariant.reopen (h : s.RecordInvariant) {thread : Nat} {answer : Status}
    (hstep : s.reopen thread answer = some t) : t.RecordInvariant := by
  simp only [Relocating.reopen] at hstep
  split at hstep
  · split at hstep <;> obtain rfl := Option.some.inj hstep
    · exact h.of_kept rfl rfl rfl h.origin_le le_rfl h.newest
    · exact h.of_kept rfl rfl rfl h.origin_le le_rfl h.newest
  · cases hstep

/-- A call that is neither overtaken nor has a deletion beside it records what is
registered. -/
theorem Invariant.sealStored_records (h : s.Invariant) {thread : Nat} {answer cleanup : Status}
    (hevent : s.endsOvertaken (.sealStored thread answer cleanup) = false)
    (hstep : s.sealStored thread answer cleanup = some t) : t.RecordInvariant := by
  simp only [Relocating.sealStored] at hstep
  split at hstep
  case _ id path overtaken hcall =>
      split at hstep
      · cases hstep
      case _ handle hhandle =>
          split at hstep
          case _ hok =>
              obtain rfl := Option.some.inj hstep
              simp only [endsOvertaken, hok, hcall, Option.any_some, decide_true, Bool.true_and,
                Bool.or_eq_false_iff] at hevent
              obtain ⟨hkept, hfree⟩ := hevent
              have hregistered := h.registry.registered hcall hkept
              have hsame := @sameRegistry_modifyHandle
                (s.node.addHandle handle.bucket handle.key none).2 id
                fun handle => { handle with isValid := false }
              have horigin : ∀ {other}, other < s.node.nextHandle →
                  Function.update s.origin s.node.nextHandle (s.origin id) other =
                    s.origin other :=
                fun hlt => Function.update_of_ne (Nat.ne_of_lt hlt) _ _
              refine ⟨?_, ?_, ?_, ?_, ?_⟩
              · intro other
                change Function.update s.origin s.node.nextHandle (s.origin id) other ≤ other
                rw [Function.update_apply]
                split_ifs with hother
                · have hlt := h.registry.numbered _ _ hregistered
                  exact hother ▸ (h.records.origin_le id).trans hlt.le
                · exact h.records.origin_le other
              · intro other
                exact (h.records.oldest_le other).trans (hsame.2 ▸ Nat.le_succ _)
              · intro other found hfind hdelete
                rw [hsame.1] at hfind
                have hlt := h.registry.numbered _ _ hfind
                exact (h.records.newest hfind hdelete).trans (horigin hlt).ge
              · intro other record hdelete hrecord
                dsimp only at hrecord
                rw [Function.update_apply] at hrecord
                split_ifs at hrecord with hother
                · rw [hother] at hdelete
                  exact absurd (hfree.symm.trans hdelete) Bool.false_ne_true
                · exact h.records.unrecorded hdelete hrecord
              · intro other record hrecord hrelocated
                dsimp only at hrecord
                rw [Function.update_apply] at hrecord
                split_ifs at hrecord with hother
                · rw [← Option.some.inj hrecord, hother]
                  exact h.records.newest hregistered hfree
                · exact h.records.recorded hrecord hrelocated
          · obtain rfl := Option.some.inj hstep
            exact h.records.of_kept rfl rfl rfl h.records.origin_le le_rfl h.records.newest
  · cases hstep

/-- The handle that comes into the registry is of the object that was there. -/
theorem Invariant.replace_records (h : s.Invariant) {thread : Nat}
    (hevent : s.endsOvertaken (.replace thread) = false) (hstep : s.replace thread = some t) :
    t.RecordInvariant := by
  simp only [Relocating.replace] at hstep
  split at hstep
  case _ id path added overtaken hcall =>
      obtain rfl := Option.some.inj hstep
      have hkept : overtaken = false := by simpa [endsOvertaken, hcall] using hevent
      obtain ⟨-, horigin⟩ := h.registry.sameOrigin hcall hkept rfl
      refine h.records.of_kept rfl rfl rfl h.records.origin_le
        (nextHandle_replaceHandle path added).ge fun {other found} hfind hfree => ?_
      rw [find_replaceHandle] at hfind
      split_ifs at hfind with hother
      · obtain rfl := Option.some.inj hfind
        have hnewest := h.records.newest (h.registry.registered hcall hkept) (hother ▸ hfree)
        rw [hother]
        exact hnewest.trans horigin.ge
      · exact h.records.newest hfind hfree
  · cases hstep

/-- Every step keeps the invariant, unless an overtaken call makes a record or comes to
its end. -/
theorem Invariant.perform (h : s.Invariant) {event : RelocatingEvent}
    (hevent : s.endsOvertaken event = false) (hstep : s.perform event = some t) : t.Invariant := by
  have hregistry := h.registry
  have hrecords := h.records
  have hkept : ∀ {node : Node}, SameRegistry s.node node → Invariant { s with node := node } :=
    fun hsame => ⟨hregistry.of_sameRegistry hsame, hrecords.of_sameRegistry hsame⟩
  cases event with
  | start answer =>
      obtain rfl := Option.some.inj hstep
      apply hkept
      rw [Node.start]
      split_ifs <;> exact ⟨rfl, rfl⟩
  | create bucket key overwrite answers =>
      obtain rfl := Option.some.inj hstep
      exact ⟨hregistry.create bucket key overwrite answers,
        hrecords.create hregistry.numbered bucket key overwrite answers⟩
  | sealFile id answer =>
      refine ⟨?_, hrecords.sealFile hregistry.numbered hstep⟩
      simp only [Relocating.perform, Relocating.sealFile] at hstep
      split at hstep
      · cases hstep
      · split at hstep
        · cases hstep
        · split at hstep <;> obtain rfl := Option.some.inj hstep
          · exact hregistry.withRecords
          · exact hregistry
  | deleteRecord thread bucket key answer =>
      refine ⟨?_, hrecords.deleteRecord hstep⟩
      simp only [Relocating.perform, Relocating.deleteRecord] at hstep
      split at hstep
      · cases hstep
      · split at hstep <;> obtain rfl := Option.some.inj hstep
        · exact hregistry
        · exact hregistry.withRecords
  | deleteStored thread answer =>
      refine ⟨?_, hrecords.deleteStored hstep⟩
      simp only [Relocating.perform, Relocating.deleteStored] at hstep
      split at hstep
      · obtain rfl := Option.some.inj hstep
        exact hregistry.withRecords
      · cases hstep
  | unregister thread => exact ⟨hregistry.unregister hstep, hrecords.unregister hstep⟩
  | copyFile id =>
      simp only [Relocating.perform] at hstep
      split at hstep
      · cases hstep
      · exact Option.some.inj hstep ▸ hkept (sameRegistry_modifyHandle id _)
  | closeFile id =>
      simp only [Relocating.perform] at hstep
      split at hstep
      · cases hstep
      · obtain rfl := Option.some.inj hstep
        exact hkept ((sameRegistry_modifyHandle id _).trans (sameRegistry_dropReference id))
  | addReference id =>
      exact Option.some.inj hstep ▸ hkept (sameRegistry_modifyHandle id _)
  | dropReference id =>
      exact Option.some.inj hstep ▸ hkept (sameRegistry_dropReference id)
  | check thread id force => exact ⟨hregistry.check hstep, hrecords.check hstep⟩
  | upload thread answer => exact ⟨hregistry.upload hstep, hrecords.upload hstep⟩
  | reopen thread answer => exact ⟨hregistry.reopen hstep, hrecords.reopen hstep⟩
  | sealStored thread answer cleanup =>
      exact ⟨hregistry.sealStored hstep, h.sealStored_records hevent hstep⟩
  | replace thread => exact ⟨hregistry.replace hevent hstep, h.replace_records hevent hstep⟩

end Steps

theorem Invariant.run (h : s.Invariant) {events : List RelocatingEvent}
    (hsteps : neverOvertaken events s = true) {done : List RelocatingEvent}
    (hdone : done <+: events) (hrun : Relocating.run done s = some t) : t.Invariant := by
  induction done generalizing s events with
  | nil => exact Option.some.inj hrun ▸ h
  | cons event done ih =>
      obtain ⟨rest, rfl⟩ := hdone
      obtain ⟨next, hstep, hrest⟩ := Option.bind_eq_some_iff.1 hrun
      rw [List.cons_append, neverOvertaken, Bool.and_eq_true, Bool.not_eq_true', hstep] at hsteps
      exact ih (h.perform hsteps.1 hstep) hsteps.2 ⟨rest, rfl⟩ hrest

/-- In a run in which no overtaken relocation makes a record or comes to its end, none
replaces a newer object, in the registry or at the metadata service, and none brings back
an object that was deleted. -/
theorem run_current (pathPrefix : Bytes) (events : List RelocatingEvent)
    (hsteps : neverOvertaken events (new pathPrefix) = true)
    (done : List RelocatingEvent) (hdone : done <+: events) (s : Relocating)
    (hrun : run done (new pathPrefix) = some s) : s.Current :=
  ((new_invariant pathPrefix).run hsteps hdone hrun).current

/-- Step after step with nothing in between, the call does what `Node.relocate` does. -/
theorem relocate_eq_steps {thread id : Nat} {force : Bool} {handle : FileHandle}
    (hfree : s.isBusy thread = false) (hlocked : s.isLocked id = false)
    (hhandle : s.node.handles.find id = some handle)
    (hexists : s.node.fileHandles.get (getPath handle.bucket handle.key) ≠ none)
    (hblock : cacheBlockMarker.isPrefixOf handle.key = false)
    (hlocal : handle.file.isSome = true ∧ handle.isValid = true ∧ ¬ 0 < handle.openCount) :
    (run [.check thread id force, .upload thread okStatus, .reopen thread okStatus,
      .sealStored thread okStatus okStatus, .replace thread] s).map (·.node) =
        some (s.node.relocate id force okStatus) := by
  have hok : okStatus.ok = true := rfl
  simp only [run, perform, check, upload, reopen, sealStored, replace, hfree, hlocked, hhandle,
    hexists, hblock, hlocal, hok, Bool.false_eq_true, or_self, not_false_eq_true,
    and_self, false_and, ↓reduceIte, Option.bind_some, AssocMap.find_insert, Option.map_some,
    Function.update_self, Option.isSome_some, Node.relocate, Node.relocateHandle]

/-- The three parts of a deletion, one after the other, do what `Node.deleteObject` does. -/
theorem deleteObject_eq_steps {thread : Nat} (hfree : s.isBusy thread = false)
    (bucket key : Bytes) (answer : Status) :
    (run [.deleteRecord thread bucket key okStatus, .deleteStored thread answer,
      .unregister thread] s).map (·.node) =
        some (s.node.deleteObject bucket key okStatus).2 := by
  have hok : okStatus.ok = true := rfl
  simp only [run, perform, deleteRecord, deleteStored, unregister, hfree, hok, Bool.false_eq_true,
    not_true_eq_false, false_and, ↓reduceIte, Option.bind_some, AssocMap.find_insert,
    Option.map_some, overtake]

namespace Sample

open Node.Sample

/-- An object is created and closed, and a task that relocates it has started. -/
def beginning : List RelocatingEvent :=
  [.start okStatus, .create (text "abc") (text "key") true answers, .sealFile 0 okStatus,
    .closeFile 0, .addReference 0, .check 7 0 false, .upload 7 okStatus, .reopen 7 okStatus]

def relocated : List RelocatingEvent :=
  beginning ++ [.sealStored 7 okStatus okStatus, .replace 7]

theorem relocated_current :
    ∃ s, run relocated (new (text "/geds")) = some s ∧ s.Current := by
  have hsome : (run relocated (new (text "/geds"))).isSome = true := by decide
  obtain ⟨s, hrun⟩ := Option.isSome_iff_exists.1 hsome
  exact ⟨s, hrun, run_current (text "/geds") relocated (by decide) relocated
    (List.prefix_refl _) s hrun⟩

/-- The object is deleted before the task comes to its end, and is registered again: in
the registry if the deletion comes behind the record of the task, and at the metadata
service if it has come to an end before. -/
def overtaken : List RelocatingEvent :=
  beginning ++ [.sealStored 7 okStatus okStatus,
    .deleteRecord 8 (text "abc") (text "key") okStatus, .deleteStored 8 okStatus, .unregister 8,
    .replace 7]

def recordedAgain : List RelocatingEvent :=
  beginning ++ [.deleteRecord 8 (text "abc") (text "key") okStatus,
    .sealStored 7 okStatus okStatus, .replace 7, .deleteStored 8 okStatus, .unregister 8]

theorem overtaken_not_current :
    (∃ s, run overtaken (new (text "/geds")) = some s ∧ ¬ s.Current) ∧
      ∃ s, run recordedAgain (new (text "/geds")) = some s ∧ ¬ s.Current := by
  constructor
  · have hregistered : (run overtaken (new (text "/geds"))).bind (fun s =>
        s.node.fileHandles.find (getPath (text "abc") (text "key"))) = some 1 := by decide
    obtain ⟨s, hrun, hfind⟩ := Option.bind_eq_some_iff.1 hregistered
    have hobjects : (run overtaken (new (text "/geds"))).map (fun s =>
        s.objects (getPath (text "abc") (text "key"))) = some none := by decide
    rw [hrun, Option.map_some, Option.some.injEq] at hobjects
    refine ⟨s, hrun, fun hcurrent => ?_⟩
    have hobject := hcurrent.registered hfind
    rw [hobjects] at hobject
    cases hobject
  · have hrecorded : (run recordedAgain (new (text "/geds"))).bind (fun s =>
        s.records (getPath (text "abc") (text "key"))) = some ⟨0, true⟩ := by decide
    obtain ⟨s, hrun, hrecord⟩ := Option.bind_eq_some_iff.1 hrecorded
    have holdest : (run recordedAgain (new (text "/geds"))).map (fun s =>
        s.oldest (getPath (text "abc") (text "key"))) = some 2 := by decide
    rw [hrun, Option.map_some, Option.some.injEq] at holdest
    refine ⟨s, hrun, fun hcurrent => ?_⟩
    have hbehind := hcurrent.recorded hrecord rfl
    rw [holdest] at hbehind
    exact absurd hbehind (by decide)

end Sample

end Relocating

end GEDS
