/-
One object on many nodes.  Who opens it reads from where the metadata service last said
that it is, and that node opens it like everybody else: it may have to ask a third one.
The calls are cut into their steps, and a run may have the steps of all calls in any order.
-/
import GEDS.CachedFileHandle
import GEDS.Library.Heap

namespace GEDS

universe u

namespace Forwarding

/-- A location: a node (`geds://`) or the object store (`s3://`). -/
inductive Location (α : Type u) where
  | node (host : α)
  | store
deriving DecidableEq

/-- What the metadata service says of the object.  The version is the number of the call that
recorded it; the code does not know it. -/
structure Record (α : Type u) where
  location : Location α
  version : Nat
deriving DecidableEq

/-- `GEDSLocalFileHandle`, `GEDSS3FileHandle`, and `GEDSRelocatableFileHandle` with what
it was reopened for, and how often. -/
inductive HandleKind (α : Type u) where
  | localFile (content : Bytes)
  | s3
  | relocatable (inner : Record α) (reopened : Nat)
deriving DecidableEq

structure FileHandle (α : Type u) where
  node : α
  isValid : Bool
  kind : HandleKind α
deriving DecidableEq

/-- Who calls `reopenFileHandle`: `openAsFileHandle` in `GEDS::open`, or a handle. -/
inductive LookupUse where
  | open (retry : Bool)
  | reopen (handle : Nat)
deriving DecidableEq

/-- How far a node has come with a read. -/
inductive Phase (α : Type u) where
  | openFile (retry : Bool)
  | lookup (use : LookupUse) (invalidate : Bool)
  | answered (use : LookupUse) (invalidate : Bool) (record : Record α)
  | located (use : LookupUse) (invalidate : Bool) (record : Record α)
  | opened (retry : Bool) (handle : Nat)
  | reading (again : Bool) (handle : Nat)
  | waiting (again : Bool) (handle : Nat) (record : Record α) (reopened : Nat)
  | retrying (handle : Nat) (reopened : Nat)
  | finished (answer : Option Bytes)
deriving DecidableEq

/-- The part of a read that one node does. -/
structure Frame (α : Type u) where
  node : α
  phase : Phase α
deriving DecidableEq

/-- A read of a range.  The first node is the one that was asked last; all others wait. -/
inductive Read (α : Type u) where
  | idle
  | running (position length : Nat) (frames : List (Frame α))
  | done (answer : Option Bytes)
deriving DecidableEq

/-- The metadata service, the object store and the nodes.  `recorded` has the version with
which a node was recorded last, and `asked` the answers of lookups and listings that are
not in the cache yet. -/
structure Nodes (α : Type u) where
  record : Option (Record α)
  versions : Nat
  recorded : α → Nat
  stored : Option Bytes
  cache : α → Option (Record α)
  registry : α → Option Nat
  handles : Heap (Option (FileHandle α))
  asked : List (α × Record α)
  reads : Nat → Read α

/-- How `GEDSAbstractFileHandle::relocate` ends after the upload: there is no handle for it,
the record fails without effect, it has an effect and is reported to fail, or it succeeds. -/
inductive RelocationEnd where
  | uploaded
  | refused
  | misleading
  | moved
deriving DecidableEq

/-- The steps of calls.  `write` is any change of a local file, and `lose` a connection that
breaks: so many more nodes go on, for nobody. -/
inductive Event (α : Type u) where
  | create (node : α) (overwrite : Bool)
  | write (handle : Nat) (content : Bytes)
  | seal (handle : Nat) (update effect : Bool)
  | relocate (handle : Nat) (outcome : RelocationEnd)
  | forgetObject (node : α)
  | deleteRecord
  | deleteStored
  | removeHandle (node : α)
  | ask (node : α)
  | remember (index : Nat)
  | startRead (read handle position length : Nat)
  | startOpen (read : Nat) (node : α) (position length : Nat)
  | step (read : Nat) (ok : Bool)
  | lose (read more : Nat)
deriving DecidableEq

namespace Nodes

variable {α : Type u}

def start : Nodes α where
  record := none
  versions := 0
  recorded := fun _ => 0
  stored := none
  cache := fun _ => none
  registry := fun _ => none
  handles := Heap.empty
  asked := []
  reads := fun _ => .idle

variable [DecidableEq α] (s : Nodes α)

def setCache (node : α) (record : Option (Record α)) : Nodes α :=
  { s with cache := Function.update s.cache node record }

def setRegistry (node : α) (handle : Option Nat) : Nodes α :=
  { s with registry := Function.update s.registry node handle }

omit [DecidableEq α] in
def setHandle (handle : Nat) (value : FileHandle α) : Nodes α :=
  { s with handles := s.handles.set handle (some value) }

/-- A new handle, which is registered. -/
def register (node : α) (kind : HandleKind α) : Nodes α :=
  { s with
    handles := s.handles.alloc (some ⟨node, true, kind⟩)
    registry := Function.update s.registry node (some s.handles.next) }

/-- `GEDS::createAsFileHandle` with the new, empty file; a handle that is not registered
goes away. -/
def create (node : α) (overwrite : Bool) : Nodes α :=
  if overwrite = false ∧ (s.registry node).isSome then s
  else s.register node (.localFile [])

omit [DecidableEq α] in
def write (handle : Nat) (content : Bytes) : Nodes α :=
  match s.handles.get handle with
  | some ⟨node, isValid, .localFile _⟩ => s.setHandle handle ⟨node, isValid, .localFile content⟩
  | _ => s

/-- The location that `seal` of a handle records; files of other nodes cannot be sealed. -/
def sealLocation (node : α) : HandleKind α → Option (Location α)
  | .localFile _ => some (.node node)
  | .s3 => some .store
  | .relocatable ⟨.store, _⟩ _ => some .store
  | .relocatable ⟨.node _, _⟩ _ => none

/-- `GEDS::seal`: an update changes the cache of the node first, if it has the object.  The
metadata service may not be reached. -/
def sealAt (node : α) (location : Location α) (update effect : Bool) : Nodes α :=
  let record : Record α := ⟨location, s.versions + 1⟩
  { s with
    versions := s.versions + 1
    recorded :=
      if location = .node node then Function.update s.recorded node (s.versions + 1)
      else s.recorded
    cache :=
      if update ∧ (s.cache node).isSome then Function.update s.cache node (some record)
      else s.cache
    record := if effect then some record else s.record }

/-- `seal` of a handle -/
def sealHandle (handle : Nat) (update effect : Bool) : Nodes α :=
  match s.handles.get handle with
  | some ⟨node, _, kind⟩ =>
      match sealLocation node kind with
      | some location => s.sealAt node location update effect
      | none => s
  | none => s

/-- `GEDS::relocate` of one handle whose upload succeeds.  A `GEDSRelocatableFileHandle`
stays what it is, and is registered again. -/
def relocate (handle : Nat) (outcome : RelocationEnd) : Nodes α :=
  match s.handles.get handle with
  | some ⟨node, true, .localFile content⟩ =>
      if (s.registry node).isNone then s
      else
        match outcome with
        | .uploaded => { s with stored := some content }
        | .refused => { s with stored := none }
        | .misleading => { s.sealAt node .store false true with stored := none }
        | .moved =>
            { (s.sealAt node .store false true).setHandle handle
                ⟨node, false, .localFile content⟩ with stored := some content }.register node .s3
  | some ⟨node, _, .relocatable _ _⟩ =>
      if (s.registry node).isNone then s else s.setRegistry node (some handle)
  | _ => s

/-- The metadata service answers a lookup or a listing. -/
def ask (node : α) : Nodes α :=
  match s.record with
  | some record => { s with asked := (node, record) :: s.asked }
  | none => s

/-- `_mdsCache.createObject` for an answer -/
def remember (index : Nat) : Nodes α :=
  match s.asked[index]? with
  | some (node, record) =>
      { s.setCache node (some record) with asked := s.asked.eraseIdx index }
  | none => s

omit [DecidableEq α] in
/-- `GEDSRemoteFileHandle::factory`, or those of the handles for the object store: the
service is reached, and the store has the object. -/
def canOpen (record : Record α) (ok : Bool) : Bool :=
  match record.location with
  | .node _ => ok
  | .store => ok && s.stored.isSome

/-- The end of `GEDS::openAsFileHandle` -/
def insertWrapped (node : α) (record : Record α) : Nodes α × Nat :=
  match s.registry node with
  | some handle => (s, handle)
  | none => (s.register node (.relocatable record 0), s.handles.next)

/-- `removeIf` in `GEDS::open` -/
def removeIf (node : α) (handle : Nat) : Nodes α :=
  if s.registry node = some handle then s.setRegistry node none else s

omit [DecidableEq α] in
/-- `_fileHandle` gets a new value. -/
def reopen (handle : Nat) (record : Record α) : Nodes α :=
  match s.handles.get handle with
  | some ⟨node, isValid, .relocatable _ reopened⟩ =>
      s.setHandle handle ⟨node, isValid, .relocatable record (reopened + 1)⟩
  | _ => s

omit [DecidableEq α] in
/-- `readBytes` of a handle: what is read, or the node that is asked for it. -/
def readBytes (position length : Nat) (ok again : Bool) (handle : Nat) :
    Nodes α × Phase α × Option α :=
  match s.handles.get handle with
  | none => (s, .finished none, none)
  | some ⟨_, _, .localFile content⟩ =>
      (s, .finished (if ok then some (slice content position length) else none), none)
  | some ⟨node, isValid, .s3⟩ =>
      if isValid && ok && s.stored.isSome then
        (s, .finished (s.stored.map (slice · position length)), none)
      else (s.setHandle handle ⟨node, false, .s3⟩, .finished none, none)
  | some ⟨_, _, .relocatable ⟨.store, _⟩ reopened⟩ =>
      if ok && s.stored.isSome then
        (s, .finished (s.stored.map (slice · position length)), none)
      else (s, if again then .finished none else .retrying handle reopened, none)
  | some ⟨_, _, .relocatable ⟨.node host, version⟩ reopened⟩ =>
      if length = 0 then (s, .finished (some []), none)
      else (s, .waiting again handle ⟨.node host, version⟩ reopened, some host)

/-- The next step of a node on its part of a read; it may ask another node. -/
def stepPhase (node : α) (position length : Nat) (ok : Bool) :
    Phase α → Nodes α × Phase α × Option α
  | .openFile retry =>
      if ok then
        match s.registry node with
        | some handle => (s, .opened retry handle, none)
        | none => (s, .lookup (.open retry) false, none)
      else (s, .finished none, none)
  | .lookup use invalidate =>
      match if invalidate then none else s.cache node with
      | some record => (s, .located use invalidate record, none)
      | none =>
          match if ok then s.record else none with
          | some record => (s, .answered use invalidate record, none)
          | none => (s, .finished none, none)
  | .answered use invalidate record =>
      (s.setCache node (some record), .located use invalidate record, none)
  | .located use invalidate record =>
      if s.canOpen record ok then
        match use with
        | .open retry =>
            let inserted := s.insertWrapped node record
            (inserted.1, .opened retry inserted.2, none)
        | .reopen handle => (s.reopen handle record, .reading true handle, none)
      else (s, if invalidate then .finished none else .lookup use true, none)
  | .opened retry handle =>
      match s.handles.get handle with
      | some ⟨_, true, _⟩ => (s, .reading false handle, none)
      | _ =>
          (s.removeIf node handle, if retry then .openFile false else .finished none, none)
  | .reading again handle => s.readBytes position length ok again handle
  | .waiting again handle record reopened => (s, .waiting again handle record reopened, none)
  | .retrying handle reopened =>
      match s.handles.get handle with
      | some ⟨_, _, .relocatable _ now⟩ =>
          if reopened = now then (s, .lookup (.reopen handle) true, none)
          else (s, .reading true handle, none)
      | _ => (s, .finished none, none)
  | .finished answer => (s, .finished answer, none)

/-- What a node does with the answer of the one that it asked. -/
def afterAnswer (answer : Option Bytes) : Phase α → Phase α
  | .waiting again handle _ reopened =>
      if answer.isSome || again then .finished answer else .retrying handle reopened
  | phase => phase

omit [DecidableEq α] in
def setRead (read : Nat) (value : Read α) : Nodes α :=
  { s with reads := Function.update s.reads read value }

/-- The next step of the node that was asked last. -/
def stepRead (read : Nat) (ok : Bool) : Nodes α :=
  match s.reads read with
  | .running _ _ [⟨_, .finished answer⟩] => s.setRead read (.done answer)
  | .running position length (⟨_, .finished answer⟩ :: below :: rest) =>
      s.setRead read
        (.running position length (⟨below.node, afterAnswer answer below.phase⟩ :: rest))
  | .running position length (⟨node, phase⟩ :: rest) =>
      let stepped := s.stepPhase node position length ok phase
      let frames := ⟨node, stepped.2.1⟩ :: rest
      stepped.1.setRead read (.running position length
        (match stepped.2.2 with
          | some host => ⟨host, .openFile true⟩ :: frames
          | none => frames))
  | _ => s

/-- A read through an open file -/
def startRead (read handle position length : Nat) : Nodes α :=
  match s.handles.get handle with
  | some ⟨node, _, _⟩ => s.setRead read (.running position length [⟨node, .reading false handle⟩])
  | none => s

def perform : Event α → Nodes α
  | .create node overwrite => s.create node overwrite
  | .write handle content => s.write handle content
  | .seal handle update effect => s.sealHandle handle update effect
  | .relocate handle outcome => s.relocate handle outcome
  | .forgetObject node => s.setCache node none
  | .deleteRecord => { s with record := none }
  | .deleteStored => { s with stored := none }
  | .removeHandle node => s.setRegistry node none
  | .ask node => s.ask node
  | .remember index => s.remember index
  | .startRead read handle position length => s.startRead read handle position length
  | .startOpen read node position length =>
      s.setRead read (.running position length [⟨node, .openFile true⟩])
  | .step read ok => s.stepRead read ok
  | .lose read more =>
      match s.reads read with
      | .running position length frames =>
          s.setRead read (.running position length (frames.take (more + 1)))
      | _ => s

def run (events : List (Event α)) : Nodes α := events.foldl perform s

end Nodes

end Forwarding

end GEDS
