/-
A GEDS node: its file handles, the registry of them, and the files below its
local folder.  A handle is destroyed, and its file removed, when neither the
registry nor anybody else has a pointer to it.
-/
import GEDS.LocalFile
import GEDS.LocalPath

namespace GEDS

open Status

/-- `geds::ServiceState` -/
inductive ServiceState where
  | stopped
  | running
  | unknown
deriving DecidableEq

def ServiceState.toText : ServiceState → Bytes
  | .stopped => text "Stopped"
  | .running => text "Running"
  | .unknown => text "Unknown"

/-- `GEDSFileHandle`; `file` is missing if the bytes are on another node or in
the object store.  `references` counts the pointers outside the registry. -/
structure FileHandle where
  bucket : Bytes
  key : Bytes
  file : Option LocalFile
  isValid : Bool
  openCount : Int
  references : Nat

/-- The members of `GEDS` that the file operations use, with the handles that
are not destroyed yet. -/
structure Node where
  state : ServiceState
  names : FileNames
  files : FileSystem Bytes
  handles : AssocMap Nat FileHandle
  nextHandle : Nat
  fileHandles : ConcurrentMap Bytes Nat
  knownBuckets : List Bytes

/-- What the services answer and the system calls return during `create`. -/
structure CreateAnswers where
  lookupBucket : Status
  createBucket : Status
  mkdirFault : Option Bytes
  openFile : OpenResult

/-- `GEDSCachedFileHandle::CacheBlockMarker` -/
def cacheBlockMarker : Bytes := text "_$cachedblock$/"

/-- `GEDS::getPath` -/
def getPath (bucket key : Bytes) : Bytes := fullName bucket key

namespace Node

def new (pathPrefix : Bytes) : Node where
  state := .stopped
  names := FileNames.new pathPrefix
  files := FileSystem.empty
  handles := AssocMap.empty
  nextHandle := 0
  fileHandles := OrderedMap.empty
  knownBuckets := []

variable (node : Node)

/-- `GEDS_CHECK_SERVICE_RUNNING` -/
def checkServiceRunning : Status :=
  if node.state = .running then okStatus
  else failedPreconditionError (text "The service is " ++ node.state.toText ++ text ".")

section Handles

def isRegistered (id : Nat) : Bool :=
  node.fileHandles.entries.any fun entry => decide (entry.2 = id)

/-- The destructor of a handle that nobody points to. -/
def release (id : Nat) : Node :=
  match node.handles.find id with
  | none => node
  | some handle =>
      if handle.references = 0 ∧ node.isRegistered id = false then
        { node with
          handles := node.handles.erase id
          files := match handle.file with
            | none => node.files
            | some file => file.destroy node.files }
      else node

def releaseAll (ids : List Nat) : Node := ids.foldl release node

def modifyHandle (id : Nat) (change : FileHandle → FileHandle) : Node :=
  match node.handles.find id with
  | none => node
  | some handle => { node with handles := node.handles.insert id (change handle) }

/-- A new handle, which its maker points to. -/
def addHandle (bucket key : Bytes) (file : Option LocalFile) : Nat × Node :=
  (node.nextHandle,
    { node with
      handles := node.handles.insert node.nextHandle ⟨bucket, key, file, true, 0, 1⟩
      nextHandle := node.nextHandle + 1 })

/-- One pointer outside the registry goes away. -/
def dropReference (id : Nat) : Node :=
  (node.modifyHandle id fun handle =>
    { handle with references := handle.references - 1 }).release id

/-- One more pointer outside the registry. -/
def addReference (id : Nat) : Node :=
  node.modifyHandle id fun handle => { handle with references := handle.references + 1 }

/-- The constructors of `GEDSFile`, which also count the file as open. -/
def openFile (id : Nat) : Node :=
  node.modifyHandle id fun handle =>
    { handle with
      references := handle.references + 1
      openCount := handle.openCount + 1 }

/-- The destructor of `GEDSFile`. -/
def closeFile (id : Nat) : Node :=
  (node.modifyHandle id fun handle =>
    { handle with openCount := handle.openCount - 1 }).dropReference id

end Handles

section Create

/-- `GEDS::lookupBucket` -/
def lookupBucket (bucket : Bytes) (answer : Status) : Status × Node :=
  if bucket ∈ node.knownBuckets then (okStatus, node)
  else if answer.ok then
    (okStatus, { node with knownBuckets := bucket :: node.knownBuckets })
  else (answer, node)

/-- `GEDS::createBucket` -/
def createBucket (bucket : Bytes) (lookup create : Status) : Status × Node :=
  if (isValidBucketName bucket).ok then
    let looked := node.lookupBucket bucket lookup
    if looked.1.ok then (okStatus, looked.2)
    else if create.ok ∨ create.code = .alreadyExists then (okStatus, looked.2)
    else (create, looked.2)
  else (isValidBucketName bucket, node)

/-- `GEDSLocalFileHandle::factory` -/
def factory (bucket key : Bytes) (mkdirFault : Option Bytes) (opens : OpenResult) :
    Except Status Nat × Node :=
  let named := node.names.getLocalPath ⟨bucket, key⟩
  let node := { node with names := named.2 }
  match mkdirFault with
  | some reason =>
      (.error (unknownError (text "Unable to create directory " ++
        fullName node.names.pathPrefix (fullName bucket []) ++ text "' Reason: " ++ reason)),
        node)
  | none =>
      let file := LocalFile.new node.files named.1 true opens
      let node := { node with files := file.2 }
      match file.1 with
      | .error message => (.error (unknownError message), node)
      | .ok file =>
          let added := node.addHandle bucket key (some file)
          (.ok added.1, added.2)

/-- The end of `GEDS::createAsFileHandle`, with `overwrite`. -/
def replaceHandle (path : Bytes) (id : Nat) : Node :=
  let previous := node.fileHandles.get path
  let node := { node with fileHandles := node.fileHandles.insertOrReplace path id }
  node.releaseAll previous.toList

/-- The end of `GEDS::createAsFileHandle`, without `overwrite`. -/
def registerHandle (path : Bytes) (id : Nat) : Except Status Nat × Node :=
  let inserted := node.fileHandles.insertOrExists path id
  let node := { node with fileHandles := inserted.2 }
  if inserted.1 ≠ id then
    (.error (alreadyExistsError (text "The file " ++ path ++ text "already exists!")),
      node.dropReference id)
  else (.ok id, node)

/-- `GEDS::createAsFileHandle`; the caller gets a pointer to the handle. -/
def createAsFileHandle (bucket key : Bytes) (overwrite : Bool) (answers : CreateAnswers) :
    Except Status Nat × Node :=
  if node.checkServiceRunning.ok then
    if (isValid bucket key).ok then
      let created := node.createBucket bucket answers.lookupBucket answers.createBucket
      if created.1.ok then
        let path := getPath bucket key
        let made := created.2.factory bucket key answers.mkdirFault answers.openFile
        match made.1 with
        | .error status => (.error status, made.2)
        | .ok id =>
            if overwrite then (.ok id, made.2.replaceHandle path id)
            else made.2.registerHandle path id
      else (.error created.1, created.2)
    else (.error (isValid bucket key), node)
  else (.error node.checkServiceRunning, node)

/-- `GEDS::create`; the pointer is exchanged for an open file. -/
def create (bucket key : Bytes) (overwrite : Bool) (answers : CreateAnswers) :
    Except Status Nat × Node :=
  let created := node.createAsFileHandle bucket key overwrite answers
  match created.1 with
  | .error status => (.error status, created.2)
  | .ok id => (.ok id, (created.2.openFile id).dropReference id)

end Create

section Open

/-- `GEDS::openAsFileHandle`; `reopened` is the status of `reopenFileHandle`. -/
def openAsFileHandle (bucket key : Bytes) (reopened : Status) :
    Except Status Nat × Node :=
  if node.checkServiceRunning.ok then
    let path := getPath bucket key
    if (isValid bucket key).ok then
      match node.fileHandles.get path with
      | some id => (.ok id, node.addReference id)
      | none =>
          if reopened.ok then
            let added := node.addHandle bucket key none
            let inserted := added.2.fileHandles.insertOrExists path added.1
            (.ok inserted.1, { added.2 with fileHandles := inserted.2 })
          else (.error reopened, node)
    else (.error (isValid bucket key), node)
  else (.error node.checkServiceRunning, node)

/-- `GEDSFileHandle::isValid` -/
def isValidHandle (id : Nat) : Bool :=
  match node.handles.find id with
  | none => false
  | some handle => handle.isValid

/-- `GEDS::open`, with the status of `reopenFileHandle` for each attempt that may
be made.  An invalid handle is removed from the registry. -/
def openFrom (bucket key : Bytes) : List Status → Node → Except Status Nat × Node
  | [], node =>
      (.error (unavailableError (text "The file " ++ getPath bucket key ++
        text " is invalid.")), node)
  | reopened :: attempts, node =>
      let found := node.openAsFileHandle bucket key reopened
      match found.1 with
      | .error status => (.error status, found.2)
      | .ok id =>
          if found.2.isValidHandle id then
            (.ok id, (found.2.openFile id).dropReference id)
          else
            let kept := (found.2.fileHandles.removeIf (getPath bucket key) fun check =>
              decide (id = check)).2
            let opened := openFrom bucket key attempts { found.2 with fileHandles := kept }
            (opened.1, opened.2.dropReference id)

end Open

section Bytes

/-- The local file behind a handle. -/
def localFile (id : Nat) : Option LocalFile :=
  (node.handles.find id).bind (·.file)

def setFile (id : Nat) (file : LocalFile) (files : FileSystem Bytes) : Node :=
  { node.modifyHandle id (fun handle => { handle with file := some file }) with
    files := files }

/-- `readBytes` on a handle. -/
def readBytes (id : Nat) (position length : UInt64) : Except Status Bytes :=
  match node.localFile id with
  | none => .error (unavailableError (text "Read operation is not available."))
  | some file => file.readBytes node.files position length

/-- `writeBytes` on a handle. -/
def writeBytes (id : Nat) (bytes : Bytes) (position : UInt64)
    (fault : Option WriteFault) : Status × Node :=
  match node.localFile id with
  | none => (unavailableError (text "Write operation is not available."), node)
  | some file =>
      let written := file.writeBytes node.files bytes position fault
      (written.1, node.setFile id written.2.1 written.2.2)

/-- `truncate` on a handle. -/
def truncate (id : Nat) (targetSize : UInt64) (fault : Option Bytes) : Status × Node :=
  match node.localFile id with
  | none => (unavailableError (text "Truncate is not available."), node)
  | some file =>
      let truncated := file.truncate node.files targetSize fault
      (truncated.1, node.setFile id truncated.2.1 truncated.2.2)

end Bytes

section Delete

/-- `GEDS::deleteObject`; the answer is that of the metadata service. -/
def deleteObject (bucket key : Bytes) (answer : Status) : Status × Node :=
  if ¬ answer.ok ∧ answer.code ≠ .notFound then (answer, node)
  else
    let path := getPath bucket key
    let removed := node.fileHandles.get path
    let node := { node with fileHandles := (node.fileHandles.remove path).2 }
    (okStatus, node.releaseAll removed.toList)

/-- `GEDS::deleteObjectPrefix`; the probe is made from the key part alone. -/
def deleteObjectPrefix (bucket keyPrefix : Bytes) (metadata : Bytes → Bytes → Status) :
    Status × Node :=
  let answer := metadata bucket keyPrefix
  if ¬ answer.ok ∧ answer.code ≠ .notFound then (answer, node)
  else
    let probe := PathPrefixProbe.toProbe ⟨keyPrefix⟩
    let removed := (node.fileHandles.range (node.fileHandles.equalRange probe)).map Prod.snd
    let node := { node with fileHandles := node.fileHandles.removeRange probe }
    (okStatus, node.releaseAll removed)

end Delete

section Relocate

/-- `GEDSAbstractFileHandle::relocate`; `stored` is the status of the steps that
put the bytes into the object store. -/
def relocateHandle (id : Nat) (stored : Status) : Option (Nat × Node) :=
  match node.handles.find id with
  | none => none
  | some handle =>
      if handle.file.isSome ∧ handle.isValid ∧ ¬ 0 < handle.openCount ∧ stored.ok then
        let added := node.addHandle handle.bucket handle.key none
        some (added.1, added.2.modifyHandle id fun handle => { handle with isValid := false })
      else none

/-- `GEDS::relocate` for one handle, which the caller points to. -/
def relocate (id : Nat) (force : Bool) (stored : Status) : Node :=
  match node.handles.find id with
  | none => node
  | some handle =>
      let path := getPath handle.bucket handle.key
      if (0 < handle.openCount ∧ force = false) ∨ node.fileHandles.get path = none then node
      else if cacheBlockMarker.isPrefixOf handle.key then
        let removed := node.fileHandles.removeIf path fun existing =>
          decide (id = existing ∧ handle.openCount = 0)
        { node with fileHandles := removed.2 }.release id
      else
        match node.relocateHandle id stored with
        | none => node
        | some (added, node) => (node.replaceHandle path added).dropReference added

end Relocate

/-- `GEDS::start`, with the status of its steps. -/
def start (answer : Status) : Node :=
  if node.state = .stopped then
    { node with state := if answer.ok then .running else .unknown }
  else node

/-- `GEDS::stop`, after the relocation that the configuration may ask for. -/
def stop : Node :=
  if node.checkServiceRunning.ok then
    let removed := node.fileHandles.entries.map Prod.snd
    { node with fileHandles := OrderedMap.empty, state := .stopped }.releaseAll removed
  else node

end Node

/-- What may happen to a node, one call after the other. -/
inductive NodeEvent where
  | start (answer : Status)
  | stop
  | createAsFileHandle (bucket key : Bytes) (overwrite : Bool) (answers : CreateAnswers)
  | create (bucket key : Bytes) (overwrite : Bool) (answers : CreateAnswers)
  | openObject (bucket key : Bytes) (reopened retried : Status)
  | copyFile (id : Nat)
  | closeFile (id : Nat)
  | addReference (id : Nat)
  | dropReference (id : Nat)
  | writeBytes (id : Nat) (bytes : Bytes) (position : UInt64) (fault : Option WriteFault)
  | truncate (id : Nat) (targetSize : UInt64) (fault : Option Bytes)
  | deleteObject (bucket key : Bytes) (answer : Status)
  | deleteObjectPrefix (bucket keyPrefix : Bytes) (metadata : Bytes → Bytes → Status)
  | relocate (id : Nat) (force : Bool) (stored : Status)

namespace Node

def perform (node : Node) : NodeEvent → Node
  | .start answer => node.start answer
  | .stop => node.stop
  | .createAsFileHandle bucket key overwrite answers =>
      (node.createAsFileHandle bucket key overwrite answers).2
  | .create bucket key overwrite answers => (node.create bucket key overwrite answers).2
  | .openObject bucket key reopened retried =>
      (openFrom bucket key [reopened, retried] node).2
  | .copyFile id => node.openFile id
  | .closeFile id => node.closeFile id
  | .addReference id => node.addReference id
  | .dropReference id => node.dropReference id
  | .writeBytes id bytes position fault => (node.writeBytes id bytes position fault).2
  | .truncate id targetSize fault => (node.truncate id targetSize fault).2
  | .deleteObject bucket key answer => (node.deleteObject bucket key answer).2
  | .deleteObjectPrefix bucket keyPrefix metadata =>
      (node.deleteObjectPrefix bucket keyPrefix metadata).2
  | .relocate id force stored => node.relocate id force stored

def run (node : Node) (events : List NodeEvent) : Node := events.foldl perform node

end Node

end GEDS
