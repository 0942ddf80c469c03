/-
The locks of a node's file handles.  Each handle has a recursive lock for the file and a shared
lock for its bytes; a `GEDSRelocatableFileHandle` has both, and so has the handle that it wraps.
A cached handle has a lock for each block, and the registry of the node has one.  The calls of a
node are given with the locks they take, in their order, and with what they read and change under
them; the bytes they move are left out.
-/
import GEDS.CachedFileHandle
import GEDS.Library.LockedPrograms

namespace GEDS

namespace HandleLocks

open LockedPrograms

/-- What `reopenFileHandle` opens: a file of another node, an object of a store, or such an
object behind a cache. -/
inductive InnerKind where
  | remote
  | s3
  | cached (size blockSize : Nat)
deriving DecidableEq, Inhabited

/-- A handle behind a wrapper, and where it lies in memory. -/
structure InnerHandle where
  number : Nat
  address : Nat
  kind : InnerKind
deriving DecidableEq, Inhabited

/-- `GEDSLocalFileHandle`, `GEDSS3FileHandle` and `GEDSRelocatableFileHandle` with the handle
that it was made for. -/
inductive HandleClass where
  | localFile
  | s3
  | relocatable (wrapped : InnerHandle)
deriving DecidableEq

/-- A handle that is registered under its name.  Blocks are dropped and not moved to a store. -/
structure Handle where
  number : Nat
  bucket : Bytes
  key : Bytes
  handleClass : HandleClass
  block_ne_s3 : cacheBlockMarker.isPrefixOf key = true → handleClass ≠ .s3
deriving DecidableEq

def Handle.isBlock (handle : Handle) : Bool := cacheBlockMarker.isPrefixOf handle.key

/-- The handle of a block. -/
def Block := { handle : Handle // handle.isBlock = true }
deriving DecidableEq

/-- A registered handle, one behind a wrapper, or the one behind the cache of a wrapper. -/
inductive HandleName where
  | registered (handle : Handle)
  | inner (wrapper : Handle) (number : Nat)
  | remote (wrapper : Handle) (number : Nat)
deriving DecidableEq

/-- `_fileMutex`, `_ioMutex`, `_blockMutex` and the lock of `_fileHandles`. -/
inductive NodeLock where
  | file (name : HandleName)
  | io (name : HandleName)
  | block (wrapper : Handle) (number idx : Nat)
  | registry
deriving DecidableEq

/-- `_fileMutex` is a `std::recursive_mutex`. -/
def NodeLock.recursive : NodeLock → Bool
  | .file _ => true
  | _ => false

structure NodeHandles where
  fileHandles : List Handle
  openCount : HandleName → Int
  isInvalid : HandleName → Bool
  replaced : Handle → Option InnerHandle
  blocks : Handle → Nat → Nat → Option Block
  made : Nat

namespace NodeHandles

/-- `GEDSRelocatableFileHandle::_fileHandle` -/
def fileHandle (handle : Handle) (s : NodeHandles) : InnerHandle :=
  match s.replaced handle, handle.handleClass with
  | some inner, _ => inner
  | none, .relocatable wrapped => wrapped
  | none, _ => default

def get (s : NodeHandles) (bucket key : Bytes) : Option Handle :=
  s.fileHandles.find? fun handle => decide (handle.bucket = bucket ∧ handle.key = key)

/-- The registered handle of a block. -/
def getBlock (s : NodeHandles) (bucket key : Bytes) (idx : Nat) : Option Block :=
  match hfound : s.get bucket (cacheKey key idx.toUInt64) with
  | none => none
  | some handle => some ⟨handle, by
      have hname := List.find?_some hfound
      rw [decide_eq_true_eq] at hname
      rw [Handle.isBlock, hname.2, List.isPrefixOf_iff_prefix]
      exact marker_prefix_cacheKey⟩

def insert (s : NodeHandles) (handle : Handle) : NodeHandles :=
  { s with fileHandles := handle :: s.fileHandles.filter fun other =>
      !decide (other.bucket = handle.bucket ∧ other.key = handle.key) }

def remove (s : NodeHandles) (bucket key : Bytes) : NodeHandles :=
  { s with fileHandles := s.fileHandles.filter fun other =>
      !decide (other.bucket = bucket ∧ other.key = key) }

def count (s : NodeHandles) (name : HandleName) (change : Int) : NodeHandles :=
  { s with openCount := Function.update s.openCount name (s.openCount name + change) }

def invalidate (s : NodeHandles) (name : HandleName) : NodeHandles :=
  { s with isInvalid := Function.update s.isInvalid name true }

def setFileHandle (s : NodeHandles) (wrapper : Handle) (inner : InnerHandle) : NodeHandles :=
  { s with replaced := Function.update s.replaced wrapper (some inner) }

def setBlock (s : NodeHandles) (wrapper : Handle) (number idx : Nat) (block : Option Block) :
    NodeHandles :=
  let ofHandle := Function.update (s.blocks wrapper number) idx block
  { s with blocks := Function.update s.blocks wrapper
      <| Function.update (s.blocks wrapper) number ofHandle }

end NodeHandles

/-- What services, stores and file systems answer. -/
structure Answer where
  ok : Bool
  kind : InnerKind
  address : Nat
deriving Inhabited

abbrev HandleCode (α : Type) := Code NodeLock Handle NodeHandles Answer InnerHandle α

/-- Does it succeed? -/
def answered : HandleCode Bool := .ask fun _ answer => answer.ok

/-- One question after another, as long as each is answered well. -/
def allAnswered : Nat → HandleCode Bool
  | 0 => .result true
  | questions + 1 => answered.andThen fun ok =>
      if ok then allAnswered questions else .result false

def newNumber : HandleCode Nat := .act (fun s _ => { s with made := s.made + 1 }) fun s _ => s.made

section FileHandle

variable {α : Type} (name : HandleName)

/-- `GEDSFileHandle::lockFile` -/
def lockFile (body : HandleCode α) : HandleCode α := body.locked (.file name) .exclusive

/-- `GEDSFileHandle::lockShared` -/
def lockShared (body : HandleCode α) : HandleCode α := body.locked (.io name) .shared

/-- `GEDSFileHandle::lockExclusive` -/
def lockExclusive (body : HandleCode α) : HandleCode α := body.locked (.io name) .exclusive

/-- `GEDSFileHandle::increaseOpenCount` -/
def increaseOpenCount : HandleCode Unit := lockFile name (.update fun s _ => s.count name 1)

/-- `GEDSFileHandle::open` -/
def openHandle : HandleCode Unit := lockFile name (increaseOpenCount name)

/-- `GEDSFileHandle::isValid` -/
def isValid : HandleCode Bool :=
  lockFile name (.ask fun s _ => !s.isInvalid name)

/-- `GEDSFileHandle::metadata` -/
def metadata : HandleCode Unit := lockFile name (.result ())

/-- `GEDS::seal`, which reads the metadata of the handle. -/
def sealObject : HandleCode Bool := (metadata name).andThen fun _ => answered

end FileHandle

section Registry

variable {α : Type}

/-- A call of `_fileHandles` that only looks. -/
def readRegistry (read : NodeHandles → α) : HandleCode α :=
  (Code.ask fun s _ => read s).locked .registry .shared

def writeRegistry (effect : NodeHandles → NodeHandles) (read : NodeHandles → α) : HandleCode α :=
  (Code.act (fun s _ => effect s) fun s _ => read s).locked .registry .exclusive

/-- `_fileHandles.insertOrExists` of a handle that nobody else has yet. -/
def insertOrExists (get : NodeHandles → Option α) (handle : α → Handle) (new : α) :
    HandleCode α :=
  writeRegistry
    (fun s => match get s with
      | none => s.insert (handle new)
      | some _ => s)
    fun s => (get s).getD new

/-- `GEDS::openAsFileHandle`: what is registered, or a new wrapper if the metadata server knows
the object. -/
def openAs (get : NodeHandles → Option α) (handle : α → Handle) (new : Nat → InnerHandle → α) :
    HandleCode (Option α) :=
  (readRegistry get).andThen fun
  | some found => .result (some found)
  | none => answered.andThen fun ok =>
    if ok then
      newNumber.andThen fun inner => newNumber.andThen fun number =>
      (Code.ask fun _ answer => InnerHandle.mk inner answer.address answer.kind).andThen fun opened =>
      (insertOrExists get handle (new number opened)).andThen fun item => .result (some item)
    else .result none

end Registry

section Classes

variable (name : HandleName)

/-- `Endpoint::readBytes`, which asks for nothing if nothing is to be read. -/
def endpointReadBytes (length : Nat) : HandleCode Bool :=
  if length = 0 then .result true else answered

/-- `GEDSS3FileHandle::readBytes` -/
def s3ReadBytes (length : Nat) : HandleCode Bool :=
  (Code.ask fun s _ => !s.isInvalid name).andThen fun valid =>
    if valid then
      lockShared name <| (endpointReadBytes length).andThen fun ok =>
        if ok then .result true
        else (lockFile name (.update fun s _ => s.invalidate name)).andThen fun _ => .result false
    else .result false

/-- `GEDSS3FileHandle::seal` -/
def s3Seal : HandleCode Bool := lockFile name (lockExclusive name (sealObject name))

/-- `GEDSRemoteFileHandle::readBytes` -/
def remoteReadBytes (length : Nat) : HandleCode Bool :=
  if length = 0 then .result true else lockShared name answered

/-- `GEDSRemoteFileHandle::size` -/
def remoteSize : HandleCode Unit := lockShared name (.result ())

/-- `GEDSAbstractFileHandle::readBytes`, `writeBytes`, `write`, `rawFd` and `rawPtr` -/
def localAccess : HandleCode Bool := lockShared name answered

/-- `GEDSAbstractFileHandle::truncate` -/
def localTruncate : HandleCode Bool := lockExclusive name answered

/-- `GEDSAbstractFileHandle::seal` -/
def localSeal : HandleCode Bool := lockFile name (lockExclusive name (sealObject name))

/-- `GEDSAbstractFileHandle::setMetadata` -/
def localSetMetadata (andSeal : Bool) : HandleCode Bool :=
  lockFile name (if andSeal then localSeal name else .result true)

/-- `GEDSAbstractFileHandle::notifyUnused` -/
def localNotifyUnused : HandleCode Unit :=
  lockFile name <| lockExclusive name <| (Code.ask fun s _ => decide (s.openCount name > 0)).andThen
    fun used => if used then .result () else answered.andThen fun _ => .result ()

end Classes

section Wrapper

variable (wrapper : Handle)

/-- `GEDS::reopenFileHandle`; the location of a block is never in a store. -/
def reopenFileHandle : HandleCode (Option InnerHandle) :=
  answered.andThen fun ok =>
    if ok then
      newNumber.andThen fun number => .ask fun _ answer =>
        some ⟨number, answer.address, if wrapper.isBlock then .remote else answer.kind⟩
    else .result none

/-- `GEDSRelocatableFileHandle::readBytes`; `readInner` reads from what is wrapped, and
`dropInner` takes apart what was. -/
def wrapperReadBytes (readInner : InnerHandle → HandleCode Bool)
    (dropInner : InnerHandle → HandleCode Unit) : HandleCode Bool :=
  (lockShared (.registered wrapper) <| .working wrapper fun inner =>
    (readInner inner).andThen fun ok => .result (inner.address, ok)).andThen fun (oldFh, ok) =>
  if ok then .result true
  else lockFile (.registered wrapper) <| lockExclusive (.registered wrapper) <|
    (Code.working wrapper fun inner =>
      if inner.address ≠ oldFh then (readInner inner).andThen fun ok => .result (some ok)
      else .result none).andThen fun
    | some ok => .result ok
    | none => (reopenFileHandle wrapper).andThen fun
      | none => .result false
      | some newFh => (Code.act (fun s _ => s.setFileHandle wrapper newFh)
          fun s _ => s.fileHandle wrapper).andThen fun replaced =>
        (dropInner replaced).andThen fun _ => .working wrapper readInner

end Wrapper

section Blocks

variable (block : Block)

/-- A block that is not on the node is a file of another one. -/
def blockInner (inner : InnerHandle) : HandleName := .inner block.1 inner.number

/-- `GEDSFile::read` of a block. -/
def blockRead (length : Nat) : HandleCode Bool :=
  match block.1.handleClass with
  | .localFile => localAccess (.registered block.1)
  | .s3 => s3ReadBytes (.registered block.1) length
  | .relocatable _ => wrapperReadBytes block.1
      (fun inner => remoteReadBytes (blockInner block inner) length) fun _ => .result ()

def blockNotifyUnused : HandleCode Unit :=
  match block.1.handleClass with
  | .localFile => localNotifyUnused (.registered block.1)
  | .s3 => .result ()
  | .relocatable _ => lockFile (.registered block.1) <| lockExclusive (.registered block.1) <|
      .working block.1 fun _ => .result ()

/-- The end of a `GEDSFile` of the block: `GEDSFileHandle::decreaseOpenCount`. -/
def dropFile : HandleCode Unit :=
  lockFile (.registered block.1) <|
    (Code.act (fun s _ => s.count (.registered block.1) (-1))
      fun s _ => decide (s.openCount (.registered block.1) = 1)).andThen fun unused =>
    if unused then blockNotifyUnused block else .result ()

/-- A copy of a `GEDSFile` of the block. -/
def copyFile : HandleCode Unit := increaseOpenCount (.registered block.1)

/-- `localStorageSize` and `localMemorySize` of a block, which is empty if it is not here. -/
def blockLocalSize : HandleCode Bool :=
  match block.1.handleClass with
  | .localFile => answered
  | .s3 => .result false
  | .relocatable _ => lockShared (.registered block.1) <| .working block.1 fun _ => .result false

end Blocks

section Cached

variable (wrapper : Handle)

def cacheBlock (idx number : Nat) (handleClass : HandleClass) (hclass : handleClass ≠ .s3) :
    Block :=
  ⟨⟨number, wrapper.bucket, cacheKey wrapper.key idx.toUInt64, handleClass, fun _ => hclass⟩,
    List.isPrefixOf_iff_prefix.2 marker_prefix_cacheKey⟩

/-- `GEDS::openAsFileHandle` of a block. -/
def openBlockAsFileHandle (idx : Nat) : HandleCode (Option Block) :=
  openAs (fun s => s.getBlock wrapper.bucket wrapper.key idx) Subtype.val fun number inner =>
    cacheBlock wrapper idx number (.relocatable inner) (by simp)

/-- `GEDS::open` of a block; a block stays valid. -/
def openBlockFile (idx : Nat) : HandleCode (Option Block) :=
  (openBlockAsFileHandle wrapper idx).andThen fun
  | none => .result none
  | some block => lockFile (.registered block.1) <|
      (isValid (.registered block.1)).andThen fun _ =>
      (openHandle (.registered block.1)).andThen fun _ => .result (some block)

/-- `GEDS::createAsFileHandle` of a block: the bucket, and the file. -/
def createBlock (idx : Nat) : HandleCode (Option Block) :=
  (allAnswered 2).andThen fun ok =>
    if ok then
      newNumber.andThen fun number =>
        let created := cacheBlock wrapper idx number .localFile (by simp)
        (insertOrExists (fun s => s.getBlock wrapper.bucket wrapper.key idx) Subtype.val
          created).andThen fun block =>
        .result (if block = created then some block else none)
    else .result none

variable (number : Nat)

/-- A file takes its place in `_blocks`.  Somebody else may have filled the place since it was
found empty; the file that was there comes to its end. -/
def storeBlock (idx : Nat) (block : Block) : HandleCode Unit :=
  (Code.act (fun s _ => s.setBlock wrapper number idx (some block))
    fun s _ => s.blocks wrapper number idx).andThen fun
  | none => .result ()
  | some replaced => dropFile replaced

/-- What `openBlock` does for a block that neither the node nor the metadata server knows. -/
def downloadBlock (idx : Nat) : HandleCode (Option Block) :=
  (createBlock wrapper idx).andThen fun
  | none => .result none
  | some block => answered.andThen fun ok =>
    if ok then
      (localAccess (.registered block.1)).andThen fun written =>
        if written then
          (openHandle (.registered block.1)).andThen fun _ =>
          (openHandle (.registered block.1)).andThen fun _ =>
          (storeBlock wrapper number idx block).andThen fun _ =>
          (localSeal (.registered block.1)).andThen fun _ =>
          (copyFile block).andThen fun _ =>
          (dropFile block).andThen fun _ => .result (some block)
        else .result none
    else .result none

/-- `openBlock` in `GEDSCachedFileHandle::readBytes` -/
def openBlock (idx : Nat) : HandleCode (Option Block) :=
  (Code.ask fun s _ => s.blocks wrapper number idx).andThen fun
  | some block => (copyFile block).andThen fun _ => .result (some block)
  | none => Code.locked (.block wrapper number idx) .exclusive <|
      (openBlockFile wrapper idx).andThen fun
      | some block =>
          (storeBlock wrapper number idx block).andThen fun _ =>
          (copyFile block).andThen fun _ => .result (some block)
      | none => downloadBlock wrapper number idx

/-- `GEDS::deleteObject` of a block: on the metadata server, then in the registry. -/
def deleteBlockObject (block : Block) : HandleCode Unit :=
  answered.andThen fun ok =>
    if ok then writeRegistry (fun s => s.remove block.1.bucket block.1.key) fun _ => ()
    else .result ()

/-- `purgeBlock` in `GEDSCachedFileHandle::readBytes` -/
def purgeBlock (idx : Nat) (file : Block) : HandleCode Unit :=
  Code.locked (.block wrapper number idx) .exclusive <|
    (Code.ask fun s _ => s.blocks wrapper number idx).andThen fun
    | none => .result ()
    | some block =>
        if block = file then
          (Code.update fun s _ => s.setBlock wrapper number idx none).andThen fun _ =>
          (dropFile block).andThen fun _ => deleteBlockObject block
        else .result ()

/-- The files of a round of the loop, `fileBlock` and its copy `file`, go out of scope. -/
def dropFiles (block : Block) : HandleCode Unit :=
  (dropFile block).andThen fun _ => dropFile block

/-- One round of the loop of `GEDSCachedFileHandle::readBytes` over the retries of a block. -/
def tryBlock (length idx : Nat) (failed : Block → HandleCode Bool) : HandleCode Bool :=
  (openBlock wrapper number idx).andThen fun
  | none => .result false
  | some block => (copyFile block).andThen fun _ => (blockRead block length).andThen fun ok =>
      if ok then (dropFiles block).andThen fun _ => .result true else failed block

def readBlock (length idx : Nat) : Nat → HandleCode Bool
  | 0 => tryBlock wrapper number length idx fun block =>
      (dropFiles block).andThen fun _ => .result false
  | retries + 1 => tryBlock wrapper number length idx fun block =>
      (purgeBlock wrapper number idx block).andThen fun _ =>
      (dropFiles block).andThen fun _ => readBlock length idx retries

def readBlocks (length : Nat) : List Nat → HandleCode Bool
  | [] => .result true
  | idx :: rest => (readBlock wrapper number length idx 1).andThen fun ok =>
      if ok then readBlocks length rest else .result false

/-- `GEDSCachedFileHandle::readBytes` -/
def cachedReadBytes (size blockSize position length : Nat) : HandleCode Bool :=
  if position ≥ size ∨ length = 0 then .result true
  else
    let length := min length (size - position)
    let startBlock := position / blockSize
    let endBlock := (position + length) / blockSize
    lockShared (.inner wrapper number) <|
      readBlocks wrapper number length (List.range' startBlock (endBlock + 1 - startBlock))

/-- The indices of `_blocks`. -/
def blockIndices (size blockSize : Nat) : List Nat := List.range (size / blockSize + 1)

/-- `GEDSCachedFileHandle::localStorageSize`, and `localMemorySize` without its lock. -/
def cachedLocalSize (size blockSize : Nat) : HandleCode Unit :=
  .forEach (blockIndices size blockSize) fun idx =>
    Code.locked (.block wrapper number idx) .exclusive <|
      (Code.ask fun s _ => s.blocks wrapper number idx).andThen fun
      | none => .result ()
      | some block => (blockLocalSize block).andThen fun _ => .result ()

/-- `GEDSCachedFileHandle::seal` -/
def cachedSeal : HandleCode Bool :=
  lockFile (.inner wrapper number) <| lockExclusive (.inner wrapper number) <|
    s3Seal (.remote wrapper number)

/-- `GEDSCachedFileHandle::relocate` -/
def cachedRelocate (size blockSize : Nat) : HandleCode Unit :=
  lockFile (.inner wrapper number) <| lockExclusive (.inner wrapper number) <|
    .forEach (blockIndices size blockSize) fun idx =>
      Code.locked (.block wrapper number idx) .exclusive <|
        (Code.ask fun s _ => s.blocks wrapper number idx).andThen fun
        | none => .result ()
        | some block => (blockLocalSize block).andThen fun stored =>
            if stored then
              (deleteBlockObject block).andThen fun _ =>
              (Code.update fun s _ => s.setBlock wrapper number idx none).andThen fun _ =>
              dropFile block
            else .result ()

/-- The end of a `GEDSCachedFileHandle`: its files of the blocks, and its file of the object. -/
def dropCached (size blockSize : Nat) : HandleCode Unit :=
  (Code.forEach (blockIndices size blockSize) fun idx =>
    (Code.act (fun s _ => s.setBlock wrapper number idx none)
      fun s _ => s.blocks wrapper number idx).andThen fun
    | none => .result ()
    | some block => dropFile block).andThen fun _ =>
  lockFile (.remote wrapper number) (.update fun s _ => s.count (.remote wrapper number) (-1))

end Cached

section Inner

variable (wrapper : Handle) (inner : InnerHandle)

/-- What lies behind the wrapper of a block is the file of another node. -/
def innerKind : InnerKind := if wrapper.isBlock then .remote else inner.kind

def innerReadBytes (position length : Nat) : HandleCode Bool :=
  match innerKind wrapper inner with
  | .remote => remoteReadBytes (.inner wrapper inner.number) length
  | .s3 => s3ReadBytes (.inner wrapper inner.number) length
  | .cached size blockSize => cachedReadBytes wrapper inner.number size blockSize position length

def innerSize : HandleCode Unit :=
  match innerKind wrapper inner with
  | .remote => remoteSize (.inner wrapper inner.number)
  | .s3 | .cached _ _ => .result ()

def innerLocalStorageSize : HandleCode Unit :=
  match innerKind wrapper inner with
  | .remote | .s3 => .result ()
  | .cached size blockSize => cachedLocalSize wrapper inner.number size blockSize

def innerLocalMemorySize : HandleCode Unit :=
  match innerKind wrapper inner with
  | .remote | .s3 => .result ()
  | .cached size blockSize => lockShared (.inner wrapper inner.number) <|
      cachedLocalSize wrapper inner.number size blockSize

/-- A file of another node cannot be sealed. -/
def innerSeal : HandleCode Bool :=
  match innerKind wrapper inner with
  | .remote => .result false
  | .s3 => s3Seal (.inner wrapper inner.number)
  | .cached _ _ => cachedSeal wrapper inner.number

/-- Only cached handles can be relocated; they are what comes out of it, too. -/
def innerRelocate : HandleCode (Option InnerHandle) :=
  match innerKind wrapper inner with
  | .remote | .s3 => .result none
  | .cached size blockSize => (cachedRelocate wrapper inner.number size blockSize).andThen fun _ =>
      .result (some inner)

/-- The end of a handle that a new one took the place of. -/
def dropInner : HandleCode Unit :=
  match innerKind wrapper inner with
  | .remote | .s3 => .result ()
  | .cached size blockSize => dropCached wrapper inner.number size blockSize

end Inner

section Calls

variable (handle : Handle)

/-- `localStorageSize` of a handle -/
def localStorageSize : HandleCode Unit :=
  match handle.handleClass with
  | .localFile | .s3 => .result ()
  | .relocatable _ => lockShared (.registered handle) <|
      .working handle fun inner => innerLocalStorageSize handle inner

/-- `localMemorySize` of a handle -/
def localMemorySize : HandleCode Unit :=
  match handle.handleClass with
  | .localFile | .s3 => .result ()
  | .relocatable _ => lockShared (.registered handle) <|
      .working handle fun inner => innerLocalMemorySize handle inner

def size : HandleCode Unit :=
  match handle.handleClass with
  | .localFile | .s3 => .result ()
  | .relocatable _ => lockShared (.registered handle) <|
      .working handle fun inner => innerSize handle inner

def isWriteable : HandleCode Bool :=
  match handle.handleClass with
  | .localFile => .result true
  | .s3 => .result false
  | .relocatable _ => lockShared (.registered handle) <| .working handle fun _ => .result false

def readMetadata : HandleCode Unit :=
  match handle.handleClass with
  | .localFile | .s3 => metadata (.registered handle)
  | .relocatable _ => lockFile (.registered handle) <|
      .working handle fun inner => metadata (.inner handle inner.number)

/-- What is wrapped is read-only. -/
def setMetadata (andSeal : Bool) : HandleCode Bool :=
  match handle.handleClass with
  | .localFile => localSetMetadata (.registered handle) andSeal
  | .s3 => .result false
  | .relocatable _ => lockFile (.registered handle) <| .working handle fun _ => .result false

def readBytes (position length : Nat) : HandleCode Bool :=
  match handle.handleClass with
  | .localFile => localAccess (.registered handle)
  | .s3 => s3ReadBytes (.registered handle) length
  | .relocatable _ => wrapperReadBytes handle
      (fun inner => innerReadBytes handle inner position length) fun inner =>
        dropInner handle inner

/-- `writeBytes`, `write` and `rawFd`: only local files allow them. -/
def access : HandleCode Bool :=
  match handle.handleClass with
  | .localFile => localAccess (.registered handle)
  | .s3 => .result false
  | .relocatable _ => lockShared (.registered handle) <| .working handle fun _ => .result false

def truncate : HandleCode Bool :=
  match handle.handleClass with
  | .localFile => localTruncate (.registered handle)
  | .s3 => .result false
  | .relocatable _ => lockExclusive (.registered handle) <| .working handle fun _ => .result false

def sealHandle : HandleCode Bool :=
  match handle.handleClass with
  | .localFile => localSeal (.registered handle)
  | .s3 => s3Seal (.registered handle)
  | .relocatable _ => lockExclusive (.registered handle) <|
      .working handle fun inner => innerSeal handle inner

def notifyUnused : HandleCode Unit :=
  match handle.handleClass with
  | .localFile => localNotifyUnused (.registered handle)
  | .s3 => .result ()
  | .relocatable _ => lockFile (.registered handle) <| lockExclusive (.registered handle) <|
      .working handle fun _ => .result ()

/-- `GEDSFileHandle::decreaseOpenCount` -/
def decreaseOpenCount : HandleCode Unit :=
  lockFile (.registered handle) <|
    (Code.act (fun s _ => s.count (.registered handle) (-1))
      fun s _ => decide (s.openCount (.registered handle) = 1)).andThen fun unused =>
    if unused then notifyUnused handle else .result ()

/-- `GEDSAbstractFileHandle::relocate`.  The questions are for a store, for the local file to be
synchronised, for the upload, for the new handle, and for its record; nobody else has the new
handle, so that its locks are left out. -/
def localRelocate (hblock : handle.isBlock = false) : HandleCode (Option Handle) :=
  lockFile (.registered handle) <| lockExclusive (.registered handle) <|
    (isValid (.registered handle)).andThen fun valid =>
    (Code.ask fun s _ => decide (s.openCount (.registered handle) > 0)).andThen fun used =>
    if valid && !used then
      (allAnswered 4).andThen fun moved =>
        if moved then
          (metadata (.registered handle)).andThen fun _ => answered.andThen fun recorded =>
            if recorded then
              newNumber.andThen fun number =>
              (Code.update fun s _ => s.invalidate (.registered handle)).andThen fun _ =>
              .result (some ⟨number, handle.bucket, handle.key, .s3,
                fun h => absurd h (Bool.eq_false_iff.1 hblock)⟩)
            else .result none
        else .result none
    else .result none

/-- `GEDSRelocatableFileHandle::relocate` -/
def wrapperRelocate : HandleCode Unit :=
  lockFile (.registered handle) <| lockExclusive (.registered handle) <|
    (Code.working handle fun inner => innerRelocate handle inner).andThen fun
    | none => .result ()
    | some newFh => .update fun s _ => s.setFileHandle handle newFh

/-- `relocate` of a handle that is not a block; what comes in its place. -/
def relocateHandle (hblock : handle.isBlock = false) : HandleCode (Option Handle) :=
  match handle.handleClass with
  | .localFile => localRelocate handle hblock
  | .s3 => .result none
  | .relocatable _ => (wrapperRelocate handle).andThen fun _ => .result (some handle)

/-- `GEDS::relocate` of one handle -/
def relocate (force : Bool) : HandleCode Unit :=
  lockFile (.registered handle) <|
    (Code.ask fun s _ => decide (s.openCount (.registered handle) > 0) && !force).andThen fun used =>
    if used then .result ()
    else
      (readRegistry fun s => (s.get handle.bucket handle.key).isSome).andThen fun found =>
      if found then
        (localStorageSize handle).andThen fun _ => (localStorageSize handle).andThen fun _ =>
        if hblock : handle.isBlock = true then
          writeRegistry (fun s =>
            if s.get handle.bucket handle.key = some handle ∧
                s.openCount (.registered handle) = 0 then
              s.remove handle.bucket handle.key
            else s) fun _ => ()
        else (relocateHandle handle (Bool.eq_false_iff.2 hblock)).andThen fun
          | none => .result ()
          | some newHandle => writeRegistry (fun s => s.insert newHandle) fun _ => ()
      else .result ()

def isRelocatable : Bool :=
  match handle.handleClass with
  | .s3 => false
  | .localFile | .relocatable _ => true

/-- The loop of `GEDS::relocate` of all handles: each lock is taken under that of the registry. -/
def collectRelocatable (force : Bool) : HandleCode Unit :=
  Code.locked .registry .shared <| (Code.ask fun s _ => s.fileHandles).andThen fun handles =>
    .forEach handles fun item =>
      (Code.ask fun s _ => (decide (s.openCount (.registered item) = 0) || force) &&
        isRelocatable item).andThen fun asked =>
      if asked then (isValid (.registered item)).andThen fun _ => .result () else .result ()

/-- What the storage monitor does before it relocates: it copies the handles first. -/
def measure : HandleCode Unit :=
  (readRegistry fun s => s.fileHandles).andThen fun allFileHandles =>
    .forEach allFileHandles fun fh =>
      (localStorageSize fh).andThen fun _ => (localMemorySize fh).andThen fun _ =>
      (Code.ask fun s _ => isRelocatable fh &&
        decide (s.openCount (.registered fh) = 0)).andThen fun asked =>
      if asked then (isValid (.registered fh)).andThen fun _ => .result () else .result ()

end Calls

section Opening

variable (bucket key : Bytes)

def openAsFileHandle : HandleCode (Option Handle) :=
  openAs (fun s => s.get bucket key) id fun number inner =>
    ⟨number, bucket, key, .relocatable inner, by simp⟩

/-- `_fileHandles.removeIf`, if the handle is still the registered one. -/
def removeSame (handle : Handle) : HandleCode Unit :=
  writeRegistry
    (fun s => if s.get handle.bucket handle.key = some handle then
        s.remove handle.bucket handle.key
      else s) fun _ => ()

/-- `GEDS::open`; `again` is done while the lock of the invalid handle is still held. -/
def openOr (again : HandleCode Bool) : HandleCode Bool :=
  (openAsFileHandle bucket key).andThen fun
  | none => .result false
  | some fh => lockFile (.registered fh) <| (isValid (.registered fh)).andThen fun valid =>
      if valid then (openHandle (.registered fh)).andThen fun _ => .result true
      else (removeSame fh).andThen fun _ => again

def openFile : Bool → HandleCode Bool
  | false => openOr bucket key (.result false)
  | true => openOr bucket key (openOr bucket key (.result false))

/-- `GEDS::localOpen`: a file is local if it has a descriptor. -/
def localOpen : HandleCode Bool :=
  (readRegistry fun s => s.get bucket key).andThen fun
  | none => .result false
  | some handle => (access handle).andThen fun ok =>
      if ok then
        (lockFile (.registered handle) (openHandle (.registered handle))).andThen fun _ =>
          .result true
      else .result false

/-- `GEDS::reopen` -/
def reopen (existing : Handle) : HandleCode Unit :=
  lockFile (.registered existing) <| (removeSame existing).andThen fun _ =>
    (openAsFileHandle existing.bucket existing.key).andThen fun _ => .result ()

end Opening

/-- The calls that are made on a node: those that open files, those through open files, and those
of the storage monitor and of `GEDS::relocate`. -/
inductive NodeCall where
  | openFile (bucket key : Bytes) (retry : Bool)
  | localOpen (bucket key : Bytes)
  | reopen (handle : Handle)
  | copy (handle : Handle)
  | close (handle : Handle)
  | size (handle : Handle)
  | isWriteable (handle : Handle)
  | metadata (handle : Handle)
  | setMetadata (handle : Handle) (andSeal : Bool)
  | readBytes (handle : Handle) (position length : Nat)
  | access (handle : Handle)
  | truncate (handle : Handle)
  | sealHandle (handle : Handle)
  | measure
  | relocate (handle : Handle) (force : Bool)
  | collectRelocatable (force : Bool)

def NodeCall.program : NodeCall → Program NodeLock Handle NodeHandles Answer InnerHandle
  | .openFile bucket key retry => (HandleLocks.openFile bucket key retry).program
  | .localOpen bucket key => (HandleLocks.localOpen bucket key).program
  | .reopen handle => (HandleLocks.reopen handle).program
  | .copy handle => (increaseOpenCount (.registered handle)).program
  | .close handle => (decreaseOpenCount handle).program
  | .size handle => (HandleLocks.size handle).program
  | .isWriteable handle => (HandleLocks.isWriteable handle).program
  | .metadata handle => (readMetadata handle).program
  | .setMetadata handle andSeal => (HandleLocks.setMetadata handle andSeal).program
  | .readBytes handle position length => (HandleLocks.readBytes handle position length).program
  | .access handle => (HandleLocks.access handle).program
  | .truncate handle => (HandleLocks.truncate handle).program
  | .sealHandle handle => (HandleLocks.sealHandle handle).program
  | .measure => HandleLocks.measure.program
  | .relocate handle force => (HandleLocks.relocate handle force).program
  | .collectRelocatable force => (HandleLocks.collectRelocatable force).program

/-- The calls that take no lock out of order: not the loop over all handles, not a read from a
store behind no wrapper, and not the second attempt to open a file. -/
def NodeCall.orderly : NodeCall → Bool
  | .openFile _ _ retry => !retry
  | .readBytes handle _ _ => !decide (handle.handleClass = .s3)
  | .collectRelocatable _ => false
  | _ => true

end HandleLocks

end GEDS
