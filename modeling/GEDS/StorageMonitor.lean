/-
The storage that the monitoring loop of `GEDS` adds up: the handles in the registry, what
they wrap, the blocks of cached handles, and the local files behind them all.
-/
import GEDS.CachedFileHandle
import GEDS.LocalFileArray
import GEDS.Library.MachineWord
import GEDS.Library.SharedParts
import Mathlib.Data.List.ReduceOption

namespace GEDS

open SharedParts
open LocalFile.Posix (FileCall)

/-- What a handle is made of. -/
inductive StorageKind where
  /-- `GEDSLocalFileHandle` -/
  | localFile (file : LocalFile)
  /-- `GEDSRemoteFileHandle` or `GEDSS3FileHandle` -/
  | remote
  /-- `GEDSRelocatableFileHandle` -/
  | relocatable (fileHandle : Nat)
  /-- `GEDSCachedFileHandle`, with the handles of its blocks -/
  | cached (blocks : List (Option Nat))

structure StorageHandle where
  bucket : Bytes
  key : Bytes
  kind : StorageKind

/-- Where `reopenFileHandle` finds an object. -/
inductive ReopenLocation where
  | geds
  | s3 (size : Nat)

/-- The handles of a node that are not destroyed yet, and its local files.  `longestKey` bounds
how deep the calls of `localStorageSize` go. -/
structure StorageNode where
  cacheObjectsFromS3 : Bool
  cacheBlockSize : Nat
  names : FileNames
  files : FileSystem Bytes
  handles : AssocMap Nat StorageHandle
  nextHandle : Nat
  fileHandles : ConcurrentMap Bytes Nat
  longestKey : Nat

/-- What happens to the handles: calls and the steps of calls, in any order.  The steps of
`openBlock` are `openAsFileHandle`, `createAsFileHandle`, `fileCall` and `storeBlock`. -/
inductive StorageEvent where
  | createAsFileHandle (bucket key : Bytes) (overwrite : Bool) (mkdirFault : Option Bytes)
      (opens : OpenResult)
  | openAsFileHandle (bucket key : Bytes) (location : Option ReopenLocation)
  | reopen (id : Nat) (location : ReopenLocation)
  | fileCall (id : Nat) (call : FileCall)
  | storeBlock (id : Nat) (idx : UInt64) (block : Nat)
  | purgeBlock (id : Nat) (idx : UInt64) (block : Nat)
  | removeIf (path : Bytes) (id : Nat)
  | deleteObject (bucket key : Bytes)
  | deleteObjectPrefix (keyPrefix : Bytes)
  | relocate (id : Nat) (unused stored : Bool) (deleted : Nat → Bool)
  | destroy (id : Nat)
  | stop

/-- The handles that a handle holds. -/
def StorageHandle.parts (handle : StorageHandle) : List Nat :=
  match handle.kind with
  | .localFile _ => []
  | .remote => []
  | .relocatable fileHandle => [fileHandle]
  | .cached blocks => blocks.reduceOption

/-- `_file` of a `GEDSLocalFileHandle` -/
def StorageHandle.file (handle : StorageHandle) : Option LocalFile :=
  match handle.kind with
  | .localFile file => some file
  | .remote => none
  | .relocatable _ => none
  | .cached _ => none

/-- What `reopenFileHandle` makes. -/
def StorageKind.reopened : StorageKind → Bool
  | .localFile _ => false
  | .remote => true
  | .relocatable _ => false
  | .cached _ => true

namespace StorageNode

section Calls

variable (node : StorageNode)

def new (cacheObjectsFromS3 : Bool) (cacheBlockSize : Nat) (pathPrefix : Bytes) :
    StorageNode where
  cacheObjectsFromS3 := cacheObjectsFromS3
  cacheBlockSize := cacheBlockSize
  names := FileNames.new pathPrefix
  files := FileSystem.empty
  handles := AssocMap.empty
  nextHandle := 0
  fileHandles := OrderedMap.empty
  longestKey := 0

def addHandle (handle : StorageHandle) : Nat × StorageNode :=
  (node.nextHandle,
    { node with
      handles := node.handles.insert node.nextHandle handle
      nextHandle := node.nextHandle + 1
      longestKey := max node.longestKey handle.key.length })

def setKind (id : Nat) (kind : StorageKind) : StorageNode :=
  match node.handles.find id with
  | none => node
  | some handle => { node with handles := node.handles.insert id { handle with kind := kind } }

/-- `localStorageSize`; a cached handle adds up its blocks, in a word that wraps. -/
def localStorageSize : Nat → Nat → UInt64
  | 0, _ => 0
  | depth + 1, id =>
      match node.handles.find id with
      | none => 0
      | some handle =>
          match handle.kind with
          | .localFile file => file.size
          | .remote => 0
          | .relocatable fileHandle => localStorageSize depth fileHandle
          | .cached blocks =>
              blocks.foldl (fun result block =>
                match block with
                | none => result
                | some block => result + localStorageSize depth block) 0

/-- A handle with a key of this length is the last one on a way down. -/
def depth : Nat := 2 * node.longestKey + 2

/-- The parts of a handle, which the library goes through. -/
def parts (id : Nat) : List Nat :=
  match node.handles.find id with
  | none => []
  | some handle => handle.parts

/-- The local file of a handle. -/
def localFile (id : Nat) : Option LocalFile := (node.handles.find id).bind (·.file)

/-- `_file._size`, if the handle has a file. -/
def fileSize (id : Nat) : Nat :=
  match node.localFile id with
  | none => 0
  | some file => file.size.toNat

/-- The file on the disk behind a handle. -/
def backing (id : Nat) : Option Nat := (node.localFile id).map (·.inode)

/-- The bytes on the ways from a handle to local files.  The sums of the code are words, this
one is not. -/
def bytesBehind (depth id : Nat) : Nat := ((walk node.parts depth id).map node.fileSize).sum

def fileLength (inode : Nat) : Nat := (node.files.content inode).length

/-- The handles that the monitoring loop comes to from the registry, with repetitions. -/
def reached : List Nat :=
  node.fileHandles.entries.flatMap fun entry => walk node.parts node.depth entry.2

/-- The bytes on all ways from the registry to local files. -/
def bytesReached : Nat := (node.reached.map node.fileSize).sum

/-- The files behind them, with repetitions. -/
def backingFiles : List Nat := node.reached.filterMap node.backing

/-- The sizes of the distinct local files behind the registered handles. -/
def localFileSizes : Nat := (node.backingFiles.dedup.map node.fileLength).sum

/-- No local file with bytes in it is reached in two ways. -/
def ReachedOnce : Prop :=
  ∀ inode, node.fileLength inode ≠ 0 → node.backingFiles.count inode ≤ 1

/-- The handles know how long their files are. -/
def SizesKnown : Prop :=
  ∀ id file, node.localFile id = some file → file.size.toNat = node.fileLength file.inode

/-- `storageUsed` in one cycle of the monitoring loop -/
def storageUsed : UInt64 :=
  node.fileHandles.entries.foldl
    (fun storageUsed entry => storageUsed + node.localStorageSize node.depth entry.2) 0

/-- More depth changes nothing: the calls of `localStorageSize` come to their end. -/
def Finishes : Prop :=
  ∀ depth id, node.depth ≤ depth →
    node.localStorageSize depth id = node.localStorageSize node.depth id

/-- The value of the cycle is the size of the distinct local files. -/
def CountsOnce : Prop := node.storageUsed.toNat = node.localFileSizes

/-- Somebody in the node has a pointer to the handle. -/
def held (id : Nat) : Bool :=
  node.fileHandles.entries.any (fun entry => decide (entry.2 = id)) ||
    node.handles.entries.any fun entry => entry.2.parts.any fun part => decide (part = id)

/-- The destructor of a handle, when nobody else has a pointer to it either. -/
def destroy (id : Nat) : StorageNode :=
  match node.handles.find id with
  | none => node
  | some handle =>
      if node.held id then node
      else
        { node with
          handles := node.handles.erase id
          files := match handle.file with
            | none => node.files
            | some file => file.destroy node.files }

/-- The end of `GEDS::createAsFileHandle`. -/
def registerHandle (path : Bytes) (id : Nat) (overwrite : Bool) : StorageNode :=
  if overwrite then { node with fileHandles := node.fileHandles.insertOrReplace path id }
  else
    let inserted := node.fileHandles.insertOrExists path id
    let node := { node with fileHandles := inserted.2 }
    if inserted.1 ≠ id then node.destroy id else node

/-- `GEDS::createAsFileHandle`, once the bucket is there. -/
def createAsFileHandle (bucket key : Bytes) (overwrite : Bool) (mkdirFault : Option Bytes)
    (opens : OpenResult) : StorageNode :=
  let named := node.names.getLocalPath ⟨bucket, key⟩
  let node := { node with names := named.2 }
  match mkdirFault with
  | some _ => node
  | none =>
      let opened := LocalFile.new node.files named.1 true opens
      let node := { node with files := opened.2 }
      match opened.1 with
      | .error _ => node
      | .ok file =>
          let added := node.addHandle ⟨bucket, key, .localFile file⟩
          added.2.registerHandle (getPath bucket key) added.1 overwrite

/-- `GEDS::reopenFileHandle` -/
def reopenFileHandle (bucket key : Bytes) : ReopenLocation → Nat × StorageNode
  | .geds => node.addHandle ⟨bucket, key, .remote⟩
  | .s3 size =>
      node.addHandle ⟨bucket, key,
        if node.cacheObjectsFromS3 then
          .cached (List.replicate (size / node.cacheBlockSize + 1) none)
        else .remote⟩

/-- `GEDS::openAsFileHandle`; there is no location if the file cannot be reopened. -/
def openAsFileHandle (bucket key : Bytes) (location : Option ReopenLocation) : StorageNode :=
  match node.fileHandles.get (getPath bucket key) with
  | some _ => node
  | none =>
      match location with
      | none => node
      | some location =>
          let fileHandle := node.reopenFileHandle bucket key location
          let wrapped := fileHandle.2.addHandle ⟨bucket, key, .relocatable fileHandle.1⟩
          { wrapped.2 with
            fileHandles := (wrapped.2.fileHandles.insertOrExists (getPath bucket key)
              wrapped.1).2 }

/-- `GEDSRelocatableFileHandle::readBytes` after a read that failed. -/
def reopen (id : Nat) (location : ReopenLocation) : StorageNode :=
  match node.handles.find id with
  | some ⟨bucket, key, .relocatable _⟩ =>
      let newFh := node.reopenFileHandle bucket key location
      newFh.2.setKind id (.relocatable newFh.1)
  | _ => node

/-- A write or `truncate` on a local file. -/
def fileCall (id : Nat) (call : FileCall) : StorageNode :=
  match node.handles.find id with
  | some ⟨_, _, .localFile file⟩ =>
      let performed := call.perform file node.files
      { node.setKind id (.localFile performed.2.1) with files := performed.2.2 }
  | _ => node

/-- The end of `openBlock`: the file that was opened or created under the key of the block. -/
def storeBlock (id : Nat) (idx : UInt64) (block : Nat) : StorageNode :=
  match node.handles.find id, node.handles.find block with
  | some ⟨bucket, key, .cached blocks⟩, some file =>
      if file.bucket = bucket ∧ file.key = cacheKey key idx then
        node.setKind id (.cached (blocks.set idx.toNat (some block)))
      else node
  | _, _ => node

/-- `purgeBlock`, up to the deletion of the object. -/
def purgeBlock (id : Nat) (idx : UInt64) (block : Nat) : StorageNode :=
  match node.handles.find id with
  | some ⟨_, _, .cached blocks⟩ =>
      if blocks[idx.toNat]? = some (some block) then
        node.setKind id (.cached (blocks.set idx.toNat none))
      else node
  | _ => node

/-- `GEDS::deleteObject`, after the metadata service answered. -/
def deleteObject (bucket key : Bytes) : StorageNode :=
  { node with fileHandles := (node.fileHandles.remove (getPath bucket key)).2 }

/-- The objects of the blocks are deleted, unless the metadata service refuses. -/
def deleteBlocks (deleted : Nat → Bool) : List Nat → StorageNode → StorageNode
  | [], node => node
  | block :: rest, node =>
      deleteBlocks deleted rest <|
        match node.handles.find block with
        | some file => if deleted block then node.deleteObject file.bucket file.key else node
        | none => node

/-- `GEDSCachedFileHandle::relocate`: the blocks that take up storage are purged. -/
def purge (id : Nat) (deleted : Nat → Bool) : StorageNode :=
  match node.handles.find id with
  | some ⟨_, _, .cached blocks⟩ =>
      let takes := fun block => decide (node.localStorageSize node.depth block ≠ 0)
      let kept := blocks.map fun block => block.filter fun block => !takes block
      deleteBlocks deleted (blocks.reduceOption.filter takes) (node.setKind id (.cached kept))
  | _ => node

/-- `GEDSRelocatableFileHandle::relocate` -/
def relocateWrapped (id fileHandle : Nat) (stored : Bool) (deleted : Nat → Bool) : StorageNode :=
  match node.handles.find fileHandle with
  | some ⟨bucket, key, .localFile _⟩ =>
      if stored then
        let newFh := node.addHandle ⟨bucket, key, .remote⟩
        newFh.2.setKind id (.relocatable newFh.1)
      else node
  | _ => node.purge fileHandle deleted

/-- `GEDS::relocate` for one handle that is not open, or by force. -/
def relocate (id : Nat) (unused stored : Bool) (deleted : Nat → Bool) : StorageNode :=
  match node.handles.find id with
  | none => node
  | some handle =>
      let path := getPath handle.bucket handle.key
      if node.fileHandles.get path = none then node
      else if cacheBlockMarker.isPrefixOf handle.key then
        { node with
          fileHandles := (node.fileHandles.removeIf path fun existing =>
            decide (existing = id) && unused).2 }
      else
        match handle.kind with
        | .localFile _ =>
            if stored then
              let newFh := node.addHandle ⟨handle.bucket, handle.key, .remote⟩
              { newFh.2 with fileHandles := newFh.2.fileHandles.insertOrReplace path newFh.1 }
            else node
        | .remote => node
        | .relocatable fileHandle =>
            let relocated := node.relocateWrapped id fileHandle stored deleted
            { relocated with fileHandles := relocated.fileHandles.insertOrReplace path id }
        | .cached _ =>
            let purged := node.purge id deleted
            { purged with fileHandles := purged.fileHandles.insertOrReplace path id }

def perform : StorageEvent → StorageNode
  | .createAsFileHandle bucket key overwrite mkdirFault opens =>
      node.createAsFileHandle bucket key overwrite mkdirFault opens
  | .openAsFileHandle bucket key location => node.openAsFileHandle bucket key location
  | .reopen id location => node.reopen id location
  | .fileCall id call => node.fileCall id call
  | .storeBlock id idx block => node.storeBlock id idx block
  | .purgeBlock id idx block => node.purgeBlock id idx block
  | .removeIf path id =>
      { node with
        fileHandles := (node.fileHandles.removeIf path fun existing => decide (existing = id)).2 }
  | .deleteObject bucket key => node.deleteObject bucket key
  | .deleteObjectPrefix keyPrefix =>
      { node with
        fileHandles := node.fileHandles.removeRange (PathPrefixProbe.toProbe ⟨keyPrefix⟩) }
  | .relocate id unused stored deleted => node.relocate id unused stored deleted
  | .destroy id => node.destroy id
  | .stop => { node with fileHandles := OrderedMap.empty }

def run (events : List StorageEvent) : StorageNode := events.foldl perform node

end Calls

section Sums

variable {node : StorageNode}

theorem foldl_blocks (size : Nat → UInt64) (blocks : List (Option Nat)) (start : UInt64) :
    blocks.foldl (fun result block =>
      match block with
      | none => result
      | some block => result + size block) start =
        blocks.reduceOption.foldl (fun result block => result + size block) start := by
  induction blocks generalizing start with
  | nil => rfl
  | cons block rest ih =>
      rw [List.foldl_cons, ih]
      cases block with
      | none => rw [List.reduceOption_cons_of_none]
      | some block => rw [List.reduceOption_cons_of_some, List.foldl_cons]

theorem sum_map_flatMap (size : Nat → Nat) (met : Nat → List Nat) (list : List Nat) :
    ((list.flatMap met).map size).sum = (list.map fun id => ((met id).map size).sum).sum := by
  induction list with
  | nil => rfl
  | cons id rest ih =>
      rw [List.flatMap_cons, List.map_append, List.sum_append, ih, List.map_cons, List.sum_cons]

theorem bytesBehind_succ (depth id : Nat) : node.bytesBehind (depth + 1) id =
    node.fileSize id + ((node.parts id).map (node.bytesBehind depth)).sum := by
  rw [bytesBehind, walk, List.map_cons, List.sum_cons, sum_map_flatMap]
  rfl

/-- `localStorageSize` adds up the files along the walk. -/
theorem localStorageSize_eq (depth id : Nat) :
    node.localStorageSize depth id = UInt64.ofNat (node.bytesBehind depth id) := by
  induction depth generalizing id with
  | zero => rfl
  | succ depth ih =>
      rw [localStorageSize, bytesBehind_succ, fileSize, localFile, parts]
      cases hfind : node.handles.find id with
      | none => rfl
      | some handle =>
          obtain ⟨bucket, key, kind⟩ := handle
          cases kind with
          | localFile file =>
              simp [StorageHandle.parts, StorageHandle.file]
          | remote => rfl
          | relocatable fileHandle =>
              simp [StorageHandle.parts, StorageHandle.file, ih]
          | cached blocks =>
              simp only [StorageHandle.parts, StorageHandle.file, Option.bind_some]
              rw [foldl_blocks, funext ih]
              exact foldl_add_ofNat (node.bytesBehind depth) blocks.reduceOption 0

theorem bytesReached_eq : node.bytesReached =
    (node.fileHandles.entries.map fun entry => node.bytesBehind node.depth entry.2).sum := by
  have hentries : node.reached =
      (node.fileHandles.entries.map Prod.snd).flatMap (walk node.parts node.depth) := by
    rw [reached, List.flatMap_map]
  rw [bytesReached, hentries, sum_map_flatMap, List.map_map]
  rfl

theorem storageUsed_eq : node.storageUsed = UInt64.ofNat node.bytesReached := by
  rw [storageUsed, bytesReached_eq]
  simp only [localStorageSize_eq]
  exact (foldl_add_ofNat (fun entry : Bytes × Nat => node.bytesBehind node.depth entry.2)
    node.fileHandles.entries 0).trans (by rw [Nat.zero_add])

theorem toNat_storageUsed (hsmall : node.bytesReached < 2 ^ 64) :
    node.storageUsed.toNat = node.bytesReached := by
  rw [storageUsed_eq, UInt64.toNat_ofNat_of_lt' hsmall]

theorem sum_fileLength (h : node.SizesKnown) (list : List Nat) :
    ((list.filterMap node.backing).map node.fileLength).sum = (list.map node.fileSize).sum := by
  induction list with
  | nil => rfl
  | cons id rest ih =>
      rw [List.map_cons, List.sum_cons, List.filterMap_cons, fileSize, backing]
      cases hfile : node.localFile id with
      | none => rw [Option.map_none, ih, Nat.zero_add]
      | some file =>
          rw [Option.map_some, List.map_cons, List.sum_cons, ih]
          exact congrArg (· + _) (h id file hfile).symm

/-- The ways have the bytes of the distinct files exactly if no file with bytes is reached in
two ways. -/
theorem bytesReached_eq_iff (h : node.SizesKnown) :
    node.bytesReached = node.localFileSizes ↔ node.ReachedOnce := by
  rw [bytesReached, localFileSizes, ← sum_fileLength h]
  exact sum_eq_sum_dedup_iff node.fileLength node.backingFiles

/-- One cycle adds up the distinct files exactly if none with bytes is reached in two ways. -/
theorem countsOnce_iff (h : node.SizesKnown) (hsmall : node.bytesReached < 2 ^ 64) :
    node.CountsOnce ↔ node.ReachedOnce := by
  rw [CountsOnce, toNat_storageUsed hsmall, bytesReached_eq_iff h]

/-- Where every file is reached once a cycle is right as long as the files fit a word. -/
theorem ReachedOnce.countsOnce_iff (honce : node.ReachedOnce) (h : node.SizesKnown) :
    node.CountsOnce ↔ node.localFileSizes < 2 ^ 64 := by
  have hbytes := (bytesReached_eq_iff h).2 honce
  constructor
  · intro hcounts
    exact hcounts ▸ node.storageUsed.toNat_lt
  · intro hsmall
    rw [CountsOnce, toNat_storageUsed (hbytes ▸ hsmall), hbytes]

end Sums

end StorageNode

end GEDS
