/-
`GEDS::renamePrefix`: the objects that are listed below a prefix are copied and deleted,
one after the other.  The bytes of an object are in a file of this node or on another
node, which the metadata service names.
-/
import GEDS.CacheCoherence
import GEDS.CachedFileHandle

namespace GEDS

open Status

/-- How a call of the metadata service ends: without an answer, the service may or may not
have done what it was asked for. -/
inductive Reply where
  | received
  | lost (reason : Bytes) (processed : Bool)

def Reply.processed : Reply → Bool
  | .received => true
  | .lost _ processed => processed

/-- What `reopenFileHandle` meets: a lookup that does not reach the metadata service, or a
factory that does not reach the other node. -/
structure ReopenAnswer where
  lookup : Option Bytes
  factory : Option FailedStatus

/-- What the calls and the system calls return while one object is renamed; reads and
writes by their position. -/
structure RenameAnswers where
  opened : ReopenAnswer × ReopenAnswer
  retried : ReopenAnswer × ReopenAnswer
  create : CreateAnswers
  read : UInt64 → Option FailedStatus
  reopen : UInt64 → ReopenAnswer
  reread : UInt64 → Option FailedStatus
  write : UInt64 → Option WriteFault
  sealReply : Reply
  deleteReply : Reply

/-- A node with the metadata service and its cache; `infos` is what a handle without a file
knows of its object, and `held` what there is at a location. -/
structure Cluster where
  node : Node
  infos : AssocMap Nat ObjectInfo
  service : MetadataService
  held : Bytes → ObjectID → Option Bytes
  hostURI : Bytes
  cacheBlockSize : UInt64
  pubSubEnabled : Bool

/-- `getPath` of an object -/
def ObjectID.path (id : ObjectID) : Bytes := getPath id.bucket id.key

namespace Cluster

section Open

variable (c : Cluster)

/-- `MetadataService::lookup` -/
def lookup (id : ObjectID) (invalidate : Bool) (failure : Option Bytes) :
    Except Status Object × Cluster :=
  match failure with
  | none =>
      let looked := c.service.lookup id invalidate
      (looked.1, { c with service := looked.2 })
  | some reason =>
      let unreached := unavailableError (text "Unable to execute Lookup command: " ++ reason)
      if invalidate then (.error unreached, c)
      else
        match c.service.cache.lookup id with
        | .ok object => (.ok object, c)
        | .error _ => (.error unreached, c)

/-- The location has the form of another node or of the object store. -/
def isKnownLocation (location : Bytes) : Bool :=
  (text "geds://").isPrefixOf location || (text "s3://").isPrefixOf location

/-- `GEDS::reopenFileHandle` with `invalidate`; the new handle has the info that was found. -/
def reopenInvalidated (id : ObjectID) (answer : ReopenAnswer) :
    Except Status ObjectInfo × Cluster :=
  let looked := c.lookup id true answer.lookup
  match looked.1 with
  | .error status => (.error status, looked.2)
  | .ok object =>
      if isKnownLocation object.info.location then
        match answer.factory with
        | some status => (.error status.val, looked.2)
        | none => (.ok object.info, looked.2)
      else
        (.error (unknownError (text "The remote location format " ++ object.info.location ++
          text " is not known.")), looked.2)

/-- `GEDS::reopenFileHandle` without `invalidate`: if the place cannot be reached, the
metadata service is asked again. -/
def reopenFileHandle (id : ObjectID) (answers : ReopenAnswer × ReopenAnswer) :
    Except Status ObjectInfo × Cluster :=
  let looked := c.lookup id false answers.1.lookup
  match looked.1 with
  | .error status => (.error status, looked.2)
  | .ok object =>
      if isKnownLocation object.info.location then
        match answers.1.factory with
        | some _ => looked.2.reopenInvalidated id answers.2
        | none => (.ok object.info, looked.2)
      else
        (.error (unknownError (text "The remote location format " ++ object.info.location ++
          text " is not known.")), looked.2)

/-- `GEDS::openAsFileHandle` -/
def openAsFileHandle (id : ObjectID) (answers : ReopenAnswer × ReopenAnswer) :
    Except Status Nat × Cluster :=
  if c.node.checkServiceRunning.ok then
    if (isValid id.bucket id.key).ok then
      match c.node.fileHandles.get id.path with
      | some handle => (.ok handle, { c with node := c.node.addReference handle })
      | none =>
          let reopened := c.reopenFileHandle id answers
          match reopened.1 with
          | .error status => (.error status, reopened.2)
          | .ok info =>
              let added := reopened.2.node.addHandle id.bucket id.key none
              let inserted := added.2.fileHandles.insertOrExists id.path added.1
              (.ok inserted.1,
                { reopened.2 with
                  node := { added.2 with fileHandles := inserted.2 }
                  infos := reopened.2.infos.insert added.1 info })
    else (.error (isValid id.bucket id.key), c)
  else (.error c.node.checkServiceRunning, c)

/-- `GEDS::open`, with the answers for each attempt that may be made.  An invalid handle is
removed from the registry. -/
def openFrom (id : ObjectID) :
    List (ReopenAnswer × ReopenAnswer) → Cluster → Except Status Nat × Cluster
  | [], c =>
      (.error (unavailableError (text "The file " ++ id.path ++ text " is invalid.")), c)
  | answers :: attempts, c =>
      let found := c.openAsFileHandle id answers
      match found.1 with
      | .error status => (.error status, found.2)
      | .ok handle =>
          if found.2.node.isValidHandle handle then
            (.ok handle,
              { found.2 with node := (found.2.node.openFile handle).dropReference handle })
          else
            let kept := (found.2.node.fileHandles.removeIf id.path fun check =>
              decide (handle = check)).2
            let opened := openFrom id attempts
              { found.2 with node := { found.2.node with fileHandles := kept } }
            (opened.1, { opened.2 with node := opened.2.node.dropReference handle })

end Open

section Copy

variable (id : ObjectID) (answers : RenameAnswers) (source dest : Nat)

/-- `GEDSRemoteFileHandle::readBytes` -/
def readRemote (c : Cluster) (position length : UInt64) (failure : Option FailedStatus) :
    Except Status Bytes :=
  if length = 0 then .ok []
  else
    match failure with
    | some status => .error status.val
    | none =>
        match (c.infos.find source).bind fun info => c.held info.location id with
        | none => .error (notFoundError [])
        | some bytes => .ok (slice bytes position.toNat length.toNat)

/-- `readBytes` of the file that is copied: a local one, or a
`GEDSRelocatableFileHandle`, which opens the remote one anew if a read fails. -/
def readBytes (c : Cluster) (position length : UInt64) : Except Status Bytes × Cluster :=
  match c.node.localFile source with
  | some file =>
      match answers.read position with
      | some status => (.error status.val, c)
      | none => (file.readBytes c.node.files position length, c)
  | none =>
      match c.readRemote id source position length (answers.read position) with
      | .ok bytes => (.ok bytes, c)
      | .error _ =>
          let reopened := c.reopenInvalidated id (answers.reopen position)
          match reopened.1 with
          | .error status => (.error status, reopened.2)
          | .ok info =>
              let c := { reopened.2 with infos := reopened.2.infos.insert source info }
              (c.readRemote id source position length (answers.reread position), c)

/-- `size` of the file that is copied -/
def size (c : Cluster) : UInt64 :=
  match c.node.localFile source with
  | some file => file.size
  | none => ((c.infos.find source).map (·.size)).getD 0

/-- The loop of `GEDSFileHandle::downloadRange`, which ends if a read finds nothing. -/
def downloadRange (srcPosition length destPosition : UInt64) :
    Nat → UInt64 → Cluster → Option (Except Status UInt64 × Cluster)
  | 0, _, _ => none
  | fuel + 1, count, c =>
      if source = dest then
        some (.error ⟨.invalidArgument, text "Source and target are the same!"⟩, c)
      else
        let read := c.readBytes id answers source (srcPosition + count)
          (min (length - count) c.cacheBlockSize)
        match read.1 with
        | .error status => some (.error status, read.2)
        | .ok bytes =>
            if bytes = [] then some (.ok count, read.2)
            else
              let written := read.2.node.writeBytes dest bytes (destPosition + count)
                (answers.write (destPosition + count))
              let c := { read.2 with node := written.2 }
              if written.1.ok = false then some (.error written.1, c)
              else
                let count := count + UInt64.ofNat bytes.length
                if count < length then
                  downloadRange srcPosition length destPosition fuel count c
                else some (.ok count, c)

/-- The loop of `GEDSFileHandle::download`: it goes on as long as there are bytes left, also
if nothing was read. -/
def download (totalSize : UInt64) : Nat → UInt64 → Cluster → Option (Status × Cluster)
  | 0, _, _ => none
  | fuel + 1, pos, c =>
      let length := min c.cacheBlockSize (totalSize - pos)
      match c.downloadRange id answers source dest pos length pos (fuel + 1) 0 with
      | none => none
      | some (.error status, c) => some (status, c)
      | some (.ok count, c) =>
          if pos + count < totalSize then download totalSize fuel (pos + count) c
          else some (okStatus, c)

/-- `GEDS::seal` for a handle that was not sealed before -/
def sealFile (c : Cluster) (reply : Reply) : Status × Cluster :=
  if c.node.checkServiceRunning.ok then
    let size := c.size dest
    let object : Object := ⟨id, ⟨c.hostURI, size, size, none⟩⟩
    let c := if reply.processed then { c with service := c.service.createObject object } else c
    match reply with
    | .received => (okStatus, c)
    | .lost reason _ =>
        (unavailableError (text "Unable to execute Create command: " ++ reason), c)
  else (c.node.checkServiceRunning, c)

end Copy

section Rename

variable (answers : RenameAnswers) (c : Cluster)

/-- The destructor of `GEDSFile` -/
def closeFile (handle : Nat) : Cluster := { c with node := c.node.closeFile handle }

/-- `GEDS::copy` -/
def copy (fuel : Nat) (source dest : ObjectID) : Option (Status × Cluster) :=
  let opened := openFrom source [answers.opened, answers.retried] c
  match opened.1 with
  | .error status => some (status, opened.2)
  | .ok src =>
      let created := opened.2.node.create dest.bucket dest.key false answers.create
      let c := { opened.2 with node := created.2 }
      match created.1 with
      | .error status => some (status, c.closeFile src)
      | .ok dst =>
          match c.download source answers src dst (c.size src) fuel 0 with
          | none => none
          | some (status, c) =>
              if status.ok then
                let sealed := c.sealFile dest dst answers.sealReply
                some (sealed.1, (sealed.2.closeFile dst).closeFile src)
              else some (status, (c.closeFile dst).closeFile src)

/-- `GEDS::deleteObject`; the cache forgets the object in any case. -/
def deleteObject (id : ObjectID) (reply : Reply) : Status × Cluster :=
  let status := match reply with
    | .received =>
        if (c.service.server.objects.find id).isSome then okStatus else notFoundError []
    | .lost reason _ =>
        unavailableError (text "Unable to execute Delete command: " ++ reason)
  let service := c.service.deleteObject id
  let deleted := c.node.deleteObject id.bucket id.key status
  (deleted.1,
    { c with
      node := deleted.2
      service := if reply.processed then service else { service with server := c.service.server } })

/-- `GEDS::rename` -/
def rename (fuel : Nat) (source dest : ObjectID) : Option (Status × Cluster) :=
  match c.copy answers fuel source dest with
  | none => none
  | some (status, c) =>
      if status.ok then some (c.deleteObject source answers.deleteReply) else some (status, c)

end Rename

section RenamePrefix

/-- `MetadataService::listPrefix` without a delimiter -/
def listPrefix (c : Cluster) (id : ObjectID) (failure : Option Bytes) :
    Except Status (List Object) × Cluster :=
  match failure with
  | some reason =>
      (.error (unavailableError (text "Unable to execute List command: " ++ reason)), c)
  | none =>
      let listed := c.service.listPrefix id 0
      (.ok listed.1.1, { c with service := listed.2 })

/-- `MetadataService::listPrefixFromCache` without a delimiter -/
def listPrefixFromCache (c : Cluster) (id : ObjectID) (failure : Option Bytes) :
    Except Status (List Object) × Cluster :=
  match c.service.cache.listObjects id 0 with
  | .ok listing => (.ok listing.1, c)
  | .error _ => c.listPrefix id failure

/-- `GEDS::list` without a delimiter: the keys, in order.  There are no directories. -/
def list (c : Cluster) (bucket keyPrefix : Bytes) (failure : Option Bytes) :
    Except Status (List Bytes) × Cluster :=
  let listed :=
    if c.pubSubEnabled then c.listPrefixFromCache ⟨bucket, keyPrefix⟩ failure
    else c.listPrefix ⟨bucket, keyPrefix⟩ failure
  match listed.1 with
  | .error status => (.error status, listed.2)
  | .ok objects =>
      let result := objects.foldl (fun result object => result.insert object.id.key ())
        (OrderedMap.empty : OrderedMap Bytes Unit)
      let node := listed.2.node
      (.ok result.keys,
        { listed.2 with
          node := { node with knownBuckets := node.knownBuckets.insert bucket } })

/-- `destKey + key.substr(srcKey.size())` -/
def newKey (srcKey destKey key : Bytes) : Bytes := destKey ++ key.drop srcKey.length

/-- The loop of `GEDS::renamePrefix`, which ends with the first failure. -/
def renameEach (fuel : Nat) (srcBucket srcKey destBucket destKey : Bytes)
    (answers : Bytes → RenameAnswers) : List Bytes → Cluster → Option (Status × Cluster)
  | [], c => some (okStatus, c)
  | key :: rest, c =>
      match c.rename (answers key) fuel ⟨srcBucket, key⟩
        ⟨destBucket, newKey srcKey destKey key⟩ with
      | none => none
      | some (status, c) =>
          if status.ok then renameEach fuel srcBucket srcKey destBucket destKey answers rest c
          else some (status, c)

/-- `GEDS::renamePrefix`, with `fuel` rounds for each download; `failure` is that of the
list. -/
def renamePrefix (c : Cluster) (fuel : Nat) (srcBucket srcKey destBucket destKey : Bytes)
    (failure : Option Bytes) (answers : Bytes → RenameAnswers) : Option (Status × Cluster) :=
  let listed := c.list srcBucket srcKey failure
  match listed.1 with
  | .error status => some (status, listed.2)
  | .ok keys => renameEach fuel srcBucket srcKey destBucket destKey answers keys listed.2

end RenamePrefix

end Cluster

end GEDS
