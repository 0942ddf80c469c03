/-
`MDSKVS` and `MDSKVSBucket`: the key-value store behind the C++ metadata
server and the client cache.  Buckets and containers are shared pointers, so
they live in two heaps and the maps hold references; each function below is
written over the sections its locks protect.
-/
import GEDS.Library.Heap
import GEDS.Path

namespace GEDS

/-- `MDSKVSBucket`: the name of the bucket and its containers by path. -/
structure MDSKVSBucket where
  map : OrderedMap Bytes Nat
  name : Bytes

instance : Inhabited MDSKVSBucket := ⟨⟨OrderedMap.empty, []⟩⟩

instance : Inhabited ObjectInfo := ⟨⟨[], 0, 0, none⟩⟩

/-- `MDSKVS` with the memory its shared pointers refer to. -/
structure MDSKVS where
  map : OrderedMap Bytes Nat
  buckets : Heap MDSKVSBucket
  containers : Heap ObjectInfo

/-- `"Bucket " + bucket + " does not exist."` -/
def bucketDoesNotExist (bucket : Bytes) : Status :=
  .notFoundError (text "Bucket " ++ bucket ++ text " does not exist.")

/-- `"Bucket " + bucket + " already exists."` -/
def bucketAlreadyExists (bucket : Bytes) : Status :=
  .alreadyExistsError (text "Bucket " ++ bucket ++ text " already exists.")

/-- `"Key " + key + " does not exist."` -/
def keyDoesNotExist (key : Bytes) : Status :=
  .notFoundError (text "Key " ++ key ++ text " does not exist.")

/-- `"No objects starting with " + prefix + " found."` -/
def noObjectsStartingWith (pre : Bytes) : Status :=
  .notFoundError (text "No objects starting with " ++ pre ++ text " found.")

/-- `std::string::find(delimiter, pos)`; `none` is `npos`. -/
def findFrom (name : Bytes) (delimiter : UInt8) (pos : Nat) : Option Nat :=
  ((name.drop pos).findIdx? (fun byte => decide (byte = delimiter))).map (· + pos)

namespace MDSKVSBucket

variable (kvs : MDSKVS) (self : Nat)

/-- `MDSKVSBucket::getObject` -/
def getObject (key : Bytes) : Except Status Nat :=
  match (kvs.buckets.get self).map.find key with
  | none => .error (keyDoesNotExist key)
  | some container => .ok container

/-- Store a new `_map` in the bucket. -/
def setMap (map : OrderedMap Bytes Nat) : MDSKVS :=
  { kvs with buckets := kvs.buckets.set self ⟨map, (kvs.buckets.get self).name⟩ }

/-- `MDSKVSBucket::createObject`: an existing container is replaced, not
written. -/
def createObject (obj : Object) : Status × MDSKVS :=
  let map := (kvs.buckets.get self).map.insert obj.id.key kvs.containers.next
  (.okStatus, { setMap kvs self map with
    containers := kvs.containers.alloc obj.info })

/-- The section of `updateObject` under the container's write lock. -/
def writeContainer (container : Nat) (info : ObjectInfo) : MDSKVS :=
  { kvs with containers := kvs.containers.set container info }

/-- `MDSKVSBucket::updateObject` -/
def updateObject (obj : Object) : Status × MDSKVS :=
  match getObject kvs self obj.id.key with
  | .error status => (status, kvs)
  | .ok container => (.okStatus, writeContainer kvs container obj.info)

/-- `MDSKVSBucket::deleteObject` -/
def deleteObject (key : Bytes) : Status × MDSKVS :=
  let map := (kvs.buckets.get self).map
  match map.find key with
  | none => (keyDoesNotExist key, kvs)
  | some _ => (.okStatus, setMap kvs self (map.erase key))

/-- `MDSKVSBucket::deleteObjectPrefix`.  The search reports nothing to delete
only when the range starts at the end of the map. -/
def deleteObjectPrefix (pre : Bytes) : Status × MDSKVS :=
  let map := (kvs.buckets.get self).map
  if (prefixSearch map pre).1 = map.endPos then
    (noObjectsStartingWith pre, kvs)
  else
    (.okStatus, setMap kvs self (erasePrefixRange map pre))

/-- The section of `lookup` under the container's read lock. -/
def readContainer (container : Nat) (key : Bytes) : Object :=
  ⟨⟨(kvs.buckets.get self).name, key⟩, kvs.containers.get container⟩

/-- `MDSKVSBucket::lookup` -/
def lookup (key : Bytes) : Except Status Object :=
  match getObject kvs self key with
  | .error status => .error status
  | .ok container => .ok (readContainer kvs self container key)

/-- The body of the loop in `listObjects`: the path is either cut at the first
delimiter behind the prefix, or its object is listed. -/
def listObject (prefixLength : Nat) (delimiter : UInt8)
    (state : List Object × OrderedMap Bytes Unit) (entry : Bytes × Nat) :
    List Object × OrderedMap Bytes Unit :=
  let listed := (state.1 ++ [readContainer kvs self entry.2 entry.1], state.2)
  if delimiter ≠ 0 then
    match findFrom entry.1 delimiter prefixLength with
    | some loc => (state.1, state.2.insert (entry.1.take (loc + 1)) ())
    | none => listed
  else listed

/-- `MDSKVSBucket::listObjects` -/
def listObjects (keyPrefix : Bytes) (delimiter : UInt8) : List Object × List Bytes :=
  let map := (kvs.buckets.get self).map
  let final := (map.range (prefixSearch map keyPrefix)).foldl
    (listObject kvs self keyPrefix.length delimiter) ([], OrderedMap.empty)
  (final.1, final.2.keys)

end MDSKVSBucket

namespace MDSKVS

/-- `MDSKVS::createBucket` -/
def createBucket (kvs : MDSKVS) (bucket : Bytes) : Status × MDSKVS :=
  match kvs.map.find bucket with
  | some _ => (bucketAlreadyExists bucket, kvs)
  | none => (.okStatus, { kvs with
      map := kvs.map.insert bucket kvs.buckets.next
      buckets := kvs.buckets.alloc ⟨OrderedMap.empty, bucket⟩ })

/-- `MDSKVS::MDSKVS`: the build may configure a default bucket. -/
def new (defaultBucket : Option Bytes) : MDSKVS :=
  let kvs : MDSKVS := ⟨OrderedMap.empty, Heap.empty, Heap.empty⟩
  match defaultBucket with
  | none => kvs
  | some bucket => (kvs.createBucket bucket).2

variable (kvs : MDSKVS)

/-- `MDSKVS::getBucket` -/
def getBucket (bucket : Bytes) : Except Status Nat :=
  match kvs.map.find bucket with
  | none => .error (bucketDoesNotExist bucket)
  | some ref => .ok ref

/-- `MDSKVS::deleteBucket` -/
def deleteBucket (bucket : Bytes) : Status × MDSKVS :=
  match kvs.map.find bucket with
  | none => (bucketDoesNotExist bucket, kvs)
  | some _ => (.okStatus, { kvs with map := kvs.map.erase bucket })

/-- `MDSKVS::listBuckets` -/
def listBuckets : List Bytes := kvs.map.keys

/-- `MDSKVS::bucketStatus` -/
def bucketStatus (bucket : Bytes) : Status :=
  match kvs.map.find bucket with
  | some _ => .okStatus
  | none => bucketDoesNotExist bucket

/-- `MDSKVS::createObject` -/
def createObject (obj : Object) (forceCreateBucket : Bool) : Status × MDSKVS :=
  match kvs.getBucket obj.id.bucket with
  | .ok ref => MDSKVSBucket.createObject kvs ref obj
  | .error status =>
      if !forceCreateBucket then (status, kvs)
      else
        let created := kvs.createBucket obj.id.bucket
        if !created.1.ok then created
        else
          match created.2.getBucket obj.id.bucket with
          | .error status => (status, created.2)
          | .ok ref => MDSKVSBucket.createObject created.2 ref obj

/-- `MDSKVS::updateObject` -/
def updateObject (obj : Object) : Status × MDSKVS :=
  match kvs.getBucket obj.id.bucket with
  | .error status => (status, kvs)
  | .ok ref => MDSKVSBucket.updateObject kvs ref obj

/-- `MDSKVS::deleteObject` -/
def deleteObject (id : ObjectID) : Status × MDSKVS :=
  match kvs.getBucket id.bucket with
  | .error status => (status, kvs)
  | .ok ref => MDSKVSBucket.deleteObject kvs ref id.key

/-- `MDSKVS::deleteObjectPrefix` -/
def deleteObjectPrefix (id : ObjectID) : Status × MDSKVS :=
  match kvs.getBucket id.bucket with
  | .error status => (status, kvs)
  | .ok ref => MDSKVSBucket.deleteObjectPrefix kvs ref id.key

/-- `MDSKVS::lookup` -/
def lookup (id : ObjectID) : Except Status Object :=
  match kvs.getBucket id.bucket with
  | .error status => .error status
  | .ok ref => MDSKVSBucket.lookup kvs ref id.key

/-- `MDSKVS::listObjects` -/
def listObjects (id : ObjectID) (delimiter : UInt8) :
    Except Status (List Object × List Bytes) :=
  match kvs.getBucket id.bucket with
  | .error status => .error status
  | .ok ref => .ok (MDSKVSBucket.listObjects kvs ref id.key delimiter)

end MDSKVS

/-- The calls on a store whose effects and answers are compared below. -/
inductive Call where
  | createBucket (bucket : Bytes)
  | deleteBucket (bucket : Bytes)
  | bucketStatus (bucket : Bytes)
  | createObject (obj : Object) (forceCreateBucket : Bool)
  | updateObject (obj : Object)
  | deleteObject (id : ObjectID)
  | deleteObjectPrefix (id : ObjectID)
  | lookup (id : ObjectID)

/-- What a call returns. -/
inductive Response where
  | status (value : Status)
  | object (value : Except Status Object)

/-- Run one call without interference. -/
def MDSKVS.perform (kvs : MDSKVS) : Call → Response × MDSKVS
  | .createBucket bucket => (kvs.createBucket bucket).map .status id
  | .deleteBucket bucket => (kvs.deleteBucket bucket).map .status id
  | .bucketStatus bucket => (.status (kvs.bucketStatus bucket), kvs)
  | .createObject obj forceCreateBucket =>
      (kvs.createObject obj forceCreateBucket).map .status id
  | .updateObject obj => (kvs.updateObject obj).map .status id
  | .deleteObject key => (kvs.deleteObject key).map .status id
  | .deleteObjectPrefix key => (kvs.deleteObjectPrefix key).map .status id
  | .lookup key => (.object (kvs.lookup key), kvs)

end GEDS
