/-
The persistent mode of the Go metadata server.  Every request reads LevelDB itself,
and hands its changes to one of three channels; `runDBOperationsListener` applies them.
LevelDB is an ordered map, one for each kind of record.
-/
import GEDS.Library.WriteBehind
import GEDS.Path
import GEDS.PrefixTreeDelete

namespace GEDS

/-- `protos.ObjectStoreConfig` -/
structure ObjectStoreConfig where
  bucket : Bytes
  endpointUrl : Bytes
  accessKey : Bytes
  secretKey : Bytes
deriving DecidableEq

/-- `createObjectKey` -/
def createObjectKey (objectID : ObjectID) : Bytes := fullName objectID.bucket objectID.key

/-- `createObjectKeyWithBucketPrefix` -/
def createObjectKeyWithBucketPrefix (bucket : Bytes) : Bytes := bucket ++ [slash]

/-- The three databases of `db.Operations`; a `protos.Bucket` is its name. -/
structure Database where
  dbObjectStoreConfig : OrderedMap Bytes ObjectStoreConfig
  dbBucket : OrderedMap Bytes Bytes
  dbObject : OrderedMap Bytes Object

/-- The channels that `runDBOperationsListener` selects from. -/
inductive OperationsChannel where
  | objectStoreConfigChan
  | bucketChan
  | objectChan
deriving DecidableEq

/-- `db.OperationParams` with its `Type`; only the id of a deleted object is used. -/
inductive OperationParams where
  | putObjectStoreConfig (storeConfig : ObjectStoreConfig)
  | deleteObjectStoreConfig (storeConfig : ObjectStoreConfig)
  | putBucket (bucket : Bytes)
  | deleteBucket (bucket : Bytes)
  | putObject (object : Object)
  | deleteObject (objectID : ObjectID)

def OperationParams.channel : OperationParams → OperationsChannel
  | .putObjectStoreConfig _ | .deleteObjectStoreConfig _ => .objectStoreConfigChan
  | .putBucket _ | .deleteBucket _ => .bucketChan
  | .putObject _ | .deleteObject _ => .objectChan

namespace Database

def empty : Database := ⟨OrderedMap.empty, OrderedMap.empty, OrderedMap.empty⟩

/-- What the listener does with an operation.  A bucket goes with all objects whose names
start with its own. -/
def apply (db : Database) : OperationParams → Database
  | .putObjectStoreConfig storeConfig =>
      { db with
        dbObjectStoreConfig := db.dbObjectStoreConfig.insert storeConfig.bucket storeConfig }
  | .deleteObjectStoreConfig storeConfig =>
      { db with dbObjectStoreConfig := db.dbObjectStoreConfig.erase storeConfig.bucket }
  | .putBucket bucket => { db with dbBucket := db.dbBucket.insert bucket bucket }
  | .deleteBucket bucket =>
      { db with
        dbBucket := db.dbBucket.erase bucket
        dbObject := erasePrefixRange db.dbObject (createObjectKeyWithBucketPrefix bucket) }
  | .putObject object =>
      { db with dbObject := db.dbObject.insert (createObjectKey object.id) object }
  | .deleteObject objectID =>
      { db with dbObject := db.dbObject.erase (createObjectKey objectID) }

variable (db : Database)

def getAllObjectStoreConfig : List ObjectStoreConfig :=
  db.dbObjectStoreConfig.entries.map Prod.snd

def getAllBuckets : List Bytes := db.dbBucket.entries.map Prod.snd

def getObjectWithObjectID (objectQuery : ObjectID) : Option Object :=
  db.dbObject.find (createObjectKey objectQuery)

def getObjectWithStringID (objectID : Bytes) : Option Object := db.dbObject.find objectID

/-- The records of the iterator over `util.BytesPrefix`. -/
def iterate (objectQuery : ObjectID) : List (Bytes × Object) :=
  db.dbObject.range (prefixSearch db.dbObject (createObjectKey objectQuery))

def getAllObjectsPrefix (objectQuery : ObjectID) : List Object :=
  (db.iterate objectQuery).map Prod.snd

def getAllObjectsIDsPrefix (objectQuery : ObjectID) : List Bytes :=
  (db.iterate objectQuery).map Prod.fst

end Database

/-- `filterIDsAndCommonPrefix`; the common prefixes are the keys of a map. -/
def filterIDsAndCommonPrefix (objectsIDs : List Bytes) (objectQuery : ObjectID) :
    List Bytes × List Bytes :=
  let prefixLength := (getNestedPath objectQuery).length + 2
  if objectQuery.key.length = 0 then
    (objectsIDs.filter fun objectID => decide ((getNestedPathWithKey objectID).length = 2),
      (((objectsIDs.map getNestedPathWithKey).filter fun keyParts =>
        decide (2 < keyParts.length)).map fun keyParts =>
          keyParts.getD 1 [] ++ [slash]).dedup)
  else
    ([], (((objectsIDs.map getNestedPathWithKey).filter fun keyParts =>
      decide (prefixLength ≤ keyParts.length)).map fun keyParts =>
        [slash].intercalate ((keyParts.take prefixLength).drop 1) ++ [slash]).dedup)

/-- The requests of the metadata service. -/
inductive StoreRequest where
  | registerObjectStore (objectStore : ObjectStoreConfig)
  | listObjectStores
  | createBucket (bucket : Bytes)
  | deleteBucket (bucket : Bytes)
  | listBuckets
  | lookupBucket (bucket : Bytes)
  | createObject (object : Object)
  | updateObject (object : Object)
  | deleteObject (objectID : ObjectID)
  | deleteObjectPrefix (objectID : ObjectID)
  | lookupObject (objectID : ObjectID)
  | listObjects (objectListRequest : ObjectListRequest)

/-- What `mdsservice` answers. -/
inductive StoreResponse where
  | status (code : StatusCode)
  | objectStores (mappings : List ObjectStoreConfig)
  | buckets (results : List Bytes)
  | object (result : Except StatusCode Object)
  | objectList (results : List Object) (commonPrefixes : List Bytes)

/-- The code of a request in persistent mode: its reads, what it sends, its answer. -/
abbrev StoreHandler := WriteBehind.Handler Database OperationParams StoreResponse

namespace StoreHandler

open WriteBehind.Handler

/-- The answer is `OK` also for a config that exists.  Objects that `populateKVSFromS3`
finds later are created like any others. -/
def registerObjectStore (objectStore : ObjectStoreConfig) : StoreHandler :=
  read fun db =>
    match db.dbObjectStoreConfig.find objectStore.bucket with
    | some _ => answer (.status .ok)
    | none => send (.putObjectStoreConfig objectStore) (answer (.status .ok))

def listObjectStores : StoreHandler :=
  read fun db => answer (.objectStores db.getAllObjectStoreConfig)

def createBucket (bucket : Bytes) : StoreHandler :=
  read fun db =>
    match db.dbBucket.find bucket with
    | some _ => answer (.status .alreadyExists)
    | none => send (.putBucket bucket) (answer (.status .ok))

def deleteBucket (bucket : Bytes) : StoreHandler :=
  read fun db =>
    match db.dbBucket.find bucket with
    | none => answer (.status .notFound)
    | some _ => send (.deleteBucket bucket) (answer (.status .ok))

def listBuckets : StoreHandler := read fun db => answer (.buckets db.getAllBuckets)

def lookupBucket (bucket : Bytes) : StoreHandler :=
  read fun db =>
    match db.dbBucket.find bucket with
    | none => answer (.status .notFound)
    | some _ => answer (.status .ok)

def createObject (object : Object) : StoreHandler :=
  send (.putObject object) (answer (.status .ok))

def updateObject (object : Object) : StoreHandler :=
  send (.putObject object) (answer (.status .ok))

def deleteObject (objectID : ObjectID) : StoreHandler :=
  send (.deleteObject objectID) (answer (.status .ok))

/-- The loop of `DeleteObjectPrefix`. -/
def deleteEach : List Object → StoreHandler
  | [] => answer (.status .ok)
  | object :: rest => send (.deleteObject object.id) (deleteEach rest)

def deleteObjectPrefix (objectID : ObjectID) : StoreHandler :=
  read fun db => deleteEach (db.getAllObjectsPrefix objectID)

def lookupObject (objectID : ObjectID) : StoreHandler :=
  read fun db =>
    match db.getObjectWithObjectID objectID with
    | none => answer (.object (.error .notFound))
    | some object => answer (.object (.ok object))

/-- The loop of `ListObjects` over the filtered ids: one read for each. -/
def getEach (commonPrefixes : List Bytes) : List Bytes → List Object → StoreHandler
  | [], results => answer (.objectList results commonPrefixes)
  | objectID :: rest, results =>
      read fun db =>
        getEach commonPrefixes rest (results ++ (db.getObjectWithStringID objectID).toList)

def listAll (commonPrefixes : List Bytes) (objectID : ObjectID) : StoreHandler :=
  read fun db => answer (.objectList (db.getAllObjectsPrefix objectID) commonPrefixes)

def listObjects (objectListRequest : ObjectListRequest) : StoreHandler :=
  match objectListRequest.query with
  | none => answer (.objectList [] [])
  | some (objectID, delimiter) =>
      if delimiter.length = 0 then listAll [] objectID
      else
        read fun db =>
          let filtered :=
            filterIDsAndCommonPrefix (db.getAllObjectsIDsPrefix objectID) objectID
          if objectID.key.length = 0 then getEach filtered.2 filtered.1 []
          else listAll filtered.2 objectID

end StoreHandler

/-- The handler of a request. -/
def StoreRequest.handle : StoreRequest → StoreHandler
  | .registerObjectStore objectStore => StoreHandler.registerObjectStore objectStore
  | .listObjectStores => StoreHandler.listObjectStores
  | .createBucket bucket => StoreHandler.createBucket bucket
  | .deleteBucket bucket => StoreHandler.deleteBucket bucket
  | .listBuckets => StoreHandler.listBuckets
  | .lookupBucket bucket => StoreHandler.lookupBucket bucket
  | .createObject object => StoreHandler.createObject object
  | .updateObject object => StoreHandler.updateObject object
  | .deleteObject objectID => StoreHandler.deleteObject objectID
  | .deleteObjectPrefix objectID => StoreHandler.deleteObjectPrefix objectID
  | .lookupObject objectID => StoreHandler.lookupObject objectID
  | .listObjects objectListRequest => StoreHandler.listObjects objectListRequest

/-- `channelBufferSize` of package `db` -/
def PersistentStore.channelBufferSize : Nat := 10000

/-- `db.Operations` -/
def operations : WriteBehind.Backend Database OperationParams OperationsChannel where
  apply := Database.apply
  channel := OperationParams.channel
  capacity := PersistentStore.channelBufferSize

/-- The server in persistent mode, with one client and the listener. -/
abbrev PersistentStore :=
  WriteBehind.State StoreRequest Database OperationParams StoreResponse OperationsChannel

abbrev PersistentEvent := WriteBehind.Event StoreRequest OperationsChannel

namespace PersistentStore

/-- No operation waits, and no request is under way. -/
def start (db : Database) : PersistentStore := WriteBehind.State.start db

def step (s : PersistentStore) (event : PersistentEvent) : PersistentStore :=
  WriteBehind.State.step operations StoreRequest.handle s event

def run (s : PersistentStore) (events : List PersistentEvent) : PersistentStore :=
  events.foldl step s

end PersistentStore

end GEDS
