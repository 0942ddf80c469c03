/-
The in-memory store of the Go metadata server: a tree of directories for each
bucket.  An object is recorded in every directory on its path, and listed in
the directory it lies in.  Go iterates over maps in no fixed order; results of
such loops are lists here and their order means nothing.
-/
import GEDS.Library.Trie
import GEDS.Object

namespace GEDS

/-- The UTF-8 encodings of the runes that `unicode.IsSpace` accepts. -/
def spaces : List Bytes :=
  [[0x09], [0x0a], [0x0b], [0x0c], [0x0d], [0x20], [0xc2, 0x85], [0xc2, 0xa0],
    [0xe1, 0x9a, 0x80], [0xe2, 0x80, 0x80], [0xe2, 0x80, 0x81], [0xe2, 0x80, 0x82],
    [0xe2, 0x80, 0x83], [0xe2, 0x80, 0x84], [0xe2, 0x80, 0x85], [0xe2, 0x80, 0x86],
    [0xe2, 0x80, 0x87], [0xe2, 0x80, 0x88], [0xe2, 0x80, 0x89], [0xe2, 0x80, 0x8a],
    [0xe2, 0x80, 0xa8], [0xe2, 0x80, 0xa9], [0xe2, 0x80, 0xaf], [0xe2, 0x81, 0x9f],
    [0xe3, 0x80, 0x80]]

/-- Drop encodings from the front while one of them matches; `fuel` bounds the
number of rounds. -/
def trimStart (encodings : List Bytes) : Nat → Bytes → Bytes
  | 0, value => value
  | fuel + 1, value =>
      match encodings.find? (·.isPrefixOf value) with
      | none => value
      | some encoding => trimStart encodings fuel (value.drop encoding.length)

/-- `strings.TrimSpace`: every round drops at least one byte, so the length is
fuel enough. -/
def trimSpace (value : Bytes) : Bytes :=
  let trimmed := trimStart spaces value.length value
  (trimStart (spaces.map List.reverse) trimmed.length trimmed.reverse).reverse

/-- `getNestedPathWithKey`: one empty component at the end is dropped. -/
def getNestedPathWithKey (key : Bytes) : List Bytes :=
  let nestedPath := (trimSpace key).splitOn slash
  if nestedPath.getLast? = some [] then nestedPath.dropLast else nestedPath

def getNestedPath (objectID : ObjectID) : List Bytes :=
  getNestedPathWithKey objectID.key

/-- What a node of `PrefixTree` holds besides its children. -/
structure Directory where
  objectsInThisDirectory : AssocMap Bytes Object
  thisDirectory : Bytes
  objectsInThisAndChildDirectories : AssocMap Bytes Object

namespace Directory

def new (thisDirectory : Bytes) : Directory :=
  ⟨AssocMap.empty, thisDirectory, AssocMap.empty⟩

/-- Store an object in `objectsInThisAndChildDirectories`. -/
def record (directory : Directory) (object : Object) : Directory :=
  { directory with
    objectsInThisAndChildDirectories :=
      directory.objectsInThisAndChildDirectories.insert object.id.key object }

/-- Store an object in `objectsInThisDirectory`. -/
def put (directory : Directory) (object : Object) : Directory :=
  { directory with
    objectsInThisDirectory :=
      directory.objectsInThisDirectory.insert object.id.key object }

/-- Delete a key from `objectsInThisAndChildDirectories`. -/
def forget (directory : Directory) (key : Bytes) : Directory :=
  { directory with
    objectsInThisAndChildDirectories :=
      directory.objectsInThisAndChildDirectories.erase key }

/-- Delete a key from `objectsInThisDirectory`. -/
def remove (directory : Directory) (key : Bytes) : Directory :=
  { directory with
    objectsInThisDirectory := directory.objectsInThisDirectory.erase key }

end Directory

/-- `PrefixTree`; the children are the `childDirectories` of a node. -/
abbrev PrefixTree := Trie Bytes Directory

def makeNewPrefixTree (thisDirectory : Bytes) : PrefixTree :=
  Trie.leaf (Directory.new thisDirectory)

namespace PrefixTree

variable (tree : PrefixTree)

/-- The directories on the path of a key: all components but the last. -/
def directoriesOf (key : Bytes) : List Bytes := (getNestedPathWithKey key).dropLast

def traverseCreateObject (object : Object) : PrefixTree :=
  tree.growAlong Directory.new
    (fun last directory =>
      if last then (directory.record object).put object else directory.record object)
    (directoriesOf object.id.key)

/-- The walk stops at the first missing directory and looks there. -/
def lookUpObject (objectID : ObjectID) : Option Object :=
  (tree.deepest (directoriesOf objectID.key)).value.objectsInThisDirectory.find
    objectID.key

/-- The walk of `traverseListObjects`: it gives up at a missing directory and
collects the names of the directories it passes. -/
def walkDown (getCommonPrefix : Bool) (longestPath : Bytes) :
    List Bytes → PrefixTree → Option (Bytes × PrefixTree)
  | [], tree => some (longestPath, tree)
  | name :: rest, tree =>
      match tree.child name with
      | none => none
      | some child =>
          walkDown getCommonPrefix
            (if getCommonPrefix then longestPath ++ child.value.thisDirectory ++ [slash]
              else longestPath) rest child

def traverseListObjects (objectID : ObjectID) (getCommonPrefix : Bool) :
    List Object × List Bytes :=
  match walkDown getCommonPrefix [] (getNestedPath objectID) tree with
  | none => ([], [])
  | some (longestPath, currentNode) =>
      (currentNode.value.objectsInThisAndChildDirectories.values,
        if getCommonPrefix then
          currentNode.children.map fun entry => longestPath ++ entry.1 ++ [slash]
        else [])

def listObjects (objectID : ObjectID) (delimiter : Bytes) : List Object × List Bytes :=
  if delimiter.length = 0 then ((traverseListObjects tree objectID false).1, [])
  else if objectID.key.length = 0 then
    (tree.value.objectsInThisDirectory.values,
      tree.children.map fun entry => entry.1 ++ [slash])
  else traverseListObjects tree objectID true

/-- The object disappears from the directories on its path; where the walk
stops it is also taken out of `objectsInThisDirectory`. -/
def traverseDeleteObject (objectID : ObjectID) : PrefixTree :=
  tree.editAlong
    (fun last directory =>
      if last then (directory.forget objectID.key).remove objectID.key
      else directory.forget objectID.key)
    (directoriesOf objectID.key)

/-- Both maps of a directory lose every one of the objects. -/
def removeAll (deletedObjects : List Object) (directory : Directory) : Directory :=
  deletedObjects.foldl
    (fun current object => (current.remove object.id.key).forget object.id.key) directory

/-- The walk stops at the first missing directory, too; everything recorded
where it stops is deleted from the directories it passed. -/
def traverseDeleteObjectPrefix (objectID : ObjectID) : List Object × PrefixTree :=
  let nestedPath := getNestedPath objectID
  let deletedObjects :=
    (tree.deepest nestedPath).value.objectsInThisAndChildDirectories.values
  (deletedObjects, tree.editAlong (fun _ => removeAll deletedObjects) nestedPath)

end PrefixTree

/-- The in-memory part of `keyvaluestore.Service`. -/
structure KeyValueStore where
  buckets : AssocMap Bytes PrefixTree

/-- `protos.ObjectListRequest`; absent fields are `nil`. -/
structure ObjectListRequest where
  keyPrefix : Option ObjectID
  delimiter : Option Int32

namespace KeyValueStore

def new : KeyValueStore := ⟨AssocMap.empty⟩

variable (kv : KeyValueStore)

/-- The tree an object request works on: that of its bucket, or a new one. -/
def nestedDirectories (bucket : Bytes) : PrefixTree :=
  (kv.buckets.find bucket).getD (makeNewPrefixTree (text "root"))

/-- `newBucketIfNotExist`: the flag tells whether the bucket existed. -/
def newBucketIfNotExist (bucket : Bytes) : Bool × KeyValueStore :=
  match kv.buckets.find bucket with
  | some _ => (true, kv)
  | none =>
      (false, ⟨kv.buckets.insert bucket (makeNewPrefixTree (text "root"))⟩)

/-- Store the tree that a request left in its bucket. -/
def setNestedDirectories (bucket : Bytes) (tree : PrefixTree) : KeyValueStore :=
  ⟨kv.buckets.insert bucket tree⟩

def createBucket (bucket : Bytes) : Except Bytes Unit × KeyValueStore :=
  let created := kv.newBucketIfNotExist bucket
  if created.1 then (.error (text "bucket already exists"), created.2)
  else (.ok (), created.2)

def deleteBucket (bucket : Bytes) : Except Bytes Unit × KeyValueStore :=
  match kv.buckets.find bucket with
  | none => (.error (text "bucket already deleted"), kv)
  | some _ => (.ok (), ⟨kv.buckets.erase bucket⟩)

def listBuckets : List Bytes := kv.buckets.entries.map Prod.fst

def lookupBucket (bucket : Bytes) : Except Bytes Unit :=
  match kv.buckets.find bucket with
  | none => .error (text "bucket does not exist")
  | some _ => .ok ()

def createObject (object : Object) : KeyValueStore :=
  let kv := (kv.newBucketIfNotExist object.id.bucket).2
  kv.setNestedDirectories object.id.bucket
    ((kv.nestedDirectories object.id.bucket).traverseCreateObject object)

def updateObject (object : Object) : KeyValueStore :=
  let kv := (kv.newBucketIfNotExist object.id.bucket).2
  kv.setNestedDirectories object.id.bucket
    ((kv.nestedDirectories object.id.bucket).traverseCreateObject object)

def deleteObject (objectID : ObjectID) : KeyValueStore :=
  let kv := (kv.newBucketIfNotExist objectID.bucket).2
  kv.setNestedDirectories objectID.bucket
    ((kv.nestedDirectories objectID.bucket).traverseDeleteObject objectID)

def deleteObjectPrefix (objectID : ObjectID) : List Object × KeyValueStore :=
  let kv := (kv.newBucketIfNotExist objectID.bucket).2
  let result := (kv.nestedDirectories objectID.bucket).traverseDeleteObjectPrefix objectID
  (result.1, kv.setNestedDirectories objectID.bucket result.2)

def lookupObject (objectID : ObjectID) : Except Bytes Object × KeyValueStore :=
  let kv := (kv.newBucketIfNotExist objectID.bucket).2
  match (kv.nestedDirectories objectID.bucket).lookUpObject objectID with
  | none => (.error (text "object does not exist"), kv)
  | some object => (.ok object, kv)

def listObjects (request : ObjectListRequest) :
    (List Object × List Bytes) × KeyValueStore :=
  match request.keyPrefix with
  | none => (([], []), kv)
  | some objectID =>
      if objectID.bucket.length = 0 then (([], []), kv)
      else
        let list (delimiter : Bytes) :=
          let kv := (kv.newBucketIfNotExist objectID.bucket).2
          ((kv.nestedDirectories objectID.bucket).listObjects objectID delimiter, kv)
        match request.delimiter with
        | none => list []
        | some delimiter =>
            if delimiter = 0 then list []
            else if delimiter ≠ 0x2f then (([], []), kv)
            else list [slash]

end KeyValueStore

/-- The requests that change the objects of a bucket. -/
inductive ObjectRequest where
  | createObject (object : Object)
  | updateObject (object : Object)
  | deleteObject (objectID : ObjectID)
  | deleteObjectPrefix (objectID : ObjectID)

namespace KeyValueStore

def perform (kv : KeyValueStore) : ObjectRequest → KeyValueStore
  | .createObject object => kv.createObject object
  | .updateObject object => kv.updateObject object
  | .deleteObject objectID => kv.deleteObject objectID
  | .deleteObjectPrefix objectID => (kv.deleteObjectPrefix objectID).2

def run (kv : KeyValueStore) (requests : List ObjectRequest) : KeyValueStore :=
  requests.foldl perform kv

end KeyValueStore

end GEDS
