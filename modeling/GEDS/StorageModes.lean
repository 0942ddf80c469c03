/-
The two storage modes of the Go metadata server side by side.  The tree lists the
objects below a directory, LevelDB the records whose name starts with the name of the
query; the tree tells objects apart by bucket and key, LevelDB by the joined name.
-/
import GEDS.PersistentStore

namespace GEDS

open WriteBehind

namespace ObjectRequest

def toStoreRequest : ObjectRequest → StoreRequest
  | .createObject object => .createObject object
  | .updateObject object => .updateObject object
  | .deleteObject objectID => .deleteObject objectID
  | .deleteObjectPrefix objectID => .deleteObjectPrefix objectID

/-- The effect of a request on a map from full names to objects. -/
def onNamed (named : Bytes → Option Object) : ObjectRequest → Bytes → Option Object
  | .createObject object | .updateObject object =>
      Function.update named (createObjectKey object.id) (some object)
  | .deleteObject objectID => Function.update named (createObjectKey objectID) none
  | .deleteObjectPrefix objectID => fun name =>
      if createObjectKey objectID <+: name then none else named name

/-- The object last stored under each full name and not deleted since. -/
def lastNamed (requests : List ObjectRequest) : Bytes → Option Object :=
  requests.foldl onNamed fun _ => none

/-- The names under which objects are stored are their own. -/
structure Named (stored : ObjectID → Option Object) (named : Bytes → Option Object) :
    Prop where
  stored_id : ∀ {id : ObjectID} {object : Object}, stored id = some object → object.id = id
  named_id : ∀ {name : Bytes} {object : Object}, named name = some object →
    createObjectKey object.id = name
  stored_of_named : ∀ {name : Bytes} {object : Object}, named name = some object →
    stored object.id = some object

section Named

variable {stored : ObjectID → Option Object} {named : Bytes → Option Object}

/-- Both maps forget or replace what is stored under an id. -/
theorem Named.update (h : Named stored named) (id : ObjectID) (value : Option Object)
    (hvalue : ∀ object, value = some object → object.id = id) :
    Named (Function.update stored id value)
      (Function.update named (createObjectKey id) value) := by
  refine ⟨?_, ?_, ?_⟩
  · intro other object hstored
    by_cases hother : other = id
    · subst hother
      rw [Function.update_self] at hstored
      exact hvalue object hstored
    · rw [Function.update_of_ne hother] at hstored
      exact h.stored_id hstored
  · intro name object hnamed
    by_cases hname : name = createObjectKey id
    · rw [hname, Function.update_self] at hnamed
      rw [hvalue object hnamed, hname]
    · rw [Function.update_of_ne hname] at hnamed
      exact h.named_id hnamed
  · intro name object hnamed
    by_cases hname : name = createObjectKey id
    · rw [hname, Function.update_self] at hnamed
      rw [hvalue object hnamed, Function.update_self, hnamed]
    · rw [Function.update_of_ne hname] at hnamed
      have hne : object.id ≠ id := by
        rintro rfl
        exact hname (h.named_id hnamed).symm
      rw [Function.update_of_ne hne]
      exact h.stored_of_named hnamed

theorem Named.perform (h : Named stored named) {request : ObjectRequest}
    (hplain : request.isDeletePrefix = false) :
    Named (request.onStored stored) (request.onNamed named) := by
  cases request with
  | createObject object =>
      exact h.update object.id _ fun _ heq => Option.some.inj heq ▸ rfl
  | updateObject object =>
      exact h.update object.id _ fun _ heq => Option.some.inj heq ▸ rfl
  | deleteObject objectID => exact h.update objectID none nofun
  | deleteObjectPrefix objectID => cases hplain

theorem Named.run (h : Named stored named) {requests : List ObjectRequest}
    (hplain : ∀ request ∈ requests, request.isDeletePrefix = false) :
    Named (requests.foldl onStored stored) (requests.foldl onNamed named) := by
  induction requests generalizing stored named with
  | nil => exact h
  | cons request rest ih =>
      exact ih (h.perform (hplain request List.mem_cons_self))
        fun other hother => hplain other (List.mem_cons_of_mem _ hother)

end Named

theorem named_last {requests : List ObjectRequest}
    (hplain : ∀ request ∈ requests, request.isDeletePrefix = false) :
    Named (lastStored requests) (lastNamed requests) := by
  have hnothing : Named (fun _ => none) fun _ => none := by
    constructor <;> exact fun h => by cases h
  exact hnothing.run hplain

end ObjectRequest

/-- The objects of a response. -/
def StoreResponse.results : StoreResponse → List Object
  | .objectList results _ => results
  | _ => []

namespace Database

/-- The contents of LevelDB after requests, all of them applied. -/
def applied (requests : List ObjectRequest) : Database :=
  (operations.serve StoreRequest.handle empty (requests.map ObjectRequest.toStoreRequest)).2

/-- `ListObjects` in persistent mode. -/
def listObjects (db : Database) (request : ObjectListRequest) : StoreResponse :=
  (operations.exec (StoreHandler.listObjects request) db).1

theorem find_serve {requests : List ObjectRequest}
    (hplain : ∀ request ∈ requests, request.isDeletePrefix = false) {db : Database}
    {named : Bytes → Option Object} (hfind : ∀ name, db.dbObject.find name = named name)
    (name : Bytes) :
    (operations.serve StoreRequest.handle db
        (requests.map ObjectRequest.toStoreRequest)).2.dbObject.find name =
      requests.foldl ObjectRequest.onNamed named name := by
  induction requests generalizing db named with
  | nil => exact hfind name
  | cons request rest ih =>
      have hrest := fun other hother => hplain other (List.mem_cons_of_mem request hother)
      cases request with
      | createObject object =>
          refine ih hrest fun other => ?_
          change (db.dbObject.insert _ object).find other = _
          rw [OrderedMap.find_insert, hfind, ObjectRequest.onNamed, Function.update_apply]
          split_ifs <;> rfl
      | updateObject object =>
          refine ih hrest fun other => ?_
          change (db.dbObject.insert _ object).find other = _
          rw [OrderedMap.find_insert, hfind, ObjectRequest.onNamed, Function.update_apply]
          split_ifs <;> rfl
      | deleteObject objectID =>
          refine ih hrest fun other => ?_
          change (db.dbObject.erase _).find other = _
          rw [OrderedMap.find_erase, hfind, ObjectRequest.onNamed, Function.update_apply]
          split_ifs <;> rfl
      | deleteObjectPrefix objectID => cases hplain _ List.mem_cons_self

theorem find_applied {requests : List ObjectRequest}
    (hplain : ∀ request ∈ requests, request.isDeletePrefix = false) (name : Bytes) :
    (applied requests).dbObject.find name = ObjectRequest.lastNamed requests name :=
  find_serve hplain (fun _ => rfl) name

theorem mem_getAllObjectsPrefix_iff (db : Database) (objectID : ObjectID) (object : Object) :
    object ∈ db.getAllObjectsPrefix objectID ↔
      ∃ name, db.dbObject.find name = some object ∧ createObjectKey objectID <+: name := by
  rw [getAllObjectsPrefix, iterate, range_prefixSearch]
  simp [OrderedMap.find_eq_some_iff]

/-- Without a delimiter, LevelDB lists the records whose names start with that of the
query. -/
theorem mem_applied_listObjects_iff {requests : List ObjectRequest}
    (hplain : ∀ request ∈ requests, request.isDeletePrefix = false)
    {request : ObjectListRequest} {objectID : ObjectID}
    (hquery : request.query = some (objectID, [])) (object : Object) :
    object ∈ ((applied requests).listObjects request).results ↔
      createObjectKey objectID <+: createObjectKey object.id ∧
        ObjectRequest.lastNamed requests (createObjectKey object.id) = some object := by
  have hresults : ((applied requests).listObjects request).results =
      (applied requests).getAllObjectsPrefix objectID := by
    rw [listObjects, StoreHandler.listObjects, hquery]
    rfl
  rw [hresults, mem_getAllObjectsPrefix_iff]
  constructor
  · rintro ⟨name, hfind, hpre⟩
    rw [find_applied hplain] at hfind
    obtain rfl := (ObjectRequest.named_last hplain).named_id hfind
    exact ⟨hpre, hfind⟩
  · rintro ⟨hpre, hnamed⟩
    exact ⟨_, (find_applied hplain _).trans hnamed, hpre⟩

end Database

namespace KeyValueStore

/-- Without a delimiter, the tree lists the objects of the bucket whose directories start
with the components of the query. -/
theorem mem_run_listObjects_iff {requests : List ObjectRequest}
    (hplain : ∀ request ∈ requests, request.isDeletePrefix = false)
    {request : ObjectListRequest} {objectID : ObjectID}
    (hquery : request.query = some (objectID, [])) (object : Object) :
    object ∈ ((new.run requests).listObjects request).1.1 ↔
      ObjectRequest.lastStored requests object.id = some object ∧
        object.id.bucket = objectID.bucket ∧
        getNestedPath objectID <+: PrefixTree.directoriesOf object.id.key := by
  have hfollows := new_follows.run hplain
  have hlast : requests.foldl ObjectRequest.onStored (fun _ => none) =
      ObjectRequest.lastStored requests := rfl
  rw [hlast] at hfollows
  rw [listObjects_eq, hquery]
  dsimp only
  rw [PrefixTree.mem_listObjects_iff, if_neg fun hcase => hcase.1 rfl]
  constructor
  · rintro ⟨key, hrecorded⟩
    have hpath := (hfollows.consistent _).recorded_path hrecorded
    rw [hfollows.complete _ _ _ hpath, hfollows.held] at hrecorded
    have hid := (ObjectRequest.named_last hplain).stored_id hrecorded
    rw [hid]
    exact ⟨hrecorded, rfl, hpath⟩
  · rintro ⟨hstored, hbucket, hpath⟩
    refine ⟨object.id.key, ?_⟩
    rw [hfollows.complete _ _ _ hpath, hfollows.held, ← hbucket]
    exact hstored

end KeyValueStore

end GEDS
