/-
Runs of the persistent mode.  The channels keep their own order and are emptied in
any order, so a bucket that is deleted and an object that is put below it may change
places; and a request sees nothing of what still waits.
-/
import GEDS.PersistentStore

namespace GEDS

open WriteBehind

namespace OperationParams

/-- One deletes a bucket and the other puts an object below it: the order matters. -/
def Conflict : OperationParams → OperationParams → Prop
  | .deleteBucket bucket, .putObject object =>
      createObjectKeyWithBucketPrefix bucket <+: createObjectKey object.id
  | .putObject object, .deleteBucket bucket =>
      createObjectKeyWithBucketPrefix bucket <+: createObjectKey object.id
  | _, _ => False

instance : ∀ first second : OperationParams, Decidable (first.Conflict second)
  | .deleteBucket _, .putObject _ | .putObject _, .deleteBucket _ =>
      inferInstanceAs (Decidable (_ <+: _))
  | .deleteBucket _, .putObjectStoreConfig _ | .deleteBucket _, .deleteObjectStoreConfig _
  | .deleteBucket _, .putBucket _ | .deleteBucket _, .deleteBucket _
  | .deleteBucket _, .deleteObject _ | .putObject _, .putObjectStoreConfig _
  | .putObject _, .deleteObjectStoreConfig _ | .putObject _, .putBucket _
  | .putObject _, .putObject _ | .putObject _, .deleteObject _
  | .putObjectStoreConfig _, _ | .deleteObjectStoreConfig _, _ | .putBucket _, _
  | .deleteObject _, _ => isFalse id

theorem erase_erasePrefixRange (table : OrderedMap Bytes Object) (name pre : Bytes) :
    erasePrefixRange (table.erase name) pre = (erasePrefixRange table pre).erase name := by
  apply OrderedMap.ext_find
  intro other
  simp only [find_erasePrefixRange, OrderedMap.find_erase]
  split_ifs <;> rfl

theorem insert_erasePrefixRange (table : OrderedMap Bytes Object) {name pre : Bytes}
    (hnot : ¬ pre <+: name) (object : Object) :
    erasePrefixRange (table.insert name object) pre =
      (erasePrefixRange table pre).insert name object := by
  apply OrderedMap.ext_find
  intro other
  simp only [find_erasePrefixRange, OrderedMap.find_insert]
  by_cases hname : other = name
  · simp [hname, hnot]
  · simp [hname]

/-- Operations of different channels commute unless they conflict. -/
theorem commutes_of_not_conflict {first second : OperationParams}
    (hchannel : first.channel ≠ second.channel) (hconflict : ¬ first.Conflict second) :
    operations.Commutes first second := by
  intro db
  change (db.apply first).apply second = (db.apply second).apply first
  cases first with
  | putObjectStoreConfig storeConfig => cases second <;> first | rfl | exact absurd rfl hchannel
  | deleteObjectStoreConfig storeConfig =>
      cases second <;> first | rfl | exact absurd rfl hchannel
  | putBucket bucket => cases second <;> first | rfl | exact absurd rfl hchannel
  | deleteBucket bucket =>
      cases second with
      | putObjectStoreConfig storeConfig => rfl
      | deleteObjectStoreConfig storeConfig => rfl
      | putBucket other => exact absurd rfl hchannel
      | deleteBucket other => exact absurd rfl hchannel
      | putObject object =>
          simp only [Database.apply, insert_erasePrefixRange _ hconflict]
      | deleteObject objectID => simp only [Database.apply, erase_erasePrefixRange]
  | putObject object =>
      cases second with
      | putObjectStoreConfig storeConfig => rfl
      | deleteObjectStoreConfig storeConfig => rfl
      | putBucket other => rfl
      | deleteBucket other =>
          simp only [Database.apply, insert_erasePrefixRange _ hconflict]
      | putObject other => exact absurd rfl hchannel
      | deleteObject objectID => exact absurd rfl hchannel
  | deleteObject objectID =>
      cases second with
      | putObjectStoreConfig storeConfig => rfl
      | deleteObjectStoreConfig storeConfig => rfl
      | putBucket other => rfl
      | deleteBucket other => simp only [Database.apply, erase_erasePrefixRange]
      | putObject other => exact absurd rfl hchannel
      | deleteObject other => exact absurd rfl hchannel

end OperationParams

namespace StoreRequest

/-- What a request changes when it is acknowledged, for those that change one thing. -/
def effect : StoreRequest → Option OperationParams
  | .createBucket bucket => some (.putBucket bucket)
  | .deleteBucket bucket => some (.deleteBucket bucket)
  | .createObject object => some (.putObject object)
  | .updateObject object => some (.putObject object)
  | .deleteObject objectID => some (.deleteObject objectID)
  | _ => none

/-- What a request can send. -/
def MaySend : StoreRequest → OperationParams → Prop
  | .registerObjectStore objectStore, operation => operation = .putObjectStoreConfig objectStore
  | .deleteObjectPrefix _, operation => ∃ objectID, operation = .deleteObject objectID
  | request, operation => request.effect = some operation

theorem deleteEach_sends {objects : List Object} {operation : OperationParams}
    (h : (StoreHandler.deleteEach objects).Sends operation) :
    ∃ objectID, operation = .deleteObject objectID := by
  induction objects with
  | nil => cases h
  | cons object rest ih =>
      cases h with
      | here => exact ⟨_, rfl⟩
      | later first hnext => exact ih hnext

theorem getEach_not_sends {commonPrefixes objectsIDs : List Bytes} {results : List Object}
    {operation : OperationParams} :
    ¬ (StoreHandler.getEach commonPrefixes objectsIDs results).Sends operation := by
  induction objectsIDs generalizing results with
  | nil => exact nofun
  | cons objectID rest ih =>
      intro h
      cases h with
      | read db hnext => exact ih hnext

theorem listAll_not_sends {commonPrefixes : List Bytes} {objectID : ObjectID}
    {operation : OperationParams} :
    ¬ (StoreHandler.listAll commonPrefixes objectID).Sends operation := by
  intro h
  cases h with
  | read db hnext => cases hnext

theorem listObjects_not_sends {request : ObjectListRequest} {operation : OperationParams} :
    ¬ (StoreHandler.listObjects request).Sends operation := by
  rw [StoreHandler.listObjects]
  cases request.query with
  | none => exact nofun
  | some query =>
      dsimp only
      split_ifs
      · exact listAll_not_sends
      · rintro ⟨db, hnext⟩
        exact getEach_not_sends hnext
      · rintro ⟨db, hnext⟩
        exact listAll_not_sends hnext

theorem sends_single {operation sent : OperationParams} {response : StoreResponse}
    (h : Handler.Sends (.send operation (.answer response) : StoreHandler) sent) :
    sent = operation := by
  cases h with
  | here => rfl
  | later first hlater => cases hlater

theorem maySend_of_sends {request : StoreRequest} {operation : OperationParams}
    (h : request.handle.Sends operation) : request.MaySend operation := by
  cases request with
  | registerObjectStore objectStore =>
      obtain ⟨db, hnext⟩ := h
      dsimp only at hnext
      split at hnext
      · cases hnext
      · exact sends_single hnext
  | listObjectStores => obtain ⟨db, ⟨⟩⟩ := h
  | createBucket bucket =>
      obtain ⟨db, hnext⟩ := h
      dsimp only at hnext
      split at hnext
      · cases hnext
      · exact congrArg some (sends_single hnext).symm
  | deleteBucket bucket =>
      obtain ⟨db, hnext⟩ := h
      dsimp only at hnext
      split at hnext
      · cases hnext
      · exact congrArg some (sends_single hnext).symm
  | listBuckets => obtain ⟨db, ⟨⟩⟩ := h
  | lookupBucket bucket =>
      obtain ⟨db, hnext⟩ := h
      dsimp only at hnext
      split at hnext <;> cases hnext
  | createObject object => exact congrArg some (sends_single h).symm
  | updateObject object => exact congrArg some (sends_single h).symm
  | deleteObject objectID => exact congrArg some (sends_single h).symm
  | deleteObjectPrefix objectID =>
      obtain ⟨db, hnext⟩ := h
      exact deleteEach_sends hnext
  | lookupObject objectID =>
      obtain ⟨db, hnext⟩ := h
      dsimp only at hnext
      split at hnext <;> cases hnext
  | listObjects request => exact absurd h listObjects_not_sends

/-- The operations of one request go to one channel. -/
theorem sends_oneChannel (request : StoreRequest) {first second : OperationParams}
    (hfirst : request.handle.Sends first) (hsecond : request.handle.Sends second) :
    operations.channel first = operations.channel second := by
  have hmayFirst := maySend_of_sends hfirst
  have hmaySecond := maySend_of_sends hsecond
  cases request with
  | registerObjectStore objectStore => rw [hmayFirst, hmaySecond]
  | deleteObjectPrefix objectID =>
      obtain ⟨_, rfl⟩ := hmayFirst
      obtain ⟨_, rfl⟩ := hmaySecond
      rfl
  | listObjectStores => cases hmayFirst
  | createBucket bucket => rw [Option.some.inj (hmayFirst.symm.trans hmaySecond)]
  | deleteBucket bucket => rw [Option.some.inj (hmayFirst.symm.trans hmaySecond)]
  | listBuckets => cases hmayFirst
  | lookupBucket bucket => cases hmayFirst
  | createObject object => rw [Option.some.inj (hmayFirst.symm.trans hmaySecond)]
  | updateObject object => rw [Option.some.inj (hmayFirst.symm.trans hmaySecond)]
  | deleteObject objectID => rw [Option.some.inj (hmayFirst.symm.trans hmaySecond)]
  | lookupObject objectID => cases hmayFirst
  | listObjects request => cases hmayFirst

/-- An acknowledged request has sent its effect. -/
theorem ends_effect {request : StoreRequest} {effect : OperationParams}
    (heffect : request.effect = some effect) {sent : List OperationParams}
    (h : request.handle.Ends sent (.status .ok)) : sent = [effect] := by
  have hsingle : ∀ {operation : OperationParams},
      Handler.Ends (.send operation (.answer (.status .ok)) : StoreHandler) sent (.status .ok) →
      sent = [operation] := by
    intro operation hends
    cases hends with
    | send _ hnext =>
        cases hnext
        rfl
  cases request with
  | createBucket bucket =>
      obtain rfl := Option.some.inj heffect
      obtain ⟨db, hnext⟩ := h
      dsimp only at hnext
      split at hnext
      · cases hnext
      · exact hsingle hnext
  | deleteBucket bucket =>
      obtain rfl := Option.some.inj heffect
      obtain ⟨db, hnext⟩ := h
      dsimp only at hnext
      split at hnext
      · cases hnext
      · exact hsingle hnext
  | createObject object =>
      obtain rfl := Option.some.inj heffect
      exact hsingle h
  | updateObject object =>
      obtain rfl := Option.some.inj heffect
      exact hsingle h
  | deleteObject objectID =>
      obtain rfl := Option.some.inj heffect
      exact hsingle h
  | registerObjectStore objectStore => cases heffect
  | listObjectStores => cases heffect
  | listBuckets => cases heffect
  | lookupBucket bucket => cases heffect
  | deleteObjectPrefix objectID => cases heffect
  | lookupObject objectID => cases heffect
  | listObjects request => cases heffect

end StoreRequest

namespace PersistentStore

/-- Everything that waits in the channels. -/
def waiting (s : PersistentStore) : List OperationParams :=
  s.queues .objectStoreConfigChan ++ s.queues .bucketChan ++ s.queues .objectChan

theorem mem_waiting {s : PersistentStore} {channel : OperationsChannel}
    {operation : OperationParams} (hmem : operation ∈ s.queues channel) :
    operation ∈ s.waiting := by
  simp only [waiting, List.mem_append]
  cases channel with
  | objectStoreConfigChan => exact Or.inl (Or.inl hmem)
  | bucketChan => exact Or.inl (Or.inr hmem)
  | objectChan => exact Or.inr hmem

/-- A bucket is not deleted while the put of an object below it waits, and no object is
put while the deletion of a bucket above it waits. -/
def InOrder (s : PersistentStore) (request : StoreRequest) : Prop :=
  match request.effect with
  | none => True
  | some effect => ∀ operation ∈ s.waiting, ¬ operation.Conflict effect

instance (s : PersistentStore) (request : StoreRequest) : Decidable (s.InOrder request) :=
  match h : request.effect with
  | none => isTrue (by simp [InOrder, h])
  | some effect =>
      decidable_of_iff (∀ operation ∈ s.waiting, ¬ operation.Conflict effect)
        (by simp [InOrder, h])

theorem InOrder.ordered {s : PersistentStore} {request : StoreRequest} (h : s.InOrder request) :
    s.Ordered operations StoreRequest.handle request := by
  intro sent hsends channel other hmem hchannel
  apply OperationParams.commutes_of_not_conflict hchannel
  have hmay := StoreRequest.maySend_of_sends hsends
  have heffect : request.effect = some sent → ¬ other.Conflict sent := by
    intro heq
    rw [InOrder, heq] at h
    exact h other (mem_waiting hmem)
  cases request with
  | registerObjectStore objectStore =>
      rw [hmay]
      cases other <;> exact id
  | deleteObjectPrefix objectID =>
      obtain ⟨deleted, rfl⟩ := hmay
      cases other <;> exact id
  | listObjectStores => exact heffect hmay
  | createBucket bucket => exact heffect hmay
  | deleteBucket bucket => exact heffect hmay
  | listBuckets => exact heffect hmay
  | lookupBucket bucket => exact heffect hmay
  | createObject object => exact heffect hmay
  | updateObject object => exact heffect hmay
  | deleteObject objectID => exact heffect hmay
  | lookupObject objectID => exact heffect hmay
  | listObjects request => exact heffect hmay

theorem sent_eq {s : PersistentStore} (hidle : s.active = none)
    (hhandled : s.Handled StoreRequest.handle)
    (hrequests : ∀ answered ∈ s.history, answered.request.effect.isSome)
    (hacknowledged : ∀ answered ∈ s.history, answered.response = .status .ok) :
    s.sent = s.history.filterMap fun answered => answered.request.effect := by
  have hsent : ∀ answered ∈ s.history, answered.sent = answered.request.effect.toList := by
    intro answered hmem
    obtain ⟨effect, heffect⟩ := Option.isSome_iff_exists.1 (hrequests answered hmem)
    have hends := hhandled.answered answered hmem
    rw [hacknowledged answered hmem] at hends
    rw [StoreRequest.ends_effect heffect hends, heffect]
    rfl
  rw [State.sent, hidle, Option.map_none, Option.getD_none, List.append_nil,
    List.filterMap_eq_flatMap_toList]
  exact List.flatMap_congr hsent

/-- In every run in which no bucket deletion and no put below the bucket wait together,
the contents of LevelDB, once the channels are empty, are those of the acknowledged
requests in the order they were issued. -/
theorem run_contents (db : Database) (events : List PersistentEvent)
    (hrequests : ∀ answered ∈ ((start db).run events).history, answered.request.effect.isSome)
    (hacknowledged : ∀ answered ∈ ((start db).run events).history,
      answered.response = .status .ok)
    (hidle : ((start db).run events).active = none)
    (hdrained : ((start db).run events).waiting = [])
    (hordered : Throughout step (State.OnRequest InOrder) (start db) events) :
    ((start db).run events).store =
      (((start db).run events).history.filterMap fun answered =>
        answered.request.effect).foldl Database.apply db := by
  have hsteps : Throughout (State.step operations StoreRequest.handle)
      (State.OnRequest (State.Ordered operations StoreRequest.handle)) (State.start db) events :=
    hordered.mono fun s event hevent => hevent.mono fun request => InOrder.ordered
  have hempty : ∀ channel, ((start db).run events).queues channel = [] := by
    intro channel
    rw [List.eq_nil_iff_forall_not_mem]
    intro operation hmem
    exact List.not_mem_nil (hdrained ▸ mem_waiting hmem)
  have hstore := State.run_drained StoreRequest.sends_oneChannel db hsteps hempty
  have hhandled : ((start db).run events).Handled StoreRequest.handle :=
    State.run_handled db events
  rw [← sent_eq hidle hhandled hrequests hacknowledged]
  exact hstore

namespace Sample

def data : Bytes := text "data"

def object : Object := ⟨⟨data, text "a"⟩, ⟨text "geds://node", 1, 1, none⟩⟩

/-- A request with all the steps of its handler. -/
def issue (request : StoreRequest) (steps : Nat) : List PersistentEvent :=
  .request request :: List.replicate steps .proceed

def created : List PersistentEvent :=
  issue (.createBucket data) 3 ++ [.listen .bucketChan]

/-- The bucket is deleted and an object is put into it; the listener applies the deletion
first. -/
def inOrder : List PersistentEvent :=
  created ++ issue (.deleteBucket data) 3 ++ [.listen .bucketChan] ++
    issue (.createObject object) 2 ++ [.listen .objectChan]

/-- The same requests; the listener picks the channel of the objects first. -/
def reordered : List PersistentEvent :=
  created ++ issue (.deleteBucket data) 3 ++ issue (.createObject object) 2 ++
    [.listen .objectChan, .listen .bucketChan]

/-- The requests of both runs, all acknowledged. -/
def history : List (Answered StoreRequest OperationParams StoreResponse) :=
  [⟨.createBucket data, [.putBucket data], .status .ok⟩,
    ⟨.deleteBucket data, [.deleteBucket data], .status .ok⟩,
    ⟨.createObject object, [.putObject object], .status .ok⟩]

theorem history_effects : ∀ answered ∈ history, answered.request.effect.isSome := by
  decide

theorem history_acknowledged : ∀ answered ∈ history, answered.response = .status .ok := by
  intro answered hmem
  simp only [history, List.mem_cons, List.not_mem_nil, or_false] at hmem
  rcases hmem with rfl | rfl | rfl <;> rfl

theorem inOrder_contents :
    ((start Database.empty).run inOrder).store.getObjectWithObjectID object.id = some object ∧
      ((start Database.empty).run inOrder).store =
        (((start Database.empty).run inOrder).history.filterMap fun answered =>
          answered.request.effect).foldl Database.apply Database.empty := by
  have hhistory : ((start Database.empty).run inOrder).history = history := rfl
  refine ⟨by rfl, run_contents Database.empty inOrder ?_ ?_ rfl rfl (by decide)⟩
  · rw [hhistory]
    exact history_effects
  · rw [hhistory]
    exact history_acknowledged

/-- The object is lost, although its creation came last. -/
theorem reordered_contents :
    (∀ answered ∈ ((start Database.empty).run reordered).history,
        answered.request.effect.isSome ∧ answered.response = .status .ok) ∧
      ((start Database.empty).run reordered).active = none ∧
      ((start Database.empty).run reordered).waiting = [] ∧
      ((start Database.empty).run reordered).store ≠
        (((start Database.empty).run reordered).history.filterMap fun answered =>
          answered.request.effect).foldl Database.apply Database.empty := by
  have hhistory : ((start Database.empty).run reordered).history = history := rfl
  refine ⟨?_, rfl, rfl, fun hsame => ?_⟩
  · rw [hhistory]
    exact fun answered hmem => ⟨history_effects answered hmem, history_acknowledged answered hmem⟩
  · have hlost : ((start Database.empty).run reordered).store.getObjectWithObjectID object.id =
        none := rfl
    rw [hsame, hhistory] at hlost
    cases hlost

end Sample

end PersistentStore

namespace OperationParams

/-- The operation changes what is stored under a name. -/
def TouchesName (name : Bytes) : OperationParams → Prop
  | .putObject object => createObjectKey object.id = name
  | .deleteObject objectID => createObjectKey objectID = name
  | .deleteBucket bucket => createObjectKeyWithBucketPrefix bucket <+: name
  | _ => False

/-- The operation may change what is stored below a prefix. -/
def TouchesPrefix (pre : Bytes) : OperationParams → Prop
  | .putObject object => pre <+: createObjectKey object.id
  | .deleteObject objectID => pre <+: createObjectKey objectID
  | .deleteBucket bucket =>
      pre <+: createObjectKeyWithBucketPrefix bucket ∨
        createObjectKeyWithBucketPrefix bucket <+: pre
  | _ => False

def TouchesBucket (bucket : Bytes) : OperationParams → Prop
  | .putBucket other | .deleteBucket other => other = bucket
  | _ => False

def TouchesObjectStore (bucket : Bytes) : OperationParams → Prop
  | .putObjectStoreConfig storeConfig | .deleteObjectStoreConfig storeConfig =>
      storeConfig.bucket = bucket
  | _ => False

theorem TouchesName.touchesPrefix {name pre : Bytes} {operation : OperationParams}
    (hpre : pre <+: name) (h : operation.TouchesName name) : operation.TouchesPrefix pre := by
  cases operation with
  | putObject object =>
      obtain rfl := h
      exact hpre
  | deleteObject objectID =>
      obtain rfl := h
      exact hpre
  | deleteBucket bucket => exact List.prefix_or_prefix_of_prefix hpre h
  | putObjectStoreConfig storeConfig => exact h
  | deleteObjectStoreConfig storeConfig => exact h
  | putBucket bucket => exact h

variable (db : Database) {operation : OperationParams}

theorem find_dbObject {name : Bytes} (h : ¬ operation.TouchesName name) :
    (db.apply operation).dbObject.find name = db.dbObject.find name := by
  cases operation with
  | putObject object => exact (OrderedMap.find_insert _ _ _ _).trans (if_neg (Ne.symm h))
  | deleteObject objectID => exact (OrderedMap.find_erase _ _ _).trans (if_neg (Ne.symm h))
  | deleteBucket bucket => exact (find_erasePrefixRange _ _ _).trans (if_neg h)
  | putObjectStoreConfig storeConfig => rfl
  | deleteObjectStoreConfig storeConfig => rfl
  | putBucket bucket => rfl

theorem iterate_apply {objectQuery : ObjectID}
    (h : ¬ operation.TouchesPrefix (createObjectKey objectQuery)) :
    (db.apply operation).iterate objectQuery = db.iterate objectQuery := by
  rw [Database.iterate, Database.iterate, range_prefixSearch, range_prefixSearch]
  exact OrderedMap.filter_entries_congr fun name hname =>
    find_dbObject db fun htouches => h (htouches.touchesPrefix (of_decide_eq_true hname))

theorem find_dbBucket {bucket : Bytes} (h : ¬ operation.TouchesBucket bucket) :
    (db.apply operation).dbBucket.find bucket = db.dbBucket.find bucket := by
  cases operation with
  | putBucket other => exact (OrderedMap.find_insert _ _ _ _).trans (if_neg (Ne.symm h))
  | deleteBucket other => exact (OrderedMap.find_erase _ _ _).trans (if_neg (Ne.symm h))
  | putObject object => rfl
  | deleteObject objectID => rfl
  | putObjectStoreConfig storeConfig => rfl
  | deleteObjectStoreConfig storeConfig => rfl

theorem dbBucket_apply (h : operation.channel ≠ .bucketChan) :
    (db.apply operation).dbBucket = db.dbBucket := by
  cases operation with
  | putBucket other => exact absurd rfl h
  | deleteBucket other => exact absurd rfl h
  | putObject object => rfl
  | deleteObject objectID => rfl
  | putObjectStoreConfig storeConfig => rfl
  | deleteObjectStoreConfig storeConfig => rfl

theorem find_dbObjectStoreConfig {bucket : Bytes} (h : ¬ operation.TouchesObjectStore bucket) :
    (db.apply operation).dbObjectStoreConfig.find bucket =
      db.dbObjectStoreConfig.find bucket := by
  cases operation with
  | putObjectStoreConfig storeConfig =>
      exact (OrderedMap.find_insert _ _ _ _).trans (if_neg (Ne.symm h))
  | deleteObjectStoreConfig storeConfig =>
      exact (OrderedMap.find_erase _ _ _).trans (if_neg (Ne.symm h))
  | putBucket other => rfl
  | deleteBucket other => rfl
  | putObject object => rfl
  | deleteObject objectID => rfl

theorem dbObjectStoreConfig_apply (h : operation.channel ≠ .objectStoreConfigChan) :
    (db.apply operation).dbObjectStoreConfig = db.dbObjectStoreConfig := by
  cases operation with
  | putObjectStoreConfig storeConfig => exact absurd rfl h
  | deleteObjectStoreConfig storeConfig => exact absurd rfl h
  | putBucket other => rfl
  | deleteBucket other => rfl
  | putObject object => rfl
  | deleteObject objectID => rfl

end OperationParams

namespace StoreRequest

/-- The request reads what the operation changes. -/
def Reads : StoreRequest → OperationParams → Prop
  | .registerObjectStore objectStore, operation =>
      operation.TouchesObjectStore objectStore.bucket
  | .listObjectStores, operation => operation.channel = .objectStoreConfigChan
  | .createBucket bucket, operation => operation.TouchesBucket bucket
  | .deleteBucket bucket, operation => operation.TouchesBucket bucket
  | .lookupBucket bucket, operation => operation.TouchesBucket bucket
  | .listBuckets, operation => operation.channel = .bucketChan
  | .createObject _, _ => False
  | .updateObject _, _ => False
  | .deleteObject _, _ => False
  | .deleteObjectPrefix objectID, operation => operation.TouchesPrefix (createObjectKey objectID)
  | .lookupObject objectID, operation => operation.TouchesName (createObjectKey objectID)
  | .listObjects request, operation =>
      match request.query with
      | none => False
      | some (objectID, _) => operation.TouchesPrefix (createObjectKey objectID)

theorem deleteEach_writes (objects : List Object) : (StoreHandler.deleteEach objects).Writes := by
  induction objects with
  | nil => trivial
  | cons object rest ih => exact ih

theorem getEach_insensitive {pre : Bytes} {objectsIDs : List Bytes}
    (hbelow : ∀ objectID ∈ objectsIDs, pre <+: objectID) (commonPrefixes : List Bytes)
    (results : List Object) :
    operations.Insensitive (fun operation => ¬ operation.TouchesPrefix pre)
      (StoreHandler.getEach commonPrefixes objectsIDs results) := by
  induction objectsIDs generalizing results with
  | nil => trivial
  | cons objectID rest ih =>
      refine ⟨fun db operation htouched => ?_, fun db => ?_⟩
      · have hfind : (db.apply operation).dbObject.find objectID = db.dbObject.find objectID :=
          OperationParams.find_dbObject db fun htouches =>
            htouched (htouches.touchesPrefix (hbelow objectID List.mem_cons_self))
        change StoreHandler.getEach _ _ (_ ++ ((db.apply operation).dbObject.find objectID).toList) =
          _
        rw [hfind]
        rfl
      · exact ih (fun other hother => hbelow other (List.mem_cons_of_mem _ hother)) _

theorem listAll_insensitive (commonPrefixes : List Bytes) (objectID : ObjectID) :
    operations.Insensitive
      (fun operation => ¬ operation.TouchesPrefix (createObjectKey objectID))
      (StoreHandler.listAll commonPrefixes objectID) := by
  refine ⟨fun db operation htouched => ?_, fun db => trivial⟩
  change Handler.answer
            (StoreResponse.objectList ((db.apply operation).getAllObjectsPrefix objectID) _) = _
  rw [Database.getAllObjectsPrefix, OperationParams.iterate_apply db htouched]
  rfl

theorem filteredIDs_below {db : Database} {objectID : ObjectID} {name : Bytes}
    (hmem : name ∈ (filterIDsAndCommonPrefix (db.getAllObjectsIDsPrefix objectID) objectID).1) :
    createObjectKey objectID <+: name := by
  have hids : name ∈ db.getAllObjectsIDsPrefix objectID := by
    rw [filterIDsAndCommonPrefix] at hmem
    split_ifs at hmem
    · exact List.mem_of_mem_filter hmem
    · exact absurd hmem List.not_mem_nil
  rw [Database.getAllObjectsIDsPrefix, Database.iterate, range_prefixSearch] at hids
  obtain ⟨entry, hentry, rfl⟩ := List.mem_map.1 hids
  exact of_decide_eq_true (List.mem_filter.1 hentry).2

theorem listObjects_insensitive (request : ObjectListRequest) :
    operations.Insensitive
      (fun operation => ¬ (StoreRequest.listObjects request).Reads operation)
      (StoreHandler.listObjects request) := by
  rw [StoreHandler.listObjects]
  simp only [Reads]
  cases request.query with
  | none => trivial
  | some query =>
      dsimp only
      have hids : ∀ (db : Database) {operation : OperationParams},
          ¬ operation.TouchesPrefix (createObjectKey query.1) →
          (db.apply operation).getAllObjectsIDsPrefix query.1 =
            db.getAllObjectsIDsPrefix query.1 := by
        intro db operation htouched
        rw [Database.getAllObjectsIDsPrefix, OperationParams.iterate_apply db htouched]
        rfl
      split_ifs
      · exact listAll_insensitive [] query.1
      · refine ⟨fun db operation htouched => ?_, fun db => ?_⟩
        · change StoreHandler.getEach
            (filterIDsAndCommonPrefix ((db.apply operation).getAllObjectsIDsPrefix query.1) _).2
            (filterIDsAndCommonPrefix ((db.apply operation).getAllObjectsIDsPrefix query.1) _).1
            [] = _
          rw [hids db htouched]
        · exact getEach_insensitive (fun name => filteredIDs_below) _ _
      · refine ⟨fun db operation htouched => ?_, fun db => listAll_insensitive _ query.1⟩
        change StoreHandler.listAll
          (filterIDsAndCommonPrefix ((db.apply operation).getAllObjectsIDsPrefix query.1) _).2
          _ = _
        rw [hids db htouched]

/-- A request is not sensitive to the operations that change nothing it reads. -/
theorem handle_insensitive (request : StoreRequest) :
    operations.Insensitive (fun operation => ¬ request.Reads operation) request.handle := by
  cases request with
  | registerObjectStore objectStore =>
      refine ⟨fun db operation htouched => ?_, fun db => ?_⟩
      · have hfind := OperationParams.find_dbObjectStoreConfig db htouched
        simp only [operations, hfind]
      · dsimp only
        split <;> trivial
  | listObjectStores =>
      refine ⟨fun db operation htouched => ?_, fun db => trivial⟩
      simp only [operations, Database.getAllObjectStoreConfig,
        OperationParams.dbObjectStoreConfig_apply db htouched]
  | createBucket bucket =>
      refine ⟨fun db operation htouched => ?_, fun db => ?_⟩
      · have hfind := OperationParams.find_dbBucket db htouched
        simp only [operations, hfind]
      · dsimp only
        split <;> trivial
  | deleteBucket bucket =>
      refine ⟨fun db operation htouched => ?_, fun db => ?_⟩
      · have hfind := OperationParams.find_dbBucket db htouched
        simp only [operations, hfind]
      · dsimp only
        split <;> trivial
  | listBuckets =>
      refine ⟨fun db operation htouched => ?_, fun db => trivial⟩
      simp only [operations, Database.getAllBuckets, OperationParams.dbBucket_apply db htouched]
  | lookupBucket bucket =>
      refine ⟨fun db operation htouched => ?_, fun db => ?_⟩
      · have hfind := OperationParams.find_dbBucket db htouched
        simp only [operations, hfind]
      · dsimp only
        split <;> trivial
  | createObject object => trivial
  | updateObject object => trivial
  | deleteObject objectID => trivial
  | deleteObjectPrefix objectID =>
      refine ⟨fun db operation htouched => ?_, fun db => ?_⟩
      · simp only [operations, Database.getAllObjectsPrefix,
          OperationParams.iterate_apply db htouched]
      · exact operations.insensitive_of_writes (deleteEach_writes _) _
  | lookupObject objectID =>
      refine ⟨fun db operation htouched => ?_, fun db => ?_⟩
      · have hfind := OperationParams.find_dbObject db htouched
        simp only [operations, Database.getObjectWithObjectID, hfind]
      · dsimp only
        split <;> trivial
  | listObjects request => exact listObjects_insensitive request

end StoreRequest

namespace PersistentStore

/-- Nothing that waits changes what the request reads. -/
def UpToDate (s : PersistentStore) (request : StoreRequest) : Prop :=
  ∀ operation ∈ s.waiting, ¬ request.Reads operation

theorem UpToDate.quiet {s : PersistentStore} {request : StoreRequest} (h : s.UpToDate request) :
    s.Quiet operations StoreRequest.handle request := by
  apply request.handle_insensitive.mono
  rintro operation ⟨channel, hmem⟩
  exact h operation (mem_waiting hmem)

/-- The answers of a store that applies every change at once. -/
def synchronous (db : Database) (requests : List StoreRequest) : List StoreResponse :=
  (operations.serve StoreRequest.handle db requests).1

/-- In every run in which no bucket deletion and no put below the bucket wait together,
and no request comes while a change of what it reads waits, every response is that of the
synchronous store. -/
theorem run_responses (db : Database) (events : List PersistentEvent)
    (hevents : Throughout step
      (State.OnRequest fun s request => InOrder s request ∧ UpToDate s request)
      (start db) events) :
    ((start db).run events).history.map Answered.response =
      synchronous db (((start db).run events).history.map Answered.request) := by
  apply State.run_answers StoreRequest.sends_oneChannel db
  exact hevents.mono fun s event hevent =>
    hevent.mono fun request h => ⟨h.1.ordered, h.2.quiet⟩

namespace Sample

def missing : ObjectID := ⟨data, text "b"⟩

/-- Another object is looked up while the creation waits, the object itself afterwards. -/
def patient : List PersistentEvent :=
  issue (.createObject object) 2 ++ issue (.lookupObject missing) 2 ++ [.listen .objectChan] ++
    issue (.lookupObject object.id) 2

theorem patient_responses :
    synchronous Database.empty
        [.createObject object, .lookupObject missing, .lookupObject object.id] =
        [.status .ok, .object (.error .notFound), .object (.ok object)] ∧
      ((start Database.empty).run patient).history.map Answered.response =
        synchronous Database.empty
          (((start Database.empty).run patient).history.map Answered.request) := by
  refine ⟨by rfl, run_responses Database.empty patient ?_⟩
  refine ⟨fun _ => ⟨by decide, nofun⟩, trivial, trivial, fun _ => ⟨by decide, ?_⟩, trivial,
    trivial, trivial, fun _ => ⟨by decide, nofun⟩, trivial, trivial, trivial⟩
  -- Only the creation of the other object waits when `missing` is looked up.
  intro operation hmem
  obtain rfl : operation = .putObject object := List.mem_singleton.1 hmem
  change ¬ createObjectKey object.id = createObjectKey missing
  decide

/-- The object is looked up as soon as its creation is acknowledged. -/
def impatient : List PersistentEvent :=
  issue (.createObject object) 2 ++ issue (.lookupObject object.id) 2

theorem impatient_responses :
    ((start Database.empty).run impatient).history.map Answered.response =
        [.status .ok, .object (.error .notFound)] ∧
      synchronous Database.empty
          (((start Database.empty).run impatient).history.map Answered.request) =
        [.status .ok, .object (.ok object)] ∧
      ((start Database.empty).run impatient).history.map Answered.response ≠
        synchronous Database.empty
          (((start Database.empty).run impatient).history.map Answered.request) := by
  have hanswers : ((start Database.empty).run impatient).history.map Answered.response =
      [.status .ok, .object (.error .notFound)] := rfl
  have hsynchronous : synchronous Database.empty
      (((start Database.empty).run impatient).history.map Answered.request) =
        [.status .ok, .object (.ok object)] := rfl
  refine ⟨hanswers, hsynchronous, fun hsame => ?_⟩
  rw [hanswers, hsynchronous] at hsame
  cases hsame

end Sample

end PersistentStore

end GEDS
