/-
The reference model of the metadata store, a map from buckets to maps from
keys to object infos, and the proof that the pointer-based store follows it
call by call.
-/
import GEDS.MDSKVS

namespace GEDS

/-- What one bucket holds. -/
abbrev Contents := Bytes → Option ObjectInfo

/-- What the whole store holds. -/
abbrev Reference := Bytes → Option Contents

namespace Contents

def empty : Contents := fun _ => none

def erasePrefix (contents : Contents) (pre : Bytes) : Contents :=
  fun key => if pre <+: key then none else contents key

/-- Every stored key sorts before the block of the prefix. -/
def AllBelow (contents : Contents) (pre : Bytes) : Prop :=
  ∀ key, contents key ≠ none → pathLessProbe key ⟨pre⟩ = true

/-- Nothing extends the prefix when every key is below it. -/
theorem AllBelow.erasePrefix_eq {contents : Contents} {pre : Bytes}
    (hall : contents.AllBelow pre) : contents.erasePrefix pre = contents := by
  funext key
  by_cases hkey : contents key = none
  · simp [erasePrefix, hkey]
  · have hbelow := hall key hkey
    have hnot : ¬ pre <+: key := by
      rw [isPrefix_iff_not_probe]
      rintro ⟨hbelow', _⟩
      exact absurd (hbelow.symm.trans hbelow') Bool.noConfusion
    rw [erasePrefix, if_neg hnot]

open Classical in
/-- The effect and the answer of an object call on the bucket it addresses.
Calls on the table of buckets leave the contents alone. -/
noncomputable def perform (bucket : Bytes) (contents : Contents) :
    Call → Response × Contents
  | .createObject obj _ =>
      (.status .okStatus, Function.update contents obj.id.key (some obj.info))
  | .updateObject obj =>
      match contents obj.id.key with
      | none => (.status (keyDoesNotExist obj.id.key), contents)
      | some _ =>
          (.status .okStatus, Function.update contents obj.id.key (some obj.info))
  | .deleteObject id =>
      match contents id.key with
      | none => (.status (keyDoesNotExist id.key), contents)
      | some _ => (.status .okStatus, Function.update contents id.key none)
  | .deleteObjectPrefix id =>
      (.status (if contents.AllBelow id.key then noObjectsStartingWith id.key
        else .okStatus), contents.erasePrefix id.key)
  | .lookup id =>
      match contents id.key with
      | none => (.object (.error (keyDoesNotExist id.key)), contents)
      | some info => (.object (.ok ⟨⟨bucket, id.key⟩, info⟩), contents)
  | .createBucket _ | .deleteBucket _ | .bucketStatus _ => (.status .okStatus, contents)

end Contents

namespace Call

/-- The bucket a call addresses. -/
def bucket : Call → Bytes
  | .createBucket bucket | .deleteBucket bucket | .bucketStatus bucket => bucket
  | .createObject obj _ | .updateObject obj => obj.id.bucket
  | .deleteObject id | .deleteObjectPrefix id | .lookup id => id.bucket

/-- Object calls that work only inside an existing bucket. -/
def staysInBucket : Call → Bool
  | .createObject _ forceCreateBucket => !forceCreateBucket
  | .updateObject _ | .deleteObject _ | .deleteObjectPrefix _ | .lookup _ => true
  | .createBucket _ | .deleteBucket _ | .bucketStatus _ => false

/-- The answer of an object call when its bucket does not exist. -/
def missing : Call → Response
  | .lookup id => .object (.error (bucketDoesNotExist id.bucket))
  | call => .status (bucketDoesNotExist call.bucket)

end Call

/-- The status code a response carries. -/
def Response.code : Response → StatusCode
  | .status value => value.code
  | .object (.error failure) => failure.code
  | .object (.ok _) => .ok

namespace Reference

variable (model : Reference)

/-- Run an object call inside the bucket it addresses. -/
noncomputable def onBucket (call : Call) : Response × Reference :=
  match model call.bucket with
  | none => (call.missing, model)
  | some contents =>
      let result := contents.perform call.bucket call
      (result.1, Function.update model call.bucket (some result.2))

/-- One call on the reference model. -/
noncomputable def perform : Call → Response × Reference
  | .createBucket bucket =>
      match model bucket with
      | some _ => (.status (bucketAlreadyExists bucket), model)
      | none => (.status .okStatus, Function.update model bucket (some Contents.empty))
  | .deleteBucket bucket =>
      match model bucket with
      | none => (.status (bucketDoesNotExist bucket), model)
      | some _ => (.status .okStatus, Function.update model bucket none)
  | .bucketStatus bucket =>
      match model bucket with
      | none => (.status (bucketDoesNotExist bucket), model)
      | some _ => (.status .okStatus, model)
  | .createObject obj forceCreateBucket =>
      match model obj.id.bucket, forceCreateBucket with
      | none, true => (.status .okStatus, Function.update model obj.id.bucket
          (some (Function.update Contents.empty obj.id.key (some obj.info))))
      | _, _ => model.onBucket (.createObject obj forceCreateBucket)
  | call => model.onBucket call

theorem perform_eq_onBucket {call : Call} (hcall : call.staysInBucket = true) :
    model.perform call = model.onBucket call := by
  cases call with
  | createObject obj force =>
      cases force with
      | false => cases hmodel : model obj.id.bucket <;> simp [perform, hmodel]
      | true => simp [Call.staysInBucket] at hcall
  | updateObject obj => rfl
  | deleteObject id => rfl
  | deleteObjectPrefix id => rfl
  | lookup id => rfl
  | createBucket bucket => simp [Call.staysInBucket] at hcall
  | deleteBucket bucket => simp [Call.staysInBucket] at hcall
  | bucketStatus bucket => simp [Call.staysInBucket] at hcall

/-- The reference answer to `lookup`. -/
def lookup (id : ObjectID) : Except Status Object :=
  match model id.bucket with
  | none => .error (bucketDoesNotExist id.bucket)
  | some contents =>
      match contents id.key with
      | none => .error (keyDoesNotExist id.key)
      | some info => .ok ⟨id, info⟩

/-- The reference answer to `bucketStatus`. -/
def bucketStatus (bucket : Bytes) : Status :=
  match model bucket with
  | none => bucketDoesNotExist bucket
  | some _ => .okStatus

/-- Calls run one after another. -/
noncomputable def run (calls : List Call) : Reference :=
  calls.foldl (fun current call => (current.perform call).2) model

/-- The freshly constructed store: empty, or with the default bucket. -/
def new : Option Bytes → Reference
  | none => fun _ => none
  | some bucket => Function.update (fun _ => none) bucket (some Contents.empty)

end Reference

namespace MDSKVS

/-- The contents reachable through one bucket pointer. -/
def bucketContents (kvs : MDSKVS) (ref : Nat) : Contents :=
  fun key => ((kvs.buckets.get ref).map.find key).map kvs.containers.get

/-- The abstraction function. -/
def contents (kvs : MDSKVS) : Reference :=
  fun bucket => (kvs.map.find bucket).map kvs.bucketContents

/-- The ownership discipline of the shared pointers: a bucket in the table
carries its own name, and no container is shared. -/
structure WellFormed (kvs : MDSKVS) : Prop where
  named : ∀ {bucket : Bytes} {ref : Nat}, kvs.map.find bucket = some ref →
    (kvs.buckets.get ref).name = bucket
  bucket_lt : ∀ {bucket : Bytes} {ref : Nat}, kvs.map.find bucket = some ref →
    ref < kvs.buckets.next
  container_lt : ∀ {ref : Nat} {key : Bytes} {container : Nat},
    (kvs.buckets.get ref).map.find key = some container →
    container < kvs.containers.next
  container_inj : ∀ {ref ref' : Nat} {key key' : Bytes} {container : Nat},
    (kvs.buckets.get ref).map.find key = some container →
    (kvs.buckets.get ref').map.find key' = some container →
    ref = ref' ∧ key = key'

/-- Everything an object call does when it runs inside bucket `ref`: the
table of buckets and all other buckets are untouched. -/
structure Touches (kvs kvs' : MDSKVS) (ref : Nat) (after : Contents) : Prop where
  map_eq : kvs'.map = kvs.map
  next_eq : kvs'.buckets.next = kvs.buckets.next
  name_eq : ∀ other, (kvs'.buckets.get other).name = (kvs.buckets.get other).name
  contents_eq : kvs'.bucketContents = Function.update kvs.bucketContents ref after
  wellFormed : kvs'.WellFormed

theorem WellFormed.ref_ne {kvs : MDSKVS} (hwf : kvs.WellFormed)
    {bucket bucket' : Bytes} {ref ref' : Nat} (hfind : kvs.map.find bucket = some ref)
    (hfind' : kvs.map.find bucket' = some ref') (hne : bucket' ≠ bucket) :
    ref' ≠ ref := by
  intro heq
  apply hne
  rw [← hwf.named hfind', ← hwf.named hfind, heq]

/-- Touching a bucket of the table updates exactly its entry of the model. -/
theorem Touches.contents_update {kvs kvs' : MDSKVS} {ref : Nat} {after : Contents}
    (htouch : Touches kvs kvs' ref after) (hwf : kvs.WellFormed) {bucket : Bytes}
    (hfind : kvs.map.find bucket = some ref) :
    kvs'.contents = Function.update kvs.contents bucket (some after) := by
  funext other
  by_cases hother : other = bucket
  · subst hother
    simp [contents, htouch.map_eq, hfind, htouch.contents_eq]
  · rw [Function.update_of_ne hother, contents, contents, htouch.map_eq]
    cases hfind' : kvs.map.find other with
    | none => rfl
    | some ref' =>
        have hne := hwf.ref_ne hfind hfind' hother
        simp [htouch.contents_eq, hne]

/-- Touching a bucket that left the table is invisible. -/
theorem Touches.contents_eq_of_not_in_table {kvs kvs' : MDSKVS} {ref : Nat}
    {after : Contents} (htouch : Touches kvs kvs' ref after)
    (hgone : ∀ bucket, kvs.map.find bucket ≠ some ref) :
    kvs'.contents = kvs.contents := by
  funext bucket
  rw [contents, contents, htouch.map_eq]
  cases hfind : kvs.map.find bucket with
  | none => rfl
  | some other =>
      have hne : other ≠ ref := fun heq => hgone bucket (heq ▸ hfind)
      simp [htouch.contents_eq, hne]

section SetMap

variable (kvs : MDSKVS) (ref : Nat) (map : OrderedMap Bytes Nat)

theorem get_setMap_map (other : Nat) :
    ((MDSKVSBucket.setMap kvs ref map).buckets.get other).map =
      if other = ref then map else (kvs.buckets.get other).map := by
  by_cases hother : other = ref
  · simp [MDSKVSBucket.setMap, hother]
  · simp [MDSKVSBucket.setMap, hother, Heap.get_set_of_ne]

@[simp] theorem get_setMap_name (other : Nat) :
    ((MDSKVSBucket.setMap kvs ref map).buckets.get other).name =
      (kvs.buckets.get other).name := by
  by_cases hother : other = ref
  · simp [MDSKVSBucket.setMap, hother]
  · simp [MDSKVSBucket.setMap, hother, Heap.get_set_of_ne]

end SetMap

/-- Replacing the map of one bucket by a part of it. -/
theorem setMap_touches {kvs : MDSKVS} (hwf : kvs.WellFormed) (ref : Nat)
    (map : OrderedMap Bytes Nat)
    (hsub : ∀ {key : Bytes} {container : Nat}, map.find key = some container →
      (kvs.buckets.get ref).map.find key = some container) :
    Touches kvs (MDSKVSBucket.setMap kvs ref map) ref
      (fun key => (map.find key).map kvs.containers.get) := by
  have hold : ∀ {other : Nat} {key : Bytes} {container : Nat},
      ((MDSKVSBucket.setMap kvs ref map).buckets.get other).map.find key =
        some container →
      (kvs.buckets.get other).map.find key = some container := by
    intro other key container hfind
    rw [get_setMap_map] at hfind
    split_ifs at hfind with hother
    · subst hother
      exact hsub hfind
    · exact hfind
  refine ⟨rfl, rfl, get_setMap_name kvs ref map, ?_, ?_⟩
  · funext other key
    rw [bucketContents, get_setMap_map]
    by_cases hother : other = ref
    · simp [hother, MDSKVSBucket.setMap]
    · simp [hother, bucketContents, MDSKVSBucket.setMap]
  · exact
      { named := fun hfind => (get_setMap_name kvs ref map _).trans (hwf.named hfind)
        bucket_lt := hwf.bucket_lt
        container_lt := fun hfind => hwf.container_lt (hold hfind)
        container_inj := fun hfind hfind' =>
          hwf.container_inj (hold hfind) (hold hfind') }

/-- A container found after `createObject` is an old one or the new one. -/
theorem find_createObject_cases {kvs : MDSKVS} {ref : Nat} {obj : Object}
    {other : Nat} {key : Bytes} {container : Nat}
    (hfind : ((MDSKVSBucket.createObject kvs ref obj).2.buckets.get other).map.find
      key = some container) :
    (other = ref ∧ key = obj.id.key ∧ container = kvs.containers.next) ∨
      (¬ (other = ref ∧ key = obj.id.key) ∧
        (kvs.buckets.get other).map.find key = some container) := by
  change ((MDSKVSBucket.setMap kvs ref _).buckets.get other).map.find key = _ at hfind
  rw [get_setMap_map] at hfind
  by_cases hother : other = ref
  · rw [if_pos hother, OrderedMap.find_insert] at hfind
    by_cases hkey : key = obj.id.key
    · rw [if_pos hkey, Option.some.injEq] at hfind
      exact Or.inl ⟨hother, hkey, hfind.symm⟩
    · rw [if_neg hkey] at hfind
      exact Or.inr ⟨fun h => hkey h.2, hother ▸ hfind⟩
  · rw [if_neg hother] at hfind
    exact Or.inr ⟨fun h => hother h.1, hfind⟩

theorem createObject_touches {kvs : MDSKVS} (hwf : kvs.WellFormed) (ref : Nat)
    (obj : Object) :
    Touches kvs (MDSKVSBucket.createObject kvs ref obj).2 ref
      (Function.update (kvs.bucketContents ref) obj.id.key (some obj.info)) := by
  refine ⟨rfl, rfl, get_setMap_name kvs ref _, ?_, ?_⟩
  · have hget : ∀ {other : Nat} {key : Bytes},
        ((kvs.buckets.get other).map.find key).map
          (kvs.containers.alloc obj.info).get = kvs.bucketContents other key := by
      intro other key
      rw [bucketContents]
      cases hfind : (kvs.buckets.get other).map.find key with
      | none => rfl
      | some container =>
          have hne := (hwf.container_lt hfind).ne
          simp [Heap.get_alloc_of_ne _ _ hne]
    funext other key
    change (((MDSKVSBucket.setMap kvs ref _).buckets.get other).map.find key).map
      (kvs.containers.alloc obj.info).get = _
    rw [get_setMap_map]
    by_cases hother : other = ref
    · subst hother
      rw [if_pos rfl, Function.update_self, OrderedMap.find_insert]
      by_cases hkey : key = obj.id.key
      · simp [hkey]
      · rw [if_neg hkey, Function.update_of_ne hkey, hget]
    · rw [if_neg hother, Function.update_of_ne hother, hget]
  · refine ⟨fun hfind => (get_setMap_name kvs ref _ _).trans (hwf.named hfind),
      hwf.bucket_lt, ?_, ?_⟩
    · intro other key container hfind
      change container < kvs.containers.next + 1
      rcases find_createObject_cases hfind with ⟨_, _, hnew⟩ | ⟨_, hold⟩
      · exact hnew ▸ Nat.lt_succ_self _
      · exact Nat.lt_succ_of_lt (hwf.container_lt hold)
    · intro other other' key key' container hfind hfind'
      rcases find_createObject_cases hfind with ⟨hr, hk, hnew⟩ | ⟨_, hold⟩
      · rcases find_createObject_cases hfind' with ⟨hr', hk', _⟩ | ⟨_, hold'⟩
        · exact ⟨hr.trans hr'.symm, hk.trans hk'.symm⟩
        · exact absurd (hnew ▸ hwf.container_lt hold') (Nat.lt_irrefl _)
      · rcases find_createObject_cases hfind' with ⟨_, _, hnew⟩ | ⟨_, hold'⟩
        · exact absurd (hnew ▸ hwf.container_lt hold) (Nat.lt_irrefl _)
        · exact hwf.container_inj hold hold'

theorem writeContainer_touches {kvs : MDSKVS} (hwf : kvs.WellFormed) {ref : Nat}
    {key : Bytes} {container : Nat}
    (hfind : (kvs.buckets.get ref).map.find key = some container)
    (info : ObjectInfo) :
    Touches kvs (MDSKVSBucket.writeContainer kvs container info) ref
      (Function.update (kvs.bucketContents ref) key (some info)) := by
  refine ⟨rfl, rfl, fun _ => rfl, ?_, ⟨hwf.named, hwf.bucket_lt, hwf.container_lt,
    hwf.container_inj⟩⟩
  have hother : ∀ {other : Nat} {key' : Bytes}, ¬ (other = ref ∧ key' = key) →
      (MDSKVSBucket.writeContainer kvs container info).bucketContents other key' =
        kvs.bucketContents other key' := by
    intro other key' hne
    change ((kvs.buckets.get other).map.find key').map
      (kvs.containers.set container info).get = _
    rw [bucketContents]
    cases hfind' : (kvs.buckets.get other).map.find key' with
    | none => rfl
    | some container' =>
        have hcontainer : container' ≠ container := by
          rintro rfl
          exact hne (hwf.container_inj hfind' hfind)
        simp [Heap.get_set_of_ne _ _ hcontainer]
  funext other key'
  by_cases href : other = ref
  · subst href
    rw [Function.update_self]
    by_cases hkey : key' = key
    · subst hkey
      simp [bucketContents, MDSKVSBucket.writeContainer, hfind]
    · rw [Function.update_of_ne hkey]
      exact hother fun h => hkey h.2
  · rw [Function.update_of_ne href]
    exact hother fun h => href h.1

theorem Touches.refl {kvs : MDSKVS} (hwf : kvs.WellFormed) (ref : Nat) :
    Touches kvs kvs ref (kvs.bucketContents ref) :=
  ⟨rfl, rfl, fun _ => rfl, (Function.update_eq_self ref _).symm, hwf⟩

theorem bucketContents_eq_none_iff (kvs : MDSKVS) (ref : Nat) (key : Bytes) :
    kvs.bucketContents ref key = none ↔
      (kvs.buckets.get ref).map.find key = none := by
  simp [bucketContents]

/-- The prefix search starts at the end exactly when every key is below. -/
theorem prefixSearch_eq_endPos_iff (kvs : MDSKVS) (ref : Nat) (pre : Bytes) :
    (prefixSearch (kvs.buckets.get ref).map pre).1 = (kvs.buckets.get ref).map.endPos ↔
      (kvs.bucketContents ref).AllBelow pre := by
  change (kvs.buckets.get ref).map.lowerBound _ = _ ↔ _
  rw [OrderedMap.lowerBound_eq_endPos_iff, Contents.AllBelow]
  constructor
  · intro hall key hkey
    rw [ne_eq, bucketContents_eq_none_iff, ← ne_eq, Option.ne_none_iff_exists'] at hkey
    obtain ⟨container, hfind⟩ := hkey
    exact hall (key, container) ((OrderedMap.find_eq_some_iff _ _ _).mp hfind)
  · intro hall entry hentry
    apply hall entry.1
    have hfind := (OrderedMap.find_eq_some_iff _ entry.1 entry.2).mpr hentry
    rw [ne_eq, bucketContents_eq_none_iff, hfind]
    exact Option.some_ne_none entry.2

theorem bucketContents_of_find {kvs : MDSKVS} {ref : Nat} {key : Bytes}
    {container : Nat} (hfind : (kvs.buckets.get ref).map.find key = some container) :
    kvs.bucketContents ref key = some (kvs.containers.get container) := by
  simp [bucketContents, hfind]

theorem eraseKey_touches {kvs : MDSKVS} (hwf : kvs.WellFormed) (ref : Nat)
    (key : Bytes) :
    Touches kvs (MDSKVSBucket.setMap kvs ref ((kvs.buckets.get ref).map.erase key)) ref
      (Function.update (kvs.bucketContents ref) key none) := by
  have hsub : ∀ {other : Bytes} {container : Nat},
      ((kvs.buckets.get ref).map.erase key).find other = some container →
      (kvs.buckets.get ref).map.find other = some container := by
    intro other container hfind
    rw [OrderedMap.find_erase] at hfind
    split_ifs at hfind
    exact hfind
  have hafter : (fun other => (((kvs.buckets.get ref).map.erase key).find other).map
      kvs.containers.get) = Function.update (kvs.bucketContents ref) key none := by
    funext other
    rw [OrderedMap.find_erase]
    by_cases hother : other = key
    · simp [hother]
    · simp [hother, bucketContents]
  exact hafter ▸ setMap_touches hwf ref _ hsub

theorem erasePrefix_touches {kvs : MDSKVS} (hwf : kvs.WellFormed) (ref : Nat)
    (pre : Bytes) :
    Touches kvs (MDSKVSBucket.setMap kvs ref
      (erasePrefixRange (kvs.buckets.get ref).map pre)) ref
      ((kvs.bucketContents ref).erasePrefix pre) := by
  have hsub : ∀ {key : Bytes} {container : Nat},
      (erasePrefixRange (kvs.buckets.get ref).map pre).find key = some container →
      (kvs.buckets.get ref).map.find key = some container := by
    intro key container hfind
    rw [find_erasePrefixRange] at hfind
    split_ifs at hfind
    exact hfind
  have hafter : (fun key => ((erasePrefixRange (kvs.buckets.get ref).map pre).find
      key).map kvs.containers.get) = (kvs.bucketContents ref).erasePrefix pre := by
    funext key
    rw [find_erasePrefixRange, Contents.erasePrefix]
    by_cases hkey : pre <+: key
    · simp [hkey]
    · simp [hkey, bucketContents]
  exact hafter ▸ setMap_touches hwf ref _ hsub

end MDSKVS

namespace MDSKVSBucket

open MDSKVS

/-- An object call inside the bucket it was directed to. -/
def perform (kvs : MDSKVS) (ref : Nat) : Call → Response × MDSKVS
  | .createObject obj _ => (createObject kvs ref obj).map .status id
  | .updateObject obj => (updateObject kvs ref obj).map .status id
  | .deleteObject key => (deleteObject kvs ref key.key).map .status id
  | .deleteObjectPrefix key => (deleteObjectPrefix kvs ref key.key).map .status id
  | .lookup key => (.object (lookup kvs ref key.key), kvs)
  | .createBucket _ | .deleteBucket _ | .bucketStatus _ => (.status .okStatus, kvs)

/-- Every object call follows the reference inside its bucket, whether or not
the bucket is still in the table. -/
theorem perform_refines {kvs : MDSKVS} (hwf : kvs.WellFormed) {ref : Nat}
    (call : Call) (hname : (kvs.buckets.get ref).name = call.bucket) :
    (perform kvs ref call).1 =
        ((kvs.bucketContents ref).perform call.bucket call).1 ∧
      Touches kvs (perform kvs ref call).2 ref
        ((kvs.bucketContents ref).perform call.bucket call).2 := by
  cases call with
  | createObject obj force => exact ⟨rfl, createObject_touches hwf ref obj⟩
  | updateObject obj =>
      rw [perform, updateObject, getObject, Contents.perform]
      cases hfind : (kvs.buckets.get ref).map.find obj.id.key with
      | none =>
          rw [(bucketContents_eq_none_iff kvs ref _).mpr hfind]
          exact ⟨rfl, Touches.refl hwf ref⟩
      | some container =>
          rw [bucketContents_of_find hfind]
          exact ⟨rfl, writeContainer_touches hwf hfind obj.info⟩
  | deleteObject id =>
      rw [perform, deleteObject, Contents.perform]
      cases hfind : (kvs.buckets.get ref).map.find id.key with
      | none =>
          rw [(bucketContents_eq_none_iff kvs ref _).mpr hfind]
          exact ⟨rfl, Touches.refl hwf ref⟩
      | some container =>
          rw [bucketContents_of_find hfind]
          exact ⟨rfl, eraseKey_touches hwf ref id.key⟩
  | deleteObjectPrefix id =>
      rw [perform, deleteObjectPrefix, Contents.perform]
      by_cases hall : (kvs.bucketContents ref).AllBelow id.key
      · rw [if_pos ((prefixSearch_eq_endPos_iff kvs ref id.key).mpr hall),
          if_pos hall, hall.erasePrefix_eq]
        exact ⟨rfl, Touches.refl hwf ref⟩
      · rw [if_neg (mt (prefixSearch_eq_endPos_iff kvs ref id.key).mp hall),
          if_neg hall]
        exact ⟨rfl, erasePrefix_touches hwf ref id.key⟩
  | lookup id =>
      rw [perform, lookup, getObject, Contents.perform]
      cases hfind : (kvs.buckets.get ref).map.find id.key with
      | none =>
          rw [(bucketContents_eq_none_iff kvs ref _).mpr hfind]
          exact ⟨rfl, Touches.refl hwf ref⟩
      | some container =>
          rw [bucketContents_of_find hfind]
          refine ⟨?_, Touches.refl hwf ref⟩
          simp only [readContainer, hname]
  | createBucket bucket => exact ⟨rfl, Touches.refl hwf ref⟩
  | deleteBucket bucket => exact ⟨rfl, Touches.refl hwf ref⟩
  | bucketStatus bucket => exact ⟨rfl, Touches.refl hwf ref⟩

end MDSKVSBucket

namespace MDSKVS

theorem contents_eq_none_iff (kvs : MDSKVS) (bucket : Bytes) :
    kvs.contents bucket = none ↔ kvs.map.find bucket = none := by
  simp [contents]

theorem contents_of_find {kvs : MDSKVS} {bucket : Bytes} {ref : Nat}
    (hfind : kvs.map.find bucket = some ref) :
    kvs.contents bucket = some (kvs.bucketContents ref) := by
  simp [contents, hfind]

/-- An object call in an existing bucket follows the reference. -/
theorem bucket_perform_refines {kvs : MDSKVS} (hwf : kvs.WellFormed) (call : Call)
    {ref : Nat} (hfind : kvs.map.find call.bucket = some ref) :
    (MDSKVSBucket.perform kvs ref call).1 = (kvs.contents.onBucket call).1 ∧
      (MDSKVSBucket.perform kvs ref call).2.contents =
        (kvs.contents.onBucket call).2 ∧
      (MDSKVSBucket.perform kvs ref call).2.WellFormed := by
  obtain ⟨hanswer, htouch⟩ :=
    MDSKVSBucket.perform_refines hwf call (hwf.named hfind)
  rw [Reference.onBucket, contents_of_find hfind]
  exact ⟨hanswer, htouch.contents_update hwf hfind, htouch.wellFormed⟩

theorem createBucket_refines {kvs : MDSKVS} (hwf : kvs.WellFormed) {bucket : Bytes}
    (hfind : kvs.map.find bucket = none) :
    (kvs.createBucket bucket).1 = .okStatus ∧
      (kvs.createBucket bucket).2.map.find bucket = some kvs.buckets.next ∧
      (kvs.createBucket bucket).2.contents =
        Function.update kvs.contents bucket (some Contents.empty) ∧
      (kvs.createBucket bucket).2.WellFormed := by
  rw [createBucket, hfind]
  have hget : ∀ {other : Bytes} {ref : Nat}, kvs.map.find other = some ref →
      (kvs.buckets.alloc ⟨OrderedMap.empty, bucket⟩).get ref = kvs.buckets.get ref :=
    fun hother => Heap.get_alloc_of_ne _ _ (hwf.bucket_lt hother).ne
  -- the fresh bucket is empty, so every container found was there before
  have hold : ∀ {ref : Nat} {key : Bytes} {container : Nat},
      ((kvs.buckets.alloc ⟨OrderedMap.empty, bucket⟩).get ref).map.find key =
        some container →
      (kvs.buckets.get ref).map.find key = some container := by
    intro ref key container hcontainer
    by_cases href : ref = kvs.buckets.next
    · subst href
      simp at hcontainer
    · rwa [Heap.get_alloc_of_ne _ _ href] at hcontainer
  refine ⟨rfl, by simp, ?_, ?_⟩
  · funext other
    by_cases hother : other = bucket
    · subst hother
      rw [Function.update_self, contents, OrderedMap.find_insert, if_pos rfl]
      refine congrArg some (funext fun key => ?_)
      simp [bucketContents, Contents.empty]
    · rw [Function.update_of_ne hother, contents, contents, OrderedMap.find_insert,
        if_neg hother]
      cases hfind' : kvs.map.find other with
      | none => rfl
      | some ref =>
          refine congrArg some (funext fun key => ?_)
          simp only [bucketContents, hget hfind']
  · refine ⟨?_, ?_, fun hfind' => hwf.container_lt (hold hfind'),
      fun hfind' hfind'' => hwf.container_inj (hold hfind') (hold hfind'')⟩
    · intro other ref hfind'
      rw [OrderedMap.find_insert] at hfind'
      split_ifs at hfind' with hother
      · rw [Option.some.injEq] at hfind'
        subst hfind' hother
        simp
      · rw [hget hfind']
        exact hwf.named hfind'
    · intro other ref hfind'
      rw [OrderedMap.find_insert] at hfind'
      split_ifs at hfind' with hother
      · rw [Option.some.injEq] at hfind'
        exact hfind' ▸ Nat.lt_succ_self _
      · exact Nat.lt_succ_of_lt (hwf.bucket_lt hfind')

theorem deleteBucket_refines {kvs : MDSKVS} (hwf : kvs.WellFormed) (bucket : Bytes) :
    ({ kvs with map := kvs.map.erase bucket } : MDSKVS).contents =
        Function.update kvs.contents bucket none ∧
      ({ kvs with map := kvs.map.erase bucket } : MDSKVS).WellFormed := by
  have hold : ∀ {other : Bytes} {ref : Nat},
      (kvs.map.erase bucket).find other = some ref → kvs.map.find other = some ref := by
    intro other ref hfind
    rw [OrderedMap.find_erase] at hfind
    split_ifs at hfind
    exact hfind
  refine ⟨?_, fun hfind => hwf.named (hold hfind), fun hfind => hwf.bucket_lt (hold hfind),
    hwf.container_lt, hwf.container_inj⟩
  funext other
  by_cases hother : other = bucket
  · simp [contents, hother]
  · rw [Function.update_of_ne hother, contents, contents, OrderedMap.find_erase,
      if_neg hother]
    rfl

/-- The dispatch shared by all object calls on an existing bucket. -/
def dispatch (kvs : MDSKVS) (call : Call) : Response × MDSKVS :=
  match kvs.getBucket call.bucket with
  | .error _ => (call.missing, kvs)
  | .ok ref => MDSKVSBucket.perform kvs ref call

theorem dispatch_refines {kvs : MDSKVS} (hwf : kvs.WellFormed) (call : Call) :
    (kvs.dispatch call).1 = (kvs.contents.onBucket call).1 ∧
      (kvs.dispatch call).2.contents = (kvs.contents.onBucket call).2 ∧
      (kvs.dispatch call).2.WellFormed := by
  rw [dispatch, getBucket]
  cases hfind : kvs.map.find call.bucket with
  | none =>
      rw [Reference.onBucket, (contents_eq_none_iff kvs call.bucket).mpr hfind]
      exact ⟨rfl, rfl, hwf⟩
  | some ref => exact bucket_perform_refines hwf call hfind

/-- Object calls that never create their bucket are plain dispatches. -/
theorem perform_eq_dispatch (kvs : MDSKVS) {call : Call}
    (hcall : call.staysInBucket = true) : kvs.perform call = kvs.dispatch call := by
  cases hfind : kvs.map.find call.bucket with
  | none =>
      cases call with
      | createObject obj force =>
          cases force with
          | false => simp_all [perform, createObject, dispatch, getBucket,
              Call.bucket, Call.missing]
          | true => simp [Call.staysInBucket] at hcall
      | updateObject obj => simp_all [perform, updateObject, dispatch, getBucket,
          Call.bucket, Call.missing]
      | deleteObject id => simp_all [perform, deleteObject, dispatch, getBucket,
          Call.bucket, Call.missing]
      | deleteObjectPrefix id => simp_all [perform, deleteObjectPrefix, dispatch,
          getBucket, Call.bucket, Call.missing]
      | lookup id => simp_all [perform, lookup, dispatch, getBucket, Call.bucket,
          Call.missing]
      | createBucket bucket => simp [Call.staysInBucket] at hcall
      | deleteBucket bucket => simp [Call.staysInBucket] at hcall
      | bucketStatus bucket => simp [Call.staysInBucket] at hcall
  | some ref =>
      cases call with
      | createObject obj force => simp_all [perform, createObject, dispatch,
          getBucket, Call.bucket, MDSKVSBucket.perform]
      | updateObject obj => simp_all [perform, updateObject, dispatch, getBucket,
          Call.bucket, MDSKVSBucket.perform]
      | deleteObject id => simp_all [perform, deleteObject, dispatch, getBucket,
          Call.bucket, MDSKVSBucket.perform]
      | deleteObjectPrefix id => simp_all [perform, deleteObjectPrefix, dispatch,
          getBucket, Call.bucket, MDSKVSBucket.perform]
      | lookup id => simp_all [perform, lookup, dispatch, getBucket, Call.bucket,
          MDSKVSBucket.perform]
      | createBucket bucket => simp [Call.staysInBucket] at hcall
      | deleteBucket bucket => simp [Call.staysInBucket] at hcall
      | bucketStatus bucket => simp [Call.staysInBucket] at hcall

/-- A forced create in a missing bucket makes the bucket first. -/
theorem forceCreateObject_refines {kvs : MDSKVS} (hwf : kvs.WellFormed) (obj : Object)
    (hfind : kvs.map.find obj.id.bucket = none) :
    (kvs.perform (.createObject obj true)).1 = .status .okStatus ∧
      (kvs.perform (.createObject obj true)).2.contents =
        Function.update kvs.contents obj.id.bucket
          (some (Function.update Contents.empty obj.id.key (some obj.info))) ∧
      (kvs.perform (.createObject obj true)).2.WellFormed := by
  obtain ⟨hstatus, hfind', hcontents, hwf'⟩ := createBucket_refines hwf hfind
  have hok : (kvs.createBucket obj.id.bucket).1.ok = true := by
    rw [hstatus]
    rfl
  have hperform : kvs.perform (.createObject obj true) =
      MDSKVSBucket.perform (kvs.createBucket obj.id.bucket).2 kvs.buckets.next
        (.createObject obj true) := by
    simp [perform, createObject, getBucket, hfind, hfind', hok, MDSKVSBucket.perform]
  obtain ⟨hanswer, hafter, hwf''⟩ :=
    bucket_perform_refines hwf' (.createObject obj true) hfind'
  rw [hperform]
  refine ⟨rfl, ?_, hwf''⟩
  rw [hafter, Reference.onBucket, hcontents]
  simp [Call.bucket, Contents.perform]

/-- One call: same answer, same contents afterwards, and the pointers stay
well formed. -/
theorem perform_refines {kvs : MDSKVS} (hwf : kvs.WellFormed) (call : Call) :
    (kvs.perform call).1 = (kvs.contents.perform call).1 ∧
      (kvs.perform call).2.contents = (kvs.contents.perform call).2 ∧
      (kvs.perform call).2.WellFormed := by
  cases call with
  | createBucket bucket =>
      rw [perform, Reference.perform]
      cases hfind : kvs.map.find bucket with
      | none =>
          obtain ⟨hstatus, _, hcontents, hwf'⟩ := createBucket_refines hwf hfind
          rw [(contents_eq_none_iff kvs bucket).mpr hfind]
          exact ⟨congrArg Response.status hstatus, hcontents, hwf'⟩
      | some ref =>
          rw [contents_of_find hfind, createBucket, hfind]
          exact ⟨rfl, rfl, hwf⟩
  | deleteBucket bucket =>
      rw [perform, Reference.perform, deleteBucket]
      cases hfind : kvs.map.find bucket with
      | none =>
          rw [(contents_eq_none_iff kvs bucket).mpr hfind]
          exact ⟨rfl, rfl, hwf⟩
      | some ref =>
          obtain ⟨hcontents, hwf'⟩ := deleteBucket_refines hwf bucket
          rw [contents_of_find hfind]
          exact ⟨rfl, hcontents, hwf'⟩
  | bucketStatus bucket =>
      rw [perform, Reference.perform, bucketStatus]
      cases hfind : kvs.map.find bucket with
      | none =>
          rw [(contents_eq_none_iff kvs bucket).mpr hfind]
          exact ⟨rfl, rfl, hwf⟩
      | some ref =>
          rw [contents_of_find hfind]
          exact ⟨rfl, rfl, hwf⟩
  | createObject obj force =>
      cases hfind : kvs.map.find obj.id.bucket with
      | none =>
          cases force with
          | false =>
              rw [perform_eq_dispatch kvs rfl, Reference.perform_eq_onBucket _ rfl]
              exact dispatch_refines hwf _
          | true =>
              have hmodel := (contents_eq_none_iff kvs _).mpr hfind
              simp only [Reference.perform, hmodel]
              exact forceCreateObject_refines hwf obj hfind
      | some ref =>
          have hperform : kvs.perform (.createObject obj force) =
              MDSKVSBucket.perform kvs ref (.createObject obj force) := by
            simp [perform, createObject, getBucket, hfind, MDSKVSBucket.perform]
          have hreference : kvs.contents.perform (.createObject obj force) =
              kvs.contents.onBucket (.createObject obj force) := by
            simp [Reference.perform, contents_of_find hfind]
          rw [hperform, hreference]
          exact bucket_perform_refines hwf _ hfind
  | updateObject obj =>
      rw [perform_eq_dispatch kvs rfl, Reference.perform_eq_onBucket _ rfl]
      exact dispatch_refines hwf _
  | deleteObject id =>
      rw [perform_eq_dispatch kvs rfl, Reference.perform_eq_onBucket _ rfl]
      exact dispatch_refines hwf _
  | deleteObjectPrefix id =>
      rw [perform_eq_dispatch kvs rfl, Reference.perform_eq_onBucket _ rfl]
      exact dispatch_refines hwf _
  | lookup id =>
      rw [perform_eq_dispatch kvs rfl, Reference.perform_eq_onBucket _ rfl]
      exact dispatch_refines hwf _

/-- Calls run one after another. -/
def run (kvs : MDSKVS) (calls : List Call) : MDSKVS :=
  calls.foldl (fun current call => (current.perform call).2) kvs

theorem new_wellFormed (defaultBucket : Option Bytes) :
    (new defaultBucket).WellFormed ∧
      (new defaultBucket).contents = Reference.new defaultBucket := by
  have hempty : (⟨OrderedMap.empty, Heap.empty, Heap.empty⟩ : MDSKVS).WellFormed := by
    refine ⟨?_, ?_, ?_, ?_⟩ <;> simp [Heap.empty, default]
  cases defaultBucket with
  | none => exact ⟨hempty, rfl⟩
  | some bucket =>
      obtain ⟨_, _, hcontents, hwf⟩ := createBucket_refines hempty
        (OrderedMap.find_empty bucket)
      exact ⟨hwf, hcontents⟩

theorem run_refines {kvs : MDSKVS} (hwf : kvs.WellFormed) (calls : List Call) :
    (kvs.run calls).WellFormed ∧
      (kvs.run calls).contents = kvs.contents.run calls := by
  induction calls generalizing kvs with
  | nil => exact ⟨hwf, rfl⟩
  | cons call rest ih =>
      obtain ⟨_, hcontents, hwf'⟩ := perform_refines hwf call
      obtain ⟨hrun, heq⟩ := ih hwf'
      refine ⟨hrun, heq.trans ?_⟩
      rw [hcontents]
      rfl

theorem lookup_eq_reference {kvs : MDSKVS} (hwf : kvs.WellFormed) (id : ObjectID) :
    kvs.lookup id = kvs.contents.lookup id := by
  have hanswer := (perform_refines hwf (.lookup id)).1
  rw [Reference.lookup]
  cases hfind : kvs.contents id.bucket with
  | none => simpa [perform, Reference.perform, Reference.onBucket, Call.bucket, hfind,
      Call.missing] using hanswer
  | some contents =>
      cases hkey : contents id.key <;>
        simpa [perform, Reference.perform, Reference.onBucket, Call.bucket, hfind,
          Contents.perform, hkey] using hanswer

theorem bucketStatus_eq_reference {kvs : MDSKVS} (hwf : kvs.WellFormed)
    (bucket : Bytes) : kvs.bucketStatus bucket = kvs.contents.bucketStatus bucket := by
  have hanswer := (perform_refines hwf (.bucketStatus bucket)).1
  rw [Reference.bucketStatus]
  cases hfind : kvs.contents bucket <;>
    simpa [perform, Reference.perform, hfind] using hanswer

/-- A dispatched call that reports a failure leaves the store as it was. -/
theorem dispatch_failed (kvs : MDSKVS) (call : Call)
    (hfailed : (kvs.dispatch call).1.code ≠ .ok) : (kvs.dispatch call).2 = kvs := by
  rw [dispatch] at hfailed ⊢
  cases hget : kvs.getBucket call.bucket with
  | error status => rfl
  | ok ref =>
      rw [hget] at hfailed
      cases call with
      | createObject obj force => exact absurd rfl hfailed
      | updateObject obj =>
          simp only [MDSKVSBucket.perform, MDSKVSBucket.updateObject] at hfailed ⊢
          cases hobject : MDSKVSBucket.getObject kvs ref obj.id.key with
          | error status => rfl
          | ok container =>
              rw [hobject] at hfailed
              exact absurd rfl hfailed
      | deleteObject id =>
          simp only [MDSKVSBucket.perform, MDSKVSBucket.deleteObject] at hfailed ⊢
          cases hobject : (kvs.buckets.get ref).map.find id.key with
          | none => rfl
          | some container =>
              rw [hobject] at hfailed
              exact absurd rfl hfailed
      | deleteObjectPrefix id =>
          simp only [MDSKVSBucket.perform, MDSKVSBucket.deleteObjectPrefix] at hfailed ⊢
          split_ifs at hfailed ⊢ with hend
          · rfl
          · exact absurd rfl hfailed
      | lookup id => rfl
      | createBucket bucket => rfl
      | deleteBucket bucket => rfl
      | bucketStatus bucket => rfl

/-- A call that reports a failure leaves the store as it was. -/
theorem perform_failed {kvs : MDSKVS} (hwf : kvs.WellFormed) (call : Call)
    (hfailed : (kvs.perform call).1.code ≠ .ok) : (kvs.perform call).2 = kvs := by
  cases hstays : call.staysInBucket with
  | true =>
      rw [perform_eq_dispatch kvs hstays] at hfailed ⊢
      exact dispatch_failed kvs call hfailed
  | false =>
      cases call with
      | createBucket bucket =>
          simp only [perform, createBucket] at hfailed ⊢
          cases hfind : kvs.map.find bucket with
          | some ref => rfl
          | none =>
              rw [hfind] at hfailed
              exact absurd rfl hfailed
      | deleteBucket bucket =>
          simp only [perform, deleteBucket] at hfailed ⊢
          cases hfind : kvs.map.find bucket with
          | none => rfl
          | some ref =>
              rw [hfind] at hfailed
              exact absurd rfl hfailed
      | bucketStatus bucket => rfl
      | createObject obj force =>
          have hforce : force = true := by simpa [Call.staysInBucket] using hstays
          subst hforce
          cases hfind : kvs.map.find obj.id.bucket with
          | none =>
              rw [(forceCreateObject_refines hwf obj hfind).1] at hfailed
              exact absurd rfl hfailed
          | some ref =>
              simp only [perform, createObject, getBucket, hfind] at hfailed
              exact absurd rfl hfailed
      | updateObject obj => simp [Call.staysInBucket] at hstays
      | deleteObject id => simp [Call.staysInBucket] at hstays
      | deleteObjectPrefix id => simp [Call.staysInBucket] at hstays
      | lookup id => simp [Call.staysInBucket] at hstays

/-- After every sequence of calls the store answers `lookup` and
`bucketStatus` as the reference model does, the next call gives the reference
answer, and a call answered `NotFound` or `AlreadyExists` changes nothing. -/
theorem run_follows_reference (defaultBucket : Option Bytes) (calls : List Call) :
    let kvs := (new defaultBucket).run calls
    let model := (Reference.new defaultBucket).run calls
    (∀ id, kvs.lookup id = model.lookup id) ∧
      (∀ bucket, kvs.bucketStatus bucket = model.bucketStatus bucket) ∧
      (∀ call, (kvs.perform call).1 = (model.perform call).1) ∧
      ∀ call, (kvs.perform call).1.code = .notFound ∨
        (kvs.perform call).1.code = .alreadyExists → (kvs.perform call).2 = kvs := by
  intro kvs model
  obtain ⟨hnew, hinit⟩ := new_wellFormed defaultBucket
  obtain ⟨hwf, hcontents⟩ := run_refines hnew calls
  have hmodel : kvs.contents = model := by
    rw [hcontents, hinit]
  refine ⟨?_, ?_, ?_, ?_⟩
  · intro id
    rw [lookup_eq_reference hwf, hmodel]
  · intro bucket
    rw [bucketStatus_eq_reference hwf, hmodel]
  · intro call
    rw [(perform_refines hwf call).1, hmodel]
  · intro call hcode
    apply perform_failed hwf call
    rcases hcode with hcode | hcode <;> simp [kvs, hcode]

end MDSKVS

end GEDS
