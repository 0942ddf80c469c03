/-
When the two storage modes of the Go server list the same objects: told from the history
and from the texts of the names alone.
-/
import GEDS.ListedPrefixes

namespace GEDS

open ObjectRequest

namespace ObjectRequest

/-- The last request of the history under the full name of the object was for the object
itself, not for one of another bucket whose name and key join to the same text. -/
def OwnsName (requests : List ObjectRequest) (id : ObjectID) : Prop :=
  ∃ earlier request later, requests = earlier ++ request :: later ∧ request.objectID = id ∧
    ∀ other ∈ later, createObjectKey other.objectID ≠ createObjectKey id

theorem onStored_eq {request : ObjectRequest} (hplain : request.isDeletePrefix = false)
    (stored : ObjectID → Option Object) :
    request.onStored stored = Function.update stored request.objectID request.stores := by
  cases request with
  | createObject object | updateObject object | deleteObject id => rfl
  | deleteObjectPrefix id => cases hplain

theorem onNamed_eq {request : ObjectRequest} (hplain : request.isDeletePrefix = false)
    (named : Bytes → Option Object) :
    request.onNamed named =
      Function.update named (createObjectKey request.objectID) request.stores := by
  cases request with
  | createObject object | updateObject object | deleteObject id => rfl
  | deleteObjectPrefix id => cases hplain

theorem objectID_of_stores {request : ObjectRequest} {object : Object}
    (hstores : request.stores = some object) : request.objectID = object.id := by
  cases request <;> simp only [stores, Option.some.injEq, reduceCtorEq] at hstores <;>
    rw [← hstores] <;> rfl

theorem lastStored_append_singleton (earlier : List ObjectRequest) {request : ObjectRequest}
    (hplain : request.isDeletePrefix = false) :
    lastStored (earlier ++ [request]) =
      Function.update (lastStored earlier) request.objectID request.stores := by
  rw [lastStored, List.foldl_append]
  exact onStored_eq hplain _

theorem lastNamed_append_singleton (earlier : List ObjectRequest) {request : ObjectRequest}
    (hplain : request.isDeletePrefix = false) :
    lastNamed (earlier ++ [request]) =
      Function.update (lastNamed earlier) (createObjectKey request.objectID) request.stores := by
  rw [lastNamed, List.foldl_append]
  exact onNamed_eq hplain _

theorem ownsName_append_singleton_iff (earlier : List ObjectRequest) (request : ObjectRequest)
    (id : ObjectID) :
    OwnsName (earlier ++ [request]) id ↔ request.objectID = id ∨
      createObjectKey request.objectID ≠ createObjectKey id ∧ OwnsName earlier id := by
  constructor
  · rintro ⟨front, last, later, hsplit, hid, hothers⟩
    rcases List.eq_nil_or_concat later with rfl | ⟨between, final, rfl⟩
    · obtain ⟨-, hlast⟩ := List.append_inj' hsplit rfl
      exact Or.inl ((List.singleton_inj.1 hlast) ▸ hid)
    · rw [List.concat_eq_append, ← List.cons_append, ← List.append_assoc] at hsplit
      obtain ⟨rfl, hlast⟩ := List.append_inj' hsplit rfl
      obtain rfl := List.singleton_inj.1 hlast
      rw [List.concat_eq_append] at hothers
      refine Or.inr ⟨hothers _ (by simp), front, last, between, rfl, hid, fun other hmem => ?_⟩
      exact hothers other (List.mem_append_left _ hmem)
  · rintro (hid | ⟨hother, front, last, later, rfl, hid, hothers⟩)
    · exact ⟨earlier, request, [], rfl, hid, by simp⟩
    · refine ⟨front, last, later ++ [request], by simp, hid, fun other hmem => ?_⟩
      rcases List.mem_append.1 hmem with hmem | hmem
      · exact hothers other hmem
      · rwa [List.mem_singleton.1 hmem]

/-- The object that is left under an id is what LevelDB has under its full name just in
case the name is still its own. -/
theorem ownsName_iff {requests : List ObjectRequest}
    (hplain : ∀ request ∈ requests, request.isDeletePrefix = false) {object : Object}
    (hstored : lastStored requests object.id = some object) :
    OwnsName requests object.id ↔
      lastNamed requests (createObjectKey object.id) = some object := by
  induction requests using List.reverseRecOn with
  | nil => cases hstored
  | append_singleton earlier request ih =>
      have hrequest := hplain request (List.mem_append_right _ List.mem_cons_self)
      have hearlier := fun other hmem => hplain other (List.mem_append_left _ hmem)
      rw [lastStored_append_singleton earlier hrequest] at hstored
      rw [ownsName_append_singleton_iff, lastNamed_append_singleton earlier hrequest]
      by_cases hid : request.objectID = object.id
      · rw [hid, Function.update_self] at hstored ⊢
        exact iff_of_true (Or.inl rfl) hstored
      · rw [Function.update_of_ne (Ne.symm hid)] at hstored
        rw [or_iff_right hid]
        by_cases hname : createObjectKey request.objectID = createObjectKey object.id
        · rw [hname, Function.update_self]
          exact iff_of_false (fun howns => howns.1 rfl) fun hstores =>
            hid (objectID_of_stores hstores)
        · rw [Function.update_of_ne (Ne.symm hname), and_iff_right hname]
          exact ih hearlier hstored

/-- Names of buckets without separators keep the full names apart. -/
theorem ownsName_of_buckets {requests : List ObjectRequest}
    (hplain : ∀ request ∈ requests, request.isDeletePrefix = false)
    (hbuckets : ∀ request ∈ requests, slash ∉ request.objectID.bucket) {object : Object}
    (hstored : lastStored requests object.id = some object) : OwnsName requests object.id := by
  obtain ⟨-, maker, hmaker, hstores⟩ := stores_of_lastStored hplain hstored
  have hbucket : slash ∉ object.id.bucket := objectID_of_stores hstores ▸ hbuckets maker hmaker
  clear hstores hmaker maker
  induction requests using List.reverseRecOn with
  | nil => cases hstored
  | append_singleton earlier request ih =>
      have hrequest := List.mem_append_right earlier (List.mem_singleton_self request)
      rw [lastStored_append_singleton earlier (hplain request hrequest)] at hstored
      rw [ownsName_append_singleton_iff]
      by_cases hid : request.objectID = object.id
      · exact Or.inl hid
      · rw [Function.update_of_ne (Ne.symm hid)] at hstored
        refine Or.inr ⟨fun hname => hid ?_, ?_⟩
        · obtain ⟨hsame, hkey⟩ := (fullName_inj (hbuckets request hrequest) hbucket).1 hname
          generalize request.objectID = other at hsame hkey
          obtain ⟨bucket, key⟩ := other
          obtain rfl : bucket = object.id.bucket := hsame
          obtain rfl : key = object.id.key := hkey
          rfl
        · exact ih (fun other hmem => hplain other (List.mem_append_left _ hmem))
            (fun other hmem => hbuckets other (List.mem_append_left _ hmem)) hstored

end ObjectRequest

/-- What the history has left does not tell the modes apart.  Among the objects of the
bucket, the bytes of the prefix and its directory select the same where LevelDB still has
the object; where it has not, the tree must not find it either; and no object of another
bucket has a full name that begins with that of the query. -/
structure ModesMatch (requests : List ObjectRequest) (query : ObjectID) : Prop where
  own : ∀ object, StoredIn requests query.bucket object → OwnsName requests object.id →
    ListedAlike query.key object.id.key
  lost : ∀ object, StoredIn requests query.bucket object → ¬ OwnsName requests object.id →
    trimSpace query.key ≠ [] ∧ ¬ LiesBelow query.key object.id.key
  others : ∀ object, lastStored requests object.id = some object →
    object.id.bucket ≠ query.bucket → OwnsName requests object.id →
    ¬ createObjectKey query <+: createObjectKey object.id

/-- As long as no name of a bucket has a separator, only the keys matter. -/
theorem modesMatch_iff_of_buckets {requests : List ObjectRequest}
    (hplain : ∀ request ∈ requests, request.isDeletePrefix = false)
    (hbuckets : ∀ request ∈ requests, slash ∉ request.objectID.bucket) {query : ObjectID}
    (hquery : slash ∉ query.bucket) :
    ModesMatch requests query ↔
      ∀ object, StoredIn requests query.bucket object →
        ListedAlike query.key object.id.key := by
  constructor
  · intro hmatch object hstored
    exact hmatch.own object hstored (ownsName_of_buckets hplain hbuckets hstored.1)
  · intro halike
    refine ⟨fun object hstored _ => halike object hstored, fun object hstored hlost => ?_,
      fun object hstored hother _ hbegins => ?_⟩
    · exact absurd (ownsName_of_buckets hplain hbuckets hstored.1) hlost
    · obtain ⟨-, maker, hmaker, hstores⟩ := stores_of_lastStored hplain hstored
      have hbucket : slash ∉ object.id.bucket :=
        objectID_of_stores hstores ▸ hbuckets maker hmaker
      obtain ⟨rest, hrest⟩ := hbegins
      rw [createObjectKey, createObjectKey, fullName, List.append_assoc, List.cons_append,
        ← fullName, fullName_inj hquery hbucket] at hrest
      exact hother hrest.1.symm

section Match

variable {requests : List ObjectRequest}
  (hplain : ∀ request ∈ requests, request.isDeletePrefix = false) {query : ObjectID}

theorem isPrefix_createObjectKey_iff {id : ObjectID} (hbucket : id.bucket = query.bucket) :
    createObjectKey query <+: createObjectKey id ↔ query.key <+: id.key := by
  rw [createObjectKey, createObjectKey, fullName, fullName, hbucket,
    List.prefix_append_right_inj, List.cons_prefix_cons, and_iff_right rfl]

include hplain

/-- Both modes find the same of what the history left. -/
theorem modesMatch_iff :
    ModesMatch requests query ↔
      ∀ object, lastStored requests object.id = some object →
        (object.id.bucket = query.bucket ∧
            getNestedPath query <+: PrefixTree.directoriesOf object.id.key ↔
          createObjectKey query <+: createObjectKey object.id ∧
            lastNamed requests (createObjectKey object.id) = some object) := by
  have hbelow : ∀ id : ObjectID, getNestedPath query <+: PrefixTree.directoriesOf id.key ↔
      trimSpace query.key = [] ∨ LiesBelow query.key id.key :=
    fun id => isPrefix_directoriesOf_iff query.key id.key
  constructor
  · intro hmatch object hstored
    rw [← ownsName_iff hplain hstored]
    by_cases hbucket : object.id.bucket = query.bucket
    · rw [and_iff_right hbucket, isPrefix_createObjectKey_iff hbucket]
      by_cases howns : OwnsName requests object.id
      · rw [and_iff_left howns]
        exact ((listedAlike_iff _ _).1 (hmatch.own object ⟨hstored, hbucket⟩ howns)).symm
      · rw [hbelow]
        exact iff_of_false (not_or.2 (hmatch.lost object ⟨hstored, hbucket⟩ howns))
          fun hnamed => howns hnamed.2
    · exact iff_of_false (fun hin => hbucket hin.1)
        fun hnamed => hmatch.others object hstored hbucket hnamed.2 hnamed.1
  · intro hsame
    refine ⟨fun object hstored howns => ?_, fun object hstored hlost => ?_,
      fun object hstored hother howns hbegins => ?_⟩
    · have hobject := hsame object hstored.1
      rw [← ownsName_iff hplain hstored.1, and_iff_right hstored.2, and_iff_left howns,
        isPrefix_createObjectKey_iff hstored.2] at hobject
      exact (listedAlike_iff _ _).2 hobject.symm
    · have hobject := hsame object hstored.1
      rw [← ownsName_iff hplain hstored.1, and_iff_right hstored.2, hbelow] at hobject
      exact not_or.1 fun hin => hlost (hobject.1 hin).2
    · have hobject := hsame object hstored
      rw [← ownsName_iff hplain hstored] at hobject
      exact hother (hobject.2 ⟨hbegins, howns⟩).1

end Match

/-- After every sequence of creates, updates and deletes, the two modes list the same
objects for a request without delimiter exactly if it names no bucket or the names that
are left match. -/
theorem modes_agree_iff (requests : List ObjectRequest)
    (hplain : ∀ request ∈ requests, request.isDeletePrefix = false)
    (request : ObjectListRequest)
    (hdelimiter : request.delimiter = none ∨ request.delimiter = some 0) :
    (∀ object, object ∈ ((KeyValueStore.new.run requests).listObjects request).1.1 ↔
        object ∈ ((Database.applied requests).listObjects request).results) ↔
      ∀ query, request.keyPrefix = some query → query.bucket ≠ [] →
        ModesMatch requests query := by
  have hquery : ∀ query, request.keyPrefix = some query → query.bucket ≠ [] →
      request.query = some (query, []) := by
    intro query hprefix hbucket
    rw [ObjectListRequest.query, hprefix]
    have hlength : query.bucket.length ≠ 0 := fun hzero => hbucket (List.length_eq_zero_iff.1 hzero)
    rcases hdelimiter with hdelimiter | hdelimiter <;> simp [hdelimiter, hlength]
  have hnone : (∀ query, request.keyPrefix = some query → query.bucket = []) →
      request.query = none := by
    intro hunnamed
    rw [ObjectListRequest.query]
    cases hprefix : request.keyPrefix with
    | none => rfl
    | some query => simp [hunnamed query hprefix]
  constructor
  · intro hsame query hprefix hbucket
    refine (modesMatch_iff hplain).2 fun object hstored => ?_
    have hobject := hsame object
    rw [KeyValueStore.mem_run_listObjects_iff hplain (hquery query hprefix hbucket),
      Database.mem_applied_listObjects_iff hplain (hquery query hprefix hbucket)] at hobject
    exact ⟨fun hdirectory => hobject.1 ⟨hstored, hdirectory⟩,
      fun hnamed => (hobject.2 hnamed).2⟩
  · intro hcondition object
    by_cases hbucket : ∃ query, request.keyPrefix = some query ∧ query.bucket ≠ []
    · obtain ⟨query, hprefix, hbucket⟩ := hbucket
      rw [KeyValueStore.mem_run_listObjects_iff hplain (hquery query hprefix hbucket),
        Database.mem_applied_listObjects_iff hplain (hquery query hprefix hbucket)]
      constructor
      · rintro ⟨hstored, hdirectory⟩
        exact ((modesMatch_iff hplain).1 (hcondition query hprefix hbucket) object hstored).1
          hdirectory
      · intro hnamed
        have hstored := (ObjectRequest.named_last hplain).stored_of_named hnamed.2
        exact ⟨hstored,
          ((modesMatch_iff hplain).1 (hcondition query hprefix hbucket) object hstored).2 hnamed⟩
    · have hquery := hnone fun query hprefix => by
        by_contra hne
        exact hbucket ⟨query, hprefix, hne⟩
      rw [KeyValueStore.listObjects_eq, Database.listObjects, StoreHandler.listObjects, hquery]
      rfl

namespace StorageModes.Sample

def object (key : Bytes) : Object := ⟨⟨text "data", key⟩, ⟨text "geds://node", 1, 1, none⟩⟩

def requests : List ObjectRequest :=
  [.createObject (object (text "dir/a")), .updateObject (object (text "dir/b"))]

def list (key : Bytes) : ObjectListRequest := ⟨some ⟨text "data", key⟩, none⟩

/-- The keys of the directory go on behind its name. -/
theorem directory_match : ModesMatch requests ⟨text "data", text "dir/"⟩ := by
  refine (modesMatch_iff_of_buckets (by decide) (by decide) (by decide)).2 ?_
  rintro object ⟨hstored, -⟩
  obtain ⟨-, request, hmem, hstores⟩ := stores_of_lastStored (by decide) hstored
  have halike : ∀ name, trimRight name ≠ [] →
      ¬ LeadingSpace (text "dir/" ++ name) → ListedAlike (text "dir/") (text "dir/" ++ name) := by
    intro name hname hleading
    rw [ListedAlike, if_neg (by decide), if_neg (not_or.2 ⟨by decide, hleading⟩),
      if_pos (by decide)]
    intro rest hrest
    rwa [← List.append_cancel_left hrest]
  rcases List.mem_pair.1 hmem with rfl | rfl
  · obtain rfl := Option.some.inj hstores
    exact halike (text "a") (by decide) (by decide)
  · obtain rfl := Option.some.inj hstores
    exact halike (text "b") (by decide) (by decide)

/-- Both modes list the objects of a directory. -/
theorem directory_agrees :
    (object (text "dir/a") ∈
        ((KeyValueStore.new.run requests).listObjects (list (text "dir/"))).1.1) ∧
      ∀ object, object ∈
          ((KeyValueStore.new.run requests).listObjects (list (text "dir/"))).1.1 ↔
        object ∈ ((Database.applied requests).listObjects (list (text "dir/"))).results := by
  have hmemory : ((KeyValueStore.new.run requests).listObjects (list (text "dir/"))).1.1 =
      [object (text "dir/a"), object (text "dir/b")] := by rfl
  refine ⟨by simp [hmemory], (modes_agree_iff requests (by decide) (list (text "dir/"))
    (Or.inl rfl)).2 ?_⟩
  intro query hprefix _
  obtain rfl := Option.some.inj hprefix
  exact directory_match

/-- A prefix that ends inside a component finds nothing in the tree. -/
theorem component_disagrees :
    ((KeyValueStore.new.run requests).listObjects (list (text "di"))).1.1 = [] ∧
      ((Database.applied requests).listObjects (list (text "di"))).results =
        [object (text "dir/a"), object (text "dir/b")] ∧
      ¬ ∀ object, object ∈
          ((KeyValueStore.new.run requests).listObjects (list (text "di"))).1.1 ↔
        object ∈ ((Database.applied requests).listObjects (list (text "di"))).results := by
  have hmemory : ((KeyValueStore.new.run requests).listObjects (list (text "di"))).1.1 = [] := by
    rfl
  have hpersistent : ((Database.applied requests).listObjects (list (text "di"))).results =
      [object (text "dir/a"), object (text "dir/b")] := by rfl
  refine ⟨hmemory, hpersistent, fun hsame => ?_⟩
  rw [hmemory, hpersistent] at hsame
  exact List.not_mem_nil ((hsame _).2 List.mem_cons_self)

end StorageModes.Sample

end GEDS
