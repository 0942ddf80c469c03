/-
What `renamePrefix` does to the objects.  The list is taken once; each rename that finds
its new name free moves one object.  One that finds a file behind it, or an object that
was not opened here, destroys what was there.
-/
import GEDS.Library.Moves
import GEDS.RenameObject

namespace GEDS

open Status

namespace Cluster

variable {c c' : Cluster} {id source dest : ObjectID} {bytes : Bytes}

section RenameEach

variable {bucket key : Bytes} {keys : List Bytes} {status : Status}

/-- What there is under a key, if there is anything. -/
def view (c : Cluster) (bucket key : Bytes) : Option (Option Bytes) :=
  if c.service.server.objects.find ⟨bucket, key⟩ = none ∧
    c.node.fileHandles.find (getPath bucket key) = none then none
  else some (c.content ⟨bucket, key⟩)

theorem view_eq_none : c.view bucket key = none ↔ c.Absent ⟨bucket, key⟩ := by
  rw [view]
  split_ifs with habsent
  · exact iff_of_true rfl habsent
  · exact iff_of_false not_false habsent

theorem view_of_exists (hexists : c.service.server.objects.find ⟨bucket, key⟩ ≠ none) :
    c.view bucket key = some (c.content ⟨bucket, key⟩) :=
  if_neg fun habsent => hexists habsent.1

theorem Renamed.content_dest (h : Renamed source dest c c')
    (hcontent : c.content source = some bytes) : c'.content dest = some bytes :=
  content_of_bytesAt h.made (h.bytes.trans hcontent)

/-- An object with another name keeps its entry and its bytes. -/
theorem Confined.other (h : Confined {source, dest} c c') (hnamespace : c.Namespace)
    (hsource : slash ∉ source.bucket) (hdest : slash ∉ dest.bucket) (hne : id ≠ source)
    (hne' : id ≠ dest) :
    c'.service.server.objects.find id = c.service.server.objects.find id ∧
      c'.content id = c.content id := by
  have hnot : id ∉ ({source, dest} : Set ObjectID) := by simp [hne, hne']
  have hserver := h.server hnot
  refine ⟨hserver, ?_⟩
  cases hinfo : c.service.server.objects.find id with
  | none => rw [content_eq_none hinfo, content_eq_none (hserver.trans hinfo)]
  | some info =>
      exact h.kept (bucket_of_pair hsource hdest) (hnamespace.buckets hinfo) hnot

theorem Renamed.namespace (h : Renamed source dest c c') (hnamespace : c.Namespace)
    (hcontent : c.content source = some bytes) (hsource : slash ∉ source.bucket)
    (hdest : slash ∉ dest.bucket) : c'.Namespace where
  toReady := h.ready
  buckets {id info} hinfo := by
    by_cases hid' : id = dest
    · exact hid' ▸ hdest
    · have hid : id ≠ source := by
        rintro rfl
        rw [h.gone.1] at hinfo
        cases hinfo
      rw [h.server (by simp [hid, hid'])] at hinfo
      exact hnamespace.buckets hinfo
  held {id info} hinfo hbytes := by
    have hid : id ≠ source := by
      rintro rfl
      rw [h.gone.1] at hinfo
      cases hinfo
    have hid' : id ≠ dest := by
      rintro rfl
      rw [h.bytes, hcontent] at hbytes
      cases hbytes
    have hnot : id ∉ ({source, dest} : Set ObjectID) := by simp [hid, hid']
    rw [h.server hnot] at hinfo
    have hpath := path_not_mem (bucket_of_pair hsource hdest) (hnamespace.buckets hinfo) hnot
    rw [(h.node.same _ hpath).bytesAt] at hbytes
    rw [h.held]
    exact hnamespace.held hinfo hbytes

/-- In its bucket a rename is a move. -/
theorem Renamed.view {destination : Bytes}
    (h : Renamed ⟨bucket, key⟩ ⟨bucket, destination⟩ c c') (hnamespace : c.Namespace)
    (hcontent : c.content ⟨bucket, key⟩ = some bytes) (hbucket : slash ∉ bucket) :
    c'.view bucket = moveEntry (c.view bucket) key destination := by
  obtain ⟨info, hinfo⟩ := exists_of_content hcontent
  have hne : destination ≠ key := by
    rintro rfl
    exact h.apart rfl
  funext other
  by_cases hother : other = key
  · rw [hother, moveEntry_source, view_eq_none]
    exact h.gone
  · by_cases hother' : other = destination
    · rw [hother', moveEntry_target hne, view_of_exists h.made, h.content_dest hcontent,
        view_of_exists (by rw [hinfo]; exact Option.some_ne_none _), hcontent]
    · rw [moveEntry_of_ne hother hother']
      obtain ⟨hserver, hsame⟩ := h.toConfined.other hnamespace hbucket hbucket
        (show (⟨bucket, other⟩ : ObjectID) ≠ ⟨bucket, key⟩ by simp [hother])
        (show (⟨bucket, other⟩ : ObjectID) ≠ ⟨bucket, destination⟩ by simp [hother'])
      have hpath : getPath bucket other ∉
          ObjectID.path '' ({⟨bucket, key⟩, ⟨bucket, destination⟩} : Set ObjectID) := by
        rintro ⟨touched, rfl | rfl, hpath⟩
        · exact hother ((fullName_inj_right bucket key other).1 hpath).symm
        · exact hother' ((fullName_inj_right bucket destination other).1 hpath).symm
      rw [Cluster.view, Cluster.view, hserver, hsame, (h.node.same _ hpath).registry]

/-- The objects with some keys were moved one by one, or it stopped, and then the bytes of each
object are under its old or its new name; other objects are as they were. -/
structure MovedEach (target : Bytes → Bytes) (bucket : Bytes) (keys : List Bytes)
    (status : Status) (c c' : Cluster) : Prop where
  moved : status.ok = true → Moved target keys (c.view bucket) (c'.view bucket)
  others : ∀ id : ObjectID, (∀ key ∈ keys, id ≠ ⟨bucket, key⟩ ∧ id ≠ ⟨bucket, target key⟩) →
    c'.service.server.objects.find id = c.service.server.objects.find id ∧
      c'.content id = c.content id
  available : ∀ {id bytes}, c.content id = some bytes → c'.content id = some bytes ∨
    ∃ key ∈ keys, id = ⟨bucket, key⟩ ∧ c'.content ⟨bucket, target key⟩ = some bytes

variable {target : Bytes → Bytes} {c'' : Cluster}

theorem MovedEach.nil : MovedEach target bucket [] status c c :=
  ⟨fun _ => rfl, fun _ _ => ⟨rfl, rfl⟩, fun hcontent => Or.inl hcontent⟩

/-- The loop ends with a rename that fails. -/
theorem MovedEach.stopped (h : c.Namespace) (hbucket : slash ∉ bucket)
    (hconfined : Confined {⟨bucket, key⟩, ⟨bucket, target key⟩} c c')
    (hfailed : status.ok = false)
    (hkeeps : ∀ id bytes, c.content id = some bytes → c'.content id = some bytes ∨
      id = ⟨bucket, key⟩ ∧ c'.content ⟨bucket, target key⟩ = some bytes) :
    MovedEach target bucket (key :: keys) status c c' where
  moved hok := absurd hok (by simp [hfailed])
  others id hid := by
    obtain ⟨hsource, hdest⟩ := hid key List.mem_cons_self
    exact hconfined.other h hbucket hbucket hsource hdest
  available {id bytes} hcontent := by
    rcases hkeeps id bytes hcontent with hsame | ⟨rfl, hnew⟩
    · exact Or.inl hsame
    · exact Or.inr ⟨key, List.mem_cons_self, rfl, hnew⟩

/-- One object is moved, and then the others. -/
theorem MovedEach.cons (h : c.Namespace) (hbucket : slash ∉ bucket)
    (hmoved : Renamed ⟨bucket, key⟩ ⟨bucket, target key⟩ c c')
    (hcontent : c.content ⟨bucket, key⟩ = some bytes)
    (hleft : ∀ other ∈ keys, (⟨bucket, other⟩ : ObjectID) ≠ ⟨bucket, target key⟩)
    (hrest : MovedEach target bucket keys status c' c'') :
    MovedEach target bucket (key :: keys) status c c'' where
  moved hok := by
    refine ⟨view_eq_none.2 hmoved.free, ?_⟩
    rw [← hmoved.view h hcontent hbucket]
    exact hrest.moved hok
  others id hid := by
    rw [List.forall_mem_cons] at hid
    obtain ⟨hserver, hsame⟩ := hmoved.toConfined.other h hbucket hbucket hid.1.1 hid.1.2
    obtain ⟨hserver', hsame'⟩ := hrest.others id hid.2
    exact ⟨hserver'.trans hserver, hsame'.trans hsame⟩
  available {id found} hid := by
    by_cases hsource : id = ⟨bucket, key⟩
    · rw [hsource] at hid ⊢
      rcases hrest.available (hmoved.content_dest hid) with hsame | ⟨other, hother, heq, -⟩
      · exact Or.inr ⟨key, List.mem_cons_self, rfl, hsame⟩
      · exact absurd heq.symm (hleft other hother)
    · have hdest : id ≠ ⟨bucket, target key⟩ := by
        rintro rfl
        rw [content_eq_none hmoved.free.1] at hid
        cases hid
      rw [← (hmoved.toConfined.other h hbucket hbucket hsource hdest).2] at hid
      rcases hrest.available hid with hsame | ⟨other, hother, heq, hnew⟩
      · exact Or.inl hsame
      · exact Or.inr ⟨other, List.mem_cons_of_mem key hother, heq, hnew⟩

end RenameEach

section List

variable {bucket keyPrefix key : Bytes} {objects : List Object}

theorem lookup_toOption (server : MapServer) (id : ObjectID) :
    (server.lookup id).toOption = (server.objects.find id).map (⟨id, ·⟩) := by
  rw [MapServer.lookup]
  cases server.objects.find id <;> rfl

/-- What is remembered replaces what was cached. -/
theorem remember_entry {cache : MDSKVS} (hwf : cache.WellFormed) {server : MapServer}
    (hobjects : ∀ object ∈ objects, server.lookup object.id = .ok object) (id : ObjectID) :
    (Caching.remember objects cache).entry id =
      if id ∈ objects.map Object.id then (server.lookup id).toOption else cache.entry id := by
  induction objects generalizing cache with
  | nil => rfl
  | cons object rest ih =>
      rw [List.forall_mem_cons] at hobjects
      have hwf' := (MDSKVS.perform_refines hwf (.createObject object true)).2.2
      have hrest := @ih (cache.createObject object true).2 hwf' hobjects.2
      change (Caching.remember rest (cache.createObject object true).2).entry id = _
      rw [hrest, MDSKVS.createObject_entry hwf, List.map_cons]
      by_cases hmem : id ∈ rest.map Object.id
      · rw [if_pos hmem, if_pos (List.mem_cons_of_mem _ hmem)]
      · rw [if_neg hmem]
        by_cases hid : id = object.id
        · rw [hid, Function.update_self, if_pos List.mem_cons_self, hobjects.1]
          rfl
        · rw [Function.update_of_ne hid, if_neg (by simpa [hid] using hmem)]

theorem mem_listObjects (server : MapServer) (id : ObjectID) (object : Object) :
    object ∈ (server.listObjects id 0).1 ↔ object.id.bucket = id.bucket ∧
      id.key <+: object.id.key ∧ server.objects.find object.id = some object.info := by
  obtain ⟨name, info⟩ := object
  have huncut : ∀ key, (cutOf id.key.length 0 key).isNone = true := fun key => rfl
  simp only [MapServer.listObjects, huncut, List.filter_true, List.mem_map, List.mem_filter,
    decide_eq_true_eq, AssocMap.find_eq_some_iff]
  constructor
  · rintro ⟨entry, ⟨hentry, hbucket, hkey⟩, hobject⟩
    obtain ⟨rfl, rfl⟩ := Object.mk.inj hobject
    exact ⟨hbucket, hkey, hentry⟩
  · rintro ⟨hbucket, hkey, hentry⟩
    exact ⟨(name, info), ⟨hentry, hbucket, hkey⟩, rfl⟩

/-- Lists of the bucket are answered from the cache. -/
def listsFromCache (c : Cluster) (bucket : Bytes) : Bool :=
  c.pubSubEnabled && (c.service.cache.map.find bucket).isSome

/-- What a list finds of an object, in the cache or at the metadata service. -/
def listed (c : Cluster) (id : ObjectID) : Option Object :=
  if c.listsFromCache id.bucket then c.service.cache.entry id
  else (c.service.server.lookup id).toOption

/-- A list changes no object: the node may know one more bucket, and the cache may learn what the
metadata service has. -/
structure Listing (c c' : Cluster) : Prop where
  kept : ∃ known service, c' =
    { c with node := { c.node with knownBuckets := known }, service := service }
  server : c'.service.server = c.service.server
  wellFormed : c'.service.cache.WellFormed

/-- The list has the objects below the prefix that were found, and they are cached then. -/
structure Lists (bucket keyPrefix : Bytes) (found : ObjectID → Option Object)
    (objects : List Object) (c' : Cluster) : Prop where
  mem : ∀ object, object ∈ objects ↔ object.id.bucket = bucket ∧ keyPrefix <+: object.id.key ∧
    found object.id = some object
  cached : ∀ object ∈ objects, c'.service.cache.entry object.id = some object

theorem Listing.leaves (h : Listing c c') (hready : c.Ready) : Leaves ∅ c c' := by
  obtain ⟨⟨known, service, rfl⟩, hserver, -⟩ := h
  refine ⟨?_, fun _ _ => rfl, fun _ => by rw [hserver], rfl⟩
  rw [Set.image_empty]
  exact Node.touches_knownBuckets hready.sound known

theorem Listing.refl (h : c.Ready) : Listing c c :=
  ⟨⟨c.node.knownBuckets, c.service, rfl⟩, rfl, h.wellFormed⟩

theorem listPrefix_spec (h : c.Ready) (bucket keyPrefix : Bytes) (failure : Option Bytes) :
    Listing c (c.listPrefix ⟨bucket, keyPrefix⟩ failure).2 ∧
      (∀ {status}, (c.listPrefix ⟨bucket, keyPrefix⟩ failure).1 = .error status →
        status.ok = false) ∧
      ∀ {objects}, (c.listPrefix ⟨bucket, keyPrefix⟩ failure).1 = .ok objects →
        Lists bucket keyPrefix (fun id => (c.service.server.lookup id).toOption) objects
          (c.listPrefix ⟨bucket, keyPrefix⟩ failure).2 := by
  cases failure with
  | some reason =>
      exact ⟨Listing.refl h, fun hstatus => Except.error.inj hstatus ▸ rfl,
        fun hobjects => by cases hobjects⟩
  | none =>
      have hlisted : ∀ object ∈ (c.service.listPrefix ⟨bucket, keyPrefix⟩ 0).1.1,
          c.service.server.lookup object.id = .ok object :=
        fun object hobject => MetadataService.lookup_of_listed hobject
      have hentry : ∀ id, (c.listPrefix ⟨bucket, keyPrefix⟩ none).2.service.cache.entry id =
          if id ∈ (c.service.listPrefix ⟨bucket, keyPrefix⟩ 0).1.1.map Object.id then
            (c.service.server.lookup id).toOption
          else c.service.cache.entry id :=
        remember_entry h.wellFormed hlisted
      refine ⟨⟨⟨c.node.knownBuckets, _, rfl⟩, rfl, Caching.remember_wellFormed _ h.wellFormed⟩,
        (fun hstatus => by cases hstatus), fun hobjects => ?_⟩
      obtain rfl := Except.ok.inj hobjects
      refine ⟨fun object => ?_, fun object hobject => ?_⟩
      · refine (mem_listObjects c.service.server ⟨bucket, keyPrefix⟩ object).trans ?_
        rw [toOption_eq_some_iff, MetadataService.lookup_eq_ok_iff]
        simp only [true_and]
      · rw [hentry, if_pos (List.mem_map_of_mem hobject), hlisted object hobject]
        rfl

/-- The list from the cache, if that has the bucket. -/
theorem listPrefixFromCache_spec (h : c.Ready) (bucket keyPrefix : Bytes)
    (failure : Option Bytes) :
    Listing c (c.listPrefixFromCache ⟨bucket, keyPrefix⟩ failure).2 ∧
      (∀ {status}, (c.listPrefixFromCache ⟨bucket, keyPrefix⟩ failure).1 = .error status →
        status.ok = false) ∧
      ∀ {objects}, (c.listPrefixFromCache ⟨bucket, keyPrefix⟩ failure).1 = .ok objects →
        Lists bucket keyPrefix
          (fun id => if (c.service.cache.map.find bucket).isSome then c.service.cache.entry id
            else (c.service.server.lookup id).toOption) objects
          (c.listPrefixFromCache ⟨bucket, keyPrefix⟩ failure).2 := by
  simp only [listPrefixFromCache, MDSKVS.listObjects, MDSKVS.getBucket]
  cases hfind : c.service.cache.map.find bucket with
  | none => exact listPrefix_spec h bucket keyPrefix failure
  | some ref =>
      refine ⟨Listing.refl h, (fun hstatus => by cases hstatus), fun hobjects => ?_⟩
      obtain rfl := Except.ok.inj hobjects
      have hmem := Caching.mem_listed_iff h.wellFormed hfind keyPrefix 0
      refine ⟨fun object => ?_, fun object hobject => ((hmem object).1 hobject).2.1⟩
      rw [hmem]
      constructor
      · rintro ⟨hbucket, hentry, hbelow, -⟩
        exact ⟨hbucket, hbelow, hentry⟩
      · rintro ⟨hbucket, hbelow, hentry⟩
        exact ⟨hbucket, hentry, hbelow, Or.inl rfl⟩

theorem mem_keys_foldl_insert (objects : List Object) (result : OrderedMap Bytes Unit)
    (key : Bytes) :
    key ∈ (objects.foldl (fun result object => result.insert object.id.key ()) result).keys ↔
      key ∈ result.keys ∨ ∃ object ∈ objects, object.id.key = key := by
  induction objects generalizing result with
  | nil => simp
  | cons object rest ih =>
      have hinsert : key ∈ (result.insert object.id.key ()).keys ↔
          key ∈ result.keys ∨ object.id.key = key := by
        simp only [OrderedMap.mem_keys_iff, OrderedMap.find_insert]
        split_ifs with hkey
        · simp [hkey]
        · simp [Ne.symm hkey]
      rw [List.foldl_cons, ih, hinsert, List.exists_mem_cons_iff, or_assoc]

/-- The keys of the set are those of the objects. -/
theorem Lists.mem_keys {found : ObjectID → Option Object}
    (h : Lists bucket keyPrefix found objects c') (key : Bytes) :
    key ∈ (objects.foldl (fun result object => result.insert object.id.key ())
        (OrderedMap.empty : OrderedMap Bytes Unit)).keys ↔
      ∃ info, (⟨⟨bucket, key⟩, info⟩ : Object) ∈ objects := by
  rw [mem_keys_foldl_insert]
  constructor
  · rintro (hempty | ⟨⟨⟨name, other⟩, info⟩, hobject, rfl⟩)
    · exact absurd hempty List.not_mem_nil
    · obtain rfl : name = bucket := ((h.mem _).1 hobject).1
      exact ⟨info, hobject⟩
  · rintro ⟨info, hobject⟩
    exact Or.inr ⟨_, hobject, rfl⟩

/-- The keys below a prefix, in order. -/
def KeysBelow (c : Cluster) (bucket keyPrefix : Bytes) (keys : List Bytes) : Prop :=
  keys.Pairwise (· < ·) ∧ ∀ key, key ∈ keys ↔
    keyPrefix <+: key ∧ c.service.server.objects.find ⟨bucket, key⟩ ≠ none

/-- The list is answered by the metadata service or from the cache. -/
def ListAnswered (c : Cluster) (bucket : Bytes) (failure : Option Bytes) : Prop :=
  failure = none ∨ c.listsFromCache bucket = true

theorem listAnswered_of_ok {keys : List Bytes} {failure : Option Bytes}
    (hlist : (c.list bucket keyPrefix failure).1 = .ok keys) : c.ListAnswered bucket failure := by
  cases failure with
  | none => exact Or.inl rfl
  | some reason =>
      right
      rw [list] at hlist
      rw [listsFromCache]
      cases hpubsub : c.pubSubEnabled with
      | false => simp [hpubsub, listPrefix] at hlist
      | true =>
          cases hfind : c.service.cache.map.find bucket with
          | some ref => rfl
          | none =>
              simp [hpubsub, listPrefixFromCache, MDSKVS.listObjects, MDSKVS.getBucket, hfind,
                listPrefix] at hlist

theorem listed_eq_none_iff (hserver : c.listsFromCache id.bucket = false) :
    c.listed id = none ↔ c.service.server.objects.find id = none := by
  rw [listed, if_neg (Bool.eq_false_iff.1 hserver), lookup_toOption, Option.map_eq_none_iff]

theorem listed_id (hwf : c.service.cache.WellFormed) {object : Object}
    (hlisted : c.listed id = some object) : object.id = id := by
  rw [listed] at hlisted
  split_ifs at hlisted
  · exact MDSKVS.entry_id hwf hlisted
  · exact (lookup_ok (toOption_eq_some_iff.1 hlisted)).1

/-- A list changes no object; if it succeeds, it has the keys below the prefix of the objects that
it finds, and they are known then as they were found. -/
theorem list_spec (h : c.Ready) (bucket keyPrefix : Bytes) (failure : Option Bytes) :
    Listing c (c.list bucket keyPrefix failure).2 ∧
      (∀ {status}, (c.list bucket keyPrefix failure).1 = .error status → status.ok = false) ∧
      ∀ {keys}, (c.list bucket keyPrefix failure).1 = .ok keys →
        keys.Pairwise (· < ·) ∧
        (∀ key, key ∈ keys ↔ keyPrefix <+: key ∧ c.listed ⟨bucket, key⟩ ≠ none) ∧
        ∀ key ∈ keys, (c.list bucket keyPrefix failure).2.record ⟨bucket, key⟩ =
          c.listed ⟨bucket, key⟩ := by
  have hlisted : ∃ listed, listed = (if c.pubSubEnabled then
      c.listPrefixFromCache ⟨bucket, keyPrefix⟩ failure
      else c.listPrefix ⟨bucket, keyPrefix⟩ failure) ∧ Listing c listed.2 ∧
      (∀ {status}, listed.1 = .error status → status.ok = false) ∧
      ∀ {objects}, listed.1 = .ok objects → Lists bucket keyPrefix
        (fun id => if c.listsFromCache bucket then c.service.cache.entry id
          else (c.service.server.lookup id).toOption) objects listed.2 := by
    refine ⟨_, rfl, ?_⟩
    cases hpubsub : c.pubSubEnabled with
    | true =>
        simp only [listsFromCache, hpubsub, Bool.true_and, ↓reduceIte]
        exact listPrefixFromCache_spec h bucket keyPrefix failure
    | false =>
        simp only [listsFromCache, hpubsub, Bool.false_and, Bool.false_eq_true, ↓reduceIte]
        exact listPrefix_spec h bucket keyPrefix failure
  obtain ⟨⟨result, c₁⟩, hresult, hlisting, hfailed, hlists⟩ := hlisted
  obtain ⟨⟨known, service, rfl⟩, hserver, hwf⟩ := hlisting
  simp only [list, ← hresult]
  cases result with
  | error status =>
      exact ⟨⟨⟨known, service, rfl⟩, hserver, hwf⟩,
        fun hstatus => hfailed (congrArg _ (Except.error.inj hstatus)), fun hkeys => by cases hkeys⟩
  | ok objects =>
      refine ⟨⟨⟨_, service, rfl⟩, hserver, hwf⟩, (fun hstatus => by cases hstatus),
        fun hkeys => ?_⟩
      obtain rfl := Except.ok.inj hkeys
      have hlists := hlists rfl
      refine ⟨OrderedMap.keys_sorted _, fun key => ?_, fun key hkey => ?_⟩
      · rw [hlists.mem_keys key]
        constructor
        · rintro ⟨info, hobject⟩
          obtain ⟨-, hbelow, hfound⟩ := (hlists.mem _).1 hobject
          exact ⟨hbelow, by rw [listed, hfound]; exact Option.some_ne_none _⟩
        · rintro ⟨hbelow, hfound⟩
          obtain ⟨⟨id, info⟩, hobject⟩ := Option.ne_none_iff_exists'.1 hfound
          obtain rfl : id = ⟨bucket, key⟩ := listed_id h.wellFormed hobject
          exact ⟨info, (hlists.mem _).2 ⟨rfl, hbelow, hobject⟩⟩
      · obtain ⟨info, hobject⟩ := (hlists.mem_keys key).1 hkey
        refine (record_of_entry (hlists.cached _ hobject)).trans ?_
        exact ((hlists.mem _).1 hobject).2.2.symm

end List

section Lossless

/-- The objects below a prefix were moved, or all bytes are still there; other objects were left
alone. -/
structure Lossless (bucket srcKey destKey : Bytes) (status : Status) (c c' : Cluster) : Prop where
  moved : status.ok = true → ∀ {tail bytes}, c.content ⟨bucket, srcKey ++ tail⟩ = some bytes →
    c'.content ⟨bucket, destKey ++ tail⟩ = some bytes
  gone : status.ok = true → ∀ {tail}, c.content ⟨bucket, srcKey ++ tail⟩ ≠ none →
    (∀ other, other ≠ tail → destKey ++ other = srcKey ++ tail →
      c.content ⟨bucket, srcKey ++ other⟩ = none) → c'.Absent ⟨bucket, srcKey ++ tail⟩
  untouched : ∀ id : ObjectID,
    (id.bucket = bucket → ¬ srcKey <+: id.key ∧ ¬ destKey <+: id.key) →
    c'.service.server.objects.find id = c.service.server.objects.find id ∧
      c'.content id = c.content id
  available : status.ok = false → ∀ {id bytes}, c.content id = some bytes →
    c'.content id = some bytes ∨ ∃ tail, id = ⟨bucket, srcKey ++ tail⟩ ∧
      c'.content ⟨bucket, destKey ++ tail⟩ = some bytes

variable {bucket srcKey destKey key : Bytes} {keys : List Bytes} {status : Status}

theorem newKey_append (srcKey destKey tail : Bytes) :
    newKey srcKey destKey (srcKey ++ tail) = destKey ++ tail := by
  rw [newKey, List.drop_left]

theorem newKey_injOn (hbelow : ∀ key ∈ keys, srcKey <+: key) :
    Set.InjOn (newKey srcKey destKey) {key | key ∈ keys} := by
  intro key hkey other hother heq
  obtain ⟨tail, rfl⟩ := hbelow key hkey
  obtain ⟨tail', rfl⟩ := hbelow other hother
  rw [newKey_append, newKey_append] at heq
  rw [List.append_cancel_left heq]

theorem view_eq_content (hexists : c.view bucket key = some (some bytes)) :
    c.content ⟨bucket, key⟩ = some bytes := by
  rw [view] at hexists
  split_ifs at hexists
  exact Option.some.inj hexists

theorem view_of_content (hcontent : c.content ⟨bucket, key⟩ = some bytes) :
    c.view bucket key = some (some bytes) := by
  obtain ⟨info, hinfo⟩ := exists_of_content hcontent
  rw [view_of_exists (by rw [hinfo]; exact Option.some_ne_none info), hcontent]

theorem Leaves.namespace_nothing (h : Leaves ∅ c c') (hwf : c'.service.cache.WellFormed)
    (hnamespace : c.Namespace) : c'.Namespace where
  toReady := ⟨h.node.sound, hwf⟩
  buckets hinfo := hnamespace.buckets ((h.server (Set.notMem_empty _)).symm.trans hinfo)
  held hinfo hbytes := by
    rw [h.server (Set.notMem_empty _)] at hinfo
    rw [h.bytesAt_nothing] at hbytes
    rw [h.held]
    exact hnamespace.held hinfo hbytes

/-- What the moves of the listed keys leave under the old and the new keys. -/
theorem Lossless.of_moved (h : c.Namespace) (hnodup : keys.Nodup)
    (hmem : ∀ key, key ∈ keys ↔
      srcKey <+: key ∧ c.service.server.objects.find ⟨bucket, key⟩ ≠ none)
    (hmoved : MovedEach (newKey srcKey destKey) bucket keys status c c') :
    Lossless bucket srcKey destKey status c c' := by
  have hlisted : ∀ {tail bytes}, c.content ⟨bucket, srcKey ++ tail⟩ = some bytes →
      srcKey ++ tail ∈ keys := by
    intro tail bytes hcontent
    obtain ⟨info, hinfo⟩ := exists_of_content hcontent
    exact (hmem _).2 ⟨List.prefix_append _ _, by rw [hinfo]; exact Option.some_ne_none info⟩
  have hviewed : ∀ key ∈ keys, c.view bucket key ≠ none := by
    intro key hkey
    rw [view_of_exists ((hmem key).1 hkey).2]
    exact Option.some_ne_none _
  have hbelow : ∀ key ∈ keys, srcKey <+: key := fun key hkey => ((hmem key).1 hkey).1
  refine ⟨fun hok {tail bytes} hcontent => ?_, fun hok {tail} hcontent hlast => ?_,
    fun id hid => hmoved.others id fun key hkey => ?_, fun _ {id bytes} hcontent => ?_⟩
  · have hkey := hlisted hcontent
    have htarget := (hmoved.moved hok).at_target hnodup (newKey_injOn hbelow) hkey hviewed
    rw [newKey_append, view_of_content hcontent] at htarget
    exact view_eq_content htarget
  · obtain ⟨bytes, hbytes⟩ := Option.ne_none_iff_exists'.1 hcontent
    have hkey := hlisted hbytes
    refine view_eq_none.1 ((hmoved.moved hok).gone hkey fun other hother => ?_)
    obtain ⟨tail', rfl⟩ := hbelow other hother
    by_cases hsame : tail' = tail
    · rw [hsame]
      exact (hmoved.moved hok).target_ne hnodup hkey (view_of_content hbytes)
    · rw [newKey_append]
      intro htarget
      obtain ⟨info, hinfo⟩ := Option.ne_none_iff_exists'.1 ((hmem _).1 hother).2
      obtain ⟨found, hfound⟩ := h.content hinfo
      rw [hlast tail' hsame htarget] at hfound
      cases hfound
  · obtain ⟨tail, rfl⟩ := hbelow key hkey
    rw [newKey_append]
    constructor
    · rintro rfl
      exact (hid rfl).1 (List.prefix_append _ _)
    · rintro rfl
      exact (hid rfl).2 (List.prefix_append _ _)
  · rcases hmoved.available hcontent with hsame | ⟨key, hkey, rfl, hnew⟩
    · exact Or.inl hsame
    · obtain ⟨tail, rfl⟩ := hbelow key hkey
      rw [newKey_append] at hnew
      exact Or.inr ⟨tail, rfl, hnew⟩

theorem Lossless.after_list {listed : Cluster} (hleaves : Leaves ∅ c listed)
    (h : Lossless bucket srcKey destKey status listed c') :
    Lossless bucket srcKey destKey status c c' := by
  have hcontent := hleaves.content_nothing
  have hserver : ∀ id, listed.service.server.objects.find id = c.service.server.objects.find id :=
    fun id => hleaves.server (Set.notMem_empty id)
  obtain ⟨hmoved, hgone, huntouched, havailable⟩ := h
  simp only [hcontent, hserver] at hmoved hgone huntouched havailable
  exact ⟨hmoved, hgone, huntouched, havailable⟩

end Lossless

end Cluster

end GEDS
