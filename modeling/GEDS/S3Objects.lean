/-
The objects that S3 has for a bucket.  `Endpoint::list` collects them from pages that end
anywhere, `PopulateKVS` registers them, `Endpoint::deletePrefix` deletes them in batches,
and `GEDS::status` finds what is left of them.
-/
import GEDS.FileListing
import GEDS.MDSKVSDelete
import GEDS.S3Location

namespace GEDS

open Status

universe v

variable {β : Type v}

/-- The objects of a bucket in S3, by their sizes. -/
abbrev S3Bucket := OrderedMap Bytes UInt64

/-- What a `DeleteObjects` request ends with: its status, and which of its keys S3 deletes.
Keys that S3 fails to delete do not show in the status. -/
structure BatchOutcome where
  status : Status
  deleted : Bytes → Bool

namespace S3Bucket

variable (bucket : S3Bucket)

/-- The objects below a prefix. -/
def listed (pre : Bytes) : List (Bytes × UInt64) :=
  bucket.entries.filter fun entry => decide (pre <+: entry.1)

/-- The answers to `ListObjectsV2` without a delimiter: the objects in pages of any length,
where every page but the last has the token of the next one. -/
inductive Pages : List (Bytes × UInt64) → List (Except Status ListPage) → Prop
  | last (objects : List (Bytes × UInt64)) : Pages objects [.ok ⟨objects, [], []⟩]
  | more {rest : List (Bytes × UInt64)} {answers : List (Except Status ListPage)}
      (objects : List (Bytes × UInt64)) {token : Bytes} (htoken : token ≠ [])
      (hrest : Pages rest answers) :
      Pages (objects ++ rest) (.ok ⟨objects, [], token⟩ :: answers)

/-- The service deletes keys of a request. -/
def deleteKeys (deleted : Bytes → Bool) (keys : List Bytes) : S3Bucket :=
  keys.foldl (fun bucket key => if deleted key then bucket.erase key else bucket) bucket

/-- The loop of `Endpoint::deletePrefix`; `none` while it waits for an answer. -/
def deleteFrom (files : List FileStatus) :
    List BatchOutcome → Nat → S3Bucket → Option (Status × S3Bucket)
  | outcomes, startPos, bucket =>
      if files.length ≤ startPos then some (okStatus, bucket)
      else
        match outcomes with
        | [] => none
        | outcome :: rest =>
            let endPos := min (startPos + 1000) files.length
            let keys := ((files.drop startPos).take (endPos - startPos)).map FileStatus.key
            let deleted := bucket.deleteKeys outcome.deleted keys
            if outcome.status.ok then deleteFrom files rest endPos deleted
            else some (outcome.status, deleted)

/-- `Endpoint::deletePrefix` -/
def deletePrefix (balancing : Balancing β FileStatus) (answers : List (Except Status ListPage))
    (outcomes : List BatchOutcome) : Option (Status × S3Bucket) :=
  match Endpoint.list balancing 0 answers with
  | none => none
  | some (.error status) => some (status, bucket)
  | some (.ok files) => deleteFrom files outcomes 0 bucket

/-- `Endpoint::fileStatus` -/
def fileStatus (key : Bytes) : Except Status FileStatus :=
  match bucket.find key with
  | some size => .ok ⟨key, size, false⟩
  | none =>
      .error (notFoundError (text "Unable to file status: the " ++ key ++ text " does not exist!"))

/-- `Endpoint::folderStatus` -/
def folderStatus (key : Bytes) (delimiter : UInt8) : Except Status FileStatus :=
  if bucket.listed key ≠ [] ∨ key = [delimiter] then .ok ⟨key, 0, true⟩
  else .error (notFoundError (text "Folder " ++ key ++ text " not found."))

def objectStore : ObjectStore := ⟨bucket.fileStatus, bucket.folderStatus⟩

end S3Bucket

section Listing

/-- With distinct keys, the entries of `std::set` are those that were put in. -/
theorem EachOnce.perm {same : FileStatus → FileStatus → Bool} {values listed : List FileStatus}
    (h : EachOnce same values listed) (hnodup : values.Nodup)
    (hsame : ∀ value ∈ values, ∀ other ∈ values, same value other = true ↔ value = other) :
    listed.Perm values := by
  rw [List.perm_iff_count]
  intro value
  by_cases hmem : value ∈ values
  · rw [List.count_eq_one_of_mem hnodup hmem, ← h.once value hmem, List.count]
    apply List.countP_congr
    intro other hother
    rw [beq_iff_eq, hsame value hmem other (h.only other hother), eq_comm]
  · rw [List.count_eq_zero_of_not_mem hmem,
      List.count_eq_zero_of_not_mem fun hlisted => hmem (h.only value hlisted)]

/-- The entry of an object. -/
def fileEntry (object : Bytes × UInt64) : FileStatus := ⟨object.1, object.2, false⟩

namespace S3Bucket

theorem listedEntries_zero (objects : List (Bytes × UInt64)) :
    listedEntries 0 objects [] = objects.map fileEntry := by
  simp [listedEntries, fileEntry]

theorem Pages.listInto_ok {objects : List (Bytes × UInt64)}
    {answers : List (Except Status ListPage)} (h : Pages objects answers)
    (balancing : Balancing β FileStatus) (result : StatusSet β) :
    ∃ after, Endpoint.listInto balancing 0 answers result = some (okStatus, after) := by
  induction h with
  | last objects => exact ⟨_, rfl⟩
  | more objects htoken _ ih =>
      obtain ⟨after, hafter⟩ := ih
      refine ⟨after.emplaceAll FileStatus.less balancing (listedEntries 0 objects []), ?_⟩
      rw [Endpoint.listInto, if_pos htoken, hafter]
      rfl

theorem Pages.entriesOf_perm {objects : List (Bytes × UInt64)}
    {answers : List (Except Status ListPage)} (h : Pages objects answers) :
    (Endpoint.entriesOf 0 answers).Perm (objects.map fileEntry) := by
  induction h with
  | last objects =>
      rw [Endpoint.entriesOf, if_neg fun htoken => htoken rfl, listedEntries_zero]
      exact List.Perm.refl _
  | more objects htoken _ ih =>
      rw [Endpoint.entriesOf, if_pos htoken, listedEntries_zero, List.map_append]
      exact (ih.append_right _).trans List.perm_append_comm

/-- However the service cuts its answer into pages, the vector has every object once. -/
theorem list_of_pages {objects : List (Bytes × UInt64)}
    {answers : List (Except Status ListPage)} (hpages : Pages objects answers)
    (hkeys : (objects.map Prod.fst).Nodup) (balancing : Balancing β FileStatus) :
    ∃ order : List (Bytes × UInt64), order.Perm objects ∧
      Endpoint.list balancing 0 answers = some (.ok (order.map fileEntry)) := by
  obtain ⟨after, hafter⟩ := hpages.listInto_ok balancing SearchTree.leaf
  have hentries := hpages.entriesOf_perm
  have hperm : after.toList.Perm (objects.map fileEntry) := by
    have hfile : ∀ entry ∈ Endpoint.entriesOf 0 answers, ∃ object ∈ objects,
        fileEntry object = entry := fun entry hmem => List.mem_map.1 (hentries.mem_iff.1 hmem)
    have hbehind : FileStatus.FilesBehind (Endpoint.entriesOf 0 answers) := by
      intro file _ directory hdirectory _ hisDirectory
      obtain ⟨object, -, rfl⟩ := hfile directory hdirectory
      cases hisDirectory
    have honce := SearchTree.eachOnce_emplaceAll (FileStatus.ranks_iff.2 hbehind) balancing
      (List.Perm.refl (Endpoint.entriesOf 0 answers))
    rw [Endpoint.listInto_ok hafter rfl]
    refine (honce.perm ?_ ?_).trans hentries
    · rw [hentries.nodup_iff]
      apply List.Nodup.of_map FileStatus.key
      rw [List.map_map]
      exact hkeys
    · intro value hvalue other hother
      obtain ⟨object, hobject, rfl⟩ := hfile value hvalue
      obtain ⟨object', hobject', rfl⟩ := hfile other hother
      rw [FileStatus.same_eq_true_iff]
      constructor
      · intro hrank
        have hkey : object.1 = object'.1 := (Prod.ext_iff.1 (toLex.injective hrank)).2
        rw [List.inj_on_of_nodup_map hkeys hobject hobject' hkey]
      · exact congrArg FileStatus.rank
  refine ⟨after.toList.map fun file => (file.key, file.size), ?_, ?_⟩
  · have hobjects := hperm.map fun file => (file.key, file.size)
    rw [List.map_map] at hobjects
    exact hobjects.trans (List.Perm.of_eq (List.map_id objects))
  · have hfiles : (after.toList.map fun file => (file.key, file.size)).map fileEntry =
        after.toList := by
      rw [List.map_map]
      refine (List.map_congr_left fun file hmem => ?_).trans (List.map_id _)
      obtain ⟨object, -, rfl⟩ := List.mem_map.1 (hperm.mem_iff.1 hmem)
      rfl
    rw [hfiles, Endpoint.list, hafter]
    rfl

theorem listed_keys_nodup (bucket : S3Bucket) (pre : Bytes) :
    ((bucket.listed pre).map Prod.fst).Nodup :=
  bucket.keys_nodup.sublist (List.Sublist.map Prod.fst List.filter_sublist)

theorem mem_listed_iff (bucket : S3Bucket) (pre : Bytes) (object : Bytes × UInt64) :
    object ∈ bucket.listed pre ↔ bucket.find object.1 = some object.2 ∧ pre <+: object.1 := by
  rw [listed, List.mem_filter, decide_eq_true_iff, bucket.find_eq_some_iff]

end S3Bucket

end Listing

section Populating

/-- The entry as `PopulateKVS` reads it. -/
def FileStatus.listEntry (file : FileStatus) : GEDSFileStatus :=
  ⟨file.key, file.size, file.isDirectory⟩

/-- What `PopulateKVS` registers for an object. -/
def populatedInfo (bucket key : Bytes) (size : UInt64) : ObjectInfo :=
  (populatedObject bucket ⟨key, size, false⟩).info

/-- What is stored when the objects of S3 are registered over what was there. -/
def S3Bucket.registered (objects : S3Bucket) (bucket : Bytes)
    (stored : ObjectID → Option ObjectInfo) (id : ObjectID) : Option ObjectInfo :=
  if id.bucket = bucket then
    ((objects.find id.key).map (populatedInfo bucket id.key)).or (stored id)
  else stored id

variable {kvs : MDSKVS} {bucket : Bytes}

/-- The bucket is there afterwards, and no object comes or goes. -/
theorem createBucket_spec (hwf : kvs.WellFormed) (bucket : Bytes) :
    ((kvs.createBucket bucket).1.ok = true ∨ (kvs.createBucket bucket).1.code = .alreadyExists) ∧
      (∃ ref, (kvs.createBucket bucket).2.map.find bucket = some ref) ∧
      (kvs.createBucket bucket).2.WellFormed ∧
      (kvs.createBucket bucket).2.stored = kvs.stored := by
  cases hfind : kvs.map.find bucket with
  | some ref =>
      rw [MDSKVS.createBucket, hfind]
      exact ⟨Or.inr rfl, ⟨ref, hfind⟩, hwf, rfl⟩
  | none =>
      obtain ⟨hok, hcreated, hcontents, hwf'⟩ := MDSKVS.createBucket_refines hwf hfind
      refine ⟨Or.inl (by rw [hok]; rfl), ⟨_, hcreated⟩, hwf', funext fun id => ?_⟩
      rw [MDSKVS.stored, MDSKVS.stored, hcontents]
      by_cases hbucket : id.bucket = bucket
      · rw [hbucket, Function.update_self, (MDSKVS.contents_eq_none_iff kvs bucket).2 hfind]
        rfl
      · rw [Function.update_of_ne hbucket]

/-- The loop registers every object, and keeps what has another name. -/
theorem foldl_populateEntry_stored (hwf : kvs.WellFormed) {ref : Nat}
    (hfind : kvs.map.find bucket = some ref) {objects : List (Bytes × UInt64)}
    (hkeys : (objects.map Prod.fst).Nodup) :
    let populated := (objects.map fun object => (fileEntry object).listEntry).foldl
      (populateEntry bucket ref) kvs
    populated.WellFormed ∧
      (∀ object ∈ objects, populated.stored ⟨bucket, object.1⟩ =
        some (populatedInfo bucket object.1 object.2)) ∧
      ∀ id : ObjectID, (id.bucket = bucket → id.key ∉ objects.map Prod.fst) →
        populated.stored id = kvs.stored id := by
  induction objects generalizing kvs with
  | nil => exact ⟨hwf, fun object hmem => absurd hmem List.not_mem_nil, fun _ _ => rfl⟩
  | cons object rest ih =>
      rw [List.map_cons, List.nodup_cons] at hkeys
      have hwf' := (MDSKVS.createObject_touches hwf ref
        (populatedObject bucket (fileEntry object).listEntry)).wellFormed
      have hcreated := @MDSKVS.stored_createObject kvs hwf ref
        (populatedObject bucket (fileEntry object).listEntry) hfind
      obtain ⟨hpopulated, hstored, hkept⟩ := ih hwf' hfind hkeys.2
      refine ⟨hpopulated, ?_, ?_⟩
      · rw [List.forall_mem_cons]
        refine ⟨(hkept _ fun _ => hkeys.1).trans ?_, hstored⟩
        rw [hcreated]
        exact Function.update_self ..
      · intro id hother
        rw [List.map_cons] at hother
        refine (hkept id fun hbucket hmem =>
          hother hbucket (List.mem_cons_of_mem _ hmem)).trans ?_
        rw [hcreated, Function.update_of_ne]
        rintro rfl
        exact hother rfl List.mem_cons_self

theorem populateKVS_eq (kvs : MDSKVS) (bucket : Bytes) {ref : Nat}
    (hstatus : (kvs.createBucket bucket).1.ok = true ∨
      (kvs.createBucket bucket).1.code = .alreadyExists)
    (hfind : (kvs.createBucket bucket).2.map.find bucket = some ref)
    (files : Except Status (List GEDSFileStatus)) :
    populateKVS kvs bucket files =
      match files with
      | .error status => (status, (kvs.createBucket bucket).2)
      | .ok files =>
          (okStatus, files.foldl (populateEntry bucket ref) (kvs.createBucket bucket).2) := by
  have hgoes : ¬ ((kvs.createBucket bucket).1.ok = false ∧
      (kvs.createBucket bucket).1.code ≠ .alreadyExists) := by
    rintro ⟨hfailed, hcode⟩
    rcases hstatus with hok | hexists
    · cases hok.symm.trans hfailed
    · exact hcode hexists
  cases files with
  | error status => rw [populateKVS, if_neg hgoes, MDSKVS.getBucket, hfind]
  | ok files => rw [populateKVS, if_neg hgoes, MDSKVS.getBucket, hfind]

/-- What `RegisterObjectStore` leaves in the metadata: every object that S3 has is
registered with its `populatedInfo`, also over a record of another location; all other
records stay.  It does not depend on how S3 cuts its list into pages; when the list fails,
every record stays. -/
theorem populateKVS_registers (hwf : kvs.WellFormed) (bucket : Bytes) (objects : S3Bucket)
    {answers : List (Except Status ListPage)}
    (hpages : S3Bucket.Pages (objects.listed []) answers) (balancing : Balancing β FileStatus) :
    (∃ files, Endpoint.list balancing 0 answers = some (.ok files) ∧
      (populateKVS kvs bucket (.ok (files.map FileStatus.listEntry))).1 = okStatus ∧
      (populateKVS kvs bucket (.ok (files.map FileStatus.listEntry))).2.stored =
        objects.registered bucket kvs.stored) ∧
    ∀ status, (populateKVS kvs bucket (.error status)).1 = status ∧
      (populateKVS kvs bucket (.error status)).2.stored = kvs.stored := by
  have hnodup := objects.listed_keys_nodup []
  obtain ⟨order, hperm, hlist⟩ := S3Bucket.list_of_pages hpages hnodup balancing
  obtain ⟨hstatus, ⟨ref, hfind⟩, hwf', hcreated⟩ := createBucket_spec hwf bucket
  obtain ⟨-, hstored, hkept⟩ := foldl_populateEntry_stored hwf' hfind
    ((hperm.map Prod.fst).nodup_iff.2 hnodup)
  have hpopulate := populateKVS_eq kvs bucket hstatus hfind
  refine ⟨⟨_, hlist, by rw [hpopulate], ?_⟩, fun status => ?_⟩
  swap
  · rw [hpopulate]
    exact ⟨rfl, hcreated⟩
  rw [hpopulate, List.map_map]
  funext id
  rw [S3Bucket.registered]
  by_cases hbucket : id.bucket = bucket
  · rw [if_pos hbucket]
    cases hobject : objects.find id.key with
    | some size =>
        have hmem : (id.key, size) ∈ order := hperm.mem_iff.2
          ((objects.mem_listed_iff [] _).2 ⟨hobject, List.nil_prefix⟩)
        have hid : id = ⟨bucket, id.key⟩ := by rw [← hbucket]
        rw [hid]
        exact hstored _ hmem
    | none =>
        refine (hkept id fun _ hmem => ?_).trans (congrFun hcreated id)
        obtain ⟨object, hobject', hkey⟩ := List.mem_map.1 hmem
        have hlisted := ((objects.mem_listed_iff [] _).1 (hperm.mem_iff.1 hobject')).1
        rw [hkey, hobject] at hlisted
        cases hlisted
  · rw [if_neg hbucket]
    exact (hkept id fun heq => absurd heq hbucket).trans (congrFun hcreated id)

namespace S3Sample

def data : Bytes := text "data"

def plain : Balancing Unit FileStatus := ⟨(), id, fun _ => rfl⟩

def objects : S3Bucket := (OrderedMap.empty.insert (text "a") 1).insert (text "ab") 2

def pages : List (Except Status ListPage) :=
  [.ok ⟨[(text "a", 1)], [], text "next"⟩, .ok ⟨[(text "ab", 2)], [], []⟩]

theorem objects_pages (pre : Bytes) (hlisted : objects.listed pre = objects.entries) :
    S3Bucket.Pages (objects.listed pre) pages :=
  hlisted ▸ .more [(text "a", 1)] (by decide) (.last [(text "ab", 2)])

/-- An object of that name was registered elsewhere. -/
def registered : MDSKVS :=
  (MDSKVS.new none).run [.createBucket data,
    .createObject ⟨⟨data, text "a"⟩, ⟨text "geds://node", 9, 9, none⟩⟩ false]

theorem registered_wellFormed : registered.WellFormed :=
  (MDSKVS.run_refines (MDSKVS.new_wellFormed none).1 _).1

theorem objects_registered :
    (∃ files, Endpoint.list plain 0 pages = some (.ok files) ∧
      (populateKVS registered data (.ok (files.map FileStatus.listEntry))).1 = okStatus ∧
      (populateKVS registered data (.ok (files.map FileStatus.listEntry))).2.stored =
        objects.registered data registered.stored) ∧
    objects.registered data registered.stored ⟨data, text "a"⟩ =
      some ⟨text "s3://data/a", 1, 1, none⟩ :=
  ⟨(populateKVS_registers registered_wellFormed data objects
    (objects_pages [] (by decide)) plain).1, by decide⟩

end S3Sample

end Populating

section Deleting

namespace S3Bucket

variable (bucket : S3Bucket)

theorem find_deleteKeys (deleted : Bytes → Bool) (keys : List Bytes) (key : Bytes) :
    (bucket.deleteKeys deleted keys).find key =
      if key ∈ keys ∧ deleted key = true then none else bucket.find key := by
  rw [deleteKeys]
  induction keys generalizing bucket with
  | nil => simp
  | cons head rest ih =>
      rw [List.foldl_cons, ih]
      by_cases hkey : key = head
      · by_cases hdeleted : deleted head = true <;>
          simp [hkey, hdeleted, OrderedMap.find_erase]
      · by_cases hdeleted : deleted head = true <;>
          simp [hkey, hdeleted, OrderedMap.find_erase]

/-- The request for a batch is sent: all before it succeeded. -/
def Requested (outcomes : List BatchOutcome) (batch : Nat) : Prop :=
  ∀ outcome ∈ outcomes.take batch, outcome.status.ok = true

/-- The key is in a batch that was requested, and S3 deleted it. -/
def Deleted (outcomes : List BatchOutcome) (batch : Nat) (key : Bytes) : Prop :=
  Requested outcomes batch ∧ ∃ outcome, outcomes[batch]? = some outcome ∧ outcome.deleted key = true

theorem deleted_zero {outcome : BatchOutcome} {rest : List BatchOutcome} {key : Bytes} :
    Deleted (outcome :: rest) 0 key ↔ outcome.deleted key = true := by
  simp [Deleted, Requested]

theorem deleted_succ {outcome : BatchOutcome} {rest : List BatchOutcome} {batch : Nat}
    {key : Bytes} :
    Deleted (outcome :: rest) (batch + 1) key ↔
      outcome.status.ok = true ∧ Deleted rest batch key := by
  simp [Deleted, Requested, and_assoc]

/-- The loop from a position on.  A file is in the batch that its index gives; what is
deleted in the batches that are requested is gone, and everything else stays. -/
structure DeletesFrom (files : List FileStatus) (outcomes : List BatchOutcome) (startPos : Nat)
    (before : S3Bucket) (status : Status) (after : S3Bucket) : Prop where
  gone : ∀ index file, files[index]? = some file → startPos ≤ index →
    Deleted outcomes ((index - startPos) / 1000) file.key → after.find file.key = none
  kept : ∀ key, (∀ index file, files[index]? = some file → startPos ≤ index →
      file.key = key → ¬ Deleted outcomes ((index - startPos) / 1000) key) →
    after.find key = before.find key
  missing : ∀ key, before.find key = none → after.find key = none
  status : status.ok = true ↔
    ∀ outcome ∈ outcomes.take ((files.length - startPos + 999) / 1000), outcome.status.ok = true

theorem DeletesFrom.done {files : List FileStatus} {startPos : Nat}
    (hdone : files.length ≤ startPos) (outcomes : List BatchOutcome) :
    DeletesFrom files outcomes startPos bucket okStatus bucket where
  gone index file hfile hstart := by
    have hlt := (List.getElem?_eq_some_iff.1 hfile).1
    omega
  kept _ _ := rfl
  missing _ hnone := hnone
  status := by
    have hnone : (files.length - startPos + 999) / 1000 = 0 := by omega
    rw [hnone, List.take_zero]
    exact iff_of_true rfl fun _ hmem => absurd hmem List.not_mem_nil

/-- The keys of one request. -/
theorem mem_batch_iff {files : List FileStatus} {startPos endPos : Nat} {key : Bytes} :
    key ∈ ((files.drop startPos).take (endPos - startPos)).map FileStatus.key ↔
      ∃ index file, files[index]? = some file ∧ startPos ≤ index ∧ index < endPos ∧
        file.key = key := by
  rw [List.mem_map]
  constructor
  · rintro ⟨file, hmem, hkey⟩
    obtain ⟨offset, hoffset⟩ := List.mem_iff_getElem?.1 hmem
    rw [List.getElem?_take, List.getElem?_drop] at hoffset
    split_ifs at hoffset with hlt
    exact ⟨startPos + offset, file, hoffset, by omega, by omega, hkey⟩
  · rintro ⟨index, file, hfile, hstart, hend, hkey⟩
    refine ⟨file, List.mem_iff_getElem?.2 ⟨index - startPos, ?_⟩, hkey⟩
    rw [List.getElem?_take, if_pos (by omega), List.getElem?_drop, ← hfile]
    congr 1
    omega

variable {bucket}

/-- A request whose batch S3 answers, before the rest of the loop. -/
theorem DeletesFrom.request {files : List FileStatus} {outcome : BatchOutcome}
    {rest : List BatchOutcome} {startPos endPos : Nat} {status : Status} {after : S3Bucket}
    (hstart : startPos < files.length) (hend : endPos = min (startPos + 1000) files.length)
    (hok : outcome.status.ok = true)
    (hrest : DeletesFrom files rest endPos (bucket.deleteKeys outcome.deleted
      (((files.drop startPos).take (endPos - startPos)).map FileStatus.key)) status after) :
    DeletesFrom files (outcome :: rest) startPos bucket status after := by
  have hfirst : ∀ index, startPos ≤ index → index < endPos → (index - startPos) / 1000 = 0 := by
    omega
  have hlater : ∀ index, endPos ≤ index → index < files.length →
      (index - startPos) / 1000 = (index - endPos) / 1000 + 1 := by
    omega
  constructor
  · intro index file hfile hle hdeleted
    have hlt := (List.getElem?_eq_some_iff.1 hfile).1
    by_cases hbatch : index < endPos
    · rw [hfirst index hle hbatch, deleted_zero] at hdeleted
      apply hrest.missing
      rw [find_deleteKeys, if_pos]
      exact ⟨mem_batch_iff.2 ⟨index, file, hfile, hle, hbatch, rfl⟩, hdeleted⟩
    · rw [hlater index (by omega) hlt, deleted_succ] at hdeleted
      exact hrest.gone index file hfile (by omega) hdeleted.2
  · intro key hkept
    refine (hrest.kept key ?_).trans ?_
    · intro index file hfile hle hkey hdeleted
      have hlt := (List.getElem?_eq_some_iff.1 hfile).1
      apply hkept index file hfile (by omega) hkey
      rw [hlater index hle hlt, deleted_succ]
      exact ⟨hok, hdeleted⟩
    · rw [find_deleteKeys, if_neg]
      rintro ⟨hmem, hdeleted⟩
      obtain ⟨index, file, hfile, hle, hbatch, hkey⟩ := mem_batch_iff.1 hmem
      apply hkept index file hfile hle hkey
      rw [hfirst index hle hbatch, deleted_zero]
      exact hdeleted
  · intro key hnone
    apply hrest.missing
    rw [find_deleteKeys, hnone, ite_self]
  · have hcount : (files.length - startPos + 999) / 1000 =
        (files.length - endPos + 999) / 1000 + 1 := by
      omega
    rw [hrest.status, hcount, List.take_succ_cons, List.forall_mem_cons]
    exact (and_iff_right hok).symm

/-- The loop ends with a request that fails. -/
theorem DeletesFrom.failed {files : List FileStatus} {outcome : BatchOutcome}
    {startPos endPos : Nat} (rest : List BatchOutcome) (hstart : startPos < files.length)
    (hend : endPos = min (startPos + 1000) files.length) (hfailed : ¬ outcome.status.ok = true) :
    DeletesFrom files (outcome :: rest) startPos bucket outcome.status
      (bucket.deleteKeys outcome.deleted
        (((files.drop startPos).take (endPos - startPos)).map FileStatus.key)) := by
  have hfirst : ∀ index, startPos ≤ index → index < endPos → (index - startPos) / 1000 = 0 := by
    omega
  constructor
  · intro index file hfile hle hdeleted
    have hlt := (List.getElem?_eq_some_iff.1 hfile).1
    by_cases hbatch : index < endPos
    · rw [hfirst index hle hbatch, deleted_zero] at hdeleted
      rw [find_deleteKeys, if_pos]
      exact ⟨mem_batch_iff.2 ⟨index, file, hfile, hle, hbatch, rfl⟩, hdeleted⟩
    · have hlater : (index - startPos) / 1000 = (index - endPos) / 1000 + 1 := by omega
      rw [hlater, deleted_succ] at hdeleted
      exact absurd hdeleted.1 hfailed
  · intro key hkept
    rw [find_deleteKeys, if_neg]
    rintro ⟨hmem, hdeleted⟩
    obtain ⟨index, file, hfile, hle, hbatch, hkey⟩ := mem_batch_iff.1 hmem
    apply hkept index file hfile hle hkey
    rw [hfirst index hle hbatch, deleted_zero]
    exact hdeleted
  · intro key hnone
    rw [find_deleteKeys, hnone, ite_self]
  · have hcount : (files.length - startPos + 999) / 1000 =
        (files.length - endPos + 999) / 1000 + 1 := by
      omega
    rw [hcount, List.take_succ_cons, List.forall_mem_cons]
    exact iff_of_false hfailed fun hall => hfailed hall.1

/-- The loop ends when S3 has answered as many requests as there are batches. -/
theorem deleteFrom_spec {files : List FileStatus} {outcomes : List BatchOutcome} {startPos : Nat}
    (henough : files.length ≤ startPos + 1000 * outcomes.length) :
    ∃ status after, deleteFrom files outcomes startPos bucket = some (status, after) ∧
      DeletesFrom files outcomes startPos bucket status after := by
  induction outcomes generalizing startPos bucket with
  | nil =>
      have hdone : files.length ≤ startPos := by simpa using henough
      exact ⟨okStatus, bucket, by rw [deleteFrom, if_pos hdone], .done bucket hdone []⟩
  | cons outcome rest ih =>
      by_cases hdone : files.length ≤ startPos
      · exact ⟨okStatus, bucket, by rw [deleteFrom, if_pos hdone], .done bucket hdone _⟩
      · rw [List.length_cons] at henough
        rw [deleteFrom, if_neg hdone]
        dsimp only
        split_ifs with hok
        · obtain ⟨status, after, hrun, hrest⟩ :=
            @ih (bucket.deleteKeys outcome.deleted _) (min (startPos + 1000) files.length)
              (by omega)
          exact ⟨status, after, hrun, hrest.request (by omega) rfl hok⟩
        · exact ⟨_, _, rfl, .failed rest (by omega) rfl hok⟩

/-- `Endpoint::deletePrefix`, whatever the pages and however the requests end.  Nothing
outside the prefix is touched; when every request succeeds and S3 deletes its keys, nothing
is left below the prefix. -/
theorem deletePrefix_spec {objects : S3Bucket} {pre : Bytes}
    {answers : List (Except Status ListPage)} (hpages : Pages (objects.listed pre) answers)
    (balancing : Balancing β FileStatus) {outcomes : List BatchOutcome}
    (henough : (objects.listed pre).length ≤ 1000 * outcomes.length) :
    ∃ (order : List (Bytes × UInt64)) (status : Status) (after : S3Bucket),
      order.Perm (objects.listed pre) ∧
      objects.deletePrefix balancing answers outcomes = some (status, after) ∧
      DeletesFrom (order.map fileEntry) outcomes 0 objects status after ∧
      (∀ key, ¬ pre <+: key → after.find key = objects.find key) ∧
      ((∀ outcome ∈ outcomes, outcome.status.ok = true ∧ ∀ key, outcome.deleted key = true) →
        status.ok = true ∧ ∀ key, pre <+: key → after.find key = none) := by
  obtain ⟨order, hperm, hlist⟩ :=
    list_of_pages hpages (objects.listed_keys_nodup pre) balancing
  have hbatches : (order.map fileEntry).length ≤ 0 + 1000 * outcomes.length := by
    rw [List.length_map, hperm.length_eq, Nat.zero_add]
    exact henough
  obtain ⟨status, after, hrun, hdeletes⟩ := @deleteFrom_spec objects _ _ _ hbatches
  have hlisted : ∀ (key : Bytes) (index : Nat) (file : FileStatus),
      (order.map fileEntry)[index]? = some file → file.key = key → pre <+: key := by
    rintro key index file hfile rfl
    obtain ⟨object, hobject, rfl⟩ := List.mem_map.1 (List.mem_of_getElem? hfile)
    exact ((objects.mem_listed_iff pre object).1 (hperm.mem_iff.1 hobject)).2
  refine ⟨order, status, after, hperm, by rw [deletePrefix, hlist]; exact hrun, hdeletes, ?_, ?_⟩
  · intro key houtside
    apply hdeletes.kept
    intro index file hfile _ hkey
    exact absurd (hlisted key index file hfile hkey) houtside
  · intro hall
    refine ⟨hdeletes.status.2 fun outcome hmem => (hall outcome (List.mem_of_mem_take hmem)).1, ?_⟩
    intro key hpre
    cases hfind : objects.find key with
    | none => exact hdeletes.missing key hfind
    | some size =>
        have hmem := hperm.mem_iff.2 ((objects.mem_listed_iff pre (key, size)).2 ⟨hfind, hpre⟩)
        obtain ⟨index, hindex⟩ := List.mem_iff_getElem?.1
          (List.mem_map.2 ⟨_, hmem, rfl⟩ : fileEntry (key, size) ∈ order.map fileEntry)
        have hlt := (List.getElem?_eq_some_iff.1 hindex).1
        have hbatch : index / 1000 < outcomes.length := by omega
        refine hdeletes.gone index _ hindex (Nat.zero_le _) ⟨?_, outcomes[index / 1000], ?_, ?_⟩
        · exact fun outcome houtcome => (hall outcome (List.mem_of_mem_take houtcome)).1
        · rw [Nat.sub_zero]
          exact List.getElem?_eq_getElem hbatch
        · exact (hall _ (List.getElem_mem hbatch)).2 key

/-- The objects below the prefix go to S3 in batches of 1000, in the order of the vector,
until a request fails.  An object is gone exactly if S3 deleted it in a batch that was
requested, and the status tells exactly whether a request failed. -/
theorem deletePrefix_batches {objects : S3Bucket} {pre : Bytes}
    {answers : List (Except Status ListPage)} (hpages : Pages (objects.listed pre) answers)
    (balancing : Balancing β FileStatus) {outcomes : List BatchOutcome}
    (henough : (objects.listed pre).length ≤ 1000 * outcomes.length) :
    ∃ (order : List (Bytes × UInt64)) (status : Status) (after : S3Bucket),
      order.Perm (objects.listed pre) ∧
      objects.deletePrefix balancing answers outcomes = some (status, after) ∧
      (∀ index object, order[index]? = some object →
        (Deleted outcomes (index / 1000) object.1 → after.find object.1 = none) ∧
        (¬ Deleted outcomes (index / 1000) object.1 → after.find object.1 = some object.2)) ∧
      (∀ key, ¬ pre <+: key → after.find key = objects.find key) ∧
      (status.ok = true ↔
        ∀ outcome ∈ outcomes.take ((order.length + 999) / 1000), outcome.status.ok = true) := by
  obtain ⟨order, status, after, hperm, hrun, hdeletes, houtside, -⟩ :=
    deletePrefix_spec hpages balancing henough
  refine ⟨order, status, after, hperm, hrun, fun index object hobject => ⟨?_, ?_⟩, houtside, ?_⟩
  · intro hdeleted
    exact hdeletes.gone index (fileEntry object) (by rw [List.getElem?_map, hobject]; rfl)
      (Nat.zero_le index) hdeleted
  · intro hnot
    have hlisted := hperm.mem_iff.1 (List.mem_of_getElem? hobject)
    rw [← ((objects.mem_listed_iff pre object).1 hlisted).1]
    apply hdeletes.kept
    intro other file hfile _ hkey
    have hnodup := (hperm.map Prod.fst).nodup_iff.2 (objects.listed_keys_nodup pre)
    rw [List.getElem?_map] at hfile
    obtain ⟨object', hobject', rfl⟩ := Option.map_eq_some_iff.1 hfile
    have hlt : other < (order.map Prod.fst).length := by
      rw [List.length_map]
      exact (List.getElem?_eq_some_iff.1 hobject').1
    have hsame : other = index := by
      apply (List.getElem?_inj hlt hnodup).1
      rw [List.getElem?_map, List.getElem?_map, hobject, hobject']
      exact congrArg some hkey
    rw [hsame]
    exact hnot
  · have hstatus := hdeletes.status
    rw [List.length_map] at hstatus
    exact hstatus

end S3Bucket

namespace S3Sample

def succeeding : List BatchOutcome := [⟨okStatus, fun _ => true⟩]

theorem objects_deleted :
    ∃ status after, objects.deletePrefix plain pages succeeding = some (status, after) ∧
      status.ok = true := by
  obtain ⟨_, status, after, -, hrun, -, -, hstatus⟩ := @S3Bucket.deletePrefix_batches Unit objects
    (text "a") pages (objects_pages (text "a") (by decide)) plain succeeding (by decide)
  refine ⟨status, after, hrun, hstatus.2 fun outcome hmem => ?_⟩
  rw [List.mem_singleton.1 (List.mem_of_mem_take hmem)]
  rfl

end S3Sample

end Deleting

/-- How `DeletePrefix` of the metadata server ends for its client. -/
inductive ServerAnswer where
  | answered
  | unreached (message : Bytes)
  /-- the server has deleted, but its answer is lost -/
  | lost (message : Bytes)

/-- The members of `GEDS` that `status` and `deleteObjectPrefix` use, with the C++ metadata
server and what S3 has for the buckets with a registered object store. -/
structure S3Client where
  server : MDSKVS
  cache : MDSKVS
  knownBuckets : List Bytes
  objects : Bytes → Option S3Bucket

namespace S3Client

variable (c : S3Client)

def statusClient : StatusClient :=
  ⟨c.server, c.cache, c.knownBuckets, fun bucket => (c.objects bucket).map S3Bucket.objectStore⟩

/-- `GEDS::deleteObjectPrefix` but for the local handles; what S3 answers is only logged. -/
def deleteObjectPrefix (balancing : Balancing β FileStatus) (bucket keyPrefix : Bytes)
    (answer : ServerAnswer) (answers : List (Except Status ListPage))
    (outcomes : List BatchOutcome) : Option (Status × S3Client) :=
  let cached := { c with cache := (c.cache.deleteObjectPrefix ⟨bucket, keyPrefix⟩).2 }
  let deleted := c.server.deleteObjectPrefix ⟨bucket, keyPrefix⟩
  let unavailable (message : Bytes) :=
    unavailableError (text "Unable to execute Delete command: " ++ message)
  match answer with
  | .unreached message => some (unavailable message, cached)
  | .lost message => some (unavailable message, { cached with server := deleted.2 })
  | .answered =>
      let served := { cached with server := deleted.2 }
      if ¬ deleted.1.ok ∧ deleted.1.code ≠ .notFound then some (deleted.1, served)
      else
        match c.objects bucket with
        | none => some (okStatus, served)
        | some objects =>
            match objects.deletePrefix balancing answers outcomes with
            | none => none
            | some (_, after) =>
                some (okStatus,
                  { served with objects := Function.update c.objects bucket (some after) })

end S3Client

section Visible

variable {kvs : MDSKVS}

/-- The server never fails to delete, and deletes what is below the prefix. -/
theorem deleteObjectPrefix_spec (hwf : kvs.WellFormed) (id : ObjectID) :
    ((kvs.deleteObjectPrefix id).1.ok = true ∨
        (kvs.deleteObjectPrefix id).1.code = .notFound) ∧
      (kvs.deleteObjectPrefix id).2.WellFormed ∧
      ∀ other : ObjectID, (kvs.deleteObjectPrefix id).2.stored other =
        if other.bucket = id.bucket ∧ id.key <+: other.key then none else kvs.stored other := by
  obtain ⟨-, hcontents, hwf'⟩ := MDSKVS.perform_refines hwf (.deleteObjectPrefix id)
  change (kvs.deleteObjectPrefix id).2.contents = (kvs.contents.onBucket _).2 at hcontents
  refine ⟨?_, hwf', fun other => ?_⟩
  · rw [MDSKVS.deleteObjectPrefix, MDSKVS.getBucket]
    cases hfind : kvs.map.find id.bucket with
    | none => exact Or.inr rfl
    | some ref =>
        dsimp only [MDSKVSBucket.deleteObjectPrefix]
        split_ifs
        · exact Or.inr rfl
        · exact Or.inl rfl
  · rw [MDSKVS.stored, hcontents, Reference.onBucket, MDSKVS.stored]
    cases hbucket : kvs.contents id.bucket with
    | none =>
        rw [show (Call.deleteObjectPrefix id).bucket = id.bucket from rfl, hbucket]
        dsimp only
        split_ifs with hbelow
        · rw [hbelow.1, hbucket]
          rfl
        · rfl
    | some contents =>
        rw [show (Call.deleteObjectPrefix id).bucket = id.bucket from rfl, hbucket]
        dsimp only [Contents.perform]
        by_cases hother : other.bucket = id.bucket
        · rw [hother, Function.update_self, hbucket, Option.bind_some, Option.bind_some,
            Contents.erasePrefix]
          simp only [true_and]
        · rw [Function.update_of_ne hother, if_neg fun hbelow => hother hbelow.1]

namespace StatusClient

variable {client : StatusClient} {bucket key : Bytes}

/-- A directory with nothing registered below it is what S3 says. -/
theorem listDir_of_nothing {objects : S3Bucket}
    (hobjects : client.objectStores bucket = some objects.objectStore) {k : Bytes}
    (hk : k ≠ [slash]) (hnone : ¬ client.server.HasDirectory bucket k) :
    (client.listDir bucket key k slash).1 =
      if objects.listed k ≠ [] then .ok ⟨k, 0, true⟩ else .error (keyNotFound key) := by
  have hsent : (listRequest ⟨bucket, k⟩ slash).delimiter.isSome = true := by
    simp [listRequest, slash]
  have hempty : ∀ ref, client.server.map.find bucket = some ref →
      ¬ (MDSKVSBucket.listObjects client.server ref k slash).2 ≠ [] := fun ref hfind =>
    mt (MDSKVS.listObjects_snd_ne_nil_iff hfind k).1 hnone
  by_cases hlisted : objects.listed k ≠ []
  · have hfolder : objects.objectStore.folderStatus k slash = .ok ⟨k, 0, true⟩ :=
      if_pos (Or.inl hlisted)
    simp only [listDir, listPrefix, hsent, ↓reduceIte, MDSKVS.listObjects, MDSKVS.getBucket,
      hobjects, hfolder, if_pos hlisted]
    cases hfind : client.server.map.find bucket with
    | none => rfl
    | some ref => simp only [List.length_pos_iff, if_neg (hempty ref hfind)]
  · have hfolder : objects.objectStore.folderStatus k slash =
        .error (notFoundError (text "Folder " ++ k ++ text " not found.")) :=
      if_neg (not_or.2 ⟨hlisted, hk⟩)
    simp only [listDir, listPrefix, hsent, ↓reduceIte, MDSKVS.listObjects, MDSKVS.getBucket,
      hobjects, hfolder, if_neg hlisted]
    cases hfind : client.server.map.find bucket with
    | none => rfl
    | some ref =>
        simp only [List.length_pos_iff, if_neg (hempty ref hfind)]
        rfl

/-- A key that is not registered is what S3 says, if nothing is registered below it. -/
theorem status_of_nothing {objects : S3Bucket} (hwf : client.server.WellFormed)
    (hobjects : client.objectStores bucket = some objects.objectStore) (hne : key ≠ [])
    (hlast : key.getLast? ≠ some slash)
    (hnothing : client.server.NothingBelow bucket key) :
    (client.status bucket key slash).1 =
      match objects.find key with
      | some size => .ok ⟨key, size, false⟩
      | none =>
          if objects.listed (key ++ [slash]) ≠ [] then .ok ⟨key ++ [slash], 0, true⟩
          else .error (keyNotFound key) := by
  obtain ⟨failure, hlookup⟩ := lookup_of_not_stored hwf (hnothing key List.prefix_rfl)
  have hslash : slash ≠ 0 := by decide
  have hdirectory : ¬ client.server.HasDirectory bucket (key ++ [slash]) := by
    rintro ⟨name, hstored, hbegins, -⟩
    exact hstored (hnothing name ((List.prefix_append key [slash]).trans hbegins))
  have hroot : key ++ [slash] ≠ [slash] := by
    intro heq
    exact hne (List.append_left_eq_self.1 heq)
  have hlist := @listDir_of_nothing client bucket key objects hobjects _ hroot hdirectory
  rw [status, if_neg (not_base hne (ne_root_of_getLast? hlast)), if_neg hlast, hlookup, hobjects]
  simp only [if_pos hslash]
  cases hfind : objects.find key with
  | some size =>
      have hfile : objects.objectStore.fileStatus key = .ok ⟨key, size, false⟩ := by
        change objects.fileStatus key = _
        rw [S3Bucket.fileStatus, hfind]
      rw [hfile]
  | none =>
      have hfile : objects.objectStore.fileStatus key = .error (notFoundError
          (text "Unable to file status: the " ++ key ++ text " does not exist!")) := by
        change objects.fileStatus key = _
        rw [S3Bucket.fileStatus, hfind]
      rw [hfile]
      exact hlist

end StatusClient

namespace S3Client

variable {c : S3Client} {bucket keyPrefix : Bytes}

end S3Client

namespace S3Sample

def failing : List BatchOutcome := [⟨unknownError [], fun _ => false⟩]

def client : S3Client := ⟨registered, registered, [], fun _ => some objects⟩

end S3Sample

end Visible

end GEDS
