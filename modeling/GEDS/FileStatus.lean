/-
`GEDS::status`: whether a key is a file or a directory.  A file is looked up at the server;
a directory is recognised in the list of its prefix, by the directories below it.
-/
import GEDS.CacheListing
import GEDS.MDSKVSForced

namespace GEDS

open Status

/-- `GEDSFileStatus` -/
structure FileStatus where
  key : Bytes
  size : UInt64
  isDirectory : Bool
deriving DecidableEq

/-- `geds::s3::Endpoint`, by what it answers for a key. -/
structure ObjectStore where
  fileStatus : Bytes → Except Status FileStatus
  folderStatus : Bytes → UInt8 → Except Status FileStatus

/-- The members of `GEDS` that `status` and `mkdirs` use, with the C++ metadata server. -/
structure StatusClient where
  server : MDSKVS
  cache : MDSKVS
  knownBuckets : List Bytes
  objectStores : Bytes → Option ObjectStore

/-- `Default_DirectoryMarker` -/
def defaultDirectoryMarker : Bytes := text "_$folder$"

/-- `std::string::rfind(byte)`; `none` is `npos`. -/
def rfind (name : Bytes) (byte : UInt8) : Option Nat :=
  (name.reverse.findIdx? fun other => decide (other = byte)).map (name.length - 1 - ·)

theorem rfind_lt {name : Bytes} {byte : UInt8} {pos : Nat} (hfind : rfind name byte = some pos) :
    pos < name.length := by
  obtain ⟨index, hindex, rfl⟩ := Option.map_eq_some_iff.1 hfind
  have hlt := (List.findIdx?_eq_some_iff_findIdx_eq.1 hindex).1
  rw [List.length_reverse] at hlt
  omega

/-- The path of a directory ends with the separator. -/
def folderOf (path : Bytes) : Bytes :=
  if path.getLast? = some slash then path else path ++ [slash]

theorem length_dropLast_folderOf_le (path : Bytes) :
    (folderOf path).dropLast.length ≤ path.length := by
  rw [folderOf]
  split_ifs <;> simp

/-- `"Key " + key + " not found!"` -/
def keyNotFound (key : Bytes) : Status :=
  notFoundError (text "Key " ++ key ++ text " not found!")

namespace StatusClient

variable (client : StatusClient)

/-- `GEDS::lookupBucket` -/
def lookupBucket (bucket : Bytes) : Status × StatusClient :=
  if client.knownBuckets.contains bucket then (okStatus, client)
  else
    let status := client.server.bucketStatus bucket
    if status.ok then (okStatus, { client with knownBuckets := bucket :: client.knownBuckets })
    else (status, client)

/-- `MetadataService::lookup` with `invalidate`: the cache is not asked. -/
def lookup (id : ObjectID) : Except Status Object × StatusClient :=
  match client.server.lookup id with
  | .error status => (.error status, client)
  | .ok object => (.ok object, { client with cache := Caching.remember [object] client.cache })

/-- `MetadataService::listPrefix` -/
def listPrefix (id : ObjectID) (delimiter : UInt8) :
    Except Status (List Object × List Bytes) × StatusClient :=
  match client.server.listObjects id
      (if (listRequest id delimiter).delimiter.isSome then delimiter else 0) with
  | .error status => (.error status, client)
  | .ok listing =>
      (.ok listing, { client with cache := Caching.remember listing.1 client.cache })

/-- `listDir` in `GEDS::status` -/
def listDir (bucket key k : Bytes) (delimiter : UInt8) : Except Status FileStatus × StatusClient :=
  let list := client.listPrefix ⟨bucket, k⟩ delimiter
  let notFound : Except Status FileStatus :=
    match client.objectStores bucket with
    | none => .error (keyNotFound key)
    | some s3 =>
        match s3.folderStatus k delimiter with
        | .ok status => .ok status
        | .error status =>
            if status.code ≠ .notFound then .error status else .error (keyNotFound key)
  match list.1 with
  | .error _ => (notFound, list.2)
  | .ok listing =>
      if 0 < listing.2.length then (.ok ⟨k, 0, true⟩, list.2) else (notFound, list.2)

/-- `GEDS::status` -/
def status (bucket key : Bytes) (delimiter : UInt8) : Except Status FileStatus × StatusClient :=
  if key.length = 0 ∨ key = [delimiter] then
    let isRegistered := client.lookupBucket bucket
    if isRegistered.1.ok ∨ (client.objectStores bucket).isSome then
      (.ok ⟨key, 0, true⟩, isRegistered.2)
    else (.error (notFoundError (text "Bucket not found!")), isRegistered.2)
  else if key.getLast? = some delimiter then client.listDir bucket key key delimiter
  else
    let obj := client.lookup ⟨bucket, key⟩
    match obj.1 with
    | .ok object => (.ok ⟨key, object.info.size, false⟩, obj.2)
    | .error _ =>
        let asDirectory :=
          if delimiter ≠ 0 then obj.2.listDir bucket key (key ++ [delimiter]) delimiter
          else (.error (keyNotFound key), obj.2)
        match client.objectStores bucket with
        | none => asDirectory
        | some s3 =>
            match s3.fileStatus key with
            | .ok status => (.ok status, obj.2)
            | .error status =>
                if status.code ≠ .notFound then (.error status, obj.2) else asDirectory

/-- The file with the marker of a directory is created and sealed: it is registered with
the server, as an empty object on this host.  `created` is what `GEDS::create` returns; with
another status than OK there is no file to seal. -/
def sealMarker (hostURI bucket folderPath : Bytes) (created : Status) :
    Option (Status × StatusClient) :=
  if created.ok then
    let sealed := client.server.createObject ⟨⟨bucket, folderPath⟩, ⟨hostURI, 0, 0, none⟩⟩ false
    some (sealed.1, { client with server := sealed.2 })
  else if created.code ≠ .alreadyExists then some (created, client)
  else none

/-- `GEDS::mkdirs` with the delimiter `/`; `none` if the process ends because the marker of
a directory exists on this node. -/
def mkdirs (hostURI : Bytes) (create : Bytes → Status) (client : StatusClient)
    (bucket path : Bytes) : Option (Status × StatusClient) :=
  if path = [] ∨ path = [slash] then some (okStatus, client)
  else
    match client.sealMarker hostURI bucket (folderOf path ++ defaultDirectoryMarker)
        (create (folderOf path ++ defaultDirectoryMarker)) with
    | none => none
    | some (status, client) =>
        if !status.ok && decide (status.code ≠ .alreadyExists) then some (status, client)
        else
          match _hstrip : rfind (folderOf path).dropLast slash with
          | none => some (okStatus, client)
          | some stripPos => mkdirs hostURI create client bucket ((folderOf path).take stripPos)
termination_by path.length
decreasing_by
  have hlt := rfind_lt _hstrip
  have hfolder := length_dropLast_folderOf_le path
  rw [List.length_take]
  omega

end StatusClient

/-- There is a directory below the prefix: an object whose name has a separator behind it. -/
def MDSKVS.HasDirectory (server : MDSKVS) (bucket keyPrefix : Bytes) : Prop :=
  ∃ name, server.stored ⟨bucket, name⟩ ≠ none ∧ keyPrefix <+: name ∧
    slash ∈ name.drop keyPrefix.length

/-- Nothing is stored under the prefix. -/
def MDSKVS.NothingBelow (server : MDSKVS) (bucket keyPrefix : Bytes) : Prop :=
  ∀ name, keyPrefix <+: name → server.stored ⟨bucket, name⟩ = none

theorem MDSKVS.NothingBelow.not_hasDirectory {server : MDSKVS} {bucket keyPrefix : Bytes}
    (hnothing : server.NothingBelow bucket keyPrefix) : ¬ server.HasDirectory bucket keyPrefix := by
  rintro ⟨name, hstored, hbegins, -⟩
  exact hstored (hnothing name hbegins)

theorem MDSKVS.stored_ne_none_iff {server : MDSKVS} {bucket : Bytes} {ref : Nat}
    (hfind : server.map.find bucket = some ref) (name : Bytes) :
    server.stored ⟨bucket, name⟩ ≠ none ↔
      ∃ container, (server.buckets.get ref).map.find name = some container := by
  rw [stored, contents_of_find hfind, Option.bind_some, ne_eq, bucketContents_eq_none_iff,
    ← ne_eq, Option.ne_none_iff_exists']

/-- The list of a prefix has common prefixes exactly if there is a directory below. -/
theorem MDSKVS.listObjects_snd_ne_nil_iff {server : MDSKVS} {bucket : Bytes} {ref : Nat}
    (hfind : server.map.find bucket = some ref) (keyPrefix : Bytes) :
    (MDSKVSBucket.listObjects server ref keyPrefix slash).2 ≠ [] ↔
      server.HasDirectory bucket keyPrefix := by
  rw [ne_eq, List.eq_nil_iff_forall_not_mem]
  push Not
  simp only [MDSKVSBucket.mem_listObjects_snd_iff, HasDirectory, stored_ne_none_iff hfind]
  constructor
  · rintro ⟨cut, -, name, container, hname, hcut⟩
    refine ⟨name, ⟨container, hname⟩, ?_, hcut.mem_drop⟩
    obtain ⟨middle, rest, -, rfl, -⟩ := hcut
    exact List.prefix_append _ _
  · rintro ⟨name, ⟨container, hname⟩, hbegins, hslash⟩
    have hslash_ne : slash ≠ 0 := by decide
    cases hcut : cutOf keyPrefix.length slash name with
    | none =>
        exact absurd hslash (((cutOf_eq_none_iff hbegins slash).1 hcut).resolve_left hslash_ne)
    | some cut =>
        exact ⟨cut, hslash_ne, name, container, hname,
          ((cutOf_eq_some_iff hbegins slash cut).1 hcut).2⟩

namespace StatusClient

variable {client : StatusClient} {bucket key : Bytes}

/-- `listDir` without an object store: a directory is one that has a directory below it. -/
theorem listDir_of_no_store (hstore : client.objectStores bucket = none) (k : Bytes) :
    (client.server.HasDirectory bucket k →
      (client.listDir bucket key k slash).1 = .ok ⟨k, 0, true⟩) ∧
    (¬ client.server.HasDirectory bucket k →
      (client.listDir bucket key k slash).1 = .error (keyNotFound key)) := by
  have hsent : (listRequest ⟨bucket, k⟩ slash).delimiter.isSome = true := by
    simp [listRequest, slash]
  simp only [listDir, listPrefix, hsent, ↓reduceIte, MDSKVS.listObjects, MDSKVS.getBucket, hstore]
  cases hfind : client.server.map.find bucket with
  | none =>
      have hnone : ¬ client.server.HasDirectory bucket k := by
        rintro ⟨name, hstored, -⟩
        rw [MDSKVS.stored, (MDSKVS.contents_eq_none_iff _ _).2 hfind] at hstored
        exact hstored rfl
      exact ⟨fun hdirectory => absurd hdirectory hnone, fun _ => rfl⟩
  | some ref =>
      have hlisted := MDSKVS.listObjects_snd_ne_nil_iff hfind k
      simp only [List.length_pos_iff]
      constructor
      · intro hdirectory
        rw [if_pos (hlisted.2 hdirectory)]
      · intro hnone
        rw [if_neg fun hne => hnone (hlisted.1 hne)]

theorem lookup_of_not_stored (hwf : client.server.WellFormed) {id : ObjectID}
    (hmissing : client.server.stored id = none) :
    ∃ failure, client.lookup id = (.error failure, client) := by
  have hfailed : ∃ failure, client.server.lookup id = .error failure := by
    rw [MDSKVS.lookup_eq_reference hwf, Reference.lookup]
    rw [MDSKVS.stored] at hmissing
    cases hcontents : client.server.contents id.bucket with
    | none => exact ⟨_, rfl⟩
    | some contents =>
        rw [hcontents, Option.bind_some] at hmissing
        simp only [hmissing]
        exact ⟨_, rfl⟩
  obtain ⟨failure, hlookup⟩ := hfailed
  exact ⟨failure, by rw [lookup, hlookup]⟩

theorem not_base (hne : key ≠ []) (hroot : key ≠ [slash]) : ¬ (key.length = 0 ∨ key = [slash]) := by
  rw [not_or, List.length_eq_zero_iff]
  exact ⟨hne, hroot⟩

theorem ne_root_of_getLast? (hlast : key.getLast? ≠ some slash) : key ≠ [slash] := by
  rintro rfl
  exact hlast rfl

/-- A key that is stored is a file. -/
theorem status_of_stored (hwf : client.server.WellFormed) (hne : key ≠ [])
    (hlast : key.getLast? ≠ some slash) {info : ObjectInfo}
    (hstored : client.server.stored ⟨bucket, key⟩ = some info) :
    (client.status bucket key slash).1 = .ok ⟨key, info.size, false⟩ := by
  rw [status, if_neg (not_base hne (ne_root_of_getLast? hlast)), if_neg hlast, lookup,
    MDSKVS.lookup_of_stored hwf hstored]

/-- A key that is not stored is asked for as a directory. -/
theorem status_of_not_stored (hwf : client.server.WellFormed)
    (hstore : client.objectStores bucket = none) (hne : key ≠ [])
    (hlast : key.getLast? ≠ some slash) (hmissing : client.server.stored ⟨bucket, key⟩ = none) :
    (client.status bucket key slash).1 =
      (client.listDir bucket key (key ++ [slash]) slash).1 := by
  obtain ⟨failure, hlookup⟩ := lookup_of_not_stored hwf hmissing
  have hslash : slash ≠ 0 := by decide
  rw [status, if_neg (not_base hne (ne_root_of_getLast? hlast)), if_neg hlast, hlookup, hstore]
  simp only [if_pos hslash]

theorem status_of_directory (hroot : key ≠ [slash]) (hlast : key.getLast? = some slash) :
    (client.status bucket key slash).1 = (client.listDir bucket key key slash).1 := by
  have hne : key ≠ [] := by
    rintro rfl
    cases hlast
  rw [status, if_neg (not_base hne hroot), if_pos hlast]

/-- The root of a bucket is a directory if the bucket is known, here or at the server. -/
theorem status_root (hstore : client.objectStores bucket = none) :
    (client.status bucket [slash] slash).1 =
      if bucket ∈ client.knownBuckets ∨ client.server.bucketStatus bucket = okStatus then
        .ok ⟨[slash], 0, true⟩
      else .error (notFoundError (text "Bucket not found!")) := by
  rw [status, if_pos (Or.inr rfl), lookupBucket, hstore, MDSKVS.bucketStatus]
  by_cases hknown : bucket ∈ client.knownBuckets
  · simp [hknown, Status.ok, okStatus]
  · cases client.server.map.find bucket <;>
      simp [hknown, Status.ok, okStatus, bucketDoesNotExist, notFoundError]

/-- Nothing that the server has gets lost. -/
structure Extends (client client' : StatusClient) : Prop where
  objectStores : client'.objectStores = client.objectStores
  wellFormed : client'.server.WellFormed
  stored : ∀ {id : ObjectID}, client.server.stored id ≠ none → client'.server.stored id ≠ none

theorem Extends.refl (hwf : client.server.WellFormed) : client.Extends client := ⟨rfl, hwf, id⟩

theorem Extends.trans {second third : StatusClient} (h : client.Extends second)
    (h' : second.Extends third) : client.Extends third :=
  ⟨h'.objectStores.trans h.objectStores, h'.wellFormed, fun hstored => h'.stored (h.stored hstored)⟩

section Mkdirs

variable {hostURI : Bytes} {create : Bytes → Status} {client' : StatusClient} {result : Status}

/-- The marker is stored, or the reason why it is not is returned. -/
theorem sealMarker_extends (hwf : client.server.WellFormed) {folderPath : Bytes} {created : Status}
    (hsealed : client.sealMarker hostURI bucket folderPath created = some (result, client')) :
    client.Extends client' ∧ (result.ok = true ∨ result.code ≠ .alreadyExists) ∧
      (result.ok = true → client'.server.stored ⟨bucket, folderPath⟩ ≠ none) := by
  rw [sealMarker] at hsealed
  split_ifs at hsealed with hcreated hcode
  · simp only [Option.some.injEq, Prod.mk.injEq, MDSKVS.createObject, MDSKVS.getBucket] at hsealed
    obtain ⟨rfl, rfl⟩ := hsealed
    cases hfind : client.server.map.find bucket with
    | none =>
        refine ⟨.refl hwf, Or.inr ?_, ?_⟩
        · simp [bucketDoesNotExist, notFoundError]
        · intro hok
          simp [bucketDoesNotExist, notFoundError, Status.ok] at hok
    | some ref =>
        have hstored := @MDSKVS.stored_createObject client.server hwf ref
          ⟨⟨bucket, folderPath⟩, ⟨hostURI, 0, 0, none⟩⟩ hfind
        refine ⟨⟨rfl, (MDSKVS.createObject_touches hwf ref _).wellFormed, ?_⟩, Or.inl rfl, ?_⟩
        · intro id hold
          rw [hstored, Function.update_apply]
          split_ifs
          · exact Option.some_ne_none _
          · exact hold
        · intro _
          rw [hstored, Function.update_self]
          exact Option.some_ne_none _
  · obtain ⟨rfl, rfl⟩ := Prod.mk.inj (Option.some.inj hsealed)
    exact ⟨.refl hwf, Or.inr hcode, fun hok => absurd hok hcreated⟩

theorem mkdirs_extends (hwf : client.server.WellFormed) {path : Bytes}
    (hmade : mkdirs hostURI create client bucket path = some (result, client')) :
    client.Extends client' := by
  fun_induction mkdirs hostURI create client bucket path with
  | case1 client path hbase =>
      obtain ⟨rfl, rfl⟩ := Prod.mk.inj (Option.some.inj hmade)
      exact .refl hwf
  | case2 client path hbase hsealed => cases hmade
  | case3 client path hbase status sealed hsealed hfailed =>
      obtain ⟨rfl, rfl⟩ := Prod.mk.inj (Option.some.inj hmade)
      exact (sealMarker_extends hwf hsealed).1
  | case4 client path hbase status sealed hsealed hgoes hstrip =>
      obtain ⟨rfl, rfl⟩ := Prod.mk.inj (Option.some.inj hmade)
      exact (sealMarker_extends hwf hsealed).1
  | case5 client path hbase status sealed hsealed hgoes stripPos hstrip ih =>
      have hfirst := (sealMarker_extends hwf hsealed).1
      exact hfirst.trans (ih hfirst.wellFormed hmade)

/-- After a successful `mkdirs` the directory has its marker. -/
theorem mkdirs_marker (hwf : client.server.WellFormed) {path : Bytes}
    (hbase : ¬ (path = [] ∨ path = [slash]))
    (hmade : mkdirs hostURI create client bucket path = some (result, client'))
    (hok : result.ok = true) :
    client'.server.stored ⟨bucket, folderOf path ++ defaultDirectoryMarker⟩ ≠ none := by
  rw [mkdirs, if_neg hbase] at hmade
  cases hsealed : client.sealMarker hostURI bucket (folderOf path ++ defaultDirectoryMarker)
      (create (folderOf path ++ defaultDirectoryMarker)) with
  | none => simp [hsealed] at hmade
  | some made =>
      obtain ⟨status, sealed⟩ := made
      obtain ⟨hfirst, hfailure, hmarker⟩ := sealMarker_extends hwf hsealed
      rw [hsealed] at hmade
      dsimp only at hmade
      split_ifs at hmade with hfailed
      · obtain ⟨rfl, rfl⟩ := Prod.mk.inj (Option.some.inj hmade)
        simp [hok] at hfailed
      · have hsealed_ok : status.ok = true := by
          simp only [Bool.and_eq_true, Bool.not_eq_true', decide_eq_true_eq, not_and,
            not_not] at hfailed
          rcases hfailure with hfine | hcode
          · exact hfine
          · by_contra hnot
            exact hcode (hfailed (Bool.not_eq_true _ |>.mp hnot))
        split at hmade
        · obtain ⟨rfl, rfl⟩ := Prod.mk.inj (Option.some.inj hmade)
          exact hmarker hsealed_ok
        · exact (mkdirs_extends hfirst.wellFormed hmade).stored (hmarker hsealed_ok)

end Mkdirs

/-- The marker of a directory makes the directories that contain it recognisable. -/
theorem hasDirectory_of_marker {server : MDSKVS} {path dir rest : Bytes}
    (hmarker : server.stored ⟨bucket, folderOf path ++ defaultDirectoryMarker⟩ ≠ none)
    (hpath : path = dir ++ slash :: rest) (hrest : rest ≠ []) :
    server.HasDirectory bucket (dir ++ [slash]) := by
  have hfolder : ∃ inner, folderOf path = dir ++ [slash] ++ (inner ++ [slash]) := by
    rw [folderOf, hpath]
    split_ifs with hlast
    · obtain ⟨inner, last, rfl⟩ := List.eq_nil_or_concat rest |>.resolve_left hrest
      have hsplit : dir ++ slash :: inner.concat last = dir ++ slash :: inner ++ [last] := by simp
      rw [hsplit, List.getLast?_concat] at hlast
      rw [Option.some.inj hlast]
      exact ⟨inner, by simp⟩
    · exact ⟨rest, by simp⟩
  obtain ⟨inner, hinner⟩ := hfolder
  refine ⟨_, hmarker, ?_, ?_⟩
  · rw [hinner, List.append_assoc]
    exact List.prefix_append _ _
  · rw [hinner, List.append_assoc, List.drop_left]
    simp

/-- The directories that contain a directory made by `mkdirs` are recognised. -/
theorem status_of_mkdirs (hwf : client.server.WellFormed)
    (hstore : client.objectStores bucket = none) {hostURI : Bytes} {create : Bytes → Status}
    {path dir rest : Bytes} {client' : StatusClient}
    (hmade : mkdirs hostURI create client bucket path = some (okStatus, client'))
    (hpath : path = dir ++ slash :: rest) (hrest : rest ≠ []) (hne : dir ≠ [])
    (hlast : dir.getLast? ≠ some slash) (hmissing : client'.server.stored ⟨bucket, dir⟩ = none) :
    (client'.status bucket dir slash).1 = .ok ⟨dir ++ [slash], 0, true⟩ := by
  have hextends := mkdirs_extends hwf hmade
  have hstore' : client'.objectStores bucket = none := by
    rw [hextends.objectStores]
    exact hstore
  have hbase : ¬ (path = [] ∨ path = [slash]) := by
    rintro (hempty | hslash)
    · exact absurd (hpath.symm.trans hempty) (by simp)
    · obtain ⟨first, dir, rfl⟩ := List.exists_cons_of_ne_nil hne
      have hlength := congrArg List.length (hpath.symm.trans hslash)
      simp at hlength
  have hmarker := mkdirs_marker hwf hbase hmade rfl
  rw [status_of_not_stored hextends.wellFormed hstore' hne hlast hmissing]
  exact (listDir_of_no_store hstore' (dir ++ [slash])).1
    (hasDirectory_of_marker hmarker hpath hrest)

/-- With the C++ server and no object store: an object is a file with its size; a key that
is not stored is a directory if there is a directory below it, and is not found if nothing
is below it.  The root is a directory if the bucket is known.  The directories that contain
a directory made by `mkdirs` are among the directories. -/
theorem status_agrees (client : StatusClient) (defaultBucket : Option Bytes) (calls : List Call)
    (hserver : client.server = (MDSKVS.new defaultBucket).run calls) {bucket : Bytes}
    (hstore : client.objectStores bucket = none) :
    (∀ key, key ≠ [] → key.getLast? ≠ some slash →
      (∀ info, client.server.stored ⟨bucket, key⟩ = some info →
        (client.status bucket key slash).1 = .ok ⟨key, info.size, false⟩) ∧
      (client.server.stored ⟨bucket, key⟩ = none →
        (client.server.HasDirectory bucket (key ++ [slash]) →
          (client.status bucket key slash).1 = .ok ⟨key ++ [slash], 0, true⟩) ∧
        (client.server.NothingBelow bucket (key ++ [slash]) →
          (client.status bucket key slash).1 = .error (keyNotFound key)))) ∧
    (∀ key, key.getLast? = some slash → key ≠ [slash] →
      (client.server.HasDirectory bucket key →
        (client.status bucket key slash).1 = .ok ⟨key, 0, true⟩) ∧
      (client.server.NothingBelow bucket key →
        (client.status bucket key slash).1 = .error (keyNotFound key))) ∧
    ((client.status bucket [slash] slash).1 =
      if bucket ∈ client.knownBuckets ∨ client.server.bucketStatus bucket = okStatus then
        .ok ⟨[slash], 0, true⟩
      else .error (notFoundError (text "Bucket not found!"))) ∧
    ∀ hostURI create path client',
      mkdirs hostURI create client bucket path = some (okStatus, client') →
      ∀ dir rest, path = dir ++ slash :: rest → rest ≠ [] → dir ≠ [] → dir.getLast? ≠ some slash →
        client'.server.stored ⟨bucket, dir⟩ = none →
          (client'.status bucket dir slash).1 = .ok ⟨dir ++ [slash], 0, true⟩ := by
  have hwf : client.server.WellFormed := by
    rw [hserver]
    exact (MDSKVS.run_refines (MDSKVS.new_wellFormed defaultBucket).1 calls).1
  refine ⟨?_, ?_, status_root hstore, ?_⟩
  · intro key hne hlast
    refine ⟨fun info hstored => status_of_stored hwf hne hlast hstored, fun hmissing => ?_⟩
    rw [status_of_not_stored hwf hstore hne hlast hmissing]
    obtain ⟨hfound, hmissed⟩ := @listDir_of_no_store client bucket key hstore (key ++ [slash])
    exact ⟨hfound, fun hnothing => hmissed hnothing.not_hasDirectory⟩
  · intro key hlast hroot
    rw [status_of_directory hroot hlast]
    obtain ⟨hfound, hmissed⟩ := @listDir_of_no_store client bucket key hstore key
    exact ⟨hfound, fun hnothing => hmissed hnothing.not_hasDirectory⟩
  · intro hostURI create path client' hmade dir rest hpath hrest hne hlast hmissing
    exact status_of_mkdirs hwf hstore hmade hpath hrest hne hlast hmissing

namespace Sample

def calls : List Call :=
  [.createBucket (text "data"),
    .createObject ⟨⟨text "data", text "a/b/c"⟩, ⟨text "geds://node", 7, 7, none⟩⟩ false]

def asking (calls : List Call) : StatusClient :=
  ⟨(MDSKVS.new none).run calls, MDSKVS.new none, [], fun _ => none⟩

theorem nested_agrees :
    (asking calls).server = (MDSKVS.new none).run calls ∧
    (asking calls).objectStores (text "data") = none ∧
    ((asking calls).status (text "data") (text "a/b/c") slash).1 =
      .ok ⟨text "a/b/c", 7, false⟩ ∧
    ((asking calls).status (text "data") (text "a") slash).1 = .ok ⟨text "a/", 0, true⟩ := by
  have hagrees := (@status_agrees (asking calls) none calls rfl (text "data") rfl).1
  refine ⟨rfl, rfl, ?_, ?_⟩
  · exact (hagrees (text "a/b/c") (by decide) (by decide)).1 ⟨text "geds://node", 7, 7, none⟩ rfl
  · refine ((hagrees (text "a") (by decide) (by decide)).2 rfl).1 ⟨text "a/b/c", ?_, ?_, ?_⟩
    · exact Option.some_ne_none _
    · decide
    · decide

/-- Nothing is stored in the bucket, and its root is a directory. -/
theorem empty_root_directory :
    ¬ ∀ (client : StatusClient) (defaultBucket : Option Bytes) (calls : List Call) (bucket key : Bytes),
      client.server = (MDSKVS.new defaultBucket).run calls → client.objectStores bucket = none →
      key.getLast? = some slash →
        ((∃ status, (client.status bucket key slash).1 = .ok status ∧ status.isDirectory = true) ↔
          ∃ name, key <+: name ∧ client.server.stored ⟨bucket, name⟩ ≠ none) := by
  intro hall
  obtain ⟨name, -, hstored⟩ := (hall (asking [.createBucket (text "data")]) none
    [.createBucket (text "data")] (text "data") [slash] rfl rfl rfl).1 ⟨_, rfl, rfl⟩
  exact hstored rfl

end Sample

end StatusClient

end GEDS
