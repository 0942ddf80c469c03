/-
Where an object of S3 is: three places of the code write a location for it, and
`GEDSS3FileHandle::factory` takes the bucket and the key out of it again.
-/
import GEDS.MDSKVS
import GEDS.S3Download

namespace GEDS

open Status

/-- `"s3://"` -/
def s3Scheme : Bytes := text "s3://"

/-- `GEDSFileStatus` -/
structure GEDSFileStatus where
  key : Bytes
  size : UInt64
  isDirectory : Bool

/-- The location that the constructor of `GEDSS3FileHandle` keeps for the handle. -/
def S3FileHandle.s3Location (handle : S3FileHandle) : Bytes :=
  s3Scheme ++ handle.location.bucket ++ text "/" ++ handle.location.key

/-- How `GEDSS3FileHandle::factory` takes a location apart. -/
def S3FileHandle.parseLocation (location : Bytes) : Except Status ObjectID :=
  if location.take s3Scheme.length ≠ s3Scheme then
    .error (unknownError (text "Object location has invalid prefix for S3 FileHandle: " ++
      location ++ text " expected '" ++ s3Scheme ++ text "' as prefix."))
  else
    match findFrom location slash s3Scheme.length with
    | none =>
        .error (unknownError (location ++ text " invalid! Expected format: " ++ s3Scheme ++
          text "bucket/path"))
    | some splitpos =>
        .ok ⟨(location.drop s3Scheme.length).take (splitpos - s3Scheme.length),
          location.drop (splitpos + 1)⟩

/-- The object that `PopulateKVS` creates for an entry of the listing. -/
def populatedObject (bucket : Bytes) (f : GEDSFileStatus) : Object :=
  let startsWithSlash : Bool := decide (0 < f.key.length) && decide (f.key.head? = some slash)
  ⟨⟨bucket, f.key⟩,
    ⟨s3Scheme ++ bucket ++ (if startsWithSlash then [] else text "/") ++ f.key, f.size, f.size,
      none⟩⟩

/-- The body of the loop of `PopulateKVS`. -/
def populateEntry (bucket : Bytes) (ref : Nat) (kvs : MDSKVS) (f : GEDSFileStatus) : MDSKVS :=
  if f.isDirectory then kvs
  else (MDSKVSBucket.createObject kvs ref (populatedObject bucket f)).2

/-- `PopulateKVS`, with what the endpoint lists. -/
def populateKVS (kvs : MDSKVS) (bucket : Bytes)
    (files : Except Status (List GEDSFileStatus)) : Status × MDSKVS :=
  let created := kvs.createBucket bucket
  if created.1.ok = false ∧ created.1.code ≠ .alreadyExists then created
  else
    match created.2.getBucket bucket with
    | .error status => (status, created.2)
    | .ok ref =>
        match files with
        | .error status => (status, created.2)
        | .ok files => (okStatus, files.foldl (populateEntry bucket ref) created.2)

/-- The objects that the Go server creates in `populateKVSFromS3` for a page. -/
def populateKVSFromS3 (bucket : Bytes) (contents : List GEDSFileStatus) : List Object :=
  contents.map fun s3Object =>
    ⟨⟨bucket, s3Object.key⟩,
      ⟨s3Scheme ++ bucket ++ text "/" ++ s3Object.key, s3Object.size, s3Object.size, none⟩⟩

/-- The location in its usual form. -/
def s3LocationOf (id : ObjectID) : Bytes := s3Scheme ++ fullName id.bucket id.key

theorem S3FileHandle.s3Location_eq (handle : S3FileHandle) :
    handle.s3Location = s3LocationOf handle.location := by
  simp [s3Location, s3LocationOf, fullName, text_slash]

theorem populateKVSFromS3_location {bucket : Bytes} {contents : List GEDSFileStatus}
    {object : Object} (hobject : object ∈ populateKVSFromS3 bucket contents) :
    object.info.location = s3LocationOf object.id := by
  obtain ⟨s3Object, -, rfl⟩ := List.mem_map.1 hobject
  simp [s3LocationOf, fullName, text_slash]

section Parse

variable {bucket bucket' key key' : Bytes}

/-- A location in its usual form is taken apart where it was put together. -/
theorem parseLocation_s3LocationOf (hbucket : slash ∉ bucket) :
    S3FileHandle.parseLocation (s3LocationOf ⟨bucket, key⟩) = .ok ⟨bucket, key⟩ := by
  have htake : (s3Scheme ++ fullName bucket key).take s3Scheme.length = s3Scheme := List.take_left
  have hdrop : (s3Scheme ++ fullName bucket key).drop s3Scheme.length = fullName bucket key :=
    List.drop_left
  have hfind : findFrom (s3Scheme ++ fullName bucket key) slash s3Scheme.length =
      some (bucket.length + s3Scheme.length) := by
    have hindex := (findIdx?_eq_some_iff_split (fullName bucket key) bucket.length).2
      ⟨bucket, key, rfl, hbucket, rfl⟩
    rw [findFrom, hdrop, hindex]
    rfl
  have hkey : (s3Scheme ++ fullName bucket key).drop (bucket.length + s3Scheme.length + 1) =
      key := by
    have hlength : bucket.length + s3Scheme.length + 1 =
        (s3Scheme ++ (bucket ++ [slash])).length := by
      simp only [List.length_append, List.length_singleton]
      omega
    have hsplit : s3Scheme ++ fullName bucket key = (s3Scheme ++ (bucket ++ [slash])) ++ key := by
      simp [fullName]
    rw [hlength, hsplit, List.drop_left]
  simp only [S3FileHandle.parseLocation, s3LocationOf, htake, hfind, hdrop, hkey, ne_eq,
    not_true_eq_false, ↓reduceIte, Nat.add_sub_cancel]
  rw [fullName, List.take_left]

/-- `PopulateKVS` takes a separator that the key starts with for its own. -/
theorem populatedObject_location (bucket : Bytes) (f : GEDSFileStatus) :
    (populatedObject bucket f).info.location =
      s3LocationOf ⟨bucket, if f.key.head? = some slash then f.key.tail else f.key⟩ := by
  cases hkey : f.key with
  | nil => simp [populatedObject, hkey, s3LocationOf, fullName, text_slash]
  | cons letter rest =>
      by_cases hletter : letter = slash
      · simp [populatedObject, hkey, hletter, s3LocationOf, fullName]
      · simp [populatedObject, hkey, hletter, s3LocationOf, fullName, text_slash]

end Parse

section Populate

variable {kvs : MDSKVS} {ref : Nat} {bucket key location : Bytes}

/-- The bucket has an object of that location under the key. -/
def Records (kvs : MDSKVS) (ref : Nat) (key location : Bytes) : Prop :=
  ∃ container, (kvs.buckets.get ref).map.find key = some container ∧
    container < kvs.containers.next ∧ (kvs.containers.get container).location = location

theorem records_createObject (object : Object) :
    Records (MDSKVSBucket.createObject kvs ref object).2 ref object.id.key
      object.info.location := by
  refine ⟨kvs.containers.next, ?_, Nat.lt_succ_self _, ?_⟩
  · simp [MDSKVSBucket.createObject, MDSKVSBucket.setMap, OrderedMap.find_insert]
  · simp [MDSKVSBucket.createObject, MDSKVSBucket.setMap]

/-- What is recorded under other keys stays. -/
theorem Records.createObject_of_ne {object : Object} (hne : key ≠ object.id.key)
    (hrecords : Records kvs ref key location) :
    Records (MDSKVSBucket.createObject kvs ref object).2 ref key location := by
  obtain ⟨container, hfind, hused, hlocation⟩ := hrecords
  refine ⟨container, ?_, Nat.lt_succ_of_lt hused, ?_⟩
  · simp [MDSKVSBucket.createObject, MDSKVSBucket.setMap, OrderedMap.find_insert, hne, hfind]
  · have hget := Heap.get_alloc_of_ne kvs.containers object.info (Nat.ne_of_lt hused)
    simp [MDSKVSBucket.createObject, MDSKVSBucket.setMap, hget, hlocation]

/-- A listed file is recorded under its key, whatever the other entries are. -/
theorem records_foldl_populateEntry {f : GEDSFileStatus} {files : List GEDSFileStatus}
    (hfiles : f ∈ files ∧ f.isDirectory = false ∨
      Records kvs ref f.key (populatedObject bucket f).info.location) :
    Records (files.foldl (populateEntry bucket ref) kvs) ref f.key
      (populatedObject bucket f).info.location := by
  induction files generalizing kvs with
  | nil =>
      rcases hfiles with ⟨hmem, -⟩ | hrecords
      · exact absurd hmem List.not_mem_nil
      · exact hrecords
  | cons other files ih =>
      rw [List.foldl_cons]
      apply ih
      by_cases hrecorded : other.isDirectory = false ∧ other.key = f.key
      · -- an entry of the same key has the same location
        right
        have hlocation : (populatedObject bucket f).info.location =
            (populatedObject bucket other).info.location := by
          rw [populatedObject_location, populatedObject_location, hrecorded.2]
        rw [hlocation, ← hrecorded.2]
        rw [populateEntry, hrecorded.1]
        exact records_createObject (populatedObject bucket other)
      · rcases hfiles with ⟨hmem, hfile⟩ | hrecords
        · left
          rcases List.mem_cons.1 hmem with rfl | hmem
          · exact absurd ⟨hfile, rfl⟩ hrecorded
          · exact ⟨hmem, hfile⟩
        · right
          rw [populateEntry]
          split_ifs with hdirectory
          · exact hrecords
          · apply hrecords.createObject_of_ne
            intro heq
            exact hrecorded ⟨by simpa using hdirectory, heq.symm⟩

theorem map_foldl_populateEntry (files : List GEDSFileStatus) :
    (files.foldl (populateEntry bucket ref) kvs).map = kvs.map := by
  induction files generalizing kvs with
  | nil => rfl
  | cons f files ih =>
      rw [List.foldl_cons, ih, populateEntry]
      split_ifs <;> rfl

/-- The location under which a listed file is found. -/
theorem lookup_populateKVS (kvs : MDSKVS) (bucket : Bytes) {f : GEDSFileStatus}
    {files : List GEDSFileStatus} (hmem : f ∈ files) (hfile : f.isDirectory = false) :
    ∃ object, (populateKVS kvs bucket (.ok files)).2.lookup ⟨bucket, f.key⟩ = .ok object ∧
      object.info.location = (populatedObject bucket f).info.location := by
  have hcreated : ∃ ref, (kvs.createBucket bucket).2.map.find bucket = some ref ∧
      ¬ ((kvs.createBucket bucket).1.ok = false ∧
        (kvs.createBucket bucket).1.code ≠ .alreadyExists) := by
    cases hfind : kvs.map.find bucket with
    | some ref =>
        refine ⟨ref, ?_, ?_⟩
        · simp [MDSKVS.createBucket, hfind]
        · simp [MDSKVS.createBucket, hfind, bucketAlreadyExists, alreadyExistsError]
    | none =>
        refine ⟨kvs.buckets.next, ?_, ?_⟩
        · simp [MDSKVS.createBucket, hfind, OrderedMap.find_insert]
        · simp [MDSKVS.createBucket, hfind, okStatus, Status.ok]
  obtain ⟨ref, hbucket, hgoes⟩ := hcreated
  have hresult : (populateKVS kvs bucket (.ok files)).2 =
      files.foldl (populateEntry bucket ref) (kvs.createBucket bucket).2 := by
    simp only [populateKVS, hgoes, ↓reduceIte, MDSKVS.getBucket, hbucket]
  obtain ⟨container, hfind, -, hlocation⟩ := @records_foldl_populateEntry
    (kvs.createBucket bucket).2 ref bucket f files (Or.inl ⟨hmem, hfile⟩)
  rw [hresult]
  generalize hkvs : files.foldl (populateEntry bucket ref) (kvs.createBucket bucket).2 = populated
  have hmap : populated.map.find bucket = some ref := by
    rw [← hkvs, map_foldl_populateEntry, hbucket]
  rw [hkvs] at hfind hlocation
  refine ⟨MDSKVSBucket.readContainer populated ref container f.key, ?_, hlocation⟩
  simp only [MDSKVS.lookup, MDSKVS.getBucket, hmap, MDSKVSBucket.lookup,
    MDSKVSBucket.getObject, hfind]

end Populate

/-- The locations that are known for a key of the bucket: the one that the metadata server
in C++ finds after `PopulateKVS`, the one that the server in Go creates, and the one that a
handle keeps. -/
inductive KnownLocation (kvs : MDSKVS) (bucket : Bytes) (files : List GEDSFileStatus)
    (key : Bytes) : Bytes → Prop where
  | populateKVS {object : Object}
      (hlookup : (populateKVS kvs bucket (.ok files)).2.lookup ⟨bucket, key⟩ = .ok object) :
      KnownLocation kvs bucket files key object.info.location
  | populateKVSFromS3 {object : Object} (hmem : object ∈ populateKVSFromS3 bucket files)
      (hid : object.id = ⟨bucket, key⟩) :
      KnownLocation kvs bucket files key object.info.location
  | handle (id : ObjectID) :
      KnownLocation kvs bucket files key (S3FileHandle.s3Location ⟨id, ⟨bucket, key⟩⟩)

/-- Every location of a listed file leads back to it, and no two files share a location. -/
def LocationsRoundTrip (kvs : MDSKVS) (bucket : Bytes) (files : List GEDSFileStatus) : Prop :=
  (∀ f ∈ files, f.isDirectory = false → ∀ location, KnownLocation kvs bucket files f.key location →
    S3FileHandle.parseLocation location = .ok ⟨bucket, f.key⟩) ∧
  ∀ f ∈ files, ∀ f' ∈ files, f.isDirectory = false → f'.isDirectory = false →
    ∀ location, KnownLocation kvs bucket files f.key location →
      KnownLocation kvs bucket files f'.key location → f.key = f'.key

theorem KnownLocation.eq_s3LocationOf {kvs : MDSKVS} {bucket : Bytes}
    {files : List GEDSFileStatus} {f : GEDSFileStatus} {location : Bytes} (hmem : f ∈ files)
    (hfile : f.isDirectory = false) (hkey : f.key.head? ≠ some slash)
    (hknown : KnownLocation kvs bucket files f.key location) :
    location = s3LocationOf ⟨bucket, f.key⟩ := by
  cases hknown with
  | populateKVS hlookup =>
      obtain ⟨found, hfound, hlocation⟩ := lookup_populateKVS kvs bucket hmem hfile
      obtain rfl := Except.ok.inj (hfound.symm.trans hlookup)
      rw [hlocation, populatedObject_location, if_neg hkey]
  | populateKVSFromS3 hobject hid => rw [populateKVSFromS3_location hobject, hid]
  | handle id => exact S3FileHandle.s3Location_eq _

/-- The locations of the files of a bucket are good just if no key starts with a separator,
which `PopulateKVS` drops. -/
theorem locationsRoundTrip_iff (kvs : MDSKVS) (bucket : Bytes) (files : List GEDSFileStatus)
    (hbucket : slash ∉ bucket) :
    LocationsRoundTrip kvs bucket files ↔
      ∀ f ∈ files, f.isDirectory = false → f.key.head? ≠ some slash := by
  constructor
  · rintro ⟨hparses, -⟩ f hmem hfile hslash
    obtain ⟨object, hlookup, hlocation⟩ := lookup_populateKVS kvs bucket hmem hfile
    have hparsed := hparses f hmem hfile _ (.populateKVS hlookup)
    rw [hlocation, populatedObject_location, if_pos hslash, parseLocation_s3LocationOf hbucket,
      Except.ok.injEq, ObjectID.mk.injEq] at hparsed
    obtain ⟨letter, rest, hkey⟩ : ∃ letter rest, f.key = letter :: rest := by
      cases hkey : f.key with
      | nil => simp [hkey] at hslash
      | cons letter rest => exact ⟨letter, rest, rfl⟩
    have hlength := congrArg List.length hparsed.2
    rw [hkey, List.tail_cons, List.length_cons] at hlength
    omega
  · intro hkeys
    have hparses : ∀ f ∈ files, f.isDirectory = false → ∀ location,
        KnownLocation kvs bucket files f.key location →
        S3FileHandle.parseLocation location = .ok ⟨bucket, f.key⟩ := by
      intro f hmem hfile location hknown
      rw [hknown.eq_s3LocationOf hmem hfile (hkeys f hmem hfile)]
      exact parseLocation_s3LocationOf hbucket
    refine ⟨hparses, ?_⟩
    intro f hmem f' hmem' hfile hfile' location hknown hknown'
    have hsame := (hparses f hmem hfile location hknown).symm.trans
      (hparses f' hmem' hfile' location hknown')
    rw [Except.ok.injEq, ObjectID.mk.injEq] at hsame
    exact hsame.2

namespace S3Location.Sample

def listing : List GEDSFileStatus := [⟨text "a//b", 1, false⟩, ⟨text "key", 6, false⟩]

theorem listing_roundTrip :
    slash ∉ text "bucket" ∧
      LocationsRoundTrip (MDSKVS.new none) (text "bucket") listing := by
  refine ⟨by decide, (locationsRoundTrip_iff _ _ _ (by decide)).2 ?_⟩
  intro f hmem hfile
  simp only [listing, List.mem_cons, List.not_mem_nil, or_false] at hmem
  rcases hmem with rfl | rfl <;> decide

/-- The keys `/key` and `key` get one location. -/
theorem leading_slash_dropped :
    ¬ ∀ (kvs : MDSKVS) (bucket : Bytes) (files : List GEDSFileStatus), slash ∉ bucket →
      LocationsRoundTrip kvs bucket files := by
  intro hall
  have hboth := (hall (MDSKVS.new none) (text "bucket")
    [⟨text "/key", 1, false⟩, ⟨text "key", 6, false⟩] (by decide)).2
    ⟨text "/key", 1, false⟩ (by simp) ⟨text "key", 6, false⟩ (by simp) rfl rfl
    (text "s3://bucket/key")
  have hslash : KnownLocation (MDSKVS.new none) (text "bucket")
      [⟨text "/key", 1, false⟩, ⟨text "key", 6, false⟩] (text "/key")
      (text "s3://bucket/key") := by
    obtain ⟨object, hlookup, hlocation⟩ := lookup_populateKVS (MDSKVS.new none) (text "bucket")
      (List.mem_cons_self (a := (⟨text "/key", 1, false⟩ : GEDSFileStatus))
        (l := [⟨text "key", 6, false⟩])) rfl
    have hknown := KnownLocation.populateKVS hlookup
    rw [hlocation] at hknown
    exact hknown
  exact absurd (hboth hslash (.handle ⟨text "bucket", text "key"⟩)) (by decide)

end S3Location.Sample

end GEDS
