/-
Requests of the Go server that store no object: lookups, listings and deletions.  They
share `newBucketIfNotExist` with the requests that do, and so leave a bucket behind that
nobody created.
-/
import GEDS.PrefixTreeDelete

namespace GEDS

/-- The object requests that store nothing. -/
inductive ObjectQuery where
  | lookupObject (objectID : ObjectID)
  | listObjects (request : ObjectListRequest)
  | deleteObject (objectID : ObjectID)
  | deleteObjectPrefix (objectID : ObjectID)

/-- The bucket that is fetched, or made, for the request. -/
def ObjectQuery.bucket : ObjectQuery → Option Bytes
  | .lookupObject objectID | .deleteObject objectID | .deleteObjectPrefix objectID =>
      some objectID.bucket
  | .listObjects request => request.query.map (·.1.bucket)

namespace KeyValueStore

/-- The store after the request. -/
def ask (kv : KeyValueStore) : ObjectQuery → KeyValueStore
  | .lookupObject objectID => (kv.lookupObject objectID).2
  | .listObjects request => (kv.listObjects request).2
  | .deleteObject objectID => kv.deleteObject objectID
  | .deleteObjectPrefix objectID => (kv.deleteObjectPrefix objectID).2

/-- The bucket requests answer alike. -/
structure SameBuckets (kv kv' : KeyValueStore) : Prop where
  listBuckets : ∀ bucket, bucket ∈ kv'.listBuckets ↔ bucket ∈ kv.listBuckets
  lookupBucket : ∀ bucket, kv'.lookupBucket bucket = kv.lookupBucket bucket
  createBucket : ∀ bucket, (kv'.createBucket bucket).1 = (kv.createBucket bucket).1

/-- The table of buckets has the name. -/
def HasBucket (kv : KeyValueStore) (bucket : Bytes) : Prop :=
  (kv.buckets.find bucket).isSome = true

instance (kv : KeyValueStore) (bucket : Bytes) : Decidable (kv.HasBucket bucket) :=
  inferInstanceAs (Decidable (_ = true))

variable {kv kv' : KeyValueStore}

theorem mem_listBuckets_iff (bucket : Bytes) :
    bucket ∈ kv.listBuckets ↔ kv.HasBucket bucket := by
  rw [HasBucket, Option.isSome_iff_ne_none, listBuckets, AssocMap.find, ne_eq,
    lookup_eq_none_iff_forall]
  simp

theorem createBucket_fst (bucket : Bytes) : (kv.createBucket bucket).1 =
    if kv.HasBucket bucket then .error (text "bucket already exists") else .ok () := by
  cases hfind : kv.buckets.find bucket <;>
    simp [createBucket, newBucketIfNotExist, HasBucket, hfind]

theorem lookupBucket_eq (bucket : Bytes) : kv.lookupBucket bucket =
    if kv.HasBucket bucket then .ok () else .error (text "bucket does not exist") := by
  cases hfind : kv.buckets.find bucket <;> simp [lookupBucket, HasBucket, hfind]

theorem lookupBucket_eq_ok_iff (bucket : Bytes) :
    kv.lookupBucket bucket = .ok () ↔ kv.HasBucket bucket := by
  rw [lookupBucket_eq]
  split_ifs with hbucket
  · exact iff_of_true rfl hbucket
  · exact iff_of_false nofun hbucket

/-- All three depend on which buckets there are, and `ListBuckets` tells. -/
theorem sameBuckets_iff :
    SameBuckets kv kv' ↔ ∀ bucket, kv'.HasBucket bucket ↔ kv.HasBucket bucket := by
  constructor
  · intro hsame bucket
    rw [← mem_listBuckets_iff, ← mem_listBuckets_iff]
    exact hsame.listBuckets bucket
  · intro hfind
    refine ⟨fun bucket => ?_, fun bucket => ?_, fun bucket => ?_⟩
    · rw [mem_listBuckets_iff, mem_listBuckets_iff, hfind]
    · simp only [lookupBucket_eq, hfind]
    · simp only [createBucket_fst, hfind]

theorem hasBucket_newBucketIfNotExist (bucket other : Bytes) :
    (kv.newBucketIfNotExist bucket).2.HasBucket other ↔
      other = bucket ∨ kv.HasBucket other := by
  rw [newBucketIfNotExist, HasBucket, HasBucket]
  cases hfind : kv.buckets.find bucket with
  | some tree =>
      by_cases hother : other = bucket
      · simp [hother, hfind]
      · simp [hother]
  | none =>
      by_cases hother : other = bucket
      · simp [hother]
      · simp [hother]

theorem hasBucket_setNestedDirectories (bucket other : Bytes) (tree : PrefixTree) :
    (kv.setNestedDirectories bucket tree).HasBucket other ↔
      other = bucket ∨ kv.HasBucket other := by
  rw [HasBucket, HasBucket]
  by_cases hother : other = bucket
  · simp [setNestedDirectories, hother]
  · simp [setNestedDirectories, hother]

theorem listObjects_snd (request : ObjectListRequest) : (kv.listObjects request).2 =
    match request.query with
    | none => kv
    | some (objectID, _) => (kv.newBucketIfNotExist objectID.bucket).2 := by
  rw [listObjects, ObjectListRequest.query]
  cases request.keyPrefix with
  | none => rfl
  | some objectID =>
      by_cases hbucket : objectID.bucket.length = 0
      · simp [hbucket]
      · cases request.delimiter with
        | none => simp [hbucket]
        | some delimiter =>
            by_cases hzero : delimiter = 0
            · simp [hbucket, hzero]
            · by_cases hslash : delimiter = 0x2f
              · simp [hbucket, hslash]
              · simp [hbucket, hzero, hslash]

/-- Every request leaves its bucket behind, and no other. -/
theorem hasBucket_ask (query : ObjectQuery) (other : Bytes) :
    (kv.ask query).HasBucket other ↔ query.bucket = some other ∨ kv.HasBucket other := by
  have hsymm : ∀ bucket : Bytes, (some bucket = some other) = (other = bucket) := by
    intro bucket
    simp only [Option.some.injEq, eq_comm]
  cases query with
  | lookupObject objectID =>
      have hstore : (kv.lookupObject objectID).2 =
          (kv.newBucketIfNotExist objectID.bucket).2 := by
        rw [lookupObject]
        split <;> rfl
      rw [ask, hstore, hasBucket_newBucketIfNotExist, ObjectQuery.bucket, hsymm]
  | listObjects request =>
      rw [ask, listObjects_snd, ObjectQuery.bucket]
      cases request.query with
      | none => simp
      | some asked => rw [hasBucket_newBucketIfNotExist, Option.map_some, hsymm]
  | deleteObject objectID =>
      rw [ask, deleteObject, hasBucket_setNestedDirectories, hasBucket_newBucketIfNotExist,
        ObjectQuery.bucket, hsymm, ← or_assoc, or_self]
  | deleteObjectPrefix objectID =>
      rw [ask, deleteObjectPrefix, hasBucket_setNestedDirectories,
        hasBucket_newBucketIfNotExist, ObjectQuery.bucket, hsymm, ← or_assoc, or_self]

/-- A history of such requests leaves their buckets behind. -/
theorem hasBucket_foldl_ask (queries : List ObjectQuery) (other : Bytes) :
    (queries.foldl ask kv).HasBucket other ↔
      (∃ query ∈ queries, query.bucket = some other) ∨ kv.HasBucket other := by
  induction queries generalizing kv with
  | nil => simp
  | cons query rest ih =>
      rw [List.foldl_cons, ih, hasBucket_ask, List.exists_mem_cons_iff, ← or_assoc,
        or_comm (a := ∃ query ∈ rest, query.bucket = some other)]

/-- Requests that store nothing leave the buckets as they are exactly if the buckets they
work on exist; a listing that is refused before works on none. -/
theorem foldl_ask_sameBuckets_iff (kv : KeyValueStore) (queries : List ObjectQuery) :
    SameBuckets kv (queries.foldl ask kv) ↔ ∀ query ∈ queries, ∀ bucket,
      query.bucket = some bucket → kv.lookupBucket bucket = .ok () := by
  simp only [sameBuckets_iff, hasBucket_foldl_ask, lookupBucket_eq_ok_iff]
  constructor
  · intro hsame query hmem bucket hbucket
    exact (hsame bucket).1 (Or.inl ⟨query, hmem, hbucket⟩)
  · intro hexists bucket
    refine or_iff_right_of_imp ?_
    rintro ⟨query, hmem, hbucket⟩
    exact hexists query hmem bucket hbucket

theorem ask_sameBuckets_iff (kv : KeyValueStore) (query : ObjectQuery) :
    SameBuckets kv (kv.ask query) ↔
      ∀ bucket, query.bucket = some bucket → kv.lookupBucket bucket = .ok () := by
  have hsingle := foldl_ask_sameBuckets_iff kv [query]
  rwa [List.forall_mem_singleton] at hsingle

/-- A lookup in a store without buckets makes one. -/
theorem lookup_creates_bucket :
    ¬ ∀ (kv : KeyValueStore) (query : ObjectQuery), SameBuckets kv (kv.ask query) := by
  intro hall
  have hsame := hall new (.lookupObject ⟨text "data", text "a"⟩)
  exact absurd ((hsame.listBuckets (text "data")).1 (by decide)) (by decide)

end KeyValueStore

end GEDS
