/-
Deleting by prefix, and what is said about it.  `MDSKVSBucket::deleteObjectPrefix` takes
an empty range for a found one unless it lies at the end of the map, so that its answer
depends on the keys that sort behind the prefix.
-/
import GEDS.MDSKVSReference

namespace GEDS

namespace MDSKVSBucket

variable (kvs : MDSKVS) (ref : Nat) (pre : Bytes)

/-- `NotFound` is returned exactly if no stored key starts with the prefix, and otherwise
these keys are removed and no others; a second call finds nothing. -/
structure DeletesTruthfully : Prop where
  reports : (deleteObjectPrefix kvs ref pre).1.code = .notFound ↔
    ∀ key, kvs.bucketContents ref key ≠ none → ¬ pre <+: key
  answers : (∃ key, kvs.bucketContents ref key ≠ none ∧ pre <+: key) →
    (deleteObjectPrefix kvs ref pre).1 = .okStatus
  removes : (deleteObjectPrefix kvs ref pre).2.bucketContents ref =
    (kvs.bucketContents ref).erasePrefix pre
  again : (deleteObjectPrefix (deleteObjectPrefix kvs ref pre).2 ref pre).1.code = .notFound

variable {kvs ref pre}

theorem allBelow_iff :
    (kvs.bucketContents ref).AllBelow pre ↔
      ∀ key, kvs.bucketContents ref key ≠ none → key < pre :=
  forall_congr' fun key => imp_congr_right fun _ => probeBelow_iff_lt pre key

theorem deleteObjectPrefix_fst_code :
    (deleteObjectPrefix kvs ref pre).1.code = .notFound ↔
      ∀ key, kvs.bucketContents ref key ≠ none → key < pre := by
  rw [← allBelow_iff, ← MDSKVS.prefixSearch_eq_endPos_iff, deleteObjectPrefix]
  split_ifs with hend
  · exact iff_of_true rfl hend
  · refine iff_of_false ?_ hend
    intro hcode
    cases hcode

theorem deleteObjectPrefix_fst_ok
    (hfound : ∃ key, kvs.bucketContents ref key ≠ none ∧ ¬ key < pre) :
    (deleteObjectPrefix kvs ref pre).1 = .okStatus := by
  obtain ⟨key, hstored, hge⟩ := hfound
  have hnot := mt (MDSKVS.prefixSearch_eq_endPos_iff kvs ref pre).1
    fun hall => hge (allBelow_iff.1 hall key hstored)
  rw [deleteObjectPrefix, if_neg hnot]

/-- Whatever it answers, the keys with the prefix are gone and the others stay. -/
theorem bucketContents_deleteObjectPrefix :
    (deleteObjectPrefix kvs ref pre).2.bucketContents ref =
      (kvs.bucketContents ref).erasePrefix pre := by
  rw [deleteObjectPrefix]
  split_ifs with hend
  · exact (((MDSKVS.prefixSearch_eq_endPos_iff kvs ref pre).1 hend).erasePrefix_eq).symm
  · funext key
    simp only [MDSKVS.bucketContents, setMap, Heap.get_set_self, find_erasePrefixRange,
      Contents.erasePrefix]
    split_ifs <;> rfl

/-- A deletion by prefix tells the truth exactly if no stored key sorts behind the prefix
without starting with it. -/
theorem deletesTruthfully_iff (kvs : MDSKVS) (ref : Nat) (pre : Bytes) :
    DeletesTruthfully kvs ref pre ↔
      ∀ key, kvs.bucketContents ref key ≠ none → pre < key → pre <+: key := by
  constructor
  · intro htruthful key hstored hbehind
    -- a key behind the prefix is still there at the second call
    by_contra hnot
    have hleft : (deleteObjectPrefix kvs ref pre).2.bucketContents ref key ≠ none := by
      rw [bucketContents_deleteObjectPrefix, Contents.erasePrefix, if_neg hnot]
      exact hstored
    exact hbehind.asymm (deleteObjectPrefix_fst_code.1 htruthful.again key hleft)
  · intro hbehind
    have hbegins : ∀ key, kvs.bucketContents ref key ≠ none → ¬ key < pre → pre <+: key := by
      intro key hstored hge
      rcases (not_lt.1 hge).lt_or_eq with hlt | rfl
      · exact hbehind key hstored hlt
      · exact List.prefix_refl _
    refine ⟨?_, ?_, bucketContents_deleteObjectPrefix, ?_⟩
    · rw [deleteObjectPrefix_fst_code]
      constructor
      · intro hbelow key hstored hkey
        exact not_lt_of_isPrefix hkey (hbelow key hstored)
      · intro hnone key hstored
        by_contra hge
        exact hnone key hstored (hbegins key hstored hge)
    · rintro ⟨key, hstored, hkey⟩
      exact deleteObjectPrefix_fst_ok ⟨key, hstored, not_lt_of_isPrefix hkey⟩
    · rw [deleteObjectPrefix_fst_code, bucketContents_deleteObjectPrefix]
      intro key hleft
      rw [Contents.erasePrefix] at hleft
      split_ifs at hleft with hkey
      · exact absurd rfl hleft
      · by_contra hge
        exact hkey (hbegins key hleft hge)

namespace Sample

def object (key : Bytes) : Object := ⟨⟨text "data", key⟩, ⟨text "geds://node", 1, 1, none⟩⟩

/-- A bucket with a key under `a/` and one behind it. -/
def twoKeys : MDSKVS :=
  let kvs := ((MDSKVS.new none).createBucket (text "data")).2
  let kvs := (kvs.createObject (object (text "a/1")) false).2
  (kvs.createObject (object (text "b")) false).2

/-- The second deletion is answered like the first. -/
theorem second_delete_ok :
    ¬ ∀ (kvs : MDSKVS) (ref : Nat) (pre : Bytes), DeletesTruthfully kvs ref pre := by
  intro hall
  exact absurd (hall twoKeys 0 (text "a/")).again (by decide)

end Sample

end MDSKVSBucket

end GEDS
