/-
Which bucket names and keys a GEDS node accepts.
-/
import GEDS.Object

namespace GEDS

open Status

/-- `[a-z\d]` -/
def isBucketEnd (letter : UInt8) : Bool :=
  (decide (0x61 ≤ letter) && decide (letter ≤ 0x7a)) ||
    (decide (0x30 ≤ letter) && decide (letter ≤ 0x39))

/-- `[a-z\d\.\-]` -/
def isBucketInner (letter : UInt8) : Bool :=
  isBucketEnd letter || decide (letter = 0x2e) || decide (letter = 0x2d)

/-- `std::regex_match` for `[a-z\d][a-z\d\.\-]+[a-z\d]`. -/
def bucketRegexMatch : Bytes → Bool
  | [] => false
  | first :: rest =>
      isBucketEnd first && decide (2 ≤ rest.length) && rest.dropLast.all isBucketInner &&
        isBucketEnd (rest.getLastD 0)

def isValidBucketName (bucket : Bytes) : Status :=
  if bucketRegexMatch bucket then
    if 4 ≤ bucket.length ∧ bucket.take 4 = text "xn--" then
      failedPreconditionError (text "Invalid bucket name.")
    else okStatus
  else failedPreconditionError (text "Invalid bucket name.")

/-- The third check compares one byte with two and never fires. -/
def isValidKeyName (key : Bytes) : Status :=
  if key.length = 0 then
    failedPreconditionError (text "Zero-length keys are not allowed.")
  else if key.getLastD 0 = slash then
    failedPreconditionError (text "Keys are not allowed to end with \"/\".")
  else if 2 ≤ key.length ∧ key.take 1 = text "./" then
    failedPreconditionError (text "Keys are not allowed to start with \"./\".")
  else if 3 ≤ key.length ∧ key.take 3 = text "../" then
    failedPreconditionError (text "Keys are not allowed to start with \"../\".")
  else if text "/../" <:+: key then
    failedPreconditionError (text "Keys are not allowed to contain \"/../\"")
  else okStatus

def isValid (bucket key : Bytes) : Status :=
  if (isValidBucketName bucket).ok then
    if (isValidKeyName key).ok then okStatus else isValidKeyName key
  else isValidBucketName bucket

theorem isBucketInner_slash : isBucketInner slash = false := by
  decide

theorem isBucketEnd_slash : isBucketEnd slash = false := by
  decide

/-- The parts of a name that the expression matches. -/
theorem bucketRegexMatch_iff {bucket : Bytes} :
    bucketRegexMatch bucket = true ↔ ∃ first inner last, bucket = first :: (inner ++ [last]) ∧
      isBucketEnd first = true ∧ inner ≠ [] ∧ (∀ letter ∈ inner, isBucketInner letter = true) ∧
      isBucketEnd last = true := by
  constructor
  · intro hmatch
    cases bucket with
    | nil => simp [bucketRegexMatch] at hmatch
    | cons first tail =>
        simp only [bucketRegexMatch, Bool.and_eq_true, decide_eq_true_eq,
          List.all_eq_true] at hmatch
        obtain ⟨⟨⟨hfirst, hlength⟩, hinner⟩, hlast⟩ := hmatch
        have hne : tail ≠ [] := by
          rintro rfl
          simp at hlength
        have hfront : tail.dropLast ≠ [] := by
          intro hnil
          have hshort := congrArg List.length hnil
          simp only [List.length_dropLast, List.length_nil] at hshort
          omega
        rw [List.getLastD_eq_getLast?, List.getLast?_eq_some_getLast hne,
          Option.getD_some] at hlast
        exact ⟨first, tail.dropLast, tail.getLast hne,
          by rw [List.dropLast_concat_getLast hne], hfirst, hfront, hinner, hlast⟩
  · rintro ⟨first, inner, last, rfl, hfirst, hne, hinner, hlast⟩
    have hlong : 1 ≤ inner.length := List.length_pos_iff.2 hne
    have hshort : 2 ≤ inner.length + 1 := by omega
    simpa [bucketRegexMatch, hfirst, hlast, hshort] using hinner

theorem bucketRegexMatch.slash_not_mem {bucket : Bytes}
    (hmatch : bucketRegexMatch bucket = true) : slash ∉ bucket := by
  obtain ⟨first, inner, last, rfl, hfirst, -, hinner, hlast⟩ := bucketRegexMatch_iff.1 hmatch
  intro hmem
  simp only [List.mem_cons, List.mem_append, List.not_mem_nil, or_false] at hmem
  rcases hmem with rfl | hmem | rfl
  · exact absurd hfirst (by simp [isBucketEnd_slash])
  · exact absurd (hinner slash hmem) (by simp [isBucketInner_slash])
  · exact absurd hlast (by simp [isBucketEnd_slash])

/-- What the checks of valid names say about the parts. -/
theorem isValid.names {bucket key : Bytes} (hvalid : (isValid bucket key).ok = true) :
    bucketRegexMatch bucket = true ∧ key ≠ [] := by
  constructor
  · by_contra hmatch
    simp [isValid, isValidBucketName, hmatch, Status.ok, failedPreconditionError] at hvalid
  · rintro rfl
    have hempty : (isValidKeyName []).ok = false := by decide
    by_cases hbucket : (isValidBucketName bucket).ok = true
    · simp only [isValid, hbucket, ↓reduceIte, hempty, Bool.false_eq_true] at hvalid
    · simp [isValid, hbucket] at hvalid

/-- A valid bucket name has no separator. -/
theorem isValid.slash_not_mem {bucket key : Bytes} (hvalid : (isValid bucket key).ok = true) :
    slash ∉ bucket :=
  bucketRegexMatch.slash_not_mem (isValid.names hvalid).1

/-- The key names that the documentation allows. -/
structure DocumentedKeyName (key : Bytes) : Prop where
  nonempty : key ≠ []
  relative : ¬ text "/" <+: key
  notHere : ¬ text "./" <+: key
  notAbove : ¬ text "../" <+: key
  notDirectory : ¬ text "/" <:+ key
  noneAbove : ¬ text "/../" <:+: key

theorem text_here : text "./" = [0x2e, slash] := by
  decide

theorem text_above : text "../" = [0x2e, 0x2e, slash] := by
  decide

theorem getLastD_eq_iff_isSuffix {key : Bytes} : key.getLastD 0 = slash ↔ text "/" <:+ key := by
  rw [text_slash]
  rcases List.eq_nil_or_concat key with rfl | ⟨front, last, rfl⟩
  · simp only [List.getLastD_nil, List.suffix_nil, List.cons_ne_nil, iff_false]
    decide
  · rw [List.concat_eq_append, List.getLastD_concat]
    constructor
    · rintro rfl
      exact List.suffix_append front [slash]
    · intro hends
      have hlast := List.suffix_iff_eq_append.1 hends
      simpa using congrArg List.getLast? hlast.symm

theorem take_eq_iff_isPrefix {key pre : Bytes} :
    pre.length ≤ key.length ∧ key.take pre.length = pre ↔ pre <+: key := by
  rw [List.prefix_iff_eq_take]
  constructor
  · rintro ⟨-, heq⟩
    exact heq.symm
  · intro heq
    have hlength := congrArg List.length heq
    rw [List.length_take] at hlength
    exact ⟨by omega, heq.symm⟩

/-- What the checks that can fire accept. -/
theorem isValidKeyName_ok {key : Bytes} : (isValidKeyName key).ok = true ↔
    key ≠ [] ∧ ¬ text "/" <:+ key ∧ ¬ text "../" <+: key ∧ ¬ text "/../" <:+: key := by
  have hnever : ¬ (2 ≤ key.length ∧ key.take 1 = text "./") := by
    rintro ⟨-, heq⟩
    have hlength := congrArg List.length heq
    rw [text_here, List.length_take, List.length_cons, List.length_singleton] at hlength
    omega
  have habove : 3 ≤ key.length ∧ key.take 3 = text "../" ↔ text "../" <+: key := by
    rw [← take_eq_iff_isPrefix, text_above]
    rfl
  unfold isValidKeyName
  rw [if_neg hnever]
  simp only [getLastD_eq_iff_isSuffix, habove, List.length_eq_zero_iff]
  split_ifs with hempty hlast hfirst hinner <;>
    simp_all [Status.ok, okStatus, failedPreconditionError]

/-- The leading "/" has no check, the one of the leading "./" never fires: exactly the keys that
start so and pass the other checks are accepted against the documentation. -/
theorem isValidKeyName_documented_iff (key : Bytes) :
    ((isValidKeyName key).ok = true ↔ DocumentedKeyName key) ↔
      (¬ text "/" <+: key ∧ ¬ text "./" <+: key) ∨ text "/" <:+ key ∨ text "/../" <:+: key := by
  rw [isValidKeyName_ok]
  constructor
  · intro hagree
    by_contra hleft
    simp only [not_or, not_and, not_not] at hleft
    obtain ⟨hstart, hlast, hinner⟩ := hleft
    have hvalid : key ≠ [] ∧ ¬ text "/" <:+ key ∧ ¬ text "../" <+: key ∧
        ¬ text "/../" <:+: key := by
      by_cases hslash : text "/" <+: key
      · obtain ⟨rest, rfl⟩ := hslash
        exact ⟨by simp [text_slash], hlast, by simp [text_slash, text_above, slash], hinner⟩
      · obtain ⟨rest, rfl⟩ := hstart hslash
        exact ⟨by simp [text_here], hlast, by simp [text_here, text_above, slash], hinner⟩
    have hdocumented := hagree.1 hvalid
    exact hdocumented.notHere (hstart hdocumented.relative)
  · rintro hcondition
    constructor
    · rintro ⟨hne, hlast, habove, hinner⟩
      rcases hcondition with ⟨hslash, hhere⟩ | hends | hcontains
      · exact ⟨hne, hslash, hhere, habove, hlast, hinner⟩
      · exact absurd hends hlast
      · exact absurd hcontains hinner
    · intro hdocumented
      exact ⟨hdocumented.nonempty, hdocumented.notDirectory, hdocumented.notAbove,
        hdocumented.noneAbove⟩

/-- "/a" is accepted. -/
theorem isValidKeyName_leading_slash :
    ¬ ((isValidKeyName (text "/a")).ok = true ↔ DocumentedKeyName (text "/a")) := by
  intro hagree
  have haccepted : (isValidKeyName (text "/a")).ok = true := by decide
  exact (hagree.1 haccepted).relative (by decide)

end GEDS
