/-
`Endpoint::read` with a position, a length, both or neither.  What is missing is left out of the
`Range` header, and a header without its first number asks for the end of the object.
-/
import GEDS.S3Read

namespace GEDS

/-- The bytes that a `Range` header asks for, if it can be satisfied.  Without a first position
the last one counts from the end; a last position before the first one makes no range, and such a
header is ignored. -/
def ByteRange.select (content : Bytes) (range : ByteRange) : Option Bytes :=
  match range with
  | ⟨some first, some last⟩ =>
      if last < first then some content
      else if first.toNat < content.length then
        some (slice content first.toNat (last.toNat + 1 - first.toNat))
      else none
  | ⟨some first, none⟩ =>
      if first.toNat < content.length then some (content.drop first.toNat) else none
  | ⟨none, some suffix⟩ =>
      if suffix = 0 then none else some (content.drop (content.length - suffix.toNat))
  | ⟨none, none⟩ => some content

theorem ByteRange.select_nil {range : ByteRange} {body : Bytes}
    (hselect : range.select [] = some body) : body = [] := by
  obtain ⟨first, last⟩ := range
  cases first <;> cases last <;> simp [ByteRange.select] at hselect <;> simp [hselect]

/-- The service has an object with this content and answers every range of it.  Of an empty
object it may refuse any range. -/
structure ObjectService.AnswersRanges (service : ObjectService) (id : ObjectID)
    (content : Bytes) : Prop where
  whole : ∃ result, service.getObject id none = .ok result ∧ result.body = content ∧
    result.contentLength.toNat = content.length
  satisfied : ∀ range body, range.select content = some body →
    (∃ result, service.getObject id (some range) = .ok result ∧ result.body = body ∧
      result.contentLength.toNat = body.length) ∨
    content = [] ∧ ∃ error, service.getObject id (some range) = .error error ∧
      error.exceptionName = text "InvalidRange"
  unsatisfied : ∀ range, range.select content = none →
    ∃ error, service.getObject id (some range) = .error error ∧
      error.exceptionName = text "InvalidRange"
  head : ∃ size, service.headObject id = .ok size ∧ size.toNat = content.length

/-- The bytes up to a length, if there is one. -/
def upTo (length : Option UInt64) (bytes : Bytes) : Bytes :=
  match length with
  | some length => bytes.take length.toNat
  | none => bytes

/-- The bytes `[p, min(p + l, size))` of an object, with `p` the position or 0 and `l` the length
or everything. -/
def optionalSlice (content : Bytes) (position length : Option UInt64) : Bytes :=
  upTo length (content.drop (position.getD 0).toNat)

namespace ObjectService

/-- A header with a length asks for the range of the call: there is a position, from which on the
length does not wrap, or it is longer than the object. -/
def HeaderKeepsRange (size : Nat) : Option UInt64 → Option UInt64 → Prop
  | _, none => True
  | none, some length => length.toNat ≤ 1 ∨ size < length.toNat
  | some position, some length =>
      length = 0 ∨ position.toNat + length.toNat ≤ 2 ^ 64 ∨ size = 0

variable {service : ObjectService} {id : ObjectID} {content : Bytes}

/-- The header of a position and a length -/
def headerOf (position length : Option UInt64) : Option ByteRange :=
  if position.isSome || length.isSome then
    some ⟨position.map fun _ => position.getD 0,
      length.map fun _ => position.getD 0 + length.getD 0 - 1⟩
  else none

/-- The count of an answer of so many bytes -/
def countOf (length : Option UInt64) (contentLength : UInt64) : UInt64 :=
  match length with
  | some length => min length contentLength
  | none => contentLength

theorem read_zero (position : Option UInt64) :
    service.read id position (some 0) = .ok (0, []) := by
  rw [ObjectService.read, readAttempt, if_pos rfl]

/-- An answer is cut to the length and written. -/
theorem read_of_answer {position length : Option UInt64} {result : GetObjectResult}
    (hlength : length ≠ some 0)
    (hget : service.getObject id (headerOf position length) = .ok result)
    (hcontentLength : result.contentLength.toNat = result.body.length) :
    ∃ count, service.read id position length = .ok (count, upTo length result.body) ∧
      count.toNat = (upTo length result.body).length := by
  have hread : service.read id position length =
      .ok (countOf length result.contentLength,
        result.body.take (countOf length result.contentLength).toNat) := by
    rw [headerOf] at hget
    rw [ObjectService.read, readAttempt, if_neg hlength]
    simp only [hget]
    cases length <;> rfl
  refine ⟨countOf length result.contentLength, ?_, ?_⟩
  · rw [hread]
    cases length with
    | none => rw [countOf, upTo, hcontentLength, List.take_length]
    | some length =>
        rw [countOf, upTo, UInt64.toNat_min, hcontentLength, ← List.take_take, List.take_length]
  · cases length with
    | none => exact hcontentLength
    | some length => rw [countOf, upTo, UInt64.toNat_min, hcontentLength, List.length_take]

/-- A range that starts behind the object is empty. -/
theorem read_of_behind {position length : Option UInt64} {error : S3Error} {size : UInt64}
    (hlength : length ≠ some 0)
    (hget : service.getObject id (headerOf position length) = .error error)
    (hname : error.exceptionName = text "InvalidRange") (hhead : service.headObject id = .ok size)
    (hbehind : position.any (fun position => decide (size ≤ position)) = true) :
    service.read id position length = .ok (0, []) := by
  rw [headerOf] at hget
  rw [ObjectService.read, readAttempt, if_neg hlength]
  simp only [hget, hname, ne_eq, not_true_eq_false, ↓reduceIte, fileSize, hhead, hbehind]

/-- Without a position the read is tried again, with as much of the length as there is. -/
theorem read_of_suffix_refused {length size : UInt64} {error : S3Error} (hlength : length ≠ 0)
    (hget : service.getObject id (headerOf none (some length)) = .error error)
    (hname : error.exceptionName = text "InvalidRange") (hhead : service.headObject id = .ok size) :
    service.read id none (some length) =
      if min length size = 0 then .ok (0, [])
      else service.readAttempt id none none (some (min length size)) := by
  rw [headerOf] at hget
  rw [ObjectService.read, readAttempt, if_neg (by simpa using hlength)]
  simp only [hget, hname, ne_eq, not_true_eq_false, ↓reduceIte, fileSize, hhead]
  simp only [Option.any_none, Bool.false_eq_true, ↓reduceIte, Option.getD_none, UInt64.zero_add,
    UInt64.sub_zero]

/-- What an empty object has to offer is read, from any position on. -/
theorem AnswersRanges.read_nil (hanswers : service.AnswersRanges id [])
    (position length : Option UInt64) : service.read id position length = .ok (0, []) := by
  by_cases hlength : length = some 0
  · rw [hlength, read_zero]
  obtain ⟨size, hhead, hsize⟩ := hanswers.head
  obtain rfl : size = 0 := UInt64.toNat_inj.1 hsize
  have hempty : ∀ result : GetObjectResult,
      service.getObject id (headerOf position length) = .ok result → result.body = [] →
      result.contentLength.toNat = result.body.length →
      service.read id position length = .ok (0, []) := by
    intro result hget hbody hcontentLength
    obtain ⟨count, hread, hcount⟩ := read_of_answer hlength hget hcontentLength
    have hnothing : upTo length result.body = [] := by
      rw [hbody]
      cases length <;> simp [upTo]
    rw [hnothing] at hread hcount
    obtain rfl : count = 0 := UInt64.toNat_inj.1 hcount
    exact hread
  have hrefused : ∀ error : S3Error,
      service.getObject id (headerOf position length) = .error error →
      error.exceptionName = text "InvalidRange" → (headerOf position length).isSome = true →
      service.read id position length = .ok (0, []) := by
    intro error hget hname hheader
    cases position with
    | some position => exact read_of_behind hlength hget hname hhead (by simp)
    | none =>
        cases length with
        | none => cases hheader
        | some length =>
            rw [read_of_suffix_refused (by simpa using hlength) hget hname hhead,
              if_pos (UInt64.toNat_inj.1 (by simp [UInt64.toNat_min]))]
  cases hheader : headerOf position length with
  | none =>
      obtain ⟨result, hget, hbody, hcontentLength⟩ := hanswers.whole
      exact hempty result (hheader ▸ hget) hbody (by rw [hcontentLength, hbody])
  | some range =>
      cases hselect : range.select [] with
      | none =>
          obtain ⟨error, hget, hname⟩ := hanswers.unsatisfied range hselect
          exact hrefused error (hheader ▸ hget) hname (by rw [hheader]; rfl)
      | some body =>
          have hbody : body = [] := ByteRange.select_nil hselect
          rcases hanswers.satisfied range body hselect with
            ⟨result, hget, hresult, hcontentLength⟩ | ⟨-, error, hget, hname⟩
          · exact hempty result (hheader ▸ hget) (hresult.trans hbody)
              (by rw [hcontentLength, hresult])
          · exact hrefused error (hheader ▸ hget) hname (by rw [hheader]; rfl)

/-- The read of a header that can be satisfied. -/
theorem AnswersRanges.read_selected (hanswers : service.AnswersRanges id content)
    (hcontent : content ≠ []) {position length : Option UInt64} (hlength : length ≠ some 0)
    {body : Bytes}
    (hselect : (headerOf position length).elim (some content) (·.select content) = some body) :
    ∃ count, service.read id position length = .ok (count, upTo length body) ∧
      count.toNat = (upTo length body).length := by
  cases hheader : headerOf position length with
  | none =>
      rw [hheader, Option.elim_none, Option.some.injEq] at hselect
      obtain ⟨result, hget, hresult, hcontentLength⟩ := hanswers.whole
      rw [← hselect, ← hresult]
      exact read_of_answer hlength (hheader ▸ hget) (by rw [hcontentLength, hresult])
  | some range =>
      rw [hheader, Option.elim_some] at hselect
      rcases hanswers.satisfied range body hselect with
        ⟨result, hget, hresult, hcontentLength⟩ | ⟨hempty, -⟩
      · rw [← hresult]
        exact read_of_answer hlength (hheader ▸ hget) (by rw [hcontentLength, hresult])
      · exact absurd hempty hcontent

/-- A read writes the range of the call and returns its length, or it fails. -/
def ReadsRange (service : ObjectService) (id : ObjectID) (content : Bytes)
    (position length : Option UInt64) : Prop :=
  ∀ count written, service.read id position length = .ok (count, written) →
    written = optionalSlice content position length ∧ count.toNat = written.length

/-- A satisfied header reads the range of the call exactly if both are the same bytes. -/
theorem AnswersRanges.readsRange_iff_select (hanswers : service.AnswersRanges id content)
    (hcontent : content ≠ []) {position length : Option UInt64} (hlength : length ≠ some 0)
    {body : Bytes}
    (hselect : (headerOf position length).elim (some content) (·.select content) = some body) :
    service.ReadsRange id content position length ↔
      upTo length body = optionalSlice content position length := by
  obtain ⟨count, hread, hcount⟩ := hanswers.read_selected hcontent hlength hselect
  constructor
  · intro hreads
    exact (hreads count _ hread).1
  · intro hsame count' written hread'
    rw [hread, Except.ok.injEq, Prod.mk.injEq] at hread'
    obtain ⟨rfl, rfl⟩ := hread'
    exact ⟨hsame, hcount⟩

/-- From a position behind the object nothing is read. -/
theorem AnswersRanges.readsRange_behind (hanswers : service.AnswersRanges id content)
    {position : UInt64} {length : Option UInt64} (hlength : length ≠ some 0)
    (hselect : ∀ range ∈ headerOf (some position) length, range.select content = none)
    (hbehind : content.length ≤ position.toNat) :
    service.ReadsRange id content (some position) length := by
  have hheader := hselect _ rfl
  obtain ⟨error, hget, hname⟩ := hanswers.unsatisfied _ hheader
  obtain ⟨size, hhead, hsize⟩ := hanswers.head
  have hsizeLe : size ≤ position := by
    rw [UInt64.le_iff_toNat_le, hsize]
    exact hbehind
  have hread : service.read id (some position) length = .ok (0, []) :=
    read_of_behind hlength hget hname hhead (by simp [hsizeLe])
  have hnothing : optionalSlice content (some position) length = [] := by
    rw [optionalSlice, Option.getD_some, List.drop_eq_nil_of_le hbehind]
    cases length <;> simp [upTo]
  intro count written hread'
  rw [hread, Except.ok.injEq, Prod.mk.injEq] at hread'
  obtain ⟨rfl, rfl⟩ := hread'
  exact ⟨hnothing.symm, rfl⟩

/-- A position without a length: the rest of the object, or nothing behind it. -/
theorem AnswersRanges.readsRange_from (hanswers : service.AnswersRanges id content)
    (hcontent : content ≠ []) (position : UInt64) :
    service.ReadsRange id content (some position) none := by
  have hlength : (none : Option UInt64) ≠ some 0 := (Option.some_ne_none _).symm
  rcases Nat.lt_or_ge position.toNat content.length with hinside | hbehind
  · have hselect : (headerOf (some position) none).elim (some content) (·.select content) =
        some (content.drop position.toNat) := if_pos hinside
    exact (hanswers.readsRange_iff_select hcontent hlength hselect).2 rfl
  · have hselect : (⟨some position, none⟩ : ByteRange).select content = none :=
      if_neg (Nat.not_lt.2 hbehind)
    refine hanswers.readsRange_behind hlength (fun range hrange => ?_) hbehind
    obtain rfl := Option.some.inj hrange
    exact hselect

/-- A position and a length: a range that wraps reads from the start of the object instead. -/
theorem AnswersRanges.readsRange_span_iff (hanswers : service.AnswersRanges id content)
    (hcontent : content ≠ []) (position : UInt64) {length : UInt64} (hlength : length ≠ 0) :
    service.ReadsRange id content (some position) (some length) ↔
      position.toNat + length.toNat ≤ 2 ^ 64 := by
  have hsome : some length ≠ some 0 := by simpa using hlength
  have hsize := List.length_pos_iff.2 hcontent
  have hpositive := toNat_pos_of_ne_zero hlength
  rcases Nat.lt_or_ge (2 ^ 64) (position.toNat + length.toNat) with hwrap | hsum
  · have hselect : (headerOf (some position) (some length)).elim (some content)
        (·.select content) = some content := if_pos (endPos_lt_of_wrap hwrap)
    rw [hanswers.readsRange_iff_select hcontent hsome hselect]
    refine iff_of_false (fun hsame => ?_) (not_le.2 hwrap)
    -- the two ranges of an object that does not reach the end of the words differ in length
    obtain ⟨size, -, hhead⟩ := hanswers.head
    have hshort := size.toNat_lt
    have hword := length.toNat_lt
    have hlengths := congrArg List.length hsame
    simp only [upTo, optionalSlice, List.length_take, List.length_drop, Option.getD_some] at hlengths
    omega
  · refine iff_of_true ?_ hsum
    have hend := toNat_endPos_of_le hlength hsum
    have horder : ¬ position + length - 1 < position := by
      rw [UInt64.lt_iff_toNat_lt]
      omega
    rcases Nat.lt_or_ge position.toNat content.length with hinside | hbehind
    · have hselect : (headerOf (some position) (some length)).elim (some content)
          (·.select content) = some (slice content position.toNat length.toNat) := by
        refine (if_neg horder).trans ((if_pos hinside).trans ?_)
        rw [Option.getD_some, Option.getD_some, hend, Nat.add_sub_cancel_left]
      refine (hanswers.readsRange_iff_select hcontent hsome hselect).2 ?_
      rw [upTo, slice, List.take_take, Nat.min_self]
      rfl
    · refine hanswers.readsRange_behind hsome (fun range hrange => ?_) hbehind
      obtain rfl := Option.some.inj hrange
      exact (if_neg horder).trans (if_neg (Nat.not_lt.2 hbehind))

/-- A length of one without a position asks for the last zero bytes, twice. -/
theorem AnswersRanges.read_one (hanswers : service.AnswersRanges id content)
    (hcontent : content ≠ []) :
    ∃ failure, service.read id none (some 1) = .error failure := by
  have hone : (1 : UInt64) ≠ 0 := by decide
  have hsize := List.length_pos_iff.2 hcontent
  have hselect : (⟨none, some 0⟩ : ByteRange).select content = none := by
    rw [ByteRange.select, if_pos rfl]
  obtain ⟨error, hget, hname⟩ := hanswers.unsatisfied _ hselect
  obtain ⟨size, hhead, hsame⟩ := hanswers.head
  have hmin : min 1 size = (1 : UInt64) := by
    refine UInt64.toNat_inj.1 ?_
    rw [UInt64.toNat_min, UInt64.toNat_one, hsame]
    omega
  rw [read_of_suffix_refused hone hget hname hhead, hmin, if_neg hone]
  refine ⟨.converted error (text "readBytes") id.key, ?_⟩
  simp [readAttempt, hget]

/-- A length without a position: the end of the object is read, which is its start only where the
length is longer than the object. -/
theorem AnswersRanges.readsRange_suffix_iff (hanswers : service.AnswersRanges id content)
    (hcontent : content ≠ []) {length : UInt64} (hlength : length ≠ 0) :
    service.ReadsRange id content none (some length) ↔
      length.toNat ≤ 1 ∨ content.length < length.toNat := by
  have hpositive := toNat_pos_of_ne_zero hlength
  have hone : (1 : UInt64).toNat = 1 := rfl
  rcases Nat.lt_or_ge 1 length.toNat with hmore | hless
  · have hsome : some length ≠ some 0 := by simpa using hlength
    have hsuffix : (0 + length - 1).toNat = length.toNat - 1 := by
      rw [UInt64.zero_add, UInt64.toNat_sub_of_le _ _ (UInt64.le_iff_toNat_le.2 (by omega)), hone]
    have hnonzero : ¬ 0 + length - 1 = 0 := by
      intro hzero
      rw [hzero, UInt64.toNat_zero] at hsuffix
      omega
    have hselect : (headerOf none (some length)).elim (some content) (·.select content) =
        some (content.drop (content.length - (length.toNat - 1))) := by
      rw [← hsuffix]
      exact if_neg hnonzero
    rw [hanswers.readsRange_iff_select hcontent hsome hselect]
    constructor
    · intro hsame
      have hlengths := congrArg List.length hsame
      simp only [upTo, optionalSlice, List.length_take, List.length_drop, Option.getD_none,
        UInt64.toNat_zero] at hlengths
      omega
    · intro hlong
      have hwhole : content.length - (length.toNat - 1) = 0 := by omega
      rw [hwhole]
      rfl
  · obtain rfl : length = 1 := UInt64.toNat_inj.1 (by omega)
    obtain ⟨failure, hread⟩ := hanswers.read_one hcontent
    refine iff_of_true (fun count written hread' => ?_) (Or.inl hless)
    rw [hread] at hread'
    cases hread'

/-- A successful read writes the range of the call and returns its length exactly if the header
keeps the range. -/
theorem read_optional_iff (service : ObjectService) (id : ObjectID) (content : Bytes)
    (hanswers : service.AnswersRanges id content) (position length : Option UInt64) :
    (∀ count written, service.read id position length = .ok (count, written) →
      written = optionalSlice content position length ∧ count.toNat = written.length) ↔
      HeaderKeepsRange content.length position length := by
  change service.ReadsRange id content position length ↔ _
  by_cases hlength : length = some 0
  · subst hlength
    refine iff_of_true (fun count written hread => ?_) ?_
    · rw [read_zero, Except.ok.injEq, Prod.mk.injEq] at hread
      obtain ⟨rfl, rfl⟩ := hread
      exact ⟨rfl, rfl⟩
    · cases position with
      | none => exact Or.inl (Nat.zero_le 1)
      | some position => exact Or.inl rfl
  by_cases hcontent : content = []
  · subst hcontent
    refine iff_of_true (fun count written hread => ?_) ?_
    · rw [hanswers.read_nil, Except.ok.injEq, Prod.mk.injEq] at hread
      obtain ⟨rfl, rfl⟩ := hread
      refine ⟨?_, rfl⟩
      rw [optionalSlice, List.drop_nil]
      cases length <;> simp [upTo]
    · cases length with
      | none => trivial
      | some length =>
          have hpositive := toNat_pos_of_ne_zero fun hzero => hlength (congrArg some hzero)
          cases position with
          | none => exact Or.inr hpositive
          | some position => exact Or.inr (Or.inr rfl)
  cases length with
  | none =>
      refine iff_of_true ?_ trivial
      cases position with
      | none => exact (hanswers.readsRange_iff_select hcontent hlength rfl).2 rfl
      | some position => exact hanswers.readsRange_from hcontent position
  | some length =>
      have hnonzero : length ≠ 0 := fun hzero => hlength (congrArg some hzero)
      cases position with
      | none => exact hanswers.readsRange_suffix_iff hcontent hnonzero
      | some position =>
          rw [hanswers.readsRange_span_iff hcontent position hnonzero, HeaderKeepsRange]
          have hsize : content.length ≠ 0 := fun hzero =>
            hcontent (List.length_eq_zero_iff.1 hzero)
          simp only [hnonzero, hsize, false_or, or_false]

end ObjectService

namespace Endpoint

/-- The service of an endpoint that answers every range of the objects it has. -/
def rangedService (endpoint : Endpoint) : ObjectService where
  getObject id range :=
    match endpoint.objects id with
    | none => .error ⟨text "NoSuchKey", text "The specified key does not exist."⟩
    | some object =>
        match range.elim (some object.content) (·.select object.content) with
        | none => .error invalidRange
        | some body => .ok ⟨UInt64.ofNat body.length, body⟩
  headObject := endpoint.service.headObject

theorem length_select_le {range : ByteRange} {content body : Bytes}
    (hselect : range.select content = some body) : body.length ≤ content.length := by
  obtain ⟨first, last⟩ := range
  cases first <;> cases last <;> simp only [ByteRange.select] at hselect <;>
    grind [length_slice]

theorem rangedService_answersRanges {endpoint : Endpoint} {id : ObjectID} {object : StoredObject}
    (hobject : endpoint.objects id = some object) :
    endpoint.rangedService.AnswersRanges id object.content := by
  have hbounded := object.bounded
  have hlength : ∀ body : Bytes, body.length ≤ object.content.length →
      (UInt64.ofNat body.length).toNat = body.length := by
    intro body hbody
    rw [UInt64.toNat_ofNat']
    exact Nat.mod_eq_of_lt (by omega)
  refine ⟨⟨⟨UInt64.ofNat object.content.length, object.content⟩, ?_, rfl, hlength _ le_rfl⟩,
    fun range body hselect => Or.inl ?_, fun range hselect => ⟨invalidRange, ?_, rfl⟩,
    object.size, ?_, object.toNat_size⟩
  · simp [rangedService, hobject]
  · refine ⟨⟨UInt64.ofNat body.length, body⟩, ?_, rfl, hlength _ (length_select_le hselect)⟩
    simp [rangedService, hobject, hselect]
  · simp [rangedService, hobject, hselect]
  · simp [rangedService, service, hobject]

end Endpoint

/-- The first two bytes of an object of three are asked for, and the last one is read. -/
theorem ObjectService.read_optional_suffix :
    Endpoint.threeBytes.rangedService.AnswersRanges ⟨text "bucket", text "key"⟩ [1, 2, 3] ∧
      Endpoint.threeBytes.rangedService.read ⟨text "bucket", text "key"⟩ none (some 2) =
        .ok (1, [3]) ∧
      ¬ ∀ count written, Endpoint.threeBytes.rangedService.read ⟨text "bucket", text "key"⟩
        none (some 2) = .ok (count, written) →
        written = optionalSlice [1, 2, 3] none (some 2) ∧ count.toNat = written.length := by
  have hread : Endpoint.threeBytes.rangedService.read ⟨text "bucket", text "key"⟩ none (some 2) =
      .ok (1, [3]) := rfl
  refine ⟨@Endpoint.rangedService_answersRanges Endpoint.threeBytes _ ⟨[1, 2, 3], by decide⟩ rfl,
    hread, fun hreads => ?_⟩
  have hwanted : optionalSlice [1, 2, 3] none (some 2) = [1, 2] := rfl
  have hwritten := (hreads 1 [3] hread).1
  rw [hwanted] at hwritten
  cases hwritten

/-- With a position of 1 the two bytes are those of the call. -/
theorem ObjectService.read_optional_three :
    HeaderKeepsRange [1, 2, 3].length (some 1) (some 2) ∧
      ∀ count written, Endpoint.threeBytes.rangedService.read ⟨text "bucket", text "key"⟩
        (some 1) (some 2) = .ok (count, written) →
        written = optionalSlice [1, 2, 3] (some 1) (some 2) ∧ count.toNat = written.length := by
  have hanswers : Endpoint.threeBytes.rangedService.AnswersRanges ⟨text "bucket", text "key"⟩
      [1, 2, 3] := @Endpoint.rangedService_answersRanges Endpoint.threeBytes _
    ⟨[1, 2, 3], by decide⟩ rfl
  have hkeeps : HeaderKeepsRange [1, 2, 3].length (some 1) (some 2) := Or.inr (Or.inl (by decide))
  exact ⟨hkeeps, (read_optional_iff _ _ [1, 2, 3] hanswers (some 1) (some 2)).2 hkeeps⟩

end GEDS
