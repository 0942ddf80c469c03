/-
The text of a read request: how the client writes it and how the server takes
it apart with a regular expression.
-/
import GEDS.Library.Regex
import GEDS.Names

namespace GEDS

open Status

namespace TcpTransport

/-- The digits that `operator<<` writes for a `size_t`. -/
def decimal (number : UInt64) : Bytes :=
  (Nat.toDigits 10 number.toNat).map fun digit => UInt8.ofNat digit.toNat

/-- `\d` -/
def isDigit (letter : UInt8) : Bool := decide (0x30 ≤ letter) && decide (letter ≤ 0x39)

/-- `.` matches no line terminator. -/
def isDot (letter : UInt8) : Bool := decide (letter ≠ 0x0a) && decide (letter ≠ 0x0d)

/-- `[\n]` -/
def isNewline (letter : UInt8) : Bool := decide (letter = 0x0a)

/-- `GET ([a-z\d][a-z\d\.\-]+[a-z\d])\/(.+)[\n]+RANGE (\d+) (\d+)\D*` -/
def getRequestRegex : Regex UInt8 :=
  .seq (.literal (text "GET ")) <|
  .seq (.group 1 (.seq (.one isBucketEnd) (.seq (.plus isBucketInner) (.one isBucketEnd)))) <|
  .seq (.literal [slash]) <|
  .seq (.group 2 (.plus isDot)) <|
  .seq (.plus isNewline) <|
  .seq (.literal (text "RANGE ")) <|
  .seq (.group 3 (.plus isDigit)) <|
  .seq (.literal (text " ")) <|
  .seq (.group 4 (.plus isDigit)) <|
  .star fun letter => !isDigit letter

/-- What `parseGetRequest` extracts. -/
structure GetRequest where
  bucket : Bytes
  key : Bytes
  offset : UInt64
  length : UInt64
deriving DecidableEq

/-- `parseGetRequest` returns a status or `std::stoull` throws. -/
inductive ParseFault where
  | status (status : Status)
  | outOfRange
deriving DecidableEq

def digitsValue (digits : Bytes) : Nat :=
  digits.foldl (fun value digit => 10 * value + (digit.toNat - 0x30)) 0

/-- `std::stoull` for a string of digits. -/
def stoull (digits : Bytes) : Except ParseFault UInt64 :=
  if digitsValue digits < 2 ^ 64 then .ok (UInt64.ofNat (digitsValue digits))
  else .error .outOfRange

def parseGetRequest (request : Bytes) : Except ParseFault GetRequest :=
  match getRequestRegex.regexMatch request with
  | none =>
      .error (.status ⟨.invalidArgument, text "Unable to parse '" ++ request ++ text "'"⟩)
  | some groups =>
      match stoull ((groups 3).getD []) with
      | .error fault => .error fault
      | .ok offset =>
          match stoull ((groups 4).getD []) with
          | .error fault => .error fault
          | .ok length =>
              .ok ⟨(groups 1).getD [], (groups 2).getD [], offset, length⟩

def createGetRequest (bucket key : Bytes) (offset length : UInt64) : Bytes :=
  text "GET " ++ bucket ++ text "/" ++ key ++ text "\nRANGE " ++ decimal offset ++ text " " ++
    decimal length

/-- What the server receives: the client also sends the byte that ends the string. -/
def sentRequest (bucket key : Bytes) (offset length : UInt64) : Bytes :=
  createGetRequest bucket key offset length ++ [0]

section Decimal

variable (number : UInt64)

theorem toDigits_isDigit {digit : Char} (hdigit : digit ∈ Nat.toDigits 10 number.toNat) :
    0x30 ≤ digit.toNat ∧ digit.toNat ≤ 0x39 := by
  have hchar := Nat.isDigit_of_mem_toDigits (by decide) (by decide) hdigit
  simp only [Char.isDigit, Bool.and_eq_true, decide_eq_true_eq, UInt32.le_iff_toNat_le] at hchar
  exact hchar

theorem decimal_ne_nil : decimal number ≠ [] := by
  simp [decimal, Nat.toDigits_ne_nil]

theorem decimal_isDigit : ∀ letter ∈ decimal number, isDigit letter = true := by
  intro letter hletter
  obtain ⟨digit, hdigit, rfl⟩ := List.mem_map.1 hletter
  obtain ⟨hlow, hhigh⟩ := toDigits_isDigit number hdigit
  have hnat : (UInt8.ofNat digit.toNat).toNat = digit.toNat :=
    Nat.mod_eq_of_lt (by omega)
  simp only [isDigit, Bool.and_eq_true, decide_eq_true_eq, UInt8.le_iff_toNat_le, hnat]
  exact ⟨hlow, hhigh⟩

theorem digitsValue_decimal : digitsValue (decimal number) = number.toNat := by
  rw [digitsValue, decimal, List.foldl_map]
  calc (Nat.toDigits 10 number.toNat).foldl
        (fun value digit => 10 * value + ((UInt8.ofNat digit.toNat).toNat - 0x30)) 0
      = (Nat.toDigits 10 number.toNat).foldl
        (fun value digit => 10 * value + (digit.toNat - '0'.toNat)) 0 := by
          apply List.foldl_ext
          intro value digit hdigit
          obtain ⟨hlow, hhigh⟩ := toDigits_isDigit number hdigit
          have hnat : (UInt8.ofNat digit.toNat).toNat = digit.toNat :=
            Nat.mod_eq_of_lt (by omega)
          rw [hnat]
          rfl
    _ = number.toNat := by
          rw [← Nat.ofDigitChars_eq_foldl, Nat.ofDigitChars_ten_toDigits]

theorem stoull_decimal : stoull (decimal number) = .ok number := by
  have hlt : number.toNat < 2 ^ 64 := number.toNat_lt
  rw [stoull, digitsValue_decimal, if_pos hlt, UInt64.ofNat_toNat]

end Decimal

section Form

/-- The texts that the expression admits, with the parts it captures. -/
structure HasForm (request bucket key offset length : Bytes) : Prop where
  written : ∃ lines rest : Bytes, lines ≠ [] ∧ (∀ letter ∈ lines, isNewline letter = true) ∧
    (∀ letter ∈ rest, isDigit letter = false) ∧
    request = text "GET " ++ (bucket ++ ([slash] ++ (key ++ (lines ++ (text "RANGE " ++
      (offset ++ (text " " ++ (length ++ rest))))))))
  bucket_matches : bucketRegexMatch bucket = true
  key_ne_nil : key ≠ []
  key_isDot : ∀ letter ∈ key, isDot letter = true
  offset_ne_nil : offset ≠ []
  offset_isDigit : ∀ letter ∈ offset, isDigit letter = true
  length_ne_nil : length ≠ []
  length_isDigit : ∀ letter ∈ length, isDigit letter = true

variable {request bucket key offset length : Bytes} {groups groups' : Captures UInt8}

theorem bucket_parses_iff :
    (Regex.seq (.one isBucketEnd) (.seq (.plus isBucketInner) (.one isBucketEnd))).Parses
        bucket groups groups' ↔ bucketRegexMatch bucket = true ∧ groups' = groups := by
  constructor
  · rintro ⟨front, back, between, rfl, ⟨⟨first, rfl, hfirst⟩, rfl⟩, inner, back, between, rfl,
      hinner, ⟨⟨last, rfl, hlast⟩, rfl⟩⟩
    obtain ⟨hne, hletters, rfl⟩ := Regex.parses_plus.1 hinner
    exact ⟨bucketRegexMatch_iff.2 ⟨first, inner, last, rfl, hfirst, hne, hletters, hlast⟩, rfl⟩
  · rintro ⟨hmatch, rfl⟩
    obtain ⟨first, inner, last, rfl, hfirst, hne, hinner, hlast⟩ := bucketRegexMatch_iff.1 hmatch
    exact ⟨[first], inner ++ [last], groups', rfl, ⟨⟨first, rfl, hfirst⟩, rfl⟩, inner, [last],
      groups', rfl, Regex.parses_plus.2 ⟨hne, hinner, rfl⟩, ⟨⟨last, rfl, hlast⟩, rfl⟩⟩

/-- What the expression matches, and what it captures then. -/
theorem getRequestRegex_parses_iff :
    getRequestRegex.Parses request groups groups' ↔
      ∃ bucket key offset length, HasForm request bucket key offset length ∧
        groups' = Function.update (Function.update (Function.update (Function.update groups
          1 (some bucket)) 2 (some key)) 3 (some offset)) 4 (some length) := by
  constructor
  · rintro ⟨_, _, _, rfl, hget, _, _, _, rfl, ⟨_, hbucket, rfl⟩, _, _, _, rfl, hslash,
      _, _, _, rfl, ⟨_, hkey, rfl⟩, _, _, _, rfl, hlines, _, _, _, rfl, hrange,
      _, _, _, rfl, ⟨_, hoffset, rfl⟩, _, _, _, rfl, hspace, _, _, _, rfl,
      ⟨_, hlength, rfl⟩, hrest, rfl⟩
    obtain ⟨rfl, rfl⟩ := Regex.parses_literal.1 hget
    obtain ⟨hname, rfl⟩ := bucket_parses_iff.1 hbucket
    obtain ⟨rfl, rfl⟩ := Regex.parses_literal.1 hslash
    obtain ⟨hkeyne, hdots, rfl⟩ := Regex.parses_plus.1 hkey
    obtain ⟨hlinesne, hnewlines, rfl⟩ := Regex.parses_plus.1 hlines
    obtain ⟨rfl, rfl⟩ := Regex.parses_literal.1 hrange
    obtain ⟨hoffsetne, hoffsets, rfl⟩ := Regex.parses_plus.1 hoffset
    obtain ⟨rfl, rfl⟩ := Regex.parses_literal.1 hspace
    obtain ⟨hlengthne, hlengths, rfl⟩ := Regex.parses_plus.1 hlength
    simp only [Bool.not_eq_eq_eq_not, Bool.not_true] at hrest
    exact ⟨_, _, _, _, ⟨⟨_, _, hlinesne, hnewlines, hrest, rfl⟩, hname, hkeyne, hdots, hoffsetne,
      hoffsets, hlengthne, hlengths⟩, rfl⟩
  · rintro ⟨bucket, key, offset, length, hform, rfl⟩
    obtain ⟨lines, rest, hlinesne, hlines, hrest, rfl⟩ := hform.written
    refine ⟨_, _, _, rfl, Regex.parses_literal.2 ⟨rfl, rfl⟩, _, _, _, rfl,
      ⟨_, bucket_parses_iff.2 ⟨hform.bucket_matches, rfl⟩, rfl⟩, _, _, _, rfl,
      Regex.parses_literal.2 ⟨rfl, rfl⟩, _, _, _, rfl,
      ⟨_, Regex.parses_plus.2 ⟨hform.key_ne_nil, hform.key_isDot, rfl⟩, rfl⟩, _, _, _, rfl,
      Regex.parses_plus.2 ⟨hlinesne, hlines, rfl⟩, _, _, _, rfl,
      Regex.parses_literal.2 ⟨rfl, rfl⟩, _, _, _, rfl,
      ⟨_, Regex.parses_plus.2 ⟨hform.offset_ne_nil, hform.offset_isDigit, rfl⟩, rfl⟩, _, _, _,
      rfl, Regex.parses_literal.2 ⟨rfl, rfl⟩, _, _, _, rfl,
      ⟨_, Regex.parses_plus.2 ⟨hform.length_ne_nil, hform.length_isDigit, rfl⟩, rfl⟩, ?_, rfl⟩
    simpa using hrest

/-- Where a word of one kind ends is determined by what follows it. -/
theorem split_unique {p : UInt8 → Bool} {word word' rest rest' : Bytes}
    (hword : ∀ letter ∈ word, p letter = true) (hword' : ∀ letter ∈ word', p letter = true)
    (hstop : ∀ letter ∈ rest.head?, p letter = false)
    (hstop' : ∀ letter ∈ rest'.head?, p letter = false)
    (heq : word ++ rest = word' ++ rest') : word = word' ∧ rest = rest' := by
  have hnone : ∀ {tail : Bytes}, (∀ letter ∈ tail.head?, p letter = false) →
      tail.takeWhile p = [] := by
    intro tail htail
    cases tail with
    | nil => rfl
    | cons letter tail => simp [htail letter rfl]
  have hwords : word = word' := by
    have htake := congrArg (List.takeWhile p) heq
    rwa [List.takeWhile_append_of_pos hword, List.takeWhile_append_of_pos hword',
      hnone hstop, hnone hstop', List.append_nil, List.append_nil] at htake
  rw [hwords] at heq
  exact ⟨hwords, List.append_cancel_left heq⟩

/-- The same from the back: the last number of a text, and what is before the blank in
front of it. -/
theorem last_number_unique {front front' digits digits' rest rest' : Bytes}
    (hne : digits ≠ []) (hdigits : ∀ letter ∈ digits, isDigit letter = true)
    (hne' : digits' ≠ []) (hdigits' : ∀ letter ∈ digits', isDigit letter = true)
    (hrest : ∀ letter ∈ rest, isDigit letter = false)
    (hrest' : ∀ letter ∈ rest', isDigit letter = false)
    (heq : front ++ (text " " ++ (digits ++ rest)) = front' ++ (text " " ++ (digits' ++ rest'))) :
    front = front' ∧ digits = digits' := by
  have hspace : text " " = [0x20] := by decide
  have hreverse := congrArg List.reverse heq
  simp only [hspace, List.reverse_append, List.append_assoc, List.reverse_singleton] at hreverse
  have hstop : ∀ {digits front : Bytes}, digits ≠ [] →
      (∀ letter ∈ digits, isDigit letter = true) →
      ∀ letter ∈ (digits.reverse ++ ([0x20] ++ front.reverse)).head?,
        (!isDigit letter) = false := by
    intro digits front hne hdigits letter hletter
    have hlast : (digits.reverse ++ ([0x20] ++ front.reverse)).head? = digits.getLast? := by
      rw [List.head?_append_of_ne_nil _ (by simpa using hne), List.head?_reverse]
    rw [hlast] at hletter
    simpa using hdigits letter (List.mem_of_getLast? hletter)
  have hnondigit : ∀ {rest : Bytes}, (∀ letter ∈ rest, isDigit letter = false) →
      ∀ letter ∈ rest.reverse, (!isDigit letter) = true := by
    intro rest hrest letter hletter
    simp [hrest letter (List.mem_reverse.1 hletter)]
  obtain ⟨-, hnumbers⟩ := split_unique (hnondigit hrest) (hnondigit hrest')
    (hstop hne hdigits) (hstop hne' hdigits') hreverse
  obtain ⟨hlast, hfront⟩ := split_unique (p := isDigit) (by simpa using hdigits)
    (by simpa using hdigits') (by simp [isDigit]) (by simp [isDigit]) hnumbers
  exact ⟨by simpa using hfront, List.reverse_injective hlast⟩

/-- A text has its two numbers in one way only. -/
theorem HasForm.numbers_unique {bucket' key' offset' length' : Bytes}
    (hform : HasForm request bucket key offset length)
    (hform' : HasForm request bucket' key' offset' length') :
    offset = offset' ∧ length = length' := by
  obtain ⟨lines, rest, -, -, hrest, hwritten⟩ := hform.written
  obtain ⟨lines', rest', -, -, hrest', hwritten'⟩ := hform'.written
  have hrange : text "RANGE " = text "RANGE" ++ text " " := by decide
  have hends : (text "GET " ++ (bucket ++ ([slash] ++ (key ++ (lines ++ (text "RANGE " ++
        offset)))))) ++ (text " " ++ (length ++ rest)) =
      (text "GET " ++ (bucket' ++ ([slash] ++ (key' ++ (lines' ++ (text "RANGE " ++
        offset')))))) ++ (text " " ++ (length' ++ rest')) := by
    simpa only [List.append_assoc] using hwritten.symm.trans hwritten'
  obtain ⟨hfront, hlength⟩ := last_number_unique hform.length_ne_nil hform.length_isDigit
    hform'.length_ne_nil hform'.length_isDigit hrest hrest' hends
  have hfronts : (text "GET " ++ (bucket ++ ([slash] ++ (key ++ (lines ++ text "RANGE"))))) ++
        (text " " ++ (offset ++ [])) =
      (text "GET " ++ (bucket' ++ ([slash] ++ (key' ++ (lines' ++ text "RANGE"))))) ++
        (text " " ++ (offset' ++ [])) := by
    simpa only [hrange, List.append_assoc, List.append_nil] using hfront
  obtain ⟨-, hoffset⟩ := last_number_unique hform.offset_ne_nil hform.offset_isDigit
    hform'.offset_ne_nil hform'.offset_isDigit (by simp) (by simp) hfronts
  exact ⟨hoffset, hlength⟩

/-- A text without the form is rejected. -/
theorem parseGetRequest_of_no_form
    (hnone : ∀ bucket key offset length, ¬ HasForm request bucket key offset length) :
    parseGetRequest request = .error
      (.status ⟨.invalidArgument, text "Unable to parse '" ++ request ++ text "'"⟩) := by
  cases hmatch : getRequestRegex.regexMatch request with
  | none => simp only [parseGetRequest, hmatch]
  | some groups =>
      obtain ⟨bucket, key, offset, length, hform, -⟩ :=
        getRequestRegex_parses_iff.1 (Regex.regexMatch_eq_some hmatch)
      exact absurd hform (hnone bucket key offset length)

/-- A text with the form gives its names, and its numbers as far as they can be converted. -/
theorem parseGetRequest_of_form (hform : HasForm request bucket key offset length) :
    ∃ bucket key, HasForm request bucket key offset length ∧
      parseGetRequest request =
        if digitsValue offset < 2 ^ 64 ∧ digitsValue length < 2 ^ 64 then
          .ok ⟨bucket, key, UInt64.ofNat (digitsValue offset), UInt64.ofNat (digitsValue length)⟩
        else .error .outOfRange := by
  have hsome := Regex.Parses.regexMatch_isSome
    (getRequestRegex_parses_iff.2 ⟨bucket, key, offset, length, hform, rfl⟩)
  obtain ⟨groups, hmatch⟩ := Option.isSome_iff_exists.1 hsome
  obtain ⟨bucket', key', offset', length', hform', hgroups⟩ :=
    getRequestRegex_parses_iff.1 (Regex.regexMatch_eq_some hmatch)
  -- the matcher may split the names differently, never the numbers
  obtain ⟨rfl, rfl⟩ := hform.numbers_unique hform'
  refine ⟨bucket', key', hform', ?_⟩
  have hoffset : groups 3 = some offset := by simp [hgroups, Function.update]
  have hlength : groups 4 = some length := by simp [hgroups]
  have hbucket : groups 1 = some bucket' := by simp [hgroups, Function.update]
  have hkey : groups 2 = some key' := by simp [hgroups, Function.update]
  simp only [parseGetRequest, hmatch, hbucket, hkey, hoffset, hlength, Option.getD_some, stoull]
  by_cases hoffset : digitsValue offset < 2 ^ 64
  · by_cases hlength : digitsValue length < 2 ^ 64
    · simp only [hoffset, hlength, ↓reduceIte, and_self]
    · simp only [hoffset, hlength, ↓reduceIte, and_false]
  · simp only [hoffset, ↓reduceIte, false_and]

/-- What is parsed is what stands at its place in the text. -/
theorem parseGetRequest_ok {parsed : GetRequest} (hparse : parseGetRequest request = .ok parsed) :
    ∃ offset length, HasForm request parsed.bucket parsed.key offset length ∧
      digitsValue offset = parsed.offset.toNat ∧ digitsValue length = parsed.length.toNat := by
  by_cases hany : ∃ bucket key offset length, HasForm request bucket key offset length
  · obtain ⟨bucket, key, offset, length, hform⟩ := hany
    obtain ⟨bucket, key, hform, hresult⟩ := parseGetRequest_of_form hform
    by_cases hrange : digitsValue offset < 2 ^ 64 ∧ digitsValue length < 2 ^ 64
    · rw [hresult, if_pos hrange, Except.ok.injEq] at hparse
      subst hparse
      exact ⟨offset, length, hform, (UInt64.toNat_ofNat_of_lt' hrange.1).symm,
        (UInt64.toNat_ofNat_of_lt' hrange.2).symm⟩
    · rw [hresult, if_neg hrange] at hparse
      cases hparse
  · simp only [not_exists] at hany
    rw [parseGetRequest_of_no_form hany] at hparse
    cases hparse

end Form

section RoundTrip

variable {bucket key : Bytes} {offset length : UInt64}

theorem isBucketInner_of_isBucketEnd (letter : UInt8) (hletter : isBucketEnd letter = true) :
    isBucketInner letter = true := by
  simp [isBucketInner, hletter]

/-- The bucket is what stands before the first separator. -/
theorem bucket_takes (hmatch : bucketRegexMatch bucket = true) (rest : Bytes) :
    Regex.Takes (.seq (.one isBucketEnd) (.seq (.plus isBucketInner) (.one isBucketEnd)))
      bucket (slash :: rest) id := by
  obtain ⟨first, inner, last, rfl, hfirst, hne, hinner, hlast⟩ := bucketRegexMatch_iff.1 hmatch
  have hstop : ∀ letter ∈ (slash :: rest).head?, isBucketInner letter = false := by
    simp [isBucketInner_slash]
  have htail := Regex.Takes.plus_one isBucketInner_of_isBucketEnd hne hinner hlast hstop
  have hone : Regex.Takes (.one isBucketEnd) [first] ((inner ++ [last]) ++ slash :: rest) id :=
    Regex.Takes.one hfirst
  exact hone.seq htail

theorem sentRequest_eq :
    sentRequest bucket key offset length =
      text "GET " ++ (bucket ++ ([slash] ++ (key ++ ([0x0a] ++ (text "RANGE " ++
        (decimal offset ++ (text " " ++ (decimal length ++ [0])))))))) := by
  have hslash : text "/" = [slash] := by decide
  have hrange : text "\nRANGE " = [0x0a] ++ text "RANGE " := by decide
  simp only [sentRequest, createGetRequest, hslash, hrange, List.append_assoc]

/-- A number is what stands before the next byte that is no digit. -/
theorem decimal_takes (group : Nat) (number : UInt64) {letter : UInt8} (rest : Bytes)
    (hletter : isDigit letter = false) :
    Regex.Takes (.group group (.plus isDigit)) (decimal number) (letter :: rest)
      fun groups => Function.update groups group (some (decimal number)) := by
  apply Regex.Takes.group
  apply Regex.Takes.plus (decimal_ne_nil number) (decimal_isDigit number)
  simpa using hletter

theorem range_takes (offset length : UInt64) :
    Regex.Takes
      (.seq (.literal (text "RANGE ")) <| .seq (.group 3 (.plus isDigit)) <|
        .seq (.literal (text " ")) <| .seq (.group 4 (.plus isDigit)) <|
        .star fun letter => !isDigit letter)
      (text "RANGE " ++ (decimal offset ++ (text " " ++ (decimal length ++ [0])))) []
      fun groups => Function.update (Function.update groups 3 (some (decimal offset))) 4
        (some (decimal length)) := by
  have hspace : text " " = [0x20] := by decide
  have hend : Regex.Takes (.star fun letter => !isDigit letter) [0] [] id :=
    Regex.Takes.star (List.forall_mem_singleton.2 (by decide)) (by simp)
  have hlength := (decimal_takes 4 length ([] ++ []) (by decide)).seq hend
  have hoffset : Regex.Takes (.group 3 (.plus isDigit)) (decimal offset)
      ((text " " ++ (decimal length ++ [0])) ++ [])
      fun groups => Function.update groups 3 (some (decimal offset)) := by
    rw [hspace]
    exact decimal_takes 3 offset _ (by decide)
  have hnumbers := hoffset.seq ((Regex.Takes.literal (text " ") _).seq hlength)
  exact (Regex.Takes.literal (text "RANGE ") _).seq hnumbers

/-- Without a line terminator in the key, every part of the expression finds the
part of the request that was written for it. -/
theorem sentRequest_takes (hmatch : bucketRegexMatch bucket = true) (hne : key ≠ [])
    (hkey : ∀ letter ∈ key, isDot letter = true) :
    ∃ change, Regex.Takes getRequestRegex (sentRequest bucket key offset length) [] change ∧
      ∀ groups, change groups 1 = some bucket ∧ change groups 2 = some key ∧
        change groups 3 = some (decimal offset) ∧ change groups 4 = some (decimal length) := by
  have hrange : text "RANGE " = 0x52 :: text "ANGE " := by decide
  have hline : Regex.Takes (.plus isNewline) [0x0a]
      ((text "RANGE " ++ (decimal offset ++ (text " " ++ (decimal length ++ [0])))) ++ []) id := by
    apply Regex.Takes.plus (List.cons_ne_nil _ _) (List.forall_mem_singleton.2 (by decide))
    rw [hrange]
    simp [isNewline]
  have hlines := hline.seq (range_takes offset length)
  have hname : Regex.Takes (.group 2 (.plus isDot)) key
      (([0x0a] ++ (text "RANGE " ++ (decimal offset ++ (text " " ++ (decimal length ++ [0])))))
        ++ []) fun groups => Function.update groups 2 (some key) :=
    (Regex.Takes.plus hne hkey (by simp [isDot])).group 2
  have hpath := (Regex.Takes.literal [slash] _).seq (hname.seq hlines)
  have hbucket := ((bucket_takes hmatch _).group 1).seq hpath
  have hall := (Regex.Takes.literal (text "GET ") _).seq hbucket
  rw [← sentRequest_eq] at hall
  refine ⟨_, hall, fun groups => ?_⟩
  simp [Function.update]

/-- The key that is parsed contains no line terminator. -/
theorem parseGetRequest_isDot {request : Bytes} {parsed : GetRequest}
    (hparse : parseGetRequest request = .ok parsed) :
    ∀ letter ∈ parsed.key, isDot letter = true := by
  obtain ⟨offset, length, hform, -, -⟩ := parseGetRequest_ok hparse
  exact hform.key_isDot

/-- For valid names the server reads back what the client wrote, just if there is no
line terminator in the key. -/
theorem parseGetRequest_sentRequest_iff (bucket key : Bytes) (offset length : UInt64)
    (hvalid : (isValid bucket key).ok = true) :
    parseGetRequest (sentRequest bucket key offset length) =
        .ok ⟨bucket, key, offset, length⟩ ↔
      (0x0a : UInt8) ∉ key ∧ (0x0d : UInt8) ∉ key := by
  have hdots : ((0x0a : UInt8) ∉ key ∧ (0x0d : UInt8) ∉ key) ↔
      ∀ letter ∈ key, isDot letter = true := by
    simp only [isDot, Bool.and_eq_true, decide_eq_true_eq]
    constructor
    · rintro ⟨hline, hreturn⟩ letter hletter
      exact ⟨fun heq => hline (heq ▸ hletter), fun heq => hreturn (heq ▸ hletter)⟩
    · intro hall
      exact ⟨fun hline => (hall _ hline).1 rfl, fun hreturn => (hall _ hreturn).2 rfl⟩
  rw [hdots]
  constructor
  · intro hparse
    exact parseGetRequest_isDot hparse
  · intro hkey
    obtain ⟨hmatch, hne⟩ := isValid.names hvalid
    obtain ⟨change, htakes, hgroups⟩ :=
      @sentRequest_takes bucket key offset length hmatch hne hkey
    obtain ⟨hbucket, hname, hoffset, hlength⟩ := hgroups fun _ => none
    simp only [parseGetRequest, htakes.regexMatch, hbucket, hname, hoffset, hlength,
      Option.getD_some, stoull_decimal]

end RoundTrip

section Totality

/-- The names and numbers are found in the text. -/
def GetRequest.OccursIn (parsed : GetRequest) (request : Bytes) : Prop :=
  parsed.bucket <:+: request ∧ parsed.key <:+: request ∧
    (∃ digits, digits <:+: request ∧ (∀ letter ∈ digits, isDigit letter = true) ∧
      digitsValue digits = parsed.offset.toNat) ∧
    ∃ digits, digits <:+: request ∧ (∀ letter ∈ digits, isDigit letter = true) ∧
      digitsValue digits = parsed.length.toNat

/-- What the handler in `TcpConnection::awaitRequest` does with the text of a request. -/
inductive Handled where
  | handleError (status : Status)
  | handleWrite (parsed : GetRequest)
  /-- Nothing on the thread of the server catches the exception. -/
  | terminated
deriving DecidableEq

def awaitRequest (request : Bytes) : Handled :=
  match parseGetRequest request with
  | .ok parsed => .handleWrite parsed
  | .error (.status status) => .handleError status
  | .error .outOfRange => .terminated

variable {request bucket key offset length : Bytes}

theorem HasForm.infixes (hform : HasForm request bucket key offset length) :
    bucket <:+: request ∧ key <:+: request ∧ offset <:+: request ∧ length <:+: request := by
  obtain ⟨lines, rest, -, -, -, rfl⟩ := hform.written
  have hinner : ∀ front word back : Bytes, word <:+: front ++ (word ++ back) := by
    intro front word back
    rw [← List.append_assoc]
    exact List.infix_append front word back
  refine ⟨hinner _ _ _, ?_, ?_, ?_⟩
  · simpa only [List.append_assoc] using hinner (text "GET " ++ (bucket ++ [slash])) key
      (lines ++ (text "RANGE " ++ (offset ++ (text " " ++ (length ++ rest)))))
  · simpa only [List.append_assoc] using hinner (text "GET " ++ (bucket ++ ([slash] ++ (key ++
      (lines ++ text "RANGE "))))) offset (text " " ++ (length ++ rest))
  · simpa only [List.append_assoc] using hinner (text "GET " ++ (bucket ++ ([slash] ++ (key ++
      (lines ++ (text "RANGE " ++ (offset ++ text " "))))))) length rest

theorem parseGetRequest_occursIn {parsed : GetRequest}
    (hparse : parseGetRequest request = .ok parsed) : parsed.OccursIn request := by
  obtain ⟨offset, length, hform, hoffset, hlength⟩ := parseGetRequest_ok hparse
  obtain ⟨hbucket, hkey, hfirst, hsecond⟩ := hform.infixes
  exact ⟨hbucket, hkey, ⟨offset, hfirst, hform.offset_isDigit, hoffset⟩,
    length, hsecond, hform.length_isDigit, hlength⟩

/-- The parser throws just for a text of the right form with a number too large. -/
theorem parseGetRequest_outOfRange_iff :
    parseGetRequest request = .error .outOfRange ↔
      ∃ bucket key offset length, HasForm request bucket key offset length ∧
        (2 ^ 64 ≤ digitsValue offset ∨ 2 ^ 64 ≤ digitsValue length) := by
  constructor
  · intro hparse
    by_cases hany : ∃ bucket key offset length, HasForm request bucket key offset length
    · obtain ⟨bucket, key, offset, length, hform⟩ := hany
      obtain ⟨_, _, -, hresult⟩ := parseGetRequest_of_form hform
      refine ⟨bucket, key, offset, length, hform, ?_⟩
      by_contra hsmall
      rw [not_or, not_le, not_le] at hsmall
      rw [hresult, if_pos hsmall] at hparse
      cases hparse
    · simp only [not_exists] at hany
      rw [parseGetRequest_of_no_form hany] at hparse
      cases hparse
  · rintro ⟨bucket, key, offset, length, hform, hlarge⟩
    obtain ⟨_, _, -, hresult⟩ := parseGetRequest_of_form hform
    rw [hresult, if_neg]
    rintro ⟨hoffset, hlength⟩
    omega

end Totality

namespace Sample

theorem spaced_parsed :
    parseGetRequest (sentRequest (text "bucket") (text "key ") 0 1073766400) =
      .ok ⟨text "bucket", text "key ", 0, 1073766400⟩ :=
  (parseGetRequest_sentRequest_iff (text "bucket") (text "key ") 0 1073766400 (by decide)).mpr
    (by decide)

/-- A valid key that ends with a line feed loses it. -/
theorem terminated_not_parsed :
    ¬ ∀ bucket key offset length, (isValid bucket key).ok = true →
      parseGetRequest (sentRequest bucket key offset length) =
        .ok ⟨bucket, key, offset, length⟩ := by
  intro hall
  have hparse := hall (text "bucket") (text "key\n") 0 1 (by decide)
  have hshort : parseGetRequest (sentRequest (text "bucket") (text "key\n") 0 1) =
      .ok ⟨text "bucket", text "key", 0, 1⟩ := by rfl
  rw [hshort] at hparse
  exact absurd hparse (by decide)

end Sample

end TcpTransport

end GEDS
