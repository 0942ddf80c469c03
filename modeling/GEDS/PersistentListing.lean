/-
Directory listings of the Go server in persistent mode.  The common prefixes are
found by counting the components of names that begin with the bucket; the name is
trimmed before, and so loses white space at the end of its last component.
-/
import GEDS.PersistentStore

namespace GEDS

section Trim

variable {encodings : List Bytes}

/-- An encoding without the separator does not reach over it. -/
theorem isPrefix_append_cons_iff {encoding left right : Bytes} (hfree : slash ∉ encoding) :
    encoding <+: left ++ slash :: right ↔ encoding <+: left := by
  constructor
  · intro hbegins
    by_cases hlength : encoding.length ≤ left.length
    · exact List.prefix_of_prefix_length_le hbegins (List.prefix_append _ _) hlength
    · have hover : left ++ [slash] <+: encoding := by
        refine List.prefix_of_prefix_length_le ?_ hbegins
          (by rw [List.length_append, List.length_singleton]; omega)
        exact ⟨right, by simp⟩
      exact absurd (hover.subset (by simp)) hfree
  · intro hbegins
    exact hbegins.trans (List.prefix_append _ _)

theorem isPrefix_of_find? {encoding value : Bytes}
    (hfound : encodings.find? (·.isPrefixOf value) = some encoding) : encoding <+: value := by
  have hbegins := List.find?_some hfound
  exact List.isPrefixOf_iff_prefix.1 hbegins

/-- Trimming stops at the separator. -/
theorem trimStart_append (hfree : ∀ encoding ∈ encodings, slash ∉ encoding) (fuel : Nat)
    (left right : Bytes) :
    trimStart encodings fuel (left ++ slash :: right) =
      trimStart encodings fuel left ++ slash :: right := by
  induction fuel generalizing left with
  | zero => rfl
  | succ fuel ih =>
      have hfind : encodings.find? (·.isPrefixOf (left ++ slash :: right)) =
          encodings.find? (·.isPrefixOf left) := by
        refine List.find?_congr ?_
        intro encoding hmem
        rw [Bool.eq_iff_iff, List.isPrefixOf_iff_prefix, List.isPrefixOf_iff_prefix]
        exact isPrefix_append_cons_iff (hfree encoding hmem)
      rw [trimStart, trimStart, hfind]
      cases hfound : encodings.find? (·.isPrefixOf left) with
      | none => rfl
      | some encoding =>
          dsimp only
          rw [List.drop_append_of_le_length (isPrefix_of_find? hfound).length_le, ih]

theorem trimStart_suffix (fuel : Nat) (value : Bytes) :
    trimStart encodings fuel value <:+ value := by
  induction fuel generalizing value with
  | zero => exact List.suffix_refl _
  | succ fuel ih =>
      rw [trimStart]
      split
      · exact List.suffix_refl _
      · exact (ih _).trans (List.drop_suffix _ _)

/-- No separator is lost. -/
theorem count_trimStart (hfree : ∀ encoding ∈ encodings, slash ∉ encoding) (fuel : Nat)
    (value : Bytes) : (trimStart encodings fuel value).count slash = value.count slash := by
  induction fuel generalizing value with
  | zero => rfl
  | succ fuel ih =>
      rw [trimStart]
      split
      · rfl
      · rename_i encoding hfound
        obtain ⟨rest, rfl⟩ := isPrefix_of_find? hfound
        rw [ih, List.drop_left, List.count_append,
          List.count_eq_zero.2 (hfree encoding (List.mem_of_find?_eq_some hfound)), Nat.zero_add]

/-- Fuel for every byte is enough. -/
theorem trimStart_fuel (hnonempty : ∀ encoding ∈ encodings, encoding ≠ []) {fuel : Nat}
    {value : Bytes} (hfuel : value.length ≤ fuel) :
    trimStart encodings (fuel + 1) value = trimStart encodings fuel value := by
  induction fuel generalizing value with
  | zero =>
      obtain rfl := List.length_eq_zero_iff.1 (Nat.le_zero.1 hfuel)
      exact List.suffix_nil.1 (trimStart_suffix _ _)
  | succ fuel ih =>
      rw [trimStart]
      conv_rhs => rw [trimStart]
      split
      · rfl
      · rename_i encoding hfound
        have hpositive := List.length_pos_iff.2
          (hnonempty encoding (List.mem_of_find?_eq_some hfound))
        exact ih (by rw [List.length_drop]; omega)

theorem trimStart_eq (hnonempty : ∀ encoding ∈ encodings, encoding ≠ []) {fuel : Nat}
    {value : Bytes} (hfuel : value.length ≤ fuel) :
    trimStart encodings fuel value = trimStart encodings value.length value := by
  induction fuel, hfuel using Nat.le_induction with
  | base => rfl
  | succ fuel hfuel ih => rw [trimStart_fuel hnonempty hfuel, ih]

/-- What `strings.TrimSpace` does at the end of a text. -/
def trimRight (value : Bytes) : Bytes :=
  (trimStart (spaces.map List.reverse) value.length value.reverse).reverse

theorem slash_not_mem_spaces : ∀ encoding ∈ spaces, slash ∉ encoding := by decide

theorem slash_not_mem_reversed : ∀ encoding ∈ spaces.map List.reverse, slash ∉ encoding := by
  decide

theorem reversed_ne_nil : ∀ encoding ∈ spaces.map List.reverse, encoding ≠ [] := by decide

@[simp] theorem trimRight_nil : trimRight [] = [] := rfl

theorem slash_not_mem_trimRight {value : Bytes} (hfree : slash ∉ value) :
    slash ∉ trimRight value := by
  intro hmem
  rw [trimRight, List.mem_reverse] at hmem
  exact hfree (List.mem_reverse.1 ((trimStart_suffix _ _).subset hmem))

theorem trimRight_append (left right : Bytes) :
    trimRight (left ++ slash :: right) = left ++ slash :: trimRight right := by
  have hfuel : right.reverse.length ≤ (left ++ slash :: right).length := by
    rw [List.length_reverse, List.length_append, List.length_cons]
    omega
  rw [trimRight, List.reverse_append, List.reverse_cons, List.append_assoc,
    List.singleton_append, trimStart_append slash_not_mem_reversed,
    trimStart_eq reversed_ne_nil hfuel, List.length_reverse, trimRight]
  simp

/-- A text with a separator is trimmed on both sides of it. -/
theorem trimSpace_append (left right : Bytes) :
    ∃ fuel, trimSpace (left ++ slash :: right) =
      trimStart spaces fuel left ++ slash :: trimRight right := by
  refine ⟨(left ++ slash :: right).length, ?_⟩
  rw [trimSpace, trimStart_append slash_not_mem_spaces]
  exact trimRight_append _ _

end Trim

section Components

/-- The components of a key behind the bucket. -/
def components (key : Bytes) : List Bytes :=
  let parts := (trimRight key).splitOn slash
  if parts.getLast? = some [] then parts.dropLast else parts

/-- Components before the last ones stay. -/
theorem dropEmpty_append {front back : List Bytes} (hback : back ≠ []) :
    (if (front ++ back).getLast? = some [] then (front ++ back).dropLast else front ++ back) =
      front ++ if back.getLast? = some [] then back.dropLast else back := by
  rw [List.getLast?_append_of_ne_nil _ hback]
  split_ifs
  · exact List.dropLast_append_of_ne_nil hback
  · rfl

theorem components_append (left right : Bytes) :
    components (left ++ slash :: right) = left.splitOn slash ++ components right := by
  simp only [components]
  rw [trimRight_append, List.splitOn_append_cons_self]
  exact dropEmpty_append (List.splitOn_ne_nil _ _)

/-- The components of a name: that of the bucket, and those of the key. -/
theorem getNestedPathWithKey_fullName {bucket : Bytes} (hbucket : slash ∉ bucket) (key : Bytes) :
    ∃ trimmed, getNestedPathWithKey (fullName bucket key) = trimmed :: components key := by
  obtain ⟨fuel, htrim⟩ := trimSpace_append bucket key
  have hfree : slash ∉ trimStart spaces fuel bucket :=
    fun hmem => hbucket ((trimStart_suffix _ _).subset hmem)
  refine ⟨trimStart spaces fuel bucket, ?_⟩
  rw [fullName] at *
  simp only [getNestedPathWithKey, htrim]
  rw [List.splitOn_append_cons_self_of_not_mem hfree]
  exact @dropEmpty_append [_] _ (List.splitOn_ne_nil _ _)

theorem length_splitOn (value : Bytes) :
    (value.splitOn slash).length = value.count slash + 1 := by
  induction value with
  | nil => rfl
  | cons head tail ih =>
      rw [List.splitOn_cons_eq_if_modifyHead, List.count_cons]
      split_ifs with hhead
      · rw [List.length_cons, ih]
      · rw [List.length_modifyHead, ih, Nat.add_zero]

/-- A directory has as many components as it has slashes. -/
theorem length_getNestedPathWithKey (directory : Bytes) :
    (getNestedPathWithKey (directory ++ [slash])).length =
      (directory.splitOn slash).length := by
  obtain ⟨fuel, htrim⟩ := trimSpace_append directory []
  simp only [getNestedPathWithKey, htrim, trimRight_nil]
  rw [List.splitOn_append_cons_self, List.splitOn_nil, List.getLast?_concat, if_pos rfl,
    List.dropLast_concat, length_splitOn, length_splitOn, count_trimStart slash_not_mem_spaces]

/-- The first component and what is left to count. -/
theorem components_of_not_mem {name : Bytes} (hfree : slash ∉ name) :
    components name = if trimRight name = [] then [] else [trimRight name] := by
  simp only [components]
  rw [List.splitOn_eq_singleton (slash_not_mem_trimRight hfree)]
  split_ifs with hlast hblank hblank
  · rfl
  · exact absurd (Option.some.inj hlast) hblank
  · exact absurd (congrArg some hblank) hlast
  · rfl

theorem components_cons {name : Bytes} (hfree : slash ∉ name) (rest : Bytes) :
    components (name ++ slash :: rest) = name :: components rest := by
  rw [components_append, List.splitOn_eq_singleton hfree, List.singleton_append]

theorem components_eq_nil_iff (key : Bytes) : components key = [] ↔ trimRight key = [] := by
  by_cases hslash : slash ∈ key
  · obtain ⟨name, rest, rfl, hfree⟩ := List.eq_append_cons_of_mem hslash
    rw [components_cons hfree, trimRight_append]
    simp
  · rw [components_of_not_mem hslash]
    split_ifs with hblank <;> simp [hblank]

theorem intercalate_concat {parts : List Bytes} (hparts : parts ≠ []) (last : Bytes) :
    [slash].intercalate (parts ++ [last]) = [slash].intercalate parts ++ slash :: last := by
  induction parts with
  | nil => exact absurd rfl hparts
  | cons first rest ih =>
      by_cases hrest : rest = []
      · simp [hrest]
      · rw [List.cons_append, List.intercalate_cons_of_ne_nil (by simp),
          List.intercalate_cons_of_ne_nil hrest, ih hrest, List.append_assoc _ _ (slash :: last)]

end Components

namespace Database

variable (db : Database)

/-- The bucket has an object with this key. -/
def Stores (bucket key : Bytes) : Prop := (db.dbObject.find (fullName bucket key)).isSome

/-- Some key of the bucket starts with the directory and goes on. -/
def HasBelow (bucket directory : Bytes) : Prop :=
  ∃ rest, rest ≠ [] ∧ db.Stores bucket (directory ++ rest)

/-- The common prefixes of a listing in persistent mode. -/
def commonPrefixes (objectQuery : ObjectID) : List Bytes :=
  (filterIDsAndCommonPrefix (db.getAllObjectsIDsPrefix objectQuery) objectQuery).2

/-- The common prefixes are the directories with something below them, each once. -/
def ListsDirectories (objectQuery : ObjectID) : Prop :=
  (db.commonPrefixes objectQuery).Nodup ∧
    ∀ listed, listed ∈ db.commonPrefixes objectQuery ↔
      ∃ component, slash ∉ component ∧ listed = objectQuery.key ++ component ++ [slash] ∧
        db.HasBelow objectQuery.bucket listed

/-- In the root, no directory has only a key that goes on with nothing but white space. -/
def NoBlankNames (bucket : Bytes) : Prop :=
  ∀ component rest, slash ∉ component → rest ≠ [] → trimRight rest = [] →
    db.Stores bucket (component ++ slash :: rest) →
    ∃ other, trimRight other ≠ [] ∧ db.Stores bucket (component ++ slash :: other)

/-- Every name in the directory, of an object or of a directory marker, is that of a
directory with something below it. -/
def NamesDirectories (bucket directory : Bytes) : Prop :=
  ∀ name, slash ∉ name →
    (db.Stores bucket (directory ++ name) → trimRight name ≠ [] →
      db.HasBelow bucket (directory ++ trimRight name ++ [slash])) ∧
    (db.Stores bucket (directory ++ name ++ [slash]) →
      db.HasBelow bucket (directory ++ name ++ [slash]))

variable {db} {bucket : Bytes}

theorem mem_getAllObjectsIDsPrefix_iff (objectQuery : ObjectID) (name : Bytes) :
    name ∈ db.getAllObjectsIDsPrefix objectQuery ↔
      ∃ rest, db.Stores objectQuery.bucket (objectQuery.key ++ rest) ∧
        name = fullName objectQuery.bucket (objectQuery.key ++ rest) := by
  have hmem : name ∈ db.getAllObjectsIDsPrefix objectQuery ↔
      (db.dbObject.find name).isSome ∧ createObjectKey objectQuery <+: name := by
    rw [getAllObjectsIDsPrefix, iterate, range_prefixSearch]
    simp [Option.isSome_iff_exists, OrderedMap.find_eq_some_iff]
  rw [hmem]
  constructor
  · rintro ⟨hstored, rest, rfl⟩
    have hname : createObjectKey objectQuery ++ rest =
        fullName objectQuery.bucket (objectQuery.key ++ rest) := by
      simp [createObjectKey, fullName]
    rw [hname] at hstored ⊢
    exact ⟨rest, hstored, rfl⟩
  · rintro ⟨rest, hstored, rfl⟩
    exact ⟨hstored, rest, by simp [createObjectKey, fullName]⟩

theorem nodup_commonPrefixes (objectQuery : ObjectID) :
    (db.commonPrefixes objectQuery).Nodup := by
  simp only [commonPrefixes, filterIDsAndCommonPrefix]
  split_ifs
  · exact List.nodup_dedup _
  · exact List.nodup_dedup _

/-- The common prefixes in the root. -/
theorem mem_commonPrefixes_root (hbucket : slash ∉ bucket) (listed : Bytes) :
    listed ∈ db.commonPrefixes ⟨bucket, []⟩ ↔
      ∃ component rest, slash ∉ component ∧ trimRight rest ≠ [] ∧
        db.Stores bucket (component ++ slash :: rest) ∧ listed = component ++ [slash] := by
  simp only [commonPrefixes, filterIDsAndCommonPrefix, List.length_nil, ↓reduceIte,
    List.mem_dedup, List.mem_map, List.mem_filter, decide_eq_true_eq,
    mem_getAllObjectsIDsPrefix_iff, List.nil_append]
  constructor
  · rintro ⟨_, ⟨⟨_, ⟨key, hstored, rfl⟩, rfl⟩, hlong⟩, rfl⟩
    obtain ⟨trimmed, hparts⟩ := getNestedPathWithKey_fullName hbucket key
    rw [hparts, List.length_cons] at hlong
    by_cases hslash : slash ∈ key
    · obtain ⟨component, rest, rfl, hfree⟩ := List.eq_append_cons_of_mem hslash
      rw [components_cons hfree] at hlong hparts
      refine ⟨component, rest, hfree, ?_, hstored, by rw [hparts]; rfl⟩
      rw [ne_eq, ← components_eq_nil_iff, ← List.length_eq_zero_iff]
      rw [List.length_cons] at hlong
      omega
    · rw [components_of_not_mem hslash] at hlong
      split_ifs at hlong <;> simp at hlong
  · rintro ⟨component, rest, hfree, hrest, hstored, rfl⟩
    obtain ⟨trimmed, hparts⟩ :=
      getNestedPathWithKey_fullName hbucket (component ++ slash :: rest)
    rw [components_cons hfree] at hparts
    refine ⟨_, ⟨⟨_, ⟨_, hstored, rfl⟩, rfl⟩, ?_⟩, by rw [hparts]; rfl⟩
    have hpositive := List.length_pos_iff.2 ((components_eq_nil_iff rest).not.2 hrest)
    rw [hparts, List.length_cons, List.length_cons]
    omega

/-- The common prefixes in a directory. -/
theorem mem_commonPrefixes_directory (hbucket : slash ∉ bucket) (directory listed : Bytes) :
    listed ∈ db.commonPrefixes ⟨bucket, directory ++ [slash]⟩ ↔
      ∃ rest component, db.Stores bucket (directory ++ [slash] ++ rest) ∧
        (components rest).head? = some component ∧
        listed = directory ++ [slash] ++ component ++ [slash] := by
  have hkey : ¬ (directory ++ [slash]).length = 0 := by simp
  have hlength : (getNestedPath ⟨bucket, directory ++ [slash]⟩).length =
      (directory.splitOn slash).length := length_getNestedPathWithKey directory
  -- what is made of a name, as far as it has enough components
  have hname : ∀ rest : Bytes, ∃ trimmed,
      getNestedPathWithKey (fullName bucket (directory ++ [slash] ++ rest)) =
        trimmed :: (directory.splitOn slash ++ components rest) := by
    intro rest
    obtain ⟨trimmed, hparts⟩ :=
      getNestedPathWithKey_fullName hbucket (directory ++ slash :: rest)
    rw [components_append] at hparts
    exact ⟨trimmed, by rw [← List.append_cons]; exact hparts⟩
  have hjoined : ∀ (trimmed component : Bytes) (more : List Bytes),
      [slash].intercalate (((trimmed :: (directory.splitOn slash ++ component :: more)).take
        ((directory.splitOn slash).length + 2)).drop 1) ++ [slash] =
          directory ++ [slash] ++ component ++ [slash] := by
    intro trimmed component more
    have htake : (directory.splitOn slash ++ component :: more).take
        ((directory.splitOn slash).length + 1) = directory.splitOn slash ++ [component] := by
      rw [List.take_length_add_append]
      rfl
    rw [List.take_succ_cons, List.drop_succ_cons, List.drop_zero, htake,
      intercalate_concat (List.splitOn_ne_nil _ _), List.intercalate_splitOn,
      List.append_cons directory slash component]
  simp only [commonPrefixes, filterIDsAndCommonPrefix, hkey, ↓reduceIte, hlength,
    List.mem_dedup, List.mem_map, List.mem_filter, decide_eq_true_eq,
    mem_getAllObjectsIDsPrefix_iff]
  constructor
  · rintro ⟨_, ⟨⟨_, ⟨rest, hstored, rfl⟩, rfl⟩, hlong⟩, rfl⟩
    obtain ⟨trimmed, hparts⟩ := hname rest
    rw [hparts] at hlong ⊢
    cases hrest : components rest with
    | nil =>
        rw [hrest, List.append_nil, List.length_cons] at hlong
        omega
    | cons component more => exact ⟨rest, component, hstored, by rw [hrest]; rfl, hjoined _ _ _⟩
  · rintro ⟨rest, component, hstored, hhead, rfl⟩
    obtain ⟨trimmed, hparts⟩ := hname rest
    obtain ⟨more, hrest⟩ := List.head?_eq_some_iff.1 hhead
    rw [hrest] at hparts
    refine ⟨_, ⟨⟨_, ⟨rest, hstored, rfl⟩, rfl⟩, ?_⟩, by rw [hparts]; exact hjoined _ _ _⟩
    rw [hparts, List.length_cons, List.length_append, List.length_cons]
    omega

/-- In the root, a directory is missed if white space is all that is below it. -/
theorem listsDirectories_root_iff (hbucket : slash ∉ bucket) :
    db.ListsDirectories ⟨bucket, []⟩ ↔ db.NoBlankNames bucket := by
  constructor
  · rintro ⟨-, hexact⟩ component rest hfree hrest hblank hstored
    have hlisted := (hexact (component ++ [slash])).2
      ⟨component, hfree, rfl, rest, hrest, by rw [← List.append_cons]; exact hstored⟩
    obtain ⟨other, below, -, hbelow, hother, heq⟩ := (mem_commonPrefixes_root hbucket _).1 hlisted
    obtain rfl := List.append_cancel_right heq
    exact ⟨below, hbelow, hother⟩
  · intro hnames
    refine ⟨nodup_commonPrefixes _, ?_⟩
    intro listed
    rw [mem_commonPrefixes_root hbucket]
    constructor
    · rintro ⟨component, rest, hfree, hrest, hstored, rfl⟩
      refine ⟨component, hfree, rfl, rest, ?_, by rw [← List.append_cons]; exact hstored⟩
      rintro rfl
      exact hrest trimRight_nil
    · rintro ⟨component, hfree, rfl, rest, hrest, hstored⟩
      rw [List.nil_append, ← List.append_cons] at hstored
      by_cases hblank : trimRight rest = []
      · obtain ⟨other, hother, hstored'⟩ := hnames component rest hfree hrest hblank hstored
        exact ⟨component, other, hfree, hother, hstored', rfl⟩
      · exact ⟨component, rest, hfree, hblank, hstored, rfl⟩

/-- In a directory, the names of all that is directly in it are listed. -/
theorem listsDirectories_directory_iff (hbucket : slash ∉ bucket) (directory : Bytes) :
    db.ListsDirectories ⟨bucket, directory ++ [slash]⟩ ↔
      db.NamesDirectories bucket (directory ++ [slash]) := by
  constructor
  · rintro ⟨-, hexact⟩ name hfree
    have hbelow : ∀ {rest component : Bytes},
        db.Stores bucket (directory ++ [slash] ++ rest) →
        (components rest).head? = some component →
        db.HasBelow bucket (directory ++ [slash] ++ component ++ [slash]) := by
      intro rest component hstored hhead
      obtain ⟨-, -, -, hbelow⟩ := (hexact _).1
        ((mem_commonPrefixes_directory hbucket directory _).2
          ⟨rest, component, hstored, hhead, rfl⟩)
      exact hbelow
    constructor
    · intro hstored hname
      exact hbelow hstored (by rw [components_of_not_mem hfree, if_neg hname]; rfl)
    · intro hstored
      rw [List.append_assoc] at hstored
      exact hbelow hstored (by rw [components_cons hfree]; rfl)
  · intro hnames
    refine ⟨nodup_commonPrefixes _, ?_⟩
    intro listed
    rw [mem_commonPrefixes_directory hbucket]
    constructor
    · rintro ⟨rest, component, hstored, hhead, rfl⟩
      by_cases hslash : slash ∈ rest
      · obtain ⟨name, more, rfl, hfree⟩ := List.eq_append_cons_of_mem hslash
        rw [components_cons hfree, List.head?_cons, Option.some.injEq] at hhead
        subst hhead
        refine ⟨name, hfree, rfl, ?_⟩
        by_cases hmore : more = []
        · subst hmore
          exact (hnames name hfree).2 (by rw [List.append_assoc]; exact hstored)
        · exact ⟨more, hmore, by simpa using hstored⟩
      · rw [components_of_not_mem hslash] at hhead
        split_ifs at hhead with hblank
        · cases hhead
        · rw [List.head?_cons, Option.some.injEq] at hhead
          subst hhead
          exact ⟨_, slash_not_mem_trimRight hslash, rfl, (hnames rest hslash).1 hstored hblank⟩
    · rintro ⟨component, hfree, rfl, rest, -, hstored⟩
      refine ⟨component ++ slash :: rest, component, ?_, by rw [components_cons hfree]; rfl, rfl⟩
      simpa using hstored

/-- A directory listing is right just if, in the root, no directory has only a name of
white space below it, and, elsewhere, every name in the directory is that of a directory
with something below it. -/
theorem listsDirectories_iff (db : Database) {objectQuery : ObjectID}
    (hbucket : slash ∉ objectQuery.bucket)
    (hdirectory : objectQuery.key = [] ∨ objectQuery.key.getLast? = some slash) :
    db.ListsDirectories objectQuery ↔
      if objectQuery.key = [] then db.NoBlankNames objectQuery.bucket
      else db.NamesDirectories objectQuery.bucket objectQuery.key := by
  obtain ⟨bucket, key⟩ := objectQuery
  rcases hdirectory with hroot | hlast
  · obtain rfl : key = [] := hroot
    rw [if_pos rfl]
    exact listsDirectories_root_iff hbucket
  · obtain ⟨directory, rfl⟩ := List.getLast?_eq_some_iff.1 hlast
    rw [if_neg (by simp)]
    exact listsDirectories_directory_iff hbucket directory

end Database

namespace PersistentListing.Sample

open Database

/-- One object, in a directory. -/
def stored : Database :=
  Database.empty.apply (.putObject ⟨⟨text "data", text "dir/file"⟩, ⟨text "geds://a", 1, 1, none⟩⟩)

theorem stored_stores_iff (key : Bytes) :
    stored.Stores (text "data") key ↔ key = text "dir/file" := by
  have hname : fullName (text "data") key = fullName (text "data") (text "dir/file") ↔
      key = text "dir/file" := by
    rw [fullName_inj (by decide) (by decide)]
    exact and_iff_right rfl
  rw [← hname, Stores, stored, Database.apply, createObjectKey]
  simp [Database.empty]

theorem root_listsDirectories :
    slash ∉ text "data" ∧ stored.ListsDirectories ⟨text "data", []⟩ := by
  refine ⟨by decide, (listsDirectories_iff stored (by decide) (Or.inl rfl)).2 ?_⟩
  intro component rest hfree _ hblank hstored
  have hsplit : component ++ slash :: rest = text "dir" ++ slash :: text "file" :=
    (stored_stores_iff _).1 hstored
  obtain ⟨-, rfl⟩ := (append_cons_inj_of_not_mem hfree (by decide)).1 hsplit
  exact absurd hblank (by decide)

/-- The object itself is taken for a directory. -/
theorem file_listed_as_directory :
    ¬ ∀ (db : Database) (objectQuery : ObjectID), slash ∉ objectQuery.bucket →
      objectQuery.key = [] ∨ objectQuery.key.getLast? = some slash →
      db.ListsDirectories objectQuery := by
  intro hall
  obtain ⟨-, hexact⟩ := hall stored ⟨text "data", text "dir/"⟩ (by decide) (by decide)
  obtain ⟨-, -, -, rest, -, hstored⟩ := (hexact (text "dir/file/")).1 (by decide)
  have hlength := congrArg List.length ((stored_stores_iff _).1 hstored)
  rw [List.length_append] at hlength
  have hlong : (text "dir/file").length < (text "dir/file/").length := by decide
  omega

end PersistentListing.Sample

end GEDS
