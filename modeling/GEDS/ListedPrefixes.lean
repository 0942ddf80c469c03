/-
Key prefixes and directories.  The tree trims a prefix and takes it for a directory, a
search by bytes takes it as it is; which keys both find can be told from the texts.
-/
import GEDS.DirectoryListing

namespace GEDS

open PrefixTree (directoryName directoryName_cons directoryName_append)

/-- What `strings.TrimSpace` does in front of a text. -/
def trimLeft (value : Bytes) : Bytes := trimStart spaces value.length value

/-- The directory that a prefix names in the tree, with a separator behind it. -/
def directoryText (keyPrefix : Bytes) : Bytes :=
  if (trimSpace keyPrefix).getLast? = some slash then trimSpace keyPrefix
  else trimSpace keyPrefix ++ [slash]

/-- The key, without white space in front of it, begins with the directory and goes on
with more than white space. -/
def LiesBelow (keyPrefix key : Bytes) : Prop :=
  ∃ rest, trimLeft key = directoryText keyPrefix ++ rest ∧ trimRight rest ≠ []

/-- What makes a search for the bytes of the prefix and one for its directory find a key
both or neither.  A prefix of nothing but white space is the root, where all keys are
found.  With white space around the prefix or in front of the key, one has to look at what
is trimmed.  Otherwise a key that begins with the prefix has to go on, and with the
separator where the prefix does not end in one. -/
def ListedAlike (keyPrefix key : Bytes) : Prop :=
  if trimSpace keyPrefix = [] then keyPrefix <+: key
  else if trimSpace keyPrefix ≠ keyPrefix ∨ LeadingSpace key then
    keyPrefix <+: key ↔ LiesBelow keyPrefix key
  else if keyPrefix.getLast? = some slash then
    ∀ rest, key = keyPrefix ++ rest → trimRight rest ≠ []
  else ∀ rest, key = keyPrefix ++ rest → ∃ more, rest = slash :: more ∧ trimRight more ≠ []

section Texts

theorem trimRight_trimLeft (value : Bytes) : trimRight (trimLeft value) = trimSpace value := rfl

theorem trimLeft_of_not_leading {value : Bytes} (hnone : ¬ LeadingSpace value) :
    trimLeft value = value :=
  trimStart_of_not_leading hnone

theorem getNestedPathWithKey_eq (key : Bytes) :
    getNestedPathWithKey key = components (trimLeft key) := rfl

theorem getNestedPathWithKey_eq_nil_iff (key : Bytes) :
    getNestedPathWithKey key = [] ↔ trimSpace key = [] := by
  rw [getNestedPathWithKey_eq, components_eq_nil_iff, trimRight_trimLeft]

theorem getLast?_directoryName {path : List Bytes} (hpath : path ≠ []) :
    (directoryName path).getLast? = some slash := by
  obtain ⟨front, last, rfl⟩ := List.eq_nil_or_concat path |>.resolve_left hpath
  simp [directoryName_append, directoryName_cons]

/-- The components of a prefix are those of the directory's text. -/
theorem directoryName_getNestedPathWithKey {keyPrefix : Bytes} (hsome : trimSpace keyPrefix ≠ []) :
    directoryName (getNestedPathWithKey keyPrefix) = directoryText keyPrefix := by
  have hparts := directoryName_splitOn (trimSpace keyPrefix)
  rw [directoryText, getNestedPathWithKey]
  by_cases hlast : (trimSpace keyPrefix).getLast? = some slash
  · obtain ⟨directory, hdirectory⟩ := List.getLast?_eq_some_iff.1 hlast
    rw [if_pos hlast, hdirectory, List.splitOn_append_cons_self, List.splitOn_nil,
      List.getLast?_concat, if_pos rfl, List.dropLast_concat, directoryName_splitOn]
  · rw [if_neg hlast, if_neg, hparts]
    intro hempty
    obtain ⟨front, hfront⟩ := List.getLast?_eq_some_iff.1 hempty
    rw [hfront, directoryName_append] at hparts
    have hname : directoryName front = trimSpace keyPrefix := List.append_cancel_right hparts
    refine hlast (hname ▸ getLast?_directoryName ?_)
    rintro rfl
    exact hsome hname.symm

theorem slash_not_mem_of_mem_getNestedPathWithKey {key name : Bytes}
    (hmem : name ∈ getNestedPathWithKey key) : slash ∉ name :=
  slash_not_mem_of_mem_components hmem

/-- The keys in and below the directory of a prefix, by their texts. -/
theorem isPrefix_directoriesOf_iff (keyPrefix key : Bytes) :
    getNestedPathWithKey keyPrefix <+: PrefixTree.directoriesOf key ↔
      trimSpace keyPrefix = [] ∨ LiesBelow keyPrefix key := by
  by_cases hblank : trimSpace keyPrefix = []
  · rw [(getNestedPathWithKey_eq_nil_iff keyPrefix).2 hblank]
    exact iff_of_true List.nil_prefix (Or.inl hblank)
  · have hpath := (getNestedPathWithKey_eq_nil_iff keyPrefix).not.2 hblank
    have hiff := isPrefix_dropLast_components_iff (getNestedPathWithKey keyPrefix) (trimLeft key)
    rw [directoryName_getNestedPathWithKey hblank] at hiff
    rw [or_iff_right hblank, PrefixTree.directoriesOf, getNestedPathWithKey_eq key]
    constructor
    · intro hbelow
      refine (hiff.1 ⟨hbelow, fun hnone => hpath ?_⟩).2
      rw [hnone, List.dropLast_nil] at hbelow
      exact List.prefix_nil.1 hbelow
    · intro hbelow
      exact (hiff.2 ⟨fun name => slash_not_mem_of_mem_getNestedPathWithKey, hbelow⟩).1

theorem directoryText_of_trimmed {keyPrefix : Bytes} (htrimmed : trimSpace keyPrefix = keyPrefix) :
    directoryText keyPrefix =
      if keyPrefix.getLast? = some slash then keyPrefix else keyPrefix ++ [slash] := by
  rw [directoryText, htrimmed]

/-- The condition on the texts says that bytes and directories agree about the key. -/
theorem listedAlike_iff (keyPrefix key : Bytes) :
    ListedAlike keyPrefix key ↔
      (keyPrefix <+: key ↔
        getNestedPathWithKey keyPrefix <+: PrefixTree.directoriesOf key) := by
  rw [isPrefix_directoriesOf_iff, ListedAlike]
  split_ifs with hblank hspace hlast
  · simp [hblank]
  · rw [or_iff_right hblank]
  all_goals
    obtain ⟨htrimmed, hleading⟩ := not_or.1 hspace
    rw [or_iff_right hblank, LiesBelow, directoryText_of_trimmed (not_not.1 htrimmed),
      trimLeft_of_not_leading hleading]
  · rw [if_pos hlast]
    constructor
    · intro hgoes
      constructor
      · rintro ⟨rest, hrest⟩
        exact ⟨rest, hrest.symm, hgoes rest hrest.symm⟩
      · rintro ⟨rest, hrest, -⟩
        exact ⟨rest, hrest.symm⟩
    · rintro hiff rest hrest
      obtain ⟨other, hother, hblank⟩ := hiff.1 ⟨rest, hrest.symm⟩
      rw [hrest] at hother
      rwa [List.append_cancel_left hother]
  · rw [if_neg hlast]
    simp only [List.append_assoc, List.singleton_append]
    constructor
    · intro hgoes
      constructor
      · rintro ⟨rest, hrest⟩
        obtain ⟨more, rfl, hblank⟩ := hgoes rest hrest.symm
        exact ⟨more, hrest.symm, hblank⟩
      · rintro ⟨rest, hrest, -⟩
        exact ⟨slash :: rest, hrest.symm⟩
    · rintro hiff rest hrest
      obtain ⟨more, hmore, hblank⟩ := hiff.1 ⟨rest, hrest.symm⟩
      rw [hrest] at hmore
      exact ⟨more, List.append_cancel_left hmore, hblank⟩

end Texts

end GEDS
