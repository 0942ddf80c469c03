/-
Directory listings of the Go server in memory.  A directory is named by the components
on its path; a key lies below it when it begins with that name and goes on with more than
white space.  Directories are made on the way to an object and stay when it is deleted.
-/
import GEDS.PersistentListing
import GEDS.PrefixTreeNames
import GEDS.StorageModes

namespace GEDS

open PrefixTree (directoryName directoryName_cons directoryName_append)

/-- The text begins with a rune that `unicode.IsSpace` accepts. -/
def LeadingSpace (value : Bytes) : Prop := ∃ encoding ∈ spaces, encoding <+: value

/-- The text ends with such a rune. -/
def TrailingSpace (value : Bytes) : Prop := ∃ encoding ∈ spaces, encoding <:+ value

instance (value : Bytes) : Decidable (LeadingSpace value) :=
  inferInstanceAs (Decidable (∃ encoding ∈ spaces, encoding <+: value))

instance (value : Bytes) : Decidable (TrailingSpace value) :=
  inferInstanceAs (Decidable (∃ encoding ∈ spaces, encoding <:+ value))

section Names

theorem spaces_ne_nil : ∀ encoding ∈ spaces, encoding ≠ [] := by decide

theorem trimStart_of_not_leading {fuel : Nat} {value : Bytes} (hnone : ¬ LeadingSpace value) :
    trimStart spaces fuel value = value := by
  cases fuel with
  | zero => rfl
  | succ fuel =>
      have hfind : spaces.find? (·.isPrefixOf value) = none := by
        rw [List.find?_eq_none]
        intro encoding hmem hbegins
        exact hnone ⟨encoding, hmem, List.isPrefixOf_iff_prefix.1 hbegins⟩
      rw [trimStart, hfind]

/-- Text that is trimmed away ends with white space. -/
theorem trailingSpace_of_trimRight {value : Bytes} (hblank : trimRight value = [])
    (hsome : value ≠ []) : TrailingSpace value := by
  obtain ⟨fuel, hfuel⟩ := Nat.exists_eq_succ_of_ne_zero
    (fun hzero => hsome (List.length_eq_zero_iff.1 hzero))
  rw [trimRight, List.reverse_eq_nil_iff, hfuel, Nat.succ_eq_add_one, trimStart] at hblank
  cases hfound : (spaces.map List.reverse).find? (·.isPrefixOf value.reverse) with
  | none =>
      rw [hfound] at hblank
      exact absurd (List.reverse_eq_nil_iff.1 hblank) hsome
  | some encoding =>
      obtain ⟨space, hspace, rfl⟩ := List.mem_map.1 (List.mem_of_find?_eq_some hfound)
      exact ⟨space, hspace, List.reverse_prefix.1 (isPrefix_of_find? hfound)⟩

theorem getNestedPathWithKey_of_not_leading {key : Bytes} (hnone : ¬ LeadingSpace key) :
    getNestedPathWithKey key = components key := by
  have htrim : trimSpace key = trimRight key := by
    rw [trimSpace, trimStart_of_not_leading hnone]
    rfl
  simp only [getNestedPathWithKey, components, htrim]

theorem slash_not_mem_of_mem_splitOn {name value : Bytes} (hmem : name ∈ value.splitOn slash) :
    slash ∉ name := by
  induction value generalizing name with
  | nil =>
      obtain rfl := List.mem_singleton.1 hmem
      exact List.not_mem_nil
  | cons head tail ih =>
      rw [List.splitOn_cons_eq_if_modifyHead] at hmem
      split_ifs at hmem with hhead
      · rcases List.mem_cons.1 hmem with rfl | hmem
        · exact List.not_mem_nil
        · exact ih hmem
      · obtain ⟨first, rest, hparts⟩ := List.exists_cons_of_ne_nil (List.splitOn_ne_nil slash tail)
        rw [hparts, List.modifyHead_cons, List.mem_cons] at hmem
        rw [hparts] at ih
        rcases hmem with rfl | hmem
        · have hne : slash ≠ head := fun heq => hhead (by rw [heq]; exact beq_self_eq_true head)
          exact List.not_mem_cons_of_ne_of_not_mem hne (ih List.mem_cons_self)
        · exact ih (List.mem_cons_of_mem first hmem)

theorem slash_not_mem_of_mem_components {name key : Bytes} (hmem : name ∈ components key) :
    slash ∉ name := by
  have hpart : name ∈ (trimRight key).splitOn slash := by
    simp only [components] at hmem
    split_ifs at hmem
    · exact List.mem_of_mem_dropLast hmem
    · exact hmem
  exact slash_not_mem_of_mem_splitOn hpart

/-- A key lies below a directory when it begins with the directory's name and goes on
with more than white space. -/
theorem isPrefix_dropLast_components_iff (path : List Bytes) (key : Bytes) :
    path <+: (components key).dropLast ∧ components key ≠ [] ↔
      (∀ name ∈ path, slash ∉ name) ∧
        ∃ rest, key = directoryName path ++ rest ∧ trimRight rest ≠ [] := by
  induction path generalizing key with
  | nil => simp [components_eq_nil_iff]
  | cons name path ih =>
      by_cases hslash : slash ∈ key
      · obtain ⟨first, rest, rfl, hfree⟩ := List.eq_append_cons_of_mem hslash
        rw [components_cons hfree, List.forall_mem_cons]
        have hih := ih rest
        constructor
        · rintro ⟨hbegins, -⟩
          have hmore : components rest ≠ [] := by
            intro hnone
            rw [hnone, List.dropLast_singleton, List.prefix_nil] at hbegins
            cases hbegins
          rw [List.dropLast_cons_of_ne_nil hmore, List.cons_prefix_cons] at hbegins
          obtain ⟨rfl, hbegins⟩ := hbegins
          obtain ⟨hnames, more, rfl, hblank⟩ := hih.1 ⟨hbegins, hmore⟩
          exact ⟨⟨hfree, hnames⟩, more, by simp [directoryName_cons], hblank⟩
        · rintro ⟨⟨hname, hnames⟩, more, hkey, hblank⟩
          rw [directoryName_cons, List.append_assoc, List.cons_append,
            append_cons_inj_of_not_mem hfree hname] at hkey
          obtain ⟨rfl, rfl⟩ := hkey
          obtain ⟨hbegins, hmore⟩ := hih.2 ⟨hnames, more, rfl, hblank⟩
          rw [List.dropLast_cons_of_ne_nil hmore, List.cons_prefix_cons]
          exact ⟨⟨rfl, hbegins⟩, by simp⟩
      · constructor
        · rintro ⟨hbegins, -⟩
          rw [components_of_not_mem hslash] at hbegins
          split_ifs at hbegins <;> simp at hbegins
        · rintro ⟨-, more, rfl, -⟩
          simp [directoryName_cons] at hslash

/-- A directory query names the directory with its own text. -/
theorem directoryName_splitOn (directory : Bytes) :
    directoryName (directory.splitOn slash) = directory ++ [slash] := by
  induction directory with
  | nil => rfl
  | cons head tail ih =>
      rw [List.splitOn_cons_eq_if_modifyHead]
      split_ifs with hhead
      · rw [directoryName_cons, ih, eq_of_beq hhead]
        rfl
      · obtain ⟨first, rest, hparts⟩ := List.exists_cons_of_ne_nil (List.splitOn_ne_nil slash tail)
        rw [hparts, directoryName_cons] at ih
        rw [hparts, List.modifyHead_cons, directoryName_cons, List.cons_append, ih]
        rfl

theorem not_leadingSpace_trimStart {fuel : Nat} {value : Bytes} (hfuel : value.length ≤ fuel) :
    ¬ LeadingSpace (trimStart spaces fuel value) := by
  induction fuel generalizing value with
  | zero =>
      obtain rfl := List.length_eq_zero_iff.1 (Nat.le_zero.1 hfuel)
      rintro ⟨encoding, hmem, hbegins⟩
      exact spaces_ne_nil encoding hmem (List.prefix_nil.1 hbegins)
  | succ fuel ih =>
      rw [trimStart]
      cases hfound : spaces.find? (·.isPrefixOf value) with
      | none =>
          rintro ⟨encoding, hmem, hbegins⟩
          exact List.find?_eq_none.1 hfound encoding hmem (List.isPrefixOf_iff_prefix.2 hbegins)
      | some encoding =>
          have hpositive := List.length_pos_iff.2
            (spaces_ne_nil encoding (List.mem_of_find?_eq_some hfound))
          exact ih (by rw [List.length_drop]; omega)

theorem trimRight_isPrefix (value : Bytes) : trimRight value <+: value := by
  rw [trimRight, ← List.reverse_suffix, List.reverse_reverse]
  exact trimStart_suffix _ _

theorem isPrefix_of_components {name value : Bytes} {rest : List Bytes}
    (hparts : components value = name :: rest) : name <+: value := by
  by_cases hslash : slash ∈ value
  · obtain ⟨first, more, rfl, hfree⟩ := List.eq_append_cons_of_mem hslash
    rw [components_cons hfree, List.cons.injEq] at hparts
    rw [← hparts.1]
    exact List.prefix_append _ _
  · rw [components_of_not_mem hslash] at hparts
    split_ifs at hparts
    rw [← (List.cons.inj hparts).1]
    exact trimRight_isPrefix value

/-- No directory begins with white space. -/
theorem not_leadingSpace_of_isPrefix {key name value : Bytes} {rest : List Bytes}
    (hpath : getNestedPathWithKey key = name :: rest) (hbegins : name ++ [slash] <+: value) :
    ¬ LeadingSpace value := by
  rintro ⟨encoding, hmem, hspace⟩
  obtain ⟨more, rfl⟩ := hbegins
  rw [List.append_assoc, List.singleton_append,
    isPrefix_append_cons_iff (slash_not_mem_spaces encoding hmem)] at hspace
  exact not_leadingSpace_trimStart le_rfl
    ⟨encoding, hmem, hspace.trans (isPrefix_of_components hpath)⟩

/-- A directory query, up to white space in front of it. -/
theorem components_directory (directory : Bytes) :
    components (directory ++ [slash]) = directory.splitOn slash := by
  rw [components_append]
  exact List.append_nil _

/-- The key has no white space around it and does not end in a separator. -/
structure PlainKey (key : Bytes) : Prop where
  leading : ¬ LeadingSpace key
  trailing : ¬ TrailingSpace key
  last : key.getLast? ≠ some slash

/-- For plain keys, to lie below a directory is to begin with its name. -/
theorem PlainKey.isPrefix_directoriesOf_iff {key query : Bytes} (hplain : PlainKey key)
    (hleading : ¬ LeadingSpace query) (hquery : query = [] ∨ query.getLast? = some slash) :
    getNestedPathWithKey query <+: PrefixTree.directoriesOf key ↔ query <+: key := by
  rw [PrefixTree.directoriesOf, getNestedPathWithKey_of_not_leading hplain.leading,
    getNestedPathWithKey_of_not_leading hleading]
  rcases hquery with rfl | hlast
  · exact iff_of_true List.nil_prefix List.nil_prefix
  · obtain ⟨directory, rfl⟩ := List.getLast?_eq_some_iff.1 hlast
    have hiff := isPrefix_dropLast_components_iff (directory.splitOn slash) key
    rw [directoryName_splitOn] at hiff
    rw [components_directory]
    constructor
    · intro hbelow
      have hsome : components key ≠ [] := by
        intro hnone
        rw [hnone, List.dropLast_nil, List.prefix_nil] at hbelow
        exact List.splitOn_ne_nil slash directory hbelow
      obtain ⟨-, rest, rfl, -⟩ := hiff.1 ⟨hbelow, hsome⟩
      exact List.prefix_append _ _
    · rintro ⟨rest, rfl⟩
      refine (hiff.2 ⟨fun name => slash_not_mem_of_mem_splitOn, rest, rfl, ?_⟩).1
      intro hblank
      by_cases hrest : rest = []
      · exact hplain.last (by simp [hrest])
      · obtain ⟨space, hspace, hends⟩ := trailingSpace_of_trimRight hblank hrest
        exact hplain.trailing ⟨space, hspace, hends.trans (List.suffix_append _ _)⟩

end Names

namespace ObjectRequest

/-- The object that a request stores. -/
def stores : ObjectRequest → Option Object
  | .createObject object | .updateObject object => some object
  | .deleteObject _ | .deleteObjectPrefix _ => none

/-- The key that a request names. -/
def key : ObjectRequest → Bytes
  | .createObject object | .updateObject object => object.id.key
  | .deleteObject objectID | .deleteObjectPrefix objectID => objectID.key

/-- What is stored was put there by a request. -/
theorem stores_of_lastStored {requests : List ObjectRequest}
    (hplain : ∀ request ∈ requests, request.isDeletePrefix = false) {objectID : ObjectID}
    {object : Object} (hstored : lastStored requests objectID = some object) :
    object.id = objectID ∧ ∃ request ∈ requests, request.stores = some object := by
  refine ⟨(named_last hplain).stored_id hstored, ?_⟩
  induction requests using List.reverseRecOn with
  | nil => cases hstored
  | append_singleton earlier request ih =>
      have hearlier : lastStored earlier objectID = some object →
          ∃ other ∈ earlier ++ [request], other.stores = some object := by
        intro hold
        obtain ⟨other, hmem, hother⟩ :=
          ih (fun other hmem => hplain other (List.mem_append_left _ hmem)) hold
        exact ⟨other, List.mem_append_left _ hmem, hother⟩
      have hlast : request ∈ earlier ++ [request] :=
        List.mem_append_right _ List.mem_cons_self
      rw [lastStored, List.foldl_append] at hstored
      change request.onStored (lastStored earlier) objectID = some object at hstored
      cases request with
      | createObject created =>
          rw [onStored, Function.update_apply] at hstored
          split_ifs at hstored
          · exact ⟨_, hlast, hstored⟩
          · exact hearlier hstored
      | updateObject updated =>
          rw [onStored, Function.update_apply] at hstored
          split_ifs at hstored
          · exact ⟨_, hlast, hstored⟩
          · exact hearlier hstored
      | deleteObject deleted =>
          rw [onStored, Function.update_apply] at hstored
          split_ifs at hstored
          exact hearlier hstored
      | deleteObjectPrefix deleted => cases hplain _ hlast

end ObjectRequest

namespace PrefixTree

variable {tree : PrefixTree}

/-- A directory records each object once. -/
theorem nodup_traverseListObjects (hconsistent : tree.Consistent) (objectID : ObjectID)
    (getCommonPrefix : Bool) : (tree.traverseListObjects objectID getCommonPrefix).1.Nodup := by
  have hwalk := walkDown_eq getCommonPrefix [] (getNestedPath objectID) tree
  rw [traverseListObjects]
  cases hfound : walkDown getCommonPrefix [] (getNestedPath objectID) tree with
  | none => exact List.nodup_nil
  | some found =>
      obtain ⟨longestPath, node⟩ := found
      rw [hfound, Option.map_some] at hwalk
      have hkeys : node.value.objectsInThisAndChildDirectories.values.map (·.id.key) =
          node.value.objectsInThisAndChildDirectories.entries.map Prod.fst := by
        rw [AssocMap.values, List.map_map]
        refine List.map_congr_left ?_
        rintro ⟨key, object⟩ hmem
        have hrecorded : tree.recordedAt (getNestedPath objectID) key = some object := by
          rw [recordedAt, Trie.valueAt, ← hwalk]
          exact (lookup_eq_some_iff_mem (AssocMap.nodup _) key object).2 hmem
        exact (hconsistent.held_home (hconsistent.held_of_recorded hrecorded)).2
      refine List.Nodup.of_map (·.id.key) ?_
      rw [hkeys]
      exact AssocMap.nodup _

end PrefixTree

namespace KeyValueStore

/-- After creates, updates and deletes with plain keys, a listing of a directory without
delimiter has the stored objects whose keys begin with the name of the directory, each
once. -/
theorem run_listObjects_directory (requests : List ObjectRequest)
    (hplain : ∀ request ∈ requests, request.isDeletePrefix = false)
    (hkeys : ∀ request ∈ requests, PlainKey request.key) (query : ObjectID)
    (hbucket : query.bucket ≠ []) (hleading : ¬ LeadingSpace query.key)
    (hquery : query.key = [] ∨ query.key.getLast? = some slash) (delimiter : Option Int32)
    (hdelimiter : delimiter = none ∨ delimiter = some 0) :
    ((new.run requests).listObjects ⟨some query, delimiter⟩).1.1.Nodup ∧
      ∀ object, object ∈ ((new.run requests).listObjects ⟨some query, delimiter⟩).1.1 ↔
        ObjectRequest.lastStored requests object.id = some object ∧
          object.id.bucket = query.bucket ∧ query.key <+: object.id.key := by
  have hlength : query.bucket.length ≠ 0 := fun hzero => hbucket (List.length_eq_zero_iff.1 hzero)
  have hlist : (⟨some query, delimiter⟩ : ObjectListRequest).query = some (query, []) := by
    rcases hdelimiter with rfl | rfl <;> simp [ObjectListRequest.query, hlength]
  constructor
  · rw [listObjects_eq, hlist]
    exact PrefixTree.nodup_traverseListObjects ((new_follows.run hplain).consistent _) query false
  · intro object
    rw [mem_run_listObjects_iff hplain hlist]
    refine and_congr_right fun hstored => and_congr_right fun _ => ?_
    obtain ⟨-, request, hmem, hstores⟩ := ObjectRequest.stores_of_lastStored hplain hstored
    have hkey : PlainKey object.id.key := by
      have hrequest := hkeys request hmem
      cases request <;> simp only [ObjectRequest.stores, Option.some.injEq, reduceCtorEq] at hstores
        <;> exact hstores ▸ hrequest
    exact hkey.isPrefix_directoriesOf_iff hleading hquery

end KeyValueStore

namespace ObjectRequest

/-- Some request of the history made the directory, on the way to the object it stored. -/
def MadeDirectory (requests : List ObjectRequest) (bucket : Bytes) (path : List Bytes) : Prop :=
  ∃ request ∈ requests, ∃ object, request.stores = some object ∧ object.id.bucket = bucket ∧
    path <+: PrefixTree.directoriesOf object.id.key

/-- The object is stored in the bucket after the history. -/
def StoredIn (requests : List ObjectRequest) (bucket : Bytes) (object : Object) : Prop :=
  lastStored requests object.id = some object ∧ object.id.bucket = bucket

theorem StoredIn.madeDirectory {requests : List ObjectRequest}
    (hplain : ∀ request ∈ requests, request.isDeletePrefix = false) {bucket : Bytes}
    {object : Object} (hstored : StoredIn requests bucket object) {path : List Bytes}
    (hpath : path <+: PrefixTree.directoriesOf object.id.key) :
    MadeDirectory requests bucket path := by
  obtain ⟨-, request, hmem, hstores⟩ := stores_of_lastStored hplain hstored.1
  exact ⟨request, hmem, object, hstores, hstored.2, hpath⟩

end ObjectRequest

namespace KeyValueStore

open ObjectRequest

/-- A request makes the directories on the way to the object it stores; none removes one. -/
theorem valueAt_onTree_ne_none_iff (request : ObjectRequest) (tree : PrefixTree)
    (path : List Bytes) :
    (request.onTree tree).valueAt path ≠ none ↔ tree.valueAt path ≠ none ∨
      ∃ object, request.stores = some object ∧
        path <+: PrefixTree.directoriesOf object.id.key := by
  cases request with
  | createObject object | updateObject object =>
      rw [onTree, PrefixTree.traverseCreateObject, Trie.valueAt_growAlong_ne_none_iff, or_comm]
      simp [stores]
  | deleteObject objectID =>
      rw [onTree, PrefixTree.traverseDeleteObject, Trie.valueAt_editAlong_ne_none_iff]
      simp [stores]
  | deleteObjectPrefix objectID =>
      rw [onTree, PrefixTree.traverseDeleteObjectPrefix, Trie.valueAt_editAlong_ne_none_iff]
      simp [stores]

theorem bucket_of_stores {request : ObjectRequest} {object : Object}
    (hstores : request.stores = some object) : object.id.bucket = request.bucket := by
  cases request <;> simp only [stores, Option.some.injEq, reduceCtorEq] at hstores <;>
    rw [← hstores] <;> rfl

theorem run_named (requests : List ObjectRequest) (bucket : Bytes) :
    ((new.run requests).nestedDirectories bucket).Named := by
  induction requests using List.reverseRecOn with
  | nil => exact PrefixTree.new_named _
  | append_singleton earlier request ih =>
      rw [run_append_singleton, nestedDirectories_perform]
      split_ifs
      · exact ih.onTree request
      · exact ih

/-- Every directory of the tree was made by a request. -/
theorem run_directories (requests : List ObjectRequest) (bucket : Bytes)
    (path : List Bytes) :
    ((new.run requests).nestedDirectories bucket).valueAt path ≠ none ↔
      path = [] ∨ MadeDirectory requests bucket path := by
  induction requests using List.reverseRecOn with
  | nil => cases path <;> simp [run, makeNewPrefixTree, MadeDirectory]
  | append_singleton earlier request ih =>
      have hlater : MadeDirectory (earlier ++ [request]) bucket path ↔
          MadeDirectory earlier bucket path ∨ ∃ object, request.stores = some object ∧
            object.id.bucket = bucket ∧ path <+: PrefixTree.directoriesOf object.id.key := by
        simp [MadeDirectory, or_and_right, exists_or]
      rw [run_append_singleton, nestedDirectories_perform, hlater, ← or_assoc]
      split_ifs with hown
      · rw [valueAt_onTree_ne_none_iff, ih]
        refine or_congr_right (exists_congr fun object => and_congr_right fun hstores => ?_)
        rw [bucket_of_stores hstores, hown]
        exact (and_iff_right rfl).symm
      · have hnone : ¬ ∃ object, request.stores = some object ∧ object.id.bucket = bucket ∧
            path <+: PrefixTree.directoriesOf object.id.key := by
          rintro ⟨object, hstores, rfl, -⟩
          exact hown (bucket_of_stores hstores)
        rw [ih, or_iff_left hnone]

variable (requests : List ObjectRequest) (query : ObjectID)

/-- The answer to a listing with the delimiter. -/
def listing : List Object × List Bytes :=
  ((new.run requests).listObjects ⟨some query, some 0x2f⟩).1

/-- Every common prefix begins the key of a stored object, and every stored object whose
key begins with the name of the listed directory is in the results or below a common
prefix. -/
structure ListsStored : Prop where
  live : ∀ listed ∈ (listing requests query).2,
    ∃ object, StoredIn requests query.bucket object ∧ listed <+: object.id.key
  covers : ∀ object, StoredIn requests query.bucket object →
    directoryName (getNestedPath query) <+: object.id.key →
    object ∈ (listing requests query).1 ∨
      ∃ listed ∈ (listing requests query).2, listed <+: object.id.key

/-- The directories that were ever made in the listed one still begin a stored key. -/
def DirectoriesInUse : Prop :=
  ∀ name, MadeDirectory requests query.bucket (getNestedPath query ++ [name]) →
    ∃ object, StoredIn requests query.bucket object ∧
      directoryName (getNestedPath query ++ [name]) <+: object.id.key

/-- The key does not hide the object from the listing: white space in front of it, in the
root, or nothing but white space behind the name of the listed directory, elsewhere. -/
def ListedAsNamed (key : Bytes) : Prop :=
  if query.key = [] then PrefixTree.directoriesOf key = [] ∨ ¬ LeadingSpace key
  else getNestedPath query = [] ∨
    trimRight (key.drop (directoryName (getNestedPath query)).length) ≠ []

variable {requests query}

theorem listing_eq (hbucket : query.bucket ≠ []) : listing requests query =
    ((new.run requests).nestedDirectories query.bucket).listObjects query [slash] := by
  have hlength : query.bucket.length ≠ 0 := fun hzero => hbucket (List.length_eq_zero_iff.1 hzero)
  have hlist : (⟨some query, some 0x2f⟩ : ObjectListRequest).query = some (query, [slash]) := by
    simp [ObjectListRequest.query, hlength]
  rw [listing, listObjects_eq, hlist]

theorem listing_unnamed (hbucket : query.bucket = []) : listing requests query = ([], []) := by
  rw [listing, listObjects_eq, ObjectListRequest.query]
  simp [hbucket]

theorem mem_listing_snd_iff (hbucket : query.bucket ≠ []) (listed : Bytes) :
    listed ∈ (listing requests query).2 ↔
      ∃ name, MadeDirectory requests query.bucket (getNestedPath query ++ [name]) ∧
        listed = directoryName (getNestedPath query ++ [name]) := by
  rw [listing_eq hbucket, (run_named requests query.bucket).mem_commonPrefixes_iff]
  simp [run_directories]

theorem live_iff (hbucket : query.bucket ≠ []) :
    (∀ listed ∈ (listing requests query).2,
      ∃ object, StoredIn requests query.bucket object ∧ listed <+: object.id.key) ↔
      DirectoriesInUse requests query := by
  constructor
  · intro hlive name hmade
    exact hlive _ ((mem_listing_snd_iff hbucket _).2 ⟨name, hmade, rfl⟩)
  · intro hused listed hlisted
    obtain ⟨name, hmade, rfl⟩ := (mem_listing_snd_iff hbucket _).1 hlisted
    exact hused name hmade

section Listing

variable (hplain : ∀ request ∈ requests, request.isDeletePrefix = false)

include hplain

/-- The results have the objects in the root, or those in and below another directory. -/
theorem mem_listing_fst_iff (hbucket : query.bucket ≠ []) {object : Object}
    (hstored : StoredIn requests query.bucket object) :
    object ∈ (listing requests query).1 ↔
      if query.key = [] then PrefixTree.directoriesOf object.id.key = []
      else getNestedPath query <+: PrefixTree.directoriesOf object.id.key := by
  have hfollows := new_follows.run hplain
  obtain ⟨hlast, hin⟩ := hstored
  have hheld := hfollows.held query.bucket object.id.key
  rw [← hin] at hheld
  change _ = lastStored requests object.id at hheld
  rw [hlast, hin] at hheld
  rw [listing_eq hbucket, PrefixTree.mem_listObjects_iff]
  by_cases hkey : query.key = []
  · rw [if_pos ⟨by simp, by simp [hkey]⟩, if_pos hkey]
    constructor
    · rintro ⟨key, hroot⟩
      obtain ⟨hhome, hid⟩ := (hfollows.consistent _).held_home hroot
      rw [hid, ← hhome]
    · intro hroot
      rw [hroot] at hheld
      exact ⟨_, hheld⟩
  · rw [if_neg (by simp [hkey]), if_neg hkey]
    constructor
    · rintro ⟨key, hrecorded⟩
      have hhome := (hfollows.consistent _).held_home
        ((hfollows.consistent _).held_of_recorded hrecorded)
      rw [hhome.2]
      exact (hfollows.consistent _).recorded_path hrecorded
    · intro hpath
      exact ⟨object.id.key, (hfollows.complete _ _ _ hpath).trans hheld⟩

/-- In the root, an object that lies in a directory extends its name unless there is white
space in front of it. -/
theorem covered_root_iff (hbucket : query.bucket ≠ []) (hkey : query.key = []) {object : Object}
    (hstored : StoredIn requests query.bucket object) :
    (object ∈ (listing requests query).1 ∨
        ∃ listed ∈ (listing requests query).2, listed <+: object.id.key) ↔
      PrefixTree.directoriesOf object.id.key = [] ∨ ¬ LeadingSpace object.id.key := by
  have hpath : getNestedPath query = [] := by
    rw [getNestedPath, hkey]
    rfl
  rw [mem_listing_fst_iff hplain hbucket hstored, if_pos hkey]
  refine or_congr_right' fun hdirectory => ?_
  simp only [mem_listing_snd_iff hbucket, hpath, List.nil_append]
  constructor
  · rintro ⟨listed, ⟨name, ⟨-, -, maker, -, -, hmaker⟩, rfl⟩, hbegins⟩
    obtain ⟨rest, hrest⟩ := hmaker
    obtain ⟨more, hmore⟩ := List.dropLast_prefix (getNestedPathWithKey maker.id.key)
    rw [PrefixTree.directoriesOf] at hrest
    rw [← hrest, List.append_assoc, List.singleton_append] at hmore
    exact not_leadingSpace_of_isPrefix hmore.symm (by simpa [directoryName_cons] using hbegins)
  · intro hleading
    obtain ⟨name, rest, hdirectories⟩ := List.exists_cons_of_ne_nil hdirectory
    have hfirst : [name] <+: PrefixTree.directoriesOf object.id.key := by
      rw [hdirectories]
      exact ⟨rest, rfl⟩
    refine ⟨_, ⟨name, hstored.madeDirectory hplain hfirst, rfl⟩, ?_⟩
    rw [PrefixTree.directoriesOf, getNestedPathWithKey_of_not_leading hleading] at hfirst
    have hsome : components object.id.key ≠ [] := by
      intro hnone
      rw [hnone] at hfirst
      simp at hfirst
    obtain ⟨-, more, hmore, -⟩ := (isPrefix_dropLast_components_iff _ _).1 ⟨hfirst, hsome⟩
    rw [hmore]
    exact List.prefix_append _ _

/-- Elsewhere, an object with the name of the directory in front is listed unless only
white space follows. -/
theorem covered_directory_iff (hbucket : query.bucket ≠ []) (hkey : query.key ≠ [])
    (hpath : getNestedPath query ≠ []) {object : Object}
    (hstored : StoredIn requests query.bucket object) {rest : Bytes}
    (hrest : object.id.key = directoryName (getNestedPath query) ++ rest) :
    (object ∈ (listing requests query).1 ∨
        ∃ listed ∈ (listing requests query).2, listed <+: object.id.key) ↔
      trimRight rest ≠ [] := by
  have hnames : ∀ name ∈ getNestedPath query, slash ∉ name :=
    fun name => slash_not_mem_of_mem_components
  have hleading : ¬ LeadingSpace object.id.key := by
    obtain ⟨first, others, hfirst⟩ := List.exists_cons_of_ne_nil hpath
    refine not_leadingSpace_of_isPrefix hfirst ?_
    rw [hrest, hfirst, directoryName_cons]
    exact ⟨directoryName others ++ rest, by simp⟩
  have hiff := isPrefix_dropLast_components_iff (getNestedPath query) object.id.key
  rw [mem_listing_fst_iff hplain hbucket hstored, if_neg hkey, PrefixTree.directoriesOf,
    getNestedPathWithKey_of_not_leading hleading]
  constructor
  · rintro (hbelow | ⟨listed, hlisted, hbegins⟩)
    · have hsome : components object.id.key ≠ [] := by
        intro hnone
        rw [hnone, List.dropLast_nil, List.prefix_nil] at hbelow
        exact hpath hbelow
      obtain ⟨-, more, hmore, hblank⟩ := hiff.1 ⟨hbelow, hsome⟩
      rw [hrest] at hmore
      rwa [List.append_cancel_left hmore]
    · obtain ⟨name, -, rfl⟩ := (mem_listing_snd_iff hbucket _).1 hlisted
      rw [hrest, directoryName_append, List.prefix_append_right_inj, directoryName_cons] at hbegins
      obtain ⟨more, rfl⟩ := hbegins
      simp [trimRight_append]
  · intro hblank
    exact Or.inl (hiff.2 ⟨hnames, rest, hrest, hblank⟩).1

/-- After every sequence of creates, updates and deletes, a listing with the delimiter has
no phantoms and misses nothing exactly if the directories that were made in the listed one
still begin a stored key, and no stored key is hidden by white space or is the name of the
listed directory itself. -/
theorem run_listsStored_iff (query : ObjectID) :
    ListsStored requests query ↔
      (query.bucket ≠ [] → DirectoriesInUse requests query) ∧
        ∀ object, StoredIn requests query.bucket object →
          directoryName (getNestedPath query) <+: object.id.key →
          query.bucket ≠ [] ∧ ListedAsNamed query object.id.key := by
  by_cases hbucket : query.bucket = []
  · constructor
    · intro hlists
      refine ⟨fun hnamed => absurd hbucket hnamed, fun object hstored hbegins => ?_⟩
      have hcovered := hlists.covers object hstored hbegins
      rw [listing_unnamed hbucket] at hcovered
      simp at hcovered
    · rintro ⟨-, hnone⟩
      refine ⟨?_, fun object hstored hbegins => absurd hbucket (hnone object hstored hbegins).1⟩
      rw [listing_unnamed hbucket]
      intro listed hlisted
      cases hlisted
  · have hcovered : ∀ object, StoredIn requests query.bucket object →
        directoryName (getNestedPath query) <+: object.id.key →
        ((object ∈ (listing requests query).1 ∨
            ∃ listed ∈ (listing requests query).2, listed <+: object.id.key) ↔
          ListedAsNamed query object.id.key) := by
      intro object hstored hbegins
      rw [ListedAsNamed]
      by_cases hkey : query.key = []
      · rw [if_pos hkey]
        exact covered_root_iff hplain hbucket hkey hstored
      · rw [if_neg hkey]
        by_cases hpath : getNestedPath query = []
        · refine iff_of_true (Or.inl ?_) (Or.inl hpath)
          rw [mem_listing_fst_iff hplain hbucket hstored, if_neg hkey, hpath]
          exact List.nil_prefix
        · obtain ⟨rest, hrest⟩ := hbegins
          rw [covered_directory_iff hplain hbucket hkey hpath hstored hrest.symm, ← hrest,
            List.drop_left, or_iff_right hpath]
    constructor
    · rintro ⟨hlive, hcovers⟩
      refine ⟨fun _ => (live_iff hbucket).1 hlive, fun object hstored hbegins => ?_⟩
      exact ⟨hbucket, (hcovered object hstored hbegins).1 (hcovers object hstored hbegins)⟩
    · rintro ⟨hused, hnamed⟩
      refine ⟨(live_iff hbucket).2 (hused hbucket), fun object hstored hbegins => ?_⟩
      exact (hcovered object hstored hbegins).2 (hnamed object hstored hbegins).2

end Listing

namespace DirectoryListing.Sample

def object (bucket key : Bytes) : Object := ⟨⟨bucket, key⟩, ⟨text "geds://node", 1, 1, none⟩⟩

def nested : Object := object (text "data") (text "dir/a")

theorem nested_plain : PlainKey nested.id.key := ⟨by decide, by decide, by decide⟩

/-- The directory of the object is listed with it. -/
theorem nested_listed :
    ((new.run [.createObject nested]).listObjects ⟨some ⟨text "data", text "dir/"⟩, none⟩).1.1.Nodup ∧
      nested ∈ ((new.run [.createObject nested]).listObjects
        ⟨some ⟨text "data", text "dir/"⟩, none⟩).1.1 := by
  obtain ⟨hnodup, hlisted⟩ := run_listObjects_directory [.createObject nested] (by decide)
    (by simpa [ObjectRequest.key] using nested_plain) ⟨text "data", text "dir/"⟩ (by decide)
    (by decide) (by decide) none (Or.inl rfl)
  exact ⟨hnodup, (hlisted nested).2 (by decide)⟩

/-- Objects may be stored in a bucket without a name, but `ListObjects` takes the bucket
as not set. -/
theorem unnamed_bucket_not_listed :
    ¬ ∀ (requests : List ObjectRequest),
      (∀ request ∈ requests, request.isDeletePrefix = false) →
      (∀ request ∈ requests, PlainKey request.key) →
      ∀ (query : ObjectID), ¬ LeadingSpace query.key →
      (query.key = [] ∨ query.key.getLast? = some slash) →
      ∀ object, object ∈ ((new.run requests).listObjects ⟨some query, none⟩).1.1 ↔
        lastStored requests object.id = some object ∧
          object.id.bucket = query.bucket ∧ query.key <+: object.id.key := by
  intro hall
  have hlisted := hall [.createObject (object [] (text "a"))] (by decide)
    (by simpa [ObjectRequest.key, object] using
      (⟨by decide, by decide, by decide⟩ : PlainKey (text "a")))
    ⟨[], []⟩ (by decide) (Or.inl rfl) (object [] (text "a"))
  exact absurd (hlisted.2 (by decide)) (by decide)

theorem nested_in_use :
    (∀ request ∈ [ObjectRequest.createObject nested], request.isDeletePrefix = false) ∧
      ListsStored [.createObject nested] ⟨text "data", []⟩ := by
  have hplain : ∀ request ∈ [ObjectRequest.createObject nested],
      request.isDeletePrefix = false := by decide
  have hstored : StoredIn [.createObject nested] (text "data") nested := ⟨by decide, rfl⟩
  refine ⟨hplain, (run_listsStored_iff hplain ⟨text "data", []⟩).2 ⟨fun _ => ?_, ?_⟩⟩
  · rintro name ⟨request, hmem, maker, hstores, -, hmade⟩
    obtain rfl := List.mem_singleton.1 hmem
    obtain rfl := Option.some.inj hstores
    obtain ⟨rest, hrest⟩ := hmade
    have hname : name = text "dir" := (List.cons.inj (hrest.trans (by decide :
      PrefixTree.directoriesOf nested.id.key = text "dir" :: []))).1
    refine ⟨nested, hstored, ?_⟩
    rw [hname]
    decide
  · rintro other hother -
    obtain ⟨-, request, hmem, hstores⟩ := stores_of_lastStored hplain hother.1
    obtain rfl := List.mem_singleton.1 hmem
    obtain rfl := Option.some.inj hstores
    exact ⟨by decide, Or.inr (by decide)⟩

/-- The directory is listed after its only object was deleted. -/
theorem deleted_directory_listed :
    ¬ ∀ (requests : List ObjectRequest),
      (∀ request ∈ requests, request.isDeletePrefix = false) →
      ∀ query, ListsStored requests query := by
  intro hall
  have hlists := hall [.createObject nested, .deleteObject nested.id] (by decide)
    ⟨text "data", []⟩
  obtain ⟨other, hother, hbegins⟩ := hlists.live (text "dir/") (by decide)
  have hnone : lastStored [.createObject nested, .deleteObject nested.id] other.id = none := by
    simp [lastStored, onStored]
  exact absurd (hnone.symm.trans hother.1) (by simp)

end DirectoryListing.Sample

end KeyValueStore

end GEDS
