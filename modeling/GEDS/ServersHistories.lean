/-
Histories for which the two metadata servers are interchangeable.  The one in C++ takes
the prefix of a request as bytes, the one in Go as a directory; the keys and the
directories that the history has left tell for which requests this is the same.
-/
import GEDS.ListedPrefixes
import GEDS.ServersAgree

namespace GEDS

open ObjectRequest (MadeDirectory)
open PrefixTree (directoryName directoryName_cons directoryName_nil)
open WriteBehind

/-- The request as one that changes objects. -/
def MetadataRequest.toObjectRequest : MetadataRequest → Option ObjectRequest
  | .create object => some (.createObject object)
  | .update object => some (.updateObject object)
  | .delete id => some (.deleteObject id)
  | .deletePrefix id => some (.deleteObjectPrefix id)
  | .createBucket _ | .lookup _ | .list _ _ => none

namespace Servers

section History

variable (history : List MetadataRequest)

/-- The history has left an object under this key. -/
def HasKey (bucket key : Bytes) : Prop := (new.run history).Stores ⟨bucket, key⟩

/-- The objects that the history stored, when they were stored, lay in or below this
directory. -/
def HasMade (bucket : Bytes) (path : List Bytes) : Prop :=
  MadeDirectory (history.filterMap MetadataRequest.toObjectRequest) bucket path

/-- The keys of a directory have no separator behind its name, and no directory was ever
made in it. -/
structure HasOnlyFiles (id : ObjectID) : Prop where
  keys : ∀ key, HasKey history id.bucket key → id.key <+: key →
    slash ∉ key.drop id.key.length
  directories : ∀ name, ¬ HasMade history id.bucket (getNestedPath id ++ [name])

/-- In the root of a bucket, keys with a separator have no white space in front and more
than white space behind it, and the directories that were made still begin a key. -/
structure HasPlainRoot (bucket : Bytes) : Prop where
  keys : ∀ front rest, slash ∉ front → HasKey history bucket (front ++ slash :: rest) →
    ¬ LeadingSpace front ∧ trimRight rest ≠ []
  directories : ∀ name, HasMade history bucket [name] →
    ∃ rest, HasKey history bucket (name ++ slash :: rest)

/-- A list asks for a bucket that exists and has a name.  Without the delimiter, and in
the root of a bucket with it, directories may lie deeper. -/
structure ListsDirectory (id : ObjectID) (delimited : Bool) : Prop where
  named : id.bucket ≠ []
  bucket : (new.run history).HasBucket id.bucket
  alike : delimited = false ∨ id.key ≠ [] →
    ∀ key, HasKey history id.bucket key → ListedAlike id.key key
  files : delimited = true → id.key ≠ [] → HasOnlyFiles history id
  root : delimited = true → id.key = [] → HasPlainRoot history id.bucket

/-- A prefix to delete finds a key at or behind it in the order of the map, its directory
was made or is the root, and the keys that begin with it lie directly there. -/
structure DeletesDirectory (id : ObjectID) : Prop where
  found : ∃ key, HasKey history id.bucket key ∧ pathLessProbe key ⟨id.key⟩ = false
  made : getNestedPath id = [] ∨ HasMade history id.bucket (getNestedPath id)
  alike : ∀ key, HasKey history id.bucket key → ListedAlike id.key key
  direct : ∀ key, HasKey history id.bucket key → id.key <+: key →
    PrefixTree.directoriesOf key = getNestedPath id

/-- What both servers are made for: requests about what exists, and prefixes that name a
directory. -/
def Common : MetadataRequest → Prop
  | .createBucket _ => True
  | .create object => (new.run history).HasBucket object.id.bucket
  | .update object => (new.run history).Stores object.id
  | .delete id => (new.run history).Stores id
  | .deletePrefix id => DeletesDirectory history id
  | .lookup id => (new.run history).HasBucket id.bucket
  | .list id delimited => ListsDirectory history id delimited

end History

section History

variable {history : List MetadataRequest}

theorem run_append_singleton (request : MetadataRequest) :
    new.run (history ++ [request]) = (new.run history).perform request := by
  rw [run, List.foldl_append]
  rfl

/-- The requests that do not change objects leave the trees as they are. -/
theorem nestedDirectories_serve (kv : KeyValueStore) (request : MetadataRequest)
    (bucket : Bytes) :
    (kv.serve request).2.nestedDirectories bucket =
      (request.toObjectRequest.elim kv kv.perform).nestedDirectories bucket := by
  cases request with
  | create object | update object | delete id | deletePrefix id => rfl
  | createBucket other =>
      simp only [KeyValueStore.serve, KeyValueStore.createBucket]
      split_ifs <;> exact KeyValueStore.nestedDirectories_newBucketIfNotExist other bucket
  | lookup id =>
      have hlookup : (kv.lookupObject id).2 = (kv.newBucketIfNotExist id.bucket).2 := by
        rw [KeyValueStore.lookupObject]
        split <;> rfl
      have hserve : (kv.serve (.lookup id)).2 = (kv.lookupObject id).2 := by
        rw [KeyValueStore.serve]
        split <;> simp [*]
      rw [hserve, hlookup]
      exact KeyValueStore.nestedDirectories_newBucketIfNotExist id.bucket bucket
  | list id delimited =>
      simp only [KeyValueStore.serve, KeyValueStore.listObjects]
      cases delimited <;> split_ifs <;>
        simp [KeyValueStore.nestedDirectories_newBucketIfNotExist, MetadataRequest.toObjectRequest]

theorem nestedDirectories_run (history : List MetadataRequest) (bucket : Bytes) :
    (new.run history).go.nestedDirectories bucket =
      (KeyValueStore.new.run
        (history.filterMap MetadataRequest.toObjectRequest)).nestedDirectories bucket := by
  induction history using List.reverseRecOn generalizing bucket with
  | nil => rfl
  | append_singleton earlier request ih =>
      rw [run_append_singleton, perform]
      dsimp only
      rw [nestedDirectories_serve, List.filterMap_append]
      cases hrequest : request.toObjectRequest with
      | none => simp [hrequest, ih]
      | some change =>
          rw [List.filterMap_cons_some hrequest, List.filterMap_nil,
            KeyValueStore.run_append_singleton, Option.elim_some,
            KeyValueStore.nestedDirectories_perform, KeyValueStore.nestedDirectories_perform]
          split_ifs <;> rw [ih]

/-- The directories of the tree are those that the history made. -/
theorem run_directories (history : List MetadataRequest) (bucket : Bytes) (path : List Bytes) :
    ((new.run history).go.nestedDirectories bucket).valueAt path ≠ none ↔
      path = [] ∨ HasMade history bucket path := by
  rw [nestedDirectories_run]
  exact KeyValueStore.run_directories _ bucket path

variable (h : (new.run history).Related) {id : ObjectID}

theorem HasMade.slash_not_mem {bucket : Bytes} {path : List Bytes}
    (hmade : HasMade history bucket path) {name : Bytes} (hname : name ∈ path) : slash ∉ name := by
  obtain ⟨-, -, object, -, -, hpath⟩ := hmade
  exact slash_not_mem_of_mem_getNestedPathWithKey (List.mem_of_mem_dropLast (hpath.subset hname))

include h

/-- The directories on the way to a stored object are there. -/
theorem Related.hasMade {bucket key : Bytes} (hkey : HasKey history bucket key)
    {path : List Bytes} (hpath : path <+: PrefixTree.directoriesOf key) :
    ((new.run history).go.nestedDirectories bucket).valueAt path ≠ none := by
  intro hnone
  have hrecorded := h.follows.complete bucket path key hpath
  rw [h.follows.held, PrefixTree.recordedAt, hnone] at hrecorded
  exact hkey hrecorded.symm

theorem Related.deletesAlike (hdeletes : DeletesDirectory history id) :
    (new.run history).DeletesAlike id := by
  constructor
  · obtain ⟨key, hkey, hbehind⟩ := hdeletes.found
    obtain ⟨contents, info, hcontents, hinfo⟩ := contents_of_entry h.wellFormed hkey
    refine ⟨contents, hcontents, fun hbelow => ?_⟩
    have hless := hbelow key (by rw [hinfo]; exact Option.some_ne_none info)
    rw [hbehind] at hless
    cases hless
  · rintro stop ⟨hon, -, hdeepest⟩ key hkey
    -- The directory of the prefix is there, so the walk does not stop before it.
    have hstop : stop = getNestedPath id :=
      hon.eq_of_length_le
        (hdeepest _ (List.prefix_refl _)
          ((run_directories history _ _).2 hdeletes.made)).length_le
    rw [hstop]
    exact ⟨(listedAlike_iff _ _).1 (hdeletes.alike key hkey), hdeletes.direct key hkey⟩

omit h in
/-- In such a root, what a key names first is what the tree finds first. -/
theorem HasPlainRoot.path_eq {bucket : Bytes}
    (hroot : HasPlainRoot history bucket) {front rest : Bytes} (hfree : slash ∉ front)
    (hkey : HasKey history bucket (front ++ slash :: rest)) :
    getNestedPathWithKey (front ++ slash :: rest) = front :: components rest ∧
      components rest ≠ [] := by
  obtain ⟨hleading, hrest⟩ := hroot.keys front rest hfree hkey
  have hnone : ¬ LeadingSpace (front ++ slash :: rest) := by
    rintro ⟨encoding, hmem, hbegins⟩
    exact hleading ⟨encoding, hmem,
      (isPrefix_append_cons_iff (slash_not_mem_spaces encoding hmem)).1 hbegins⟩
  rw [getNestedPathWithKey_of_not_leading hnone, components_cons hfree]
  exact ⟨rfl, (components_eq_nil_iff rest).not.2 hrest⟩

omit h in
theorem HasPlainRoot.directoriesOf_eq_nil_iff {bucket : Bytes}
    (hroot : HasPlainRoot history bucket) {key : Bytes} (hkey : HasKey history bucket key) :
    slash ∉ key ↔ PrefixTree.directoriesOf key = [] := by
  rw [PrefixTree.directoriesOf]
  by_cases hslash : slash ∈ key
  · obtain ⟨front, rest, rfl, hfree⟩ := List.eq_append_cons_of_mem hslash
    obtain ⟨hpath, hmore⟩ := hroot.path_eq hfree hkey
    rw [hpath, List.dropLast_cons_of_ne_nil hmore]
    exact iff_of_false (not_not.2 hslash) (List.cons_ne_nil _ _)
  · have hfree : slash ∉ trimLeft key := fun hmem =>
      hslash ((trimStart_suffix _ _).subset hmem)
    rw [getNestedPathWithKey_eq, components_of_not_mem hfree]
    refine iff_of_true hslash ?_
    split_ifs <;> rfl

/-- The cuts of the keys are the directories that were made in the root. -/
theorem HasPlainRoot.cuts_iff {bucket : Bytes} (hroot : HasPlainRoot history bucket)
    (text : Bytes) :
    (∃ key, HasKey history bucket key ∧ IsCut [] slash key text) ↔
      ∃ name, ((new.run history).go.nestedDirectories bucket).valueAt [name] ≠ none ∧
        text = directoryName [name] := by
  constructor
  · rintro ⟨key, hkey, middle, rest, hfree, rfl, rfl⟩
    rw [List.nil_append] at hkey ⊢
    obtain ⟨hpath, hmore⟩ := hroot.path_eq hfree hkey
    refine ⟨middle, h.hasMade hkey ?_, by simp [directoryName_cons]⟩
    rw [PrefixTree.directoriesOf, hpath, List.dropLast_cons_of_ne_nil hmore]
    exact ⟨_, rfl⟩
  · rintro ⟨name, hvalue, rfl⟩
    have hmade := ((run_directories history bucket [name]).1 hvalue).resolve_left
      (List.cons_ne_nil _ _)
    obtain ⟨rest, hkey⟩ := hroot.directories name hmade
    exact ⟨_, hkey, name, rest, hmade.slash_not_mem List.mem_cons_self, rfl,
      by simp [directoryName_cons]⟩

theorem Related.listsAlike {delimited : Bool} (hlists : ListsDirectory history id delimited) :
    (new.run history).ListsAlike id delimited := by
  have halike : delimited = false ∨ id.key ≠ [] → ∀ key, HasKey history id.bucket key →
      (id.key <+: key ↔ getNestedPath id <+: PrefixTree.directoriesOf key) :=
    fun hcase key hkey => (listedAlike_iff _ _).1 (hlists.alike hcase key hkey)
  refine ⟨hlists.named, hlists.bucket, fun key hkey => ?_, fun hdelimited text => ?_⟩
  · cases delimited with
    | false => simpa using halike (Or.inl rfl) key hkey
    | true =>
        by_cases hroot : id.key = []
        · rw [if_pos ⟨rfl, hroot⟩, ← (hlists.root rfl hroot).directoriesOf_eq_nil_iff hkey]
          simp [hroot]
        · rw [if_neg fun hcase => hroot hcase.2, ← halike (Or.inr hroot) key hkey]
          exact and_iff_left_of_imp fun hbegins _ =>
            (hlists.files rfl hroot).keys key hkey hbegins
  · by_cases hroot : id.key = []
    · have hpath : getNestedPath id = [] := by
        rw [getNestedPath, hroot]
        rfl
      rw [hroot, hpath]
      exact (hlists.root hdelimited hroot).cuts_iff h text
    · obtain ⟨hkeys, hdirectories⟩ := hlists.files hdelimited hroot
      constructor
      · rintro ⟨key, hkey, middle, rest, -, rfl, -⟩
        exact absurd (by simp) (hkeys _ hkey (List.prefix_append _ _))
      · rintro ⟨name, hvalue, -⟩
        rcases (run_directories history _ _).1 hvalue with hnone | hmade
        · exact absurd hnone (List.append_ne_nil_of_right_ne_nil _ (List.cons_ne_nil _ _))
        · exact absurd hmade (hdirectories name)

/-- A request that both are made for is answered alike and leaves them alike. -/
theorem Related.step {request : MetadataRequest} (hcommon : Common history request) :
    (new.run history).Agree request ∧ (new.run (history ++ [request])).Related := by
  rw [run_append_singleton]
  cases request with
  | createBucket bucket => exact h.createBucket bucket
  | create object => exact h.create hcommon
  | update object => exact h.update hcommon
  | delete id => exact h.delete hcommon
  | deletePrefix id => exact h.deletePrefix (h.deletesAlike hcommon)
  | lookup id => exact h.lookup hcommon
  | list id delimited => exact h.list (h.listsAlike hcommon)

end History

theorem Related.run {history : List MetadataRequest} (h : (new.run history).Related)
    {requests : List MetadataRequest}
    (hcommon : Throughout (fun earlier request => earlier ++ [request]) Common history
      requests) :
    Throughout perform Agree (new.run history) requests ∧
      (new.run (history ++ requests)).Related := by
  induction requests generalizing history with
  | nil => exact ⟨trivial, by rwa [List.append_nil]⟩
  | cons request rest ih =>
      obtain ⟨hagree, hafter⟩ := h.step hcommon.1
      obtain ⟨hrest, hrelated⟩ := ih hafter hcommon.2
      rw [run_append_singleton] at hrest
      exact ⟨⟨hagree, hrest⟩, by rwa [List.append_cons]⟩

/-- In every history of requests that both servers are made for, they give the same outcome
to each; and after every such history the server in Go carries out, and the one in C++
refuses, the creation of an object in a bucket that is missing and the update or deletion
of an object that is. -/
theorem run_agree (requests : List MetadataRequest)
    (hcommon : Throughout (fun earlier request => earlier ++ [request]) Common [] requests) :
    Throughout perform Agree new requests ∧
      (∀ object, ¬ (new.run requests).HasBucket object.id.bucket →
        (new.run requests).OnlyGo (.create object)) ∧
      (∀ object, ¬ (new.run requests).Stores object.id →
        (new.run requests).OnlyGo (.update object)) ∧
      ∀ id, ¬ (new.run requests).Stores id → (new.run requests).OnlyGo (.delete id) := by
  obtain ⟨hagree, hrelated⟩ := @Related.run [] new_related requests hcommon
  exact ⟨hagree, fun _ => create_onlyGo, fun _ => hrelated.update_onlyGo,
    fun _ => hrelated.delete_onlyGo⟩

instance (result other : List Object × List Bytes) : Decidable (SameListing result other) :=
  decidable_of_iff
    ((result.1 ⊆ other.1 ∧ other.1 ⊆ result.1) ∧ result.2 ⊆ other.2 ∧ other.2 ⊆ result.2) <| by
    simp [SameListing, List.subset_def, iff_iff_implies_and_implies, forall_and]

instance (answer other : MetadataOutcome) : Decidable (answer.Same other) :=
  match answer, other with
  | .status code, .status code' => inferInstanceAs (Decidable (code = code'))
  | .object result, .object result' => inferInstanceAs (Decidable (result = result'))
  | .listing (.ok result), .listing (.ok result') =>
      inferInstanceAs (Decidable (SameListing result result'))
  | .listing (.error code), .listing (.error code') => inferInstanceAs (Decidable (code = code'))
  | .listing (.ok _), .listing (.error _) | .listing (.error _), .listing (.ok _)
  | .status _, .object _ | .status _, .listing _ | .object _, .status _ | .object _, .listing _
  | .listing (.ok _), .status _ | .listing (.error _), .status _
  | .listing (.ok _), .object _ | .listing (.error _), .object _ => isFalse id

instance (s : Servers) (request : MetadataRequest) : Decidable (s.Agree request) :=
  inferInstanceAs (Decidable (MetadataOutcome.Same _ _))

namespace Sample

def data : Bytes := text "data"

def object (key : Bytes) : Object := ⟨⟨data, key⟩, ⟨text "geds://node", 1, 1, none⟩⟩

def created : List MetadataRequest := [.createBucket data, .create (object (text "dir/a"))]

def requests : List MetadataRequest :=
  created ++ [.list ⟨data, []⟩ true, .list ⟨data, text "dir/"⟩ true,
    .deletePrefix ⟨data, text "dir/"⟩, .lookup ⟨data, text "dir/a"⟩]

/-- The bucket has this one object, and only its directory was made. -/
structure HasOneObject (history : List MetadataRequest) : Prop where
  bucket : (new.run history).HasBucket data
  keys : ∀ key, HasKey history data key ↔ key = text "dir/a"
  made : ∀ path, HasMade history data path ↔ path <+: [text "dir"]

theorem created_hasOneObject : HasOneObject created := by
  refine ⟨Option.some_ne_none _, fun key => ?_, fun path => ?_⟩
  · have hbucket := (new_related.createBucket data).2
    have hrelated : (new.run created).Related :=
      (@Related.create _ hbucket (object (text "dir/a")) (Option.some_ne_none _)).2
    have hfind : (new.run created).cpp.map.find data = some 0 := rfl
    rw [HasKey, stores_iff hrelated.wellFormed hfind]
    constructor
    · rintro ⟨container, hcontainer⟩
      rw [OrderedMap.find_eq_some_iff] at hcontainer
      have hentry : (key, container) ∈ [(text "dir/a", 0)] := hcontainer
      exact congrArg Prod.fst (List.mem_singleton.1 hentry)
    · rintro rfl
      exact ⟨0, by rfl⟩
  · constructor
    · rintro ⟨request, hmem, made, hstores, -, hpath⟩
      obtain rfl := List.mem_singleton.1 hmem
      obtain rfl := Option.some.inj hstores
      exact hpath
    · intro hpath
      exact ⟨_, List.mem_singleton_self _, _, rfl, rfl, hpath⟩

/-- The key goes on behind the name of its directory. -/
theorem directory_alike : ListedAlike (text "dir/") (text "dir/a") := by
  rw [ListedAlike, if_neg (by decide), if_neg (by decide), if_pos (by decide)]
  intro rest hrest
  rw [← List.append_cancel_left (show text "dir/" ++ text "a" = text "dir/" ++ rest from hrest)]
  decide

section HasOneObject

variable {history : List MetadataRequest} (h : HasOneObject history)

include h

theorem HasOneObject.root_listed : ListsDirectory history ⟨data, []⟩ true := by
  refine ⟨by decide, h.bucket, fun hcase => by simp at hcase,
    fun _ hkey => absurd rfl hkey, fun _ _ => ⟨fun front rest hfree hkey => ?_,
      fun name hmade => ⟨text "a", ?_⟩⟩⟩
  · have hsplit : front ++ slash :: rest = text "dir" ++ slash :: text "a" :=
      (h.keys _).1 hkey
    obtain ⟨rfl, rfl⟩ := (append_cons_inj_of_not_mem hfree (by decide)).1 hsplit
    decide
  · obtain ⟨rfl, -⟩ := List.cons_prefix_cons.1 ((h.made [name]).1 hmade)
    exact (h.keys _).2 rfl

theorem HasOneObject.directory_listed : ListsDirectory history ⟨data, text "dir/"⟩ true := by
  have hpath : getNestedPath ⟨data, text "dir/"⟩ = [text "dir"] := by decide
  refine ⟨by decide, h.bucket, fun _ key hkey => ?_,
    fun _ _ => ⟨fun key hkey _ => ?_, fun name hmade => ?_⟩, fun _ hkey => by cases hkey⟩
  · rw [(h.keys key).1 hkey]
    exact directory_alike
  · rw [(h.keys key).1 hkey]
    decide
  · rw [hpath] at hmade
    have hlength := ((h.made _).1 hmade).length_le
    simp at hlength

theorem HasOneObject.directory_deleted : DeletesDirectory history ⟨data, text "dir/"⟩ where
  found := ⟨_, (h.keys _).2 rfl, by decide⟩
  made := Or.inr ((h.made _).2 (by decide))
  alike := by
    intro key hkey
    rw [(h.keys key).1 hkey]
    exact directory_alike
  direct := by
    intro key hkey _
    rw [(h.keys key).1 hkey]
    decide

end HasOneObject

/-- The root and the directory are listed, and the directory is emptied. -/
theorem requests_agree :
    (new.run requests).cpp.entry ⟨data, text "dir/a"⟩ = none ∧
      Throughout perform Agree new requests := by
  have hroot : HasOneObject (created ++ [.list ⟨data, []⟩ true]) :=
    ⟨created_hasOneObject.bucket, created_hasOneObject.keys, created_hasOneObject.made⟩
  have hdirectory : HasOneObject
      (created ++ [.list ⟨data, []⟩ true] ++ [.list ⟨data, text "dir/"⟩ true]) :=
    ⟨hroot.bucket, hroot.keys, hroot.made⟩
  exact ⟨by rfl, (run_agree requests ⟨trivial, Option.some_ne_none _,
    created_hasOneObject.root_listed, hroot.directory_listed, hdirectory.directory_deleted,
    Option.some_ne_none _, trivial⟩).1⟩

/-- The bucket has an object in a directory, one in a directory below it, and one beside. -/
def filled : List MetadataRequest :=
  created ++ [.create (object (text "dir/sub/b")), .create (object (text "z"))]

/-- The servers disagree about what is missing, about a bucket without a name, about
prefixes that end inside a component, white space, nested directories, and directories
that are empty or were never made. -/
theorem histories_disagree :
    (¬ new.Agree (.create (object (text "z"))) ∧ ¬ new.Agree (.list ⟨data, []⟩ false) ∧
      ¬ (new.run [.lookup ⟨data, text "z"⟩]).Agree (.createBucket data)) ∧
    (¬ (new.run created).Agree (.update (object (text "z"))) ∧
      ¬ (new.run created).Agree (.delete ⟨data, text "z"⟩) ∧
      ¬ (new.run created).Agree (.deletePrefix ⟨data, text "z"⟩)) ∧
    (¬ (new.run [.createBucket [], .create ⟨⟨[], text "z"⟩, ⟨[], 1, 1, none⟩⟩]).Agree
        (.list ⟨[], []⟩ false) ∧
      ¬ (new.run filled).Agree (.list ⟨data, text "di"⟩ false) ∧
      ¬ (new.run filled).Agree (.list ⟨data, text "dir/"⟩ true) ∧
      ¬ (new.run [.createBucket data, .create (object (text " dir/a"))]).Agree
        (.list ⟨data, []⟩ true) ∧
      ¬ (new.run (created ++ [.delete ⟨data, text "dir/a"⟩])).Agree (.list ⟨data, []⟩ true)) ∧
    ¬ (new.run (filled ++ [.deletePrefix ⟨data, text "di"⟩])).Agree (.lookup ⟨data, text "z"⟩) ∧
      ¬ (new.run (filled ++ [.deletePrefix ⟨data, text "dir/"⟩])).Agree
        (.lookup ⟨data, text "dir/sub/b"⟩) := by
  refine ⟨⟨?_, ?_, ?_⟩, ⟨?_, ?_, ?_⟩, ⟨?_, ?_, ?_, ?_, ?_⟩, ?_, ?_⟩ <;> decide

end Sample

end Servers

end GEDS
