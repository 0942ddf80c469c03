/-
The names of directories.  A directory of the tree carries the last component of its path,
and a listing with the delimiter shows the whole path, put together on the way down.
-/
import GEDS.PrefixTreeDelete

namespace GEDS

namespace PrefixTree

/-- Every directory below the root has its own name. -/
def Named (tree : PrefixTree) : Prop :=
  ∀ (path : List Bytes) (name : Bytes) (directory : Directory),
    tree.valueAt (path ++ [name]) = some directory → directory.thisDirectory = name

/-- The text of a path, with a delimiter behind every name. -/
def directoryName (path : List Bytes) : Bytes := path.flatMap (· ++ [slash])

@[simp] theorem directoryName_nil : directoryName [] = [] := rfl

theorem directoryName_cons (name : Bytes) (rest : List Bytes) :
    directoryName (name :: rest) = name ++ slash :: directoryName rest := by
  simp [directoryName]

theorem directoryName_append (path rest : List Bytes) :
    directoryName (path ++ rest) = directoryName path ++ directoryName rest := by
  simp [directoryName]

variable {tree : PrefixTree}

theorem new_named (thisDirectory : Bytes) : (makeNewPrefixTree thisDirectory).Named := by
  intro path name directory hvalue
  cases path with
  | nil => simp [makeNewPrefixTree] at hvalue
  | cons first rest => simp [makeNewPrefixTree] at hvalue

theorem Named.traverseCreateObject (h : tree.Named) (object : Object) :
    (tree.traverseCreateObject object).Named := by
  intro path name directory hvalue
  rw [PrefixTree.traverseCreateObject] at hvalue
  by_cases hpath : path ++ [name] <+: directoriesOf object.id.key
  · obtain ⟨old, hnew, hold⟩ := Trie.valueAt_growAlong_of_isPrefix Directory.new
      (fun last directory =>
        if last then (directory.record object).put object else directory.record object)
      tree hpath
    have hname : old.thisDirectory = name := by
      rcases hold with hold | ⟨-, front, last, hpart, rfl⟩
      · exact h _ _ _ hold
      · exact (List.singleton_inj.1 (List.append_inj' hpart rfl).2).symm
    obtain rfl := Option.some.inj (hnew.symm.trans hvalue)
    split_ifs <;> exact hname
  · rw [Trie.valueAt_growAlong_of_not_isPrefix _ _ _ hpath] at hvalue
    exact h _ _ _ hvalue

theorem Named.editAlong (h : tree.Named) {edit : Bool → Directory → Directory}
    (hedit : ∀ last directory, (edit last directory).thisDirectory = directory.thisDirectory)
    (path : List Bytes) : Named (tree.editAlong edit path) := by
  intro front name directory hvalue
  rw [Trie.valueAt_editAlong] at hvalue
  split_ifs at hvalue
  · obtain ⟨old, hold, rfl⟩ := Option.map_eq_some_iff.1 hvalue
    rw [hedit]
    exact h _ _ _ hold
  · exact h _ _ _ hvalue

theorem removeAll_thisDirectory (deletedObjects : List Object) (directory : Directory) :
    (removeAll deletedObjects directory).thisDirectory = directory.thisDirectory := by
  induction deletedObjects generalizing directory with
  | nil => rfl
  | cons object rest ih => exact ih _

theorem Named.onTree (h : tree.Named) (request : ObjectRequest) : (request.onTree tree).Named := by
  cases request with
  | createObject object => exact h.traverseCreateObject object
  | updateObject object => exact h.traverseCreateObject object
  | deleteObject objectID =>
      apply h.editAlong
      intro last directory
      cases last <;> rfl
  | deleteObjectPrefix objectID =>
      apply h.editAlong
      intro last directory
      exact removeAll_thisDirectory _ directory

/-- The walk collects the names of the path. -/
theorem Named.walkDown (h : tree.Named) (longestPath : Bytes) (path : List Bytes) :
    PrefixTree.walkDown true longestPath path tree =
      (tree.subtree path).map fun node => (longestPath ++ directoryName path, node) := by
  induction path generalizing longestPath tree with
  | nil => simp [PrefixTree.walkDown, Trie.subtree, directoryName]
  | cons name rest ih =>
      rw [PrefixTree.walkDown, Trie.subtree]
      cases hchild : tree.child name with
      | none => rfl
      | some child =>
          have hvalue : ∀ path, child.valueAt path = tree.valueAt (name :: path) := by
            intro path
            rw [Trie.valueAt_cons, hchild]
            rfl
          have hname : child.value.thisDirectory = name := h [] name _ (hvalue []).symm
          have hnamed : Named child := by
            intro path last directory hlast
            rw [hvalue] at hlast
            exact h (name :: path) last directory hlast
          simp only [↓reduceIte, hname]
          rw [ih hnamed]
          simp [directoryName]

theorem getNestedPath_nil {objectID : ObjectID} (hkey : objectID.key.length = 0) :
    getNestedPath objectID = [] := by
  rw [getNestedPath, List.length_eq_zero_iff.1 hkey]
  rfl

/-- With a delimiter the directories are listed, also those that are empty. -/
theorem Named.mem_commonPrefixes_iff (h : tree.Named) (objectID : ObjectID) (text : Bytes) :
    text ∈ (tree.listObjects objectID [slash]).2 ↔
      ∃ name, tree.valueAt (getNestedPath objectID ++ [name]) ≠ none ∧
        text = directoryName (getNestedPath objectID ++ [name]) := by
  have hlisted : ∀ (node : PrefixTree) (path : List Bytes),
      text ∈ node.children.map (fun entry => directoryName path ++ entry.1 ++ [slash]) ↔
        ∃ name, node.child name ≠ none ∧ text = directoryName (path ++ [name]) := by
    intro node path
    simp only [← Trie.mem_children_iff, List.mem_map, directoryName_append, directoryName_cons,
      directoryName_nil]
    constructor
    · rintro ⟨entry, hentry, rfl⟩
      exact ⟨entry.1, ⟨entry, hentry, rfl⟩, by simp⟩
    · rintro ⟨_, ⟨entry, hentry, rfl⟩, rfl⟩
      exact ⟨entry, hentry, by simp⟩
  simp only [Trie.valueAt_concat]
  by_cases hkey : objectID.key.length = 0
  · rw [listObjects, if_neg (by simp), if_pos hkey, getNestedPath_nil hkey]
    simp only [Trie.subtree, Option.bind_some, ne_eq, Option.map_eq_none_iff]
    exact hlisted tree []
  · rw [listObjects, if_neg (by simp), if_neg hkey, traverseListObjects, h.walkDown]
    cases tree.subtree (getNestedPath objectID) with
    | none => simp
    | some node =>
        simp only [Option.map_some, ↓reduceIte, Option.bind_some, List.nil_append, ne_eq,
          Option.map_eq_none_iff]
        exact hlisted node _

end PrefixTree

end GEDS
