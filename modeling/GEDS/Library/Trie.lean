/-
Trees with named children, edited along a path.  A tree is known by the value
it has at each path; the two edits, one that makes missing nodes and one that
stops at them, are described by what they do to these values.
-/
import GEDS.Library.AssocMap
import Mathlib.Data.List.Infix

namespace GEDS

universe u v

/-- A node holds a value and its children by name. -/
inductive Trie (κ : Type u) (α : Type v) where
  | node (value : α) (children : List (κ × Trie κ α))

namespace Trie

variable {κ : Type u} {α : Type v}

def value : Trie κ α → α
  | node value _ => value

def children : Trie κ α → List (κ × Trie κ α)
  | node _ children => children

def leaf (value : α) : Trie κ α := node value []

@[simp] theorem value_node (value : α) (children : List (κ × Trie κ α)) :
    (node value children).value = value := rfl

variable [DecidableEq κ]

def child (name : κ) (tree : Trie κ α) : Option (Trie κ α) :=
  tree.children.lookup name

/-- The node at a path, if all its steps exist. -/
def subtree : List κ → Trie κ α → Option (Trie κ α)
  | [], tree => some tree
  | name :: rest, tree =>
      match tree.child name with
      | none => none
      | some child => subtree rest child

def valueAt (path : List κ) (tree : Trie κ α) : Option α :=
  (tree.subtree path).map value

/-- The longest part of the path that exists. -/
def reach : List κ → Trie κ α → List κ
  | [], _ => []
  | name :: rest, tree =>
      match tree.child name with
      | none => []
      | some child => name :: reach rest child

/-- The node where a walk along the path stops. -/
def deepest : List κ → Trie κ α → Trie κ α
  | [], tree => tree
  | name :: rest, tree =>
      match tree.child name with
      | none => tree
      | some child => deepest rest child

/-- Edit every node along the path and make those that are missing; the flag
tells the edit that it is at the end of the path. -/
def growAlong (fresh : κ → α) (edit : Bool → α → α) : List κ → Trie κ α → Trie κ α
  | [], tree => node (edit true tree.value) tree.children
  | name :: rest, tree =>
      let child := (tree.child name).getD (leaf (fresh name))
      node (edit false tree.value)
        (assocInsert name (growAlong fresh edit rest child) tree.children)

/-- Edit the nodes along the path as far as they exist; the flag tells the
edit that the walk stops here. -/
def editAlong (edit : Bool → α → α) : List κ → Trie κ α → Trie κ α
  | [], tree => node (edit true tree.value) tree.children
  | name :: rest, tree =>
      match tree.child name with
      | none => node (edit true tree.value) tree.children
      | some child =>
          node (edit false tree.value)
            (assocInsert name (editAlong edit rest child) tree.children)

@[simp] theorem valueAt_nil (tree : Trie κ α) : tree.valueAt [] = some tree.value := rfl

theorem valueAt_cons (name : κ) (rest : List κ) (tree : Trie κ α) :
    tree.valueAt (name :: rest) = (tree.child name).bind (valueAt rest) := by
  rw [valueAt, subtree]
  cases tree.child name <;> rfl

@[simp] theorem valueAt_leaf_cons (name : κ) (rest : List κ) (value : α) :
    (leaf value : Trie κ α).valueAt (name :: rest) = none := by
  rw [valueAt_cons]
  rfl

theorem child_node_assocInsert (value : α) (name : κ) (tree : Trie κ α)
    (children : List (κ × Trie κ α)) (other : κ) :
    (node value (assocInsert name tree children)).child other =
      if other = name then some tree else children.lookup other :=
  lookup_assocInsert name tree other children

theorem reach_isPrefix (path : List κ) (tree : Trie κ α) : tree.reach path <+: path := by
  induction path generalizing tree with
  | nil => simp [reach]
  | cons name rest ih =>
      rw [reach]
      cases tree.child name with
      | none => exact List.nil_prefix
      | some child => exact List.prefix_cons_inj name |>.mpr (ih child)

theorem valueAt_reach (path : List κ) (tree : Trie κ α) :
    tree.valueAt (tree.reach path) = some (tree.deepest path).value := by
  induction path generalizing tree with
  | nil => rfl
  | cons name rest ih =>
      rw [reach, deepest]
      cases hchild : tree.child name with
      | none => rfl
      | some child =>
          simp only [valueAt_cons, hchild, Option.bind_some]
          exact ih child

/-- The existing part contains every part that exists. -/
theorem isPrefix_reach_iff {part path : List κ} (tree : Trie κ α)
    (hpart : part <+: path) :
    part <+: tree.reach path ↔ tree.valueAt part ≠ none := by
  induction path generalizing part tree with
  | nil =>
      rw [List.prefix_nil] at hpart
      simp [hpart, reach]
  | cons name rest ih =>
      cases part with
      | nil => simp
      | cons first part =>
          obtain ⟨rfl, hrest⟩ := List.cons_prefix_cons.mp hpart
          rw [valueAt_cons, reach]
          cases hchild : tree.child first with
          | none => simp
          | some child =>
              rw [List.cons_prefix_cons]
              simpa using ih child hrest

theorem reach_eq_self_iff (path : List κ) (tree : Trie κ α) :
    tree.reach path = path ↔ tree.valueAt path ≠ none := by
  rw [← isPrefix_reach_iff tree (List.prefix_refl path)]
  constructor
  · intro heq
    rw [heq]
  · intro habove
    exact List.IsPrefix.eq_of_length (reach_isPrefix path tree)
      (le_antisymm (reach_isPrefix path tree).length_le habove.length_le)

/-- Growing along a path edits the values on it and nothing else; a node that
was missing starts from a fresh value. -/
theorem valueAt_growAlong_of_isPrefix (fresh : κ → α) (edit : Bool → α → α)
    {part path : List κ} (tree : Trie κ α) (hpart : part <+: path) :
    ∃ old, (tree.growAlong fresh edit path).valueAt part =
        some (edit (decide (part = path)) old) ∧
      (tree.valueAt part = some old ∨
        tree.valueAt part = none ∧ ∃ front name, part = front ++ [name] ∧ old = fresh name) := by
  induction path generalizing part tree with
  | nil =>
      rw [List.prefix_nil] at hpart
      subst hpart
      exact ⟨tree.value, by simp [growAlong], Or.inl rfl⟩
  | cons name rest ih =>
      cases part with
      | nil => exact ⟨tree.value, by simp [growAlong], Or.inl rfl⟩
      | cons first part =>
          obtain ⟨rfl, hrest⟩ := List.cons_prefix_cons.mp hpart
          obtain ⟨old, hnew, hold⟩ := ih ((tree.child first).getD (leaf (fresh first))) hrest
          refine ⟨old, ?_, ?_⟩
          · rw [growAlong, valueAt_cons, child_node_assocInsert, if_pos rfl,
              Option.bind_some, hnew]
            simp
          · rw [valueAt_cons]
            cases hchild : tree.child first with
            | some child =>
                rw [hchild] at hold
                rcases hold with hold | ⟨hmissing, front, last, hpart, hfresh⟩
                · exact Or.inl hold
                · exact Or.inr ⟨hmissing, first :: front, last, congrArg _ hpart, hfresh⟩
            | none =>
                rw [hchild, Option.getD_none] at hold
                cases part with
                | nil =>
                    rcases hold with hold | ⟨hold, _⟩
                    · exact Or.inr ⟨rfl, [], first, rfl, (Option.some.inj hold).symm⟩
                    · exact absurd hold (Option.some_ne_none _)
                | cons second part =>
                    rcases hold with hold | ⟨_, front, last, hpart, hfresh⟩
                    · simp at hold
                    · exact Or.inr ⟨rfl, first :: front, last, congrArg _ hpart, hfresh⟩

theorem valueAt_growAlong_of_not_isPrefix (fresh : κ → α) (edit : Bool → α → α)
    {other path : List κ} (tree : Trie κ α) (hother : ¬ other <+: path) :
    (tree.growAlong fresh edit path).valueAt other = tree.valueAt other := by
  induction path generalizing other tree with
  | nil =>
      cases other with
      | nil => exact absurd List.nil_prefix hother
      | cons first rest => rfl
  | cons name rest ih =>
      cases other with
      | nil => exact absurd List.nil_prefix hother
      | cons first other =>
          rw [growAlong, valueAt_cons, child_node_assocInsert, valueAt_cons]
          by_cases hfirst : first = name
          · subst hfirst
            have hrest : ¬ other <+: rest :=
              fun hrest => hother (List.cons_prefix_cons.mpr ⟨rfl, hrest⟩)
            rw [if_pos rfl, Option.bind_some, ih _ hrest]
            cases hchild : tree.child first with
            | some child => rfl
            | none =>
                cases other with
                | nil => exact absurd List.nil_prefix hrest
                | cons second other => simp
          · rw [if_neg hfirst]
            rfl

/-- Editing along a path edits the values on the part that exists and nothing
else. -/
theorem valueAt_editAlong (edit : Bool → α → α) (other path : List κ) (tree : Trie κ α) :
    (tree.editAlong edit path).valueAt other =
      if other <+: tree.reach path then
        (tree.valueAt other).map (edit (decide (other = tree.reach path)))
      else tree.valueAt other := by
  induction path generalizing other tree with
  | nil =>
      rw [reach, editAlong]
      cases other with
      | nil => simp
      | cons first rest => simp [valueAt_cons, child, children]
  | cons name rest ih =>
      rw [reach, editAlong]
      cases hchild : tree.child name with
      | none =>
          cases other with
          | nil => simp
          | cons first rest => simp [valueAt_cons, child, children]
      | some child =>
          cases other with
          | nil => simp
          | cons first other =>
              rw [valueAt_cons, child_node_assocInsert, valueAt_cons]
              by_cases hfirst : first = name
              · subst hfirst
                simp only [↓reduceIte, Option.bind_some, hchild, List.cons_prefix_cons,
                  true_and, List.cons.injEq]
                exact ih other child
              · rw [if_neg hfirst, if_neg]
                · rfl
                · exact fun h => hfirst (List.cons_prefix_cons.mp h).1

theorem mem_children_iff (tree : Trie κ α) (name : κ) :
    name ∈ tree.children.map Prod.fst ↔ tree.child name ≠ none := by
  rw [child, ne_eq, lookup_eq_none_iff_forall]
  simp

theorem valueAt_concat (path : List κ) (name : κ) (tree : Trie κ α) :
    tree.valueAt (path ++ [name]) =
      (tree.subtree path).bind fun node => (node.child name).map value := by
  induction path generalizing tree with
  | nil =>
      rw [List.nil_append, valueAt_cons, subtree, Option.bind_some]
      cases tree.child name <;> rfl
  | cons first rest ih =>
      rw [List.cons_append, valueAt_cons, subtree]
      cases tree.child first with
      | none => rfl
      | some child => exact ih child

/-- Growing makes the nodes on the path and no others. -/
theorem valueAt_growAlong_ne_none_iff (fresh : κ → α) (edit : Bool → α → α)
    (other path : List κ) (tree : Trie κ α) :
    (tree.growAlong fresh edit path).valueAt other ≠ none ↔
      other <+: path ∨ tree.valueAt other ≠ none := by
  by_cases hother : other <+: path
  · obtain ⟨old, hnew, -⟩ := valueAt_growAlong_of_isPrefix fresh edit tree hother
    rw [hnew]
    exact iff_of_true (Option.some_ne_none _) (Or.inl hother)
  · rw [valueAt_growAlong_of_not_isPrefix fresh edit tree hother, or_iff_right hother]

/-- Editing neither makes nor removes a node. -/
theorem valueAt_editAlong_ne_none_iff (edit : Bool → α → α) (other path : List κ)
    (tree : Trie κ α) :
    (tree.editAlong edit path).valueAt other ≠ none ↔ tree.valueAt other ≠ none := by
  rw [valueAt_editAlong]
  split_ifs
  · simp
  · rfl

end Trie

end GEDS
