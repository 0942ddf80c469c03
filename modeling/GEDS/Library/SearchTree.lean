/-
Sets kept in a search tree by a comparison that nothing checks.  A value goes down by the
comparison alone and is compared with its predecessor only, so the set is what it should be
exactly as far as the comparison is a strict weak order on the values that are put in.
-/
import Mathlib.Data.List.Pairwise
import Mathlib.Order.Defs.Unbundled
import Mathlib.Tactic

namespace GEDS

universe u v

/-- A tree whose nodes carry what the balancing needs, such as a colour. -/
inductive SearchTree (β : Type v) (α : Type u) where
  | leaf
  | node (left : SearchTree β α) (value : α) (balance : β) (right : SearchTree β α)

variable {β : Type v} {α : Type u}

/-- The values from left to right. -/
def SearchTree.toList : SearchTree β α → List α
  | leaf => []
  | node left value _ right => left.toList ++ value :: right.toList

/-- How a tree is balanced behind an insertion: the values keep their order. -/
structure Balancing (β : Type v) (α : Type u) where
  fresh : β
  rebalance : SearchTree β α → SearchTree β α
  toList_rebalance : ∀ tree, (rebalance tree).toList = tree.toList

/-- On `values` the comparison is a strict weak order, and its equivalence is `same`. -/
structure Ranks (less same : α → α → Bool) (values : List α) : Prop where
  order : IsStrictWeakOrder {value // value ∈ values} fun value other => less value other = true
  same_iff : ∀ value ∈ values, ∀ other ∈ values,
    same value other = true ↔ less value other = false ∧ less other value = false

/-- `listed` has every value of `values` in one copy, and nothing else. -/
structure EachOnce (same : α → α → Bool) (values listed : List α) : Prop where
  once : ∀ value ∈ values, listed.countP (same value) = 1
  only : ∀ value ∈ listed, value ∈ values

namespace SearchTree

variable (less : α → α → Bool)

/-- Where a value goes below a node, with its predecessor so far; `none` if the comparison
does not tell the predecessor from it. -/
def place (fresh : β) (value : α) : SearchTree β α → Option α → Option (SearchTree β α)
  | leaf, none => some (node leaf value fresh leaf)
  | leaf, some before =>
      if less before value then some (node leaf value fresh leaf) else none
  | node left here balance right, before =>
      if less value here then
        (place fresh value left before).map fun placed => node placed here balance right
      else
        (place fresh value right (some here)).map fun placed => node left here balance placed

def emplace (balancing : Balancing β α) (tree : SearchTree β α) (value : α) : SearchTree β α :=
  match place less balancing.fresh value tree none with
  | none => tree
  | some placed => balancing.rebalance placed

def emplaceAll (balancing : Balancing β α) (tree : SearchTree β α) (values : List α) :
    SearchTree β α :=
  values.foldl (emplace less balancing) tree

/-- How many values stand before the iterator that `lower_bound` returns.  The descent asks
`below` of the values on its way only. -/
def lowerBound (below : α → Bool) : SearchTree β α → Nat
  | leaf => 0
  | node left here _ right =>
      if below here then left.toList.length + 1 + lowerBound below right
      else lowerBound below left

/-- How many stand before the one of `upper_bound`. -/
def upperBound (above : α → Bool) (tree : SearchTree β α) : Nat :=
  lowerBound (fun value => !above value) tree

/-- What a descent finds, with any comparison: a cut of the values between a predecessor that
is not above the value and a successor that is, and the one comparison that decides. -/
theorem place_spec (fresh : β) (value : α) (tree : SearchTree β α) (before : Option α) :
    ∃ front back, tree.toList = front ++ back ∧
      (∀ next ∈ back.head?, less value next = true) ∧
      (∀ last ∈ front.getLast?, less value last = false) ∧
      ((place less fresh value tree before = none ∧
          ∃ last ∈ front.getLast?.or before, less last value = false) ∨
        ∃ placed, place less fresh value tree before = some placed ∧
          placed.toList = front ++ value :: back ∧
          ∀ last ∈ front.getLast?.or before, less last value = true) := by
  induction tree generalizing before with
  | leaf =>
      refine ⟨[], [], rfl, by simp, by simp, ?_⟩
      cases before with
      | none => exact Or.inr ⟨node leaf value fresh leaf, rfl, rfl, by simp⟩
      | some last =>
          by_cases hless : less last value = true
          · exact Or.inr ⟨node leaf value fresh leaf, by simp [place, hless], rfl, by simp [hless]⟩
          · exact Or.inl ⟨by simp [place, hless], last, by simp, by simpa using hless⟩
  | node left here balance right ihLeft ihRight =>
      by_cases hless : less value here = true
      · obtain ⟨front, back, hcut, hnext, hlast, hplaced⟩ := ihLeft before
        refine ⟨front, back ++ here :: right.toList, by simp [toList, hcut], ?_, hlast, ?_⟩
        · intro next hmem
          cases back with
          | nil =>
              have hhere : here = next := by simpa using hmem
              exact hhere ▸ hless
          | cons head tail => exact hnext next (by simpa using hmem)
        · rcases hplaced with ⟨hnone, hfound⟩ | ⟨placed, hsome, hlist, hdecides⟩
          · exact Or.inl ⟨by simp [place, hless, hnone], hfound⟩
          · exact Or.inr ⟨node placed here balance right, by simp [place, hless, hsome],
              by simp [toList, hlist], hdecides⟩
      · obtain ⟨front, back, hcut, hnext, hlast, hplaced⟩ := ihRight (some here)
        have hbefore : (left.toList ++ here :: front).getLast?.or before =
            front.getLast?.or (some here) := by
          rw [List.getLast?_append, List.getLast?_cons]
          cases front.getLast? <;> rfl
        refine ⟨left.toList ++ here :: front, back, by simp [toList, hcut], hnext, ?_, ?_⟩
        · intro last hmem
          have hmem' : last ∈ front.getLast?.or (some here) := by
            rw [← hbefore]
            simp [Option.mem_def.1 hmem]
          cases hfinal : front.getLast? with
          | none =>
              have hhere : here = last := by simpa [hfinal] using hmem'
              exact hhere ▸ by simpa using hless
          | some final => exact hlast last (by simpa [hfinal] using hmem')
        · rw [hbefore]
          rcases hplaced with ⟨hnone, hfound⟩ | ⟨placed, hsome, hlist, hdecides⟩
          · exact Or.inl ⟨by simp [place, hless, hnone], hfound⟩
          · exact Or.inr ⟨node left here balance placed, by simp [place, hless, hsome],
              by simp [toList, hlist], hdecides⟩

/-- Where the values that are `below` come first, the descent ends behind the last of them, in a
tree of any shape. -/
theorem lowerBound_of_cut {below : α → Bool} {tree : SearchTree β α} {front back : List α}
    (hcut : tree.toList = front ++ back) (hfront : ∀ value ∈ front, below value = true)
    (hback : ∀ value ∈ back, below value = false) : tree.lowerBound below = front.length := by
  induction tree generalizing front back with
  | leaf =>
      obtain ⟨rfl, -⟩ := List.append_eq_nil_iff.1 hcut.symm
      rfl
  | node left here balance right ihLeft ihRight =>
      rw [toList] at hcut
      rw [lowerBound]
      rcases List.append_eq_append_iff.1 hcut with ⟨rest, hmiddle, hrest⟩ | ⟨rest, hleft, hmiddle⟩
      · cases rest with
        | nil =>
            obtain rfl : front = left.toList := by rw [hmiddle, List.append_nil]
            obtain rfl : here :: right.toList = back := hrest
            have hhere : below here = false := hback here List.mem_cons_self
            rw [hhere, if_neg Bool.false_ne_true]
            exact ihLeft (List.append_nil _).symm hfront (by simp)
        | cons head tail =>
            obtain ⟨rfl, hright⟩ := List.cons_eq_cons.1 hrest
            have hhere : below here = true := hfront here (by simp [hmiddle])
            rw [hhere, if_pos rfl, ihRight hright (fun value hvalue => hfront value
              (by simp [hmiddle, hvalue])) hback, hmiddle, List.length_append, List.length_cons]
            omega
      · have hhere : below here = false := hback here (by simp [hmiddle])
        rw [hhere, if_neg Bool.false_ne_true]
        exact ihLeft hleft hfront fun value hvalue => hback value (by simp [hmiddle, hvalue])

end SearchTree

namespace Ranks

variable {less same : α → α → Bool} {values : List α} (hranks : Ranks less same values)

include hranks

theorem irrefl {value : α} (hvalue : value ∈ values) : less value value = false := by
  simpa using hranks.order.irrefl ⟨value, hvalue⟩

theorem trans {first second third : α} (hfirst : first ∈ values) (hsecond : second ∈ values)
    (hthird : third ∈ values) (hless : less first second = true)
    (hless' : less second third = true) : less first third = true := by
  exact hranks.order.trans ⟨first, hfirst⟩ ⟨second, hsecond⟩ ⟨third, hthird⟩ hless hless'

theorem asymm {value other : α} (hvalue : value ∈ values) (hother : other ∈ values)
    (hless : less value other = true) : less other value = false := by
  by_contra hback
  have hself := hranks.trans hvalue hother hvalue hless (by simpa using hback)
  simp [hranks.irrefl hvalue] at hself

/-- Of values in order at most one is the same as a given one. -/
theorem countP_same_le {value : α} (hvalue : value ∈ values) {listed : List α}
    (hlisted : ∀ other ∈ listed, other ∈ values)
    (hsorted : listed.Pairwise fun first second => less first second = true) :
    listed.countP (same value) ≤ 1 := by
  induction listed with
  | nil => simp
  | cons head tail ih =>
      obtain ⟨hhead, htail⟩ := List.forall_mem_cons.1 hlisted
      rw [List.pairwise_cons] at hsorted
      rw [List.countP_cons]
      by_cases hsame : same value head = true
      · have hnone : tail.countP (same value) = 0 := by
          rw [List.countP_eq_zero]
          intro other hother hsame'
          have hleft := (hranks.same_iff value hvalue head hhead).1 hsame
          have hright := (hranks.same_iff value hvalue other (htail other hother)).1 hsame'
          have hincomp := hranks.order.incomp_trans ⟨head, hhead⟩ ⟨value, hvalue⟩
            ⟨other, htail other hother⟩ (by simp [hleft]) (by simp [hright])
          exact hincomp.1 (hsorted.1 other hother)
        simp [hnone, hsame]
      · simpa [hsame] using ih htail hsorted.2

/-- In values in order, what is above the last one is above all of them. -/
theorem below_of_getLast {front : List α} (hfront : ∀ other ∈ front, other ∈ values)
    (hsorted : front.Pairwise fun first second => less first second = true) {value : α}
    (hvalue : value ∈ values) (hlast : ∀ last ∈ front.getLast?, less last value = true) :
    ∀ other ∈ front, less other value = true := by
  intro other hother
  cases front using List.reverseRecOn with
  | nil => simp at hother
  | append_singleton init final =>
      have hfinal : less final value = true := hlast final (by simp)
      rcases List.mem_append.1 hother with hinit | hend
      · have hstep := (List.pairwise_append.1 hsorted).2.2 other hinit final (by simp)
        exact hranks.trans (hfront other hother) (hfront final (by simp)) hvalue hstep hfinal
      · rw [List.mem_singleton] at hend
        exact hend ▸ hfinal

theorem above_of_head {back : List α} (hback : ∀ other ∈ back, other ∈ values)
    (hsorted : back.Pairwise fun first second => less first second = true) {value : α}
    (hvalue : value ∈ values) (hnext : ∀ next ∈ back.head?, less value next = true) :
    ∀ other ∈ back, less value other = true := by
  intro other hother
  cases back with
  | nil => simp at hother
  | cons head tail =>
      have hhead : less value head = true := hnext head (by simp)
      rcases List.mem_cons.1 hother with rfl | htail
      · exact hhead
      · exact hranks.trans hvalue (hback head (by simp)) (hback other hother) hhead
          ((List.pairwise_cons.1 hsorted).1 other htail)

end Ranks

namespace SearchTree

variable {less same : α → α → Bool}

/-- The tree is the set of the values: in order, each of them represented, and nothing else. -/
structure Holds (less same : α → α → Bool) (values : List α) (tree : SearchTree β α) : Prop where
  sorted : tree.toList.Pairwise fun first second => less first second = true
  covers : ∀ value ∈ values, ∃ kept ∈ tree.toList, same value kept = true
  only : ∀ value ∈ tree.toList, value ∈ values

theorem holds_leaf : Holds less same [] (leaf : SearchTree β α) :=
  ⟨by simp [toList], by simp, by simp [toList]⟩

/-- A value that is the same as one in the tree. -/
theorem Holds.represented {inserted : List α} {tree : SearchTree β α} {value kept : α}
    (hholds : Holds less same inserted tree) (hkept : kept ∈ tree.toList)
    (hsame : same value kept = true) : Holds less same (inserted ++ [value]) tree := by
  refine ⟨hholds.sorted, fun other hother => ?_,
    fun other hother => List.mem_append_left _ (hholds.only other hother)⟩
  rcases List.mem_append.1 hother with hold | hnew
  · exact hholds.covers other hold
  · rw [List.mem_singleton] at hnew
    exact ⟨kept, hkept, hnew ▸ hsame⟩

/-- A value that goes between the others. -/
theorem Holds.between {inserted front back : List α} {tree placed : SearchTree β α} {value : α}
    (hholds : Holds less same inserted tree) (hcut : tree.toList = front ++ back)
    (hplaced : placed.toList = front ++ value :: back) (hself : same value value = true)
    (hbelow : ∀ other ∈ front, less other value = true)
    (habove : ∀ other ∈ back, less value other = true) :
    Holds less same (inserted ++ [value]) placed := by
  have hsorted := hholds.sorted
  rw [hcut, List.pairwise_append] at hsorted
  obtain ⟨hfront, hback, hcross⟩ := hsorted
  refine ⟨?_, fun other hother => ?_, fun other hother => ?_⟩
  · rw [hplaced, List.pairwise_append, List.pairwise_cons]
    refine ⟨hfront, ⟨habove, hback⟩, ?_⟩
    intro first hfirst second hsecond
    rcases List.mem_cons.1 hsecond with rfl | htail
    · exact hbelow first hfirst
    · exact hcross first hfirst second htail
  · rw [hplaced]
    rcases List.mem_append.1 hother with hold | hnew
    · obtain ⟨kept, hkept, hsame⟩ := hholds.covers other hold
      rw [hcut] at hkept
      refine ⟨kept, ?_, hsame⟩
      rcases List.mem_append.1 hkept with hleft | hright
      · exact List.mem_append_left _ hleft
      · exact List.mem_append_right _ (List.mem_cons_of_mem value hright)
    · rw [List.mem_singleton] at hnew
      exact ⟨value, by simp, hnew ▸ hself⟩
  · rw [hplaced] at hother
    have hold : ∀ kept ∈ front ++ back, kept ∈ inserted := fun kept hkept =>
      hholds.only kept (hcut ▸ hkept)
    rcases List.mem_append.1 hother with hleft | hright
    · exact List.mem_append_left _ (hold other (List.mem_append_left _ hleft))
    · rcases List.mem_cons.1 hright with rfl | hright
      · exact List.mem_append_right _ (List.mem_singleton_self other)
      · exact List.mem_append_left _ (hold other (List.mem_append_right _ hright))

/-- One value more, in a tree of values that the comparison ranks. -/
theorem Holds.emplace {values inserted : List α} {tree : SearchTree β α} {value : α}
    (hranks : Ranks less same values) (hinserted : ∀ other ∈ inserted, other ∈ values)
    (hvalue : value ∈ values) (hholds : Holds less same inserted tree)
    (balancing : Balancing β α) :
    Holds less same (inserted ++ [value]) (tree.emplace less balancing value) := by
  have hmem : ∀ other ∈ tree.toList, other ∈ values := fun other hother =>
    hinserted other (hholds.only other hother)
  obtain ⟨front, back, hcut, hnext, hlast, hplaced⟩ :=
    place_spec less balancing.fresh value tree none
  simp only [Option.or_none] at hplaced
  rcases hplaced with ⟨hnone, last, hlastMem, hfound⟩ | ⟨placed, hsome, hlist, hdecides⟩
  · -- the predecessor is the same value
    have hkept : last ∈ tree.toList := by
      rw [hcut]
      exact List.mem_append_left _ (List.mem_of_getLast? hlastMem)
    have hsame : same value last = true :=
      (hranks.same_iff value hvalue last (hmem last hkept)).2 ⟨hlast last hlastMem, hfound⟩
    have htree : tree.emplace less balancing value = tree := by
      simp [SearchTree.emplace, hnone]
    rw [htree]
    exact hholds.represented hkept hsame
  · have htree : (tree.emplace less balancing value).toList = front ++ value :: back := by
      simp [SearchTree.emplace, hsome, balancing.toList_rebalance, hlist]
    have hself : same value value = true := by
      rw [hranks.same_iff value hvalue value hvalue]
      exact ⟨hranks.irrefl hvalue, hranks.irrefl hvalue⟩
    have hsorted := hholds.sorted
    rw [hcut, List.pairwise_append] at hsorted
    obtain ⟨hfront, hback, -⟩ := hsorted
    rw [hcut] at hmem
    apply hholds.between hcut htree hself
    · apply hranks.below_of_getLast _ hfront hvalue hdecides
      exact fun other hother => hmem other (List.mem_append_left _ hother)
    · apply hranks.above_of_head _ hback hvalue hnext
      exact fun other hother => hmem other (List.mem_append_right _ hother)

theorem Holds.emplaceAll {values inserted : List α} {tree : SearchTree β α}
    (hranks : Ranks less same values) (hinserted : ∀ other ∈ inserted, other ∈ values)
    (hholds : Holds less same inserted tree) (balancing : Balancing β α) {added : List α}
    (hadded : ∀ value ∈ added, value ∈ values) :
    Holds less same (inserted ++ added) (tree.emplaceAll less balancing added) := by
  induction added generalizing inserted tree with
  | nil => simpa [SearchTree.emplaceAll] using hholds
  | cons value added ih =>
      obtain ⟨hvalue, hadded⟩ := List.forall_mem_cons.1 hadded
      have hnext := ih
        (by simpa [or_imp, forall_and] using ⟨hinserted, hvalue⟩)
        (hholds.emplace hranks hinserted hvalue balancing) hadded
      simpa [SearchTree.emplaceAll] using hnext

/-- Whatever the order of insertion and the balancing, a comparison that ranks the values gives
the set of them. -/
theorem eachOnce_emplaceAll {values : List α} (hranks : Ranks less same values)
    (balancing : Balancing β α) {added : List α} (hadded : added.Perm values) :
    EachOnce same values ((leaf : SearchTree β α).emplaceAll less balancing added).toList := by
  have hmem : ∀ value ∈ added, value ∈ values := fun value hvalue => hadded.mem_iff.1 hvalue
  have hholds := holds_leaf.emplaceAll (β := β) hranks (by simp) balancing hmem
  rw [List.nil_append] at hholds
  have honly : ∀ value ∈ ((leaf : SearchTree β α).emplaceAll less balancing added).toList,
      value ∈ values := fun value hvalue => hmem value (hholds.only value hvalue)
  refine ⟨fun value hvalue => ?_, honly⟩
  obtain ⟨kept, hkept, hsame⟩ := hholds.covers value (hadded.mem_iff.2 hvalue)
  have hone := hranks.countP_same_le hvalue honly hholds.sorted
  have hsome := List.countP_pos_iff.2 ⟨kept, hkept, hsame⟩
  omega

end SearchTree

end GEDS
