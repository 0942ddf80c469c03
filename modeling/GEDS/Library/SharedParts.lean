/-
Objects that have parts, which they may share.  `walk` goes from an object through its
parts, and meets a shared part once for each way that leads to it; a sum over a walk counts
it as often.
-/
import Mathlib.Algebra.Order.BigOperators.Group.Finset
import Mathlib.Tactic

namespace GEDS

namespace SharedParts

universe u v

variable {ι : Type u}

/-- The objects that are met from an object, with repetitions, at most `depth` deep. -/
def walk (parts : ι → List ι) : Nat → ι → List ι
  | 0, _ => []
  | depth + 1, object => object :: (parts object).flatMap (walk parts depth)

/-- Parts have a smaller rank, so no object is part of itself. -/
def Ranked (parts : ι → List ι) (rank : ι → Nat) : Prop :=
  ∀ object part, part ∈ parts object → rank part < rank object

variable {parts parts' : ι → List ι} {rank : ι → Nat} {depth : Nat} {object : ι}

section Walk

/-- Once the depth exceeds the rank, going deeper meets nothing else. -/
theorem walk_succ (hranked : Ranked parts rank) (hdepth : rank object < depth) :
    walk parts (depth + 1) object = walk parts depth object := by
  induction depth generalizing object with
  | zero => exact absurd hdepth (Nat.not_lt_zero _)
  | succ depth ih =>
      rw [walk, walk]
      congr 1
      apply List.flatMap_congr
      intro part hpart
      have hsmaller := hranked object part hpart
      exact ih (by omega)

theorem walk_of_le (hranked : Ranked parts rank) {deeper : Nat} (hdepth : rank object < depth)
    (hdeeper : depth ≤ deeper) : walk parts deeper object = walk parts depth object := by
  induction deeper, hdeeper using Nat.le_induction with
  | base => rfl
  | succ deeper hle ih => rw [walk_succ hranked (hdepth.trans_le hle), ih]

/-- Going deeper meets what was met before. -/
theorem walk_sublist_of_le {deeper : Nat} (hdeeper : depth ≤ deeper) :
    (walk parts depth object).Sublist (walk parts deeper object) := by
  induction depth generalizing object deeper with
  | zero => exact List.nil_sublist _
  | succ depth ih =>
      obtain ⟨deeper, rfl⟩ := Nat.exists_eq_add_one_of_ne_zero
        (Nat.ne_of_gt (Nat.lt_of_lt_of_le (Nat.succ_pos depth) hdeeper))
      have hparts : ((parts object).flatMap (walk parts depth)).Sublist
          ((parts object).flatMap (walk parts deeper)) :=
        List.Sublist.flatMap_right _ fun part _ => ih (Nat.le_of_succ_le_succ hdeeper)
      exact hparts.cons_cons object

/-- What holds of an object and passes to parts holds of everything that is met. -/
theorem forall_mem_walk {holds : ι → Prop}
    (hparts : ∀ object part, part ∈ parts object → holds object → holds part)
    (hobject : holds object) : ∀ met ∈ walk parts depth object, holds met := by
  induction depth generalizing object with
  | zero =>
      intro met hmet
      cases hmet
  | succ depth ih =>
      intro met hmet
      rcases List.mem_cons.1 hmet with rfl | hmet
      · exact hobject
      · obtain ⟨part, hpart, hmet⟩ := List.mem_flatMap.1 hmet
        exact ih (hparts object part hpart hobject) met hmet

theorem rank_le_of_mem_walk (hranked : Ranked parts rank) {met : ι}
    (hmet : met ∈ walk parts depth object) : rank met ≤ rank object := by
  have hparts : ∀ whole part, part ∈ parts whole → rank whole ≤ rank object →
      rank part ≤ rank object :=
    fun whole part hpart hwhole => (hranked whole part hpart).le.trans hwhole
  exact forall_mem_walk hparts le_rfl met hmet

/-- A walk depends on the parts of what it meets. -/
theorem walk_congr (hsame : ∀ met ∈ walk parts depth object, parts' met = parts met) :
    walk parts' depth object = walk parts depth object := by
  induction depth generalizing object with
  | zero => rfl
  | succ depth ih =>
      rw [walk, walk, hsame object List.mem_cons_self]
      congr 1
      apply List.flatMap_congr
      intro part hpart
      apply ih
      intro met hmet
      exact hsame met (List.mem_cons_of_mem _ (List.mem_flatMap.2 ⟨part, hpart, hmet⟩))

/-- With fewer parts less is met. -/
theorem walk_sublist (hfewer : ∀ object, (parts' object).Sublist (parts object)) :
    (walk parts' depth object).Sublist (walk parts depth object) := by
  induction depth generalizing object with
  | zero => exact List.Sublist.refl _
  | succ depth ih =>
      have hparts : ((parts' object).flatMap (walk parts' depth)).Sublist
          ((parts object).flatMap (walk parts' depth)) := (hfewer object).flatMap _
      have hwalks : ((parts object).flatMap (walk parts' depth)).Sublist
          ((parts object).flatMap (walk parts depth)) :=
        List.Sublist.flatMap_right _ fun part _ => ih
      exact (hparts.trans hwalks).cons_cons object

end Walk

section Count

variable [DecidableEq ι]

theorem count_flatMap_le {α : Type v} {list : List α} {first second : α → List ι}
    {met owner : ι} {times : Nat} (hle : ∀ x ∈ list,
      (first x).count met ≤ (second x).count met + (second x).count owner * times) :
    (list.flatMap first).count met ≤
      (list.flatMap second).count met + (list.flatMap second).count owner * times := by
  induction list with
  | nil => exact Nat.zero_le _
  | cons head tail ih =>
      have hhead := hle head List.mem_cons_self
      have htail := ih fun x hx => hle x (List.mem_cons_of_mem _ hx)
      rw [List.flatMap_cons, List.flatMap_cons, List.count_append, List.count_append,
        List.count_append, Nat.add_mul]
      omega

/-- One object gets a part, and may lose others: `met` is met from it through that part too,
as often as the object itself is met. -/
theorem count_walk_le_of_added {owner added met : ι}
    (hothers : ∀ object, object ≠ owner → parts' object = parts object)
    {front back : List ι} (howner : parts' owner = front ++ added :: back)
    (hkept : (front ++ back).Sublist (parts owner)) {times : Nat}
    (htimes : ∀ depth, (walk parts' depth added).count met ≤ times) :
    (walk parts' depth object).count met ≤
      (walk parts depth object).count met + (walk parts depth object).count owner * times := by
  induction depth generalizing object with
  | zero => exact Nat.zero_le _
  | succ depth ih =>
      have hwalks := count_flatMap_le fun part (_ : part ∈ parts object) => @ih part
      rw [walk, walk, List.count_cons, List.count_cons, List.count_cons]
      by_cases hobject : object = owner
      · have hadded := htimes depth
        have hrest := (hkept.flatMap (walk parts' depth)).count_le met
        rw [List.flatMap_append, List.count_append] at hrest
        rw [hobject] at hwalks
        rw [hobject, howner, List.flatMap_append, List.flatMap_cons, List.count_append,
          List.count_append, if_pos (beq_self_eq_true owner), Nat.add_mul, Nat.one_mul]
        omega
      · rw [hothers object hobject, if_neg (c := (object == owner) = true)
          (mt eq_of_beq hobject), Nat.add_zero]
        omega

end Count

section Weight

variable [DecidableEq ι]

/-- The weights along a list add up to those of its members exactly if every member with a
weight is there once. -/
theorem sum_eq_sum_dedup_iff (weight : ι → Nat) (list : List ι) :
    (list.map weight).sum = (list.dedup.map weight).sum ↔
      ∀ member, weight member ≠ 0 → list.count member ≤ 1 := by
  have hlist : (list.map weight).sum =
      ∑ member ∈ list.toFinset, list.count member * weight member :=
    Finset.sum_list_map_count list weight
  have hdedup : (list.dedup.map weight).sum = ∑ member ∈ list.toFinset, weight member := by
    have hmembers : list.dedup.toFinset = list.toFinset := by
      ext member
      simp
    rw [← List.sum_toFinset weight list.nodup_dedup, hmembers]
  have hle : ∀ member ∈ list.toFinset, weight member ≤ list.count member * weight member := by
    intro member hmember
    exact Nat.le_mul_of_pos_left _ (List.count_pos_iff.2 (List.mem_toFinset.1 hmember))
  rw [hlist, hdedup, eq_comm, Finset.sum_eq_sum_iff_of_le hle]
  constructor
  · intro hsame member hweight
    by_cases hmember : member ∈ list
    · have heq := hsame member (List.mem_toFinset.2 hmember)
      exact (Nat.eq_of_mul_eq_mul_right (Nat.pos_of_ne_zero hweight)
        (heq.symm.trans (Nat.one_mul _).symm)).le
    · rw [List.count_eq_zero.2 hmember]
      exact Nat.zero_le 1
  · intro honce member hmember
    have hpos := List.count_pos_iff.2 (List.mem_toFinset.1 hmember)
    by_cases hweight : weight member = 0
    · rw [hweight, Nat.mul_zero]
    · rw [Nat.le_antisymm (honce member hweight) hpos, Nat.one_mul]

end Weight

end SharedParts

end GEDS
