/-
Calls that wait for calls.  If the rank rises from each call to the one that it waits
for, and each makes a bounded number of steps of its own, then only so many steps can be
made, whatever the answers are.
-/
import Mathlib.Algebra.Order.Ring.Nat
import Mathlib.Data.List.Chain
import Mathlib.Tactic.Linarith

namespace GEDS

/-- A call under way, with a bound for the steps of its own that it has before it. -/
structure PendingCall where
  rank : Nat
  steps : Nat

namespace PendingCall

variable {base bound : Nat}

/-- One step of calls that wait for each other, the innermost one first. -/
inductive Step (base bound : Nat) : List PendingCall → List PendingCall → Prop where
  | proceed {rank steps fewer : Nat} {rest : List PendingCall} (hfewer : fewer < steps) :
      Step base bound (⟨rank, steps⟩ :: rest) (⟨rank, fewer⟩ :: rest)
  | call {rank steps fewer : Nat} {inner : PendingCall} {rest : List PendingCall}
      (hfewer : fewer < steps) (hrises : rank < inner.rank) (hbound : inner.rank ≤ bound)
      (hbase : inner.steps < base) :
      Step base bound (⟨rank, steps⟩ :: rest) (inner :: ⟨rank, fewer⟩ :: rest)
  | answer {rank steps fewer : Nat} {inner : PendingCall} {rest : List PendingCall}
      (hfewer : fewer < steps) :
      Step base bound (inner :: ⟨rank, steps⟩ :: rest) (⟨rank, fewer⟩ :: rest)
  | finish {call : PendingCall} (hsteps : 0 < call.steps) : Step base bound [call] []

/-- How many steps are left at most: each step of a call may be worth a call of a higher
rank. -/
def cost (base bound : Nat) : List PendingCall → Nat
  | [] => 0
  | call :: rest => call.steps * base ^ (bound - call.rank) + cost base bound rest

theorem Step.cost_lt (hbase : 0 < base) {calls after : List PendingCall}
    (hstep : Step base bound calls after) : cost base bound after < cost base bound calls := by
  have hpow : ∀ rank, 0 < base ^ (bound - rank) := fun rank => Nat.pow_pos hbase
  cases hstep with
  | @proceed rank steps fewer rest hfewer =>
      have hless := Nat.mul_lt_mul_of_pos_right hfewer (hpow rank)
      simp only [cost]
      omega
  | @call rank steps fewer inner rest hfewer hrises hbound hinner =>
      have hpays : inner.steps * base ^ (bound - inner.rank) < base ^ (bound - rank) :=
        calc inner.steps * base ^ (bound - inner.rank)
            < base * base ^ (bound - inner.rank) :=
              Nat.mul_lt_mul_of_pos_right hinner (hpow inner.rank)
          _ = base ^ (bound - inner.rank + 1) := by rw [pow_succ, mul_comm]
          _ ≤ base ^ (bound - rank) := Nat.pow_le_pow_right hbase (by omega)
      have hless := Nat.mul_le_mul_right (base ^ (bound - rank)) (Nat.succ_le_of_lt hfewer)
      rw [Nat.succ_mul] at hless
      simp only [cost]
      omega
  | @answer rank steps fewer inner rest hfewer =>
      have hless := Nat.mul_lt_mul_of_pos_right hfewer (hpow rank)
      simp only [cost]
      omega
  | @finish call hsteps =>
      simpa only [cost, Nat.add_zero] using Nat.mul_pos hsteps (hpow call.rank)

/-- As long as one of the calls is under way, no more steps were made than they cost. -/
theorem steps_le (hbase : 0 < base) (calls : Nat → List PendingCall)
    (hstep : ∀ k, calls k ≠ [] → Step base bound (calls k) (calls (k + 1))) {count : Nat}
    (hgoes : ∀ k < count, calls k ≠ []) :
    cost base bound (calls count) + count ≤ cost base bound (calls 0) := by
  induction count with
  | zero => exact le_rfl
  | succ count ih =>
      have hless := (hstep count (hgoes count (Nat.lt_succ_self count))).cost_lt hbase
      have hbefore := ih fun k hk => hgoes k (Nat.lt_succ_of_lt hk)
      omega

/-- Ranks that rise under a bound are not many. -/
theorem length_le_of_rising {ranks : List Nat} (hrises : ranks.IsChain (· > ·))
    (hbound : ∀ rank ∈ ranks, rank ≤ bound) : ranks.length ≤ bound + 1 := by
  have hhead : ∀ (ranks : List Nat) (rank : Nat), (rank :: ranks).IsChain (· > ·) →
      ranks.length ≤ rank := by
    intro ranks
    induction ranks with
    | nil => simp
    | cons next rest ih =>
        intro rank hchain
        obtain ⟨hlt, hrest⟩ := List.isChain_cons_cons.1 hchain
        have hnext := ih next hrest
        simp only [List.length_cons]
        omega
  cases ranks with
  | nil => simp
  | cons rank rest =>
      have hrest := hhead rest rank hrises
      have hrank := hbound rank List.mem_cons_self
      simp only [List.length_cons]
      omega

end PendingCall

end GEDS
