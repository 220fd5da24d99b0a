import Mathlib.Algebra.BigOperators.Group.Finset.Basic
import Mathlib.Algebra.GroupWithZero.Nat
import Mathlib.Algebra.Order.BigOperators.Group.Finset

/-!
# Settling claims in priority order

Claim `i` asks for `a i`, and `h` is held.  A claim's share is what the claims before it leave of the
holdings, and no more than it asks for.  Some of the first `m` claims are settled: each of them is
paid its share, and the holdings shrink by what is paid.

* `share`, `paid`           what a claim may have, and what it has when the set `S` is settled;
* `left`, `held`            what it still asks for then, and what is still held;
* `share_left`              **settling does not change the shares of the others**, and leaves none to
                            the settled ones;
* `paid_add`, `left_left`, `held_held`   settling `S` and then `T` is settling their union.
-/

set_option linter.unusedSectionVars false

namespace Priority
variable (a : ℕ → ℕ) (h : ℕ) (S T : ℕ → Prop) [DecidablePred S] [DecidablePred T]

/-- what the claims before `i` ask for -/
def before (i : ℕ) : ℕ := ∑ j ∈ Finset.range i, a j

def share (i : ℕ) : ℕ := min (a i) (h - before a i)

def paid (i : ℕ) : ℕ := if S i then share a h i else 0

def left (i : ℕ) : ℕ := a i - paid a h S i

def held (m : ℕ) : ℕ := h - before (paid a h S) m

variable {a h S T} {i m : ℕ}

theorem before_succ (a : ℕ → ℕ) (i : ℕ) : before a (i + 1) = before a i + a i :=
  Finset.sum_range_succ a i

theorem sum_range_map (a : ℕ → ℕ) (i : ℕ) : ((List.range i).map a).sum = before a i := by
  induction i with
  | zero => rfl
  | succ i ih => rw [before_succ, List.range_succ, List.map_append, List.sum_append, ih,
      List.map_singleton, List.sum_singleton]

theorem before_mono {b : ℕ → ℕ} (hab : ∀ j < i, a j ≤ b j) : before a i ≤ before b i :=
  Finset.sum_le_sum fun j hj => hab j (Finset.mem_range.1 hj)

theorem before_le (a : ℕ → ℕ) (hi : i ≤ m) : before a i ≤ before a m :=
  Finset.sum_le_sum_of_subset (Finset.range_mono hi)

theorem paid_le_share (i : ℕ) : paid a h S i ≤ share a h i := by
  unfold paid
  split
  · exact le_rfl
  · exact Nat.zero_le _

theorem paid_le (i : ℕ) : paid a h S i ≤ a i :=
  (paid_le_share i).trans (Nat.min_le_left _ _)

theorem before_share (a : ℕ → ℕ) (h i : ℕ) : before (share a h) i = min h (before a i) := by
  induction i with
  | zero => exact (Nat.min_zero h).symm
  | succ i ih =>
    rw [before_succ, before_succ, ih, share]
    omega

theorem before_left (i : ℕ) : before (left a h S) i + before (paid a h S) i = before a i := by
  induction i with
  | zero => rfl
  | succ i ih =>
    have hle : paid a h S i ≤ a i := paid_le i
    rw [before_succ, before_succ, before_succ, left]
    omega

theorem paid_between (hi : i ≤ m) :
    before (paid a h S) m + min h (before a i) ≤
      before (paid a h S) i + min h (before a m) := by
  induction m, hi using Nat.le_induction with
  | base => exact le_rfl
  | succ m hi ih =>
    have hpaid : paid a h S m ≤ share a h m := paid_le_share m
    unfold share at hpaid
    rw [before_succ, before_succ]
    omega

/-- **settling does not change the shares of the others**, and leaves none to the settled ones -/
theorem share_left (hi : i < m) :
    share (left a h S) (held a h S m) i = if S i then 0 else share a h i := by
  have hlater : before (paid a h S) m + min h (before a (i + 1)) ≤
      before (paid a h S) (i + 1) + min h (before a m) := paid_between hi
  have hsplit : before (left a h S) i + before (paid a h S) i = before a i := before_left i
  have hpaid : before (paid a h S) i ≤ before (share a h) i :=
    before_mono fun j _ => paid_le_share j
  have hmore : before (paid a h S) (i + 1) ≤ before (paid a h S) m := before_le _ hi
  rw [before_share] at hpaid
  rw [before_succ, before_succ] at hlater
  rw [before_succ] at hmore
  unfold share held
  by_cases hS : S i
  · have hshare : paid a h S i = min (a i) (h - before a i) := if_pos hS
    rw [if_pos hS, left]
    omega
  · have hnone : paid a h S i = 0 := if_neg hS
    rw [if_neg hS, left]
    omega

/-- settling `S` and then `T` pays what settling both pays -/
theorem paid_add (hi : i < m) :
    paid a h S i + paid (left a h S) (held a h S m) T i = paid a h (fun j => S j ∨ T j) i := by
  have hshare := share_left (a := a) (h := h) (S := S) hi
  unfold paid
  rw [hshare]
  by_cases hS : S i
  · by_cases hT : T i
    · simp [hS, hT]
    · simp [hS, hT]
  · by_cases hT : T i
    · simp [hS, hT]
    · simp [hS, hT]

theorem left_left (hi : i < m) :
    left (left a h S) (held a h S m) T i = left a h (fun j => S j ∨ T j) i := by
  have hsum := paid_add (a := a) (h := h) (S := S) (T := T) hi
  unfold left at hsum ⊢
  omega

theorem held_held (m : ℕ) :
    held (left a h S) (held a h S m) T m = held a h (fun j => S j ∨ T j) m := by
  have hsum : before (paid a h S) m + before (paid (left a h S) (held a h S m) T) m =
      before (paid a h (fun j => S j ∨ T j)) m := by
    unfold before
    rw [← Finset.sum_add_distrib]
    exact Finset.sum_congr rfl fun j hj => paid_add (Finset.mem_range.1 hj)
  unfold held at hsum ⊢
  omega

end Priority
