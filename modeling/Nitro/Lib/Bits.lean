import Mathlib.Data.List.Basic
import Mathlib.Data.Nat.Bitwise

/-!
# The set bits of a number

* `ones w n`              the positions below `w` of the set bits of `n`, in increasing order;
* `ones_succ`             the lowest bit, and then the bits of the half;
* `length_ones_clear`     **`n &&& (n - 1)` has one bit less**.
-/

namespace Bits

def ones (w n : Nat) : List Nat := (List.range w).filter n.testBit

theorem mem_ones {w n p : Nat} : p ∈ ones w n ↔ p < w ∧ n.testBit p = true := by
  unfold ones
  rw [List.mem_filter, List.mem_range]

theorem ones_sorted (w n : Nat) : (ones w n).Pairwise (· < ·) :=
  List.pairwise_lt_range.filter _

theorem length_ones_le (w n : Nat) : (ones w n).length ≤ w := by
  have h := List.length_filter_le n.testBit (List.range w)
  rwa [List.length_range] at h

@[simp] theorem ones_zero (w : Nat) : ones w 0 = [] := by
  simp [ones]

theorem ones_succ (w n : Nat) :
    ones (w + 1) n = (if n % 2 = 1 then [0] else []) ++ (ones w (n / 2)).map (· + 1) := by
  unfold ones
  rw [List.range_succ_eq_map, List.filter_cons, List.filter_map]
  have htail : (n.testBit ∘ Nat.succ) = (n / 2).testBit := by
    funext p
    exact Nat.testBit_add_one n p
  rw [htail, Nat.testBit_zero]
  by_cases h : n % 2 = 1
  · simp [h]
  · simp [h]

theorem ones_eq_filter {w i n : Nat} {f : Nat → Bool} (hi : i ≤ w)
    (h : ∀ p, n.testBit p = (decide (p < i) && f p)) : ones w n = (List.range i).filter f := by
  obtain ⟨d, rfl⟩ : ∃ d, w = i + d := ⟨w - i, by omega⟩
  unfold ones
  rw [List.range_add, List.filter_append]
  have hlow : (List.range i).filter n.testBit = (List.range i).filter f := by
    refine List.filter_congr fun p hp => ?_
    rw [h, decide_eq_true (List.mem_range.1 hp), Bool.true_and]
  have hhigh : ((List.range d).map (i + ·)).filter n.testBit = [] := by
    refine List.filter_eq_nil_iff.2 fun p hp => ?_
    obtain ⟨q, -, rfl⟩ := List.mem_map.1 hp
    rw [h, decide_eq_false (by omega), Bool.false_and]
    exact Bool.false_ne_true
  rw [hlow, hhigh, List.append_nil]

theorem ones_two_pow_sub_one {w n : Nat} (h : n ≤ w) : ones w (2 ^ n - 1) = List.range n := by
  have hbits : ∀ p, (2 ^ n - 1).testBit p = (decide (p < n) && true) := by
    intro p
    rw [Nat.testBit_two_pow_sub_one, Bool.and_true]
  rw [ones_eq_filter h hbits, List.filter_true]

/-- clearing the lowest set bit, at the lowest position and above it -/
theorem land_pred_odd (m : Nat) : (2 * m + 1) &&& (2 * m + 1 - 1) = 2 * m := by
  apply Nat.eq_of_testBit_eq
  intro p
  rw [Nat.testBit_and, Nat.add_sub_cancel]
  cases p with
  | zero => simp
  | succ p =>
    rw [Nat.testBit_add_one, Nat.testBit_add_one, show (2 * m + 1) / 2 = 2 * m / 2 by omega,
      Bool.and_self]

theorem land_pred_even {m : Nat} (h : 0 < m) : (2 * m) &&& (2 * m - 1) = 2 * (m &&& (m - 1)) := by
  apply Nat.eq_of_testBit_eq
  intro p
  rw [Nat.testBit_and]
  cases p with
  | zero => simp
  | succ p =>
    rw [Nat.testBit_add_one, Nat.testBit_add_one, Nat.testBit_add_one,
      show 2 * m / 2 = m by omega, show (2 * m - 1) / 2 = m - 1 by omega,
      show 2 * (m &&& (m - 1)) / 2 = m &&& (m - 1) by omega, Nat.testBit_and]

theorem length_ones_clear {w n : Nat} (hpos : 0 < n) (hlt : n < 2 ^ w) :
    (ones w (n &&& (n - 1))).length + 1 = (ones w n).length := by
  induction w generalizing n with
  | zero =>
    rw [Nat.pow_zero] at hlt
    omega
  | succ w ih =>
    rw [Nat.pow_succ] at hlt
    obtain ⟨m, hm⟩ : ∃ m, n = 2 * m ∨ n = 2 * m + 1 := ⟨n / 2, by omega⟩
    rcases hm with rfl | rfl
    · rw [land_pred_even (by omega), ones_succ, ones_succ, Nat.mul_div_cancel_left _ (by omega),
        Nat.mul_div_cancel_left _ (by omega), Nat.mul_mod_right, Nat.mul_mod_right]
      simpa using ih (n := m) (by omega) (by omega)
    · rw [land_pred_odd, ones_succ, ones_succ, Nat.mul_div_cancel_left _ (by omega),
        show (2 * m + 1) / 2 = m by omega, show (2 * m + 1) % 2 = 1 by omega, Nat.mul_mod_right]
      simp

end Bits
