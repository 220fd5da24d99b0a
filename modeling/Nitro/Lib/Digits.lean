import Mathlib.Data.Nat.Basic
import Mathlib.Data.List.Lex
import Mathlib.Tactic.Ring

/-!
# Numbers written with a fixed number of digits

`digits b n x` are the last `n` digits of `x` in base `b`, the most significant first.

* `digits_succ`       the first digit and the others;
* `digits_add`        the first digits and the last ones;
* `foldl_digits`      reading the digits gives back the number;
* `digits_foldl`      writing what was read gives back the digits;
* `digits_lt_iff`     the order of the digits is the order of the numbers.
-/

set_option linter.unusedSectionVars false

namespace Digits

def digits (b n x : Nat) : List Nat := (List.range n).map fun i => x / b ^ (n - 1 - i) % b

theorem digits_succ (b n x : Nat) : digits b (n + 1) x = x / b ^ n % b :: digits b n x := by
  unfold digits
  rw [List.range_succ_eq_map, List.map_cons, List.map_map]
  refine congrArg (List.cons _) (List.map_congr_left fun i _ => ?_)
  show x / b ^ (n + 1 - 1 - (i + 1)) % b = x / b ^ (n - 1 - i) % b
  rw [show n + 1 - 1 - (i + 1) = n - 1 - i by omega]

@[simp] theorem length_digits (b n x : Nat) : (digits b n x).length = n := by
  simp [digits]

theorem lt_of_mem_digits {b n x d : Nat} (hb : 0 < b) (h : d ∈ digits b n x) : d < b := by
  obtain ⟨i, -, rfl⟩ := List.mem_map.1 h
  exact Nat.mod_lt _ hb

/-- the first `m` digits are those of the quotient, and the others look at the remainder only -/
theorem digits_add (b m n x : Nat) :
    digits b (m + n) x = digits b m (x / b ^ n) ++ digits b n x := by
  induction m with
  | zero => rw [Nat.zero_add]; rfl
  | succ m ih =>
    rw [Nat.succ_add, digits_succ, digits_succ, ih, Nat.div_div_eq_div_mul, ← Nat.pow_add,
      Nat.add_comm n m]
    rfl

theorem digits_mod (b n x : Nat) : digits b n (x % b ^ n) = digits b n x := by
  refine List.map_congr_left fun i hi => ?_
  have hlt := List.mem_range.1 hi
  have hpow : b ^ n = b ^ (n - 1 - i) * b ^ (i + 1) := by
    rw [← Nat.pow_add, show n - 1 - i + (i + 1) = n by omega]
  have hdvd : b ∣ b ^ (i + 1) := ⟨b ^ i, by rw [Nat.pow_succ, Nat.mul_comm]⟩
  rw [hpow, Nat.mod_mul_right_div_self, Nat.mod_mod_of_dvd _ hdvd]

theorem digits_zero (b n : Nat) : digits b n 0 = List.replicate n 0 := by
  unfold digits
  rw [List.map_congr_left fun i _ => show 0 / b ^ (n - 1 - i) % b = 0 by simp, List.map_const',
    List.length_range]

/-- **reading the digits** after those of `a` -/
theorem foldl_digits (b n x a : Nat) :
    (digits b n x).foldl (fun a d => a * b + d) a = a * b ^ n + x % b ^ n := by
  induction n generalizing a with
  | zero =>
    show a = a * b ^ 0 + x % b ^ 0
    rw [Nat.pow_zero, Nat.mul_one, Nat.mod_one, Nat.add_zero]
  | succ n ih =>
    rw [digits_succ, List.foldl_cons, ih, Nat.mod_pow_succ, Nat.pow_succ]
    ring

theorem foldl_eq (b : Nat) (l : List Nat) (a : Nat) :
    l.foldl (fun a d => a * b + d) a = a * b ^ l.length + l.foldl (fun a d => a * b + d) 0 := by
  induction l generalizing a with
  | nil =>
    show a = a * b ^ 0 + 0
    rw [Nat.pow_zero, Nat.mul_one, Nat.add_zero]
  | cons d l ih =>
    rw [List.foldl_cons, List.foldl_cons, ih (a * b + d), ih (0 * b + d), List.length_cons,
      Nat.pow_succ]
    ring

theorem foldl_lt {b : Nat} {l : List Nat} (hl : ∀ d ∈ l, d < b) :
    l.foldl (fun a d => a * b + d) 0 < b ^ l.length := by
  induction l with
  | nil => exact Nat.one_pos
  | cons d l ih =>
    have hrest := ih fun e he => hl e (List.mem_cons_of_mem d he)
    have hd : d + 1 ≤ b := hl d List.mem_cons_self
    rw [List.foldl_cons, foldl_eq, List.length_cons, Nat.pow_succ, Nat.mul_comm (b ^ l.length) b]
    calc (0 * b + d) * b ^ l.length + l.foldl (fun a d => a * b + d) 0
        < d * b ^ l.length + b ^ l.length := by
          rw [Nat.zero_mul, Nat.zero_add]
          exact Nat.add_lt_add_left hrest _
      _ = (d + 1) * b ^ l.length := (Nat.succ_mul d _).symm
      _ ≤ b * b ^ l.length := Nat.mul_le_mul_right _ hd

/-- **writing what was read**, whatever stands before it -/
theorem digits_foldl {b : Nat} {l : List Nat} (hl : ∀ d ∈ l, d < b) (a : Nat) :
    digits b l.length (l.foldl (fun a d => a * b + d) a) = l := by
  induction l generalizing a with
  | nil => rfl
  | cons d l ih =>
    have hrest : ∀ e ∈ l, e < b := fun e he => hl e (List.mem_cons_of_mem d he)
    have hd : d < b := hl d List.mem_cons_self
    rw [List.length_cons, digits_succ, List.foldl_cons, ih hrest]
    congr 1
    rw [foldl_eq, Nat.add_comm, Nat.add_mul_div_right _ _ (Nat.pow_pos (by omega)),
      Nat.div_eq_of_lt (foldl_lt hrest), Nat.zero_add, Nat.add_comm, Nat.add_mul_mod_self_right,
      Nat.mod_eq_of_lt hd]

theorem lead_lt_iff {m h₁ h₂ r₁ r₂ : Nat} (h₁m : r₁ < m) (h₂m : r₂ < m) :
    r₁ + m * h₁ < r₂ + m * h₂ ↔ h₁ < h₂ ∨ h₁ = h₂ ∧ r₁ < r₂ := by
  rcases Nat.lt_trichotomy h₁ h₂ with hlt | rfl | hgt
  · have hmul : m * (h₁ + 1) ≤ m * h₂ := Nat.mul_le_mul_left m hlt
    rw [Nat.mul_succ] at hmul
    omega
  · omega
  · have hmul : m * (h₂ + 1) ≤ m * h₁ := Nat.mul_le_mul_left m hgt
    rw [Nat.mul_succ] at hmul
    omega

/-- **the order of the digits**, in any strictly increasing writing of them -/
theorem digits_lt_iff {α : Type} [LinearOrder α] {b : Nat} (hb : 0 < b) {f : Nat → α}
    (hf : ∀ d < b, ∀ e < b, d < e → f d < f e) (n x y : Nat) :
    (digits b n x).map f < (digits b n y).map f ↔ x % b ^ n < y % b ^ n := by
  induction n with
  | zero => simp [digits, Nat.mod_one]
  | succ n ih =>
    have hx : x / b ^ n % b < b := Nat.mod_lt _ hb
    have hy : y / b ^ n % b < b := Nat.mod_lt _ hb
    have hpow : 0 < b ^ n := Nat.pow_pos hb
    have hlead : f (x / b ^ n % b) < f (y / b ^ n % b) ↔ x / b ^ n % b < y / b ^ n % b := by
      constructor
      · intro h
        by_contra hle
        rcases Nat.lt_or_eq_of_le (Nat.le_of_not_lt hle) with hlt | heq
        · exact lt_asymm h (hf _ hy _ hx hlt)
        · exact lt_irrefl _ (heq ▸ h)
      · exact hf _ hx _ hy
    have hsame : f (x / b ^ n % b) = f (y / b ^ n % b) ↔ x / b ^ n % b = y / b ^ n % b := by
      constructor
      · intro h
        rcases Nat.lt_trichotomy (x / b ^ n % b) (y / b ^ n % b) with hlt | heq | hgt
        · exact absurd h (ne_of_lt (hf _ hx _ hy hlt))
        · exact heq
        · exact absurd h.symm (ne_of_lt (hf _ hy _ hx hgt))
      · exact congrArg f
    rw [digits_succ, digits_succ, List.map_cons, List.map_cons, List.cons_lt_cons_iff, ih, hlead,
      hsame, Nat.mod_pow_succ, Nat.mod_pow_succ,
      lead_lt_iff (Nat.mod_lt _ hpow) (Nat.mod_lt _ hpow)]

end Digits
