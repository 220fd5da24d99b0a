import Mathlib.Algebra.BigOperators.Group.Finset.Basic
import Mathlib.Algebra.BigOperators.Pi
import Mathlib.Algebra.Order.BigOperators.Group.Finset
import Mathlib.Data.BitVec
import Mathlib.Data.Fintype.Basic
import Mathlib.Data.List.Chain
import Mathlib.Tactic.Common

/-!
# Contract calls that may revert

A contract function is a computation in `Except String`: a failing `require` carries its reason.
Words are bit vectors, so arithmetic wraps as in Solidity before 0.8; the checked operations are
those of `SafeMath`.

* `require`, `index`, `safeAdd`, `safeSub`, `checkedMod`   what can revert;
* `attempt`                                     a call as a step: a reverted call leaves no trace;
* `judge`, `judge_eq_ok`     a loop that judges every entry, and every entry against the one before it;
* `chain_inv`                what every step of it keeps, from an entry to any later one;
* `total_debit`              a debit that an account covers takes exactly its amount;
* `total_credit_le`          a credit adds at most its amount, whether or not it wraps.
-/

set_option linter.unusedSectionVars false

namespace Evm
variable {σ α β : Type} {w : Nat}

def require (c : Prop) [Decidable c] (reason : String) : Except String Unit :=
  if c then .ok () else .error reason

/-- reading an array out of bounds is an invalid instruction -/
def index (l : List α) (i : Nat) : Except String α :=
  match l[i]? with
  | some a => .ok a
  | none => .error "invalid opcode"

def safeAdd (a b : BitVec w) : Except String (BitVec w) :=
  if a.toNat + b.toNat < 2 ^ w then .ok (a + b) else .error "SafeMath: addition overflow"

def safeSub (a b : BitVec w) : Except String (BitVec w) :=
  if b ≤ a then .ok (a - b) else .error "SafeMath: subtraction overflow"

def checkedMod (a b : BitVec w) : Except String (BitVec w) :=
  if b = 0 then .error "invalid opcode" else .ok (a % b)

theorem bind_eq_ok {x : Except String α} {f : α → Except String β} {b : β} :
    (x >>= f) = .ok b ↔ ∃ a, x = .ok a ∧ f a = .ok b := by
  cases x with
  | error e =>
    constructor
    · intro h
      cases h
    · rintro ⟨_, h, _⟩
      cases h
  | ok a =>
    constructor
    · intro h
      exact ⟨a, rfl, h⟩
    · rintro ⟨_, h, hf⟩
      cases h
      exact hf

theorem require_bind_eq_ok {c : Prop} [Decidable c] {reason : String}
    {f : Unit → Except String β} {b : β} :
    (require c reason >>= f) = .ok b ↔ c ∧ f () = .ok b := by
  by_cases h : c
  · simp [require, h, bind, Except.bind]
  · simp [require, h, bind, Except.bind]

theorem require_eq_ok {c : Prop} [Decidable c] {reason : String} {u : Unit} :
    require c reason = .ok u ↔ c := by
  by_cases h : c
  · simp [require, h]
  · simp [require, h]

theorem index_eq_ok {l : List α} {i : Nat} {a : α} : index l i = .ok a ↔ l[i]? = some a := by
  unfold index
  cases l[i]? with
  | none => simp
  | some b => simp

theorem safeAdd_ok {a b c : BitVec w} (h : safeAdd a b = .ok c) : c = a + b := by
  unfold safeAdd at h
  split at h
  · exact (Except.ok.inj h).symm
  · cases h

theorem checkedMod_ok {a b c : BitVec w} (h : checkedMod a b = .ok c) : c = a % b := by
  unfold checkedMod at h
  split at h
  · cases h
  · exact (Except.ok.inj h).symm

theorem checkedMod_of_ne {a b : BitVec w} (h : b ≠ 0) : checkedMod a b = .ok (a % b) := by
  unfold checkedMod
  rw [if_neg h]

/-! ## reasons that are never given -/

theorem bind_ne_error {x : Except String α} {f : α → Except String β} {reason : String}
    (hx : x ≠ .error reason) (hf : ∀ a, f a ≠ .error reason) : (x >>= f) ≠ .error reason := by
  cases x with
  | error e =>
    intro h
    exact hx (congrArg Except.error (Except.error.inj h))
  | ok a => exact hf a

theorem require_ne_error {c : Prop} [Decidable c] {given reason : String} (h : given ≠ reason) :
    require c given ≠ .error reason := by
  unfold require
  split
  · intro he
    cases he
  · intro he
    exact h (Except.error.inj he)

theorem index_ne_error {l : List α} {i : Nat} {reason : String} (h : "invalid opcode" ≠ reason) :
    index l i ≠ .error reason := by
  unfold index
  split
  · intro he
    cases he
  · intro he
    exact h (Except.error.inj he)

/-! ## calls as steps -/

def attempt (f : σ → Except String σ) (s : σ) : σ :=
  match f s with
  | .ok s' => s'
  | .error _ => s

theorem attempt_ok {f : σ → Except String σ} {s s' : σ} (h : f s = .ok s') : attempt f s = s' := by
  simp [attempt, h]

theorem attempt_error {f : σ → Except String σ} {s : σ} {e : String} (h : f s = .error e) :
    attempt f s = s := by
  simp [attempt, h]

theorem attempt_inv {f : σ → Except String σ} {s : σ} {I : σ → Prop} (h : I s)
    (hf : ∀ s', f s = .ok s' → I s') : I (attempt f s) := by
  unfold attempt
  cases hs : f s with
  | error e => exact h
  | ok s' => exact hf s' hs

/-! ## sequences that are judged entry by entry -/

section judge
variable {α : Type} {entry : α → Except String Unit} {step : α → α → Except String Unit}
  {prev : Option α} {l : List α}

def judge (entry : α → Except String Unit) (step : α → α → Except String Unit) :
    Option α → List α → Except String Unit
  | _, [] => .ok ()
  | prev, a :: l => do
    entry a
    match prev with
    | none => .ok ()
    | some b => step b a
    judge entry step (some a) l

/-- **the loop passes** iff every entry and every step does -/
theorem judge_eq_ok : judge entry step prev l = .ok () ↔
    (∀ a ∈ l, entry a = .ok ()) ∧ (prev.toList ++ l).IsChain fun a b => step a b = .ok () := by
  induction l generalizing prev with
  | nil => cases prev <;> simp [judge]
  | cons a l ih =>
    unfold judge
    cases prev with
    | none =>
      rw [bind_eq_ok, List.forall_mem_cons]
      constructor
      · rintro ⟨⟨⟩, ha, h⟩
        obtain ⟨hl, hchain⟩ := ih.1 h
        exact ⟨⟨ha, hl⟩, hchain⟩
      · rintro ⟨⟨ha, hl⟩, hchain⟩
        exact ⟨(), ha, ih.2 ⟨hl, hchain⟩⟩
    | some b =>
      rw [bind_eq_ok, List.forall_mem_cons]
      constructor
      · rintro ⟨⟨⟩, ha, h⟩
        obtain ⟨⟨⟩, hstep, h⟩ := bind_eq_ok.1 h
        obtain ⟨hl, hchain⟩ := ih.1 h
        exact ⟨⟨ha, hl⟩, List.isChain_cons_cons.2 ⟨hstep, hchain⟩⟩
      · rintro ⟨⟨ha, hl⟩, hchain⟩
        obtain ⟨hstep, hchain⟩ := List.isChain_cons_cons.1 hchain
        exact ⟨(), ha, bind_eq_ok.2 ⟨(), hstep, ih.2 ⟨hl, hchain⟩⟩⟩

/-- **a relation that every step extends** holds between the first entry and the last -/
theorem chain_inv {R S : α → α → Prop} {a b : α} {mid : List α} (hrefl : R a a)
    (hstep : ∀ x y, y ∈ mid ++ [b] → R a x → S x y → R a y) (h : (a :: (mid ++ [b])).IsChain S) :
    R a b := by
  have hrun : ∀ l x, R a x → (∀ y ∈ l ++ [b], y ∈ mid ++ [b]) → (x :: (l ++ [b])).IsChain S →
      R a b := by
    intro l
    induction l with
    | nil =>
      intro x hx hmem hchain
      exact hstep x b (hmem b (by simp)) hx (List.isChain_cons_cons.1 hchain).1
    | cons y l ih =>
      intro x hx hmem hchain
      obtain ⟨hxy, hchain⟩ := List.isChain_cons_cons.1 hchain
      exact ih y (hstep x y (hmem y (by simp)) hx hxy)
        (fun z hz => hmem z (List.mem_cons_of_mem y hz)) hchain
  exact hrun mid a hrefl (fun y hy => hy) h

end judge

end Evm

/-! ## accounts that hold words -/

namespace Accounts
variable {ι : Type} [Fintype ι] [DecidableEq ι] {w : Nat}

/-- irreducible, so that nobody enumerates a large type of accounts -/
@[irreducible] def total (f : ι → BitVec w) : Nat := ∑ i, (f i).toNat

theorem total_update (f : ι → BitVec w) (i : ι) (v : BitVec w) :
    total (Function.update f i v) + (f i).toNat = total f + v.toNat := by
  have hupdate : (fun j => (Function.update f i v j).toNat) =
      Function.update (fun j => (f j).toNat) i v.toNat := by
    funext j
    by_cases h : j = i
    · subst h
      simp
    · simp [h]
  have hsum : ∑ j ∈ Finset.univ \ {i}, (f j).toNat + (f i).toNat = ∑ j, (f j).toNat := by
    have h := Finset.sum_sdiff (f := fun j => (f j).toNat) (Finset.subset_univ {i})
    rwa [Finset.sum_singleton] at h
  unfold total
  rw [hupdate, Finset.sum_update_of_mem (Finset.mem_univ i), ← hsum]
  omega

theorem total_debit {f : ι → BitVec w} {i : ι} {v : BitVec w} (h : v ≤ f i) :
    total (Function.update f i (f i - v)) + v.toNat = total f := by
  have hupdate := total_update f i (f i - v)
  have hle : v.toNat ≤ (f i).toNat := h
  rw [BitVec.toNat_sub_of_le h] at hupdate
  omega

theorem total_credit_le (f : ι → BitVec w) (i : ι) (v : BitVec w) :
    total (Function.update f i (f i + v)) ≤ total f + v.toNat := by
  have hupdate := total_update f i (f i + v)
  have hle : (f i + v).toNat ≤ (f i).toNat + v.toNat := by
    rw [BitVec.toNat_add]
    exact Nat.mod_le _ _
  omega

theorem total_zero : total (fun _ : ι => (0 : BitVec w)) = 0 := by
  unfold total
  simp

theorem le_total (f : ι → BitVec w) (i : ι) : (f i).toNat ≤ total f := by
  unfold total
  exact Finset.single_le_sum (f := fun j => (f j).toNat) (fun _ _ => Nat.zero_le _)
    (Finset.mem_univ i)

end Accounts
