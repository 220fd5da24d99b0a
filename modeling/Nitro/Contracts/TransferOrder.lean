import Nitro.Lib.Priority
import Nitro.Contracts.Transfers

/-!
# Transfers one after the other

Each transfer is computed from the allocations and the holdings that the ones before it left.  What a
sequence of them ends with is determined by the indices that were asked for at least once: these are
settled in the order of the allocations, whatever the order of the calls.

* `Account`, `Account.transfer`   allocations, holdings and payments so far, and one call;
* `settledAt`                     the account in which a set of indices is settled;
* `transfer_settledAt`            a call settles the indices it asks for;
* `transfers_settledAt`           so does a sequence of calls;
* `transfer_order`                two sequences that ask for the same indices end alike.
-/

set_option linter.unusedSectionVars false

namespace Nitro.Contracts
open Evm Priority

namespace MultiAssetHolder

structure Account where
  allocations : List Allocation
  holdings : Word
  paid : Nat → Nat

/-- what the exit of a call gives to allocation `i` -/
def exitAt (indices : List Word) (exits : List Allocation) (i : Nat) : Nat :=
  if indices = [] then amountAt exits i
  else match indices.findIdx? (fun w => decide (w.toNat = i)) with
    | some x => amountAt exits x
    | none => 0

/-- one call: the new allocations are recorded, and the payouts leave the holdings -/
def Account.transfer (D : Deployment) (s : Account) (indices : List Word) :
    Except String Account := do
  let r ← computeTransferEffectsAndInteractions D s.holdings s.allocations indices
  .ok { allocations := r.newAllocations
        holdings := s.holdings - r.totalPayouts
        paid := fun i => s.paid i + exitAt indices r.exitAllocations i }

def Account.transfers (D : Deployment) (s : Account) (calls : List (List Word)) :
    Except String Account := calls.foldlM (Account.transfer D) s

/-- nothing was paid yet -/
def Account.start (holdings : Word) (allocations : List Allocation) : Account :=
  ⟨allocations, holdings, fun _ => 0⟩

variable {D : Deployment} {allocations : List Allocation} {indices : List Word} {holdings : Word}

/-! ## payments in natural numbers -/

theorem amounts_take_eq (l : List Allocation) (i : Nat) :
    amounts (l.take i) = before (amountAt l) i := by
  induction i with
  | zero => rfl
  | succ i ih =>
    rw [before_succ, ← ih]
    cases ha : l[i]? with
    | none =>
      have hlen : l.length ≤ i := List.getElem?_eq_none_iff.1 ha
      rw [List.take_of_length_le hlen, List.take_of_length_le (Nat.le_succ_of_le hlen)]
      simp [amountAt, ha]
    | some a => rw [amounts_take_succ ha, amountAt_of_getElem? ha]

theorem paidAt_eq (h : Nat) (l : List Allocation) (indices : List Word) (i : Nat) :
    paidAt h l indices i = Priority.paid (amountAt l) h (Selected indices) i := by
  unfold paidAt Priority.paid share
  rw [amounts_take_eq]

theorem amountAt_beyond {i : Nat} (hi : allocations.length ≤ i) : amountAt allocations i = 0 := by
  simp [amountAt, List.getElem?_eq_none hi]

theorem exitAt_final {h : Nat} (i : Nat) :
    exitAt indices ((positions indices allocations).map fun j =>
      entry allocations j (paidAt h allocations indices j)) i =
        paidAt h allocations indices i := by
  have hentry : ∀ j, (entry allocations j (paidAt h allocations indices j)).amount.toNat =
      paidAt h allocations indices j := fun j => toNat_entry (paidAt_le _ _ _ _)
  unfold exitAt positions
  by_cases hnil : indices = []
  · rw [if_pos hnil, if_pos hnil]
    rcases Nat.lt_or_ge i allocations.length with hi | hi
    · rw [amountAt, List.getElem?_map, List.getElem?_range hi]
      exact hentry i
    · have hzero : paidAt h allocations indices i ≤ amountAt allocations i := paidAt_le _ _ _ _
      rw [amountAt_beyond hi] at hzero
      rw [amountAt_beyond (by simpa using hi)]
      omega
  · rw [if_neg hnil, if_neg hnil]
    cases hx : indices.findIdx? (fun w => decide (w.toNat = i)) with
    | none =>
      have hnot : ¬ Selected indices i := by
        rintro (hempty | ⟨w, hw, hi⟩)
        · exact hnil hempty
        · have hne := List.findIdx?_eq_none_iff.1 hx w hw
          simp [hi] at hne
      exact (if_neg hnot).symm
    | some x =>
      obtain ⟨hlt, hpos, -⟩ := List.findIdx?_eq_some_iff_getElem.1 hx
      have hpos : (indices[x]).toNat = i := of_decide_eq_true hpos
      show amountAt _ x = _
      rw [amountAt, List.getElem?_map, List.getElem?_map, List.getElem?_eq_getElem hlt,
        Option.map_some, Option.map_some, hpos]
      exact hentry i

/-! ## settled indices -/

/-- **the account in which the indices of `S` are settled** -/
def settledAt (holdings : Word) (allocations : List Allocation) (S : Nat → Prop) [DecidablePred S] :
    Account where
  allocations := (List.range allocations.length).map fun i =>
    entry allocations i (left (amountAt allocations) holdings.toNat S i)
  holdings := BitVec.ofNat 256
    (held (amountAt allocations) holdings.toNat S allocations.length)
  paid := Priority.paid (amountAt allocations) holdings.toNat S

section settled
variable {S T : Nat → Prop} [DecidablePred S] [DecidablePred T]

theorem settledAt_length :
    (settledAt holdings allocations S).allocations.length = allocations.length := by
  rw [settledAt, List.length_map, List.length_range]

theorem settledAt_getElem? {i : Nat} (hi : i < allocations.length) :
    (settledAt holdings allocations S).allocations[i]? =
      some (entry allocations i (left (amountAt allocations) holdings.toNat S i)) := by
  rw [settledAt, List.getElem?_map, List.getElem?_range hi, Option.map_some]

theorem amountAt_settledAt : amountAt (settledAt holdings allocations S).allocations =
    left (amountAt allocations) holdings.toNat S := by
  funext i
  rcases Nat.lt_or_ge i allocations.length with hi | hi
  · rw [amountAt_of_getElem? (settledAt_getElem? hi)]
    exact toNat_entry (Nat.sub_le _ _)
  · rw [amountAt_beyond (settledAt_length.trans_le hi), left, amountAt_beyond hi, Nat.zero_sub]

theorem toNat_settledAt : (settledAt holdings allocations S).holdings.toNat =
    held (amountAt allocations) holdings.toNat S allocations.length := by
  have hlt := holdings.isLt
  rw [settledAt, BitVec.toNat_ofNat]
  apply Nat.mod_eq_of_lt
  unfold held
  omega

theorem entry_settledAt {i : Nat} (hi : i < allocations.length) (v : Nat) :
    entry (settledAt holdings allocations S).allocations i v = entry allocations i v := by
  unfold entry
  rw [settledAt_getElem? hi, List.getElem?_eq_getElem hi]
  unfold entry
  rw [List.getElem?_eq_getElem hi]

theorem settledAt_free (hfree : ∀ a ∈ allocations, a.allocationType ≠ D.guarantee) :
    ∀ a ∈ (settledAt holdings allocations S).allocations, a.allocationType ≠ D.guarantee := by
  intro a ha
  obtain ⟨i, hi, rfl⟩ := List.mem_map.1 ha
  have hi : i < allocations.length := List.mem_range.1 hi
  unfold entry
  rw [List.getElem?_eq_getElem hi]
  exact hfree allocations[i] (List.getElem_mem hi)

theorem settledAt_congr (h : ∀ i < allocations.length, S i ↔ T i) :
    settledAt holdings allocations S = settledAt holdings allocations T := by
  have hpaid : Priority.paid (amountAt allocations) holdings.toNat S =
      Priority.paid (amountAt allocations) holdings.toNat T := by
    funext i
    rcases Nat.lt_or_ge i allocations.length with hi | hi
    · unfold Priority.paid
      simp only [h i hi]
    · have hS : Priority.paid (amountAt allocations) holdings.toNat S i ≤ _ := paid_le i
      have hT : Priority.paid (amountAt allocations) holdings.toNat T i ≤ _ := paid_le i
      rw [amountAt_beyond hi] at hS hT
      omega
  unfold settledAt left held
  rw [hpaid]

theorem settledAt_none :
    settledAt holdings allocations (fun _ => False) = Account.start holdings allocations := by
  have hpaid : Priority.paid (amountAt allocations) holdings.toNat (fun _ => False) =
      fun _ => 0 := by
    funext i
    exact if_neg not_false
  have hnone : before (fun _ => 0) allocations.length = 0 := Finset.sum_const_zero
  unfold settledAt left held Account.start
  rw [hpaid, hnone, Nat.sub_zero, BitVec.ofNat_toNat, BitVec.setWidth_eq]
  congr 1
  apply List.ext_getElem?
  intro i
  rw [List.getElem?_map]
  rcases Nat.lt_or_ge i allocations.length with hi | hi
  · have hget : allocations[i]? = some allocations[i] := List.getElem?_eq_getElem hi
    rw [List.getElem?_range hi, Option.map_some, Nat.sub_zero, hget, amountAt_of_getElem? hget,
      entry_of_getElem? hget]
  · rw [List.getElem?_eq_none hi, List.getElem?_eq_none (by simpa using hi)]
    rfl

/-- **one call settles the indices it asks for** -/
theorem transfer_settledAt (hfree : ∀ a ∈ allocations, a.allocationType ≠ D.guarantee)
    (hinc : indices.Pairwise (· < ·)) :
    (settledAt holdings allocations S).transfer D indices =
      .ok (settledAt holdings allocations fun i => S i ∨ Selected indices i) := by
  obtain ⟨r, hok, hr⟩ := transferLoop_transferred
    (settledAt holdings allocations S).holdings.isLt (settledAt_free hfree) hinc rfl (Nat.zero_le _)
    (transferred_init (settledAt holdings allocations S).holdings
      (settledAt holdings allocations S).allocations indices)
  have hpaid : ∀ i, paidAt (settledAt holdings allocations S).holdings.toNat
      (settledAt holdings allocations S).allocations indices i =
        Priority.paid (left (amountAt allocations) holdings.toNat S)
          (held (amountAt allocations) holdings.toNat S allocations.length) (Selected indices) i := by
    intro i
    rw [paidAt_eq, amountAt_settledAt, toNat_settledAt]
  have hpayouts : r.totalPayouts.toNat = before (Priority.paid
      (left (amountAt allocations) holdings.toNat S)
      (held (amountAt allocations) holdings.toNat S allocations.length) (Selected indices))
        allocations.length := by
    rw [hr.payouts, settledAt_length, sum_range_map]
    exact Finset.sum_congr rfl fun i _ => hpaid i
  have hle : r.totalPayouts ≤ (settledAt holdings allocations S).holdings := by
    have hheld := hr.held
    show r.totalPayouts.toNat ≤ _
    omega
  refine bind_eq_ok.2 ⟨r, hok, congrArg Except.ok ?_⟩
  have hallocations : r.newAllocations =
      (settledAt holdings allocations fun i => S i ∨ Selected indices i).allocations := by
    rw [hr.kept, settledAt_length]
    apply List.map_congr_left
    intro i hi
    have hi : i < allocations.length := List.mem_range.1 hi
    rw [entry_settledAt hi, hpaid, amountAt_settledAt, ← left_left hi]
    rfl
  have hholdings : (settledAt holdings allocations S).holdings - r.totalPayouts =
      (settledAt holdings allocations fun i => S i ∨ Selected indices i).holdings := by
    apply BitVec.eq_of_toNat_eq
    rw [BitVec.toNat_sub_of_le hle, toNat_settledAt, toNat_settledAt, hpayouts, ← held_held]
    rfl
  have hpayments : (fun i => (settledAt holdings allocations S).paid i +
      exitAt indices r.exitAllocations i) =
      (settledAt holdings allocations fun i => S i ∨ Selected indices i).paid := by
    funext i
    rw [exits_final hr, exitAt_final, hpaid]
    rcases Nat.lt_or_ge i allocations.length with hi | hi
    · exact paid_add hi
    · -- there is nothing beyond the end, before or after
      show Priority.paid (amountAt allocations) holdings.toNat S i +
        Priority.paid (left (amountAt allocations) holdings.toNat S)
          (held (amountAt allocations) holdings.toNat S allocations.length) (Selected indices) i =
        Priority.paid (amountAt allocations) holdings.toNat (fun i => S i ∨ Selected indices i) i
      have hfirst : Priority.paid (amountAt allocations) holdings.toNat S i ≤ _ := paid_le i
      have hboth : Priority.paid (amountAt allocations) holdings.toNat
          (fun i => S i ∨ Selected indices i) i ≤ _ := paid_le i
      have hsecond : Priority.paid (left (amountAt allocations) holdings.toNat S)
          (held (amountAt allocations) holdings.toNat S allocations.length)
          (Selected indices) i ≤ _ := paid_le i
      rw [left] at hsecond
      rw [amountAt_beyond hi] at hfirst hboth hsecond
      omega
  rw [hallocations, hholdings, hpayments]

/-- **a sequence of calls settles what it asks for** -/
theorem transfers_settledAt (hfree : ∀ a ∈ allocations, a.allocationType ≠ D.guarantee)
    {calls : List (List Word)} (hcalls : ∀ c ∈ calls, c.Pairwise (· < ·)) :
    (settledAt holdings allocations S).transfers D calls =
      .ok (settledAt holdings allocations fun i => S i ∨ ∃ c ∈ calls, Selected c i) := by
  induction calls generalizing S with
  | nil =>
    have hsame : settledAt holdings allocations (fun i => S i ∨ ∃ c ∈ [], Selected c i) =
        settledAt holdings allocations S := by
      apply settledAt_congr
      intro i _
      simp
    rw [hsame]
    rfl
  | cons c calls ih =>
    obtain ⟨hc, hcalls⟩ := List.forall_mem_cons.1 hcalls
    unfold Account.transfers
    rw [List.foldlM_cons, transfer_settledAt hfree hc]
    refine Eq.trans (ih hcalls) (congrArg Except.ok (settledAt_congr fun i _ => ?_))
    rw [List.exists_mem_cons_iff, or_assoc]

end settled

/-- **the order of transfers does not matter**: two sequences of calls that ask for the same indices
end with the same allocations, holdings and payments, and a call that is made again changes nothing -/
theorem transfer_order (hfree : ∀ a ∈ allocations, a.allocationType ≠ D.guarantee)
    {calls calls' : List (List Word)} (hcalls : ∀ c ∈ calls, c.Pairwise (· < ·))
    (hcalls' : ∀ c ∈ calls', c.Pairwise (· < ·))
    (hsame : ∀ i < allocations.length,
      (∃ c ∈ calls, Selected c i) ↔ ∃ c ∈ calls', Selected c i) :
    ∃ s, (Account.start holdings allocations).transfers D calls = .ok s ∧
      (Account.start holdings allocations).transfers D calls' = .ok s ∧
      ∀ c ∈ calls, s.transfer D c = .ok s := by
  rw [← settledAt_none]
  refine ⟨_, transfers_settledAt hfree hcalls, ?_, ?_⟩
  · rw [transfers_settledAt hfree hcalls']
    refine congrArg Except.ok (settledAt_congr fun i hi => ?_)
    rw [hsame i hi]
  · intro c hc
    rw [transfer_settledAt hfree (hcalls c hc)]
    refine congrArg Except.ok (settledAt_congr fun i _ => ?_)
    constructor
    · rintro (hdone | hagain)
      · exact hdone
      · exact .inr ⟨c, hc, hagain⟩
    · exact .inl

open Contracts.Sample in
/-- holdings of eight: the second allocation first, or both at once -/
theorem transfer_order_second_first :
    ∃ s, (Account.start 8 [simple 1, simple 2]).transfers deployment [[1], []] = .ok s ∧
      (Account.start 8 [simple 1, simple 2]).transfers deployment [[]] = .ok s ∧
      ∀ c ∈ [[1], []], s.transfer deployment c = .ok s := by
  refine transfer_order simple_free (fun c hc => ?_) (fun c hc => ?_) fun i _ => ?_
  · rcases List.mem_pair.1 hc with rfl | rfl
    · exact List.pairwise_singleton _ _
    · exact List.Pairwise.nil
  · rw [List.mem_singleton.1 hc]
    exact List.Pairwise.nil
  · exact ⟨fun _ => ⟨[], List.mem_singleton_self _, .inl rfl⟩,
      fun _ => ⟨[], List.mem_pair.2 (.inr rfl), .inl rfl⟩⟩

end MultiAssetHolder

end Nitro.Contracts
