import Nitro.Contracts.TransferOrder

/-!
# The client's emulation of a transfer

The client computes what a transfer would do in `ComputeTransferEffectsAndInteractions`.  Its loop
never moves the cursor into the indices, so that it pays the first index only.  Its exits stand at the
positions of the allocations, and those of the contract at the positions of the indices.

* `Allocation.toGo`, `goAmountAt`   an allocation as the client has it, and an amount in a list of them;
* `transferLoop_emulates`           the loop of the client pays the first index;
* `transfer_emulated_iff`           when that is what the contract does.
-/

set_option linter.unusedSectionVars false

namespace Nitro.Contracts
open Evm Priority

/-- an allocation of the contract, as the client has it -/
def Allocation.toGo (a : Contracts.Allocation) : Nitro.Allocation :=
  ⟨a.destination, some a.amount.toNat, a.allocationType, a.metadata⟩

/-- the amount at a position; the zero value of an allocation has none -/
def goAmountAt (l : Nitro.Allocations) (i : Nat) : Int :=
  ((l[i]?).bind fun a => a.amount).getD 0

namespace MultiAssetHolder
variable {D : Deployment} {allocations : List Allocation} {indices : List Word} {holdings : Word}

theorem goAmountAt_zero (a : Nitro.Allocation) (l : Nitro.Allocations) :
    goAmountAt (a :: l) 0 = a.amount.getD 0 := rfl

theorem goAmountAt_succ (a : Nitro.Allocation) (l : Nitro.Allocations) (i : Nat) :
    goAmountAt (a :: l) (i + 1) = goAmountAt l i := by
  unfold goAmountAt
  rw [List.getElem?_cons_succ]

/-- the cursor of the client stays at the first index -/
theorem isPaid_iff (i : Nat) :
    isPaid (indices.map fun w => w.toNat) 0 i = true ↔ Selected (indices.take 1) i := by
  cases indices with
  | nil => simp [isPaid, Selected]
  | cons w indices => simp [isPaid, Selected]

theorem transferLoop_cons {numbers : List Nat} {k i : Nat} {surplus v : Int} {a : Nitro.Allocation}
    {rest new exits : Nitro.Allocations} (ha : a.amount = some v)
    (hloop : Nitro.transferLoop numbers k (i + 1) (surplus - min v surplus) rest =
      .ok (new, exits)) :
    Nitro.transferLoop numbers k i surplus (a :: rest) =
      if isPaid numbers k i = true then
        .ok ({ a with amount := some (v - min v surplus) } :: new,
          { a with amount := some (min v surplus) } :: exits)
      else .ok ({ a with amount := some v } :: new, default :: exits) := by
  have hmin : (if v > surplus then surplus else v) = min v surplus := by
    rw [Int.min_def]
    split
    · rw [if_neg (by omega)]
    · rw [if_pos (by omega)]
  unfold Nitro.transferLoop
  rw [ha]
  show (Nitro.transferLoop numbers k (i + 1)
    (surplus - if v > surplus then surplus else v) rest >>= _) = _
  rw [hmin, hloop]
  rfl

/-- **the loop of the client**, from allocation `i` on: it pays the first index -/
theorem transferLoop_emulates (allocations : List Allocation) (indices : List Word) {h : Nat}
    {rest : List Allocation} {i : Nat} (hrest : rest = allocations.drop i) :
    ∃ new exits, Nitro.transferLoop (indices.map fun w => w.toNat) 0 i
        ((h - before (amountAt allocations) i : Nat) : Int) (rest.map Allocation.toGo) =
          .ok (new, exits) ∧
      ∀ j, goAmountAt new j = amountAt allocations (i + j) -
          (paidAt h allocations (indices.take 1) (i + j) : Int) ∧
        goAmountAt exits j = paidAt h allocations (indices.take 1) (i + j) := by
  induction rest generalizing i with
  | nil =>
    refine ⟨[], [], rfl, fun j => ?_⟩
    have hlen : allocations.length ≤ i + j := by
      have hend := congrArg List.length hrest
      rw [List.length_drop, List.length_nil] at hend
      omega
    have hle : paidAt h allocations (indices.take 1) (i + j) ≤ amountAt allocations (i + j) :=
      paidAt_le _ _ _ _
    rw [amountAt_beyond hlen] at hle ⊢
    have hzero : paidAt h allocations (indices.take 1) (i + j) = 0 := by omega
    rw [hzero]
    exact ⟨rfl, rfl⟩
  | cons a rest ih =>
    have hget : allocations[i]? = some a := by
      have hhead := congrArg (fun l => l[0]?) hrest
      simpa using hhead.symm
    have hnext : rest = allocations.drop (i + 1) := by
      rw [← List.drop_drop, ← hrest]
      rfl
    obtain ⟨new, exits, hloop, hall⟩ := ih hnext
    have hamount : amountAt allocations i = a.amount.toNat := amountAt_of_getElem? hget
    -- what the client takes from the surplus is the share of the allocation
    have hafford : min ((a.amount.toNat : Nat) : Int)
        ((h - before (amountAt allocations) i : Nat) : Int) =
          (share (amountAt allocations) h i : Nat) := by
      rw [share, hamount]
      omega
    have hsurplus : ((h - before (amountAt allocations) (i + 1) : Nat) : Int) =
        ((h - before (amountAt allocations) i : Nat) : Int) -
          min ((a.amount.toNat : Nat) : Int) ((h - before (amountAt allocations) i : Nat) : Int) := by
      rw [before_succ, hamount]
      omega
    rw [hsurplus] at hloop
    have hstep := transferLoop_cons (a := a.toGo) rfl hloop
    rw [hafford] at hstep
    have hpaid : paidAt h allocations (indices.take 1) i =
        if Selected (indices.take 1) i then share (amountAt allocations) h i else 0 := by
      rw [paidAt_eq]
      rfl
    rw [List.map_cons, hstep]
    by_cases hsel : Selected (indices.take 1) i
    · rw [if_pos ((isPaid_iff i).2 hsel)]
      rw [if_pos hsel] at hpaid
      refine ⟨_, _, rfl, fun j => ?_⟩
      cases j with
      | zero =>
        rw [goAmountAt_zero, goAmountAt_zero, Nat.add_zero, hpaid, hamount]
        exact ⟨rfl, rfl⟩
      | succ j =>
        rw [goAmountAt_succ, goAmountAt_succ, show i + (j + 1) = i + 1 + j by omega]
        exact hall j
    · rw [if_neg fun hp => hsel ((isPaid_iff i).1 hp)]
      rw [if_neg hsel] at hpaid
      refine ⟨_, _, rfl, fun j => ?_⟩
      cases j with
      | zero =>
        rw [goAmountAt_zero, goAmountAt_zero, Nat.add_zero, hpaid, hamount]
        exact ⟨(Int.sub_zero _).symm, rfl⟩
      | succ j =>
        rw [goAmountAt_succ, goAmountAt_succ, show i + (j + 1) = i + 1 + j by omega]
        exact hall j

/-- the allocation gets nothing: it asks for nothing, or those before it use up the holdings -/
def NothingFor (holdings : Word) (allocations : List Allocation) (i : Nat) : Prop :=
  amountAt allocations i = 0 ∨ holdings.toNat ≤ amounts (allocations.take i)

theorem paidAt_of_nothingFor {i : Nat} (h : NothingFor holdings allocations i) (indices : List Word) :
    paidAt holdings.toNat allocations indices i = 0 := by
  unfold paidAt
  split
  · rcases h with hzero | hused
    · rw [hzero, Nat.zero_min]
    · rw [Nat.sub_eq_zero_of_le hused, Nat.min_zero]
  · rfl

theorem paidAt_first_iff (hinc : indices.Pairwise (· < ·)) :
    (∀ i, paidAt holdings.toNat allocations (indices.take 1) i =
        paidAt holdings.toNat allocations indices i) ↔
      ∀ w ∈ indices.tail, NothingFor holdings allocations w.toNat := by
  cases indices with
  | nil => exact ⟨fun _ w hw => absurd hw List.not_mem_nil, fun _ _ => rfl⟩
  | cons w₀ rest =>
    obtain ⟨hfirst, -⟩ := List.pairwise_cons.1 hinc
    constructor
    · intro hsame w hw
      have hnot : ¬ Selected ((w₀ :: rest).take 1) w.toNat := by
        rintro (hnil | ⟨v, hv, heq⟩)
        · cases hnil
        · have hlt : w₀ < w := hfirst w hw
          rw [List.mem_singleton.1 hv] at heq
          rw [BitVec.lt_def] at hlt
          omega
      have hsel : Selected (w₀ :: rest) w.toNat := .inr ⟨w, List.mem_cons_of_mem _ hw, rfl⟩
      have hzero := hsame w.toNat
      unfold paidAt at hzero
      rw [if_neg hnot, if_pos hsel] at hzero
      unfold NothingFor
      omega
    · intro hnothing i
      by_cases hi : ∃ w ∈ rest, w.toNat = i
      · obtain ⟨w, hw, rfl⟩ := hi
        rw [paidAt_of_nothingFor (hnothing w hw), paidAt_of_nothingFor (hnothing w hw)]
      · have hsel : Selected ((w₀ :: rest).take 1) i ↔ Selected (w₀ :: rest) i := by
          constructor
          · rintro (hnil | ⟨v, hv, heq⟩)
            · cases hnil
            · exact .inr ⟨v, List.mem_of_mem_take hv, heq⟩
          · rintro (hnil | ⟨v, hv, heq⟩)
            · cases hnil
            · rcases List.mem_cons.1 hv with rfl | hv
              · exact .inr ⟨v, List.mem_singleton_self v, heq⟩
              · exact absurd ⟨v, hv, heq⟩ hi
        unfold paidAt
        exact if_congr hsel rfl rfl

/-- **the client's emulation agrees with the contract** exactly when there is nothing for the indices
after the first -/
theorem transfer_emulated_iff (hfree : ∀ a ∈ allocations, a.allocationType ≠ D.guarantee)
    (hinc : indices.Pairwise (· < ·)) :
    ∃ r new exits,
      computeTransferEffectsAndInteractions D holdings allocations indices = .ok r ∧
      Nitro.computeTransferEffectsAndInteractions holdings.toNat (allocations.map Allocation.toGo)
        (indices.map fun w => w.toNat) = .ok (new, exits) ∧
      ((∀ i, goAmountAt new i = amountAt r.newAllocations i ∧
          goAmountAt exits i = exitAt indices r.exitAllocations i) ↔
        ∀ w ∈ indices.tail, NothingFor holdings allocations w.toNat) := by
  obtain ⟨r, hok, hr⟩ := transferLoop_transferred holdings.isLt hfree hinc rfl (Nat.zero_le _)
    (transferred_init holdings allocations indices)
  obtain ⟨new, exits, hgo, hall⟩ := transferLoop_emulates allocations indices (h := holdings.toNat)
    (i := 0) rfl
  refine ⟨r, new, exits, hok, hgo, ?_⟩
  have hnew : ∀ i, amountAt r.newAllocations i = amountAt allocations i -
      paidAt holdings.toNat allocations indices i := by
    intro i
    rcases Nat.lt_or_ge i allocations.length with hi | hi
    · have hentry : r.newAllocations[i]? = some (entry allocations i
          (amountAt allocations i - paidAt holdings.toNat allocations indices i)) := by
        rw [hr.kept, List.getElem?_map, List.getElem?_range hi, Option.map_some]
      rw [amountAt_of_getElem? hentry, toNat_entry (Nat.sub_le _ _)]
    · rw [amountAt_beyond hi, Nat.zero_sub]
      apply amountAt_beyond
      rw [hr.kept, List.length_map, List.length_range]
      exact hi
  have hexit : ∀ i, exitAt indices r.exitAllocations i =
      paidAt holdings.toNat allocations indices i := by
    intro i
    rw [exits_final hr, exitAt_final]
  have hle : ∀ c i, paidAt holdings.toNat allocations c i ≤ amountAt allocations i :=
    fun c i => paidAt_le _ _ _ _
  -- the two agree where the first index and all of them pay the same
  have hagree : (∀ i, goAmountAt new i = amountAt r.newAllocations i ∧
        goAmountAt exits i = exitAt indices r.exitAllocations i) ↔
      ∀ i, paidAt holdings.toNat allocations (indices.take 1) i =
        paidAt holdings.toNat allocations indices i := by
    refine forall_congr' fun i => ?_
    obtain ⟨hnewGo, hexitGo⟩ := hall i
    rw [Nat.zero_add] at hnewGo hexitGo
    rw [hnewGo, hexitGo, hnew i, hexit i]
    have hone := hle (indices.take 1) i
    have hmany := hle indices i
    omega
  rw [hagree]
  exact paidAt_first_iff hinc

open Contracts.Sample

/-- the second of two allocations alone: client and contract agree -/
theorem transfer_emulated_single :
    ∃ r new exits,
      computeTransferEffectsAndInteractions deployment 8 [simple 1, simple 2] [1] = .ok r ∧
      Nitro.computeTransferEffectsAndInteractions (8 : Word).toNat
        ([simple 1, simple 2].map Allocation.toGo) [(1 : Word).toNat] = .ok (new, exits) ∧
      ∀ i, goAmountAt new i = amountAt r.newAllocations i ∧
        goAmountAt exits i = exitAt [1] r.exitAllocations i := by
  obtain ⟨r, new, exits, hok, hgo, hiff⟩ := @transfer_emulated_iff deployment [simple 1, simple 2]
    [1] 8 simple_free (List.pairwise_singleton _ _)
  exact ⟨r, new, exits, hok, hgo, hiff.2 fun w hw => absurd hw List.not_mem_nil⟩

/-- **the second index is forgotten**: holdings of ten pay five and five, the client says five and
nothing -/
theorem emulation_forgets_second :
    (computeTransferEffectsAndInteractions deployment 10 [simple 1, simple 2] [0, 1]).map
        (fun r => r.exitAllocations.map fun a => a.amount.toNat) = .ok [5, 5] ∧
      (Nitro.computeTransferEffectsAndInteractions 10 ([simple 1, simple 2].map Allocation.toGo)
          [0, 1]).map (fun r => (goAmountAt r.2 0, goAmountAt r.2 1)) = .ok (5, 0) := by
  decide +kernel

end MultiAssetHolder

end Nitro.Contracts
