import Nitro.Contracts.Claims

/-!
# What a transfer pays, and to whom

The loop of a transfer runs over the allocations, with a cursor `k` into the indices.  It pays in the
order of the allocations; an allocation that is not selected keeps its share of the holdings.  The type
that the loop checks is that of the allocation at the cursor, not at the loop's index.

* `Cursor`             the cursor stands at the first index that is not below the loop's;
* `transfer_guarded_iff`   which allocations are checked, and when these are the selected ones;
* `paidAt`             what an allocation is paid, in unbounded numbers;
* `Transferred`        the invariant of the loop, with `transferStep_transferred` and
                       `transferLoop_transferred`;
* `transfer_exact`     the result of a transfer without guarantees.
-/

set_option linter.unusedSectionVars false

namespace Nitro.Contracts
open Evm MultiAssetHolder

/-! ## the cursor -/

/-- allocation `i` is asked for; no indices means all of them -/
def Selected (indices : List Word) (i : Nat) : Prop := indices = [] ∨ ∃ w ∈ indices, w.toNat = i

instance (indices : List Word) (i : Nat) : Decidable (Selected indices i) :=
  decidable_of_iff (indices = [] ∨ indices.any (fun w => decide (w.toNat = i)) = true) (by
    simp [Selected])

/-- at allocation `i`, the indices before `k` were met and those from `k` are yet to come -/
structure Cursor (indices : List Word) (i k : Nat) : Prop where
  all : indices = [] → k = i
  before : ∀ w ∈ indices.take k, w.toNat < i
  after : ∀ w ∈ indices.drop k, i ≤ w.toNat
  le : k ≤ i

namespace Cursor
variable {indices : List Word} {i k : Nat}

theorem init : Cursor indices 0 0 where
  all := fun _ => rfl
  before := by simp
  after := fun _ _ => Nat.zero_le _
  le := le_rfl

theorem mem_drop {w : Word} (h : indices[k]? = some w) : w ∈ indices.drop k := by
  have hhead : (indices.drop k)[0]? = some w := by rw [List.getElem?_drop, Nat.add_zero, h]
  exact List.mem_of_getElem? hhead

theorem toNat_index (h : Cursor indices i k) (hk : indices[k]? = some (BitVec.ofNat 256 i)) :
    (BitVec.ofNat 256 i).toNat = i := by
  have hle := h.after _ (mem_drop hk)
  rw [BitVec.toNat_ofNat] at hle ⊢
  exact Nat.le_antisymm (Nat.mod_le _ _) hle

theorem isSelected_iff_selected (h : Cursor indices i k) (hinc : indices.Pairwise (· < ·)) :
    isSelected indices k i = true ↔ Selected indices i := by
  rw [isSelected_iff]
  constructor
  · rintro (hnil | hk)
    · exact .inl hnil
    · exact .inr ⟨_, List.mem_of_getElem? hk, h.toNat_index hk⟩
  · rintro (hnil | ⟨w, hw, rfl⟩)
    · exact .inl hnil
    · right
      rw [BitVec.ofNat_toNat, BitVec.setWidth_eq]
      -- the index is not one of those met, and nothing smaller is yet to come
      have hdrop : w ∈ indices.drop k := by
        rw [← List.take_append_drop k indices] at hw
        rcases List.mem_append.1 hw with hbefore | hafter
        · exact absurd (h.before w hbefore) (Nat.lt_irrefl _)
        · exact hafter
      have hsorted : (indices.drop k).Pairwise (· < ·) := hinc.sublist (List.drop_sublist k indices)
      cases hl : indices.drop k with
      | nil =>
        rw [hl] at hdrop
        cases hdrop
      | cons v rest =>
        rw [hl] at hdrop hsorted
        have hv : indices[k]? = some v := by
          have hhead := congrArg (fun l => l[0]?) hl
          simpa using hhead
        rcases List.mem_cons.1 hdrop with rfl | hlater
        · exact hv
        · have hlt : v.toNat < w.toNat := (List.pairwise_cons.1 hsorted).1 w hlater
          have hge := h.after v (mem_drop hv)
          omega

theorem found (h : Cursor indices i k) (hinc : indices.Pairwise (· < ·))
    (hsel : isSelected indices k i = true) : Cursor indices (i + 1) (k + 1) := by
  rcases isSelected_iff.1 hsel with rfl | hk
  · refine ⟨fun hnil => ?_, by simp, by simp, Nat.succ_le_succ h.le⟩
    rw [h.all hnil]
  · have hi := h.toNat_index hk
    obtain ⟨hlt, hget⟩ := List.getElem?_eq_some_iff.1 hk
    have hsorted : (indices.drop k).Pairwise (· < ·) := hinc.sublist (List.drop_sublist k indices)
    rw [List.drop_eq_getElem_cons hlt, hget] at hsorted
    refine ⟨?_, ?_, ?_, Nat.succ_le_succ h.le⟩
    · rintro rfl
      cases hk
    · intro w hw
      rw [List.take_add_one, hk] at hw
      rcases List.mem_append.1 hw with hold | hnew
      · have hbefore := h.before w hold
        omega
      · have hnew : w = BitVec.ofNat 256 i := by simpa using hnew
        rw [hnew, hi]
        omega
    · intro w hw
      have hless : (BitVec.ofNat 256 i).toNat < w.toNat := (List.pairwise_cons.1 hsorted).1 w hw
      omega

theorem skipped (h : Cursor indices i k) (hinc : indices.Pairwise (· < ·))
    (hsel : ¬ isSelected indices k i = true) : Cursor indices (i + 1) k := by
  have hnot : ¬ Selected indices i := fun hs => hsel ((h.isSelected_iff_selected hinc).2 hs)
  refine ⟨fun hnil => absurd (.inl hnil) hnot, ?_, ?_, Nat.le_succ_of_le h.le⟩
  · intro w hw
    have hbefore := h.before w hw
    omega
  · intro w hw
    have hafter := h.after w hw
    have hne : w.toNat ≠ i := fun he => hnot (.inr ⟨w, List.mem_of_mem_drop hw, he⟩)
    omega

end Cursor

namespace MultiAssetHolder
variable {D : Deployment} {allocations : List Allocation} {indices : List Word} {holdings : Word}
  {i : Nat} {a : Allocation} {s : TransferState}

/-! ## the types that are checked -/

/-- how many allocations are asked for -/
def selectedCount (indices : List Word) (allocations : List Allocation) : Nat :=
  if indices = [] then allocations.length else indices.length

theorem transferStep_selected {atK : Allocation} (hsel : isSelected indices s.k i = true)
    (hk : allocations[s.k]? = some atK) :
    transferStep D allocations indices i a s =
      if atK.allocationType = D.guarantee then .error "cannot transfer a guarantee"
      else .ok
        { newAllocations := s.newAllocations ++
            [{ a with amount := a.amount - minWord a.amount s.surplus }]
          allocatesOnlyZeros := s.allocatesOnlyZeros &&
            decide (a.amount - minWord a.amount s.surplus = 0)
          exitAllocations := s.exitAllocations.set s.k
            { a with amount := minWord a.amount s.surplus }
          totalPayouts := s.totalPayouts + minWord a.amount s.surplus
          surplus := s.surplus - minWord a.amount s.surplus
          k := s.k + 1 } := by
  unfold transferStep
  rw [if_pos hsel]
  have hindex : index allocations s.k = .ok atK := index_eq_ok.2 hk
  rw [hindex]
  by_cases hg : atK.allocationType = D.guarantee
  · rw [if_pos hg]
    simp [require, hg, bind, Except.bind]
  · rw [if_neg hg]
    simp [require, hg, bind, Except.bind]

theorem transferStep_unselected (hsel : ¬ isSelected indices s.k i = true) :
    transferStep D allocations indices i a s = .ok { s with
      newAllocations := s.newAllocations ++ [a]
      allocatesOnlyZeros := s.allocatesOnlyZeros && decide (a.amount = 0)
      surplus := s.surplus - minWord a.amount s.surplus } := by
  unfold transferStep
  rw [if_neg hsel]

theorem lt_count {k : Nat} (h : Cursor indices i k) (hi : i < allocations.length)
    (hsel : isSelected indices k i = true) : k < selectedCount indices allocations := by
  unfold selectedCount
  rcases isSelected_iff.1 hsel with hnil | hk
  · rw [if_pos hnil, h.all hnil]
    exact hi
  · have hlt := (List.getElem?_eq_some_iff.1 hk).1
    rw [if_neg (by
      rintro rfl
      cases hk)]
    exact hlt

theorem count_le {k : Nat} (h : Cursor indices allocations.length k)
    (hrange : ∀ w ∈ indices, w.toNat < allocations.length) :
    selectedCount indices allocations ≤ k := by
  unfold selectedCount
  split
  · next hnil => rw [h.all hnil]
  · by_contra hlt
    obtain ⟨w, hw⟩ : ∃ w, indices[k]? = some w := ⟨_, List.getElem?_eq_getElem (by omega)⟩
    have hafter := h.after w (Cursor.mem_drop hw)
    have hin := hrange w (List.mem_of_getElem? hw)
    omega

/-- the loop checks the allocations from the cursor on, as many as are asked for -/
theorem transferLoop_error_iff {rest : List Allocation} (hinc : indices.Pairwise (· < ·))
    (hrange : ∀ w ∈ indices, w.toNat < allocations.length) (hrest : rest = allocations.drop i)
    (hcursor : Cursor indices i s.k) (hi : i ≤ allocations.length) :
    (∃ e, transferLoop D allocations indices i rest s = .error e) ↔
      ∃ x b, s.k ≤ x ∧ x < selectedCount indices allocations ∧ allocations[x]? = some b ∧
        b.allocationType = D.guarantee := by
  induction rest generalizing i s with
  | nil =>
    have hend : i = allocations.length := by
      have hlen := congrArg List.length hrest
      rw [List.length_drop, List.length_nil] at hlen
      omega
    have hcount := count_le (hend ▸ hcursor) hrange
    constructor
    · rintro ⟨e, he⟩
      cases he
    · rintro ⟨x, b, hx, hlt, -, -⟩
      omega
  | cons a rest ih =>
    have hlt : i < allocations.length := by
      have hlen := congrArg List.length hrest
      rw [List.length_drop, List.length_cons] at hlen
      omega
    have hnext : rest = allocations.drop (i + 1) := by
      rw [← List.drop_drop, ← hrest]
      rfl
    unfold transferLoop
    by_cases hsel : isSelected indices s.k i = true
    · have hkl : s.k < allocations.length := Nat.lt_of_le_of_lt hcursor.le hlt
      have hcount := lt_count hcursor hlt hsel
      obtain ⟨atK, hk⟩ : ∃ atK, allocations[s.k]? = some atK := ⟨_, List.getElem?_eq_getElem hkl⟩
      rw [transferStep_selected hsel hk]
      by_cases hg : atK.allocationType = D.guarantee
      · rw [if_pos hg]
        exact ⟨fun _ => ⟨s.k, atK, le_rfl, hcount, hk, hg⟩, fun _ => ⟨_, rfl⟩⟩
      · rw [if_neg hg]
        refine Iff.trans (ih hnext (hcursor.found hinc hsel) hlt) ?_
        constructor
        · rintro ⟨x, b, hx, hxlt, hb, hbg⟩
          exact ⟨x, b, Nat.le_of_succ_le hx, hxlt, hb, hbg⟩
        · rintro ⟨x, b, hx, hxlt, hb, hbg⟩
          refine ⟨x, b, Nat.lt_of_le_of_ne hx ?_, hxlt, hb, hbg⟩
          rintro rfl
          rw [hk] at hb
          exact hg (Option.some.inj hb ▸ hbg)
    · rw [transferStep_unselected hsel]
      exact ih hnext (hcursor.skipped hinc hsel) hlt

/-- some allocation that is asked for is a guarantee -/
def SelectsGuarantee (D : Deployment) (allocations : List Allocation) (indices : List Word) : Prop :=
  ∃ i a, Selected indices i ∧ allocations[i]? = some a ∧ a.allocationType = D.guarantee

/-- **a transfer is refused for the guarantees it selects** exactly when the first allocations, as many
as it selects, have a guarantee just when the selected ones have -/
theorem transfer_guarded_iff (hinc : indices.Pairwise (· < ·))
    (hrange : ∀ w ∈ indices, w.toNat < allocations.length) :
    ((∃ e, computeTransferEffectsAndInteractions D holdings allocations indices = .error e) ↔
        SelectsGuarantee D allocations indices) ↔
      ((∃ a ∈ allocations.take (selectedCount indices allocations),
          a.allocationType = D.guarantee) ↔ SelectsGuarantee D allocations indices) := by
  have hchecked : (∃ e, computeTransferEffectsAndInteractions D holdings allocations indices =
        .error e) ↔
      ∃ a ∈ allocations.take (selectedCount indices allocations),
        a.allocationType = D.guarantee := by
    refine Iff.trans (transferLoop_error_iff hinc hrange rfl Cursor.init (Nat.zero_le _)) ?_
    constructor
    · rintro ⟨x, b, -, hx, hb, hg⟩
      refine ⟨b, List.mem_of_getElem? (i := x) ?_, hg⟩
      rw [List.getElem?_take_of_lt hx, hb]
    · rintro ⟨b, hb, hg⟩
      obtain ⟨x, hx⟩ := List.mem_iff_getElem?.1 hb
      have hlt : x < selectedCount indices allocations := by
        have hlen := (List.getElem?_eq_some_iff.1 hx).1
        rw [List.length_take] at hlen
        omega
      rw [List.getElem?_take_of_lt hlt] at hx
      exact ⟨x, b, Nat.zero_le _, hlt, hx, hg⟩
  rw [hchecked]

/-! ## what is paid -/

/-- **what allocation `i` is paid**: if it is asked for, what the allocations before it leave of the
holdings, and no more than its amount -/
def paidAt (holdings : Nat) (allocations : List Allocation) (indices : List Word) (i : Nat) : Nat :=
  if Selected indices i then
    min (amountAt allocations i) (holdings - amounts (allocations.take i))
  else 0

/-- the positions that are asked for, in order -/
def positions (indices : List Word) (allocations : List Allocation) : List Nat :=
  if indices = [] then List.range allocations.length else indices.map fun w => w.toNat

/-- allocation `i` with another amount, blank beyond the end -/
def entry (allocations : List Allocation) (i amount : Nat) : Allocation :=
  match allocations[i]? with
  | some a => { a with amount := BitVec.ofNat 256 amount }
  | none => default

theorem paidAt_le (holdings : Nat) (allocations : List Allocation) (indices : List Word) (i : Nat) :
    paidAt holdings allocations indices i ≤ amountAt allocations i := by
  unfold paidAt
  split
  · exact Nat.min_le_left _ _
  · exact Nat.zero_le _

theorem toNat_entry {v : Nat} (h : v ≤ amountAt allocations i) :
    (entry allocations i v).amount.toNat = v := by
  unfold entry amountAt at *
  cases ha : allocations[i]? with
  | none =>
    rw [ha] at h
    have hzero : v = 0 := Nat.le_zero.1 h
    rw [hzero]
    rfl
  | some a =>
    rw [ha] at h
    have hle : v ≤ a.amount.toNat := h
    have hlt := a.amount.isLt
    show (BitVec.ofNat 256 v).toNat = v
    rw [BitVec.toNat_ofNat, Nat.mod_eq_of_lt (by omega)]

theorem entry_of_getElem? {v : Word} (h : allocations[i]? = some a) :
    entry allocations i v.toNat = { a with amount := v } := by
  unfold entry
  rw [h, BitVec.ofNat_toNat, BitVec.setWidth_eq]

theorem amounts_take_succ (h : allocations[i]? = some a) :
    amounts (allocations.take (i + 1)) = amounts (allocations.take i) + a.amount.toNat := by
  rw [List.take_add_one, h]
  simp [amounts]

/-- **the state of the loop** before allocation `i` -/
structure Transferred (holdings : Nat) (allocations : List Allocation) (indices : List Word) (i : Nat)
    (s : TransferState) : Prop where
  cursor : Cursor indices i s.k
  surplus : s.surplus.toNat = holdings - amounts (allocations.take i)
  kept : s.newAllocations = (List.range i).map fun j =>
    entry allocations j (amountAt allocations j - paidAt holdings allocations indices j)
  onlyZeros : s.allocatesOnlyZeros = true ↔ ∀ b ∈ s.newAllocations, b.amount = 0
  exits : ∀ x, s.exitAllocations[x]? = ((positions indices allocations)[x]?).map fun j =>
    if x < s.k then entry allocations j (paidAt holdings allocations indices j) else default
  payouts : s.totalPayouts.toNat = ((List.range i).map (paidAt holdings allocations indices)).sum
  held : s.totalPayouts.toNat + s.surplus.toNat ≤ holdings

namespace Transferred
variable {h : Nat}

theorem toNat_affords (hs : Transferred h allocations indices i s) (ha : allocations[i]? = some a) :
    (minWord a.amount s.surplus).toNat =
      min (amountAt allocations i) (h - amounts (allocations.take i)) := by
  rw [toNat_minWord, hs.surplus, amountAt_of_getElem? ha]

theorem surplus_next (hs : Transferred h allocations indices i s) (ha : allocations[i]? = some a) :
    (s.surplus - minWord a.amount s.surplus).toNat =
      h - amounts (allocations.take (i + 1)) := by
  rw [BitVec.toNat_sub_of_le (minWord_le_right _ _), toNat_minWord, hs.surplus,
    amounts_take_succ ha]
  omega

theorem sum_next (hs : Transferred h allocations indices i s) :
    ((List.range (i + 1)).map (paidAt h allocations indices)).sum =
      s.totalPayouts.toNat + paidAt h allocations indices i := by
  rw [List.range_succ, List.map_append, List.sum_append, ← hs.payouts]
  simp

theorem onlyZeros_next (hs : Transferred h allocations indices i s) (b : Allocation) :
    (s.allocatesOnlyZeros && decide (b.amount = 0)) = true ↔
      ∀ c ∈ s.newAllocations ++ [b], c.amount = 0 := by
  rw [Bool.and_eq_true, hs.onlyZeros, decide_eq_true_iff]
  simp only [List.mem_append, List.mem_singleton, or_imp, forall_and, forall_eq]

theorem kept_next (hs : Transferred h allocations indices i s) {b : Allocation}
    (hb : b = entry allocations i (amountAt allocations i - paidAt h allocations indices i)) :
    s.newAllocations ++ [b] = (List.range (i + 1)).map fun j =>
      entry allocations j (amountAt allocations j - paidAt h allocations indices j) := by
  rw [List.range_succ, List.map_append, hs.kept, hb]
  rfl

theorem positions_cursor (hs : Transferred h allocations indices i s) (hi : i < allocations.length)
    (hsel : isSelected indices s.k i = true) : (positions indices allocations)[s.k]? = some i := by
  unfold positions
  rcases isSelected_iff.1 hsel with hnil | hk
  · rw [if_pos hnil, hs.cursor.all hnil, List.getElem?_range hi]
  · rw [if_neg (by
      rintro rfl
      cases hk), List.getElem?_map, hk, Option.map_some, hs.cursor.toNat_index hk]

end Transferred

theorem transferStep_transferred {h : Nat} (hh : h < 2 ^ 256)
    (hfree : ∀ b ∈ allocations, b.allocationType ≠ D.guarantee) (hinc : indices.Pairwise (· < ·))
    (hs : Transferred h allocations indices i s) (ha : allocations[i]? = some a) :
    ∃ s', transferStep D allocations indices i a s = .ok s' ∧
      Transferred h allocations indices (i + 1) s' := by
  have hi : i < allocations.length := (List.getElem?_eq_some_iff.1 ha).1
  have hv : (minWord a.amount s.surplus).toNat ≤ s.surplus.toNat := minWord_le_right _ _
  have hafford := hs.toNat_affords ha
  have hsurplus := hs.surplus_next ha
  have hheld := hs.held
  have hleft : (s.surplus - minWord a.amount s.surplus).toNat =
      s.surplus.toNat - (minWord a.amount s.surplus).toNat :=
    BitVec.toNat_sub_of_le (minWord_le_right _ _)
  by_cases hsel : isSelected indices s.k i = true
  · have hselected := (hs.cursor.isSelected_iff_selected hinc).1 hsel
    have hpaid : paidAt h allocations indices i = (minWord a.amount s.surplus).toNat := by
      rw [hafford]
      exact if_pos hselected
    obtain ⟨atK, hk⟩ : ∃ atK, allocations[s.k]? = some atK :=
      ⟨_, List.getElem?_eq_getElem (Nat.lt_of_le_of_lt hs.cursor.le hi)⟩
    have hfreeK := hfree atK (List.mem_of_getElem? hk)
    have hle : minWord a.amount s.surplus ≤ a.amount := by
      show (minWord a.amount s.surplus).toNat ≤ a.amount.toNat
      rw [toNat_minWord]
      exact Nat.min_le_left _ _
    have hkept : ({ a with amount := a.amount - minWord a.amount s.surplus } : Allocation) =
        entry allocations i (amountAt allocations i - paidAt h allocations indices i) := by
      rw [hpaid, amountAt_of_getElem? ha, ← BitVec.toNat_sub_of_le hle, entry_of_getElem? ha]
    have hsum : (s.totalPayouts + minWord a.amount s.surplus).toNat =
        s.totalPayouts.toNat + (minWord a.amount s.surplus).toNat := by
      rw [BitVec.toNat_add]
      exact Nat.mod_eq_of_lt (by omega)
    refine ⟨_, (transferStep_selected hsel hk).trans (if_neg hfreeK), ?_⟩
    refine ⟨hs.cursor.found hinc hsel, hsurplus, hs.kept_next hkept,
      hs.onlyZeros_next { a with amount := a.amount - minWord a.amount s.surplus }, ?_, ?_, ?_⟩
    · intro x
      have hposition := hs.positions_cursor hi hsel
      rw [List.getElem?_set]
      by_cases hx : s.k = x
      · -- the entry of the allocation itself
        rw [if_pos hx, ← hx, hposition]
        have hlen : s.k < s.exitAllocations.length := by
          have hold := hs.exits s.k
          rw [hposition] at hold
          exact (List.getElem?_eq_some_iff.1 hold).1
        rw [if_pos hlen, Option.map_some, if_pos (Nat.lt_succ_self _), hpaid, entry_of_getElem? ha]
      · rw [if_neg hx, hs.exits x]
        have hiff : x < s.k ↔ x < s.k + 1 := by omega
        simp only [hiff]
    · rw [hs.sum_next, hpaid]
      exact hsum
    · show (s.totalPayouts + minWord a.amount s.surplus).toNat +
        (s.surplus - minWord a.amount s.surplus).toNat ≤ h
      omega
  · have hselected : ¬ Selected indices i :=
      fun hsel' => hsel ((hs.cursor.isSelected_iff_selected hinc).2 hsel')
    have hpaid : paidAt h allocations indices i = 0 := if_neg hselected
    have hkept : a = entry allocations i
        (amountAt allocations i - paidAt h allocations indices i) := by
      rw [hpaid, Nat.sub_zero, amountAt_of_getElem? ha, entry_of_getElem? ha]
    refine ⟨_, transferStep_unselected hsel, ?_⟩
    refine ⟨hs.cursor.skipped hinc hsel, hsurplus, hs.kept_next hkept, hs.onlyZeros_next a, hs.exits,
      ?_, ?_⟩
    · rw [hs.sum_next, hpaid, Nat.add_zero]
    · show s.totalPayouts.toNat + (s.surplus - minWord a.amount s.surplus).toNat ≤ h
      omega

theorem transferLoop_transferred {h : Nat} {rest : List Allocation} (hh : h < 2 ^ 256)
    (hfree : ∀ b ∈ allocations, b.allocationType ≠ D.guarantee) (hinc : indices.Pairwise (· < ·))
    (hrest : rest = allocations.drop i) (hi : i ≤ allocations.length)
    (hs : Transferred h allocations indices i s) :
    ∃ r, transferLoop D allocations indices i rest s = .ok r ∧
      Transferred h allocations indices allocations.length r := by
  induction rest generalizing i s with
  | nil =>
    have hend : i = allocations.length := by
      have hlen := congrArg List.length hrest
      rw [List.length_drop, List.length_nil] at hlen
      omega
    exact ⟨s, rfl, hend ▸ hs⟩
  | cons a rest ih =>
    have hget : allocations[i]? = some a := by
      have hhead := congrArg (fun l => l[0]?) hrest
      simpa using hhead.symm
    have hlt : i < allocations.length := (List.getElem?_eq_some_iff.1 hget).1
    have hnext : rest = allocations.drop (i + 1) := by
      rw [← List.drop_drop, ← hrest]
      rfl
    obtain ⟨s', hstep, hs'⟩ := transferStep_transferred hh hfree hinc hs hget
    obtain ⟨r, hloop, hr⟩ := ih hnext hlt hs'
    exact ⟨r, bind_eq_ok.2 ⟨s', hstep, hloop⟩, hr⟩

theorem positions_length (indices : List Word) (allocations : List Allocation) :
    (positions indices allocations).length = selectedCount indices allocations := by
  unfold positions selectedCount
  split <;> simp

theorem transferred_init (holdings : Word) (allocations : List Allocation) (indices : List Word) :
    Transferred holdings.toNat allocations indices 0
      { newAllocations := []
        allocatesOnlyZeros := true
        exitAllocations :=
          List.replicate (if 0 < indices.length then indices.length else allocations.length) default
        totalPayouts := 0
        surplus := holdings
        k := 0 } := by
  have hcount : (if 0 < indices.length then indices.length else allocations.length) =
      selectedCount indices allocations := by
    unfold selectedCount
    cases indices with
    | nil => rfl
    | cons w indices => simp
  refine ⟨Cursor.init, rfl, rfl, by simp, ?_, rfl, by simp⟩
  intro x
  show (List.replicate (if 0 < indices.length then indices.length else allocations.length)
    (default : Allocation))[x]? = _
  rw [hcount, ← positions_length, List.getElem?_replicate]
  by_cases hx : x < (positions indices allocations).length
  · rw [if_pos hx, List.getElem?_eq_getElem hx]
    rfl
  · rw [if_neg hx, List.getElem?_eq_none (by omega)]
    rfl

/-- the indices that the loop has not met lie beyond the allocations -/
theorem exits_final {r : TransferState} {h : Nat}
    (hr : Transferred h allocations indices allocations.length r) :
    r.exitAllocations = (positions indices allocations).map fun j =>
      entry allocations j (paidAt h allocations indices j) := by
  apply List.ext_getElem?
  intro x
  rw [hr.exits x, List.getElem?_map]
  cases hj : (positions indices allocations)[x]? with
  | none => rfl
  | some j =>
    rw [Option.map_some, Option.map_some]
    split
    · rfl
    · next hx =>
      have hbeyond : allocations[j]? = none := by
        apply List.getElem?_eq_none
        unfold positions at hj
        split at hj
        · next hnil =>
          have hlt := (List.getElem?_eq_some_iff.1 hj).1
          rw [List.length_range, ← hr.cursor.all hnil] at hlt
          omega
        · rw [List.getElem?_map] at hj
          obtain ⟨w, hw, rfl⟩ := Option.map_eq_some_iff.1 hj
          apply hr.cursor.after w
          rw [List.mem_iff_getElem?]
          refine ⟨x - r.k, ?_⟩
          rw [List.getElem?_drop, Nat.add_sub_of_le (by omega), hw]
      unfold entry
      rw [hbeyond]

/-- **the payout rule of a transfer without guarantees**: each allocation that is asked for is paid
what those before it leave, the exit lists these payments, and their sum is held -/
theorem transfer_exact (hfree : ∀ a ∈ allocations, a.allocationType ≠ D.guarantee)
    (hinc : indices.Pairwise (· < ·)) :
    ∃ r, computeTransferEffectsAndInteractions D holdings allocations indices = .ok r ∧
      r.newAllocations.length = allocations.length ∧
      (∀ i, amountAt r.newAllocations i =
        amountAt allocations i - paidAt holdings.toNat allocations indices i) ∧
      r.exitAllocations.map (fun a => a.amount.toNat) =
        (positions indices allocations).map (paidAt holdings.toNat allocations indices) ∧
      r.totalPayouts.toNat =
        ((List.range allocations.length).map (paidAt holdings.toNat allocations indices)).sum ∧
      r.totalPayouts.toNat ≤ holdings.toNat ∧
      (r.allocatesOnlyZeros = true ↔ ∀ a ∈ r.newAllocations, a.amount = 0) := by
  obtain ⟨r, hok, hr⟩ := transferLoop_transferred holdings.isLt hfree hinc rfl (Nat.zero_le _)
    (transferred_init holdings allocations indices)
  refine ⟨r, hok, ?_, ?_, ?_, hr.payouts, ?_, hr.onlyZeros⟩
  · rw [hr.kept, List.length_map, List.length_range]
  · intro i
    rcases Nat.lt_or_ge i allocations.length with hi | hi
    · have hentry : r.newAllocations[i]? = some (entry allocations i
          (amountAt allocations i - paidAt holdings.toNat allocations indices i)) := by
        rw [hr.kept, List.getElem?_map, List.getElem?_range hi, Option.map_some]
      rw [amountAt_of_getElem? hentry, toNat_entry (Nat.sub_le _ _)]
    · have hnone : r.newAllocations[i]? = none := by
        apply List.getElem?_eq_none
        rw [hr.kept, List.length_map, List.length_range]
        exact hi
      have hbeyond : allocations[i]? = none := List.getElem?_eq_none hi
      simp [amountAt, hnone, hbeyond]
  · rw [exits_final hr, List.map_map]
    apply List.map_congr_left
    intro j _
    exact toNat_entry (paidAt_le holdings.toNat allocations indices j)
  · have hheld := hr.held
    omega

end MultiAssetHolder

namespace Sample

/-- two simple allocations of five, and a guarantee of five -/
def simple (destination : Bytes32) : Allocation := ⟨destination, 5, 0, []⟩

def guarantee (destination : Bytes32) : Allocation := ⟨destination, 5, 2, []⟩

end Sample

namespace MultiAssetHolder
open Contracts.Sample

theorem simple_free : ∀ a ∈ [simple 1, simple 2], a.allocationType ≠ deployment.guarantee := by
  decide

/-- holdings of eight pay five and three; the second of two allocations is asked for alone -/
theorem transfer_exact_second :
    ∃ r, computeTransferEffectsAndInteractions deployment 8 [simple 1, simple 2] [1] = .ok r ∧
      r.exitAllocations.map (fun a => a.amount.toNat) = [3] := by
  obtain ⟨r, hok, -, -, hexits, -⟩ :=
    @transfer_exact deployment [simple 1, simple 2] [1] 8 simple_free (List.pairwise_singleton _ _)
  refine ⟨r, hok, hexits.trans ?_⟩
  decide +kernel

theorem selects_first : SelectsGuarantee deployment [guarantee 1, simple 2] [0] := by
  have hzero : (0 : Word).toNat = 0 := BitVec.toNat_ofNat 0 256
  exact ⟨0, guarantee 1, .inr ⟨0, List.mem_singleton_self _, hzero⟩, rfl, rfl⟩

/-- the guarantee that is asked for comes first and is refused; of two simple allocations the second
one is paid -/
theorem transfer_guarded_two :
    (SelectsGuarantee deployment [guarantee 1, simple 2] [0] ∧
      ∃ e, computeTransferEffectsAndInteractions deployment 8 [guarantee 1, simple 2] [0] = .error e) ∧
    (¬ SelectsGuarantee deployment [simple 1, simple 2] [1] ∧
      ¬ ∃ e, computeTransferEffectsAndInteractions deployment 8 [simple 1, simple 2] [1] =
        .error e) := by
  have hrange (i : Word) (l : List Allocation) (h : i.toNat < l.length) :
      ∀ w ∈ [i], w.toNat < l.length := by
    intro w hw
    rwa [List.mem_singleton.1 hw]
  have hfirst := (@transfer_guarded_iff deployment [guarantee 1, simple 2] [0] 8
    (List.pairwise_singleton _ _) (hrange 0 _ (by decide +kernel))).2
      ⟨fun _ => selects_first, fun _ => ⟨guarantee 1, List.mem_cons_self, rfl⟩⟩
  have hnone : ¬ SelectsGuarantee deployment [simple 1, simple 2] [1] := by
    rintro ⟨i, a, -, ha, hg⟩
    exact absurd hg (simple_free a (List.mem_of_getElem? ha))
  have hunchecked : ¬ ∃ a ∈ [simple 1, simple 2].take (selectedCount [(1 : Word)] [simple 1, simple 2]),
      a.allocationType = deployment.guarantee := by
    rintro ⟨a, ha, hg⟩
    exact absurd hg (simple_free a (List.mem_of_mem_take ha))
  have hsecond := (@transfer_guarded_iff deployment [simple 1, simple 2] [1] 8
    (List.pairwise_singleton _ _) (hrange 1 _ (by decide +kernel))).2 (iff_of_false hunchecked hnone)
  exact ⟨⟨selects_first, hfirst.2 selects_first⟩, hnone, fun h => hnone (hsecond.1 h)⟩

/-- **the type is read at the wrong place**: a simple allocation behind a guarantee cannot be paid, and
a guarantee behind a simple allocation is paid -/
theorem transfer_reads_wrong_type :
    computeTransferEffectsAndInteractions deployment 10 [guarantee 1, simple 2] [1] =
        .error "cannot transfer a guarantee" ∧
      ¬ SelectsGuarantee deployment [guarantee 1, simple 2] [1] ∧
      (computeTransferEffectsAndInteractions deployment 10 [simple 1, guarantee 2] [1]).map
          TransferState.exitAllocations = .ok [guarantee 2] ∧
      SelectsGuarantee deployment [simple 1, guarantee 2] [1] := by
  refine ⟨by decide +kernel, ?_, by decide +kernel, 1, guarantee 2, by decide +kernel, rfl, rfl⟩
  rintro ⟨i, a, hsel, ha, hg⟩
  rcases hsel with hnil | ⟨w, hw, rfl⟩
  · cases hnil
  · have hone : (1 : Word).toNat = 1 := BitVec.toNat_ofNat 1 256
    rw [List.mem_singleton.1 hw, hone] at ha
    have ha : some (simple 2) = some a := ha
    obtain rfl := Option.some.inj ha
    exact simple_free (simple 2) (by decide) hg

end MultiAssetHolder

end Nitro.Contracts
