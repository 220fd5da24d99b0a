import Nitro.Lib.KeyCursor
import Nitro.Contracts.Claims
import Nitro.Contracts.Transfers

/-!
# Claims for some allocations only

A claim goes through the guaranteed destinations and visits the first allocation to each of them; what
the surplus affords is the same whichever indices are asked for.  A cursor into the indices decides
which visits are paid.  The indices increase and the visits come in the order of the destinations.

* `visits`               the allocations that a claim comes to, with what the surplus affords;
* `claimLoop_exits`      the exit that a claim leaves, in terms of the visits;
* `InTurn`               the indices that the full claim pays are visited in turn;
* `claim_restricts_iff`  a claim with indices pays what the full claim pays to them exactly then.
-/

set_option linter.unusedSectionVars false

namespace Nitro.Contracts
open Evm MultiAssetHolder KeyCursor

/-! ## visits -/

/-- where the first allocation to a destination stands -/
def positionOf (target : List Allocation) (d : Bytes32) : Option Nat :=
  target.findIdx? fun a => decide (d = a.destination)

/-- the visited positions with what is afforded there, until the surplus is used up -/
def visits (target : List Allocation) : Nat → List Bytes32 → List (Nat × Nat)
  | _, [] => []
  | surplus, d :: ds =>
    if surplus = 0 then []
    else
      match positionOf target d with
      | none => visits target surplus ds
      | some i =>
        (i, min (amountAt target i) surplus) :: visits target (surplus - amountAt target i) ds

/-- the visits that are paid -/
def paidVisits (indices : List Word) (k : Nat) (l : List (Nat × Nat)) : List (Nat × Nat) :=
  if indices = [] then l else hits ((indices.drop k).map fun w => w.toNat) l

section visits
variable {target : List Allocation} {idx : Nat} {indices : List Word} {d : Bytes32}
  {ds : List Bytes32} {s : ClaimState} {surplus i k : Nat}

theorem visits_eq_zero {v : Nat} (h : (i, v) ∈ visits target surplus ds) :
    v = 0 ↔ amountAt target i = 0 := by
  induction ds generalizing surplus with
  | nil => cases h
  | cons d ds ih =>
    unfold visits at h
    split at h
    · cases h
    · next hsurplus =>
      split at h
      · exact ih h
      · rcases List.mem_cons.1 h with heq | h
        · cases heq
          omega
        · exact ih h

theorem claimSearch_position (idx : Nat) (indices : List Word) (d : Bytes32)
    (hs : s.targetSurplus ≠ 0) :
    (positionOf target d = none ∧ claimSearch idx indices d 0 target s = s) ∨
    ∃ j a, positionOf target d = some j ∧ target[j]? = some a ∧
      claimSearch idx indices d 0 target s = claimPay idx indices j a s := by
  rcases claimSearch_eq target 0 hs with ⟨-, hnone, hsame⟩ | ⟨j, a, hj, hda, -, hfirst, hpay⟩
  · refine .inl ⟨List.findIdx?_eq_none_iff.2 fun a ha => ?_, hsame⟩
    exact decide_eq_false (hnone a ha)
  · refine .inr ⟨j, a, ?_, hj, ?_⟩
    · obtain ⟨hlt, hget⟩ := List.getElem?_eq_some_iff.1 hj
      refine List.findIdx?_eq_some_iff_getElem.2 ⟨hlt, ?_, fun x hx => ?_⟩
      · rw [hget]
        exact decide_eq_true hda
      · have hmem : target[x] ∈ target.take j := List.mem_take_iff_getElem.2 ⟨x, by omega, rfl⟩
        simpa using hfirst _ hmem
    · rw [hpay, Nat.zero_add]

theorem claimPay_exits {a : Allocation} (hi : i < s.exitAllocations.length) :
    amountAt (claimPay idx indices i a s).exitAllocations =
      if isSelected indices s.k i = true then
        Function.update (amountAt s.exitAllocations) i (minWord a.amount s.targetSurplus).toNat
      else amountAt s.exitAllocations := by
  unfold claimPay
  split
  · funext j
    show amountAt (s.exitAllocations.modify i _) j = _
    rw [amountAt_modify]
    by_cases hij : i = j
    · subst hij
      rw [if_pos rfl, Function.update_self, List.getElem?_eq_getElem hi]
      rfl
    · rw [if_neg hij, Function.update_of_ne (Ne.symm hij)]
  · rfl

theorem claimPay_surplus {a : Allocation} : (claimPay idx indices i a s).targetSurplus =
    s.targetSurplus - minWord a.amount s.targetSurplus := by
  unfold claimPay
  split <;> rfl

theorem claimPay_length {a : Allocation} :
    (claimPay idx indices i a s).exitAllocations.length = s.exitAllocations.length := by
  unfold claimPay
  split
  · exact List.length_modify _ _ _
  · rfl

theorem claimPay_k {a : Allocation} : (claimPay idx indices i a s).k =
    if isSelected indices s.k i = true then s.k + 1 else s.k := by
  unfold claimPay
  split <;> rfl

theorem paidVisits_cons (hi : i < 2 ^ 256) (v : Nat) (l : List (Nat × Nat)) :
    paidVisits indices k ((i, v) :: l) =
      if isSelected indices k i = true then (i, v) :: paidVisits indices (k + 1) l
      else paidVisits indices k l := by
  unfold paidVisits
  by_cases hnil : indices = []
  · rw [if_pos hnil, if_pos hnil, if_pos (isSelected_iff.2 (.inl hnil))]
  · rw [if_neg hnil, if_neg hnil, if_neg hnil]
    have hsel : isSelected indices k i = true ↔ indices[k]? = some (BitVec.ofNat 256 i) := by
      rw [isSelected_iff, or_iff_right hnil]
    cases hk : indices[k]? with
    | none =>
      have hend : indices.drop k = [] := List.drop_eq_nil_of_le (List.getElem?_eq_none_iff.1 hk)
      have hnot : ¬ isSelected indices k i = true := by
        rw [hsel, hk]
        exact fun h => by cases h
      rw [if_neg hnot, hend, List.map_nil, hits_nil, hits_nil]
    | some w =>
      obtain ⟨hlt, hget⟩ := List.getElem?_eq_some_iff.1 hk
      rw [List.drop_eq_getElem_cons hlt, hget, List.map_cons]
      have hsame : w.toNat = i ↔ isSelected indices k i = true := by
        rw [hsel, hk, Option.some.injEq]
        constructor
        · intro h
          rw [← h, BitVec.ofNat_toNat, BitVec.setWidth_eq]
        · intro h
          rw [h, BitVec.toNat_ofNat, Nat.mod_eq_of_lt hi]
      by_cases h : w.toNat = i
      · rw [hits_cons_pos h, if_pos (hsame.1 h)]
      · rw [hits_cons_neg h, if_neg fun hs => h (hsame.2 hs)]

/-- **the exit of a claim**: what the paid visits leave -/
theorem claimLoop_exits (hlen : target.length ≤ 2 ^ 256)
    (hs : s.exitAllocations.length = target.length) :
    amountAt (claimLoop idx indices target ds s).exitAllocations =
      write (amountAt s.exitAllocations)
        (paidVisits indices s.k (visits target s.targetSurplus.toNat ds)) := by
  induction ds generalizing s with
  | nil =>
    show amountAt s.exitAllocations = write _ (paidVisits indices s.k [])
    unfold paidVisits
    split
    · rfl
    · cases (indices.drop s.k).map fun w => w.toNat <;> rfl
  | cons d ds ih =>
    unfold claimLoop visits
    by_cases h0 : s.targetSurplus = 0
    · have hzero : s.targetSurplus.toNat = 0 := by rw [h0]; rfl
      rw [if_pos h0, if_pos hzero]
      unfold paidVisits
      split
      · rfl
      · cases (indices.drop s.k).map fun w => w.toNat <;> rfl
    · have hzero : s.targetSurplus.toNat ≠ 0 := fun h => h0 (BitVec.eq_of_toNat_eq h)
      rw [if_neg h0, if_neg hzero]
      rcases claimSearch_position idx indices d h0 with ⟨hnone, hsame⟩ | ⟨j, a, hpos, hj, hpay⟩
      · rw [hsame, hnone]
        exact ih hs
      · have hlt : j < target.length := (List.getElem?_eq_some_iff.1 hj).1
        have hv : (minWord a.amount s.targetSurplus).toNat =
            min (amountAt target j) s.targetSurplus.toNat := by
          rw [toNat_minWord, amountAt_of_getElem? hj]
        have hsurplus : (s.targetSurplus - minWord a.amount s.targetSurplus).toNat =
            s.targetSurplus.toNat - amountAt target j := by
          rw [BitVec.toNat_sub_of_le (minWord_le_right a.amount s.targetSurplus), hv]
          omega
        rw [hpay, hpos]
        show amountAt (claimLoop idx indices target ds (claimPay idx indices j a s)).exitAllocations =
          write _ (paidVisits indices s.k ((j, min (amountAt target j) s.targetSurplus.toNat) ::
            visits target (s.targetSurplus.toNat - amountAt target j) ds))
        rw [ih (claimPay_length.trans hs), claimPay_surplus, hsurplus, claimPay_k,
          claimPay_exits (hs ▸ hlt), paidVisits_cons (by omega), hv]
        by_cases hsel : isSelected indices s.k j = true
        · rw [if_pos hsel, if_pos hsel, if_pos hsel]
          rfl
        · rw [if_neg hsel, if_neg hsel, if_neg hsel]

end visits

/-! ## restricting a claim -/

section restrict
variable {holdings : Word} {source target : List Allocation} {idx : Nat} {indices : List Word}

/-- whether a claim reverts, and what it can afford, does not depend on the indices -/
theorem computeClaim_cases (holdings : Word) (source target : List Allocation) (idx : Nat) :
    (∃ e, ∀ indices,
      computeClaimEffectsAndInteractions holdings source target idx indices = .error e) ∨
    ∃ surplus : Word, surplus.toNat = affordable holdings source idx ∧ ∀ indices,
      computeClaimEffectsAndInteractions holdings source target idx indices =
        .ok (claimLoop idx indices target (guaranteedDestinations source idx)
          (claimStart source target surplus)) := by
  cases hs : sourceSurplus source idx holdings with
  | error e =>
    refine .inl ⟨e, fun indices => ?_⟩
    unfold computeClaimEffectsAndInteractions
    rw [hs]
    rfl
  | ok surplus =>
    cases hg : index source idx with
    | error e =>
      refine .inl ⟨e, fun indices => ?_⟩
      unfold computeClaimEffectsAndInteractions
      rw [hs, hg]
      rfl
    | ok g =>
      cases hds : decodeGuaranteeData g.metadata with
      | error e =>
        refine .inl ⟨e, fun indices => ?_⟩
        unfold computeClaimEffectsAndInteractions
        rw [hs, hg]
        show (decodeGuaranteeData g.metadata >>= _) = _
        rw [hds]
        rfl
      | ok ds =>
        have hget := index_eq_ok.1 hg
        have hread : guaranteedDestinations source idx = ds := by
          simp [guaranteedDestinations, hget, hds, Except.toOption]
        refine .inr ⟨minWord surplus g.amount, ?_, fun indices => ?_⟩
        · rw [toNat_minWord, sourceSurplus_eq hs, affordable, amountAt_of_getElem? hget]
          omega
        · unfold computeClaimEffectsAndInteractions
          rw [hs, hg]
          show (decodeGuaranteeData g.metadata >>= _) = _
          rw [hds, hread]
          rfl

/-- what the full claim leaves for a position: the amount of the last visit to it -/
def lastPaid (l : List (Nat × Nat)) : Nat → Nat := write (fun _ => 0) l

/-- every listed position that the full claim pays is visited after those listed before it were
visited in turn, and the first such visit pays as much as the last visit to it -/
def InTurn (listed : List Nat) (l : List (Nat × Nat)) : Prop :=
  ∀ x i, listed[x]? = some i → lastPaid l i ≠ 0 → Completes listed l x (i, lastPaid l i)

/-- the paid visits leave what all visits leave for the listed positions exactly when these are
visited in turn -/
theorem write_hits_iff {listed : List Nat} (hnodup : listed.Nodup) {surplus : Nat}
    {ds : List Bytes32} :
    (∀ i ∈ listed, write (fun _ => 0) (hits listed (visits target surplus ds)) i =
        lastPaid (visits target surplus ds) i) ↔
      InTurn listed (visits target surplus ds) := by
  constructor
  · intro hsame x i hx hpaid
    have heq := hsame i (List.mem_of_getElem? hx)
    rcases write_hits (fun _ => 0) (visits target surplus ds) hnodup hx with
      ⟨u, hu, rfl, hval⟩ | ⟨-, hval⟩
    · rw [← heq, hval]
      exact completes_of_hit hu
    · exact absurd (heq.symm.trans hval) hpaid
  · intro hturn i hi
    obtain ⟨x, hx⟩ := List.mem_iff_getElem?.1 hi
    rcases write_hits (fun _ => 0) (visits target surplus ds) hnodup hx with
      ⟨u, hu, rfl, hval⟩ | ⟨hnone, hval⟩
    · by_cases hpaid : lastPaid (visits target surplus ds) u.1 = 0
      · -- both visits are to an allocation of nothing
        have hmem : u ∈ visits target surplus ds :=
          (hits_sublist _ _).subset (List.mem_of_getElem? hu)
        have hlast : (u.1, lastPaid (visits target surplus ds) u.1) ∈ visits target surplus ds :=
          write_mem (List.mem_map_of_mem hmem)
        rw [hval, hpaid]
        exact (visits_eq_zero hmem).2 ((visits_eq_zero hlast).1 hpaid)
      · have hcompletes := hturn x u.1 hx hpaid
        have hhit := (getElem?_hits_iff _ hx).2 hcompletes
        rw [hu] at hhit
        rw [hval]
        exact congrArg Prod.snd (Option.some.inj hhit)
    · by_cases hpaid : lastPaid (visits target surplus ds) i = 0
      · rw [hval, hpaid]
      · have hcompletes := hturn x i hx hpaid
        have hhit := (getElem?_hits_iff _ hx).2 hcompletes
        rw [hnone] at hhit
        cases hhit

theorem nodup_toNat (hinc : indices.Pairwise (· < ·)) :
    (indices.map fun w => w.toNat).Nodup := by
  rw [List.Nodup, List.pairwise_map]
  refine hinc.imp fun {a b} hab => ?_
  rw [BitVec.lt_def] at hab
  omega

/-- **a claim with indices pays what the full claim pays to them, and nothing else, exactly when the
indices are visited in turn** -/
theorem claim_restricts_iff (hlen : target.length ≤ 2 ^ 256) (hinc : indices.Pairwise (· < ·)) :
    (∃ e, computeClaimEffectsAndInteractions holdings source target idx indices = .error e ∧
      computeClaimEffectsAndInteractions holdings source target idx [] = .error e) ∨
    ∃ r full, computeClaimEffectsAndInteractions holdings source target idx indices = .ok r ∧
      computeClaimEffectsAndInteractions holdings source target idx [] = .ok full ∧
      ((∀ i, amountAt r.exitAllocations i =
          if Selected indices i then amountAt full.exitAllocations i else 0) ↔
        InTurn (indices.map fun w => w.toNat)
          (visits target (affordable holdings source idx) (guaranteedDestinations source idx))) := by
  rcases computeClaim_cases holdings source target idx with ⟨e, he⟩ | ⟨surplus, hS, hok⟩
  · exact .inl ⟨e, he indices, he []⟩
  · refine .inr ⟨_, _, hok indices, hok [], ?_⟩
    have hstart : amountAt (claimStart source target surplus).exitAllocations = fun _ => 0 := by
      funext i
      exact amountAt_zeroed i
    have hexits : ∀ indices, amountAt (claimLoop idx indices target
        (guaranteedDestinations source idx) (claimStart source target surplus)).exitAllocations =
        write (fun _ => 0) (paidVisits indices 0
          (visits target (affordable holdings source idx) (guaranteedDestinations source idx))) := by
      intro indices
      rw [claimLoop_exits hlen (List.length_map _), hstart, ← hS]
      rfl
    rw [hexits indices, hexits []]
    by_cases hnil : indices = []
    · subst hnil
      constructor
      · intro _ x i hx
        cases hx
      · intro _ i
        rw [if_pos (.inl rfl)]
    · have hpaid : ∀ l, paidVisits indices 0 l = hits (indices.map fun w => w.toNat) l :=
        fun l => if_neg hnil
      have hfull : ∀ l, paidVisits [] 0 l = l := fun l => rfl
      have hselected : ∀ i, Selected indices i ↔ i ∈ indices.map fun w => w.toNat := by
        intro i
        rw [Selected, or_iff_right hnil, List.mem_map]
      rw [hpaid, hfull, ← write_hits_iff (nodup_toNat hinc)]
      constructor
      · intro hall i hi
        have heq := hall i
        rwa [if_pos ((hselected i).2 hi)] at heq
      · intro hlisted i
        by_cases hi : i ∈ indices.map fun w => w.toNat
        · rw [if_pos ((hselected i).2 hi)]
          exact hlisted i hi
        · rw [if_neg fun hs => hi ((hselected i).1 hs)]
          exact write_hits_of_notMem hi

end restrict

/-! ## destinations in another order -/

namespace Sample

/-- the listed allocations of the two are claimed -/
def claimedAt (destinations : List Bytes32) (indices : List Word) : Except String ClaimState :=
  computeClaimEffectsAndInteractions 10 (guaranteeFor destinations) threeAndFour 0 indices

end Sample

open Contracts.Sample

/-- the second allocation alone, of a guarantee for the first and the second -/
theorem claim_restricts_second :
    ∃ r full, claimedAt [1, 2] [1] = .ok r ∧ claimedAt [1, 2] [] = .ok full ∧
      ∀ i, amountAt r.exitAllocations i =
        if Selected [1] i then amountAt full.exitAllocations i else 0 := by
  have hvisits : visits threeAndFour (affordable 10 (guaranteeFor [1, 2]) 0)
      (guaranteedDestinations (guaranteeFor [1, 2]) 0) = [(0, 3), (1, 4)] := by decide +kernel
  have hone : (1 : Word).toNat = 1 := BitVec.toNat_ofNat 1 256
  rcases @claim_restricts_iff 10 (guaranteeFor [1, 2]) threeAndFour 0 [1] (by decide)
    (List.pairwise_singleton _ _) with ⟨e, herror, -⟩ | ⟨r, full, hr, hfull, hiff⟩
  · have hok : (claimedAt [1, 2] [1]).isOk = true := by decide +kernel
    have herror : claimedAt [1, 2] [1] = .error e := herror
    rw [herror] at hok
    cases hok
  · refine ⟨r, full, hr, hfull, hiff.2 ?_⟩
    rw [hvisits, List.map_singleton, hone]
    intro x i hx hpaid
    cases x with
    | zero =>
      cases hx
      exact ⟨[(0, 3)], [], rfl, List.nil_sublist _, by decide⟩
    | succ x => cases hx

/-- **the destinations are listed the other way round**: both allocations are asked for, and the second
one gets nothing -/
theorem claim_skips_second :
    (claimedAt [2, 1] [0, 1]).map (fun r => r.exitAllocations.map fun a => a.amount.toNat) =
        .ok [3, 0] ∧
      (claimedAt [2, 1] []).map (fun r => r.exitAllocations.map fun a => a.amount.toNat) =
        .ok [3, 4] := by
  decide +kernel

end Nitro.Contracts
