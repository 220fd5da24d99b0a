import Nitro.Consensus.Vars
import Nitro.Contracts.Solvency

/-!
# Claims against guarantees

A guarantee of a source channel lists destinations in its metadata, and a claim pays the allocations
of the target channel to them, in this order, out of the guarantee.  The loop reads the amounts of the
target as they were before the claim.  A destination that is listed twice is therefore paid twice when
all allocations are asked for, and the second payment replaces the first one in the exit.

* `metadata_decodes_iff`     what the contract reads from the metadata that the client writes;
* `affordable`, `asked`      what the guarantee can pay, and what a destination asks for;
* `EachPaidOnce`             no destination is met again while something is left;
* `Conserves`                the law of a claim;
* `claim_conserves_iff`      it holds exactly when each destination is paid once.
-/

set_option linter.unusedSectionVars false

namespace Nitro.Contracts
open Evm MultiAssetHolder

/-! ## guarantees that the client writes -/

/-- **the two encoders of the client agree, and the contract never reads the two destinations back**:
it refuses the metadata or takes it for an empty list -/
theorem metadata_decodes_iff (g : Guarantee Int) :
    g.asAllocation.metadata = (GuaranteeMetadata.mk g.left g.right).encode ∧
    (decodeGuaranteeData g.asAllocation.metadata = .ok [g.left, g.right] ↔ False) ∧
    ((∃ e, decodeGuaranteeData g.asAllocation.metadata = .error e) ∨
      decodeGuaranteeData g.asAllocation.metadata = .ok []) := by
  have hlen : g.asAllocation.metadata.length ≤ 64 := by
    show (Abi.wordBytes g.left ++ Abi.wordBytes g.right).length ≤ 64
    simp
  refine ⟨(Abi.encode_pair g.left g.right).symm, ⟨fun h => ?_, False.elim⟩, ?_⟩
  · cases Abi.decodeWords_short hlen h
  · cases h : decodeGuaranteeData g.asAllocation.metadata with
    | error e => exact .inl ⟨e, rfl⟩
    | ok ws =>
      rw [Abi.decodeWords_short hlen h]
      exact .inr rfl

/-- the guarantee of five between the destinations 1 and 2 is refused -/
theorem guarantee_not_decoded :
    decodeGuaranteeData (Guarantee.mk (5 : Int) 9 1 2).asAllocation.metadata ≠ .ok [1, 2] := by
  decide +kernel

/-! ## amounts of a list -/

/-- the amount at a position, nothing beyond the end -/
def amountAt (l : List Allocation) (i : Nat) : Nat := ((l[i]?).map fun a => a.amount.toNat).getD 0

theorem amountAt_modify (l : List Allocation) (i j : Nat) (f : Allocation → Allocation) :
    amountAt (l.modify i f) j = if i = j then ((l[j]?).map fun a => (f a).amount.toNat).getD 0
      else amountAt l j := by
  unfold amountAt
  rw [List.getElem?_modify]
  by_cases h : i = j
  · rw [if_pos h]
    cases l[j]? with
    | none => rfl
    | some a => simp [h]
  · rw [if_neg h]
    cases l[j]? with
    | none => rfl
    | some a => simp [h]

theorem amounts_modify (l : List Allocation) {i : Nat} (v : Word) (h : i < l.length) :
    amounts (l.modify i fun b => { b with amount := v }) + amountAt l i = amounts l + v.toNat := by
  induction l generalizing i with
  | nil => exact absurd h (Nat.not_lt_zero i)
  | cons b l ih =>
    cases i with
    | zero =>
      simp only [List.modify_zero_cons, amounts, List.map_cons, List.sum_cons, amountAt,
        List.getElem?_cons_zero, Option.map_some, Option.getD_some]
      omega
    | succ i =>
      have hrest := ih (Nat.lt_of_succ_lt_succ h)
      simp only [amounts, amountAt] at hrest
      simp only [List.modify_succ_cons, amounts, List.map_cons, List.sum_cons, amountAt,
        List.getElem?_cons_succ]
      omega

theorem amountAt_of_getElem? {l : List Allocation} {i : Nat} {a : Allocation}
    (h : l[i]? = some a) : amountAt l i = a.amount.toNat := by
  simp [amountAt, h]

/-! ## what a claim may do -/

/-- what is left for the guarantee after the allocations before it, up to its amount -/
def affordable (holdings : Word) (source : List Allocation) (indexOfTargetInSource : Nat) : Nat :=
  min (amountAt source indexOfTargetInSource)
    (holdings.toNat - amounts (source.take indexOfTargetInSource))

/-- the destinations that the contract reads from the guarantee -/
def guaranteedDestinations (source : List Allocation) (indexOfTargetInSource : Nat) :
    List Bytes32 :=
  match source[indexOfTargetInSource]? with
  | none => []
  | some g => (decodeGuaranteeData g.metadata).toOption.getD []

/-- the amount of the first allocation to a destination -/
def asked (target : List Allocation) (d : Bytes32) : Nat :=
  ((target.find? fun a => decide (d = a.destination)).map fun a => a.amount.toNat).getD 0

def totalAsked (target : List Allocation) (ds : List Bytes32) : Nat :=
  (ds.map (asked target)).sum

theorem totalAsked_append (target : List Allocation) (ds : List Bytes32) (d : Bytes32) :
    totalAsked target (ds ++ [d]) = totalAsked target ds + asked target d := by
  simp [totalAsked]

/-- particular allocations are asked for, or a destination that is listed again asks for nothing or
comes when nothing is left -/
def EachPaidOnce (holdings : Word) (source target : List Allocation) (indexOfTargetInSource : Nat)
    (indices : List Word) : Prop :=
  indices ≠ [] ∨ ∀ (j : Nat) (d : Bytes32),
    (guaranteedDestinations source indexOfTargetInSource)[j]? = some d →
    d ∈ (guaranteedDestinations source indexOfTargetInSource).take j →
    asked target d = 0 ∨ affordable holdings source indexOfTargetInSource ≤
      totalAsked target ((guaranteedDestinations source indexOfTargetInSource).take j)

/-- what is paid out and what remains of an allocation add up to it, the payouts add up to the exit
and are what the guarantee loses, and they are affordable -/
structure Conserves (holdings : Word) (source target : List Allocation)
    (indexOfTargetInSource : Nat) (r : ClaimState) : Prop where
  each : ∀ i, amountAt r.exitAllocations i + amountAt r.newTargetAllocations i = amountAt target i
  exits : amounts r.exitAllocations = r.totalPayouts.toNat
  debited : r.newSourceAllocations = source.modify indexOfTargetInSource fun g =>
    { g with amount := g.amount - r.totalPayouts }
  bound : r.totalPayouts.toNat ≤ affordable holdings source indexOfTargetInSource

theorem sourceSurplus_eq {l : List Allocation} {n : Nat} {v v' : Word}
    (h : sourceSurplus l n v = .ok v') : v'.toNat = v.toNat - amounts (l.take n) := by
  induction l generalizing n v with
  | nil =>
    cases n with
    | zero =>
      cases h
      rfl
    | succ n =>
      unfold sourceSurplus at h
      split at h
      · cases h
        rfl
      · cases h
  | cons b l ih =>
    cases n with
    | zero =>
      cases h
      rfl
    | succ n =>
      have htake : amounts ((b :: l).take (n + 1)) = b.amount.toNat + amounts (l.take n) := rfl
      unfold sourceSurplus at h
      split at h
      · next h0 =>
        cases h
        rw [h0]
        show 0 = 0 - _
        omega
      · have hrest := ih h
        rw [BitVec.toNat_sub_of_le (minWord_le_right b.amount v), toNat_minWord] at hrest
        omega

/-! ## one destination -/

section search
variable {source target : List Allocation} {idx : Nat} {indices : List Word} {S : Nat}
  {done : List Bytes32} {d : Bytes32} {s : ClaimState}

theorem claimSearch_eq (l : List Allocation) (n : Nat) (hs : s.targetSurplus ≠ 0) :
    (asked l d = 0 ∧ (∀ a ∈ l, d ≠ a.destination) ∧ claimSearch idx indices d n l s = s) ∨
    ∃ j a, l[j]? = some a ∧ d = a.destination ∧ asked l d = a.amount.toNat ∧
      (∀ b ∈ l.take j, d ≠ b.destination) ∧
      claimSearch idx indices d n l s = claimPay idx indices (n + j) a s := by
  induction l generalizing n with
  | nil => exact .inl ⟨rfl, fun a ha => absurd ha List.not_mem_nil, rfl⟩
  | cons b l ih =>
    by_cases hb : d = b.destination
    · refine .inr ⟨0, b, rfl, hb, ?_, fun a ha => absurd ha List.not_mem_nil, ?_⟩
      · simp [asked, hb]
      · rw [claimSearch, if_neg hs, if_pos hb]
        rfl
    · have hasked : asked (b :: l) d = asked l d := by simp [asked, hb]
      have hrun : claimSearch idx indices d n (b :: l) s =
          claimSearch idx indices d (n + 1) l s := by
        rw [claimSearch, if_neg hs, if_neg hb]
      rw [hasked, hrun]
      rcases ih (n + 1) with ⟨h0, hnone, hsame⟩ | ⟨j, a, hj, hd, hamount, hfirst, hpay⟩
      · refine .inl ⟨h0, fun a ha => ?_, hsame⟩
        rcases List.mem_cons.1 ha with rfl | ha
        · exact hb
        · exact hnone a ha
      · refine .inr ⟨j + 1, a, hj, hd, hamount, fun a' ha => ?_, ?_⟩
        · rcases List.mem_cons.1 ha with rfl | ha
          · exact hb
          · exact hfirst a' ha
        · rw [hpay]
          congr 1
          omega

/-- what holds after the destinations in `done`, whatever they are -/
structure Reached (source target : List Allocation) (idx S : Nat) (done : List Bytes32)
    (s : ClaimState) : Prop where
  surplus : s.targetSurplus.toNat = S - totalAsked target done
  held : s.totalPayouts.toNat + s.targetSurplus.toNat ≤ S
  debited : s.newSourceAllocations = source.modify idx fun g =>
    { g with amount := g.amount - s.totalPayouts }
  exitLength : s.exitAllocations.length = target.length
  targetLength : s.newTargetAllocations.length = target.length

theorem Reached.pay {i : Nat} {a : Allocation} (h : Reached source target idx S done s)
    (hS : S < 2 ^ 256) (hasked : asked target d = a.amount.toNat) :
    Reached source target idx S (done ++ [d]) (claimPay idx indices i a s) := by
  have hv := minWord_le_right a.amount s.targetSurplus
  have hmin := toNat_minWord a.amount s.targetSurplus
  have hheld := h.held
  have hsurplus : (s.targetSurplus - minWord a.amount s.targetSurplus).toNat =
      S - totalAsked target (done ++ [d]) := by
    rw [BitVec.toNat_sub_of_le hv, hmin, totalAsked_append, hasked, h.surplus]
    omega
  unfold claimPay
  split
  · have hpaid : (s.totalPayouts + minWord a.amount s.targetSurplus).toNat =
        s.totalPayouts.toNat + (minWord a.amount s.targetSurplus).toNat := by
      rw [BitVec.toNat_add]
      exact Nat.mod_eq_of_lt (by omega)
    refine ⟨hsurplus, ?_, ?_, ?_, ?_⟩
    · show (s.totalPayouts + _).toNat + (s.targetSurplus - _).toNat ≤ S
      rw [hpaid, BitVec.toNat_sub_of_le hv]
      omega
    · show s.newSourceAllocations.modify idx _ = _
      rw [h.debited, List.modify_modify_eq]
      congr 1
      funext g
      have hsub : g.amount - s.totalPayouts - minWord a.amount s.targetSurplus =
          g.amount - (s.totalPayouts + minWord a.amount s.targetSurplus) := by bv_omega
      simp only [Function.comp_apply, hsub]
    · exact (List.length_modify _ _ _).trans h.exitLength
    · exact (List.length_modify _ _ _).trans h.targetLength
  · refine ⟨hsurplus, ?_, h.debited, h.exitLength, h.targetLength⟩
    show s.totalPayouts.toNat + (s.targetSurplus - _).toNat ≤ S
    rw [BitVec.toNat_sub_of_le hv]
    omega

theorem Reached.search (h : Reached source target idx S done s) (hS : S < 2 ^ 256)
    (hs : s.targetSurplus ≠ 0) : Reached source target idx S (done ++ [d])
      (claimSearch idx indices d 0 target s) := by
  rcases claimSearch_eq target 0 hs with ⟨h0, -, hsame⟩ | ⟨j, a, -, -, hasked, -, hpay⟩
  · rw [hsame]
    refine { h with surplus := ?_ }
    rw [h.surplus, totalAsked_append, h0, Nat.add_zero]
  · rw [hpay]
    exact h.pay hS hasked

theorem requireIncreasingIndices_pairwise {indices : List Word}
    (h : requireIncreasingIndices indices = .ok ()) : indices.Pairwise (· < ·) := by
  induction indices with
  | nil => exact List.Pairwise.nil
  | cons a l ih =>
    cases l with
    | nil => exact List.pairwise_singleton _ _
    | cons b l =>
      obtain ⟨hab, h⟩ := require_bind_eq_ok.1 h
      have hrest := ih h
      refine List.pairwise_cons.2 ⟨fun c hc => ?_, hrest⟩
      rcases List.mem_cons.1 hc with rfl | hc
      · exact hab
      · exact BitVec.lt_trans hab ((List.pairwise_cons.1 hrest).1 c hc)

theorem requireIncreasingIndices_of_pairwise {indices : List Word}
    (h : indices.Pairwise (· < ·)) : requireIncreasingIndices indices = .ok () := by
  induction indices with
  | nil => rfl
  | cons a l ih =>
    cases l with
    | nil => rfl
    | cons b l =>
      obtain ⟨hfirst, hrest⟩ := List.pairwise_cons.1 h
      exact require_bind_eq_ok.2 ⟨hfirst b List.mem_cons_self, ih hrest⟩

theorem not_mem_take_of_pairwise {indices : List Word} (h : indices.Pairwise (· < ·)) {k : Nat}
    {w : Word} (hk : indices[k]? = some w) : w ∉ indices.take k := by
  intro hmem
  obtain ⟨hlt, hw⟩ := List.getElem?_eq_some_iff.1 hk
  obtain ⟨j, hj, hjw⟩ := List.mem_take_iff_getElem.1 hmem
  have hless := List.pairwise_iff_getElem.1 h j k (by omega) hlt (by omega)
  rw [hjw, hw] at hless
  exact absurd hless (BitVec.lt_irrefl w)

theorem isSelected_iff {k i : Nat} : isSelected indices k i = true ↔
    indices = [] ∨ indices[k]? = some (BitVec.ofNat 256 i) := decide_eq_true_iff

structure Once (target : List Allocation) (indices : List Word) (done : List Bytes32)
    (s : ClaimState) : Prop where
  each : ∀ i, amountAt s.exitAllocations i + amountAt s.newTargetAllocations i = amountAt target i
  exits : amounts s.exitAllocations = s.totalPayouts.toNat
  touched : ∀ i t, target[i]? = some t → amountAt s.exitAllocations i ≠ 0 →
    (indices = [] ∧ t.destination ∈ done) ∨ BitVec.ofNat 256 i ∈ indices.take s.k

theorem Once.mono (h : Once target indices done s) : Once target indices (done ++ [d]) s := by
  refine { h with touched := fun i t hi hne => ?_ }
  rcases h.touched i t hi hne with ⟨hnil, hmem⟩ | hmem
  · exact .inl ⟨hnil, List.mem_append_left _ hmem⟩
  · exact .inr hmem

theorem Once.pay {i : Nat} {a : Allocation} (h : Once target indices done s)
    (hr : Reached source target idx S done s) (hS : S < 2 ^ 256) (hi : target[i]? = some a)
    (hd : d = a.destination)
    (hfresh : isSelected indices s.k i = true → amountAt s.exitAllocations i = 0) :
    Once target indices (done ++ [d]) (claimPay idx indices i a s) := by
  have hv := minWord_le_right a.amount s.targetSurplus
  have hmin := toNat_minWord a.amount s.targetSurplus
  have hheld := hr.held
  have hlt : i < target.length := (List.getElem?_eq_some_iff.1 hi).1
  unfold claimPay
  split
  · next hsel =>
    have h0 := hfresh hsel
    have heach := h.each i
    rw [h0, amountAt_of_getElem? hi] at heach
    obtain ⟨e, he⟩ : ∃ e, s.exitAllocations[i]? = some e :=
      ⟨_, List.getElem?_eq_getElem (by rw [hr.exitLength]; exact hlt)⟩
    obtain ⟨n, hn⟩ : ∃ n, s.newTargetAllocations[i]? = some n :=
      ⟨_, List.getElem?_eq_getElem (by rw [hr.targetLength]; exact hlt)⟩
    rw [amountAt_of_getElem? hn] at heach
    have hle : minWord a.amount s.targetSurplus ≤ n.amount := by
      show (minWord a.amount s.targetSurplus).toNat ≤ n.amount.toNat
      omega
    refine ⟨fun j => ?_, ?_, fun j t hj hne => ?_⟩
    · dsimp only
      rw [amountAt_modify, amountAt_modify]
      by_cases hij : i = j
      · subst hij
        rw [if_pos rfl, if_pos rfl, he, hn, amountAt_of_getElem? hi]
        show (minWord a.amount s.targetSurplus).toNat + (n.amount - _).toNat = a.amount.toNat
        rw [BitVec.toNat_sub_of_le hle]
        omega
      · rw [if_neg hij, if_neg hij]
        exact h.each j
    · have hsum := amounts_modify s.exitAllocations (minWord a.amount s.targetSurplus)
        (by rw [hr.exitLength]; exact hlt)
      rw [h0, h.exits] at hsum
      show amounts _ = (s.totalPayouts + minWord a.amount s.targetSurplus).toNat
      rw [BitVec.toNat_add, Nat.mod_eq_of_lt (by omega)]
      exact hsum
    · dsimp only at hne ⊢
      rw [amountAt_modify] at hne
      by_cases hij : i = j
      · subst hij
        rcases isSelected_iff.1 hsel with hnil | hk
        · obtain rfl := Option.some.inj (hi.symm.trans hj)
          exact .inl ⟨hnil, by simp [hd]⟩
        · exact .inr (by simp [List.take_add_one, hk])
      · rw [if_neg hij] at hne
        rcases h.touched j t hj hne with ⟨hnil, hmem⟩ | hmem
        · exact .inl ⟨hnil, List.mem_append_left _ hmem⟩
        · exact .inr (List.take_subset_take_left _ (Nat.le_succ _) hmem)
  · exact ⟨h.each, h.exits, h.mono.touched⟩

theorem Once.search (h : Once target indices done s) (hr : Reached source target idx S done s)
    (hS : S < 2 ^ 256) (hinc : indices.Pairwise (· < ·)) (hs : s.targetSurplus ≠ 0)
    (hd : indices ≠ [] ∨ d ∉ done ∨ asked target d = 0) :
    Once target indices (done ++ [d]) (claimSearch idx indices d 0 target s) := by
  rcases claimSearch_eq target 0 hs with ⟨-, -, hsame⟩ | ⟨j, a, hj, hda, hasked, -, hpay⟩
  · rw [hsame]
    exact h.mono
  · rw [hpay, Nat.zero_add]
    refine h.pay hr hS hj hda fun hsel => ?_
    by_contra hne
    rcases h.touched j a hj hne with ⟨hnil, hmem⟩ | hmem
    · rcases hd with hd | hd | hd
      · exact hd hnil
      · rw [hda] at hd
        exact hd hmem
      · have heach := h.each j
        rw [amountAt_of_getElem? hj, ← hasked, hd] at heach
        omega
    · rcases isSelected_iff.1 hsel with hnil | hk
      · rw [hnil, List.take_nil] at hmem
        cases hmem
      · exact not_mem_take_of_pairwise hinc hk hmem

/-- the destinations that were met are paid something, as long as something is left -/
def Visited (target : List Allocation) (S : Nat) (done : List Bytes32) (s : ClaimState) : Prop :=
  totalAsked target done < S → ∀ i t, target[i]? = some t →
    (∀ b ∈ target.take i, t.destination ≠ b.destination) → t.destination ∈ done →
    t.amount.toNat ≠ 0 → amountAt s.exitAllocations i ≠ 0

theorem Visited.search (h : Visited target S done s) (hr : Reached source target idx S done s)
    (hs : s.targetSurplus ≠ 0) :
    Visited target S (done ++ [d]) (claimSearch idx [] d 0 target s) := by
  intro hlt i t hi hfirst hmem ht
  have hless : totalAsked target done < S := by
    rw [totalAsked_append] at hlt
    omega
  have hold : t.destination ∈ done → amountAt s.exitAllocations i ≠ 0 := fun hmem =>
    h hless i t hi hfirst hmem ht
  have hcases : t.destination ∈ done ∨ t.destination = d := by
    simpa using hmem
  rcases claimSearch_eq target 0 hs with ⟨-, hnone, hsame⟩ | ⟨j, a, hj, hda, -, hfirst', hpay⟩
  · rw [hsame]
    rcases hcases with hmem | hd
    · exact hold hmem
    · exact absurd hd.symm (hnone t (List.mem_of_getElem? hi))
  · rw [hpay, Nat.zero_add]
    unfold claimPay
    rw [if_pos (isSelected_iff.2 (.inl rfl))]
    dsimp only
    rw [amountAt_modify]
    by_cases hji : j = i
    · subst hji
      obtain rfl := Option.some.inj (hj.symm.trans hi)
      obtain ⟨e, he⟩ : ∃ e, s.exitAllocations[j]? = some e :=
        ⟨_, List.getElem?_eq_getElem
          (by rw [hr.exitLength]; exact (List.getElem?_eq_some_iff.1 hi).1)⟩
      rw [if_pos rfl, he]
      show (minWord a.amount s.targetSurplus).toNat ≠ 0
      have hsurplus := hr.surplus
      rw [toNat_minWord]
      omega
    · rw [if_neg hji]
      rcases hcases with hmem | hd
      · exact hold hmem
      · exfalso
        rcases Nat.lt_or_gt_of_ne hji with hlt | hgt
        · refine hfirst a (List.mem_take_iff_getElem.2 ?_) (hd.trans hda)
          obtain ⟨hj', hja⟩ := List.getElem?_eq_some_iff.1 hj
          exact ⟨j, by omega, hja⟩
        · refine hfirst' t (List.mem_take_iff_getElem.2 ?_) hd.symm
          obtain ⟨hi', hit⟩ := List.getElem?_eq_some_iff.1 hi
          exact ⟨i, by omega, hit⟩

/-! ## all destinations -/

theorem claimLoop_append (front back : List Bytes32) (s : ClaimState) :
    claimLoop idx indices target (front ++ back) s =
      claimLoop idx indices target back (claimLoop idx indices target front s) := by
  induction front generalizing s with
  | nil => rfl
  | cons d front ih =>
    rw [List.cons_append, claimLoop, claimLoop]
    split
    · next h0 =>
      cases back with
      | nil => rfl
      | cons e back => rw [claimLoop, if_pos h0]
    · exact ih _

/-- a property of the destinations that were met, and of what the loop did with them -/
theorem claimLoop_run {P : List Bytes32 → ClaimState → Prop} {ds : List Bytes32}
    (hstep : ∀ front d back s, ds = front ++ d :: back → P front s → s.targetSurplus ≠ 0 →
      P (front ++ [d]) (claimSearch idx indices d 0 target s))
    (hstop : ∀ front d s, P front s → s.targetSurplus = 0 → P (front ++ [d]) s)
    (h : P [] s) : P ds (claimLoop idx indices target ds s) := by
  have hrun : ∀ back front s, ds = front ++ back → P front s →
      P ds (claimLoop idx indices target back s) := by
    intro back
    induction back with
    | nil =>
      intro front s hds hs
      rw [hds, List.append_nil]
      exact hs
    | cons d back ih =>
      intro front s hds hs
      have hassoc : ds = (front ++ [d]) ++ back := by simp [hds]
      rw [claimLoop]
      split
      · next h0 =>
        have hback : claimLoop idx indices target back s = s := by
          cases back with
          | nil => rfl
          | cons e back => rw [claimLoop, if_pos h0]
        rw [← hback]
        exact ih _ s hassoc (hstop front d s hs h0)
      · next h0 => exact ih _ _ hassoc (hstep front d back s hds hs h0)
  exact hrun ds [] s rfl h

theorem Reached.stop (h : Reached source target idx S done s) (hs : s.targetSurplus = 0) :
    Reached source target idx S (done ++ [d]) s := by
  refine { h with surplus := ?_ }
  have hsurplus := h.surplus
  rw [hs] at hsurplus ⊢
  rw [totalAsked_append]
  have h0 : (0 : Word).toNat = 0 := rfl
  omega

theorem Visited.stop (hr : Reached source target idx S done s) (hs : s.targetSurplus = 0) :
    Visited target S (done ++ [d]) s := by
  intro hlt
  have hsurplus := hr.surplus
  rw [hs] at hsurplus
  rw [totalAsked_append] at hlt
  have h0 : (0 : Word).toNat = 0 := rfl
  omega

theorem claimLoop_reached (indices : List Word) (ds : List Bytes32) (h : Reached source target idx S [] s)
    (hS : S < 2 ^ 256) :
    Reached source target idx S ds (claimLoop idx indices target ds s) :=
  claimLoop_run (fun _ _ _ _ _ hr hs => hr.search hS hs) (fun _ _ _ hr hs => hr.stop hs) h

theorem claimLoop_once (ds : List Bytes32) (h : Reached source target idx S [] s)
    (ho : Once target indices [] s) (hS : S < 2 ^ 256) (hinc : indices.Pairwise (· < ·))
    (hds : indices ≠ [] ∨ ∀ front d back, ds = front ++ d :: back → d ∈ front →
      asked target d = 0 ∨ S ≤ totalAsked target front) :
    Once target indices ds (claimLoop idx indices target ds s) := by
  refine (claimLoop_run (P := fun done s => Reached source target idx S done s ∧
    Once target indices done s) (fun front d back s hsplit hp hs => ?_)
    (fun front d s hp hs => ⟨hp.1.stop hs, hp.2.mono⟩) ⟨h, ho⟩).2
  obtain ⟨hr, ho⟩ := hp
  refine ⟨hr.search hS hs, ho.search hr hS hinc hs ?_⟩
  rcases hds with hne | hds
  · exact .inl hne
  · by_cases hmem : d ∈ front
    · rcases hds front d back hsplit hmem with h0 | hle
      · exact .inr (.inr h0)
      · exfalso
        apply hs
        apply BitVec.eq_of_toNat_eq
        have hsurplus := hr.surplus
        show s.targetSurplus.toNat = 0
        omega
    · exact .inr (.inl hmem)

theorem claimLoop_visited (ds : List Bytes32) (h : Reached source target idx S [] s)
    (hS : S < 2 ^ 256) : Visited target S ds (claimLoop idx [] target ds s) := by
  refine (claimLoop_run (P := fun done s => Reached source target idx S done s ∧
    Visited target S done s) (fun front d back s _ hp hs => ⟨hp.1.search hS hs,
      hp.2.search hp.1 hs⟩) (fun front d s hp hs => ⟨hp.1.stop hs, Visited.stop hp.1 hs⟩)
    ⟨h, fun _ i t _ _ hmem => ?_⟩).2
  cases hmem

structure Gap (S : Nat) (s : ClaimState) : Prop where
  exits : amounts s.exitAllocations < s.totalPayouts.toNat
  held : s.totalPayouts.toNat + s.targetSurplus.toNat ≤ S

theorem Gap.pay {i : Nat} {a : Allocation} (h : Gap S s) (hS : S < 2 ^ 256) :
    Gap S (claimPay idx indices i a s) := by
  have hv := minWord_le_right a.amount s.targetSurplus
  have hv' : (minWord a.amount s.targetSurplus).toNat ≤ s.targetSurplus.toNat := hv
  have hheld := h.held
  have hexits := h.exits
  unfold claimPay
  split
  · have hle := amounts_modify_le s.exitAllocations i (minWord a.amount s.targetSurplus)
    have hpaid : (s.totalPayouts + minWord a.amount s.targetSurplus).toNat =
        s.totalPayouts.toNat + (minWord a.amount s.targetSurplus).toNat := by
      rw [BitVec.toNat_add]
      exact Nat.mod_eq_of_lt (by omega)
    refine ⟨?_, ?_⟩
    · show amounts (s.exitAllocations.modify i _) < (s.totalPayouts + _).toNat
      rw [hpaid]
      omega
    · show (s.totalPayouts + _).toNat + (s.targetSurplus - _).toNat ≤ S
      rw [hpaid, BitVec.toNat_sub_of_le hv]
      omega
  · refine ⟨hexits, ?_⟩
    show s.totalPayouts.toNat + (s.targetSurplus - _).toNat ≤ S
    rw [BitVec.toNat_sub_of_le hv]
    omega

theorem claimSearch_gap (hv : Visited target S done s) (hr : Reached source target idx S done s)
    (hsplit : ClaimSplit S s) (hS : S < 2 ^ 256) (hd : d ∈ done) (hasked : asked target d ≠ 0)
    (hlt : totalAsked target done < S) : Gap S (claimSearch idx [] d 0 target s) := by
  have hsurplus := hr.surplus
  have hs : s.targetSurplus ≠ 0 := by
    intro h0
    rw [h0] at hsurplus
    have h0 : (0 : Word).toNat = 0 := rfl
    omega
  rcases claimSearch_eq target 0 hs with ⟨h0, -, -⟩ | ⟨j, a, hj, hda, hamount, hfirst, hpay⟩
  · exact absurd h0 hasked
  · rw [hamount] at hasked
    rw [hda] at hd hfirst
    have hne := hv hlt j a hj hfirst hd hasked
    have hsum := amounts_modify s.exitAllocations (minWord a.amount s.targetSurplus) (i := j)
      (by rw [hr.exitLength]; exact (List.getElem?_eq_some_iff.1 hj).1)
    have hle := minWord_le_right a.amount s.targetSurplus
    have hle' : (minWord a.amount s.targetSurplus).toNat ≤ s.targetSurplus.toNat := hle
    have hheld := hsplit.held
    have hexits := hsplit.exits
    have hpaid : (s.totalPayouts + minWord a.amount s.targetSurplus).toNat =
        s.totalPayouts.toNat + (minWord a.amount s.targetSurplus).toNat := by
      rw [BitVec.toNat_add]
      exact Nat.mod_eq_of_lt (by omega)
    rw [hpay, Nat.zero_add]
    unfold claimPay
    rw [if_pos (isSelected_iff.2 (.inl rfl))]
    refine ⟨?_, ?_⟩
    · show amounts (s.exitAllocations.modify j _) < (s.totalPayouts + _).toNat
      rw [hpaid]
      omega
    · show (s.totalPayouts + _).toNat + (s.targetSurplus - _).toNat ≤ S
      rw [hpaid, BitVec.toNat_sub_of_le hle]
      omega

end search

/-! ## the law -/

section law
variable {holdings : Word} {source target : List Allocation} {idx : Nat} {indices : List Word}
  {r : ClaimState}

/-- the state before the loop -/
def claimStart (source target : List Allocation) (surplus : Word) : ClaimState where
  newSourceAllocations := source
  newTargetAllocations := target
  exitAllocations := target.map fun a => { a with amount := 0 }
  totalPayouts := 0
  targetSurplus := surplus
  k := 0

theorem computeClaim_ok
    (h : computeClaimEffectsAndInteractions holdings source target idx indices = .ok r) :
    ∃ surplus : Word, surplus.toNat = affordable holdings source idx ∧
      r = claimLoop idx indices target (guaranteedDestinations source idx)
        (claimStart source target surplus) := by
  obtain ⟨surplus, hsurplus, h⟩ := bind_eq_ok.1 h
  obtain ⟨guarantee, hg, h⟩ := bind_eq_ok.1 h
  obtain ⟨destinations, hds, hend⟩ := bind_eq_ok.1 h
  cases hend
  rw [index_eq_ok] at hg
  refine ⟨minWord surplus guarantee.amount, ?_, ?_⟩
  · rw [toNat_minWord, sourceSurplus_eq hsurplus, affordable, amountAt_of_getElem? hg]
    omega
  · have hread : guaranteedDestinations source idx = destinations := by
      simp [guaranteedDestinations, hg, hds, Except.toOption]
    rw [hread]
    rfl

theorem claimStart_reached (source target : List Allocation) (idx : Nat) (surplus : Word) :
    Reached source target idx surplus.toNat [] (claimStart source target surplus) := by
  refine ⟨rfl, ?_, ?_, List.length_map _, rfl⟩
  · show 0 + surplus.toNat ≤ surplus.toNat
    omega
  · show source = source.modify idx fun g => { g with amount := g.amount - 0 }
    apply List.ext_getElem?
    intro i
    rw [List.getElem?_modify]
    cases source[i]? with
    | none => rfl
    | some g =>
      by_cases hi : idx = i
      · simp [hi]
      · simp [hi]

theorem amountAt_zeroed (i : Nat) :
    amountAt (target.map fun a => { a with amount := 0 }) i = 0 := by
  unfold amountAt
  rw [List.getElem?_map]
  cases target[i]? with
  | none => rfl
  | some a => rfl

theorem claimStart_once (surplus : Word) :
    Once target indices [] (claimStart source target surplus) := by
  refine ⟨fun i => ?_, amounts_zeroed target, fun i t _ hne => ?_⟩
  · show amountAt (target.map _) i + amountAt target i = amountAt target i
    rw [amountAt_zeroed, Nat.zero_add]
  · exact absurd (amountAt_zeroed i) hne

/-- **a claim conserves value exactly when no destination is paid twice** -/
theorem claim_conserves_iff (hinc : requireIncreasingIndices indices = .ok ())
    (h : computeClaimEffectsAndInteractions holdings source target idx indices = .ok r) :
    Conserves holdings source target idx r ↔
      EachPaidOnce holdings source target idx indices := by
  obtain ⟨surplus, hS, rfl⟩ := computeClaim_ok h
  have hstart := claimStart_reached source target idx surplus
  have hlt := surplus.isLt
  rw [hS] at hstart hlt
  constructor
  · intro hconserves
    by_cases hnil : indices = []
    · subst hnil
      refine .inr fun j d hj hd => ?_
      by_contra hnot
      rw [not_or] at hnot
      obtain ⟨hasked, hless⟩ := hnot
      have hsplit : guaranteedDestinations source idx =
          (guaranteedDestinations source idx).take j ++
            d :: (guaranteedDestinations source idx).drop (j + 1) := by
        obtain ⟨hlen, hget⟩ := List.getElem?_eq_some_iff.1 hj
        rw [← hget, List.getElem_cons_drop, List.take_append_drop]
      have hr := claimLoop_reached [] ((guaranteedDestinations source idx).take j) hstart hlt
      have hv := claimLoop_visited ((guaranteedDestinations source idx).take j) hstart hlt
      have hclaim : ClaimSplit (affordable holdings source idx)
          (claimLoop idx [] target ((guaranteedDestinations source idx).take j)
            (claimStart source target surplus)) := by
        refine claimLoop_inv idx [] target _ (fun i b s hs => claimPay_split hlt hs) ⟨?_, ?_⟩
        · show amounts (target.map _) ≤ 0
          rw [amounts_zeroed]
        · exact hstart.held
      have hs : (claimLoop idx [] target ((guaranteedDestinations source idx).take j)
          (claimStart source target surplus)).targetSurplus ≠ 0 := by
        intro h0
        have hsurplus := hr.surplus
        rw [h0] at hsurplus
        have h0 : (0 : Word).toNat = 0 := rfl
        omega
      have hgap := claimSearch_gap hv hr hclaim hlt hd hasked (by omega)
      have hend := claimLoop_inv idx [] target
        ((guaranteedDestinations source idx).drop (j + 1)) (fun i b s hs => Gap.pay hs hlt) hgap
      have hexits := hconserves.exits
      rw [hsplit, claimLoop_append, claimLoop, if_neg hs] at hexits
      exact absurd hexits (Nat.ne_of_lt hend.exits)
    · exact .inl hnil
  · intro hpaid
    have hr := claimLoop_reached indices (guaranteedDestinations source idx) hstart hlt
    have ho := claimLoop_once (guaranteedDestinations source idx) hstart
      (claimStart_once surplus) hlt (requireIncreasingIndices_pairwise hinc)
      (hpaid.imp_right fun hds front d back hsplit hmem => ?_)
    · refine ⟨ho.each, ho.exits, hr.debited, ?_⟩
      have hheld := hr.held
      omega
    · have htake : (guaranteedDestinations source idx).take front.length = front := by
        rw [hsplit]
        simp
      have hget : (guaranteedDestinations source idx)[front.length]? = some d := by
        rw [hsplit]
        simp
      have hcase := hds front.length d hget (by rw [htake]; exact hmem)
      rwa [htake] at hcase

end law

/-! ## a destination that is listed twice -/

namespace Sample

/-- a guarantee of ten for the listed destinations -/
def guaranteeFor (destinations : List Bytes32) : List Allocation :=
  [⟨9, 10, 2, Abi.encode [.array (destinations.map Abi.Val.word)]⟩]

/-- three and four for the destinations 1 and 2 -/
def threeAndFour : List Allocation := [⟨1, 3, 0, []⟩, ⟨2, 4, 0, []⟩]

/-- everything is claimed -/
def claimed (destinations : List Bytes32) : Except String ClaimState :=
  computeClaimEffectsAndInteractions 10 (guaranteeFor destinations) threeAndFour 0 []

end Sample

open Contracts.Sample

theorem eachPaidOnce_one_two : EachPaidOnce 10 (guaranteeFor [1, 2]) threeAndFour 0 [] := by
  refine .inr fun j d hj hd => ?_
  have hread : guaranteedDestinations (guaranteeFor [1, 2]) 0 = [1, 2] := by decide +kernel
  rw [hread] at hj hd
  exfalso
  match j with
  | 0 => cases hd
  | 1 =>
    cases hj
    simp at hd
  | j + 2 => cases hj

theorem claim_conserves_three_four :
    ∃ r, claimed [1, 2] = .ok r ∧ r.totalPayouts = 7 ∧
      Conserves 10 (guaranteeFor [1, 2]) threeAndFour 0 r := by
  have hpaid : (claimed [1, 2]).map ClaimState.totalPayouts = .ok 7 := by decide +kernel
  cases h : claimed [1, 2] with
  | error e =>
    rw [h] at hpaid
    cases hpaid
  | ok r =>
    rw [h] at hpaid
    exact ⟨r, rfl, Except.ok.inj hpaid, (claim_conserves_iff rfl h).2 eachPaidOnce_one_two⟩

/-- the guarantee lists destination 1 twice: six leave the guarantee for an exit of three, and
what remains of the allocation wraps around -/
theorem claim_pays_twice :
    requireIncreasingIndices [] = .ok () ∧ ∃ r, claimed [1, 1] = .ok r ∧ r.totalPayouts = 6 ∧
      amounts r.exitAllocations = 3 ∧ amountAt r.newTargetAllocations 0 = 2 ^ 256 - 3 ∧
      ¬ Conserves 10 (guaranteeFor [1, 1]) threeAndFour 0 r := by
  have hrun : (claimed [1, 1]).map (fun r => (r.totalPayouts, amounts r.exitAllocations,
      amountAt r.newTargetAllocations 0)) = .ok (6, 3, 2 ^ 256 - 3) := by decide +kernel
  refine ⟨rfl, ?_⟩
  cases h : claimed [1, 1] with
  | error e =>
    rw [h] at hrun
    cases hrun
  | ok r =>
    rw [h] at hrun
    have hvalues := Except.ok.inj hrun
    simp only [Prod.mk.injEq] at hvalues
    obtain ⟨hpayouts, hexits, hnew⟩ := hvalues
    refine ⟨r, rfl, hpayouts, hexits, hnew, fun hc => ?_⟩
    have hsum := hc.exits
    rw [hexits, hpayouts] at hsum
    exact absurd hsum (by decide)

end Nitro.Contracts
