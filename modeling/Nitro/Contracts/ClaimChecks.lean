import Nitro.Contracts.NitroAdjudicator

/-!
# Which allocation a claim checks

A claim debits the allocation at `indexOfTargetInSource` of the source, and checks the type of the one
at `targetAssetIndex`, which is a position in the target's outcome.

* `claimBefore`, `claimAfter`    the call before and after the check of the type;
* `claim_ok_iff`, `claim_refused_iff`   when a claim succeeds, and when the check refuses it;
* `claim_guarded_iff`            when only guarantees can be claimed, and all of them.
-/

set_option linter.unusedSectionVars false

namespace Nitro.Contracts
open Evm

namespace MultiAssetHolder
variable (D : Deployment) (env : Env) (args : ClaimArgs) (w : World)

/-! ## the call in three parts -/

/-- the checks before that of the type -/
def claimBefore : Except String (Exit × Exit × SingleAssetExit) := do
  requireIncreasingIndices args.targetAllocationIndicesToPayout
  requireChannelFinalized env w args.sourceChannelId
  requireMatchingFingerprint D w args.sourceStateHash (D.crypto.keccak256 args.sourceOutcomeBytes)
    args.sourceChannelId
  let sourceOutcome ← D.decodeExit args.sourceOutcomeBytes
  let targetOutcome ← D.decodeExit args.targetOutcomeBytes
  let source ← index sourceOutcome args.sourceAssetIndex.toNat
  .ok (sourceOutcome, targetOutcome, source)

/-- everything after it -/
def claimAfter (sourceOutcome targetOutcome : Exit) (source : SingleAssetExit) :
    Except String World := do
  let guarantee ← index source.allocations args.indexOfTargetInSource.toNat
  let target ← index targetOutcome args.targetAssetIndex.toNat
  require (target.asset = source.asset) "targetAsset != guaranteeAsset"
  requireChannelFinalized env w guarantee.destination
  requireMatchingFingerprint D w args.targetStateHash (D.crypto.keccak256 args.targetOutcomeBytes)
    guarantee.destination
  let initialAssetHoldings := w.holdings source.asset args.sourceChannelId
  let r ← computeClaimEffectsAndInteractions initialAssetHoldings source.allocations
    target.allocations args.indexOfTargetInSource.toNat args.targetAllocationIndicesToPayout
  executeSingleAssetExit env { target with allocations := r.exitAllocations }
    (applyClaimEffects D args source.asset
      (sourceOutcome.set args.sourceAssetIndex.toNat
        { source with allocations := r.newSourceAllocations })
      guarantee.destination
      (targetOutcome.set args.targetAssetIndex.toNat
        { target with allocations := r.newTargetAllocations })
      initialAssetHoldings r.totalPayouts w)

theorem claim_eq : claim D env args w = (do
    let (sourceOutcome, targetOutcome, source) ← claimBefore D env args w
    let checked ← index source.allocations args.targetAssetIndex.toNat
    require (checked.allocationType = D.guarantee) "not a guarantee allocation"
    claimAfter D env args w sourceOutcome targetOutcome source) := by
  simp only [claim, applyClaimChecks, claimBefore, claimAfter, bind_assoc]
  rfl

variable {D env args w} {sourceOutcome targetOutcome : Exit} {source : SingleAssetExit}

/-! ## what the check decides -/

/-- the source's allocation at the position is a guarantee -/
def GuaranteeAt (D : Deployment) (args : ClaimArgs) (i : Word) : Prop :=
  ∃ sourceOutcome source a, D.decodeExit args.sourceOutcomeBytes = .ok sourceOutcome ∧
    sourceOutcome[args.sourceAssetIndex.toNat]? = some source ∧
    source.allocations[i.toNat]? = some a ∧ a.allocationType = D.guarantee

/-- the call gets to the check of the type, and finds an allocation there -/
def Presented (D : Deployment) (env : Env) (args : ClaimArgs) (w : World) : Prop :=
  ∃ sourceOutcome targetOutcome source checked,
    claimBefore D env args w = .ok (sourceOutcome, targetOutcome, source) ∧
      source.allocations[args.targetAssetIndex.toNat]? = some checked

/-- all other checks pass, and the payments are accepted -/
def Claimable (D : Deployment) (env : Env) (args : ClaimArgs) (w : World) : Prop :=
  ∃ sourceOutcome targetOutcome source w',
    claimBefore D env args w = .ok (sourceOutcome, targetOutcome, source) ∧
      claimAfter D env args w sourceOutcome targetOutcome source = .ok w'

theorem guaranteeAt_iff {i : Word}
    (h : claimBefore D env args w = .ok (sourceOutcome, targetOutcome, source)) :
    GuaranteeAt D args i ↔
      ∃ a, source.allocations[i.toNat]? = some a ∧ a.allocationType = D.guarantee := by
  obtain ⟨_, -, h⟩ := bind_eq_ok.1 h
  obtain ⟨_, -, h⟩ := bind_eq_ok.1 h
  obtain ⟨_, -, h⟩ := bind_eq_ok.1 h
  obtain ⟨so, hso, h⟩ := bind_eq_ok.1 h
  obtain ⟨ta, -, h⟩ := bind_eq_ok.1 h
  obtain ⟨s, hs, hend⟩ := bind_eq_ok.1 h
  cases hend
  rw [index_eq_ok] at hs
  constructor
  · rintro ⟨so', s', a, hso', hs', ha, hg⟩
    rw [hso] at hso'
    cases hso'
    rw [hs] at hs'
    cases hs'
    exact ⟨a, ha, hg⟩
  · rintro ⟨a, ha, hg⟩
    exact ⟨_, _, a, hso, hs, ha, hg⟩

theorem claim_ok_iff : (∃ w', claim D env args w = .ok w') ↔
    Claimable D env args w ∧ GuaranteeAt D args args.targetAssetIndex := by
  constructor
  · rintro ⟨w', h⟩
    rw [claim_eq] at h
    obtain ⟨⟨so, ta, s⟩, hbefore, h⟩ := bind_eq_ok.1 h
    obtain ⟨checked, hchecked, h⟩ := bind_eq_ok.1 h
    obtain ⟨hg, hafter⟩ := require_bind_eq_ok.1 h
    exact ⟨⟨so, ta, s, w', hbefore, hafter⟩,
      (guaranteeAt_iff hbefore).2 ⟨checked, index_eq_ok.1 hchecked, hg⟩⟩
  · rintro ⟨⟨so, ta, s, w', hbefore, hafter⟩, hg⟩
    obtain ⟨checked, hchecked, hg⟩ := (guaranteeAt_iff hbefore).1 hg
    refine ⟨w', ?_⟩
    rw [claim_eq]
    exact bind_eq_ok.2 ⟨_, hbefore, bind_eq_ok.2 ⟨checked, index_eq_ok.2 hchecked,
      require_bind_eq_ok.2 ⟨hg, hafter⟩⟩⟩

/-! ## the reason of the refusal -/

theorem requireIncreasingIndices_ne_error {reason : String} (indices : List Word)
    (h : "Indices must be sorted" ≠ reason) : requireIncreasingIndices indices ≠ .error reason := by
  induction indices with
  | nil =>
    intro he
    cases he
  | cons a l ih =>
    cases l with
    | nil =>
      intro he
      cases he
    | cons b l =>
      unfold requireIncreasingIndices
      exact bind_ne_error (require_ne_error h) fun _ => ih

theorem sourceSurplus_ne_error {reason : String} (l : List Allocation) (n : Nat) (surplus : Word)
    (h : "invalid opcode" ≠ reason) : sourceSurplus l n surplus ≠ .error reason := by
  induction l generalizing n surplus with
  | nil =>
    cases n with
    | zero =>
      intro he
      cases he
    | succ n =>
      unfold sourceSurplus
      split
      · intro he
        cases he
      · intro he
        exact h (Except.error.inj he)
  | cons a l ih =>
    cases n with
    | zero =>
      intro he
      cases he
    | succ n =>
      unfold sourceSurplus
      split
      · intro he
        cases he
      · exact ih n _

theorem decodeGuaranteeData_ne_error {reason : String} (data : Bytes)
    (h : "abi decoding" ≠ reason) : decodeGuaranteeData data ≠ .error reason := by
  unfold decodeGuaranteeData Abi.decodeWords
  dsimp only
  split
  · intro he
    exact h (Except.error.inj he)
  · split
    · intro he
      exact h (Except.error.inj he)
    · intro he
      cases he

theorem payAllocations_ne_error {reason : String} (asset : Address) (l : List Allocation)
    (hether : "Could not transfer ETH" ≠ reason) (htoken : "transfer reverted" ≠ reason) :
    payAllocations env asset l w ≠ .error reason := by
  induction l generalizing w with
  | nil =>
    intro he
    cases he
  | cons a l ih =>
    unfold payAllocations
    split
    · refine bind_ne_error (bind_ne_error (require_ne_error ?_) ?_) fun _ => ih
      · split
        · exact hether
        · exact htoken
      · intro _ he
        cases he
    · exact ih

theorem claimAfter_ne_error : claimAfter D env args w sourceOutcome targetOutcome source ≠
    .error "not a guarantee allocation" := by
  unfold claimAfter
  refine bind_ne_error (index_ne_error (by decide)) fun guarantee => ?_
  refine bind_ne_error (index_ne_error (by decide)) fun target => ?_
  refine bind_ne_error (require_ne_error (by decide)) fun _ => ?_
  refine bind_ne_error (require_ne_error (by decide)) fun _ => ?_
  refine bind_ne_error (require_ne_error (by decide)) fun _ => ?_
  refine bind_ne_error ?_ fun r => payAllocations_ne_error _ _ (by decide) (by decide)
  refine bind_ne_error (sourceSurplus_ne_error _ _ _ (by decide)) fun surplus => ?_
  refine bind_ne_error (index_ne_error (by decide)) fun g => ?_
  refine bind_ne_error (decodeGuaranteeData_ne_error _ (by decide)) fun destinations => ?_
  intro he
  cases he

theorem claimBefore_ne_error
    (hdecode : ∀ bytes, D.decodeExit bytes ≠ .error "not a guarantee allocation") :
    claimBefore D env args w ≠ .error "not a guarantee allocation" := by
  unfold claimBefore
  refine bind_ne_error (requireIncreasingIndices_ne_error _ (by decide)) fun _ => ?_
  refine bind_ne_error (require_ne_error (by decide)) fun _ => ?_
  refine bind_ne_error (require_ne_error (by decide)) fun _ => ?_
  refine bind_ne_error (hdecode _) fun sourceOutcome => ?_
  refine bind_ne_error (hdecode _) fun targetOutcome => ?_
  refine bind_ne_error (index_ne_error (by decide)) fun source => ?_
  intro he
  cases he

theorem claim_refused_iff
    (hdecode : ∀ bytes, D.decodeExit bytes ≠ .error "not a guarantee allocation") :
    claim D env args w = .error "not a guarantee allocation" ↔
      Presented D env args w ∧ ¬ GuaranteeAt D args args.targetAssetIndex := by
  rw [claim_eq]
  cases hbefore : claimBefore D env args w with
  | error e =>
    constructor
    · intro h
      have he : e = "not a guarantee allocation" := Except.error.inj h
      exact absurd (hbefore.trans (congrArg Except.error he)) (claimBefore_ne_error hdecode)
    · rintro ⟨⟨so, ta, s, checked, hok, -⟩, -⟩
      rw [hbefore] at hok
      cases hok
  | ok x =>
    obtain ⟨so, ta, s⟩ := x
    rw [guaranteeAt_iff hbefore]
    show (index s.allocations args.targetAssetIndex.toNat >>= fun checked =>
      require (checked.allocationType = D.guarantee) "not a guarantee allocation" >>= fun _ =>
        claimAfter D env args w so ta s) = _ ↔ _
    cases hchecked : s.allocations[args.targetAssetIndex.toNat]? with
    | none =>
      have hindex : index s.allocations args.targetAssetIndex.toNat = .error "invalid opcode" := by
        simp [index, hchecked]
      rw [hindex]
      constructor
      · intro h
        exact absurd (Except.error.inj h) (by decide)
      · rintro ⟨⟨so', ta', s', checked, hok, hsome⟩, -⟩
        rw [hbefore] at hok
        cases hok
        rw [hchecked] at hsome
        cases hsome
    | some checked =>
      rw [index_eq_ok.2 hchecked]
      show (require (checked.allocationType = D.guarantee) _ >>= fun _ =>
        claimAfter D env args w so ta s) = _ ↔ _
      by_cases hg : checked.allocationType = D.guarantee
      · constructor
        · intro h
          rw [require, if_pos hg] at h
          exact absurd h claimAfter_ne_error
        · rintro ⟨-, hnot⟩
          exact absurd ⟨checked, rfl, hg⟩ hnot
      · rw [require, if_neg hg]
        refine ⟨fun _ => ⟨⟨so, ta, s, checked, hbefore, hchecked⟩, ?_⟩, fun _ => rfl⟩
        rintro ⟨a, ha, hguarantee⟩
        exact hg (Option.some.inj ha ▸ hguarantee)

/-- **only guarantees are claimed, and none is refused for its type**, exactly when the two positions
agree: where everything else passes, a guarantee at the checked position means one at the debited
position, and where the check is reached, the converse -/
theorem claim_guarded_iff
    (hdecode : ∀ bytes, D.decodeExit bytes ≠ .error "not a guarantee allocation") :
    ((∀ w', claim D env args w = .ok w' → GuaranteeAt D args args.indexOfTargetInSource) ∧
        (GuaranteeAt D args args.indexOfTargetInSource →
          claim D env args w ≠ .error "not a guarantee allocation")) ↔
      (Claimable D env args w → GuaranteeAt D args args.targetAssetIndex →
          GuaranteeAt D args args.indexOfTargetInSource) ∧
        (Presented D env args w → GuaranteeAt D args args.indexOfTargetInSource →
          GuaranteeAt D args args.targetAssetIndex) := by
  refine and_congr ?_ ?_
  · constructor
    · intro h hclaimable hchecked
      obtain ⟨w', hok⟩ := claim_ok_iff.2 ⟨hclaimable, hchecked⟩
      exact h w' hok
    · intro h w' hok
      obtain ⟨hclaimable, hchecked⟩ := claim_ok_iff.1 ⟨w', hok⟩
      exact h hclaimable hchecked
  · constructor
    · intro h hpresented hdebited
      by_contra hchecked
      exact h hdebited ((claim_refused_iff hdecode).2 ⟨hpresented, hchecked⟩)
    · intro h hdebited hrefused
      obtain ⟨hpresented, hchecked⟩ := (claim_refused_iff hdecode).1 hrefused
      exact hchecked (h hpresented hdebited)

end MultiAssetHolder

/-! ## a ledger with a guarantee -/

namespace Sample

def targetId : Bytes32 := BitVec.ofNat 256 (2 ^ 200)

/-- five for the target channel, with destinations in the metadata -/
def forTarget (allocationType : UInt8) : Allocation :=
  ⟨targetId, 5, allocationType, Abi.encode [.array [.word 1, .word 2]]⟩

/-- five for participant 1 -/
def forOne : Allocation := ⟨1, 5, 0, []⟩

def ledger (allocations : List Allocation) : Exit := [⟨0, [], allocations⟩]

/-- two and three for the participants of the target channel -/
def targetExit : Exit := [⟨0, [], [⟨1, 2, 0, []⟩, ⟨2, 3, 0, []⟩]⟩]

/-- the decoder reads the two outcomes back -/
def decoding (allocations : List Allocation) : Deployment :=
  { deployment with
    decodeExit := fun bytes =>
      if bytes = encodeExit (ledger allocations) then .ok (ledger allocations)
      else if bytes = encodeExit targetExit then .ok targetExit
      else .error "abi decoding" }

/-- both channels are finalized, and the ledger holds ten -/
def finalizedWorld (allocations : List Allocation) : World :=
  let D := decoding allocations
  let status (outcome : Exit) : Bytes32 :=
    generateStatus D ⟨0, 1, 0, D.crypto.keccak256 (encodeExit outcome)⟩
  ((World.empty.setStatus channelId (status (ledger allocations))).setStatus targetId
    (status targetExit)).setHoldings 0 channelId 10

/-- the claim against the allocation of the ledger at the position -/
def claimOf (allocations : List Allocation) (indexOfTargetInSource : Word) :
    MultiAssetHolder.ClaimArgs where
  sourceChannelId := channelId
  sourceStateHash := 0
  sourceOutcomeBytes := encodeExit (ledger allocations)
  sourceAssetIndex := 0
  indexOfTargetInSource := indexOfTargetInSource
  targetStateHash := 0
  targetOutcomeBytes := encodeExit targetExit
  targetAssetIndex := 0
  targetAllocationIndicesToPayout := []

/-- the payments of the claim -/
def claimedPayments (allocations : List Allocation) (indexOfTargetInSource : Word) :
    Except String (List Payment) :=
  (MultiAssetHolder.claim (decoding allocations) (env 0 10)
    (claimOf allocations indexOfTargetInSource) (finalizedWorld allocations)).map World.payments

end Sample

namespace MultiAssetHolder
open Contracts.Sample

theorem decoding_ne_error (allocations : List Allocation) (bytes : Bytes) :
    (decoding allocations).decodeExit bytes ≠ .error "not a guarantee allocation" := by
  unfold decoding
  dsimp only
  split
  · intro he
    cases he
  · split
    · intro he
      cases he
    · intro he
      exact absurd (Except.error.inj he) (by decide)

theorem guaranteeAt_ledger {allocations : List Allocation} {i j : Word} :
    GuaranteeAt (decoding allocations) (claimOf allocations j) i ↔
      ∃ a, allocations[i.toNat]? = some a ∧ a.allocationType = 2 := by
  have hdecode : (decoding allocations).decodeExit (claimOf allocations j).sourceOutcomeBytes =
      .ok (ledger allocations) := if_pos rfl
  constructor
  · rintro ⟨so, s, a, hso, hs, ha, hg⟩
    rw [hdecode] at hso
    cases hso
    have hs : some _ = some s := hs
    cases hs
    exact ⟨a, ha, hg⟩
  · rintro ⟨a, ha, hg⟩
    exact ⟨ledger allocations, ⟨0, [], allocations⟩, a, hdecode, rfl, ha, hg⟩

/-- the second of two guarantees is claimed, and the type of the first one is checked -/
theorem claim_guarded_second :
    claimedPayments [forTarget 2, forTarget 2] 1 = .ok [⟨0, 1, 2⟩, ⟨0, 2, 3⟩] ∧
      (∀ w', claim (decoding [forTarget 2, forTarget 2]) (env 0 10)
          (claimOf [forTarget 2, forTarget 2] 1) (finalizedWorld [forTarget 2, forTarget 2]) = .ok w' →
        GuaranteeAt (decoding [forTarget 2, forTarget 2]) (claimOf [forTarget 2, forTarget 2] 1) 1) ∧
      (GuaranteeAt (decoding [forTarget 2, forTarget 2]) (claimOf [forTarget 2, forTarget 2] 1) 1 →
        claim (decoding [forTarget 2, forTarget 2]) (env 0 10) (claimOf [forTarget 2, forTarget 2] 1)
          (finalizedWorld [forTarget 2, forTarget 2]) ≠ .error "not a guarantee allocation") := by
  have hone : (1 : Word).toNat = 1 := BitVec.toNat_ofNat 1 256
  have hzero : (0 : Word).toNat = 0 := BitVec.toNat_ofNat 0 256
  refine ⟨by decide +kernel, (claim_guarded_iff (decoding_ne_error _)).2
    ⟨fun _ _ => guaranteeAt_ledger.2 ⟨forTarget 2, ?_, rfl⟩,
      fun _ _ => guaranteeAt_ledger.2 ⟨forTarget 2, ?_, rfl⟩⟩⟩
  · show [forTarget 2, forTarget 2][(1 : Word).toNat]? = _
    rw [hone]
    rfl
  · show [forTarget 2, forTarget 2][(0 : Word).toNat]? = _
    rw [hzero]
    rfl

/-- **a guarantee behind another allocation cannot be claimed**, and a simple allocation behind a
guarantee can -/
theorem claim_checks_wrong_type :
    claimedPayments [forOne, forTarget 2] 1 = .error "not a guarantee allocation" ∧
      GuaranteeAt (decoding [forOne, forTarget 2]) (claimOf [forOne, forTarget 2] 1) 1 ∧
      claimedPayments [forTarget 2, forTarget 0] 1 = .ok [⟨0, 1, 2⟩, ⟨0, 2, 3⟩] ∧
      ¬ GuaranteeAt (decoding [forTarget 2, forTarget 0])
        (claimOf [forTarget 2, forTarget 0] 1) 1 := by
  have hone : (1 : Word).toNat = 1 := BitVec.toNat_ofNat 1 256
  refine ⟨by decide +kernel, guaranteeAt_ledger.2 ?_, by decide +kernel, ?_⟩
  · rw [hone]
    exact ⟨forTarget 2, rfl, rfl⟩
  · rw [guaranteeAt_ledger, hone]
    rintro ⟨a, ha, hg⟩
    have ha : some (forTarget 0) = some a := ha
    rw [← Option.some.inj ha] at hg
    exact absurd hg (by decide)

end MultiAssetHolder

end Nitro.Contracts
