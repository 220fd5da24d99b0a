import Nitro.Protocols.DepositSafety

/-!
# The amounts of a deposit

A deposit brings every asset from the recorded holdings to the client's target.  `Crank` looks at all
assets together to see whether a deposit is due, and at each asset alone for its amount.

* `crank_submits`          a deposit that `Crank` submits is what `amountToDeposit` says;
* `Sensible`               no amount is negative, or more than is allocated to the client;
* `Overfunded`             the holdings are beyond the client's target;
* `deposit_sensible_iff`   deposits are sensible exactly when no asset is overfunded.
-/

set_option linter.unusedSectionVars false

namespace Nitro
open Go FinMap Runs Waterfall

namespace DirectFund
namespace Objective
variable {cr : Crypto} {sk : Bytes} {o o' : Objective} {se : SideEffects} {r : Cranked}

theorem lookup_amountToDeposit {deposits : Funds} (h : o.amountToDeposit = .ok deposits)
    {asset : Address} (hasset : asset ∈ o.myDepositTarget) :
    ∃ held, o.c.onChainFunding.lookup asset = some held ∧
      deposits.lookup asset = some (o.myDepositTarget.amount asset - held) := by
  unfold amountToDeposit at h
  split at h
  · cases h
  · next hall =>
    cases h
    have hheld : asset ∈ o.c.onChainFunding :=
      not_not.1 (any_eq_false.1 (Bool.eq_false_iff.2 hall) asset hasset)
    refine ⟨_, Funds.lookup_of_mem hheld, ?_⟩
    rw [lookup_ofKeys, if_pos (Finmap.mem_keys.2 hasset)]

theorem signSetup_submits {t : UInt64} {signed : Bool} {sign : Meth Channel SignedState}
    {text : String} {out : Except Error SideEffects}
    (h : signSetup signed sign text o se = .ok (o', out))
    (hsign : sign o.c = Channel.signAndAddState cr (o.c.signedState t).state sk o.c) :
    o'.amountToDeposit = o.amountToDeposit ∧
      ∀ se', out = .ok se' → se'.transactionsToSubmit = se.transactionsToSubmit := by
  unfold signSetup at h
  split at h
  · cases h
    refine ⟨rfl, fun se' hse => ?_⟩
    cases hse
    rfl
  · have hkept := Channel.signAndAddState_onChainFunding cr (o.c.signedState t).state sk o.c
    cases hs : Channel.signAndAddState cr (o.c.signedState t).state sk o.c with
    | error e c =>
      rw [Meth.after_error hs] at hkept
      rw [hsign, hs] at h
      cases e with
      | panic reason => cases h
      | err e =>
        cases h
        exact ⟨amountToDeposit_congr rfl hkept, fun se' hse => by cases hse⟩
    | ok ss c =>
      rw [Meth.after_ok hs] at hkept
      rw [hsign, hs] at h
      cases h
      refine ⟨amountToDeposit_congr rfl hkept, fun se' hse => ?_⟩
      cases hse
      rfl

theorem crankPostfund_submits (h : o.crankPostfund cr se sk = .ok r)
    (hse : se.transactionsToSubmit = []) : r.sideEffects.transactionsToSubmit = [] := by
  obtain ⟨⟨u, out⟩, hsetup, h⟩ := Res.bind_eq_ok.1 h
  obtain ⟨-, hout⟩ := signSetup_submits (t := postFundTurnNum) hsetup rfl
  cases out with
  | error e =>
    cases h
    rfl
  | ok se' =>
    have hse' : se'.transactionsToSubmit = [] := (hout se' rfl).trans hse
    dsimp only at h
    split at h
    · cases h
      exact hse'
    · cases h
      exact hse'

theorem crankFunding_submits (h : o.crankFunding cr se sk = .ok r)
    (hse : se.transactionsToSubmit = []) {id : Destination} {deposits : Funds}
    (htx : .deposit id deposits ∈ r.sideEffects.transactionsToSubmit) :
    o.amountToDeposit = .ok deposits := by
  obtain ⟨amounts, hamounts, h⟩ := Res.bind_eq_ok.1 h
  obtain ⟨safe, -, h⟩ := Res.bind_eq_ok.1 h
  have hnone : ∀ se' : SideEffects, se'.transactionsToSubmit = [] →
      .deposit id deposits ∉ se'.transactionsToSubmit := by
    intro se' hse' hmem
    rw [hse'] at hmem
    exact absurd hmem List.not_mem_nil
  split at h
  · cases h
    exact absurd htx (hnone _ hse)
  · split at h
    · split at h
      · cases h
        have htx : .deposit id deposits ∈ se.transactionsToSubmit ++ [.deposit o.c.id amounts] := htx
        rw [hse, List.nil_append, List.mem_singleton] at htx
        cases htx
        exact hamounts
      · cases h
        exact absurd htx (hnone _ hse)
    · exact absurd htx (hnone _ (crankPostfund_submits h hse))

/-- **what `Crank` deposits** is what `amountToDeposit` says -/
theorem crank_submits (h : o.crank cr sk = .ok r) {id : Destination} {deposits : Funds}
    (htx : .deposit id deposits ∈ r.sideEffects.transactionsToSubmit) :
    o.amountToDeposit = .ok deposits := by
  obtain ⟨u, hclone, h⟩ := Res.bind_eq_ok.1 h
  obtain ⟨d, hd, rfl⟩ := clone_ok hclone
  obtain ⟨-, -, -, hfunding, -⟩ := Channel.clone_ok hd
  split at h
  · cases h
    exact absurd htx List.not_mem_nil
  · obtain ⟨⟨u, out⟩, hsetup, h⟩ := Res.bind_eq_ok.1 h
    obtain ⟨hsame, hout⟩ := signSetup_submits (t := preFundTurnNum) hsetup rfl
    have hcopy : Objective.amountToDeposit { o with c := d } = o.amountToDeposit :=
      amountToDeposit_congr rfl hfunding
    rw [hcopy] at hsame
    cases out with
    | error e =>
      cases h
      exact absurd htx List.not_mem_nil
    | ok se =>
      have hse : se.transactionsToSubmit = [] := hout se rfl
      dsimp only at h
      split at h
      · cases h
        rw [hse] at htx
        exact absurd htx List.not_mem_nil
      · rw [← hsame]
        exact crankFunding_submits h hse htx

end Objective

/-! ## sensible amounts -/

/-- every amount is between zero and what is allocated to `me`, and does not bring the holdings beyond
the safety threshold and that allocation -/
def Sensible (me : Destination) (outcome : Exit) (holdings deposits : Funds) : Prop :=
  ∀ asset d, deposits.lookup asset = some d → ∃ e ∈ outcome, e.asset = asset ∧ ∃ t n h,
    e.allocations.depositSafetyThreshold me = .ok t ∧ e.allocations.totalFor me = .ok n ∧
    holdings.lookup asset = some h ∧ 0 ≤ d ∧ d ≤ n ∧ h + d ≤ t + n

/-- more is held than the safety threshold and what is allocated to `me` -/
def Overfunded (me : Destination) (e : SingleAssetExit) (holdings : Funds) : Prop :=
  ∃ t n h, e.allocations.depositSafetyThreshold me = .ok t ∧ e.allocations.totalFor me = .ok n ∧
    holdings.lookup e.asset = some h ∧ t + n < h

section amounts
variable {cr : Crypto} {preApprove : Bool} {s : State} {myAddress : Address} {o : Objective}
open Objective (Call Cranked)

theorem target_of_mem (hnew : constructFromState cr preApprove s myAddress = .ok o)
    {e : SingleAssetExit} (he : e ∈ s.outcome) : e.asset ∈ o.myDepositTarget := by
  obtain ⟨-, -, ⟨allocated, halloc, htarget⟩, hthreshold, -⟩ := constructFromState_ok hnew
  have hkey : e.asset ∈ o.myDepositSafetyThreshold :=
    Exit.keys_fundsBy hthreshold (.inr (List.mem_map_of_mem he))
  rw [htarget, ← Finmap.mem_keys]
  simp [Funds.add, Funds.sum, Funds.keys_accumulate, Finmap.mem_keys, hkey]

theorem amounts_of_mem (hnew : constructFromState cr preApprove s myAddress = .ok o)
    (hnn : ∀ e ∈ s.outcome, e.allocations.NonNeg)
    (hdistinct : (s.outcome.map SingleAssetExit.asset).Nodup) {e : SingleAssetExit}
    (he : e ∈ s.outcome) :
    ∃ t n, e.allocations.depositSafetyThreshold (addressToDestination myAddress) = .ok t ∧
      e.allocations.totalFor (addressToDestination myAddress) = .ok n ∧
      e.asset ∈ o.myDepositSafetyThreshold ∧
      o.myDepositSafetyThreshold.amount e.asset = t ∧
      o.myDepositTarget.amount e.asset = t + n := by
  obtain ⟨e', he', hea, hmem, hthreshold, htarget⟩ :=
    target_eq hnew hnn hdistinct (target_of_mem hnew he)
  obtain rfl : e' = e := List.inj_on_of_nodup_map hdistinct he' he hea
  refine ⟨_, _, Allocations.depositSafetyThreshold_eq (hnn e' he),
    Allocations.totalFor_eq (hnn e' he), hmem, hthreshold, ?_⟩
  rw [htarget, hthreshold]

/-- **the deposits that `Crank` emits are sensible exactly when no asset is overfunded** -/
theorem deposit_sensible_iff {calls : List Call} {sk : Bytes} {r : Cranked} {id : Destination}
    {deposits : Funds} (hnew : constructFromState cr preApprove s myAddress = .ok o)
    (hnn : ∀ e ∈ s.outcome, e.allocations.NonNeg)
    (hdistinct : (s.outcome.map SingleAssetExit.asset).Nodup)
    (hr : (run (Call.step cr) o calls).crank cr sk = .ok r)
    (htx : .deposit id deposits ∈ r.sideEffects.transactionsToSubmit) :
    Sensible (addressToDestination myAddress) s.outcome
        (run (Call.step cr) o calls).c.onChainFunding deposits ↔
      ∀ e ∈ s.outcome, ¬ Overfunded (addressToDestination myAddress) e
        (run (Call.step cr) o calls).c.onChainFunding := by
  obtain ⟨hthreshold, htarget, -⟩ : Objective.SameTargets o (run (Call.step cr) o calls) :=
    run_inv Objective.SameTargets.step (.refl o)
  have hamounts := Objective.crank_submits hr htx
  obtain ⟨id', deposits', htx', hdeposits⟩ := (Objective.crank_ok hr).2.2 _ htx
  cases htx'
  constructor
  · rintro hsensible e he ⟨t, n, h, ht, hn, hh, hover⟩
    have hmem : e.asset ∈ (run (Call.step cr) o calls).myDepositTarget := by
      rw [htarget]
      exact target_of_mem hnew he
    obtain ⟨held, hheld, hd⟩ := Objective.lookup_amountToDeposit hamounts hmem
    obtain ⟨t', n', ht', hn', -, -, hsum⟩ := amounts_of_mem hnew hnn hdistinct he
    obtain ⟨-, -, -, -, -, -, -, -, -, hnonneg, -⟩ := hsensible _ _ hd
    rw [hh] at hheld
    rw [ht] at ht'
    rw [hn] at hn'
    cases hheld
    cases ht'
    cases hn'
    rw [htarget, hsum] at hnonneg
    omega
  · intro hfunded asset d hd
    obtain ⟨hasset, h, hh, hamount⟩ := hdeposits.amounts asset d hd
    rw [htarget] at hasset hamount
    obtain ⟨e, he, rfl, -⟩ := target_eq hnew hnn hdistinct hasset
    obtain ⟨t, n, ht, hn, hmem, hsafety, hsum⟩ := amounts_of_mem hnew hnn hdistinct he
    have hsafe := hdeposits.safe e.asset (by rw [hthreshold]; exact hmem)
    rw [hthreshold, hsafety, Funds.amount_of_lookup hh] at hsafe
    have hunder : ¬ t + n < h := fun hover => hfunded e he ⟨t, n, h, ht, hn, hh, hover⟩
    rw [hsum] at hamount
    exact ⟨e, he, rfl, t, n, h, ht, hn, hh, by omega, by omega, by omega⟩

end amounts
end DirectFund

/-! ## two assets -/

namespace Sample
open DirectFund.Objective (Call)

/-- five each of two assets -/
def twoAssets : State := { state 0 with outcome := [⟨0, [], fiveEach⟩, ⟨9, [], fiveEach⟩] }

def twoAssetObjective : DirectFund.Objective :=
  (DirectFund.constructFromState Crypto.plain true twoAssets 1).toOption.getD
    ⟨.unapproved, channel, ∅, ∅, ∅, 0, false⟩

def twoAssetPrefund : ObjectiveEvent where
  objectiveId := twoAssetObjective.id
  signedState := ⟨twoAssets, some ((∅ : SigMap).insert 1 (sigOn twoAssets 2))⟩
  signedProposal := SignedProposal.zero

/-- somebody deposits ten of the second asset -/
def earlyDeposit : ChainEvent := .deposited twoAssetObjective.c.id 1 9 10 10

/-- what the first participant holds on record and deposits after the calls -/
def depositsAfter (calls : List Call) : Res (Funds × List ChainTransaction) := do
  let o := run (Call.step Crypto.plain) twoAssetObjective calls
  let r ← o.crank Crypto.plain (key 1)
  .ok (o.c.onChainFunding, r.sideEffects.transactionsToSubmit)

theorem twoAsset_new : DirectFund.constructFromState Crypto.plain true twoAssets 1 =
    .ok twoAssetObjective := by decide +kernel

theorem depositsAfter_prefund : depositsAfter [.update twoAssetPrefund] =
    .ok (((∅ : Funds).insert 0 0).insert 9 0,
      [.deposit twoAssetObjective.c.id (((∅ : Funds).insert 0 5).insert 9 5)]) := by
  decide +kernel

end Sample

namespace DirectFund
open Objective (Call)

theorem deposit_sensible_both :
    Sensible 1 Sample.twoAssets.outcome (((∅ : Funds).insert 0 0).insert 9 0)
      (((∅ : Funds).insert 0 5).insert 9 5) := by
  obtain ⟨r, hr, heval⟩ := Res.bind_eq_ok.1 Sample.depositsAfter_prefund
  obtain ⟨hheld, htx⟩ := Prod.mk.inj (Except.ok.inj heval)
  have hnn : ∀ e ∈ Sample.twoAssets.outcome, e.allocations.NonNeg := by
    intro e he a ha
    refine ⟨5, by decide, ?_⟩
    have hl : e.allocations = Sample.fiveEach := by
      rcases List.mem_pair.1 he with rfl | rfl <;> rfl
    rw [hl] at ha
    rcases List.mem_pair.1 ha with rfl | rfl <;> rfl
  have hiff := deposit_sensible_iff Sample.twoAsset_new hnn (by decide) hr
    (htx ▸ List.mem_singleton_self _)
  rw [hheld] at hiff
  refine hiff.2 fun e he hover => ?_
  obtain ⟨t, n, h, ht, hn, hh, hlt⟩ := hover
  rcases List.mem_pair.1 he with rfl | rfl
  · cases ht
    cases hn
    cases hh
    exact absurd hlt (by decide)
  · cases ht
    cases hn
    cases hh
    exact absurd hlt (by decide)

/-- **a negative deposit**: the second asset is there already and the first is not, so that five of the
first are deposited and minus five of the second -/
theorem deposit_negative :
    constructFromState Crypto.plain true Sample.twoAssets 1 = .ok Sample.twoAssetObjective ∧
    Sample.depositsAfter [.update Sample.twoAssetPrefund,
        .updateWithChainEvent Sample.earlyDeposit] =
      .ok (((∅ : Funds).insert 0 0).insert 9 10,
        [.deposit Sample.twoAssetObjective.c.id (((∅ : Funds).insert 0 5).insert 9 (-5))]) :=
  ⟨Sample.twoAsset_new, by decide +kernel⟩

end DirectFund

end Nitro
