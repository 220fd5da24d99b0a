import Nitro.Protocols.DepositAmounts
import Nitro.Protocols.Handover

/-!
# Which funded channels become ledgers

A channel is funded whatever its outcome is.  It becomes a ledger when the outcome has the form that
a ledger's has: otherwise `CreateConsensusChannel` panics, refuses it, or looks for the signatures
on another state, when the deposits are on chain already.

* `hasAllSignatures_of_full`     a record with everybody's signature is complete;
* `newConsensusChannel_of_signed`   a ledger is made from what both parties signed;
* `ledger_opened_iff`            **a funded channel becomes a ledger** with its outcome exactly if
                                 the outcome is that of a ledger.
-/

set_option linter.unusedSectionVars false

namespace Nitro
open Go FinMap Runs

theorem SignedState.hasAllSignatures_of_full {cr : Crypto} {ss : SignedState}
    (hc : ss.Checked cr) (hf : ss.Full) : ss.hasAllSignatures = true := by
  have hperm : ss.entries.keys.Perm (List.range ss.state.participants.length) := by
    refine (List.perm_ext_iff_of_nodup ss.entries.keys_nodup List.nodup_range).2 fun k => ?_
    rw [List.mem_range]
    constructor
    · intro hk
      obtain ⟨sig, hsig⟩ := Option.isSome_iff_exists.1 (AList.lookup_isSome.2 hk)
      obtain ⟨a, ha, -⟩ := hc k sig hsig
      exact (List.getElem?_eq_some_iff.1 ha).1
    · exact fun hk => hf k hk
  refine decide_eq_true ?_
  rw [hperm.length_eq, List.length_range]

theorem newConsensusChannel_of_signed {cr : Crypto} {fp : FixedPart} {turn : UInt64}
    {out : LedgerOutcome} {a b : Address} (i : Nat) (sigs : Signature × Signature)
    (hvalid : fp.validate cr = .ok ()) (ha : fp.participants[leaderIndex]? = some a)
    (hb : fp.participants[followerIndex]? = some b)
    (hleader : ((⟨turn, out⟩ : Vars).asState fp).recoverSigner cr sigs.1 = .ok a)
    (hfollower : ((⟨turn, out⟩ : Vars).asState fp).recoverSigner cr sigs.2 = .ok b) :
    ∃ cc, newConsensusChannel cr fp i turn out sigs = .ok cc ∧ cc.current.vars = ⟨turn, out⟩ := by
  obtain ⟨id, hid, -⟩ := FixedPart.validate_ok hvalid
  refine ⟨⟨i, fp, id, ∅, ⟨⟨turn, out⟩, sigs⟩, []⟩, ?_, rfl⟩
  refine Res.bind_eq_ok.2 ⟨(), hvalid, Res.bind_eq_ok.2 ⟨id, hid, ?_⟩⟩
  refine Res.bind_eq_ok.2 ⟨a, Res.wrap_eq_ok.2 hleader, ?_⟩
  refine Res.bind_eq_ok.2 ⟨a, FixedPart.participant_eq_ok.2 ha, ?_⟩
  refine failIf_bind_eq_ok.2 ⟨not_not.2 rfl, Res.bind_eq_ok.2 ⟨b, Res.wrap_eq_ok.2 hfollower, ?_⟩⟩
  refine Res.bind_eq_ok.2 ⟨b, FixedPart.participant_eq_ok.2 hb, ?_⟩
  exact failIf_bind_eq_ok.2 ⟨not_not.2 rfl, rfl⟩

namespace DirectFund.Objective
open Channel (Ready Filled)

variable {cr : Crypto} {preApprove : Bool} {s : State} {myAddress : Address} {o₀ o : Objective}

/-- a channel with everybody's signature on the postfund state, and an outcome that can be read and
written again, becomes a ledger with this outcome -/
theorem createConsensusChannel_of_ready {i : Nat} {out : LedgerOutcome}
    (hready : Ready cr anySig s i o.c) (hfilled : Filled s postFundTurnNum o.c)
    (htwo : s.participants.length = 2) (hfinal : s.isFinal = false)
    (hvalid : s.fixedPart.validate cr = .ok ()) (hkeyed : out.Keyed)
    (hout : s.outcome = [out.assetExit]) :
    ∃ cc, o.createConsensusChannel cr = .ok cc ∧ cc.current.vars.outcome = out := by
  obtain ⟨ss, hlookup, hstate, hholds, -⟩ := hready.post
  have hss : o.c.signedState postFundTurnNum = ss := by
    unfold Channel.signedState
    rw [hlookup]
    rfl
  have hparts : ss.state.participants = s.participants := by rw [hstate]; rfl
  have hfull : ss.Full := by
    intro j hj
    have hsigned := hfilled j (hparts ▸ hj)
    unfold Channel.SignedBy at hsigned
    rwa [hss] at hsigned
  match hl : s.participants, htwo with
  | [a, b], _ =>
    obtain ⟨leaderSig, hleader, hleaderRec⟩ :=
      hholds.checked.signed hfull (i := leaderIndex) (a := a) (by rw [hparts, hl]; rfl)
    obtain ⟨followerSig, hfollower, hfollowerRec⟩ :=
      hholds.checked.signed hfull (i := followerIndex) (a := b) (by rw [hparts, hl]; rfl)
    have hasState : (⟨postFundTurnNum, out⟩ : Vars).asState o.c.fixedPart = ss.state := by
      rw [hstate, hready.fixedPart]
      unfold Vars.asState State.postfund State.fixedPart
      dsimp only
      rw [LedgerOutcome.asOutcome_eq, ← hout, hfinal]
    rw [← hasState] at hleaderRec hfollowerRec
    rw [← hready.fixedPart] at hvalid
    obtain ⟨id, hid, -⟩ := FixedPart.validate_ok hvalid
    obtain ⟨con, hcon, hvars⟩ := newConsensusChannel_of_signed
      (if o.c.myIndex = leaderIndex then leaderIndex else followerIndex)
      (leaderSig, followerSig) hvalid
      (by rw [hready.fixedPart]; exact congrArg (·[leaderIndex]?) hl)
      (by rw [hready.fixedPart]; exact congrArg (·[followerIndex]?) hl)
      hleaderRec hfollowerRec
    refine ⟨_, createConsensusChannel_eq (leaderSig, followerSig) ?_ ?_ ?_ ?_
      (LedgerOutcome.fromExit_assetExit hkeyed) rfl ?_, congrArg Vars.outcome hvars⟩
    · unfold Channel.postFundComplete
      rw [hss]
      exact SignedState.hasAllSignatures_of_full hholds.checked hfull
    · unfold Channel.signedPostFundState
      rw [hss, hleader]
    · unfold Channel.signedPostFundState
      rw [hss, hfollower]
    · unfold Channel.postFundState
      rw [hss, hstate]
      exact hout
    · have hturn : o.c.postFundState.turnNum = postFundTurnNum := by
        unfold Channel.postFundState
        rw [hss, hstate]
        rfl
      rw [hturn]
      exact Res.bind_eq_ok.2 ⟨(), hvalid, Res.bind_eq_ok.2 ⟨id, hid,
        Res.bind_eq_ok.2 ⟨out, LedgerOutcome.clone_raw out, hcon⟩⟩⟩

end DirectFund.Objective

namespace DirectFund
open Objective (Event Trace)

/-- **a funded channel of two participants becomes a ledger with its outcome** exactly if the outcome
has the form that the outcome of a ledger has -/
theorem ledger_opened_iff {cr : Crypto} {preApprove : Bool} {s : State} {myAddress : Address}
    {o : Objective} {events : List Event} {t : Trace}
    (hnew : constructFromState cr preApprove s myAddress = .ok o)
    (htwo : s.participants.length = 2) (ht : run (Trace.step cr) ⟨o, []⟩ events = t)
    (hdone : t.objective.status = .completed) :
    (∃ cc, t.objective.createConsensusChannel cr = .ok cc ∧
      cc.current.vars.outcome.asOutcome = t.objective.c.postFundState.outcome) ↔
    ∃ e, s.outcome = [e] ∧ LedgerExit e := by
  obtain ⟨i, -, hlawful₀⟩ := lawful_new hnew
  have hbuilt := constructFromState_ok hnew
  obtain ⟨hfinal, hvalid⟩ := Objective.constructFromState_start hnew
  have hlawful : Objective.Lawful cr s i o t := by
    rw [← ht]
    exact run_inv (Objective.Lawful.step hbuilt.turnNum) hlawful₀
  obtain ⟨hready, hfilled⟩ := hlawful.completed hdone
  have hpost : t.objective.c.postFundState.outcome = s.outcome :=
    (congrArg State.outcome hready.post.state_eq).trans rfl
  have hamounts := Exit.amounts_of_total hbuilt.full
  constructor
  · rintro ⟨cc, hcc, hout⟩
    obtain ⟨out, hcreated⟩ := Objective.createConsensusChannel_ok hcc
    obtain ⟨e, he, hread⟩ := hcreated.outcome
    obtain ⟨-, -, -, -, hcurrent, -⟩ := ConsensusChannel.newConsensusChannel_ok hcreated.made
    have hvars : cc.current.vars.outcome = out :=
      congrArg (fun sv : SignedVars => sv.vars.outcome) hcurrent
    rw [hvars, LedgerOutcome.asOutcome_eq, he] at hout
    obtain rfl : out.assetExit = e := (List.cons.inj hout).1
    exact ⟨_, hpost.symm.trans he, ledgerExit_assetExit (keyed_of_fromExit hread)⟩
  · rintro ⟨e, he, hledger⟩
    have hmem : e ∈ s.outcome := by
      rw [he]
      exact List.mem_singleton_self e
    obtain ⟨out, hkeyed, rfl⟩ := (ledgerExit_iff (hamounts e hmem)).1 hledger
    obtain ⟨cc, hcc, hvars⟩ :=
      Objective.createConsensusChannel_of_ready hready hfilled htwo hfinal hvalid hkeyed he
    refine ⟨cc, hcc, ?_⟩
    rw [hvars, LedgerOutcome.asOutcome_eq, hpost, he]

end DirectFund

/-! ## one asset and two -/

namespace Sample
open DirectFund.Objective (Event Trace)

/-- the prefund signature of the second participant, the deposits of both, and both signatures on
the postfund state -/
def openingEvents : List Event :=
  fundedEvents ++ [.call (.crank (key 1)), .call (.update (postfundEvent fiveEach)),
    .call (.crank (key 1))]

/-- the same for two assets -/
def twoAssetEvents : List Event :=
  [.call (.update twoAssetPrefund),
    .call (.updateWithChainEvent (.deposited twoAssetObjective.c.id 1 0 10 10)),
    .call (.updateWithChainEvent (.deposited twoAssetObjective.c.id 2 9 10 10)),
    .call (.crank (key 1)),
    .call (.update ⟨twoAssetObjective.id, ⟨twoAssets.postfund, some (((∅ : SigMap).insert 0
      (sigOn twoAssets.postfund 1)).insert 1 (sigOn twoAssets.postfund 2))⟩,
      SignedProposal.zero⟩),
    .call (.crank (key 1))]

def twoAssetRun : Trace := run (Trace.step Crypto.plain) ⟨twoAssetObjective, []⟩ twoAssetEvents

end Sample

namespace DirectFund
open Objective (Event Trace)

theorem ledger_opened_five : ∃ cc,
    (Sample.fundingRun Sample.openingEvents).objective.createConsensusChannel Crypto.plain =
      .ok cc := by
  have hnew : constructFromState Crypto.plain true (Sample.fundingState Sample.fiveEach) 1 =
      .ok (Sample.fundingObjective Sample.fiveEach) := by decide +kernel
  have hdone : (Sample.fundingRun Sample.openingEvents).objective.status = .completed :=
    by decide +kernel
  obtain ⟨cc, hcc, -⟩ := (ledger_opened_iff (t := Sample.fundingRun Sample.openingEvents) hnew rfl
    rfl hdone).2 ⟨⟨0, [], Sample.fiveEach⟩, rfl, rfl, by decide, by decide, by decide,
      List.Pairwise.nil⟩
  exact ⟨cc, hcc⟩

/-- **two assets are deposited, and there is no ledger** -/
theorem two_assets_stuck :
    constructFromState Crypto.plain true Sample.twoAssets 1 = .ok Sample.twoAssetObjective ∧
    run (Trace.step Crypto.plain) ⟨Sample.twoAssetObjective, []⟩ Sample.twoAssetEvents =
      Sample.twoAssetRun ∧
    Sample.twoAssetRun.objective.status = .completed ∧
    Sample.twoAssetRun.objective.createConsensusChannel Crypto.plain =
      .error (.err (.new "a consensus channel only supports a single asset")) :=
  ⟨Sample.twoAsset_new, rfl, by decide +kernel⟩

end DirectFund

end Nitro
