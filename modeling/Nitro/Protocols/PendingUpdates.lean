import Nitro.Consensus.Signatures
import Nitro.Protocols.Closing

/-!
# Closing a ledger with pending updates

`NewObjective` makes a `Channel` from the supported state of the ledger and looks there for updates
in progress.  The queue of proposals does not get into that channel, so it is never seen, and the
final state takes the turn number of the first queued proposal.

* `newObjective_queue`          the queue makes no difference;
* `Settled`                     nothing is queued, or the ledger has guarantees;
* `closing_after_settled`       a ledger that is closed when it is settled has nothing signed at the
                                final turn;
* `proposal_and_final_signed`   a leader with a proposal on its way signs both.
-/

set_option linter.unusedSectionVars false

namespace Nitro
open Go FinMap Runs ConsensusChannel

namespace DirectDefund
open Objective (Call Signs Closes)
variable {cr : Crypto} {cc : ConsensusChannel}

/-- **the queue makes no difference** to whether a ledger can be closed, nor to how -/
theorem newObjective_queue (cc : ConsensusChannel) (queue : List SignedProposal)
    {id : Destination} {preApprove : Bool} {get get' : Destination → Res ConsensusChannel}
    (hget : get id = .ok cc) (hget' : get' id = .ok { cc with proposalQueue := queue }) :
    newObjective cr id preApprove get' = newObjective cr id preApprove get := by
  unfold newObjective
  rw [hget, hget']
  rfl

theorem newObjective_notEmpty {id : Destination} {preApprove : Bool}
    {get : Destination → Res ConsensusChannel} (hget : get id = .ok cc)
    (hne : cc.fundingTargets ≠ ∅) :
    newObjective cr id preApprove get = .error (.err errNotEmpty) := by
  unfold newObjective
  rw [hget]
  show (failIf (cc.fundingTargets ≠ ∅) errNotEmpty >>= _) = _
  rw [failIf, if_pos hne]
  rfl

/-- nothing is queued, or the ledger has guarantees -/
def Settled (cc : ConsensusChannel) : Prop := cc.proposalQueue = [] ∨ cc.fundingTargets ≠ ∅

theorem base_of_empty (h : cc.proposalQueue = []) : base cc = .ok cc.current.vars := by
  by_cases hl : cc.myIndex = leaderIndex
  · rw [base_leader hl, latestProposedVars, h]
    rfl
  · exact base_other hl

theorem signed_turn {o : Objective} {calls : List Call} {s : State} (hb : Built cr cc o)
    (hs : Signs cr (run (Call.step cr) o calls) s) :
    s.turnNum = cc.current.vars.turnNum + 1 ∧ s.isFinal = true ∧
      cc.current.vars.turnNum < s.turnNum := by
  obtain ⟨id, preApprove, get, hget, hnew⟩ := hb.newObjective
  have hclose : Closes cr (fun _ => True) cc.current.vars.turnNum o :=
    newObjective_closes hget hnew trivial
  have hlast : Closes cr (fun _ => True) cc.current.vars.turnNum (run (Call.step cr) o calls) :=
    run_inv (fun o call h => closes_step o call h fun _ _ _ => trivial) hclose
  obtain ⟨hturn, hfinal, -⟩ := hlast.signs hs
  refine ⟨hturn, hfinal, ?_⟩
  rw [hturn, UInt64.lt_iff_toNat_lt, hlast.1.next]
  omega

/-- **a ledger closed when it is settled**: a ledger with a queue is refused, and the final state has
a turn number at which the client has not signed before -/
theorem closing_after_settled {c : ConsensusChannel} {ops : List Op}
    (hturns : Along (Op.step cr) (fun c _ => TurnsBelow c) c ops)
    (hsettled : Settled (run (Op.step cr) c ops)) :
    ((run (Op.step cr) c ops).proposalQueue ≠ [] → ∀ id preApprove get,
        get id = .ok (run (Op.step cr) c ops) →
          newObjective cr id preApprove get = .error (.err errNotEmpty)) ∧
      ∀ o calls s, Built cr (run (Op.step cr) c ops) o →
        Signs cr (run (Call.step cr) o calls) s →
          ∀ x ∈ signatures cr c ops, x.1 ≠ s.turnNum := by
  constructor
  · intro hqueue id preApprove get hget
    exact newObjective_notEmpty hget (hsettled.resolve_left hqueue)
  · intro o calls s hb hs x hx
    obtain ⟨id, preApprove, get, hget, hnew⟩ := hb.newObjective
    have hqueue : (run (Op.step cr) c ops).proposalQueue = [] := by
      refine hsettled.resolve_right fun hne => ?_
      rw [newObjective_notEmpty hget hne] at hnew
      cases hnew
    obtain ⟨v, hv, hle⟩ := signatures_le_base hturns hx
    rw [base_of_empty hqueue, Except.ok.injEq] at hv
    subst hv
    exact UInt64.ne_of_lt (UInt64.lt_of_le_of_lt hle (signed_turn hb hs).2.2)

end DirectDefund

/-! ## a leader with a proposal on its way -/

namespace Sample

/-- the sample ledger at turn 1, as the leader holds it -/
def fundedLedger : ConsensusChannel :=
  { ledger leaderIndex with current := ⟨⟨1, outcome⟩, sig ⟨1, outcome⟩ 1, sig ⟨1, outcome⟩ 2⟩ }

theorem new_funded :
    newConsensusChannel Crypto.plain fp leaderIndex 1 outcome
      (sig ⟨1, outcome⟩ 1, sig ⟨1, outcome⟩ 2) = .ok fundedLedger := by decide +kernel

def fundedObjective : DirectDefund.Objective :=
  (DirectDefund.newObjective Crypto.plain ledgerId true fun _ => .ok fundedLedger).toOption.getD
    ⟨.unapproved, channel, 0, false⟩

theorem funded_closed :
    DirectDefund.newObjective Crypto.plain ledgerId true (fun _ => .ok fundedLedger) =
      .ok fundedObjective := by decide +kernel

/-- one turn before, with a guarantee of five from the leader -/
def guaranteeing : ConsensusChannel :=
  { fundedLedger with
      current := ⟨⟨0, LedgerOutcome.new 0 ⟨1, 95⟩ ⟨2, 100⟩ [⟨5, 3, 1, 2⟩]⟩, default, default⟩ }

/-- the guarantee is removed in favour of the leader, and the follower agrees -/
def removal : List Op :=
  [.propose (newRemoveProposal ledgerId 3 (some 5)) (key 1),
    .receive ⟨sig ⟨1, outcome⟩ 2, newRemoveProposal ledgerId 3 (some 5), 1⟩]

theorem removed : run (Op.step Crypto.plain) guaranteeing removal = fundedLedger := by
  decide +kernel

theorem funded_signs :
    fundedObjective.Signs Crypto.plain (finalState outcome.asOutcome) :=
  DirectDefund.Objective.signs_of_eval (by decide +kernel)

end Sample

namespace DirectDefund
open Objective (Call Signs)

/-- the leader has a guarantee removed, and then closes the ledger -/
theorem closing_after_settled_removed :
    (signatures Crypto.plain Sample.guaranteeing Sample.removal).length = 1 ∧
      Signs Crypto.plain Sample.fundedObjective (Sample.finalState Sample.outcome.asOutcome) ∧
      ∀ x ∈ signatures Crypto.plain Sample.guaranteeing Sample.removal,
        x.1 ≠ (Sample.finalState Sample.outcome.asOutcome).turnNum := by
  have hsettled : Settled (run (Op.step Crypto.plain) Sample.guaranteeing Sample.removal) := by
    rw [Sample.removed]
    exact .inl rfl
  have hturns : Along (Op.step Crypto.plain) (fun c _ => TurnsBelow c) Sample.guaranteeing
      Sample.removal := by decide +kernel
  have hbuilt : Built Crypto.plain Sample.fundedLedger Sample.fundedObjective :=
    .request Sample.ledgerId true (fun _ => .ok Sample.fundedLedger) rfl Sample.funded_closed
  have hfresh := (closing_after_settled hturns hsettled).2
  rw [Sample.removed] at hfresh
  have hnone : ∀ o : Objective, run (Call.step Crypto.plain) o [] = o := fun _ => rfl
  refine ⟨by decide +kernel, Sample.funded_signs, hfresh _ [] _ hbuilt ?_⟩
  rw [hnone]
  exact Sample.funded_signs

/-- the leader signs a guarantee and then, at the same turn, a final state without it -/
theorem proposal_and_final_signed :
    ∃ c cc o x s, newConsensusChannel Crypto.plain Sample.fp leaderIndex 1 Sample.outcome
        (Sample.sig ⟨1, Sample.outcome⟩ 1, Sample.sig ⟨1, Sample.outcome⟩ 2) = .ok c ∧
      run (Op.step Crypto.plain) c [.propose (Sample.addOf 5) (Sample.key 1)] = cc ∧
      cc.proposalQueue ≠ [] ∧
      newObjective Crypto.plain Sample.ledgerId true (fun _ => .ok cc) = .ok o ∧
      x ∈ signatures Crypto.plain c [.propose (Sample.addOf 5) (Sample.key 1)] ∧
      Signs Crypto.plain o s ∧ s.isFinal = true ∧ x.1 = s.turnNum ∧
      x.2.asState Sample.fp ≠ s := by
  have hqueue : run (Op.step Crypto.plain) Sample.fundedLedger
      [.propose (Sample.addOf 5) (Sample.key 1)] = { Sample.fundedLedger with
        proposalQueue := (run (Op.step Crypto.plain) Sample.fundedLedger
          [.propose (Sample.addOf 5) (Sample.key 1)]).proposalQueue } := by decide +kernel
  refine ⟨Sample.fundedLedger, _, Sample.fundedObjective,
    (2, (Vars.mk 1 Sample.outcome).funded ⟨5, 3, 1, 2⟩ 5), _, Sample.new_funded, hqueue, ?_, ?_,
    ?_, Sample.funded_signs, rfl, rfl, ?_⟩
  · decide +kernel
  · exact Eq.trans (newObjective_queue Sample.fundedLedger _ rfl rfl) Sample.funded_closed
  · decide +kernel
  · intro h
    exact absurd (congrArg State.isFinal h) (by decide)

end DirectDefund

end Nitro
