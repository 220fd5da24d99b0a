import Nitro.Lib.Triple
import Nitro.Protocols.ThreeParty

/-!
# The next queued proposal

A follower that signs the first proposal of a ledger's queue may find another one behind it, which
some other objective waits for; `acceptLedgerUpdate` and `updateLedgerToRemoveGuarantee` put it into
`ProposalsToProcess`.  `Crank` gets their side effects through `Merge`, which does not take that
field over.

* `Countersigned`                 what `SignNextProposal` does to a ledger;
* `crank_proposalsToProcess`      **a `Crank` never returns a proposal to process**;
* `next_proposal_processed_iff`   so the next proposal is there only if there is none.
-/

set_option linter.unusedSectionVars false

namespace Nitro
open Go FinMap

open Meth

/-- **what a step on a ledger leaves behind**: the key was used, the ledger is the next one, and the
other party of the ledger gets a message -/
theorem keeps_recorded {σ τ α β : Type} {p : σ → τ} {use set : σ → σ} (huse : ∀ k, p (use k) = p k)
    (hset : ∀ k, p (set k) = p k) (recipient : Res α) (effects : α → β) :
    (do modify use; modify set; let a ← liftM recipient; pure (effects a) : Meth σ β).Keeps p :=
  keeps_bind (keeps_modify huse) fun _ => keeps_bind (keeps_modify hset) fun _ =>
    keeps_bind (keeps_lift recipient) fun _ => keeps_pure _

/-! ## virtual funding -/

namespace VirtualFund
namespace Objective
variable {cr : Crypto} {o : Objective}

/-- the ledger on a side -/
def ledger (o : Objective) (side : Side) : Option ConsensusChannel :=
  (o.connection side).map Connection.channel

/-- what there is to process so far -/
def Work.proposals (k : Work) : List Proposal := k.sideEffects.proposalsToProcess

theorem keeps_signSetup (signedByMe : Channel → Bool) (state : Channel → State)
    (sign : Meth Channel SignedState) : (o.signSetup signedByMe state sign).Keeps Work.proposals := by
  refine keeps_bind keeps_get fun k => keeps_ite (keeps_pure _) ?_
  refine keeps_bind (keeps_modify fun _ => rfl) fun _ => ?_
  exact keeps_bind (keeps_zoom sign fun _ _ => rfl) fun ss => keeps_modify fun _ => rfl

theorem keeps_proposeLedgerUpdate (orders : LoopOrders) (sk : Bytes) (side : Side) (c : Connection) :
    (proposeLedgerUpdate cr orders sk side c).Keeps Work.proposals := by
  refine keeps_ite (keeps_throw _) ?_
  split
  · exact keeps_throw _
  · refine keeps_recorded ?_ ?_ _ _
    · exact fun _ => rfl
    · exact fun _ => rfl

theorem keeps_acceptLedgerUpdate (orders : LoopOrders) (sk : Bytes) (side : Side) (c : Connection) :
    (acceptLedgerUpdate cr orders sk side c).Keeps Work.proposals := by
  unfold acceptLedgerUpdate
  split
  · exact keeps_throw _
  · exact keeps_throw _
  · refine keeps_recorded ?_ ?_ _ _
    · exact fun _ => rfl
    · exact fun _ => rfl

/-- what a ledger step asks to process is lost in `Merge` -/
theorem keeps_fund (orders : LoopOrders) (sk : Bytes) (side : Side) (missing : Bool) :
    (fund cr orders sk side missing).Keeps Work.proposals := by
  have hledger (c : Connection) : (updateLedgerWithGuarantee cr orders sk side c).Keeps
      Work.proposals := by
    refine keeps_bind (keeps_lift _) fun proposed => keeps_ite ?_ ?_
    · exact keeps_ite (keeps_pure _) (keeps_wrap (keeps_proposeLedgerUpdate orders sk side c))
    · refine keeps_bind (keeps_lift _) fun next => ?_
      exact keeps_ite (keeps_wrap (keeps_acceptLedgerUpdate orders sk side c)) (keeps_pure _)
  refine keeps_ite (keeps_pure _) ?_
  refine keeps_bind keeps_get fun k => keeps_bind (keeps_lift _) fun c => ?_
  refine keeps_ite (keeps_pure _) ?_
  exact keeps_bind (keeps_wrap (hledger c)) fun se => keeps_modify fun _ => rfl

theorem keeps_progress (orders : Side → LoopOrders) (sk : Bytes) :
    (o.progress cr orders sk).Keeps Work.proposals := by
  refine keeps_bind (keeps_signSetup _ _ _) fun _ => keeps_bind keeps_get fun k => ?_
  refine keeps_ite (keeps_pure _) (keeps_bind keeps_get fun k => ?_)
  refine keeps_bind (keeps_fund _ sk .left _) fun _ => keeps_bind (keeps_fund _ sk .right _) fun _ => ?_
  refine keeps_bind keeps_get fun k => keeps_bind (keeps_lift _) fun complete => ?_
  refine keeps_ite (keeps_pure _) (keeps_bind (keeps_signSetup _ _ _) fun _ => ?_)
  refine keeps_bind keeps_get fun k => keeps_ite (keeps_pure _) ?_
  exact keeps_bind (keeps_modify fun _ => rfl) fun _ => keeps_pure _

/-- **`Crank` returns no proposal to process** -/
theorem crank_proposalsToProcess {orders : Side → LoopOrders} {sk : Bytes} {r : Cranked}
    (h : o.crank cr orders sk = .ok r) : r.sideEffects.proposalsToProcess = [] := by
  obtain ⟨u, -, h⟩ := Res.bind_eq_ok.1 h
  split at h
  · cases h
    rfl
  · cases hp : o.progress cr orders sk ⟨u, .empty, []⟩ with
    | ok w k =>
      rw [hp] at h
      cases h
      exact keeps_progress orders sk _ _ _ hp
    | error e k =>
      rw [hp] at h
      cases e with
      | err e =>
        cases h
        rfl
      | panic r => cases h

end Objective
end VirtualFund

/-! ## virtual defunding -/

namespace VirtualDefund
namespace Objective
variable {cr : Crypto} {o : Objective}

def Work.proposals (k : Work) : List Proposal := k.sideEffects.proposalsToProcess

theorem keeps_signFinal (sk : Bytes) : (o.signFinal cr sk).Keeps Work.proposals := by
  refine keeps_bind keeps_get fun k => keeps_bind (keeps_lift _) fun signed => ?_
  refine keeps_ite (keeps_pure _) (keeps_bind (keeps_lift _) fun final => ?_)
  refine keeps_bind (keeps_modify fun _ => rfl) fun _ => keeps_bind (keeps_lift _) fun sig => ?_
  refine keeps_bind (keeps_lift _) fun updated => keeps_bind (keeps_modify fun _ => rfl) fun _ => ?_
  refine keeps_bind (keeps_lift _) fun signedFinal => keeps_bind (keeps_lift _) fun id => ?_
  exact keeps_modify fun _ => rfl

theorem keeps_proposeRemoval (sk : Bytes) (side : Side) (ledger : ConsensusChannel) :
    (proposeRemoval cr sk side ledger).Keeps Work.proposals := by
  refine keeps_bind keeps_get fun k => keeps_bind (keeps_lift _) fun proposal => ?_
  split
  · exact keeps_throw _
  · exact keeps_throw _
  · refine keeps_recorded ?_ ?_ _ _
    · exact fun _ => rfl
    · exact fun _ => rfl

theorem keeps_acceptRemoval (sk : Bytes) (side : Side) (ledger : ConsensusChannel) :
    (acceptRemoval cr sk side ledger).Keeps Work.proposals := by
  refine keeps_bind keeps_get fun k => keeps_bind (keeps_lift _) fun proposal => ?_
  split
  · exact keeps_throw _
  · exact keeps_throw _
  · refine keeps_recorded ?_ ?_ _ _
    · exact fun _ => rfl
    · exact fun _ => rfl

theorem keeps_defund (sk : Bytes) (side : Side) (missing : Bool) :
    (defund cr sk side missing).Keeps Work.proposals := by
  have hledger (ledger : ConsensusChannel) :
      (updateLedgerToRemoveGuarantee cr sk side ledger).Keeps Work.proposals := by
    refine keeps_bind keeps_get fun k => keeps_bind (keeps_lift _) fun vId => keeps_ite ?_ ?_
    · exact keeps_ite (keeps_pure _) (keeps_proposeRemoval sk side ledger)
    · exact keeps_ite (keeps_acceptRemoval sk side ledger) (keeps_pure _)
  refine keeps_ite (keeps_pure _) ?_
  refine keeps_bind keeps_get fun k => keeps_bind (keeps_lift _) fun defunded => ?_
  refine keeps_ite (keeps_pure _) ?_
  split
  · exact keeps_throw _
  · exact keeps_bind (keeps_wrap (hledger _)) fun se => keeps_modify fun _ => rfl

theorem keeps_progress (sk : Bytes) : (progress cr sk).Keeps Work.proposals := by
  refine keeps_bind keeps_get fun k => keeps_ite (keeps_pure _) ?_
  refine keeps_bind (keeps_defund sk .left _) fun _ => keeps_bind (keeps_defund sk .right _) fun _ => ?_
  refine keeps_bind keeps_get fun k => keeps_bind (keeps_lift _) fun defunded => ?_
  exact keeps_ite (keeps_pure _) (keeps_bind (keeps_modify fun _ => rfl) fun _ => keeps_pure _)

theorem crank_proposalsToProcess {sk : Bytes} {r : Cranked} (h : o.crank cr sk = .ok r) :
    r.sideEffects.proposalsToProcess = [] := by
  obtain ⟨u, -, h⟩ := Res.bind_eq_ok.1 h
  split at h
  · cases h
    rfl
  · cases hs : o.signFinal cr sk ⟨u, .empty, []⟩ with
    | error e k =>
      simp only [hs] at h
      cases e with
      | err e =>
        cases h
        rfl
      | panic r => cases h
    | ok _ k =>
      simp only [hs] at h
      cases hp : progress cr sk k with
      | error e k' =>
        simp only [hp] at h
        cases e with
        | err e =>
          cases h
          rfl
        | panic r => cases h
      | ok w k' =>
        simp only [hp] at h
        cases h
        exact (keeps_progress sk _ _ _ hp).trans (keeps_signFinal sk _ _ _ hs)

end Objective
end VirtualDefund

/-! ## the proposal that is left -/

/-- a follower signed the first proposal of the queue -/
def ConsensusChannel.Countersigned (cr : Crypto) (sk : Bytes) (before after : ConsensusChannel) :
    Prop :=
  ∃ expected signed, ConsensusChannel.signNextProposal cr expected sk before = .ok signed after

namespace ConsensusChannel
variable {cr : Crypto} {sk : Bytes} {before after : ConsensusChannel}

theorem Countersigned.queue (h : Countersigned cr sk before after) :
    ∃ signed, before.proposalQueue = signed :: after.proposalQueue := by
  obtain ⟨expected, sp, hrun⟩ := h
  rcases signNextProposal_cases cr expected sk before with ⟨sv, rest, sp', hn, hrun'⟩ | ⟨e, -, hrun'⟩
  · rw [hrun'] at hrun
    cases hrun
    obtain ⟨head, _, _, -, hq, -⟩ := nextConsensus_ok hn
    exact ⟨head, hq⟩
  · rw [hrun'] at hrun
    cases hrun

theorem Countersigned.processed_iff {processed : List Proposal}
    (h : Countersigned cr sk before after) (hp : processed = []) :
    (∀ next rest, after.proposalQueue = next :: rest → next.proposal ∈ processed) ↔
      before.proposalQueue.length = 1 := by
  obtain ⟨signed, hqueue⟩ := h.queue
  rw [hqueue, hp, List.length_cons]
  constructor
  · intro hall
    cases hrest : after.proposalQueue with
    | nil => rfl
    | cons next rest => exact absurd (hall next rest hrest) List.not_mem_nil
  · intro hlen next rest hrest
    rw [hrest, List.length_cons] at hlen
    omega

end ConsensusChannel

/-- **the proposal at the head of the queue is processed only where there is none**: on a ledger on
which the client signed a proposal as follower, this takes that the proposal was the only one -/
theorem next_proposal_processed_iff (cr : Crypto) :
    (∀ (o u : VirtualFund.Objective) orders sk r, o.clone cr = .ok u →
      o.crank cr orders sk = .ok r → r.err = none →
      ∀ side before after, u.ledger side = some before → r.updated.ledger side = some after →
        ConsensusChannel.Countersigned cr sk before after →
        ((∀ next rest, after.proposalQueue = next :: rest →
          next.proposal ∈ r.sideEffects.proposalsToProcess) ↔ before.proposalQueue.length = 1)) ∧
    ∀ (o u : VirtualDefund.Objective) sk r, o.clone = .ok u → o.crank cr sk = .ok r → r.err = none →
      ∀ side before after, u.ledger side = some before → r.updated.ledger side = some after →
        ConsensusChannel.Countersigned cr sk before after →
        ((∀ next rest, after.proposalQueue = next :: rest →
          next.proposal ∈ r.sideEffects.proposalsToProcess) ↔ before.proposalQueue.length = 1) := by
  constructor
  · intro o u orders sk r _ hcrank _ side before after _ _ hsigned
    exact hsigned.processed_iff (VirtualFund.Objective.crank_proposalsToProcess hcrank)
  · intro o u sk r _ hcrank _ side before after _ _ hsigned
    exact hsigned.processed_iff (VirtualDefund.Objective.crank_proposalsToProcess hcrank)

/-! ## Bob signs the first of two proposals -/

namespace Sample
open VirtualFund

/-- the intermediary's next proposal, for another channel -/
def nextToBob : SignedProposal where
  signature := sigOn ((((ledgerLedBy 2 3).current.vars.funded
    (Vars.guaranteeFor virtualId 2 3 5 3) 5).funded ⟨1, 77, 2, 3⟩ 1).asState
      (ledgerLedBy 2 3).fp) 2
  proposal := newAddProposal (ledgerLedBy 2 3).id ⟨some 1, 77, 2, 3⟩ (some 1)
  turnNum := 2

/-- Bob's ledger with the intermediary, with both proposals in the queue -/
def bobsLedger : ConsensusChannel :=
  { ledgerLedBy 2 3 with
    myIndex := followerIndex
    proposalQueue := [proposedToBob, nextToBob] }

/-- the ledger after Bob has signed the first one -/
def bobsSigned : ConsensusChannel :=
  let v := (ledgerLedBy 2 3).current.vars.funded (Vars.guaranteeFor virtualId 2 3 5 3) 5
  { bobsLedger with
    current := ⟨v, proposedToBob.signature, sigOn (v.asState (ledgerLedBy 2 3).fp) 3⟩
    proposalQueue := [nextToBob] }

def bobFunds : Objective :=
  (constructObjectiveFromState Crypto.plain virtualState true 3
    fun _ => some bobsLedger).toOption.getD aliceFunds

/-- the others have signed the prefund state -/
def bobReady : Objective :=
  Objective.Call.step Crypto.plain bobFunds
    (.update ⟨aliceFunds.id, signedForBob virtualState, SignedProposal.zero⟩)

theorem bob_countersigns :
    ConsensusChannel.Countersigned Crypto.plain (key 3) bobsLedger bobsSigned := by
  have h : ConsensusChannel.signNextProposal Crypto.plain proposedToBob.proposal (key 3) bobsLedger =
      .ok ⟨bobsSigned.current.signatures.2, proposedToBob.proposal, 1⟩ bobsSigned := by
    decide +kernel
  exact ⟨_, _, h⟩

theorem crank_bobReady : (bobReady.clone Crypto.plain >>= fun u =>
    bobReady.crank Crypto.plain orders (key 3) >>= fun r =>
      .ok (r.err, u.ledger .left, r.updated.ledger .left)) =
        .ok (none, some bobsLedger, some bobsSigned) := by decide +kernel

theorem bob_cranks : ∃ u r, bobReady.clone Crypto.plain = .ok u ∧
    bobReady.crank Crypto.plain orders (key 3) = .ok r ∧ r.err = none ∧
    u.ledger .left = some bobsLedger ∧ r.updated.ledger .left = some bobsSigned := by
  obtain ⟨u, hu, h⟩ := Res.bind_eq_ok.1 crank_bobReady
  obtain ⟨r, hr, h⟩ := Res.bind_eq_ok.1 h
  simp only [Except.ok.injEq, Prod.mk.injEq] at h
  exact ⟨u, r, hu, hr, h⟩

end Sample

open Sample in
theorem next_proposal_processed_two :
    bobsLedger.proposalQueue.length = 2 ∧ ∃ r,
      bobReady.crank Crypto.plain orders (key 3) = .ok r ∧
      ¬ ∀ next rest, bobsSigned.proposalQueue = next :: rest →
        next.proposal ∈ r.sideEffects.proposalsToProcess := by
  obtain ⟨u, r, hclone, hcrank, herr, hbefore, hafter⟩ := bob_cranks
  have hiff := (next_proposal_processed_iff Crypto.plain).1 _ u orders (key 3) r hclone hcrank herr
    .left _ _ hbefore hafter bob_countersigns
  exact ⟨rfl, r, hcrank, fun h => absurd (hiff.1 h) (by decide)⟩

open Sample in
/-- Bob signs the first of two proposals; the second one is left in the queue and forgotten -/
theorem next_proposal_forgotten :
    VirtualFund.constructObjectiveFromState Crypto.plain virtualState true 3
      (fun _ => some bobsLedger) = .ok bobFunds ∧
    ∃ u r, bobReady.clone Crypto.plain = .ok u ∧
      bobReady.crank Crypto.plain orders (key 3) = .ok r ∧ r.err = none ∧
      u.ledger .left = some bobsLedger ∧ r.updated.ledger .left = some bobsSigned ∧
      ConsensusChannel.Countersigned Crypto.plain (key 3) bobsLedger bobsSigned ∧
      bobsSigned.proposalQueue = [nextToBob] ∧
      nextToBob.proposal ∉ r.sideEffects.proposalsToProcess := by
  obtain ⟨u, r, hclone, hcrank, herr, hbefore, hafter⟩ := bob_cranks
  refine ⟨by decide +kernel, u, r, hclone, hcrank, herr, hbefore, hafter, bob_countersigns, rfl, ?_⟩
  rw [VirtualFund.Objective.crank_proposalsToProcess hcrank]
  exact List.not_mem_nil

end Nitro
