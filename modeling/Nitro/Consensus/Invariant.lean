import Nitro.Consensus.Serde
import Nitro.Consensus.Steps

/-!
# The representation invariant of a consensus channel

Whatever the peer sends, a channel keeps signatures of both participants on its current `Vars`, and
a queue of proposals that are numbered consecutively, apply one after the other and are each signed
by the leader.

* `QueueOk`             the queue, by recursion along the `Vars` it produces;
* `Valid`               the invariant;
* `Change.valid`        the changes keep it; `valid_clone`, `valid_json`: so do copies;
* `ledger_representation`   it holds in every reachable channel.
-/

set_option linter.unusedSectionVars false

namespace Nitro
open Go FinMap Runs

/-! ## valid queues -/

def QueueOk (cr : Crypto) (fp : FixedPart) (id : Destination) (leader : Address) :
    Vars → List SignedProposal → Prop
  | _, [] => True
  | v, sp :: queue => ∃ v', sp.proposal.ledgerID = id ∧ sp.turnNum = v'.turnNum ∧
      v.Step sp.proposal v' ∧ (v'.asState fp).recoverSigner cr sp.signature = .ok leader ∧
      QueueOk cr fp id leader v' queue

section queue
variable {cr : Crypto} {fp : FixedPart} {id : Destination} {leader : Address}

theorem QueueOk.handleQueue {v : Vars} {q : List SignedProposal} (h : QueueOk cr fp id leader v q) :
    ∃ w, v.handleQueue q = .ok w := by
  induction q generalizing v with
  | nil => exact ⟨v, rfl⟩
  | cons sp q ih =>
    obtain ⟨v', -, -, hstep, -, hq⟩ := h
    obtain ⟨w, hw⟩ := ih hq
    exact ⟨w, (Vars.handleQueue_cons hstep q).trans hw⟩

theorem queueOk_snoc {v w w' : Vars} {q : List SignedProposal} {sp : SignedProposal}
    (h : QueueOk cr fp id leader v q) (hq : v.handleQueue q = .ok w)
    (hid : sp.proposal.ledgerID = id) (hturn : sp.turnNum = w'.turnNum)
    (hstep : w.Step sp.proposal w')
    (hsig : (w'.asState fp).recoverSigner cr sp.signature = .ok leader) :
    QueueOk cr fp id leader v (q ++ [sp]) := by
  induction q generalizing v with
  | nil =>
    cases hq
    exact ⟨w', hid, hturn, hstep, hsig, trivial⟩
  | cons p q ih =>
    obtain ⟨v', hid', hturn', hstep', hsig', hrest⟩ := h
    rw [Vars.handleQueue_cons hstep'] at hq
    exact ⟨v', hid', hturn', hstep', hsig', ih hrest hq⟩

theorem QueueOk.drop {v w : Vars} {q₁ q₂ : List SignedProposal}
    (h : QueueOk cr fp id leader v (q₁ ++ q₂)) (hq : v.handleQueue q₁ = .ok w) :
    QueueOk cr fp id leader w q₂ := by
  induction q₁ generalizing v with
  | nil =>
    cases hq
    exact h
  | cons p q ih =>
    obtain ⟨v', -, -, hstep, -, hrest⟩ := h
    rw [Vars.handleQueue_cons hstep] at hq
    exact ih hrest hq

theorem QueueOk.entry {v : Vars} {q : List SignedProposal} (h : QueueOk cr fp id leader v q)
    {i : Nat} {sp : SignedProposal} (hi : q[i]? = some sp) :
    sp.proposal.ledgerID = id ∧ sp.turnNum = v.turnNum + UInt64.ofNat (i + 1) ∧
      ∃ w, v.handleQueue (q.take (i + 1)) = .ok w ∧
        (w.asState fp).recoverSigner cr sp.signature = .ok leader := by
  induction q generalizing v i with
  | nil => simp at hi
  | cons p q ih =>
    obtain ⟨v', hid, hturn, hstep, hsig, hrest⟩ := h
    cases i with
    | zero =>
      rw [List.getElem?_cons_zero, Option.some.injEq] at hi
      subst hi
      exact ⟨hid, hturn.trans hstep.turnNum, v', Vars.handleQueue_cons hstep [], hsig⟩
    | succ i =>
      rw [List.getElem?_cons_succ] at hi
      obtain ⟨hid', hturn', w, hw, hsig'⟩ := ih hrest hi
      refine ⟨hid', ?_, w, ?_, hsig'⟩
      · rw [hturn', hstep.turnNum, UInt64.add_assoc, UInt64.add_comm 1, ← UInt64.ofNat_one,
          ← UInt64.ofNat_add]
      · rw [List.take_succ_cons, Vars.handleQueue_cons hstep, hw]

end queue

/-! ## copies of proposals -/

/-- a copy may drop what a proposal does not use, but it does the same -/
theorem Vars.Step.clone {v v' : Vars} {p : Proposal} (h : v.Step p v') :
    ∃ p', p.clone = .ok p' ∧ p'.ledgerID = p.ledgerID ∧ v.Step p' v' := by
  cases h with
  | @add id r g left fresh h₁ h₂ h₃ => exact ⟨⟨id, ⟨g.wire, some left⟩, r.clone⟩, rfl, rfl,
      .add fresh h₁ h₂ h₃⟩
  | @remove id target g left found hle => exact ⟨⟨id, Add.zero, ⟨target, some left⟩⟩, rfl, rfl,
      .remove found hle⟩

theorem QueueOk.clone {cr : Crypto} {fp : FixedPart} {id : Destination} {leader : Address}
    {v : Vars} {q : List SignedProposal} (h : QueueOk cr fp id leader v q) :
    ∃ q', q.mapM SignedProposal.clone = .ok q' ∧ QueueOk cr fp id leader v q' := by
  induction q generalizing v with
  | nil => exact ⟨[], rfl, trivial⟩
  | cons sp q ih =>
    obtain ⟨v', hid, hturn, hstep, hsig, hrest⟩ := h
    obtain ⟨p', hp', hid', hstep'⟩ := hstep.clone
    obtain ⟨q', hq', hok⟩ := ih hrest
    have hsp : sp.clone = .ok ⟨sp.signature, p', sp.turnNum⟩ := by
      rw [SignedProposal.clone, hp']
      rfl
    refine ⟨⟨sp.signature, p', sp.turnNum⟩ :: q', ?_, v', hid'.trans hid, hturn, hstep', hsig, hok⟩
    rw [List.mapM_cons, hsp, hq']
    rfl

/-! ## the invariant -/

namespace ConsensusChannel

structure Valid (cr : Crypto) (leader follower : Address) (c : ConsensusChannel) : Prop where
  channelId : c.fp.channelId cr = .ok c.id
  leaderAddr : c.fp.participants[leaderIndex]? = some leader
  followerAddr : c.fp.participants[followerIndex]? = some follower
  leaderSig : (c.current.vars.asState c.fp).recoverSigner cr c.current.signatures.1 = .ok leader
  followerSig : (c.current.vars.asState c.fp).recoverSigner cr c.current.signatures.2 = .ok follower
  queue : QueueOk cr c.fp c.id leader c.current.vars c.proposalQueue

variable {cr : Crypto} {leader follower : Address} {c c' : ConsensusChannel}

theorem valid_new {fp : FixedPart} {i : Nat} {turn : UInt64} {o : LedgerOutcome}
    {sigs : Signature × Signature} (h : newConsensusChannel cr fp i turn o sigs = .ok c) :
    ∃ leader follower, Valid cr leader follower c := by
  obtain ⟨-, hfp, hid, hq, hcur, leader, follower, hl, hf, hls, hfs⟩ := newConsensusChannel_ok h
  refine ⟨leader, follower, ?_, ?_, ?_, ?_, ?_, ?_⟩
  · rw [hfp]; exact hid
  · rw [hfp]; exact hl
  · rw [hfp]; exact hf
  · rw [hfp, hcur]; exact hls
  · rw [hfp, hcur]; exact hfs
  · rw [hq]; exact trivial

theorem Change.valid (hsc : SignCorrect cr) {o : Option Proposal} (hc : Change cr c o c')
    (h : Valid cr leader follower c) : Valid cr leader follower c' := by
  cases hc with
  | @enqueue sp latest latest' a hlatest hstep hid hturn ha hsig =>
    obtain rfl : a = leader := Option.some.inj (ha.symm.trans h.leaderAddr)
    have hq := queueOk_snoc h.queue hlatest hid hturn hstep (hsig.recovers hsc)
    exact { h with queue := hq }
  | @advance done rest last w w' sig a hqueue hdone hstep ha hsig =>
    obtain rfl : a = follower := Option.some.inj (ha.symm.trans h.followerAddr)
    have hq := h.queue
    rw [hqueue] at hq
    obtain ⟨v', -, -, hstep', hlast, hrest⟩ := hq.drop hdone
    obtain rfl := hstep'.det hstep
    exact { h with leaderSig := hlast, followerSig := hsig.recovers hsc, queue := hrest }

theorem Change.frame {o : Option Proposal} (h : Change cr c o c') : c'.fp = c.fp ∧ c'.id = c.id := by
  cases h with
  | enqueue => exact ⟨rfl, rfl⟩
  | advance => exact ⟨rfl, rfl⟩

theorem valid_clone (h : Valid cr leader follower c) :
    ∃ c', c.clone = .ok c' ∧ Valid cr leader follower c' := by
  obtain ⟨q', hq', hok⟩ := h.queue.clone
  refine ⟨{ c with proposalQueue := q' }, ?_, { h with queue := hok }⟩
  unfold clone
  rw [hq', FixedPart.clone_ok h.channelId, Funds.clone_eq]
  rfl

/-! ## runs -/

/-- a call, or the replacement of the channel by a copy or by what is read back from its JSON -/
inductive Event where
  | op (o : Op)
  | clone
  | json

def Event.step (cr : Crypto) (c : ConsensusChannel) : Event → ConsensusChannel
  | .op o => o.step cr c
  | .clone => c.clone.toOption.getD c
  | .json => (ConsensusChannel.json.dec (ConsensusChannel.json.enc c)).toOption.getD c

theorem Event.valid_step (hsc : SignCorrect cr) (c : ConsensusChannel) (e : Event)
    (h : Valid cr leader follower c) : Valid cr leader follower (e.step cr c) := by
  cases e with
  | op o =>
    rcases Op.step_cases cr c o with e | hc
    · show Valid cr leader follower (o.step cr c)
      rwa [e]
    · exact hc.valid hsc h
  | clone =>
    obtain ⟨c', hc', hv⟩ := valid_clone h
    rw [Event.step, hc']
    exact hv
  | json =>
    rw [Event.step, ConsensusChannel.json.round]
    exact h

theorem Event.fp_step (cr : Crypto) (c : ConsensusChannel) (e : Event) :
    (e.step cr c).fp = c.fp := by
  cases e with
  | op o =>
    rcases Op.step_cases cr c o with e | hc
    · show (o.step cr c).fp = c.fp
      rw [e]
    · exact hc.frame.1
  | clone =>
    refine Res.getD_ind (P := fun c' : ConsensusChannel => c'.fp = c.fp) rfl fun c' hc' => ?_
    obtain ⟨q, -, h⟩ := Res.bind_eq_ok.1 hc'
    obtain ⟨fp, hfp, h⟩ := Res.bind_eq_ok.1 h
    cases h
    exact FixedPart.clone_eq hfp
  | json =>
    rw [Event.step, ConsensusChannel.json.round]
    rfl

/-- **the ledger representation invariant**, against arbitrary calls; turn numbers are `uint64`s -/
theorem ledger_representation (hsc : SignCorrect cr) {fp : FixedPart} {i : Nat} {turn : UInt64}
    {o : LedgerOutcome} {sigs : Signature × Signature} {events : List Event}
    (hnew : newConsensusChannel cr fp i turn o sigs = .ok c)
    (hrun : run (Event.step cr) c events = c') :
    ∃ leader follower, c'.fp.participants[leaderIndex]? = some leader ∧
      c'.fp.participants[followerIndex]? = some follower ∧
      (c'.current.vars.asState c'.fp).recoverSigner cr c'.current.signatures.1 = .ok leader ∧
      (c'.current.vars.asState c'.fp).recoverSigner cr c'.current.signatures.2 = .ok follower ∧
      (∃ latest, c'.latestProposedVars = .ok latest) ∧
      ∀ i sp, c'.proposalQueue[i]? = some sp → sp.proposal.ledgerID = c'.id ∧
        sp.turnNum = c'.current.vars.turnNum + UInt64.ofNat (i + 1) ∧
        ∃ v, c'.current.vars.handleQueue (c'.proposalQueue.take (i + 1)) = .ok v ∧
          (v.asState c'.fp).recoverSigner cr sp.signature = .ok leader := by
  obtain ⟨leader, follower, hv⟩ := valid_new hnew
  have hv' : Valid cr leader follower (run (Event.step cr) c events) :=
    run_inv (Event.valid_step hsc) hv
  rw [hrun] at hv'
  exact ⟨leader, follower, hv'.leaderAddr, hv'.followerAddr, hv'.leaderSig, hv'.followerSig,
    hv'.queue.handleQueue, fun i sp hi => hv'.queue.entry hi⟩

/-- a leader that proposes, copies its channel and stores it still has its proposal, with its
signature -/
theorem ledger_representation_sample :
    ∃ c' leader, run (Event.step Crypto.plain) (Sample.ledger leaderIndex)
        [.op (.propose (Sample.addOf 5) (Sample.key 1)), .clone, .json] = c' ∧
      c'.proposalQueue.length = 1 ∧ c'.fp.participants[leaderIndex]? = some leader ∧
      ∀ i sp, c'.proposalQueue[i]? = some sp →
        ∃ v, c'.current.vars.handleQueue (c'.proposalQueue.take (i + 1)) = .ok v ∧
          (v.asState c'.fp).recoverSigner Crypto.plain sp.signature = .ok leader := by
  obtain ⟨leader, -, hl, -, -, -, -, hq⟩ :=
    ledger_representation signCorrect_plain Sample.new_leader
      (show run (Event.step Crypto.plain) (Sample.ledger leaderIndex)
        [.op (.propose (Sample.addOf 5) (Sample.key 1)), .clone, .json] = _ from rfl)
  exact ⟨_, leader, rfl, by decide +kernel, hl, fun i sp hi => (hq i sp hi).2.2⟩

end ConsensusChannel

end Nitro
