import Nitro.Lib.Runs
import Nitro.Consensus.Channel

/-!
# What the operations of a consensus channel do

Each operation makes one described change or leaves the channel as it was.  There are two changes:
a proposal signed by the leader joins the queue, or the consensus moves along the queue to a
proposal that the follower signed.

* `signedProposal_ok`, `followerChecks_ok`, `leaderLoop_ok`, `nextConsensus_ok`   inversion of the
  four computations;
* `Change`                    the two changes;
* `Op`, `Op.call`, `Op.step`  a call of `Propose`, `Receive` or `SignNextProposal`, and the channel
  after it;
* `Op.call_cases`             **a call makes a change or none**;
* `QueueAll P`                `P` holds of all the `Vars` that a channel stands for.
-/

set_option linter.unusedSectionVars false

namespace Nitro
open Go FinMap

/-! ## queues -/

namespace Vars

theorem handleQueue_append (v : Vars) (q₁ q₂ : List SignedProposal) :
    v.handleQueue (q₁ ++ q₂) = v.handleQueue q₁ >>= fun w => w.handleQueue q₂ := by
  induction q₁ generalizing v with
  | nil => rfl
  | cons p q₁ ih =>
    show (v.handled p.proposal >>= fun w => w.handleQueue (q₁ ++ q₂)) = _
    cases hv : v.handled p.proposal with
    | ok w =>
      show w.handleQueue (q₁ ++ q₂) = (v.handled p.proposal >>= _) >>= _
      rw [ih w, hv]
      rfl
    | error e =>
      show _ = (v.handled p.proposal >>= _) >>= _
      rw [hv]
      rfl

theorem handleQueue_cons {v v' : Vars} {p : SignedProposal} (h : v.Step p.proposal v')
    (q : List SignedProposal) : v.handleQueue (p :: q) = v'.handleQueue q := by
  show (v.handled p.proposal >>= fun w => w.handleQueue q) = _
  rw [handled_eq_ok.2 h]
  rfl

theorem handleQueue_snoc {v w w' : Vars} {q : List SignedProposal} {p : SignedProposal}
    (hq : v.handleQueue q = .ok w) (h : w.Step p.proposal w') :
    v.handleQueue (q ++ [p]) = .ok w' := by
  rw [handleQueue_append, hq]
  exact handleQueue_cons h []

theorem handleQueue_cons_ok {v w : Vars} {p : SignedProposal} {q : List SignedProposal}
    (h : v.handleQueue (p :: q) = .ok w) :
    ∃ v', v.Step p.proposal v' ∧ v'.handleQueue q = .ok w := by
  obtain ⟨v', hv, hq⟩ := Res.bind_eq_ok.1 h
  exact ⟨v', handled_eq_ok.1 hv, hq⟩

end Vars

/-! ## the four computations -/

/-- `sig` was made with the key of `a`, or was checked to recover to `a` -/
def Authentic (cr : Crypto) (s : State) (sig : Signature) (a : Address) : Prop :=
  s.recoverSigner cr sig = .ok a ∨
    ∃ sk, cr.secretKeyToAddress sk = some a ∧ s.sign cr sk = .ok sig

theorem Authentic.recovers {cr : Crypto} (hc : SignCorrect cr) {s : State} {sig : Signature}
    {a : Address} (h : Authentic cr s sig a) : s.recoverSigner cr sig = .ok a := by
  rcases h with h | ⟨sk, ha, hs⟩
  · exact h
  · exact State.recover_sign hc hs ha

namespace ConsensusChannel
variable {cr : Crypto} {c : ConsensusChannel}

theorem sign_ok {vars : Vars} {sk : Bytes} {sig : Signature} (h : c.sign cr vars sk = .ok sig) :
    ∃ a, c.fp.participants[c.myIndex]? = some a ∧ cr.secretKeyToAddress sk = some a ∧
      (vars.asState c.fp).sign cr sk = .ok sig := by
  obtain ⟨signer, hsigner, h⟩ := Res.bind_eq_ok.1 h
  obtain ⟨me, hme, h⟩ := Res.bind_eq_ok.1 h
  obtain ⟨heq, hsig⟩ := failIf_bind_eq_ok.1 h
  rw [not_ne_iff] at heq
  subst heq
  refine ⟨me, FixedPart.participant_eq_ok.1 hme, ?_, hsig⟩
  unfold getAddressFromSecretKeyBytes at hsigner
  split at hsigner
  · next ha => cases hsigner; exact ha
  · cases hsigner

theorem signedProposal_ok {p : Proposal} {sk : Bytes} {sp : SignedProposal}
    (h : c.signedProposal cr p sk = .ok sp) :
    ∃ latest latest' a, c.myIndex = leaderIndex ∧ p.ledgerID = c.id ∧
      c.latestProposedVars = .ok latest ∧ latest.Step p latest' ∧
      c.fp.participants[leaderIndex]? = some a ∧ cr.secretKeyToAddress sk = some a ∧
      (latest'.asState c.fp).sign cr sk = .ok sp.signature ∧
      sp.proposal = p ∧ sp.turnNum = latest'.turnNum := by
  obtain ⟨hrole, h⟩ := failIf_bind_eq_ok.1 h
  obtain ⟨hid, h⟩ := failIf_bind_eq_ok.1 h
  obtain ⟨latest, hl, h⟩ := Res.bind_eq_ok.1 h
  obtain ⟨latest', hl', h⟩ := Res.bind_eq_ok.1 h
  obtain ⟨sig, hsig, h⟩ := Res.bind_eq_ok.1 h
  rw [Res.wrap_eq_ok] at hl hl'
  rw [not_ne_iff] at hrole hid
  obtain ⟨a, ha, hk, hs⟩ := sign_ok (Res.onErr_eq_ok.1 hsig)
  rw [hrole] at ha
  cases h
  exact ⟨latest, latest', a, hrole, hid, hl, Vars.handled_eq_ok.1 hl', ha, hk, hs, rfl, rfl⟩

theorem followerChecks_ok {sp : SignedProposal} (h : c.followerChecks cr sp = .ok ()) :
    ∃ latest latest' a, c.myIndex = followerIndex ∧ sp.proposal.ledgerID = c.id ∧
      c.latestProposedVars = .ok latest ∧ latest.Step sp.proposal latest' ∧
      c.fp.participants[leaderIndex]? = some a ∧
      (latest'.asState c.fp).recoverSigner cr sp.signature = .ok a ∧
      sp.turnNum = latest'.turnNum := by
  obtain ⟨hrole, h⟩ := failIf_bind_eq_ok.1 h
  obtain ⟨hid, h⟩ := failIf_bind_eq_ok.1 h
  obtain ⟨latest, hl, h⟩ := Res.bind_eq_ok.1 h
  obtain ⟨hturn, h⟩ := failIf_bind_eq_ok.1 h
  obtain ⟨latest', hl', h⟩ := Res.bind_eq_ok.1 h
  obtain ⟨signer, hsigner, h⟩ := Res.bind_eq_ok.1 h
  obtain ⟨leader, hleader, h⟩ := Res.bind_eq_ok.1 h
  have heq := failIf_eq_ok.1 h
  rw [Res.wrap_eq_ok] at hl hl' hsigner
  rw [not_ne_iff] at hrole hid hturn heq
  subst heq
  have hstep := Vars.handled_eq_ok.1 hl'
  exact ⟨latest, latest', signer, hrole, hid, hl, hstep, FixedPart.participant_eq_ok.1 hleader,
    hsigner, hturn.trans hstep.turnNum.symm⟩

theorem leaderLoop_ok {fp : FixedPart} {sp : SignedProposal} {v : Vars}
    {queue rest : List SignedProposal} {sv : SignedVars}
    (h : leaderLoop cr fp sp v queue = .ok (sv, rest)) :
    ∃ done last w w' a, queue = done ++ last :: rest ∧ v.handleQueue done = .ok w ∧
      w.Step last.proposal w' ∧ w'.turnNum = sp.turnNum ∧
      fp.participants[followerIndex]? = some a ∧
      (w'.asState fp).recoverSigner cr sp.signature = .ok a ∧
      sv = ⟨w', (last.signature, sp.signature)⟩ := by
  induction queue generalizing v with
  | nil => cases h
  | cons p queue ih =>
    obtain ⟨v', hv, h⟩ := Res.bind_eq_ok.1 h
    have hstep := Vars.handled_eq_ok.1 hv
    by_cases ht : v'.turnNum = sp.turnNum
    · simp only [if_pos ht] at h
      obtain ⟨signer, hsigner, h⟩ := Res.bind_eq_ok.1 h
      obtain ⟨follower, hf, h⟩ := Res.bind_eq_ok.1 h
      obtain ⟨heq, hend⟩ := failIf_bind_eq_ok.1 h
      rw [not_ne_iff] at heq
      subst heq
      cases hend
      exact ⟨[], p, v, v', signer, rfl, rfl, hstep, ht, FixedPart.participant_eq_ok.1 hf,
        Res.wrap_eq_ok.1 hsigner, rfl⟩
    · simp only [if_neg ht] at h
      obtain ⟨done, last, w, w', a, hq, hd, hrest⟩ := ih h
      refine ⟨p :: done, last, w, w', a, ?_, ?_, hrest⟩
      · rw [hq]; rfl
      · rw [Vars.handleQueue_cons hstep, hd]

theorem nextConsensus_ok {p : Proposal} {sk : Bytes} {sv : SignedVars} {rest : List SignedProposal}
    {signed : SignedProposal} (h : c.nextConsensus cr p sk = .ok (sv, rest, signed)) :
    ∃ head v' a, c.myIndex = followerIndex ∧ c.proposalQueue = head :: rest ∧
      head.proposal.equal p = true ∧
      c.current.vars.Step head.proposal v' ∧ c.fp.participants[followerIndex]? = some a ∧
      cr.secretKeyToAddress sk = some a ∧ (v'.asState c.fp).sign cr sk = .ok signed.signature ∧
      sv = ⟨v', (head.signature, signed.signature)⟩ ∧ signed.proposal = head.proposal ∧
      signed.turnNum = v'.turnNum := by
  obtain ⟨hrole, h⟩ := failIf_bind_eq_ok.1 h
  obtain ⟨hid, h⟩ := failIf_bind_eq_ok.1 h
  rw [not_ne_iff] at hrole
  cases hq : c.proposalQueue with
  | nil => simp only [hq] at h; cases h
  | cons head queue =>
    simp only [hq] at h
    obtain ⟨hmatch, h⟩ := failIf_bind_eq_ok.1 h
    obtain ⟨v', hv, h⟩ := Res.bind_eq_ok.1 h
    obtain ⟨sig, hsig, h⟩ := Res.bind_eq_ok.1 h
    obtain ⟨a, ha, hk, hs⟩ := sign_ok (Res.onErr_eq_ok.1 hsig)
    rw [hrole] at ha
    cases h
    exact ⟨head, v', a, hrole, rfl, by simpa using hmatch, Vars.handled_eq_ok.1 hv, ha, hk, hs,
      rfl, rfl, rfl⟩

/-! ## a new channel -/

theorem newConsensusChannel_ok {cr : Crypto} {fp : FixedPart} {i : Nat} {turn : UInt64}
    {o : LedgerOutcome} {sigs : Signature × Signature} {c : ConsensusChannel}
    (h : newConsensusChannel cr fp i turn o sigs = .ok c) :
    c.myIndex = i ∧ c.fp = fp ∧ fp.channelId cr = .ok c.id ∧ c.proposalQueue = [] ∧
      c.current = ⟨⟨turn, o⟩, sigs⟩ ∧ ∃ leader follower,
        fp.participants[leaderIndex]? = some leader ∧
        fp.participants[followerIndex]? = some follower ∧
        ((⟨turn, o⟩ : Vars).asState fp).recoverSigner cr sigs.1 = .ok leader ∧
        ((⟨turn, o⟩ : Vars).asState fp).recoverSigner cr sigs.2 = .ok follower := by
  obtain ⟨-, -, h⟩ := Res.bind_eq_ok.1 h
  obtain ⟨id, hid, h⟩ := Res.bind_eq_ok.1 h
  obtain ⟨la, hla, h⟩ := Res.bind_eq_ok.1 h
  obtain ⟨leader, hleader, h⟩ := Res.bind_eq_ok.1 h
  obtain ⟨hl, h⟩ := failIf_bind_eq_ok.1 h
  obtain ⟨fa, hfa, h⟩ := Res.bind_eq_ok.1 h
  obtain ⟨follower, hfollower, h⟩ := Res.bind_eq_ok.1 h
  obtain ⟨hf, hend⟩ := failIf_bind_eq_ok.1 h
  rw [not_ne_iff] at hl hf
  rw [Res.wrap_eq_ok] at hla hfa
  rw [FixedPart.participant_eq_ok] at hleader hfollower
  cases hend
  exact ⟨rfl, rfl, hid, rfl, rfl, leader, follower, hleader, hfollower, hl ▸ hla, hf ▸ hfa⟩

/-! ## the two changes -/

/-- a change, with the proposal that joined the queue -/
inductive Change (cr : Crypto) (c : ConsensusChannel) : Option Proposal → ConsensusChannel → Prop
  | enqueue {sp : SignedProposal} {latest latest' : Vars} {leader : Address}
      (hlatest : c.latestProposedVars = .ok latest) (hstep : latest.Step sp.proposal latest')
      (hid : sp.proposal.ledgerID = c.id) (hturn : sp.turnNum = latest'.turnNum)
      (hleader : c.fp.participants[leaderIndex]? = some leader)
      (hsig : Authentic cr (latest'.asState c.fp) sp.signature leader) :
      Change cr c (some sp.proposal) { c with proposalQueue := c.proposalQueue ++ [sp] }
  | advance {done rest : List SignedProposal} {last : SignedProposal} {v v' : Vars}
      {sig : Signature} {follower : Address}
      (hqueue : c.proposalQueue = done ++ last :: rest)
      (hdone : c.current.vars.handleQueue done = .ok v) (hstep : v.Step last.proposal v')
      (hfollower : c.fp.participants[followerIndex]? = some follower)
      (hsig : Authentic cr (v'.asState c.fp) sig follower) :
      Change cr c none { c with current := ⟨v', (last.signature, sig)⟩, proposalQueue := rest }

theorem propose_cases (cr : Crypto) (p : Proposal) (sk : Bytes) (c : ConsensusChannel) :
    (∃ sp, c.signedProposal cr p sk = .ok sp ∧
      propose cr p sk c = .ok sp { c with proposalQueue := c.proposalQueue ++ [sp] }) ∨
    ∃ e, c.signedProposal cr p sk = .error e ∧ propose cr p sk c = .error e c := by
  cases h : c.signedProposal cr p sk with
  | ok sp => exact .inl ⟨sp, rfl, Meth.read_ok (f := fun c : ConsensusChannel => c.signedProposal cr p sk) h⟩
  | error e =>
    exact .inr ⟨e, rfl, Meth.read_error (f := fun c : ConsensusChannel => c.signedProposal cr p sk) h⟩

theorem followerReceive_cases (cr : Crypto) (sp : SignedProposal) (c : ConsensusChannel) :
    (c.followerChecks cr sp = .ok () ∧
      followerReceive cr sp c = .ok () { c with proposalQueue := c.proposalQueue ++ [sp] }) ∨
    ∃ e, followerReceive cr sp c = .error e c := by
  cases h : c.followerChecks cr sp with
  | ok u => exact .inl ⟨rfl, Meth.read_ok (f := fun c : ConsensusChannel => c.followerChecks cr sp) h⟩
  | error e => exact .inr ⟨e, Meth.read_error (f := fun c : ConsensusChannel => c.followerChecks cr sp) h⟩

theorem leaderUpdate_some {sp : SignedProposal} {sv : SignedVars} {rest : List SignedProposal}
    (h : c.leaderUpdate cr sp = .ok (some (sv, rest))) :
    c.current.vars.turnNum < sp.turnNum ∧
      leaderLoop cr c.fp sp c.current.vars c.proposalQueue = .ok (sv, rest) := by
  obtain ⟨-, h⟩ := failIf_bind_eq_ok.1 h
  obtain ⟨-, h⟩ := failIf_bind_eq_ok.1 h
  by_cases hs : sp.turnNum ≤ c.current.vars.turnNum
  · simp only [if_pos hs] at h
    cases h
  · simp only [if_neg hs] at h
    obtain ⟨u, hu, h⟩ := Res.bind_eq_ok.1 h
    cases h
    exact ⟨UInt64.not_le.1 hs, hu⟩

section leaderReceive
variable {sp : SignedProposal}

theorem leaderReceive_ignored (h : c.leaderUpdate cr sp = .ok none) :
    leaderReceive cr sp c = .ok () c :=
  Meth.read_ok (f := fun c : ConsensusChannel => c.leaderUpdate cr sp) h

theorem leaderReceive_moved {sv : SignedVars} {rest : List SignedProposal}
    (h : c.leaderUpdate cr sp = .ok (some (sv, rest))) :
    leaderReceive cr sp c = .ok () { c with current := sv, proposalQueue := rest } :=
  Meth.read_ok (f := fun c : ConsensusChannel => c.leaderUpdate cr sp) h

theorem leaderReceive_refused {e : Fault} (h : c.leaderUpdate cr sp = .error e) :
    leaderReceive cr sp c = .error e c :=
  Meth.read_error (f := fun c : ConsensusChannel => c.leaderUpdate cr sp) h

end leaderReceive

theorem leaderReceive_cases (cr : Crypto) (sp : SignedProposal) (c : ConsensusChannel) :
    (∃ sv rest, c.current.vars.turnNum < sp.turnNum ∧
      leaderLoop cr c.fp sp c.current.vars c.proposalQueue = .ok (sv, rest) ∧
      leaderReceive cr sp c = .ok () { c with current := sv, proposalQueue := rest }) ∨
    leaderReceive cr sp c = .ok () c ∨ ∃ e, leaderReceive cr sp c = .error e c := by
  rcases h : c.leaderUpdate cr sp with e | _ | ⟨sv, rest⟩
  · exact .inr (.inr ⟨e, leaderReceive_refused h⟩)
  · exact .inr (.inl (leaderReceive_ignored h))
  · obtain ⟨hfresh, hloop⟩ := leaderUpdate_some h
    exact .inl ⟨sv, rest, hfresh, hloop, leaderReceive_moved h⟩

theorem signNextProposal_cases (cr : Crypto) (p : Proposal) (sk : Bytes) (c : ConsensusChannel) :
    (∃ sv rest signed, c.nextConsensus cr p sk = .ok (sv, rest, signed) ∧
      signNextProposal cr p sk c = .ok signed { c with current := sv, proposalQueue := rest }) ∨
    ∃ e, c.nextConsensus cr p sk = .error e ∧ signNextProposal cr p sk c = .error e c := by
  cases h : c.nextConsensus cr p sk with
  | ok u =>
    exact .inl ⟨u.1, u.2.1, u.2.2, rfl,
      Meth.read_ok (f := fun c : ConsensusChannel => c.nextConsensus cr p sk) h⟩
  | error e =>
    exact .inr ⟨e, rfl, Meth.read_error (f := fun c : ConsensusChannel => c.nextConsensus cr p sk) h⟩

theorem propose_ok {p : Proposal} {sk : Bytes} {sp : SignedProposal} {c' : ConsensusChannel}
    (h : propose cr p sk c = .ok sp c') : sp.proposal = p := by
  rcases propose_cases cr p sk c with ⟨sp', hsp, hrun⟩ | ⟨e, -, hrun⟩
  · rw [hrun] at h
    cases h
    obtain ⟨_, _, _, -, -, -, -, -, -, -, hp, -⟩ := signedProposal_ok hsp
    exact hp
  · rw [hrun] at h
    cases h

theorem signNextProposal_ok {p : Proposal} {sk : Bytes} {sp : SignedProposal}
    {c' : ConsensusChannel} (h : signNextProposal cr p sk c = .ok sp c') : sp.proposal = p := by
  rcases signNextProposal_cases cr p sk c with ⟨sv, rest, sp', hn, hrun⟩ | ⟨e, -, hrun⟩
  · rw [hrun] at h
    cases h
    obtain ⟨head, _, _, -, -, hequal, -, -, -, -, -, hp, -⟩ := nextConsensus_ok hn
    exact hp.trans (Proposal.equal_eq hequal)
  · rw [hrun] at h
    cases h

/-! ## calls -/

inductive Op where
  | propose (proposal : Proposal) (sk : Bytes)
  | receive (sp : SignedProposal)
  | signNextProposal (expectedProposal : Proposal) (sk : Bytes)

/-- the call, without the value it returns -/
def Op.call (cr : Crypto) : Op → Meth ConsensusChannel Unit
  | .propose p sk => do let _ ← ConsensusChannel.propose cr p sk; pure ()
  | .receive sp => ConsensusChannel.receive cr sp
  | .signNextProposal p sk => do let _ ← ConsensusChannel.signNextProposal cr p sk; pure ()

/-- the channel after the call, whatever the call returned -/
def Op.step (cr : Crypto) (c : ConsensusChannel) (op : Op) : ConsensusChannel :=
  (op.call cr).after c

/-- the proposal that a call offers to the queue -/
def Op.offered (c : ConsensusChannel) : Op → Option Proposal
  | .propose p _ => some p
  | .receive sp => if c.isFollower then some sp.proposal else none
  | .signNextProposal _ _ => none

theorem receive_follower {sp : SignedProposal} (h : c.myIndex = followerIndex) :
    receive cr sp c = followerReceive cr sp c := by
  unfold receive
  rw [Meth.bind_ok (Meth.get_run c)]
  simp [isFollower, h]

theorem receive_leader {sp : SignedProposal} (h : c.myIndex = leaderIndex) :
    receive cr sp c = leaderReceive cr sp c := by
  unfold receive
  rw [Meth.bind_ok (Meth.get_run c)]
  simp [isFollower, isLeader, h, leaderIndex, followerIndex]

theorem receive_malformed {sp : SignedProposal} (hf : c.myIndex ≠ followerIndex)
    (hl : c.myIndex ≠ leaderIndex) :
    receive cr sp c = .error (.err (.new "ConsensusChannel is malformed")) c := by
  unfold receive
  rw [Meth.bind_ok (Meth.get_run c)]
  simp only [isFollower, isLeader, decide_eq_false hf, decide_eq_false hl]
  rfl

theorem Op.call_receive (sp : SignedProposal) (c : ConsensusChannel) :
    (∃ c', Op.call cr (.receive sp) c = .ok () c' ∧
      (c' = c ∨ Change cr c (Op.offered c (.receive sp)) c')) ∨
    ∃ e, Op.call cr (.receive sp) c = .error e c := by
  by_cases hf : c.myIndex = followerIndex
  · have ho : Op.offered c (.receive sp) = some sp.proposal := by simp [Op.offered, isFollower, hf]
    rw [Op.call, receive_follower hf, ho]
    rcases followerReceive_cases cr sp c with ⟨hsp, hrun⟩ | ⟨e, hrun⟩
    · obtain ⟨latest, latest', a, -, hid, hl, hstep, ha, hs, ht⟩ := followerChecks_ok hsp
      exact .inl ⟨_, hrun, .inr (.enqueue hl hstep hid ht ha (.inl hs))⟩
    · exact .inr ⟨e, hrun⟩
  · by_cases hl : c.myIndex = leaderIndex
    · have ho : Op.offered c (.receive sp) = none := by simp [Op.offered, isFollower, hf]
      rw [Op.call, receive_leader hl, ho]
      rcases leaderReceive_cases cr sp c with ⟨sv, rest, -, hloop, hrun⟩ | hrun | ⟨e, hrun⟩
      · obtain ⟨done, last, w, w', a, hq, hd, hstep, -, ha, hs, rfl⟩ := leaderLoop_ok hloop
        exact .inl ⟨_, hrun, .inr (.advance hq hd hstep ha (.inl hs))⟩
      · exact .inl ⟨c, hrun, .inl rfl⟩
      · exact .inr ⟨e, hrun⟩
    · exact .inr ⟨_, receive_malformed hf hl⟩

/-- **a call that returns makes one change or none; a call that fails makes none** -/
theorem Op.call_cases (cr : Crypto) (c : ConsensusChannel) (op : Op) :
    (∃ c', op.call cr c = .ok () c' ∧ (c' = c ∨ Change cr c (op.offered c) c')) ∨
    ∃ e, op.call cr c = .error e c := by
  cases op with
  | propose p sk =>
    rcases propose_cases cr p sk c with ⟨sp, hsp, hrun⟩ | ⟨e, -, hrun⟩
    · obtain ⟨latest, latest', a, -, hid, hl, hstep, ha, hk, hs, rfl, ht⟩ := signedProposal_ok hsp
      exact .inl ⟨_, Meth.bind_ok hrun, .inr (.enqueue hl hstep hid ht ha (.inr ⟨sk, hk, hs⟩))⟩
    · exact .inr ⟨e, Meth.bind_error hrun⟩
  | receive sp => exact Op.call_receive sp c
  | signNextProposal p sk =>
    rcases signNextProposal_cases cr p sk c with ⟨sv, rest, signed, hn, hrun⟩ | ⟨e, -, hrun⟩
    · obtain ⟨head, v', a, -, hq, -, hstep, ha, hk, hs, rfl, -⟩ := nextConsensus_ok hn
      have hdone : c.current.vars.handleQueue [] = .ok c.current.vars := rfl
      exact .inl ⟨_, Meth.bind_ok hrun, .inr (.advance hq hdone hstep ha (.inr ⟨sk, hk, hs⟩))⟩
    · exact .inr ⟨e, Meth.bind_error hrun⟩

theorem Op.step_propose {p : Proposal} {sk : Bytes} {sp : SignedProposal} {c' : ConsensusChannel}
    (h : ConsensusChannel.propose cr p sk c = .ok sp c') : (Op.propose p sk).step cr c = c' :=
  Meth.after_ok (Meth.bind_ok h)

theorem Op.step_signNextProposal {p : Proposal} {sk : Bytes} {sp : SignedProposal}
    {c' : ConsensusChannel} (h : ConsensusChannel.signNextProposal cr p sk c = .ok sp c') :
    (Op.signNextProposal p sk).step cr c = c' :=
  Meth.after_ok (Meth.bind_ok h)

theorem Op.step_cases (cr : Crypto) (c : ConsensusChannel) (op : Op) :
    op.step cr c = c ∨ Change cr c (op.offered c) (op.step cr c) := by
  unfold Op.step
  rcases Op.call_cases cr c op with ⟨c', hrun, hc⟩ | ⟨e, hrun⟩
  · rw [Meth.after_ok hrun]
    exact hc
  · exact .inl (Meth.after_error hrun)

/-! ## properties of all the `Vars` of a channel -/

/-- `P` holds of the current `Vars` and after each queued proposal -/
def QueueAll (P : Vars → Prop) (c : ConsensusChannel) : Prop :=
  ∀ q v, q <+: c.proposalQueue → c.current.vars.handleQueue q = .ok v → P v

theorem QueueAll.current {P : Vars → Prop} (h : QueueAll P c) : P c.current.vars :=
  h [] _ List.nil_prefix rfl

theorem QueueAll.latest {P : Vars → Prop} (h : QueueAll P c) {v : Vars}
    (hv : c.latestProposedVars = .ok v) : P v :=
  h _ v List.prefix_rfl hv

theorem Change.queueAll {P : Vars → Prop} {o : Option Proposal} {c' : ConsensusChannel}
    (hc : Change cr c o c') (h : QueueAll P c)
    (hnew : ∀ p latest latest', o = some p → c.latestProposedVars = .ok latest → P latest →
      latest.Step p latest' → P latest') : QueueAll P c' := by
  cases hc with
  | @enqueue sp latest latest' leader hlatest hstep hid hturn hleader hsig =>
    intro q v hq hv
    rcases List.prefix_concat_iff.1 hq with rfl | hq
    · have hl : c.current.vars.handleQueue (c.proposalQueue ++ [sp]) = .ok latest' :=
        Vars.handleQueue_snoc hlatest hstep
      obtain rfl : v = latest' := Except.ok.inj (hv.symm.trans hl)
      exact hnew _ latest _ rfl hlatest (h.latest hlatest) hstep
    · exact h q v hq hv
  | @advance done rest last w w' sig follower hqueue hdone hstep hfollower hsig =>
    intro q v hq hv
    refine h (done ++ last :: q) v ?_ ?_
    · rw [hqueue]
      exact (List.prefix_append_right_inj done).2 (List.cons_prefix_cons.2 ⟨rfl, hq⟩)
    · rw [Vars.handleQueue_append, hdone]
      exact (Vars.handleQueue_cons hstep q).trans hv

/-- moving the consensus along the queue does not change where the queue leads -/
theorem latestProposedVars_advance {done rest : List SignedProposal} {last : SignedProposal}
    {v v' : Vars} (hqueue : c.proposalQueue = done ++ last :: rest)
    (hdone : c.current.vars.handleQueue done = .ok v) (hstep : v.Step last.proposal v') :
    v'.handleQueue rest = c.latestProposedVars := by
  show _ = c.current.vars.handleQueue c.proposalQueue
  rw [hqueue, Vars.handleQueue_append, hdone]
  exact (Vars.handleQueue_cons hstep rest).symm

theorem Change.latestProposedVars {o : Option Proposal} {c' : ConsensusChannel}
    (hc : Change cr c o c') (h : ∃ v, c.latestProposedVars = .ok v) :
    ∃ v, c'.latestProposedVars = .ok v := by
  cases hc with
  | enqueue hlatest hstep => exact ⟨_, Vars.handleQueue_snoc hlatest hstep⟩
  | @advance done rest last w w' sig follower hqueue hdone hstep =>
    obtain ⟨v, hv⟩ := h
    exact ⟨v, (latestProposedVars_advance hqueue hdone hstep).trans hv⟩

end ConsensusChannel

end Nitro
