import Nitro.Consensus.Agreement
import Nitro.Consensus.Invariant
import Nitro.Protocols.Messages

/-!
# One message catches the follower up

The leader sends its whole queue each time, so that a message makes up for the ones before it that
were lost.  The follower takes the proposals out of the message in order, gives each one to
`Receive` and ignores those whose turn number is not the next one.

* `receiveAll`           what the follower does with the proposals of a message;
* `Follows`, `Entry`     a follower's channel, and a proposal of the leader, along a log of `Vars`;
* `receiveAll_entries`   a stretch of the log that starts no later than the follower's queue ends
                         takes the queue to the end of the stretch, or leaves it where it was;
* `message_catches_up`   the same for a message, in every reachable state.
-/

set_option linter.unusedSectionVars false

namespace Nitro
open Go FinMap Runs ReplicatedLog ConsensusChannel

/-! ## receiving a list of proposals -/

namespace ConsensusChannel

/-- `Receive`, with stale and future proposals ignored -/
def receiveCurrent (cr : Crypto) (sp : SignedProposal) : Meth ConsensusChannel Unit := fun c =>
  match receive cr sp c with
  | .ok _ c => .ok () c
  | .error (.err e) c => if e.is errInvalidTurnNum then .ok () c else .error (.err e) c
  | .error (.panic r) c => .error (.panic r) c

def receiveAll (cr : Crypto) : List SignedProposal → Meth ConsensusChannel Unit
  | [] => pure ()
  | sp :: sps => do
    receiveCurrent cr sp
    receiveAll cr sps

variable {cr : Crypto} {c : ConsensusChannel} {sp : SignedProposal} {v v' : Vars} {a : Address}

theorem followerChecks_next (hrole : c.myIndex = followerIndex)
    (hid : sp.proposal.ledgerID = c.id) (hlatest : c.latestProposedVars = .ok v)
    (hstep : v.Step sp.proposal v') (hturn : sp.turnNum = v'.turnNum)
    (ha : c.fp.participants[leaderIndex]? = some a)
    (hsig : (v'.asState c.fp).recoverSigner cr sp.signature = .ok a) :
    c.followerChecks cr sp = .ok () := by
  have hnext : sp.turnNum = v.turnNum + 1 := hturn.trans hstep.turnNum
  have hleader : c.fp.participant leaderIndex = .ok a := FixedPart.participant_eq_ok.2 ha
  unfold followerChecks validateProposalID recoverSigner
  simp [failIf, hrole, hid, hlatest, hnext, Vars.handled_eq_ok.2 hstep, hsig, hleader, Res.wrap,
    Res.onErr]

theorem followerChecks_other (hrole : c.myIndex = followerIndex)
    (hid : sp.proposal.ledgerID = c.id) (hlatest : c.latestProposedVars = .ok v)
    (hturn : sp.turnNum ≠ v.turnNum + 1) :
    c.followerChecks cr sp = .error (.err errInvalidTurnNum) := by
  unfold followerChecks validateProposalID
  simp [failIf, hrole, hid, hlatest, hturn, Res.wrap, Res.onErr]

theorem receiveCurrent_ok (hrole : c.myIndex = followerIndex)
    (h : c.followerChecks cr sp = .ok ()) :
    receiveCurrent cr sp c = .ok () { c with proposalQueue := c.proposalQueue ++ [sp] } := by
  have hrun : receive cr sp c = .ok () { c with proposalQueue := c.proposalQueue ++ [sp] } := by
    rw [receive_follower hrole]
    exact Meth.read_ok (f := fun c : ConsensusChannel => c.followerChecks cr sp) h
  rw [receiveCurrent, hrun]

theorem receiveCurrent_ignored (hrole : c.myIndex = followerIndex)
    (h : c.followerChecks cr sp = .error (.err errInvalidTurnNum)) :
    receiveCurrent cr sp c = .ok () c := by
  have hrun : receive cr sp c = .error (.err errInvalidTurnNum) c := by
    rw [receive_follower hrole]
    exact Meth.read_error (f := fun c : ConsensusChannel => c.followerChecks cr sp) h
  rw [receiveCurrent, hrun]
  rfl

end ConsensusChannel

/-! ## along a log -/

section log
variable (cr : Crypto) (fp : FixedPart) (id : Destination) (leader : Address) (log : List Vars)

structure Entry (k : Nat) (sp : SignedProposal) : Prop where
  step : LogStep log k sp
  ledgerID : sp.proposal.ledgerID = id
  signed : ∀ v, log[k + 1]? = some v → (v.asState fp).recoverSigner cr sp.signature = .ok leader

structure Follows (i : Nat) (c : ConsensusChannel) : Prop where
  role : c.myIndex = followerIndex
  fixedPart : c.fp = fp
  ledgerID : c.id = id
  position : log[i]? = some c.current.vars
  queue : Tracks log i c.proposalQueue

end log

section receive
variable {cr : Crypto} {fp : FixedPart} {id : Destination} {leader : Address} {log : List Vars}
variable {start i j : Nat} {c : ConsensusChannel} {sp : SignedProposal}
variable (hturns : ∀ k v, log[k]? = some v → v.turnNum.toNat = start + k)
variable (hleader : fp.participants[leaderIndex]? = some leader)

include hleader in
theorem receive_next (hc : Follows fp id log i c)
    (he : Entry cr fp id leader log (i + c.proposalQueue.length) sp) :
    receiveCurrent cr sp c = .ok () { c with proposalQueue := c.proposalQueue ++ [sp] } ∧
      Follows fp id log i { c with proposalQueue := c.proposalQueue ++ [sp] } := by
  obtain ⟨w, hw, hpos⟩ := hc.queue.handleQueue hc.position
  obtain ⟨v, v', hv, hv', hstep, hturn⟩ := he.step
  obtain rfl : v = w := Option.some.inj (hv.symm.trans hpos)
  have hl : c.fp.participants[leaderIndex]? = some leader := by
    rw [hc.fixedPart]
    exact hleader
  refine ⟨receiveCurrent_ok hc.role ?_, { hc with queue := hc.queue.snoc he.step }⟩
  refine followerChecks_next hc.role (he.ledgerID.trans hc.ledgerID.symm) hw hstep hturn hl ?_
  rw [hc.fixedPart]
  exact he.signed v' hv'

include hturns in
theorem receive_other (hc : Follows fp id log i c) (he : Entry cr fp id leader log j sp)
    (hne : j ≠ i + c.proposalQueue.length) : receiveCurrent cr sp c = .ok () c := by
  obtain ⟨w, hw, hpos⟩ := hc.queue.handleQueue hc.position
  obtain ⟨v, v', hv, hv', hstep, hturn⟩ := he.step
  refine receiveCurrent_ignored hc.role
    (followerChecks_other hc.role (he.ledgerID.trans hc.ledgerID.symm) hw fun e => ?_)
  -- the next turn number may wrap to zero, which no proposal of the log carries
  have h₁ := hturns _ w hpos
  have h₂ := hturns _ v' hv'
  have h₃ := congrArg UInt64.toNat e
  rw [hturn, UInt64.toNat_add] at h₃
  have h₄ : v'.turnNum.toNat = (w.turnNum.toNat + 1) % 2 ^ 64 := h₃
  have h₅ : w.turnNum.toNat < 2 ^ 64 := w.turnNum.toNat_lt
  omega

include hturns in
theorem receiveAll_stale {q : List SignedProposal} (hc : Follows fp id log i c)
    (hq : ∀ n sp, q[n]? = some sp → Entry cr fp id leader log (j + n) sp)
    (hend : j + q.length ≤ i + c.proposalQueue.length) : receiveAll cr q c = .ok () c := by
  induction q generalizing j with
  | nil => rfl
  | cons sp q ih =>
    rw [List.length_cons] at hend
    have hhead := receive_other hturns hc (hq 0 sp rfl) (by omega)
    have htail := ih (j := j + 1) (fun n sp' hn => by
      have := hq (n + 1) sp' hn
      rwa [show j + (n + 1) = j + 1 + n by omega] at this) (by omega)
    show (receiveCurrent cr sp >>= fun _ => receiveAll cr q) c = _
    rw [Meth.bind_ok hhead, htail]

include hturns hleader in
/-- **a stretch of the log that reaches back to the end of the queue extends the queue** -/
theorem receiveAll_entries {q : List SignedProposal} (hc : Follows fp id log i c)
    (hq : ∀ n sp, q[n]? = some sp → Entry cr fp id leader log (j + n) sp)
    (hj : j ≤ i + c.proposalQueue.length) :
    ∃ c', receiveAll cr q c = .ok () c' ∧ Follows fp id log i c' ∧
      i + c'.proposalQueue.length = max (i + c.proposalQueue.length) (j + q.length) := by
  induction q generalizing j c with
  | nil => exact ⟨c, rfl, hc, by simpa using hj⟩
  | cons sp q ih =>
    have hq' : ∀ n sp', q[n]? = some sp' → Entry cr fp id leader log (j + 1 + n) sp' := by
      intro n sp' hn
      have := hq (n + 1) sp' hn
      rwa [show j + (n + 1) = j + 1 + n by omega] at this
    have hrun : ∀ {c₁ : ConsensusChannel}, receiveCurrent cr sp c = .ok () c₁ →
        receiveAll cr (sp :: q) c = receiveAll cr q c₁ := fun h => Meth.bind_ok h
    by_cases hlast : j = i + c.proposalQueue.length
    · have hhead := hq 0 sp rfl
      rw [Nat.add_zero, hlast] at hhead
      obtain ⟨hone, hc₁⟩ := receive_next hleader hc hhead
      have hlen : (c.proposalQueue ++ [sp]).length = c.proposalQueue.length + 1 := by simp
      obtain ⟨c', hall, hc', hend⟩ := ih hc₁ hq' (by
        show j + 1 ≤ i + (c.proposalQueue ++ [sp]).length
        omega)
      refine ⟨c', (hrun hone).trans hall, hc', ?_⟩
      rw [hend, List.length_cons]
      show max (i + (c.proposalQueue ++ [sp]).length) _ = _
      omega
    · have hone := receive_other hturns hc (hq 0 sp rfl) hlast
      obtain ⟨c', hall, hc', hend⟩ := ih hc hq' (by omega)
      refine ⟨c', (hrun hone).trans hall, hc', ?_⟩
      rw [hend, List.length_cons]
      omega

theorem QueueOk.entries {q : List SignedProposal} {v : Vars}
    (h : QueueOk cr fp id leader v q) (hq : Tracks log j q) (hv : log[j]? = some v) (n : Nat)
    (hn : q[n]? = some sp) : Entry cr fp id leader log (j + n) sp := by
  induction q generalizing v j n with
  | nil => simp at hn
  | cons p q ih =>
    obtain ⟨v', hid, -, hstep, hsig, hrest⟩ := h
    obtain ⟨w, w', hw, hw', hstep', ht⟩ := hq.head
    obtain rfl : w = v := Option.some.inj (hw.symm.trans hv)
    obtain rfl := hstep'.det hstep
    cases n with
    | zero =>
      rw [List.getElem?_cons_zero, Option.some.injEq] at hn
      subst hn
      refine ⟨hq.head, hid, fun u hu => ?_⟩
      obtain rfl : u = w' := Option.some.inj (hu.symm.trans hw')
      exact hsig
    | succ n =>
      rw [List.getElem?_cons_succ] at hn
      have := ih hrest hq.tail hw' n hn
      rwa [show j + 1 + n = j + (n + 1) by omega] at this

include hturns in
theorem entries_increasing {q : List SignedProposal}
    (hq : ∀ n sp, q[n]? = some sp → Entry cr fp id leader log (j + n) sp) :
    q.Pairwise fun a b => a.sortInfo.1 = b.sortInfo.1 ∧ a.sortInfo.2 < b.sortInfo.2 := by
  rw [List.pairwise_iff_getElem]
  intro m n hm hn hlt
  have h₁ := hq m _ (List.getElem?_eq_getElem hm)
  have h₂ := hq n _ (List.getElem?_eq_getElem hn)
  refine ⟨h₁.ledgerID.trans h₂.ledgerID.symm, ?_⟩
  obtain ⟨-, v, -, hv, -, ht⟩ := h₁.step
  obtain ⟨-, w, -, hw, -, hu⟩ := h₂.step
  have hv' := hturns _ v hv
  have hw' := hturns _ w hw
  show q[m].turnNum < q[n].turnNum
  rw [ht, hu, UInt64.lt_iff_toNat_lt]
  omega

/-- the amounts of a proposal of the log are not `nil`, so that it is not taken for the zero value -/
theorem Entry.ne_zero (he : Entry cr fp id leader log j sp) :
    sp.proposal ≠ SignedProposal.zero.proposal := by
  intro h
  obtain ⟨v, v', -, -, hstep, -⟩ := he.step
  rw [h] at hstep
  cases hstep

end receive

/-! ## the proposals of a message -/

/-- what the follower does with a message -/
def ConsensusChannel.receiveMessage (cr : Crypto) (m : Message) : Meth ConsensusChannel Unit :=
  receiveAll cr (m.signedProposals.map ObjectivePayload.payload)

theorem payloads_createSignedProposalMessage (recipient : Address) (queue : List SignedProposal) :
    (createSignedProposalMessage recipient queue).payloads.map MessagePayload.signedProposal =
      queue := by
  show (queue.map _).map _ = _
  rw [List.map_map]
  exact List.map_id _

theorem signedProposals_eq {m : Message} {q : List SignedProposal}
    (hm : (m.payloads.map MessagePayload.signedProposal).Perm q)
    (hq : q.Pairwise fun a b => a.sortInfo.1 = b.sortInfo.1 ∧ a.sortInfo.2 < b.sortInfo.2)
    (hzero : ∀ sp ∈ q, sp.proposal ≠ SignedProposal.zero.proposal) :
    m.signedProposals.map ObjectivePayload.payload = q := by
  have hall : (m.payloads.filter fun p => decide (p.type = .signedProposalPayload)) =
      m.payloads := by
    rw [List.filter_eq_self]
    intro p hp
    have hne := hzero p.signedProposal (hm.subset (List.mem_map_of_mem hp))
    simp [MessagePayload.type, MessagePayload.hasProposal, hne]
  refine sortPayloads_eq ?_ hq
  rw [hall, List.map_map]
  exact hm

/-! ## what the two channels keep -/

namespace Sys

theorem leader_step (cr : Crypto) (s : Sys) (a : Action) :
    (s.step cr a).leader = s.leader ∨ ∃ op : Op, (s.step cr a).leader = op.step cr s.leader := by
  cases a with
  | propose p sk =>
    refine .inr ⟨.propose p sk, ?_⟩
    unfold Sys.step
    dsimp only
    cases h : ConsensusChannel.propose cr p sk s.leader with
    | ok sp c => exact (Op.step_propose h).symm
    | error e c => exact (Meth.after_error (Meth.bind_error h)).symm
  | send => exact .inl rfl
  | deliverToFollower sp => exact .inl rfl
  | signNext p sk =>
    refine .inl ?_
    unfold Sys.step
    dsimp only
    cases ConsensusChannel.signNextProposal cr p sk s.follower <;> rfl
  | deliverToLeader sp => exact .inr ⟨.receive sp, rfl⟩

theorem follower_step (cr : Crypto) (s : Sys) (a : Action) :
    (s.step cr a).follower = s.follower ∨
      ∃ op : Op, (s.step cr a).follower = op.step cr s.follower := by
  cases a with
  | propose p sk =>
    refine .inl ?_
    unfold Sys.step
    dsimp only
    cases ConsensusChannel.propose cr p sk s.leader <;> rfl
  | send => exact .inl rfl
  | deliverToFollower sp => exact .inr ⟨.receive sp, rfl⟩
  | signNext p sk =>
    refine .inr ⟨.signNextProposal p sk, ?_⟩
    unfold Sys.step
    dsimp only
    cases h : ConsensusChannel.signNextProposal cr p sk s.follower with
    | ok sp c => exact (Op.step_signNextProposal h).symm
    | error e c => exact (Meth.after_error (Meth.bind_error h)).symm
  | deliverToLeader sp => exact .inl rfl

structure Signed (cr : Crypto) (fp : FixedPart) (id : Destination) (leader follower : Address)
    (s : Sys) : Prop where
  valid : s.leader.Valid cr leader follower
  leaderFrame : s.leader.fp = fp ∧ s.leader.id = id
  followerFrame : s.follower.fp = fp ∧ s.follower.id = id

theorem signed_init {cr : Crypto} {fp : FixedPart} {turn : UInt64} {o : LedgerOutcome}
    {sigs : Signature × Signature} {leader follower : ConsensusChannel}
    (hl : newConsensusChannel cr fp leaderIndex turn o sigs = .ok leader)
    (hf : newConsensusChannel cr fp followerIndex turn o sigs = .ok follower) :
    ∃ la fa, Signed cr fp leader.id la fa (Sys.init leader follower) := by
  obtain ⟨la, fa, hv⟩ := valid_new hl
  obtain ⟨-, hlfp, hlid, -⟩ := newConsensusChannel_ok hl
  obtain ⟨-, hffp, hfid, -⟩ := newConsensusChannel_ok hf
  exact ⟨la, fa, hv, ⟨hlfp, rfl⟩, hffp, Except.ok.inj (hfid.symm.trans hlid)⟩

theorem Signed.step {cr : Crypto} (hsc : SignCorrect cr) {fp : FixedPart} {id : Destination}
    {leader follower : Address} (s : Sys) (a : Action) (h : Signed cr fp id leader follower s) :
    Signed cr fp id leader follower (s.step cr a) := by
  have hl : (s.step cr a).leader.Valid cr leader follower ∧ (s.step cr a).leader.fp = fp ∧
      (s.step cr a).leader.id = id := by
    rcases leader_step cr s a with e | ⟨op, e⟩
    · rw [e]
      exact ⟨h.valid, h.leaderFrame⟩
    · rw [e]
      rcases Op.step_cases cr s.leader op with e' | hc
      · rw [e']
        exact ⟨h.valid, h.leaderFrame⟩
      · exact ⟨hc.valid hsc h.valid, hc.frame.1.trans h.leaderFrame.1,
          hc.frame.2.trans h.leaderFrame.2⟩
  refine ⟨hl.1, hl.2, ?_⟩
  rcases follower_step cr s a with e | ⟨op, e⟩
  · rw [e]
    exact h.followerFrame
  · rw [e]
    rcases Op.step_cases cr s.follower op with e' | hc
    · rw [e']
      exact h.followerFrame
    · exact ⟨hc.frame.1.trans h.followerFrame.1, hc.frame.2.trans h.followerFrame.2⟩

end Sys

/-! ## catching up -/

/-- **one message catches the follower up**: a message with the queue that the leader had at some
moment, in any order, takes the follower's queue at least to the leader's latest proposal of that
moment; what the queue leads to, turn by turn, is what the leader proposed; and the same message once
more changes nothing -/
theorem message_catches_up {cr : Crypto} (hsc : SignCorrect cr) {fp : FixedPart} {turn : UInt64}
    {o : LedgerOutcome} {sigs : Signature × Signature} {leader follower : ConsensusChannel}
    {actions : List Action}
    (hl : newConsensusChannel cr fp leaderIndex turn o sigs = .ok leader)
    (hf : newConsensusChannel cr fp followerIndex turn o sigs = .ok follower)
    (hadm : Along (Sys.step cr) (Sys.Admissible cr) (Sys.init leader follower) actions)
    {k : Nat} (hk : k ≤ actions.length) {m : Message}
    (hm : (m.payloads.map MessagePayload.signedProposal).Perm
      (run (Sys.step cr) (Sys.init leader follower) (actions.take k)).leader.proposalQueue) :
    ∃ c, receiveMessage cr m (run (Sys.step cr) (Sys.init leader follower) actions).follower =
        .ok () c ∧
      (∃ sent latest, (run (Sys.step cr) (Sys.init leader follower)
          (actions.take k)).leader.latestProposedVars = .ok sent ∧
        c.latestProposedVars = .ok latest ∧ sent.turnNum ≤ latest.turnNum) ∧
      (∀ n v, c.current.vars.handleQueue (c.proposalQueue.take n) = .ok v →
        (∃ l ≤ actions.length, (run (Sys.step cr) (Sys.init leader follower)
          (actions.take l)).leader.latestProposedVars = .ok v) ∧
        ∀ l ≤ actions.length, ∀ w, (run (Sys.step cr) (Sys.init leader follower)
          (actions.take l)).leader.latestProposedVars = .ok w → w.turnNum = v.turnNum → w = v) ∧
      receiveMessage cr m c = .ok () c := by
  obtain ⟨A, h0, hpath, hrel⟩ := hadm.simulate Agrees.step (agrees_init hl hf)
  obtain ⟨la, fa, hsigned⟩ := Sys.signed_init hl hf
  have hkept : ∀ l, Sys.Signed cr fp leader.id la fa
      (run (Sys.step cr) (Sys.init leader follower) l) := fun l =>
    run_inv (Sys.Signed.step hsc) hsigned
  have hend := hrel actions.length (Nat.le_refl _)
  rw [List.take_length] at hend
  have hmoment := hrel k hk
  obtain ⟨sent, hsent, hsentAt⟩ := hmoment.latest
  -- the leader's queue of that moment, as a stretch of the log at the end of the run
  have hentries : ∀ n sp, (run (Sys.step cr) (Sys.init leader follower)
      (actions.take k)).leader.proposalQueue[n]? = some sp →
      Entry cr fp leader.id la (A actions.length).entries ((A k).leader + n) sp := by
    obtain ⟨rest, hrest⟩ := path_entries hpath hk
    have hv := (hkept (actions.take k)).valid.queue
    rw [(hkept (actions.take k)).leaderFrame.1, (hkept (actions.take k)).leaderFrame.2] at hv
    rw [← hrest]
    exact fun n sp hn => hv.entries (hmoment.leaderQueue.append rest)
      (getElem?_append_of_some hmoment.leaderAt rest) n hn
  have hread : m.signedProposals.map ObjectivePayload.payload =
      (run (Sys.step cr) (Sys.init leader follower) (actions.take k)).leader.proposalQueue := by
    refine signedProposals_eq hm (entries_increasing hend.turns hentries) fun sp hsp => ?_
    obtain ⟨n, hn⟩ := List.getElem?_of_mem hsp
    exact (hentries n sp hn).ne_zero
  have hleader : fp.participants[leaderIndex]? = some la := by
    rw [← hsigned.leaderFrame.1]
    exact hsigned.valid.leaderAddr
  have hfollows : Follows fp leader.id (A actions.length).entries (A actions.length).follower
      (run (Sys.step cr) (Sys.init leader follower) actions).follower :=
    ⟨hend.followerRole, (hkept actions).followerFrame.1, (hkept actions).followerFrame.2,
      hend.followerAt, hend.followerQueue⟩
  have hbehind : (A k).leader ≤ (A actions.length).follower :=
    Nat.le_trans (A k).leader_le (path_follower hpath hk)
  obtain ⟨c, hrun, hc, hlen⟩ := receiveAll_entries hend.turns hleader hfollows hentries
    (Nat.le_add_right_of_le hbehind)
  have hreached : (A k).leader + (run (Sys.step cr) (Sys.init leader follower)
      (actions.take k)).leader.proposalQueue.length ≤
      (A actions.length).follower + c.proposalQueue.length := by
    rw [hlen]
    exact Nat.le_max_right _ _
  obtain ⟨latest, hlatest, hlatestAt⟩ := hc.queue.handleQueue hc.position
  refine ⟨c, ?_, ⟨sent, latest, hsent, hlatest, ?_⟩, fun n v hv => ?_, ?_⟩
  · rw [receiveMessage, hread]
    exact hrun
  · have h₁ := hend.turns _ _ (path_entry hpath hk hsentAt)
    have h₂ := hend.turns _ _ hlatestAt
    have h₃ := hmoment.leaderEnd
    rw [UInt64.le_iff_toNat_le]
    omega
  · have hprefix : Tracks (A actions.length).entries (A actions.length).follower
        (c.proposalQueue.take n) := by
      intro i sp hi
      rw [List.getElem?_take] at hi
      split at hi
      · exact hc.queue i sp hi
      · cases hi
    obtain ⟨u, hu, huAt⟩ := hprefix.handleQueue hc.position
    obtain rfl : u = v := Except.ok.inj (hu.symm.trans hv)
    refine ⟨?_, fun l hl w hw hturn => ?_⟩
    · -- the entry was the last one when the leader proposed it
      obtain ⟨l, hl, hlast⟩ := path_last hpath (List.getElem?_eq_some_iff.1 huAt).1 (by
        rw [h0]
        show 1 ≤ _
        omega)
      obtain ⟨w, hw, hwAt⟩ := (hrel l hl).latest
      rw [hlast, Nat.add_sub_cancel] at hwAt
      obtain rfl : w = u := Option.some.inj ((path_entry hpath hl hwAt).symm.trans huAt)
      exact ⟨l, hl, hw⟩
    · obtain ⟨w', hw', hwAt⟩ := (hrel l hl).latest
      obtain rfl : w' = w := Except.ok.inj (hw'.symm.trans hw)
      have hwEnd := path_entry hpath hl hwAt
      rw [hend.index_eq hwEnd huAt hturn, huAt] at hwEnd
      exact (Option.some.inj hwEnd).symm
  · rw [receiveMessage, hread]
    exact receiveAll_stale hend.turns hc hentries hreached

namespace Sample

/-- a second proposal, for another channel -/
def secondOf (amount : Int) : Proposal :=
  newAddProposal ledgerId ⟨some amount, 4, 1, 2⟩ (some amount)

/-- the first proposal reaches the follower; a second one is made -/
def partly : List Action :=
  [.propose (addOf 5) (key 1), .send, .deliverToFollower (firstProposal 1),
    .propose (secondOf 7) (key 1)]

def queueAfter (start : Sys) (actions : List Action) : List SignedProposal :=
  (run (Sys.step Crypto.plain) start actions).leader.proposalQueue

/-- the queue, last proposal first -/
def reversed (queue : List SignedProposal) : Message :=
  createSignedProposalMessage 2 queue.reverse

theorem partly_admissible :
    Along (Sys.step Crypto.plain) (Sys.Admissible Crypto.plain) system partly :=
  ⟨⟨turnNum_lt (by decide +kernel), trivial⟩, ⟨turnNum_lt (by decide +kernel), trivial⟩,
    ⟨turnNum_lt (by decide +kernel), .inl (by decide +kernel)⟩,
    ⟨turnNum_lt (by decide +kernel), trivial⟩, trivial⟩

theorem reversed_perm (queue : List SignedProposal) :
    ((reversed queue).payloads.map MessagePayload.signedProposal).Perm queue := by
  rw [reversed, payloads_createSignedProposalMessage]
  exact List.reverse_perm queue

theorem queueAfter_take (start : Sys) (actions : List Action) :
    (run (Sys.step Crypto.plain) start (actions.take actions.length)).leader.proposalQueue =
      queueAfter start actions := by
  rw [List.take_length]
  rfl

end Sample

theorem message_catches_up_two :
    (Sample.queueAfter Sample.system Sample.partly).length = 2 ∧
    ∃ c, receiveMessage Crypto.plain
        (Sample.reversed (Sample.queueAfter Sample.system Sample.partly))
        (run (Sys.step Crypto.plain) Sample.system Sample.partly).follower = .ok () c ∧
      receiveMessage Crypto.plain
        (Sample.reversed (Sample.queueAfter Sample.system Sample.partly)) c = .ok () c := by
  obtain ⟨c, hrun, -, -, hagain⟩ := message_catches_up signCorrect_plain Sample.new_leader
    Sample.new_follower Sample.partly_admissible (Nat.le_refl _)
    (m := Sample.reversed (Sample.queueAfter Sample.system Sample.partly)) (by
      rw [Sample.queueAfter_take]
      exact Sample.reversed_perm _)
  exact ⟨by decide +kernel, c, hrun, hagain⟩

/-! ## where turn numbers wrap -/

namespace Sample

/-- a ledger whose first turn number is the last but one -/
def lateStart : Vars := ⟨UInt64.ofNat (2 ^ 64 - 2), outcome⟩

def lateLedger (i : Nat) : ConsensusChannel :=
  { ledger i with current := ⟨lateStart, (sig lateStart 1, sig lateStart 2)⟩ }

def lateSystem : Sys := Sys.init (lateLedger leaderIndex) (lateLedger followerIndex)

/-- two proposals, for the turns `2^64 - 1` and `0` -/
def twice : List Action := [.propose (addOf 5) (key 1), .propose (secondOf 7) (key 1)]

def lateMessage : Message := createSignedProposalMessage 2 (queueAfter lateSystem twice)

/-- the follower after so many readings of the message -/
def lateFollower : Nat → ConsensusChannel
  | 0 => (run (Sys.step Crypto.plain) lateSystem twice).follower
  | n + 1 => (receiveMessage Crypto.plain lateMessage).after (lateFollower n)

theorem receive_lateMessage {i : Nat} (hi : i < 2) :
    receiveMessage Crypto.plain lateMessage (lateFollower i) = .ok () (lateFollower (i + 1)) ∧
      (lateFollower (i + 1)).proposalQueue.length = i + 1 := by
  suffices h : (receiveMessage Crypto.plain lateMessage).result (lateFollower i) = .ok () ∧
      (lateFollower (i + 1)).proposalQueue.length = i + 1 from
    h.imp_left Meth.run_of_result
  rcases (show i = 0 ∨ i = 1 by omega) with rfl | rfl
  · exact ⟨by decide +kernel, by decide +kernel⟩
  · exact ⟨by decide +kernel, by decide +kernel⟩

end Sample

/-- the proposal with turn number `0` sorts before its predecessor, so one reading of the message
misses it and the next one changes the follower -/
theorem message_read_twice :
    newConsensusChannel Crypto.plain Sample.fp leaderIndex (UInt64.ofNat (2 ^ 64 - 2)) Sample.outcome
        (Sample.sig Sample.lateStart 1, Sample.sig Sample.lateStart 2) =
      .ok (Sample.lateLedger leaderIndex) ∧
    newConsensusChannel Crypto.plain Sample.fp followerIndex (UInt64.ofNat (2 ^ 64 - 2))
        Sample.outcome (Sample.sig Sample.lateStart 1, Sample.sig Sample.lateStart 2) =
      .ok (Sample.lateLedger followerIndex) ∧
    Sample.lateMessage.payloads.map MessagePayload.signedProposal =
      (run (Sys.step Crypto.plain) Sample.lateSystem Sample.twice).leader.proposalQueue ∧
    receiveMessage Crypto.plain Sample.lateMessage (Sample.lateFollower 0) =
      .ok () (Sample.lateFollower 1) ∧
    receiveMessage Crypto.plain Sample.lateMessage (Sample.lateFollower 1) =
      .ok () (Sample.lateFollower 2) ∧
    (Sample.lateFollower 1).proposalQueue.length = 1 ∧
    (Sample.lateFollower 2).proposalQueue.length = 2 := by
  obtain ⟨hfirst, hone⟩ := Sample.receive_lateMessage (show 0 < 2 by decide)
  obtain ⟨hsecond, htwo⟩ := Sample.receive_lateMessage (show 1 < 2 by decide)
  exact ⟨by decide +kernel, by decide +kernel, payloads_createSignedProposalMessage 2 _,
    hfirst, hsecond, hone, htwo⟩

end Nitro
