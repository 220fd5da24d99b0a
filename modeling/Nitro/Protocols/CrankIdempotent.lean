import Nitro.Protocols.CrankTwiceVirtual

/-!
# Cranking is idempotent

What `crank_again` asks of an objective holds along whole runs of its methods: the setup records of a
channel that is opened, the participants in the records of a ledger that is closed, and the information
about the guarantee of a virtual channel.

* `Channel.Ours`              all records are between the same participants, and our index is known;
* `DirectDefund.ours_step`    kept while a ledger is closed;
* `VirtualFund.Event`         calls on the objective, and ledgers that other objectives changed;
* `crank_idempotent`          **a second `Crank` does nothing**, in all four protocols;
* `prefund_signed_twice`      a virtual channel whose first state is not of turn 0 is signed on and on.
-/

set_option linter.unusedSectionVars false

namespace Nitro
open Go FinMap Runs
open Channel (OwnKey)

/-! ## the participants of a closing channel -/

namespace Channel
variable {cr : Crypto} {ps : List Address} {i : Nat} {c d : Channel}

structure Ours (ps : List Address) (i : Nat) (c : Channel) : Prop where
  index : c.myIndex = i
  setup : ∀ t, t = preFundTurnNum ∨ t = postFundTurnNum → t ∈ c.signedStateForTurnNum
  participants : ∀ t ss, c.signedStateForTurnNum.lookup t = some ss → ss.state.participants = ps

theorem Ours.congr (h : Ours ps i c) (hindex : d.myIndex = c.myIndex)
    (hstates : d.signedStateForTurnNum = c.signedStateForTurnNum) : Ours ps i d := by
  obtain ⟨hi, hsetup, hparts⟩ := h
  rw [← hstates] at hsetup hparts
  exact ⟨hindex.trans hi, hsetup, hparts⟩

theorem ours_new {s : State} (h : new cr s i = .ok c) : Ours s.participants i c := by
  obtain ⟨-, hindex, -, -, hstates⟩ := new_ok h
  refine ⟨hindex, fun t ht => ?_, fun t ss hl => ?_⟩
  · rw [hstates]
    rcases ht with rfl | rfl <;> simp
  · rcases lookup_new h hl with ⟨-, rfl⟩ | ⟨-, rfl⟩
    · rfl
    · rfl

theorem Ours.clone (h : Ours ps i c) (hd : c.clone cr = .ok d) : Ours ps i d := by
  obtain ⟨-, hindex, -, -, -, hcopied, hturns⟩ := clone_ok hd
  refine ⟨hindex.trans h.index, fun t ht => ?_, fun t ss hl => ?_⟩
  · obtain ⟨ss, hl⟩ := Finmap.mem_iff.1 (h.setup t ht)
    exact Finmap.mem_of_lookup_eq_some (hcopied t ss hl)
  · -- the setup records are there already, so that the copy has no record of its own
    have hmem : t ∈ c.signedStateForTurnNum := by
      rcases hturns t (Finmap.mem_of_lookup_eq_some hl) with hmem | ht | ht
      · exact hmem
      · exact h.setup t (.inl ht)
      · exact h.setup t (.inr ht)
    obtain ⟨ss', hl'⟩ := Finmap.mem_iff.1 hmem
    obtain rfl := Option.some.inj ((hcopied t ss' hl').symm.trans hl)
    exact h.participants t ss' hl'

theorem Ours.addSignedState (h : Ours ps i c) {ss : SignedState}
    (hfresh : ss.state.channelId cr = .ok c.id →
      c.signedStateForTurnNum.lookup ss.state.turnNum = none → ss.state.participants = ps) :
    Ours ps i ((Channel.addSignedState cr ss).after c) := by
  have hstore : ∀ ss', ss.state.channelId cr = .ok c.id → Recorded cr c ss ss' →
      Ours ps i (c.store ss.state.turnNum ss') := by
    intro ss' hid hr
    have hparts : ss'.state.participants = ps := by
      cases hr with
      | fresh hnone => exact hfresh hid hnone
      | merged hsome =>
        rw [SignedState.merge_state]
        exact h.participants _ _ hsome
    refine ⟨h.index, fun t ht => Finmap.mem_insert.2 (.inr (h.setup t ht)), fun t x hl => ?_⟩
    rcases lookup_store hl with ⟨-, rfl⟩ | ⟨-, hl⟩
    · exact hparts
    · exact h.participants t x hl
  rcases addSignedState_cases cr ss c with hsame | ⟨ss', hid, hr, hrun | ⟨-, -, hrun⟩⟩
  · rwa [hsame]
  · rw [hrun]
    exact hstore ss' hid hr
  · rw [hrun]
    exact (hstore ss' hid hr).congr rfl rfl

theorem Ours.signAndAddState (h : Ours ps i c) {s : State} (sk : Bytes)
    (hs : s.participants = ps) : Ours ps i ((Channel.signAndAddState cr s sk).after c) := by
  rcases signAndAddState_cases cr s sk c with hsame | ⟨sig, ss, -, hadd, hrun⟩
  · rwa [hsame]
  · rw [hrun]
    refine h.addSignedState fun _ _ => ?_
    rw [(SignedState.addSignature_ok hadd).1]
    exact hs

theorem Ours.owned {sk : Bytes} (h : Ours ps i c) (hkey : OwnKey cr ps i sk) :
    Owned cr sk c := by
  intro t ss hl
  rw [h.index, h.participants t ss hl]
  exact hkey

end Channel

namespace DirectDefund
open Channel (Ours)
open Objective (Call Accepts Closes)
variable {cr : Crypto} {cc : ConsensusChannel} {ps : List Address} {i : Nat} {n : UInt64}
  {o : Objective}

/-- a final state that `Update` would put on record has the participants of the ledger; the channel id
is a hash of them -/
def KeepsParticipants (cr : Crypto) (ps : List Address) (o : Objective) (call : Call) : Prop :=
  ∀ event, call = .update event → Accepts cr o event →
    event.signedState.state.participants = ps

theorem createChannel_ours {c : Channel} (h : createChannelFromConsensusChannel cr cc = .ok c) :
    Ours cc.fp.participants cc.myIndex c := by
  obtain ⟨supported, hsup, h⟩ := Res.bind_eq_ok.1 h
  have hstate := supportedSignedState_state hsup
  obtain ⟨c₀, hnew, hadd⟩ := Res.bind_eq_ok.1 h
  rw [hstate] at hnew
  have hparts : (cc.current.vars.asState
      (cc.current.vars.asState cc.fp).fixedPart).participants = cc.fp.participants := rfl
  have hours := Channel.ours_new hnew
  rw [hparts] at hours
  rw [← Meth.exec_eq_ok hadd]
  refine (hours.congr (d := { c₀ with onChainFunding := cc.onChainFunding.clone })
    rfl rfl).addSignedState fun _ _ => ?_
  rw [hstate]
  rfl

theorem Built.ours (h : Built cr cc o) : Ours cc.fp.participants cc.myIndex o.c := by
  obtain ⟨id, preApprove, get, hget, hnew⟩ := h.newObjective
  obtain ⟨cc', c, _, hcc, hc, -, hclone, -⟩ := newObjective_ok hnew
  rw [hget, Except.ok.injEq] at hcc
  subst hcc
  exact (createChannel_ours hc).clone hclone

theorem ours_update {o' : Objective} {event : ObjectiveEvent} (hcloses : Closes cr (fun _ => True) n o)
    (h : Ours ps i o.c)
    (hparts : Accepts cr o event → event.signedState.state.participants = ps)
    (hu : o.update cr event = .ok o') : Ours ps i o'.c := by
  obtain ⟨hid, hu⟩ := failIf_bind_eq_ok.1 hu
  obtain ⟨hsigs, hu⟩ := failIf_bind_eq_ok.1 hu
  obtain ⟨hfinal, hu⟩ := failIf_bind_eq_ok.1 hu
  obtain ⟨hturn, hu⟩ := failIf_bind_eq_ok.1 hu
  obtain ⟨u, hclone, hu⟩ := Res.bind_eq_ok.1 hu
  obtain ⟨c, hadd, hend⟩ := Res.bind_eq_ok.1 hu
  cases hend
  rw [not_ne_iff] at hid hturn
  rw [Bool.not_eq_false] at hfinal
  obtain ⟨d, hd, rfl⟩ := Objective.clone_ok hclone
  show Ours ps i c
  rw [← Meth.exec_eq_ok hadd]
  refine (h.clone hd).addSignedState fun hchannel hnone => ?_
  rw [hcloses.1.clone_id hd] at hchannel
  refine hparts ⟨hid, hsigs, hfinal, hturn, hchannel, ?_⟩
  rw [hturn]
  cases hl : o.c.signedStateForTurnNum.lookup event.signedState.state.turnNum with
  | none => rfl
  | some ss =>
    obtain ⟨-, -, -, -, -, hcopied, -⟩ := Channel.clone_ok hd
    have hnone : d.signedStateForTurnNum.lookup event.signedState.state.turnNum = none := hnone
    rw [hcopied _ _ hl] at hnone
    cases hnone

theorem ours_crank {sk : Bytes} {r : Objective.Cranked} (hcloses : Closes cr (fun _ => True) n o)
    (h : Ours ps i o.c) (hr : o.crank cr sk = .ok r) : Ours ps i r.updated.c := by
  obtain ⟨u, hclone, -, hcase⟩ := Objective.crank_cases hr
  obtain ⟨d, hd, rfl⟩ := Objective.clone_ok hclone
  have hd' := h.clone hd
  rcases hcase with ⟨hc, -⟩ | ⟨s, ⟨u', latest, hclone', -, hlatest, hsign⟩, hc, -⟩
  · rw [hc]
    exact hd'
  · rw [hc]
    refine hd'.signAndAddState sk ?_
    rw [hclone, Except.ok.injEq] at hclone'
    subst hclone'
    rw [(Objective.stateToSign_ok hsign).1]
    obtain ⟨t, -, hl⟩ := (hcloses.1.clone hd).latest hlatest
    exact hd'.participants t latest hl

/-- **all calls keep the participants** -/
theorem ours_step (call : Call) (hcloses : Closes cr (fun _ => True) n o) (h : Ours ps i o.c)
    (hcall : KeepsParticipants cr ps o call) : Ours ps i (call.step cr o).c := by
  have hcopy : ∀ {u : Objective}, o.clone cr = .ok u → Ours ps i u.c := by
    intro u hclone
    obtain ⟨d, hd, rfl⟩ := Objective.clone_ok hclone
    exact h.clone hd
  cases call with
  | approve =>
    refine Res.getD_ind (P := fun o' : Objective => Ours ps i o'.c) h fun o' hr => ?_
    obtain ⟨u, hclone, hend⟩ := Res.bind_eq_ok.1 hr
    cases hend
    have hu := hcopy hclone
    exact hu
  | reject =>
    refine Res.getD_ind (P := fun o' : Objective => Ours ps i o'.c) h fun o' hr => ?_
    obtain ⟨u, hclone, hend⟩ := Res.bind_eq_ok.1 hr
    cases hend
    have hu := hcopy hclone
    exact hu
  | update event =>
    exact Res.getD_ind (P := fun o' : Objective => Ours ps i o'.c) h fun o' hr =>
      ours_update hcloses h (hcall event rfl) hr
  | updateWithChainEvent event =>
    refine Res.map_getD_ind (P := fun o' : Objective => Ours ps i o'.c) h fun r hr => ?_
    obtain ⟨u, hclone, hr⟩ := Res.bind_eq_ok.1 hr
    have hu := hcopy hclone
    cases event with
    | deposited id block asset amount held =>
      cases hr
      exact hu
    | allocationUpdated id block asset amount =>
      cases hr
      exact hu.congr rfl rfl
    | concluded id block =>
      cases hr
      exact hu
  | crank sk =>
    exact Res.map_getD_ind (P := fun o' : Objective => Ours ps i o'.c) h fun r hr =>
      ours_crank hcloses h hr

theorem closes_ours_run {calls : List Call} (h : Built cr cc o)
    (hrun : Along (Call.step cr) (KeepsParticipants cr cc.fp.participants) o calls) :
    Closes cr (fun _ => True) cc.current.vars.turnNum (run (Call.step cr) o calls) ∧
      Ours cc.fp.participants cc.myIndex (run (Call.step cr) o calls).c := by
  obtain ⟨id, preApprove, get, hget, hnew⟩ := h.newObjective
  refine hrun.inv (I := fun o => Closes cr (fun _ => True) cc.current.vars.turnNum o ∧
    Ours cc.fp.participants cc.myIndex o.c) (fun o call hi hc => ?_)
    ⟨newObjective_closes hget hnew trivial, h.ours⟩
  exact ⟨closes_step o call hi.1 fun _ _ _ => trivial, ours_step call hi.1 hi.2 hc⟩

end DirectDefund

/-! ## virtual funding next to other objectives -/

namespace VirtualFund
open Objective (Call Keeps)

/-- a call on the objective; or the ledger on a side is another one when the objective is read from the
store again -/
inductive Event where
  | call (call : Call)
  | reload (side : Side) (ledger : ConsensusChannel)

def Objective.reload (o : Objective) (side : Side) (ledger : ConsensusChannel) : Objective :=
  match o.connection side with
  | none => o
  | some c => o.setConnection side { c with channel := ledger }

def Event.step (cr : Crypto) (o : Objective) : Event → Objective
  | .call c => c.step cr o
  | .reload side ledger => o.reload side ledger

variable {cr : Crypto} {getLedger : Address → Option ConsensusChannel} {me : Address} {s : State}
  {o : Objective} {asset : Address}

theorem keeps_event {f : Objective.Frame} (hf : f.ledger = fun _ _ => True)
    (hne : s.participants ≠ []) (o : Objective) (event : Event) (h : Objective.Runs cr s f o) :
    Objective.Runs cr s f (event.step cr o) := by
  cases event with
  | call call =>
    refine Objective.Call.keeps_step (fun side => ?_) hne h call
    rw [hf]
    exact kept_true
  | reload side ledger =>
    show Objective.Runs cr s f (o.reload side ledger)
    unfold Objective.reload
    cases hc : o.connection side with
    | none => exact h
    | some c =>
      refine h.setConnection ⟨(h.connection side c hc).1, ?_⟩
      rw [hf]
      trivial

theorem Opened.expects_run (h : Opened cr getLedger me s o) (hs : OneAsset s.outcome asset)
    (events : List Event) :
    Channel.Setup cr DirectFund.anySig s o.myRole (run (Event.step cr) o events).v ∧
      ∀ side c, (run (Event.step cr) o events).connection side = some c →
        ∃ g left, Expects c.guaranteeInfo g left := by
  obtain ⟨ha, hb⟩ := h.amounts_keys hs
  have hkeeps : Objective.Runs cr s (o.frame s fun _ _ => True) (run (Event.step cr) o events) :=
    run_inv (keeps_event rfl h.participants_ne_nil) (h.keeps fun _ _ _ => trivial)
  refine ⟨hkeeps.v, fun side c hc => ?_⟩
  obtain ⟨x, y, -, -, hinfo⟩ := (hkeeps.connection side c hc).1
  rw [hinfo]
  exact ⟨_, _, expects_single ha hb⟩

end VirtualFund

/-! ## all protocols -/

/-- **`Crank` is idempotent**: when a `Crank` of a reachable objective returns without an error and does
not complete it, the next one changes nothing, sends nothing, submits nothing and waits for the same;
for virtual funding if the first state is of turn 0 and our address is where our role says and nowhere
before -/
theorem crank_idempotent {cr : Crypto} {sk : Bytes} {me : Address} (hcorrect : SignCorrect cr)
    (hkey : cr.secretKeyToAddress sk = some me) :
    (∀ preApprove s o events r,
      DirectFund.constructFromState cr preApprove s me = .ok o →
      (run (DirectFund.Objective.Trace.step cr) ⟨o, []⟩ events).objective.crank cr sk = .ok r →
      r.err = none → r.updated.status ≠ .completed →
      r.updated.crank cr sk = .ok ⟨r.updated, .empty, r.waitingFor, none⟩) ∧
    (∀ cc o calls r, DirectDefund.Built cr cc o →
      cc.fp.participants.findIdx? (fun p => decide (p = me)) = some cc.myIndex →
      Along (DirectDefund.Objective.Call.step cr)
        (DirectDefund.KeepsParticipants cr cc.fp.participants) o calls →
      (run (DirectDefund.Objective.Call.step cr) o calls).crank cr sk = .ok r →
      r.err = none → r.updated.status ≠ .completed →
      r.updated.crank cr sk = .ok ⟨r.updated, .empty, r.waitingFor, none⟩) ∧
    (∀ getLedger s asset o events orders orders' r, VirtualFund.Opened cr getLedger me s o →
      VirtualFund.OneAsset s.outcome asset → s.turnNum = 0 →
      s.participants.findIdx? (fun p => decide (p = me)) = some o.myRole →
      (run (VirtualFund.Event.step cr) o events).crank cr orders sk = .ok r →
      r.err = none → r.updated.status ≠ .completed →
      r.updated.crank cr orders' sk = .ok ⟨r.updated, .empty, r.waitingFor, none⟩) ∧
    ∀ (o : VirtualDefund.Objective) r, o.crank cr sk = .ok r →
      r.err = none → r.updated.status ≠ .completed →
      r.updated.crank cr sk = .ok ⟨r.updated, .empty, r.waitingFor, none⟩ := by
  refine ⟨?_, ?_, ?_, ?_⟩
  · intro preApprove s o events r hnew hr herr hopen
    obtain ⟨i, hi, hlawful⟩ := DirectFund.lawful_new hnew
    have h0 := (DirectFund.constructFromState_ok hnew).turnNum
    have hrun : DirectFund.Objective.Lawful cr s i o
        (run (DirectFund.Objective.Trace.step cr) ⟨o, []⟩ events) :=
      run_inv (DirectFund.Objective.Lawful.step h0) hlawful
    exact DirectFund.Objective.crank_again hrun.setup h0 ⟨hcorrect, me, hkey, hi⟩ hr herr hopen
  · intro cc o calls r hbuilt hindex hrun hr herr hopen
    obtain ⟨hcloses, hours⟩ := DirectDefund.closes_ours_run hbuilt hrun
    have hown : Channel.Owned cr sk _ := hours.owned ⟨hcorrect, me, hkey, hindex⟩
    exact DirectDefund.Objective.crank_again hcloses hown hr herr hopen
  · intro getLedger s asset o events orders orders' r hopened hs h0 hindex hr herr hopen
    obtain ⟨hsetup, hexp⟩ := hopened.expects_run hs events
    exact VirtualFund.Objective.crank_again hsetup h0 ⟨hcorrect, me, hkey, hindex⟩ hexp hr herr
      hopen orders'
  · intro o r hr herr hopen
    exact VirtualDefund.Objective.crank_again hcorrect hr herr hopen

/-! ## sample cranks -/

namespace Sample

def aliceEvents : List VirtualFund.Event := fundingCalls.map .call

/-- a virtual channel that a peer proposes to open at turn 5 -/
def lateState : State := { virtualState with turnNum := 5 }

/-- Bob's objective for it -/
def lateObjective : VirtualFund.Objective :=
  (VirtualFund.constructObjectiveFromState Crypto.plain lateState true 3
    fun _ => some (ledgerLedBy 2 3)).toOption.getD ⟨.rejected, channel, none, none, 0, 0, ∅, ∅⟩

end Sample

open Sample in
theorem crank_idempotent_samples :
    (∃ r, (fundingRun fundingEvents).objective.crank Crypto.plain (key 1) = .ok r ∧
      r.sideEffects.transactionsToSubmit ≠ [] ∧
      r.updated.crank Crypto.plain (key 1) = .ok ⟨r.updated, .empty, r.waitingFor, none⟩) ∧
    (∃ r, closingObjective.crank Crypto.plain (key 2) = .ok r ∧
      r.sideEffects.messagesToSend ≠ [] ∧
      r.updated.crank Crypto.plain (key 2) = .ok ⟨r.updated, .empty, r.waitingFor, none⟩) ∧
    (∃ r, (run (VirtualFund.Event.step Crypto.plain) aliceFunds aliceEvents).crank Crypto.plain
        orders (key 1) = .ok r ∧ r.sideEffects.messagesToSend ≠ [] ∧
      r.updated.crank Crypto.plain orders (key 1) =
        .ok ⟨r.updated, .empty, r.waitingFor, none⟩) ∧
    ∃ r, (run (VirtualDefund.Objective.Call.step Crypto.plain) aliceDefunds
        defundingCalls).crank Crypto.plain (key 1) = .ok r ∧ r.sideEffects.messagesToSend ≠ [] ∧
      r.updated.crank Crypto.plain (key 1) = .ok ⟨r.updated, .empty, r.waitingFor, none⟩ := by
  have hlen : ∀ {α : Type} {l : List α}, decide (l.length = 1) = true → l ≠ [] := by
    intro α l h hnil
    rw [hnil] at h
    cases h
  obtain ⟨hfund, -, hvirtual, hdefund⟩ :=
    crank_idempotent signCorrect_plain
      (show Crypto.plain.secretKeyToAddress (key 1) = some 1 from key_plain)
  refine ⟨?_, ?_, ?_, ?_⟩
  · have heval : ((fundingRun fundingEvents).objective.crank Crypto.plain (key 1) >>= fun r =>
        .ok (decide (r.sideEffects.transactionsToSubmit.length = 1), r.err,
          r.updated.status)) = .ok (true, none, .approved) := by decide +kernel
    obtain ⟨r, hr, heq⟩ := Res.bind_eq_ok.1 heval
    obtain ⟨hsent, herr, hstatus⟩ := by simpa only [Except.ok.injEq, Prod.mk.injEq] using heq
    have hnew : DirectFund.constructFromState Crypto.plain true (fundingState fiveEach) 1 =
        .ok (fundingObjective fiveEach) := by decide +kernel
    exact ⟨r, hr, hlen hsent, hfund _ _ _ fundingEvents r hnew hr herr (by rw [hstatus]; decide)⟩
  · have hkey : Crypto.plain.secretKeyToAddress (key 2) = some 2 := by decide +kernel
    have heval : (closingObjective.crank Crypto.plain (key 2) >>= fun r =>
        .ok (decide (r.sideEffects.messagesToSend.length = 1), r.err, r.updated.status)) =
          .ok (true, none, .approved) := by decide +kernel
    obtain ⟨r, hr, heq⟩ := Res.bind_eq_ok.1 heval
    obtain ⟨hsent, herr, hstatus⟩ := by simpa only [Except.ok.injEq, Prod.mk.injEq] using heq
    refine ⟨r, hr, hlen hsent, ?_⟩
    exact (crank_idempotent signCorrect_plain hkey).2.1 closingLedger _ [] r closing_built
      (by decide) trivial (by unfold run; rw [List.foldl_nil]; exact hr) herr
      (by rw [hstatus]; decide)
  · have heval : ((run (VirtualFund.Event.step Crypto.plain) aliceFunds aliceEvents).crank
        Crypto.plain orders (key 1) >>= fun r =>
          .ok (decide (r.sideEffects.messagesToSend.length = 1), r.err, r.updated.status)) =
            .ok (true, none, .approved) := by decide +kernel
    obtain ⟨r, hr, heq⟩ := Res.bind_eq_ok.1 heval
    obtain ⟨hsent, herr, hstatus⟩ := by simpa only [Except.ok.injEq, Prod.mk.injEq] using heq
    have hone : VirtualFund.OneAsset (virtualRequest.initialState 1).outcome 0 := by
      refine ⟨List.cons_ne_nil _ _, fun x hx => ?_⟩
      rw [List.mem_singleton.1 hx]
    exact ⟨r, hr, hlen hsent, hvirtual _ _ 0 _ aliceEvents orders orders r
      (.request new_aliceFunds) hone rfl (by decide +kernel) hr herr (by rw [hstatus]; decide)⟩
  · have heval : ((run (VirtualDefund.Objective.Call.step Crypto.plain) aliceDefunds
        defundingCalls).crank Crypto.plain (key 1) >>= fun r =>
          .ok (decide (r.sideEffects.messagesToSend.length = 1), r.err, r.updated.status)) =
            .ok (true, none, .approved) := by decide +kernel
    obtain ⟨r, hr, heq⟩ := Res.bind_eq_ok.1 heval
    obtain ⟨hsent, herr, hstatus⟩ := by simpa only [Except.ok.injEq, Prod.mk.injEq] using heq
    exact ⟨r, hr, hlen hsent, hdefund _ r hr herr (by rw [hstatus]; decide)⟩

open Sample in
/-- the prefund record is that of turn 0, and the signed state goes on record at turn 5: the second
`Crank` sends the prefund state to both peers once more -/
theorem prefund_signed_twice : ∃ o r r',
    VirtualFund.Opened Crypto.plain (fun _ => some (ledgerLedBy 2 3)) 3 lateState o ∧
    VirtualFund.OneAsset lateState.outcome 0 ∧ o.status = .approved ∧
    o.crank Crypto.plain orders (key 3) = .ok r ∧ r.err = none ∧ r.updated.status ≠ .completed ∧
    r.updated.crank Crypto.plain orders (key 3) = .ok r' ∧ r'.err = none ∧
    r'.sideEffects.messagesToSend.length = 2 := by
  have hnew : VirtualFund.constructObjectiveFromState Crypto.plain lateState true 3
      (fun _ => some (ledgerLedBy 2 3)) = .ok lateObjective := by decide +kernel
  have hone : VirtualFund.OneAsset lateState.outcome 0 := by
    refine ⟨List.cons_ne_nil _ _, fun x hx => ?_⟩
    rw [List.mem_singleton.1 hx]
  have heval : (lateObjective.crank Crypto.plain orders (key 3) >>= fun r =>
      r.updated.crank Crypto.plain orders (key 3) >>= fun r' =>
        .ok (lateObjective.status, r.err, r.updated.status, r'.err,
          r'.sideEffects.messagesToSend.length)) = .ok (.approved, none, .approved, none, 2) := by
    decide +kernel
  obtain ⟨r, hr, heval⟩ := Res.bind_eq_ok.1 heval
  obtain ⟨r', hr', heq⟩ := Res.bind_eq_ok.1 heval
  obtain ⟨happroved, herr, hstatus, herr', hsent⟩ := by
    simpa only [Except.ok.injEq, Prod.mk.injEq] using heq
  exact ⟨lateObjective, r, r', .message hnew, hone, happroved, hr, herr,
    by rw [hstatus]; decide, hr', herr', hsent⟩

end Nitro
