import Nitro.Lib.Runs
import Nitro.Protocols.DirectDefund

/-!
# What a client signs when it closes a ledger

`Crank` signs one turn after the latest record of the channel, or signs that record when it is final
already.  So the outcome that gets signed is the ledger's, as long as the record at the final turn
was made by us or brought the ledger's outcome with it: `Update` does not look at the outcome.

* `Closing good n c`         the channel closes the ledger state of turn `n`, with a `good` outcome;
* `Closing.addSignedState`, `Closing.clone`    kept by the operations on the channel;
* `Objective.Signs o s`      `Crank` signs the state `s`;
* `closing_outcome`          every state that is signed has the final turn number and the outcome
                             of the ledger;
* `foreign_outcome_signed`   a peer that moves first has any outcome signed.
-/

set_option linter.unusedSectionVars false

namespace Nitro
open Go FinMap Runs

/-! ## the channel of an objective -/

structure Closing (cr : Crypto) (good : Exit → Prop) (n : UInt64) (c : Channel) : Prop where
  next : (n + 1).toNat = n.toNat + 1
  pos : 1 ≤ n.toNat
  turns : ∀ t ∈ c.signedStateForTurnNum, t.toNat ≤ n.toNat + 1
  pre : ∃ ss, c.signedStateForTurnNum.lookup preFundTurnNum = some ss ∧
    ss.state.channelId cr = .ok c.id
  ledger : ∃ ss, c.signedStateForTurnNum.lookup n = some ss ∧ ss.state.turnNum = n ∧
    ss.state.isFinal = false ∧ good ss.state.outcome
  final : ∀ ss, c.signedStateForTurnNum.lookup (n + 1) = some ss →
    ss.state.turnNum = n + 1 ∧ ss.state.isFinal = true ∧ good ss.state.outcome

namespace Closing
variable {cr : Crypto} {good : Exit → Prop} {n : UInt64} {c d : Channel}

theorem congr (h : Closing cr good n c) (hid : d.id = c.id)
    (hstates : d.signedStateForTurnNum = c.signedStateForTurnNum) : Closing cr good n d := by
  obtain ⟨hnext, hpos, hturns, hpre, hledger, hfinal⟩ := h
  rw [← hstates] at hturns hpre hledger hfinal
  rw [← hid] at hpre
  exact ⟨hnext, hpos, hturns, hpre, hledger, hfinal⟩

/-- a copy computes its id anew, from the prefund state -/
theorem clone_id (h : Closing cr good n c) (hc : c.clone cr = .ok d) : d.id = c.id := by
  obtain ⟨hid, -⟩ := Channel.clone_ok hc
  obtain ⟨pre, hpre, hpreId⟩ := h.pre
  have hpreState : c.preFundState = pre.state := by
    simp [Channel.preFundState, Channel.signedState, hpre]
  rw [hpreState, hpreId] at hid
  exact (Except.ok.inj hid).symm

theorem clone (h : Closing cr good n c) (hc : c.clone cr = .ok d) : Closing cr good n d := by
  obtain ⟨-, -, -, -, -, hcopied, hturns⟩ := Channel.clone_ok hc
  obtain ⟨pre, hpre, hpreId⟩ := h.pre
  obtain ⟨ss, hss, hturn, hnot, hout⟩ := h.ledger
  refine ⟨h.next, h.pos, fun t ht => ?_, ⟨pre.copied, hcopied _ _ hpre, ?_⟩,
    ⟨ss.copied, hcopied _ _ hss, hturn, hnot, hout⟩, fun x hx => ?_⟩
  · rcases hturns t ht with ht | rfl | rfl
    · exact h.turns t ht
    · exact Nat.zero_le _
    · have hpos := h.pos
      show 1 ≤ n.toNat + 1
      omega
  · rw [h.clone_id hc]
    exact hpreId
  · cases hl : c.signedStateForTurnNum.lookup (n + 1) with
    | some y =>
      rw [hcopied _ _ hl, Option.some.injEq] at hx
      subst hx
      exact h.final y hl
    | none =>
      -- the copy has no record that the channel did not have, apart from the setup turns
      have hnext := h.next
      have hpos := h.pos
      rcases hturns (n + 1) (Finmap.mem_of_lookup_eq_some hx) with ht | ht | ht
      · exact absurd ht (Finmap.lookup_eq_none.1 hl)
      · rw [ht] at hnext
        have h0 : preFundTurnNum.toNat = 0 := rfl
        omega
      · rw [ht] at hnext
        have h1 : postFundTurnNum.toNat = 1 := rfl
        omega

theorem store (h : Closing cr good n c) {ss : SignedState} (hturn : ss.state.turnNum = n + 1)
    (hfinal : ss.state.isFinal = true) (hgood : good ss.state.outcome) :
    Closing cr good n (c.store (n + 1) ss) := by
  have hnext := h.next
  have hpos := h.pos
  have hne : n ≠ n + 1 := fun e => by
    rw [← e] at hnext
    omega
  have hne0 : preFundTurnNum ≠ n + 1 := fun e => by
    rw [← e] at hnext
    have h0 : preFundTurnNum.toNat = 0 := rfl
    omega
  have hkeep : ∀ t, t ≠ n + 1 → (c.store (n + 1) ss).signedStateForTurnNum.lookup t =
      c.signedStateForTurnNum.lookup t := fun t ht => Finmap.lookup_insert_of_ne _ ht
  refine ⟨h.next, h.pos, fun t ht => ?_, ?_, ?_, fun x hx => ?_⟩
  · rcases Finmap.mem_insert.1 ht with rfl | ht
    · omega
    · exact h.turns t ht
  · rw [hkeep _ hne0]
    exact h.pre
  · rw [hkeep _ hne]
    exact h.ledger
  · rcases Channel.lookup_store hx with ⟨-, rfl⟩ | ⟨ht, -⟩
    · exact ⟨hturn, hfinal, hgood⟩
    · exact absurd rfl ht

/-- **adding a final state keeps the channel closing**: a record that exists keeps its state, and a
new one has the ledger's outcome by assumption -/
theorem addSignedState (h : Closing cr good n c) {ss : SignedState}
    (hturn : ss.state.turnNum = n + 1) (hfinal : ss.state.isFinal = true)
    (hfresh : ss.state.channelId cr = .ok c.id →
      c.signedStateForTurnNum.lookup (n + 1) = none → good ss.state.outcome) :
    Closing cr good n ((Channel.addSignedState cr ss).after c) := by
  rcases Channel.addSignedState_cases cr ss c with hsame | ⟨ss', hid, hr, hrun⟩
  · rwa [hsame]
  · have hstored : Closing cr good n (c.store ss.state.turnNum ss') := by
      rw [hturn]
      cases hr with
      | fresh hnone =>
        rw [hturn] at hnone
        exact h.store hturn hfinal (hfresh hid hnone)
      | @merged existing hsome =>
        rw [hturn] at hsome
        obtain ⟨ht, hf, ho⟩ := h.final existing hsome
        have hstate := SignedState.merge_state cr existing ss
        rw [← hstate] at ht hf ho
        exact h.store ht hf ho
    rcases hrun with hrun | ⟨-, -, hrun⟩
    · rwa [hrun]
    · rw [hrun]
      exact hstored.congr rfl rfl

theorem signAndAddState (h : Closing cr good n c) {s : State} (sk : Bytes)
    (hturn : s.turnNum = n + 1) (hfinal : s.isFinal = true) (hgood : good s.outcome) :
    Closing cr good n ((Channel.signAndAddState cr s sk).after c) := by
  rcases Channel.signAndAddState_cases cr s sk c with hsame | ⟨sig, ss, -, hadd, hrun⟩
  · rwa [hsame]
  · obtain rfl : ss.state = s := (SignedState.addSignature_ok hadd).1
    rw [hrun]
    exact h.addSignedState hturn hfinal fun _ _ => hgood

/-- **what `Crank` signs in such a channel** -/
theorem stateToSign (h : Closing cr good n c) {latest : SignedState} {i : Nat} {s : State}
    (hl : c.latestSignedState = .ok latest)
    (hs : DirectDefund.Objective.stateToSign latest i = .ok (some s)) :
    s.turnNum = n + 1 ∧ s.isFinal = true ∧ good s.outcome := by
  unfold DirectDefund.Objective.stateToSign at hs
  split at hs
  · obtain ⟨x, hx, hs⟩ := Res.bind_eq_ok.1 hs
    have hx := State.clone_eq hx
    subst hx
    cases hfin : c.signedStateForTurnNum.lookup (n + 1) with
    | some ss =>
      have hlatest : c.latestSignedState = .ok ss := by
        refine Channel.latestSignedState_eq hfin fun t ht => ?_
        rw [h.next]
        exact h.turns t ht
      rw [hlatest, Except.ok.injEq] at hl
      subst hl
      obtain ⟨hturn, hfinal, hout⟩ := h.final ss hfin
      rw [if_pos hfinal] at hs
      cases hs
      exact ⟨hturn, hfinal, hout⟩
    | none =>
      obtain ⟨ss, hss, hturn, hnot, hout⟩ := h.ledger
      have hlatest : c.latestSignedState = .ok ss := by
        refine Channel.latestSignedState_eq hss fun t ht => ?_
        have hle := h.turns t ht
        have hne : t.toNat ≠ n.toNat + 1 := fun e => by
          rw [← h.next] at e
          rw [UInt64.toNat_inj.1 e] at ht
          exact Finmap.lookup_eq_none.1 hfin ht
        omega
      rw [hlatest, Except.ok.injEq] at hl
      subst hl
      rw [if_neg (by simp [hnot])] at hs
      cases hs
      refine ⟨?_, rfl, hout⟩
      show ss.state.turnNum + 1 = n + 1
      rw [hturn]
  · cases hs

end Closing

/-! ## objectives -/

namespace DirectDefund
namespace Objective
variable {cr : Crypto} {good : Exit → Prop} {n : UInt64} {o o' : Objective}

theorem clone_ok (h : o.clone cr = .ok o') :
    ∃ d, o.c.clone cr = .ok d ∧ o' = { o with c := d } := by
  obtain ⟨d, hd, h⟩ := Res.bind_eq_ok.1 h
  cases h
  exact ⟨d, hd, rfl⟩

def Closes (cr : Crypto) (good : Exit → Prop) (n : UInt64) (o : Objective) : Prop :=
  Closing cr good n o.c ∧ o.finalTurnNum = n + 1

theorem Closes.clone (h : Closes cr good n o) (hc : o.clone cr = .ok o') : Closes cr good n o' := by
  obtain ⟨d, hd, rfl⟩ := clone_ok hc
  exact ⟨h.1.clone hd, h.2⟩

/-- the event passes the checks of `Update`, and its state is for a turn without a record -/
def Accepts (cr : Crypto) (o : Objective) (event : ObjectiveEvent) : Prop :=
  o.id = event.objectiveId ∧ event.signedState.signatures.length ≠ 0 ∧
  event.signedState.state.isFinal = true ∧ o.finalTurnNum = event.signedState.state.turnNum ∧
  event.signedState.state.channelId cr = .ok o.c.id ∧
  o.c.signedStateForTurnNum.lookup o.finalTurnNum = none

theorem Closes.update (h : Closes cr good n o) {event : ObjectiveEvent}
    (hgood : Accepts cr o event → good event.signedState.state.outcome)
    (hu : o.update cr event = .ok o') : Closes cr good n o' := by
  obtain ⟨hid, hu⟩ := failIf_bind_eq_ok.1 hu
  obtain ⟨hsigs, hu⟩ := failIf_bind_eq_ok.1 hu
  obtain ⟨hfinal, hu⟩ := failIf_bind_eq_ok.1 hu
  obtain ⟨hturn, hu⟩ := failIf_bind_eq_ok.1 hu
  obtain ⟨u, hclone, hu⟩ := Res.bind_eq_ok.1 hu
  obtain ⟨c, hadd, hend⟩ := Res.bind_eq_ok.1 hu
  cases hend
  rw [not_ne_iff] at hid hturn
  rw [Bool.not_eq_false] at hfinal
  obtain ⟨d, hd, rfl⟩ := clone_ok hclone
  have hevent : event.signedState.state.turnNum = n + 1 := hturn.symm.trans h.2
  refine ⟨?_, h.2⟩
  rw [← Meth.exec_eq_ok hadd]
  refine (h.1.clone hd).addSignedState hevent hfinal fun hchannel hnone => ?_
  rw [h.1.clone_id hd] at hchannel
  refine hgood ⟨hid, hsigs, hfinal, hturn, hchannel, ?_⟩
  rw [h.2]
  cases hl : o.c.signedStateForTurnNum.lookup (n + 1) with
  | none => rfl
  | some ss =>
    obtain ⟨-, -, -, -, -, hcopied, -⟩ := Channel.clone_ok hd
    rw [hcopied _ _ hl] at hnone
    cases hnone

theorem Closes.updateWithChainEvent (h : Closes cr good n o) {event : ChainEvent}
    {err : Option Error} (hu : o.updateWithChainEvent cr event = .ok (o', err)) :
    Closes cr good n o' := by
  obtain ⟨u, hclone, hu⟩ := Res.bind_eq_ok.1 hu
  have hc := h.clone hclone
  cases event with
  | deposited id block asset amount held =>
    cases hu
    exact hc
  | allocationUpdated id block asset amount =>
    cases hu
    exact ⟨hc.1.congr rfl rfl, hc.2⟩
  | concluded id block =>
    cases hu
    exact hc

/-! ## cranking -/

/-- `Crank` signs the state `s` -/
def Signs (cr : Crypto) (o : Objective) (s : State) : Prop :=
  ∃ updated latest, o.clone cr = .ok updated ∧ updated.status = .approved ∧
    updated.c.latestSignedState = .ok latest ∧
    stateToSign latest updated.c.myIndex = .ok (some s)

theorem signs_of_eval {s : State}
    (h : (do let updated ← o.clone cr
             let latest ← updated.c.latestSignedState
             let s ← stateToSign latest updated.c.myIndex
             .ok (updated.status, s)) = .ok (.approved, some s)) : Signs cr o s := by
  obtain ⟨u, hclone, h⟩ := Res.bind_eq_ok.1 h
  obtain ⟨latest, hlatest, h⟩ := Res.bind_eq_ok.1 h
  obtain ⟨x, hx, hend⟩ := Res.bind_eq_ok.1 h
  obtain ⟨hstatus, rfl⟩ := Prod.ext_iff.1 (Except.ok.inj hend)
  exact ⟨u, latest, hclone, hstatus, hlatest, hx⟩

theorem Closes.signs (h : Closes cr good n o) {s : State} (hs : Signs cr o s) :
    s.turnNum = n + 1 ∧ s.isFinal = true ∧ good s.outcome := by
  obtain ⟨u, latest, hclone, -, hlatest, hsign⟩ := hs
  exact (h.clone hclone).1.stateToSign hlatest hsign

theorem crankWithdraw_ok {t : UInt64} {se : SideEffects} {r : Cranked}
    (h : o.crankWithdraw t se = .ok r) : r.updated.c = o.c ∧
      r.updated.finalTurnNum = o.finalTurnNum ∧
      r.sideEffects.messagesToSend = se.messagesToSend := by
  unfold crankWithdraw at h
  cases hs : o.c.latestSupportedState with
  | error e =>
    rw [hs] at h
    cases e with
    | panic r => cases h
    | err e =>
      cases h
      exact ⟨rfl, rfl, rfl⟩
  | ok s =>
    simp only [hs] at h
    split at h
    · cases h
      exact ⟨rfl, rfl, rfl⟩
    · split at h
      · split at h <;> cases h <;> exact ⟨rfl, rfl, rfl⟩
      · cases h
        exact ⟨rfl, rfl, rfl⟩

/-- **what `Crank` does to the channel and sends**: the copy, in which a state may have been signed;
the messages carry that state -/
theorem crank_cases {sk : Bytes} {r : Cranked} (h : o.crank cr sk = .ok r) :
    ∃ u, o.clone cr = .ok u ∧ r.updated.finalTurnNum = u.finalTurnNum ∧
      ((r.updated.c = u.c ∧ r.sideEffects.messagesToSend = []) ∨
        ∃ s, Signs cr o s ∧ r.updated.c = (Channel.signAndAddState cr s sk).after u.c ∧
          ∀ m ∈ r.sideEffects.messagesToSend, ∀ p ∈ m.payloads, p.signedState.state = s) := by
  obtain ⟨u, hclone, h⟩ := Res.bind_eq_ok.1 h
  refine ⟨u, hclone, ?_⟩
  split at h
  · cases h
    exact ⟨rfl, .inl ⟨rfl, rfl⟩⟩
  · next happroved =>
    rw [not_ne_iff] at happroved
    cases hlatest : u.c.latestSignedState with
    | error e =>
      simp only [hlatest] at h
      cases h
      exact ⟨rfl, .inl ⟨rfl, rfl⟩⟩
    | ok latest =>
      simp only [hlatest] at h
      obtain ⟨next, hnext, h⟩ := Res.bind_eq_ok.1 h
      cases next with
      | none =>
        obtain ⟨hc, hf, hm⟩ := crankWithdraw_ok h
        exact ⟨hf, .inl ⟨hc, hm⟩⟩
      | some s =>
        have hsigns : Signs cr o s := ⟨u, latest, hclone, happroved, hlatest, hnext⟩
        cases hrun : Channel.signAndAddState cr s sk u.c with
        | error e c =>
          simp only [hrun] at h
          cases e with
          | panic reason => cases h
          | err e =>
            cases h
            refine ⟨rfl, .inr ⟨s, hsigns, (Meth.after_error hrun).symm, ?_⟩⟩
            intro m hm
            exact absurd hm List.not_mem_nil
        | ok ss c =>
          simp only [hrun] at h
          obtain ⟨hc, hf, hm⟩ := crankWithdraw_ok h
          refine ⟨hf, .inr ⟨s, hsigns, ?_, ?_⟩⟩
          · rw [hc]
            exact (Meth.after_ok hrun).symm
          · intro m hmem p hp
            rw [hm] at hmem
            rw [payload_of_createSignedStateMessages hmem hp]
            exact Channel.signAndAddState_ok hrun

theorem Closes.crank (h : Closes cr good n o) {sk : Bytes} {r : Cranked}
    (hr : o.crank cr sk = .ok r) : Closes cr good n r.updated := by
  obtain ⟨u, hclone, hfinal, hcase⟩ := crank_cases hr
  have hu := h.clone hclone
  refine ⟨?_, hfinal.trans hu.2⟩
  rcases hcase with ⟨hc, -⟩ | ⟨s, hs, hc, -⟩
  · rw [hc]
    exact hu.1
  · obtain ⟨hturn, hisFinal, hout⟩ := h.signs hs
    rw [hc]
    exact hu.1.signAndAddState sk hturn hisFinal hout

end Objective

/-! ## a new objective -/

section building
variable {cr : Crypto} {cc : ConsensusChannel} {c : Channel}

theorem supportedSignedState_state {ss : SignedState} (h : cc.supportedSignedState cr = .ok ss) :
    ss.state = cc.current.vars.asState cc.fp := by
  obtain ⟨ss₁, h₁, h₂⟩ := Res.bind_eq_ok.1 h
  rw [SignedState.tryAddSignature_state h₂, SignedState.tryAddSignature_state h₁]
  rfl

/-- the channel made from a ledger has the two setup records and a complete record of the ledger's
state, if it has a supported state at all -/
theorem createChannel_supported {s : State}
    (h : createChannelFromConsensusChannel cr cc = .ok c) (hs : c.latestSupportedState = .ok s) :
    s = cc.current.vars.asState cc.fp ∧ s.turnNum ≠ maxTurnNum ∧ s.channelId cr = .ok c.id ∧
    ∃ ss c₀, ss.state = s ∧ Channel.new cr s cc.myIndex = .ok c₀ ∧
      c.signedStateForTurnNum = c₀.signedStateForTurnNum.insert s.turnNum ss := by
  obtain ⟨supported, hsup, h⟩ := Res.bind_eq_ok.1 h
  have hstate := supportedSignedState_state hsup
  obtain ⟨c₀, hnew, hadd⟩ := Res.bind_eq_ok.1 h
  rw [hstate] at hnew
  have hnew : Channel.new cr (cc.current.vars.asState cc.fp) cc.myIndex = .ok c₀ := hnew
  obtain ⟨hid, -, -, hmax, -⟩ := Channel.new_ok hnew
  have hafter := Meth.exec_eq_ok hadd
  have hnone : ∀ d : Channel, d.latestSupportedStateTurnNum = maxTurnNum →
      d.latestSupportedState ≠ .ok s := by
    intro d hd hok
    rw [Channel.latestSupportedState, if_pos hd] at hok
    cases hok
  rcases Channel.addSignedState_cases cr supported { c₀ with onChainFunding := cc.onChainFunding.clone }
    with hsame | ⟨ss, -, -, hstored | ⟨hss, -, hrun⟩⟩
  · rw [← hafter, hsame] at hs
    exact absurd hs (hnone _ hmax)
  · rw [← hafter, hstored] at hs
    exact absurd hs (hnone _ hmax)
  · have hc : c = _ := hafter.symm.trans hrun
    have hturn : c.latestSupportedStateTurnNum = (cc.current.vars.asState cc.fp).turnNum := by
      rw [hc, hstate]
    rw [hstate] at hc hss
    have hlookup : c.signedState c.latestSupportedStateTurnNum = ss := by
      rw [hturn, hc]
      exact Channel.signedState_store _ _ _
    unfold Channel.latestSupportedState at hs
    split at hs
    · cases hs
    · next hne =>
      rw [hlookup, hss] at hs
      cases hs
      rw [hturn] at hne
      refine ⟨rfl, hne, ?_, ss, c₀, hss, hnew, ?_⟩
      · rw [hid, hc]
        rfl
      · rw [hc]
        rfl

theorem lookup_created {s : State} {ss : SignedState} {i : Nat} {c₀ : Channel}
    (hnew : Channel.new cr s i = .ok c₀)
    (hstates : c.signedStateForTurnNum = c₀.signedStateForTurnNum.insert s.turnNum ss)
    {t : UInt64} {x : SignedState} (hx : c.signedStateForTurnNum.lookup t = some x) :
    (t = s.turnNum ∧ x = ss) ∨ t = preFundTurnNum ∨ t = postFundTurnNum := by
  by_cases ht : t = s.turnNum
  · rw [hstates, ht, Finmap.lookup_insert] at hx
    exact .inl ⟨ht, (Option.some.inj hx).symm⟩
  · rw [hstates, Finmap.lookup_insert_of_ne _ ht] at hx
    rcases Channel.lookup_new hnew hx with ⟨ht, -⟩ | ⟨ht, -⟩
    · exact .inr (.inl ht)
    · exact .inr (.inr ht)

/-- at turn 0 the unsigned postfund record would be the latest one, and it is not the supported one -/
theorem consensus_turnNum_pos {s : State} {ss : SignedState} {i : Nat} {c₀ : Channel}
    (hs : c.latestSupportedState = .ok s) (hnot : s.isFinal = false)
    (hnew : Channel.new cr s i = .ok c₀)
    (hstates : c.signedStateForTurnNum = c₀.signedStateForTurnNum.insert s.turnNum ss)
    (h : isInConsensusOrFinalState c = .ok true) : 1 ≤ s.turnNum.toNat := by
  by_contra hlt
  have hzero : s.turnNum = preFundTurnNum := UInt64.toNat_inj.1 (by simp at hlt; simp [hlt]; rfl)
  obtain ⟨-, -, -, -, hnewStates⟩ := Channel.new_ok hnew
  have hpost : c.signedStateForTurnNum.lookup postFundTurnNum =
      some (newSignedState { s with appData := [], turnNum := postFundTurnNum }) := by
    have hne : postFundTurnNum ≠ s.turnNum := by rw [hzero]; decide
    rw [hstates, Finmap.lookup_insert_of_ne _ hne, hnewStates, Finmap.lookup_insert]
  have hlatest := Channel.latestSignedState_eq hpost fun t ht => by
    obtain ⟨x, hx⟩ := Finmap.mem_iff.1 ht
    rcases lookup_created hnew hstates hx with ⟨rfl, -⟩ | rfl | rfl
    · rw [hzero]; decide
    · decide
    · exact le_refl _
  have hequal : State.equal { s with appData := [], turnNum := postFundTurnNum } s = .ok true := by
    simpa [isInConsensusOrFinalState, hlatest, hs, newSignedState, hnot] using h
  have hturn : postFundTurnNum = s.turnNum := congrArg State.turnNum (State.equal_eq hequal)
  rw [hzero] at hturn
  exact absurd hturn (by decide)

theorem newObjective_ok {id : Destination} {preApprove : Bool}
    {getConsensusChannel : Destination → Res ConsensusChannel} {o : Objective}
    (h : newObjective cr id preApprove getConsensusChannel = .ok o) :
    ∃ cc c s, getConsensusChannel id = .ok cc ∧
      createChannelFromConsensusChannel cr cc = .ok c ∧ isInConsensusOrFinalState c = .ok true ∧
      c.clone cr = .ok o.c ∧ c.latestSupportedState = .ok s ∧
      o.finalTurnNum = if s.isFinal then s.turnNum else s.turnNum + 1 := by
  obtain ⟨cc, hcc, h⟩ := Res.bind_eq_ok.1 h
  rw [Res.wrap_eq_ok] at hcc
  obtain ⟨-, h⟩ := failIf_bind_eq_ok.1 h
  obtain ⟨c, hc, h⟩ := Res.bind_eq_ok.1 h
  rw [Res.wrap_eq_ok] at hc
  obtain ⟨consensus, hconsensus, h⟩ := Res.bind_eq_ok.1 h
  obtain ⟨htrue, h⟩ := failIf_bind_eq_ok.1 h
  rw [Bool.not_eq_false] at htrue
  obtain ⟨d, hd, h⟩ := Res.bind_eq_ok.1 h
  obtain ⟨s, hs, hend⟩ := Res.bind_eq_ok.1 h
  rw [htrue] at hconsensus
  cases hend
  exact ⟨cc, c, s, hcc, hc, hconsensus, hd, hs, rfl⟩

/-- **a new objective closes the current state of the ledger** -/
theorem newObjective_closes {good : Exit → Prop} {id : Destination} {preApprove : Bool}
    {getConsensusChannel : Destination → Res ConsensusChannel} {o : Objective}
    (hget : getConsensusChannel id = .ok cc)
    (h : newObjective cr id preApprove getConsensusChannel = .ok o)
    (hgood : good cc.current.vars.outcome.asOutcome) :
    o.Closes cr good cc.current.vars.turnNum := by
  obtain ⟨cc', c, s, hcc, hc, hconsensus, hd, hs, hfinal⟩ := newObjective_ok h
  rw [hget, Except.ok.injEq] at hcc
  subst hcc
  obtain ⟨hstate, hmax, hid, ss, c₀, hss, hnew, hstates⟩ := createChannel_supported hc hs
  have hnot : s.isFinal = false := by rw [hstate]; rfl
  have hturn : s.turnNum = cc.current.vars.turnNum := by rw [hstate]; rfl
  have hout : s.outcome = cc.current.vars.outcome.asOutcome := by rw [hstate]; rfl
  have hpos := consensus_turnNum_pos hs hnot hnew hstates hconsensus
  have hnext : (s.turnNum + 1).toNat = s.turnNum.toNat + 1 := by
    have hlt := s.turnNum.toNat_lt
    have hne : s.turnNum.toNat ≠ 18446744073709551615 := fun e => hmax (UInt64.toNat_inj.1 e)
    rw [UInt64.toNat_add]
    show (s.turnNum.toNat + 1) % 2 ^ 64 = _
    omega
  have hself : c.signedStateForTurnNum.lookup s.turnNum = some ss := by
    rw [hstates, Finmap.lookup_insert]
  obtain ⟨-, -, -, -, hnewStates⟩ := Channel.new_ok hnew
  have hpre : c.signedStateForTurnNum.lookup preFundTurnNum = some (newSignedState s) := by
    have hne : preFundTurnNum ≠ s.turnNum := fun e => by
      rw [← e] at hpos
      exact absurd hpos (by decide)
    rw [hstates, Finmap.lookup_insert_of_ne _ hne, hnewStates,
      Finmap.lookup_insert_of_ne _ (by decide), Finmap.lookup_insert]
  have hclosing : Closing cr good s.turnNum c := by
    refine ⟨hnext, hpos, ?_, ⟨_, hpre, hid⟩, ⟨ss, hself, by rw [hss], by rw [hss, hnot],
      by rw [hss, hout]; exact hgood⟩, ?_⟩
    · intro t ht
      obtain ⟨x, hx⟩ := Finmap.mem_iff.1 ht
      rcases lookup_created hnew hstates hx with ⟨rfl, -⟩ | rfl | rfl
      · omega
      · exact Nat.zero_le _
      · show 1 ≤ s.turnNum.toNat + 1
        omega
    · -- there is no record at the final turn yet
      intro x hx
      rcases lookup_created hnew hstates hx with ⟨ht, -⟩ | ht | ht
      · rw [ht] at hnext
        omega
      · rw [ht] at hnext
        have h0 : preFundTurnNum.toNat = 0 := rfl
        omega
      · rw [ht] at hnext
        have h1 : postFundTurnNum.toNat = 1 := rfl
        omega
  rw [← hturn]
  refine ⟨hclosing.clone hd, ?_⟩
  rw [hfinal, if_neg (by simp [hnot])]

theorem constructObjectiveFromState_ok {s : State} {preapprove : Bool}
    {getConsensusChannel : Destination → Res ConsensusChannel} {o : Objective}
    (h : constructObjectiveFromState cr s preapprove getConsensusChannel = .ok o) :
    ∃ id, s.channelId cr = .ok id ∧ newObjective cr id preapprove getConsensusChannel = .ok o := by
  obtain ⟨-, h⟩ := failIf_bind_eq_ok.1 h
  obtain ⟨-, -, h⟩ := Res.bind_eq_ok.1 h
  exact Res.bind_eq_ok.1 h

inductive Built (cr : Crypto) (cc : ConsensusChannel) (o : Objective) : Prop
  | request (id : Destination) (preApprove : Bool)
      (getConsensusChannel : Destination → Res ConsensusChannel)
      (hget : getConsensusChannel id = .ok cc)
      (hnew : newObjective cr id preApprove getConsensusChannel = .ok o)
  | fromState (s : State) (id : Destination) (preapprove : Bool)
      (getConsensusChannel : Destination → Res ConsensusChannel)
      (hid : s.channelId cr = .ok id) (hget : getConsensusChannel id = .ok cc)
      (hnew : constructObjectiveFromState cr s preapprove getConsensusChannel = .ok o)

theorem Built.newObjective {o : Objective} (h : Built cr cc o) :
    ∃ id preApprove getConsensusChannel, getConsensusChannel id = .ok cc ∧
      DirectDefund.newObjective cr id preApprove getConsensusChannel = .ok o := by
  cases h with
  | request id preApprove get hget hnew => exact ⟨id, preApprove, get, hget, hnew⟩
  | fromState s id preapprove get hid hget hnew =>
    obtain ⟨id', hid', hnew⟩ := constructObjectiveFromState_ok hnew
    rw [hid, Except.ok.injEq] at hid'
    subst hid'
    exact ⟨id, preapprove, get, hget, hnew⟩

end building

/-! ## runs -/

section runs
variable {cr : Crypto} {cc : ConsensusChannel} {o : Objective}
open Objective (Call Signs Accepts Closes)

/-- a state that `Update` would put on record has the outcome of the ledger's supported state -/
def KeepsOutcome (cr : Crypto) (cc : ConsensusChannel) (o : Objective) (call : Call) : Prop :=
  ∀ event, call = .update event → Accepts cr o event →
    ∀ ss, cc.supportedSignedState cr = .ok ss →
      event.signedState.state.outcome = ss.state.outcome

theorem closes_step {good : Exit → Prop} {n : UInt64} (o : Objective) (call : Call)
    (h : Closes cr good n o) (hcall : ∀ event, call = .update event → Accepts cr o event →
      good event.signedState.state.outcome) : Closes cr good n (call.step cr o) := by
  have hcopy : ∀ {u : Objective} {status : ObjectiveStatus}, o.clone cr = .ok u →
      Closes cr good n { u with status := status } := by
    intro u status hclone
    have hu := h.clone hclone
    exact ⟨hu.1, hu.2⟩
  cases call with
  | approve =>
    refine Res.getD_ind h fun o' hr => ?_
    obtain ⟨u, hclone, hend⟩ := Res.bind_eq_ok.1 hr
    cases hend
    exact hcopy hclone
  | reject =>
    refine Res.getD_ind h fun o' hr => ?_
    obtain ⟨u, hclone, hend⟩ := Res.bind_eq_ok.1 hr
    cases hend
    exact hcopy hclone
  | update event => exact Res.getD_ind h fun o' hr => h.update (hcall event rfl) hr
  | updateWithChainEvent event =>
    exact Res.map_getD_ind h fun r hr => h.updateWithChainEvent hr
  | crank sk => exact Res.map_getD_ind h fun r hr => h.crank hr

/-- **a client signs only the ledger's own outcome when it closes the ledger**, in runs in which the
states that go on record have that outcome -/
theorem closing_outcome {calls : List Call} {s : State} (hb : Built cr cc o)
    (hrun : Along (Call.step cr) (KeepsOutcome cr cc) o calls)
    (hs : Signs cr (run (Call.step cr) o calls) s) :
    s.isFinal = true ∧ s.turnNum = (run (Call.step cr) o calls).finalTurnNum ∧
      ∃ ss, cc.supportedSignedState cr = .ok ss ∧ s.outcome = ss.state.outcome := by
  obtain ⟨id, preApprove, get, hget, hnew⟩ := hb.newObjective
  obtain ⟨cc', c, _, hcc, hc, -⟩ := newObjective_ok hnew
  rw [hget, Except.ok.injEq] at hcc
  subst hcc
  obtain ⟨ss, hss, -⟩ := Res.bind_eq_ok.1 hc
  have hout : cc.current.vars.outcome.asOutcome = ss.state.outcome := by
    rw [supportedSignedState_state hss]
    rfl
  have hclose : Closes cr (· = ss.state.outcome) cc.current.vars.turnNum o :=
    newObjective_closes hget hnew hout
  have hlast := hrun.inv (fun o call hc hk => closes_step o call hc fun event he ha =>
    hk event he ha ss hss) hclose
  obtain ⟨hturn, hfinal, hsame⟩ := hlast.signs hs
  exact ⟨hfinal, hturn.trans hlast.2.symm, ss, hss, hsame⟩

end runs
end DirectDefund

/-! ## a peer that moves first -/

namespace Sample

/-- the sample ledger at turn 1, as the follower holds it -/
def closingLedger : ConsensusChannel :=
  { ledger followerIndex with current := ⟨⟨1, outcome⟩, sig ⟨1, outcome⟩ 1, sig ⟨1, outcome⟩ 2⟩ }

def closingObjective : DirectDefund.Objective :=
  (DirectDefund.newObjective Crypto.plain ledgerId true fun _ => .ok closingLedger).toOption.getD
    ⟨.unapproved, channel, 0, false⟩

theorem closing_built : DirectDefund.Built Crypto.plain closingLedger closingObjective :=
  .request ledgerId true (fun _ => .ok closingLedger) rfl (by decide +kernel)

/-- a final state at turn 2 with the given exit, signed by the leader -/
def finalState (exit : Exit) : State :=
  { (⟨2, outcome⟩ : Vars).asState fp with isFinal := true, outcome := exit }

def finalEvent (exit : Exit) : ObjectiveEvent where
  objectiveId := closingObjective.id
  signedState := ⟨finalState exit, some ((∅ : SigMap).insert 0 (sigOn (finalState exit) 1))⟩
  signedProposal := SignedProposal.zero

/-- everything goes to the leader -/
def allToLeader : Exit := [⟨0, [], [⟨1, some 200, 0, []⟩]⟩]

theorem exists_supported : ∃ ss, closingLedger.supportedSignedState Crypto.plain = .ok ss :=
  ⟨(closingLedger.supportedSignedState Crypto.plain).toOption.getD SignedState.zero,
    by decide +kernel⟩

theorem signs_finalState {exit : Exit} (h : exit = outcome.asOutcome ∨ exit = allToLeader) :
    DirectDefund.Objective.Signs Crypto.plain
      (run (DirectDefund.Objective.Call.step Crypto.plain) closingObjective
        [.update (finalEvent exit)]) (finalState exit) := by
  rcases h with rfl | rfl
  · exact DirectDefund.Objective.signs_of_eval (by decide +kernel)
  · exact DirectDefund.Objective.signs_of_eval (by decide +kernel)

end Sample

namespace DirectDefund
open Objective (Call Signs)

theorem closing_outcome_countersigned :
    Signs Crypto.plain (run (Call.step Crypto.plain) Sample.closingObjective
      [.update (Sample.finalEvent Sample.outcome.asOutcome)])
      (Sample.finalState Sample.outcome.asOutcome) ∧
    ∃ ss, Sample.closingLedger.supportedSignedState Crypto.plain = .ok ss ∧
      (Sample.finalState Sample.outcome.asOutcome).outcome = ss.state.outcome := by
  have hrun : Along (Call.step Crypto.plain) (KeepsOutcome Crypto.plain Sample.closingLedger)
      Sample.closingObjective [.update (Sample.finalEvent Sample.outcome.asOutcome)] := by
    refine ⟨fun event e _ ss hss => ?_, trivial⟩
    rw [← Call.update.inj e, supportedSignedState_state hss]
    rfl
  have hs := Sample.signs_finalState (.inl rfl)
  exact ⟨hs, (closing_outcome Sample.closing_built hrun hs).2.2⟩

/-- the peer's final state gives everything to the peer, and it is signed -/
theorem foreign_outcome_signed :
    ∃ o s ss, Built Crypto.plain Sample.closingLedger o ∧
      Signs Crypto.plain (run (Call.step Crypto.plain) o
        [.update (Sample.finalEvent Sample.allToLeader)]) s ∧
      Sample.closingLedger.supportedSignedState Crypto.plain = .ok ss ∧
      s.outcome ≠ ss.state.outcome ∧
      s.outcome.totalAllocatedFor 1 = .ok ((∅ : Funds).insert 0 200) := by
  obtain ⟨ss, hss⟩ := Sample.exists_supported
  refine ⟨Sample.closingObjective, Sample.finalState Sample.allToLeader, ss,
    Sample.closing_built, Sample.signs_finalState (.inr rfl), hss, ?_, by decide +kernel⟩
  rw [supportedSignedState_state hss]
  decide +kernel

end DirectDefund

end Nitro
