import Nitro.Protocols.CrankTwice
import Nitro.Protocols.Authorised
import Nitro.Consensus.Invariant

/-!
# Cranking twice: the virtual protocols

In every ledger a `Crank` makes one move: a leader proposes, which leaves the proposal in its queue, and
a follower countersigns, which leaves the guarantee in the consensus or takes it out.  Either way the
ledger rests afterwards.

* `VirtualDefund.Rests`, `VirtualFund.Rests`    ledgers in which there is nothing to do;
* `VirtualDefund.Objective.crank_again`         for removing guarantees;
* `VirtualFund.Objective.crank_again`           for adding them, in one asset.
-/

set_option linter.unusedSectionVars false

namespace Nitro
open Go FinMap Runs

/-! ## copies of ledgers -/

theorem Proposal.clone_clone {p q : Proposal} (h : p.clone = .ok q) : q.clone = .ok q := by
  obtain ⟨a, ha, h⟩ := Res.bind_eq_ok.1 h
  cases h
  have hadd : a.clone = .ok a := by
    unfold Add.clone at ha
    split at ha
    · cases ha
      rfl
    · obtain ⟨g, hg, ha⟩ := Res.bind_eq_ok.1 ha
      obtain ⟨g', -, hg⟩ := Res.bind_eq_ok.1 hg
      cases hg
      cases ha
      rfl
  have hremove : p.toRemove.clone.clone = p.toRemove.clone := by
    unfold Remove.clone
    cases p.toRemove.leftAmount with
    | none => rfl
    | some left => rfl
  unfold Proposal.clone
  simp only [hadd, hremove, Res.ok_bind]

theorem SignedProposal.clone_clone {sp sp' : SignedProposal} (h : sp.clone = .ok sp') :
    sp'.clone = .ok sp' := by
  obtain ⟨p, hp, h⟩ := Res.bind_eq_ok.1 h
  cases h
  unfold SignedProposal.clone
  rw [Proposal.clone_clone hp]
  rfl

theorem cloneQueue_clone {q q' : List SignedProposal} (h : q.mapM SignedProposal.clone = .ok q') :
    q'.mapM SignedProposal.clone = .ok q' := by
  induction q generalizing q' with
  | nil =>
    cases h
    rfl
  | cons sp q ih =>
    rw [List.mapM_cons] at h
    obtain ⟨sp', hsp, h⟩ := Res.bind_eq_ok.1 h
    obtain ⟨rest, hrest, h⟩ := Res.bind_eq_ok.1 h
    cases h
    rw [List.mapM_cons, SignedProposal.clone_clone hsp, ih hrest]
    rfl

namespace ConsensusChannel
variable {cr : Crypto} {c d : ConsensusChannel} {p : Proposal} {sk : Bytes} {sp : SignedProposal}

theorem clone_self_iff : c.clone = .ok c ↔
    c.proposalQueue.mapM SignedProposal.clone = .ok c.proposalQueue ∧ c.fp.clone = .ok c.fp := by
  constructor
  · intro h
    obtain ⟨q, hq, h⟩ := Res.bind_eq_ok.1 h
    obtain ⟨fp, hfp, h⟩ := Res.bind_eq_ok.1 h
    have h := Except.ok.inj h
    refine ⟨?_, ?_⟩
    · rw [hq, ← h]
    · rw [hfp, ← h]
  · rintro ⟨hq, hfp⟩
    unfold clone
    rw [hq, hfp, Funds.clone_eq]
    rfl

theorem clone_clone (h : c.clone = .ok d) : d.clone = .ok d := by
  obtain ⟨q, hq, h⟩ := Res.bind_eq_ok.1 h
  obtain ⟨fp, hfp, h⟩ := Res.bind_eq_ok.1 h
  cases h
  refine clone_self_iff.2 ⟨cloneQueue_clone hq, ?_⟩
  show fp.clone = .ok fp
  have hfp' := FixedPart.clone_eq hfp
  subst hfp'
  exact hfp

theorem clone_enqueue (h : c.clone = .ok c) (hsp : sp.proposal.clone = .ok sp.proposal) :
    ({ c with proposalQueue := c.proposalQueue ++ [sp] } : ConsensusChannel).clone =
      .ok { c with proposalQueue := c.proposalQueue ++ [sp] } := by
  obtain ⟨hq, hfp⟩ := clone_self_iff.1 h
  refine clone_self_iff.2 ⟨?_, hfp⟩
  have hself : sp.clone = .ok sp := by
    unfold SignedProposal.clone
    rw [hsp]
    rfl
  show (c.proposalQueue ++ [sp]).mapM SignedProposal.clone = _
  rw [List.mapM_append, hq, List.mapM_cons, hself]
  rfl

theorem clone_dequeue {sv : SignedVars} {head : SignedProposal} {rest : List SignedProposal}
    (h : c.clone = .ok c) (hqueue : c.proposalQueue = head :: rest) :
    ({ c with current := sv, proposalQueue := rest } : ConsensusChannel).clone =
      .ok { c with current := sv, proposalQueue := rest } := by
  obtain ⟨hq, hfp⟩ := clone_self_iff.1 h
  refine clone_self_iff.2 ⟨?_, hfp⟩
  rw [hqueue, List.mapM_cons] at hq
  obtain ⟨head', -, hq⟩ := Res.bind_eq_ok.1 hq
  obtain ⟨rest', hrest, hq⟩ := Res.bind_eq_ok.1 hq
  have hq := (List.cons.inj (Except.ok.inj hq)).2
  rw [hq] at hrest
  exact hrest

theorem propose_queue (h : propose cr p sk c = .ok sp d) :
    d = { c with proposalQueue := c.proposalQueue ++ [sp] } ∧ sp.proposal = p ∧
      ∃ latest latest', c.latestProposedVars = .ok latest ∧ latest.Step p latest' := by
  rcases propose_cases cr p sk c with ⟨sp', hsp, hrun⟩ | ⟨e, -, hrun⟩
  · rw [hrun] at h
    cases h
    obtain ⟨latest, latest', _, -, -, hlatest, hstep, -, -, -, hp, -⟩ := signedProposal_ok hsp
    exact ⟨rfl, hp, latest, latest', hlatest, hstep⟩
  · rw [hrun] at h
    cases h

theorem signNextProposal_consensus (h : signNextProposal cr p sk c = .ok sp d) :
    ∃ sv head rest, d = { c with current := sv, proposalQueue := rest } ∧
      c.proposalQueue = head :: rest ∧ c.myIndex = followerIndex ∧ c.current.vars.Step p sv.vars := by
  rcases signNextProposal_cases cr p sk c with ⟨sv, rest, sp', hn, hrun⟩ | ⟨e, -, hrun⟩
  · rw [hrun] at h
    cases h
    obtain ⟨head, v', _, hrole, hqueue, hequal, hstep, -, -, -, hsv, -⟩ := nextConsensus_ok hn
    obtain rfl := Proposal.equal_eq hequal
    refine ⟨sv, head, rest, rfl, hqueue, hrole, ?_⟩
    rw [hsv]
    exact hstep
  · rw [hrun] at h
    cases h

end ConsensusChannel

theorem Vars.Step.removed {v v' : Vars} {id target : Destination} {left : BigInt}
    (h : v.Step (newRemoveProposal id target left) v') : v'.outcome.includesTarget target = false := by
  generalize hp : newRemoveProposal id target left = p at h
  cases h with
  | add => cases hp
  | @remove id' target' g left' found hle =>
    cases hp
    show decide (target ∈ v.outcome.guarantees.erase target) = false
    simp

theorem SideEffects.merge_empty (se : SideEffects) : se.merge .empty = se := by
  simp [SideEffects.merge, SideEffects.empty]

/-! ## virtual defunding -/

namespace VirtualDefund

/-- there is nothing to do in this ledger: the guarantee is gone, the leader has proposed to remove it,
or the follower has not been asked to -/
def Rests (vId : Destination) (ledger : ConsensusChannel) : Prop :=
  ledger.includesTarget vId = false ∨
    (ledger.isLeader = true ∧ ledger.hasRemovalBeenProposed vId = true) ∨
    (ledger.isLeader = false ∧ ledger.hasRemovalBeenProposedNext vId = false)

namespace Objective
variable {cr : Crypto} {sk : Bytes} {side : Side} {ledger : ConsensusChannel} {k k' : Work}
  {vId : Destination} {se : SideEffects} {o u : Objective}

theorem ledgerProposal_eq {p : Proposal} (h : o.ledgerProposal cr ledger = .ok p)
    (hv : o.vId cr = .ok vId) : ∃ left, p = newRemoveProposal ledger.id vId left := by
  obtain ⟨final, -, h⟩ := Res.bind_eq_ok.1 h
  obtain ⟨left, -, h⟩ := Res.bind_eq_ok.1 h
  obtain ⟨vId', hv', h⟩ := Res.bind_eq_ok.1 h
  rw [hv, Except.ok.injEq] at hv'
  subst hv'
  cases h
  exact ⟨left.amount, rfl⟩

/-- what one move in a ledger leaves behind: only that ledger is another one, and it rests -/
def Moved (vId : Destination) (side : Side) (k k' : Work) : Prop :=
  ∃ next, k'.updated = k.updated.setLedger side next ∧ Rests vId next

theorem proposeRemoval_moved (hv : k.updated.vId cr = .ok vId) (hlead : ledger.isLeader = true)
    (h : proposeRemoval cr sk side ledger k = .ok se k') : Moved vId side k k' := by
  rw [proposeRemoval, Meth.get_bind_eq_ok, Meth.lift_bind_eq_ok] at h
  obtain ⟨proposal, hproposal, h⟩ := h
  obtain ⟨left, rfl⟩ := ledgerProposal_eq hproposal hv
  cases hp : ConsensusChannel.propose cr (newRemoveProposal ledger.id vId left) sk ledger with
  | error e next =>
    simp only [hp] at h
    cases e <;> cases h
  | ok sp next =>
    simp only [hp] at h
    rw [Meth.modify_bind_eq_ok, Meth.modify_bind_eq_ok, Meth.lift_bind_eq_ok] at h
    obtain ⟨recipient, -, h⟩ := h
    cases h
    obtain ⟨rfl, hsp, -⟩ := ConsensusChannel.propose_queue hp
    refine ⟨_, rfl, .inr (.inl ⟨hlead, ?_⟩)⟩
    show (ledger.proposalQueue ++ [sp]).any _ = true
    rw [List.any_append]
    simp [hsp, newRemoveProposal, Proposal.type]

theorem acceptRemoval_moved (hv : k.updated.vId cr = .ok vId)
    (h : acceptRemoval cr sk side ledger k = .ok se k') : Moved vId side k k' := by
  rw [acceptRemoval, Meth.get_bind_eq_ok, Meth.lift_bind_eq_ok] at h
  obtain ⟨proposal, hproposal, h⟩ := h
  obtain ⟨left, rfl⟩ := ledgerProposal_eq hproposal hv
  cases hp : ConsensusChannel.signNextProposal cr (newRemoveProposal ledger.id vId left) sk
      ledger with
  | error e next =>
    simp only [hp] at h
    cases e <;> cases h
  | ok sp next =>
    simp only [hp] at h
    rw [Meth.modify_bind_eq_ok, Meth.modify_bind_eq_ok, Meth.lift_bind_eq_ok] at h
    obtain ⟨recipient, -, h⟩ := h
    cases h
    obtain ⟨sv, head, rest, rfl, -, -, hstep⟩ := ConsensusChannel.signNextProposal_consensus hp
    exact ⟨_, rfl, .inl hstep.removed⟩

theorem updateLedgerToRemoveGuarantee_moved (hv : k.updated.vId cr = .ok vId)
    (hl : k.updated.ledger side = some ledger)
    (h : updateLedgerToRemoveGuarantee cr sk side ledger k = .ok se k') : Moved vId side k k' := by
  have hstay : k.updated = k.updated.setLedger side ledger := by
    cases side with
    | left =>
      have hl : k.updated.toMyLeft = some ledger := hl
      show k.updated = { k.updated with toMyLeft := some ledger }
      rw [← hl]
    | right =>
      have hl : k.updated.toMyRight = some ledger := hl
      show k.updated = { k.updated with toMyRight := some ledger }
      rw [← hl]
  rw [updateLedgerToRemoveGuarantee, Meth.get_bind_eq_ok, Meth.lift_bind_eq_ok] at h
  obtain ⟨vId', hv', h⟩ := h
  rw [hv, Except.ok.injEq] at hv'
  subst hv'
  split at h
  · next hlead =>
    split at h
    · next hproposed =>
      cases h
      exact ⟨ledger, hstay, .inr (.inl ⟨hlead, hproposed⟩)⟩
    · exact proposeRemoval_moved hv hlead h
  · next hfollow =>
    split at h
    · exact acceptRemoval_moved hv h
    · next hnext =>
      cases h
      exact ⟨ledger, hstay, .inr (.inr ⟨Bool.eq_false_iff.2 hfollow, Bool.eq_false_iff.2 hnext⟩)⟩

/-- the ledger on a side, if there is one, rests -/
def SideRests (cr : Crypto) (side : Side) (u : Objective) : Prop :=
  ∀ ledger, u.ledger side = some ledger → ∃ vId, u.vId cr = .ok vId ∧ Rests vId ledger

theorem ledger_setLedger (u : Objective) (side side' : Side) (ledger : ConsensusChannel) :
    (u.setLedger side ledger).ledger side' =
      if side' = side then some ledger else u.ledger side' := by
  cases side <;> cases side' <;> rfl

theorem defund_present (h : defund cr sk side false k = .ok () k') :
    SideRests cr side k'.updated ∧
      (k'.updated = k.updated ∨ ∃ next, k'.updated = k.updated.setLedger side next) := by
  unfold defund at h
  rw [if_neg Bool.false_ne_true, Meth.get_bind_eq_ok, Meth.lift_bind_eq_ok] at h
  obtain ⟨defunded, hdefunded, h⟩ := h
  unfold isDefunded at hdefunded
  cases hl : k.updated.ledger side with
  | none =>
    rw [hl] at hdefunded
    cases hdefunded
    cases h
    refine ⟨fun ledger hledger => ?_, .inl rfl⟩
    rw [hl] at hledger
    cases hledger
  | some ledger =>
    simp only [hl] at hdefunded h
    obtain ⟨vId, hv, hdefunded⟩ := Res.bind_eq_ok.1 hdefunded
    split at h
    · next hdone =>
      cases h
      cases hdefunded
      refine ⟨fun ledger' hledger => ⟨vId, hv, .inl ?_⟩, .inl rfl⟩
      rw [hl] at hledger
      cases hledger
      simpa using hdone
    · rw [Meth.bind_eq_ok] at h
      obtain ⟨se, k₁, hmove, h⟩ := h
      rw [Meth.wrap_eq_ok] at hmove
      obtain ⟨next, hnext, hrests⟩ := updateLedgerToRemoveGuarantee_moved hv hl hmove
      cases h
      refine ⟨fun ledger' hledger => ⟨vId, ?_, ?_⟩, .inr ⟨next, hnext⟩⟩
      · show k₁.updated.vId cr = .ok vId
        rw [hnext]
        unfold Objective.vId
        rw [(sameEnd_setLedger k.updated side next).vFixed]
        exact hv
      · have hledger : k₁.updated.ledger side = some ledger' := hledger
        rw [hnext, ledger_setLedger, if_pos rfl] at hledger
        cases hledger
        exact hrests

/-- **the defunding step leaves a ledger that rests** -/
theorem defund_rests {missing : Bool} (h : defund cr sk side missing k = .ok () k') :
    (missing = false → SideRests cr side k'.updated) ∧
      (k'.updated = k.updated ∨ ∃ next, k'.updated = k.updated.setLedger side next) := by
  cases missing with
  | true =>
    cases h
    exact ⟨fun e => absurd e (by decide), .inl rfl⟩
  | false =>
    obtain ⟨hrests, hframe⟩ := defund_present h
    exact ⟨fun _ => hrests, hframe⟩

/-- **and one that rests is left alone** -/
theorem defund_idle {uses : List (KeyUse Objective)} {missing : Bool}
    (h : missing = false → SideRests cr side u) :
    defund cr sk side missing ⟨u, se, uses⟩ = .ok () ⟨u, se, uses⟩ := by
  cases missing with
  | true => rfl
  | false =>
    have h := h rfl
    unfold defund
    rw [if_neg Bool.false_ne_true, Meth.get_bind_eq_ok, Meth.lift_bind_eq_ok]
    cases hl : u.ledger side with
    | none =>
      refine ⟨true, ?_, rfl⟩
      unfold isDefunded
      simp only [hl]
    | some ledger =>
      obtain ⟨vId, hv, hrests⟩ := h ledger hl
      refine ⟨!ledger.includesTarget vId, ?_, ?_⟩
      · unfold isDefunded
        simp only [hl, hv, Res.ok_bind]
      · cases hin : ledger.includesTarget vId with
        | false => rfl
        | true =>
          have hempty : updateLedgerToRemoveGuarantee cr sk side ledger ⟨u, se, uses⟩ =
              .ok .empty ⟨u, se, uses⟩ := by
            rw [updateLedgerToRemoveGuarantee, Meth.get_bind_eq_ok, Meth.lift_bind_eq_ok]
            refine ⟨vId, hv, ?_⟩
            rcases hrests with hout | ⟨hlead, hproposed⟩ | ⟨hfollow, hnext⟩
            · rw [hin] at hout
              cases hout
            · rw [if_pos hlead, if_pos hproposed]
              rfl
            · rw [if_neg (by rw [hfollow]; exact Bool.false_ne_true),
                if_neg (by rw [hnext]; exact Bool.false_ne_true)]
              rfl
          simp only [Bool.not_true, Bool.false_eq_true, if_false]
          rw [Meth.bind_eq_ok]
          refine ⟨.empty, ⟨u, se, uses⟩, Meth.wrap_eq_ok.2 hempty, ?_⟩
          show EStateM.Result.ok () (Work.merge .empty ⟨u, se, uses⟩) = .ok () ⟨u, se, uses⟩
          unfold Work.merge
          rw [SideEffects.merge_empty]

/-! ## signing the final state -/

theorem signature_set {u' : Objective} {i : Nat} {sig : Signature}
    (h : u.setSignature i sig = .ok u') : u'.signature i = .ok sig := by
  unfold setSignature at h
  split at h
  · cases h
    rfl
  · cases h
    rfl
  · cases h
    rfl
  · cases h

theorem isZero_sign (hc : SignCorrect cr) {st : State} {sig : Signature}
    (h : st.sign cr sk = .ok sig) : isZero sig = false := by
  obtain ⟨hash, -, h⟩ := Res.bind_eq_ok.1 h
  obtain ⟨raw, hraw, h⟩ := Res.bind_eq_ok.1 h
  obtain ⟨s, hsplit, h⟩ := Res.bind_eq_ok.1 h
  have hlen := (hc.format _ _ _ hraw).1
  have hR : s.R.length = 32 := by
    unfold splitSignature at hsplit
    rw [dif_pos (by omega)] at hsplit
    cases hsplit
    show (raw.take 32).length = 32
    rw [List.length_take]
    omega
  have hsig : sig.R = s.R := by
    rw [← Except.ok.inj h]
    split <;> rfl
  rw [isZero, Bool.eq_false_iff]
  intro hzero
  have hzero := Signature.equal_iff.1 hzero
  rw [← hsig, hzero] at hR
  cases hR

/-- **after signing, our signature is there** -/
theorem signFinal_signed (hc : SignCorrect cr) {uses : List (KeyUse Objective)}
    (h : o.signFinal cr sk ⟨u, se, uses⟩ = .ok () k) : k.updated.signedByMe = .ok true ∧
      (k.updated = u ∨ ∃ sig, u.setSignature u.myRole sig = .ok k.updated) := by
  rw [signFinal, Meth.get_bind_eq_ok, Meth.lift_bind_eq_ok] at h
  obtain ⟨signed, hsigned, h⟩ := h
  split at h
  · next htrue =>
    cases h
    rw [htrue] at hsigned
    exact ⟨hsigned, .inl rfl⟩
  · rw [Meth.lift_bind_eq_ok] at h
    obtain ⟨final, -, h⟩ := h
    rw [Meth.modify_bind_eq_ok, Meth.lift_bind_eq_ok] at h
    obtain ⟨sig, hsig, h⟩ := h
    rw [Meth.lift_bind_eq_ok] at h
    obtain ⟨u', hset, h⟩ := h
    rw [Meth.modify_bind_eq_ok, Meth.lift_bind_eq_ok] at h
    obtain ⟨signedFinal, -, h⟩ := h
    rw [Meth.lift_bind_eq_ok] at h
    obtain ⟨id, -, h⟩ := h
    cases h
    refine ⟨?_, .inr ⟨sig, hset⟩⟩
    show u'.signedByMe = .ok true
    unfold signedByMe
    rw [(sameEnd_setSignature hset).myRole, signature_set hset]
    show Except.ok (!isZero sig) = _
    rw [isZero_sign hc (Res.wrap_eq_ok.1 hsig)]
    rfl

/-! ## all of it -/

/-- the two objectives differ in their ledgers only -/
def LedgersOnly (u u' : Objective) : Prop :=
  ∃ left right, u' = { u with toMyLeft := left, toMyRight := right }

theorem ledgersOnly_refl (u : Objective) : LedgersOnly u u := ⟨u.toMyLeft, u.toMyRight, rfl⟩

theorem LedgersOnly.set {u u' : Objective} (h : LedgersOnly u k.updated)
    (h' : u' = k.updated ∨ ∃ next, u' = k.updated.setLedger side next) : LedgersOnly u u' := by
  obtain ⟨left, right, h⟩ := h
  rcases h' with rfl | ⟨next, rfl⟩
  · exact ⟨left, right, h⟩
  · rw [h]
    cases side with
    | left => exact ⟨some next, right, rfl⟩
    | right => exact ⟨left, some next, rfl⟩

theorem SideRests.other {u' : Objective} (h : SideRests cr .left u)
    (h' : u' = u ∨ ∃ next, u' = u.setLedger .right next) : SideRests cr .left u' := by
  rcases h' with rfl | ⟨next, rfl⟩
  · exact h
  · exact h

theorem progress_again {w : WaitingFor} (h : progress cr sk k = .ok w k')
    (hopen : k'.updated.status ≠ .completed) : LedgersOnly k.updated k'.updated ∧
      progress cr sk ⟨k'.updated, .empty, []⟩ = .ok w ⟨k'.updated, .empty, []⟩ := by
  rw [progress, Meth.get_bind_eq_ok] at h
  split at h
  · next hunsigned =>
    cases h
    refine ⟨ledgersOnly_refl _, ?_⟩
    rw [progress, Meth.get_bind_eq_ok, if_pos hunsigned]
    rfl
  · next hsigned =>
    rw [Meth.bind_eq_ok] at h
    obtain ⟨_, k₁, hleft, h⟩ := h
    rw [Meth.bind_eq_ok] at h
    obtain ⟨_, k₂, hright, h⟩ := h
    rw [Meth.get_bind_eq_ok, Meth.lift_bind_eq_ok] at h
    obtain ⟨defunded, hdefunded, h⟩ := h
    obtain ⟨hrests₁, hframe₁⟩ := defund_rests hleft
    obtain ⟨hrests₂, hframe₂⟩ := defund_rests hright
    split at h
    · next hnot =>
      cases h
      have honly : LedgersOnly k.updated k'.updated :=
        ((ledgersOnly_refl k.updated).set hframe₁).set hframe₂
      refine ⟨honly, ?_⟩
      obtain ⟨left, right, hu⟩ := honly
      have hsame : k'.updated.fullySigned = k.updated.fullySigned ∧
          k'.updated.isAlice = k.updated.isAlice ∧ k'.updated.isBob = k.updated.isBob := by
        rw [hu]
        exact ⟨rfl, rfl, rfl⟩
      rw [progress, Meth.get_bind_eq_ok, if_neg (by rw [hsame.1]; exact hsigned), Meth.bind_eq_ok]
      refine ⟨(), ⟨k'.updated, .empty, []⟩, defund_idle fun hmissing => ?_, ?_⟩
      · rw [hsame.2.1] at hmissing
        exact (hrests₁ hmissing).other hframe₂
      · rw [Meth.bind_eq_ok]
        refine ⟨(), ⟨k'.updated, .empty, []⟩, defund_idle fun hmissing => ?_, ?_⟩
        · rw [hsame.2.2] at hmissing
          exact hrests₂ hmissing
        · rw [Meth.get_bind_eq_ok, Meth.lift_bind_eq_ok]
          refine ⟨defunded, hdefunded, ?_⟩
          rw [if_pos hnot]
          rfl
    · cases h
      exact absurd rfl hopen

theorem clone_self {d : Objective} (h : o.clone = .ok d) (hsame : SameEnd d u) :
    u.clone = .ok u := by
  obtain rfl := clone_eq h
  obtain ⟨vFixed, hfixed, h⟩ := Res.bind_eq_ok.1 h
  obtain ⟨initialOutcome, houtcome, h⟩ := Res.bind_eq_ok.1 h
  obtain ⟨paidToBob, hpaid, h⟩ := Res.bind_eq_ok.1 h
  have hcopy : u.clone = .ok { u with
      vFixed := vFixed
      initialOutcome := initialOutcome
      paidToBob := some paidToBob } := by
    unfold clone
    rw [hsame.vFixed, hfixed, hsame.initialOutcome, houtcome, hsame.paidToBob, hpaid]
    rfl
  rw [hcopy, clone_eq hcopy]

theorem signFinal_done {uses : List (KeyUse Objective)} (h : u.signedByMe = .ok true) :
    o.signFinal cr sk ⟨u, se, uses⟩ = .ok () ⟨u, se, uses⟩ := by
  rw [signFinal, Meth.get_bind_eq_ok, Meth.lift_bind_eq_ok]
  refine ⟨true, h, ?_⟩
  rw [if_pos rfl]
  rfl

/-- **a second crank of a virtual defunding has nothing left to do** -/
theorem crank_again {r : Cranked} (hc : SignCorrect cr) (hr : o.crank cr sk = .ok r)
    (herr : r.err = none) (hopen : r.updated.status ≠ .completed) :
    r.updated.crank cr sk = .ok ⟨r.updated, .empty, r.waitingFor, none⟩ := by
  obtain ⟨d, hd, hr⟩ := Res.bind_eq_ok.1 hr
  split at hr
  · cases hr
    cases herr
  · next happroved =>
    split at hr
    · cases hr
      cases herr
    · cases hr
    · next k hsign =>
      split at hr
      · next w k' hprogress =>
        cases hr
        obtain ⟨hmine, hframe⟩ := signFinal_signed hc hsign
        obtain ⟨honly, hagain⟩ := progress_again hprogress hopen
        have hsame : SameEnd d k.updated ∧ k.updated.status = d.status := by
          rcases hframe with h | ⟨sig, h⟩
          · rw [h]
            exact ⟨SameEnd.refl d, rfl⟩
          · exact ⟨sameEnd_setSignature h, status_setSignature h⟩
        obtain ⟨left, right, hu⟩ := honly
        have hcopy : k'.updated.clone = .ok k'.updated := by
          refine clone_self hd (hsame.1.trans ?_)
          rw [hu]
          exact ⟨rfl, rfl, rfl, rfl⟩
        have hstatus : k'.updated.status = .approved := by
          rw [hu]
          show k.updated.status = _
          rw [hsame.2]
          exact not_not.1 happroved
        have hsigned : k'.updated.signedByMe = .ok true := by
          rw [hu]
          exact hmine
        unfold crank
        rw [hcopy, Res.ok_bind, if_neg (by rw [hstatus]; exact fun h => h rfl),
          signFinal_done hsigned]
        dsimp only
        rw [hagain]
      · cases hr
        cases herr
      · cases hr

end Objective
end VirtualDefund

/-! ## virtual funding -/

theorem Vars.Step.added {v v' : Vars} {id : Destination} {g : Guarantee BigInt} {left : BigInt}
    (h : v.Step (newAddProposal id g left) v') : v'.outcome.includes g = true ∧
      (newAddProposal id g left).clone = .ok (newAddProposal id g left) := by
  generalize hp : newAddProposal id g left = p at h
  cases h with
  | remove => cases hp
  | @add id' r g' left' fresh =>
    cases hp
    refine ⟨?_, rfl⟩
    show LedgerOutcome.includes { v.outcome with
      guarantees := v.outcome.guarantees.insert g'.target g' } g'.wire = true
    simp [LedgerOutcome.includes, Guarantee.wire]

namespace VirtualFund

/-- what a connection with this information expects, in whatever order its loops run -/
structure Expects (info : GuaranteeInfo) (g : Guarantee BigInt) (left : BigInt) : Prop where
  guarantee : ∀ c : Connection, c.guaranteeInfo = info → ∀ r, c.getExpectedGuarantee r = g
  proposal : ∀ c : Connection, c.guaranteeInfo = info → ∀ r r',
    c.expectedProposal r r' = newAddProposal c.channel.id g left

theorem expects_single {x y V : Destination} {a0 b0 : Funds} {asset : Address}
    (ha : a0.keys = {asset}) (hb : b0.keys = {asset}) :
    Expects ⟨x, y, a0, b0, V⟩ ⟨some (a0.amount asset + b0.amount asset), V, x, y⟩
      (some (a0.amount asset)) :=
  ⟨fun c hc r => c.getExpectedGuarantee_single r hc ha hb,
    fun c hc r r' => c.expectedProposal_single r r' hc ha hb⟩

/-- there is nothing to do in this ledger: the guarantee is there, the leader has proposed to add it,
or the follower has not been asked to -/
def Rests (g : Guarantee BigInt) (ledger : ConsensusChannel) : Prop :=
  ledger.includes g = true ∨ (ledger.isLeader = true ∧ ledger.isProposed g = .ok true) ∨
    (ledger.isLeader = false ∧ (∃ b, ledger.isProposed g = .ok b) ∧
      Objective.proposedNext ledger g = .ok false)

theorem rests_proposed {ledger : ConsensusChannel} {g : Guarantee BigInt}
    (hlead : ledger.isLeader = true) {latest : Vars} (hl : ledger.latestProposedVars = .ok latest)
    (hg : latest.outcome.includes g = true) : Rests g ledger := by
  cases hin : ledger.includes g with
  | true => exact .inl hin
  | false =>
    refine .inr (.inl ⟨hlead, ?_⟩)
    unfold ConsensusChannel.isProposed
    rw [hl, hin]
    simp [hg]

namespace Objective
variable {cr : Crypto} {orders orders' : LoopOrders} {sk : Bytes} {side : Side} {c : Connection}
  {k k' : Work} {se : SideEffects} {o u : Objective} {g : Guarantee BigInt} {left : BigInt}

structure Settled (g : Guarantee BigInt) (left : BigInt) (c : Connection) : Prop where
  expects : Expects c.guaranteeInfo g left
  rests : Rests g c.channel
  copy : c.channel.clone = .ok c.channel

/-- what one move in a ledger leaves behind: only that ledger is another one, and it is settled -/
def Moved (g : Guarantee BigInt) (left : BigInt) (side : Side) (c : Connection) (k k' : Work) :
    Prop :=
  ∃ ledger, k'.updated = k.updated.setConnection side { c with channel := ledger } ∧
    Settled g left { c with channel := ledger }

theorem setConnection_self (hc : u.connection side = some c) : u.setConnection side c = u := by
  cases side with
  | left =>
    have hc : u.toMyLeft = some c := hc
    show { u with toMyLeft := some c } = u
    rw [← hc]
  | right =>
    have hc : u.toMyRight = some c := hc
    show { u with toMyRight := some c } = u
    rw [← hc]

section moves
variable (hexp : Expects c.guaranteeInfo g left) (hcopy : c.channel.clone = .ok c.channel)
include hexp hcopy

theorem proposeLedgerUpdate_moved (h : proposeLedgerUpdate cr orders sk side c k = .ok se k') :
    Moved g left side c k k' := by
  unfold proposeLedgerUpdate at h
  split at h
  · cases h
  · next hlead =>
    rw [hexp.proposal c rfl] at h
    cases hp : ConsensusChannel.propose cr (newAddProposal c.channel.id g left) sk c.channel with
    | error e ledger =>
      simp only [hp] at h
      cases h
    | ok sp ledger =>
      simp only [hp] at h
      rw [Meth.modify_bind_eq_ok, Meth.modify_bind_eq_ok, Meth.lift_bind_eq_ok] at h
      obtain ⟨recipient, -, h⟩ := h
      cases h
      obtain ⟨rfl, hsp, latest, latest', hlatest, hstep⟩ := ConsensusChannel.propose_queue hp
      obtain ⟨hin, hclone⟩ := hstep.added
      refine ⟨_, rfl, hexp, ?_, ConsensusChannel.clone_enqueue hcopy (by rw [hsp]; exact hclone)⟩
      have hproposed := Vars.handleQueue_snoc hlatest (by rw [hsp]; exact hstep)
      exact rests_proposed (Bool.not_eq_false _ ▸ hlead) hproposed hin

theorem acceptLedgerUpdate_moved (h : acceptLedgerUpdate cr orders sk side c k = .ok se k') :
    Moved g left side c k k' := by
  unfold acceptLedgerUpdate at h
  rw [hexp.proposal c rfl] at h
  cases hp : ConsensusChannel.signNextProposal cr (newAddProposal c.channel.id g left) sk
      c.channel with
  | error e ledger =>
    simp only [hp] at h
    cases e <;> cases h
  | ok sp ledger =>
    simp only [hp] at h
    rw [Meth.modify_bind_eq_ok, Meth.modify_bind_eq_ok, Meth.lift_bind_eq_ok] at h
    obtain ⟨recipient, -, h⟩ := h
    cases h
    obtain ⟨sv, head, rest, rfl, hqueue, -, hstep⟩ :=
      ConsensusChannel.signNextProposal_consensus hp
    exact ⟨_, rfl, hexp, .inl hstep.added.1, ConsensusChannel.clone_dequeue hcopy hqueue⟩

theorem updateLedgerWithGuarantee_moved (hc : k.updated.connection side = some c)
    (h : updateLedgerWithGuarantee cr orders sk side c k = .ok se k') :
    Moved g left side c k k' := by
  have hstay : Rests g c.channel → Moved g left side c k k := fun hrests =>
    ⟨c.channel, (setConnection_self hc).symm, hexp, hrests, hcopy⟩
  unfold updateLedgerWithGuarantee at h
  rw [hexp.guarantee c rfl, Meth.lift_bind_eq_ok] at h
  obtain ⟨proposed, hproposed, h⟩ := h
  split at h
  · next hlead =>
    split at h
    · next hyes =>
      cases h
      rw [hyes] at hproposed
      exact hstay (.inr (.inl ⟨hlead, hproposed⟩))
    · exact proposeLedgerUpdate_moved hexp hcopy (Meth.wrap_eq_ok.1 h)
  · next hfollow =>
    rw [Meth.lift_bind_eq_ok] at h
    obtain ⟨next, hnext, h⟩ := h
    split at h
    · exact acceptLedgerUpdate_moved hexp hcopy (Meth.wrap_eq_ok.1 h)
    · next hno =>
      cases h
      rw [Bool.eq_false_iff.2 hno] at hnext
      exact hstay (.inr (.inr ⟨Bool.eq_false_iff.2 hfollow, ⟨proposed, hproposed⟩, hnext⟩))

end moves

/-! ## both ledgers -/

/-- every connection expects a guarantee, and its ledger is its own copy -/
def Steady (u : Objective) : Prop :=
  ∀ side c, u.connection side = some c →
    (∃ g left, Expects c.guaranteeInfo g left) ∧ c.channel.clone = .ok c.channel

/-- there is nothing to do in the ledger on this side -/
def SideRests (side : Side) (u : Objective) : Prop :=
  ∃ c g left, u.connection side = some c ∧ Settled g left c

structure OnlySide (side : Side) (u u' : Objective) : Prop where
  rest : ∃ toMyLeft toMyRight, u' = { u with toMyLeft := toMyLeft, toMyRight := toMyRight }
  other : ∀ side', side' ≠ side → u'.connection side' = u.connection side'

theorem onlySide_setConnection (u : Objective) (side : Side) (c : Connection) :
    OnlySide side u (u.setConnection side c) := by
  cases side with
  | left =>
    refine ⟨⟨some c, u.toMyRight, rfl⟩, fun side' hne => ?_⟩
    cases side' with
    | left => exact absurd rfl hne
    | right => rfl
  | right =>
    refine ⟨⟨u.toMyLeft, some c, rfl⟩, fun side' hne => ?_⟩
    cases side' with
    | left => rfl
    | right => exact absurd rfl hne

theorem connection_set (u : Objective) (side : Side) (c : Connection) :
    (u.setConnection side c).connection side = some c := by
  cases side <;> rfl

theorem Steady.set (h : Steady u) (hc : Settled g left c) : Steady (u.setConnection side c) := by
  intro side' c' hc'
  rcases connection_setConnection hc' with ⟨rfl, rfl⟩ | hold
  · exact ⟨⟨g, left, hc.expects⟩, hc.copy⟩
  · exact h side' c' hold

/-- **the funding step leaves a ledger that rests** -/
theorem fund_rests {missing : Bool} (hsteady : Steady k.updated)
    (h : fund cr orders sk side missing k = .ok () k') : Steady k'.updated ∧
      OnlySide side k.updated k'.updated ∧ (missing = false → SideRests side k'.updated) := by
  have hrefl : OnlySide side k.updated k.updated :=
    ⟨⟨k.updated.toMyLeft, k.updated.toMyRight, rfl⟩, fun _ _ => rfl⟩
  unfold fund at h
  split at h
  · next hmissing =>
    cases h
    refine ⟨hsteady, hrefl, fun hpresent => ?_⟩
    rw [hmissing] at hpresent
    cases hpresent
  · rw [Meth.get_bind_eq_ok, Meth.lift_bind_eq_ok] at h
    obtain ⟨c, hc, h⟩ := h
    have hc := getConnection_ok hc
    obtain ⟨⟨g, left, hexp⟩, hcopy⟩ := hsteady side c hc
    split at h
    · next hfunded =>
      cases h
      refine ⟨hsteady, hrefl, fun _ => ⟨c, g, left, hc, hexp, .inl ?_, hcopy⟩⟩
      unfold Connection.funded at hfunded
      rwa [hexp.guarantee c rfl] at hfunded
    · rw [Meth.bind_eq_ok] at h
      obtain ⟨se, k₁, hmove, h⟩ := h
      obtain ⟨ledger, hnext, hsettled⟩ :=
        updateLedgerWithGuarantee_moved hexp hcopy hc (Meth.wrap_eq_ok.1 hmove)
      cases h
      show Steady k₁.updated ∧ OnlySide side k.updated k₁.updated ∧
        (missing = false → SideRests side k₁.updated)
      rw [hnext]
      exact ⟨hsteady.set hsettled, onlySide_setConnection _ _ _,
        fun _ => ⟨_, g, left, connection_set _ _ _, hsettled⟩⟩

theorem updateLedgerWithGuarantee_idle {uses : List (KeyUse Objective)} (h : Settled g left c)
    (hnot : c.channel.includes g = false) :
    updateLedgerWithGuarantee cr orders sk side c ⟨u, se, uses⟩ = .ok .empty ⟨u, se, uses⟩ := by
  unfold updateLedgerWithGuarantee
  rw [h.expects.guarantee c rfl, Meth.lift_bind_eq_ok]
  rcases h.rests with hin | ⟨hlead, hproposed⟩ | ⟨hfollow, ⟨b, hproposed⟩, hnext⟩
  · rw [hnot] at hin
    cases hin
  · refine ⟨true, hproposed, ?_⟩
    rw [if_pos hlead, if_pos rfl]
    rfl
  · refine ⟨b, hproposed, ?_⟩
    rw [if_neg (by rw [hfollow]; exact Bool.false_ne_true), Meth.lift_bind_eq_ok]
    exact ⟨false, hnext, rfl⟩

/-- **and one that rests is left alone** -/
theorem fund_idle {uses : List (KeyUse Objective)} {missing : Bool}
    (h : missing = false → SideRests side u) :
    fund cr orders sk side missing ⟨u, se, uses⟩ = .ok () ⟨u, se, uses⟩ := by
  cases missing with
  | true => rfl
  | false =>
    obtain ⟨c, g, left, hc, hsettled⟩ := h rfl
    unfold fund
    rw [if_neg Bool.false_ne_true, Meth.get_bind_eq_ok, Meth.lift_bind_eq_ok]
    refine ⟨c, ?_, ?_⟩
    · unfold getConnection
      simp only [hc]
    · unfold Connection.funded
      rw [hsettled.expects.guarantee c rfl]
      cases hin : c.channel.includes g with
      | true => rfl
      | false =>
        rw [if_neg Bool.false_ne_true, Meth.bind_eq_ok]
        refine ⟨.empty, ⟨u, se, uses⟩,
          Meth.wrap_eq_ok.2 (updateLedgerWithGuarantee_idle hsettled hin), ?_⟩
        show EStateM.Result.ok () (Work.merge .empty ⟨u, se, uses⟩) = .ok () ⟨u, se, uses⟩
        unfold Work.merge
        rw [SideEffects.merge_empty]

theorem SideRests.other {side' : Side} {u' : Objective} (h : SideRests side u)
    (h' : OnlySide side' u u') (hne : side ≠ side') : SideRests side u' := by
  obtain ⟨c, g, left, hc, hsettled⟩ := h
  exact ⟨c, g, left, (h'.other side hne).trans hc, hsettled⟩

/-- whether the ledgers are funded does not depend on the order of the loops -/
theorem fundingComplete_orders (h : Steady u) (orders orders' : Side → LoopOrders) :
    u.fundingComplete orders = u.fundingComplete orders' := by
  have hfunded : ∀ side, (do
      let c ← u.getConnection side
      .ok (c.funded (orders side).complete) : Res Bool) = (do
      let c ← u.getConnection side
      .ok (c.funded (orders' side).complete)) := by
    intro side
    unfold getConnection
    cases hc : u.connection side with
    | none => rfl
    | some c =>
      obtain ⟨⟨g, left, hexp⟩, -⟩ := h side c hc
      show Except.ok (c.channel.includes _) = Except.ok (c.channel.includes _)
      rw [hexp.guarantee c rfl, hexp.guarantee c rfl]
  unfold fundingComplete
  dsimp only
  rw [hfunded .left, hfunded .right]

/-! ## the setup states of `V` -/

section setup
variable {s : State} {i : Nat} {uses : List (KeyUse Objective)} {w : WaitingFor}

theorem signSetup_idle {signedByMe : Channel → Bool} {state : Channel → State}
    {sign : Meth Channel SignedState} (h : signedByMe u.v = true) :
    o.signSetup signedByMe state sign ⟨u, se, uses⟩ = .ok () ⟨u, se, uses⟩ := by
  rw [signSetup, Meth.get_bind_eq_ok, if_pos h]
  rfl

structure Prepared (cr : Crypto) (s : State) (i : Nat) (sk : Bytes) (v : Channel) : Prop where
  ready : Channel.Ready cr DirectFund.anySig s i v
  stable : Channel.Stable cr v
  first : s.turnNum = 0
  key : Channel.OwnKey cr s.participants i sk

theorem signSetup_signed {t : UInt64} {sign : Meth Channel SignedState}
    (hv : Prepared cr s i sk k.updated.v) (ht : t = preFundTurnNum ∨ t = postFundTurnNum)
    (hsign : ∀ v, sign v = Channel.signAndAddState cr (v.signedState t).state sk v)
    (h : o.signSetup (fun v => (v.signedState t).hasSignatureForParticipant v.myIndex)
      (fun v => (v.signedState t).state) sign k = .ok () k') :
    ∃ v, k'.updated = { k.updated with v := v } ∧ Prepared cr s i sk v ∧
      Channel.Signed cr t i k.updated.v v := by
  rw [signSetup, Meth.get_bind_eq_ok] at h
  split at h
  · next hsigned =>
    cases h
    refine ⟨k.updated.v, rfl, hv, .refl hv.stable ?_⟩
    rw [← hv.ready.myIndex]
    exact Channel.hasSignature_iff.1 hsigned
  · rw [Meth.modify_bind_eq_ok, Meth.bind_eq_ok] at h
    obtain ⟨ss, k₁, hzoom, h⟩ := h
    obtain ⟨v, hadd, rfl⟩ := Meth.zoom_eq_ok.1 hzoom
    cases h
    have hadd : sign k.updated.v = .ok ss v := hadd
    rw [hsign] at hadd
    obtain ⟨st, hrec, hpart, hturn⟩ := hv.ready.record ht hv.first
    have hstate := hrec.state_eq
    have hclone := hv.stable.state (hv.stable.setup t ht)
    rw [hstate] at hadd hclone
    have hsigned : Channel.Signed cr t i k.updated.v v := by
      rw [← hturn]
      exact Channel.signed_signAndAddState hv.stable hclone (by rw [hpart]; exact hv.key) hadd
    refine ⟨v, rfl, ⟨?_, hsigned.stable, hv.first, hv.key⟩, hsigned⟩
    rw [← Meth.after_ok hadd]
    exact hv.ready.signAndAddState fun _ _ => trivial

theorem Prepared.signedByMe {v : Channel} (hv : Prepared cr s i sk v) {t : UInt64}
    (h : Channel.SignedBy t i v) : (v.signedState t).hasSignatureForParticipant v.myIndex = true := by
  rw [hv.ready.myIndex]
  exact Channel.hasSignature_iff.2 h

variable (se uses) in
theorem progressPostfund_again (o' : Objective) (hv : Prepared cr s i sk k.updated.v)
    (h : o.progressPostfund cr sk k = .ok w k') (hopen : k'.updated.status ≠ .completed) :
    ∃ v, k'.updated = { k.updated with v := v } ∧ Prepared cr s i sk v ∧
      Channel.Signed cr postFundTurnNum i k.updated.v v ∧
      o'.progressPostfund cr sk ⟨k'.updated, se, uses⟩ = .ok w ⟨k'.updated, se, uses⟩ := by
  rw [progressPostfund, Meth.bind_eq_ok] at h
  obtain ⟨_, k₁, hsetup, h⟩ := h
  obtain ⟨v, hu, hv', hsigned⟩ := signSetup_signed hv (.inr rfl) (fun _ => rfl) hsetup
  rw [Meth.get_bind_eq_ok] at h
  split at h
  · next hincomplete =>
    cases h
    refine ⟨v, hu, hv', hsigned, ?_⟩
    have hmine : k'.updated.v.postFundSignedByMe = true := by
      rw [hu]
      exact hv'.signedByMe hsigned.own
    rw [progressPostfund, Meth.bind_eq_ok]
    refine ⟨(), _, signSetup_idle hmine, ?_⟩
    rw [Meth.get_bind_eq_ok, if_pos hincomplete]
    rfl
  · cases h
    exact absurd rfl hopen

theorem OnlySide.v_eq {u' : Objective} (h : OnlySide side u u') :
    u'.v = u.v ∧ u'.isAlice = u.isAlice ∧ u'.isBob = u.isBob ∧ u'.status = u.status := by
  obtain ⟨⟨_, _, rfl⟩, -⟩ := h
  exact ⟨rfl, rfl, rfl, rfl⟩

variable (se uses) in
theorem progressFunding_again (o' : Objective) {orders : Side → LoopOrders}
    (orders' : Side → LoopOrders)
    (hv : Prepared cr s i sk k.updated.v) (hsteady : Steady k.updated)
    (h : o.progressFunding cr orders sk k = .ok w k') (hopen : k'.updated.status ≠ .completed) :
    Steady k'.updated ∧ k'.updated.status = k.updated.status ∧ Prepared cr s i sk k'.updated.v ∧
      (k'.updated.v = k.updated.v ∨
        Channel.Signed cr postFundTurnNum i k.updated.v k'.updated.v) ∧
      o'.progressFunding cr orders' sk ⟨k'.updated, se, uses⟩ = .ok w ⟨k'.updated, se, uses⟩ := by
  rw [progressFunding, Meth.get_bind_eq_ok, Meth.bind_eq_ok] at h
  obtain ⟨_, k₁, hleft, h⟩ := h
  rw [Meth.bind_eq_ok] at h
  obtain ⟨_, k₂, hright, h⟩ := h
  rw [Meth.get_bind_eq_ok, Meth.lift_bind_eq_ok] at h
  obtain ⟨complete, hcomplete, h⟩ := h
  obtain ⟨hsteady₁, honly₁, hrests₁⟩ := fund_rests hsteady hleft
  obtain ⟨hsteady₂, honly₂, hrests₂⟩ := fund_rests hsteady₁ hright
  obtain ⟨hv₁, halice₁, hbob₁, hstatus₁⟩ := honly₁.v_eq
  obtain ⟨hv₂, halice₂, hbob₂, hstatus₂⟩ := honly₂.v_eq
  have hvv : k₂.updated.v = k.updated.v := hv₂.trans hv₁
  have hprep : Prepared cr s i sk k₂.updated.v := by
    rw [hvv]
    exact hv
  -- the second run finds both ledgers at rest, and decides as the first one did
  have hagain : ∀ u : Objective, u.toMyLeft = k₂.updated.toMyLeft →
      u.toMyRight = k₂.updated.toMyRight → u.myRole = k₂.updated.myRole → u.n = k₂.updated.n →
      (if complete = false then pure .completeFunding else o'.progressPostfund cr sk :
        Meth Work WaitingFor) ⟨u, se, uses⟩ = .ok w ⟨u, se, uses⟩ →
      o'.progressFunding cr orders' sk ⟨u, se, uses⟩ = .ok w ⟨u, se, uses⟩ := by
    intro u hl hr hrole hn hrest
    have hconn : ∀ side, u.connection side = k₂.updated.connection side := by
      intro side
      cases side with
      | left => exact hl
      | right => exact hr
    have hrests : ∀ {side}, SideRests side k₂.updated → SideRests side u := by
      rintro side ⟨c, g, left, hc, hsettled⟩
      exact ⟨c, g, left, (hconn side).trans hc, hsettled⟩
    have halice : u.isAlice = k.updated.isAlice := by
      rw [← halice₁, ← halice₂]
      unfold isAlice
      rw [hrole]
    have hbob : u.isBob = k.updated.isBob := by
      rw [← hbob₁, ← hbob₂]
      unfold isBob
      rw [hrole, hn]
    have hsame : u.fundingComplete orders' = .ok complete := by
      rw [← hcomplete, fundingComplete_orders hsteady₂ orders orders']
      unfold fundingComplete isAlice isBob getConnection
      rw [hrole, hn, funext hconn]
    rw [progressFunding, Meth.get_bind_eq_ok, Meth.bind_eq_ok]
    refine ⟨(), _, fund_idle fun hmissing => ?_, ?_⟩
    · rw [halice] at hmissing
      exact hrests ((hrests₁ hmissing).other honly₂ (by decide))
    · rw [Meth.bind_eq_ok]
      refine ⟨(), _, fund_idle fun hmissing => ?_, ?_⟩
      · rw [hbob] at hmissing
        exact hrests (hrests₂ hmissing)
      · rw [Meth.get_bind_eq_ok, Meth.lift_bind_eq_ok]
        exact ⟨complete, hsame, hrest⟩
  split at h
  · next hincomplete =>
    cases h
    refine ⟨hsteady₂, hstatus₂.trans hstatus₁, hprep, .inl hvv, ?_⟩
    refine hagain _ rfl rfl rfl rfl ?_
    rw [if_pos hincomplete]
    rfl
  · next hfunded =>
    obtain ⟨v, hu, hv', hsigned, hpost⟩ :=
      progressPostfund_again se uses o' hprep h hopen
    rw [hvv] at hsigned
    have huv : k'.updated.v = v := by rw [hu]
    refine ⟨?_, ?_, huv ▸ hv', .inr (huv ▸ hsigned), ?_⟩
    · rw [hu]
      exact hsteady₂
    · rw [hu]
      exact hstatus₂.trans hstatus₁
    · refine hagain _ (by rw [hu]) (by rw [hu]) (by rw [hu]) (by rw [hu]) ?_
      rw [if_neg hfunded]
      exact hpost

theorem clone_self (hv : Channel.Stable cr u.v) (h : Steady u) : u.clone cr = .ok u := by
  have hconn : ∀ side, cloneConnection (u.connection side) = .ok (u.connection side) := by
    intro side
    cases hc : u.connection side with
    | none => rfl
    | some c =>
      unfold cloneConnection
      simp only [(h side c hc).2, Res.ok_bind]
  have hleft : cloneConnection u.toMyLeft = .ok u.toMyLeft := hconn .left
  have hright : cloneConnection u.toMyRight = .ok u.toMyRight := hconn .right
  unfold clone
  rw [hv.clone, hleft, hright]
  rfl

theorem steady_clone {d : Objective} (h : ∀ side c, o.connection side = some c →
    ∃ g left, Expects c.guaranteeInfo g left) (hd : o.clone cr = .ok d) : Steady d := by
  intro side c' hc'
  obtain ⟨-, -, -, -, hconn⟩ := clone_ok hd
  obtain ⟨c, ledger, hc, hl, rfl⟩ := hconn side c' hc'
  exact ⟨h side c hc, ConsensusChannel.clone_clone hl⟩

/-- **virtual funding in one asset: a second `Crank` does nothing** -/
theorem crank_again {orders : Side → LoopOrders} {r : Cranked}
    (hsetup : Channel.Setup cr DirectFund.anySig s i o.v) (h0 : s.turnNum = 0)
    (hkey : Channel.OwnKey cr s.participants i sk)
    (hexp : ∀ side c, o.connection side = some c → ∃ g left, Expects c.guaranteeInfo g left)
    (hr : o.crank cr orders sk = .ok r) (herr : r.err = none)
    (hopen : r.updated.status ≠ .completed) (orders' : Side → LoopOrders) :
    r.updated.crank cr orders' sk = .ok ⟨r.updated, .empty, r.waitingFor, none⟩ := by
  obtain ⟨d, hd, hr⟩ := Res.bind_eq_ok.1 hr
  have hclone := (clone_ok hd).1
  have hsteady := steady_clone hexp hd
  have hprep : Prepared cr s i sk d.v :=
    ⟨hsetup.clone hclone, Channel.stable_clone hclone, h0, hkey⟩
  split at hr
  · cases hr
    cases herr
  · next happroved =>
    cases hrun : o.progress cr orders sk ⟨d, .empty, []⟩ with
    | error e k =>
      simp only [hrun] at hr
      cases e with
      | err e =>
        cases hr
        cases herr
      | panic text => cases hr
    | ok w k' =>
      simp only [hrun] at hr
      cases hr
      rw [progress, Meth.bind_eq_ok] at hrun
      obtain ⟨_, k, hpre, hrun⟩ := hrun
      obtain ⟨v, hu, hv, hsigned⟩ := signSetup_signed hprep (.inl rfl) (fun _ => rfl) hpre
      have hsteady' : Steady k.updated := by
        rw [hu]
        exact hsteady
      have hkv : k.updated.v = v := by rw [hu]
      rw [Meth.get_bind_eq_ok] at hrun
      -- all that the second run needs of the objective that the first one returned
      have hagain : Steady k'.updated → k'.updated.status = d.status →
          Prepared cr s i sk k'.updated.v → Channel.SignedBy preFundTurnNum i k'.updated.v →
          (if k'.updated.v.preFundComplete = false then pure .completePrefund
            else k'.updated.progressFunding cr orders' sk : Meth Work WaitingFor)
              ⟨k'.updated, .empty, []⟩ = .ok w ⟨k'.updated, .empty, []⟩ →
          k'.updated.crank cr orders' sk = .ok ⟨k'.updated, .empty, w, none⟩ := by
        intro hs hstatus hp hmine hrest
        have hprogress : k'.updated.progress cr orders' sk ⟨k'.updated, .empty, []⟩ =
            .ok w ⟨k'.updated, .empty, []⟩ := by
          rw [progress, Meth.bind_eq_ok]
          refine ⟨(), _, signSetup_idle (hp.signedByMe hmine), ?_⟩
          rw [Meth.get_bind_eq_ok]
          exact hrest
        unfold crank
        rw [clone_self hp.stable hs, Res.ok_bind, if_neg (by rw [hstatus]; exact happroved)]
        simp only [hprogress]
      split at hrun
      · next hincomplete =>
        cases hrun
        refine hagain hsteady' (by rw [hu]) (hkv ▸ hv) (hkv ▸ hsigned.own) ?_
        rw [if_pos hincomplete]
        rfl
      · next hcomplete =>
        obtain ⟨hs, hstatus, hp, hvv, hfunding⟩ :=
          progressFunding_again .empty [] k'.updated orders' (hkv ▸ hv) hsteady' hrun hopen
        have hmine : Channel.SignedBy preFundTurnNum i k.updated.v := hkv ▸ hsigned.own
        refine hagain hs (hstatus.trans (by rw [hu])) hp ?_ ?_
        · rcases hvv with hsame | hpost
          · rw [hsame]
            exact hmine
          · exact hpost.stays _ _ hmine
        · rw [if_neg, hfunding]
          rcases hvv with hsame | hpost
          · rw [hsame]
            exact hcomplete
          · show ¬(k'.updated.v.signedState preFundTurnNum).hasAllSignatures = false
            rw [hpost.other _ (by decide)]
            exact hcomplete

end setup

end Objective
end VirtualFund

end Nitro
