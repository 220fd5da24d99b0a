import Nitro.Lib.Runs
import Nitro.Consensus.Steps
import Nitro.Protocols.VirtualDefund

/-!
# What the methods of a virtualdefund objective do

The final state is fixed by the fields that no method changes.  `Update` stores signatures that recover to
their participant on the final state; `Crank` adds our own, and signs a ledger proposal only when
all three are there.

* `SameEnd`           two objectives with the same final state;
* `Keeps`             the final state stays, and the stored signatures have a property;
* `Justified`         the reasons for using the key;
* `crankUses_proper`  **every use of the key is justified, whether or not `Crank` returns**;
* `Call.keeps_step`   the calls keep `Keeps`.
-/

set_option linter.unusedSectionVars false

namespace Nitro
open Go FinMap Runs

namespace VirtualDefund
namespace Objective
variable {cr : Crypto} {o₀ o o' d : Objective}

/-! ## the final state -/

structure SameEnd (o₀ o : Objective) : Prop where
  initialOutcome : o.initialOutcome = o₀.initialOutcome
  paidToBob : o.paidToBob = o₀.paidToBob
  vFixed : o.vFixed = o₀.vFixed
  myRole : o.myRole = o₀.myRole

theorem SameEnd.refl (o : Objective) : SameEnd o o := ⟨rfl, rfl, rfl, rfl⟩

theorem SameEnd.trans (h : SameEnd o₀ o) (h' : SameEnd o o') : SameEnd o₀ o' :=
  ⟨h'.initialOutcome.trans h.initialOutcome, h'.paidToBob.trans h.paidToBob,
    h'.vFixed.trans h.vFixed, h'.myRole.trans h.myRole⟩

theorem SameEnd.finalOutcome_eq (h : SameEnd o₀ o) : o.finalOutcome = o₀.finalOutcome := by
  unfold finalOutcome
  rw [h.initialOutcome, h.paidToBob]

theorem SameEnd.finalState_eq (h : SameEnd o₀ o) : o.finalState = o₀.finalState := by
  unfold finalState
  rw [h.finalOutcome_eq, h.vFixed]

theorem SameEnd.ledgerProposal_eq (h : SameEnd o₀ o) (ledger : ConsensusChannel) :
    o.ledgerProposal cr ledger = o₀.ledgerProposal cr ledger := by
  unfold ledgerProposal vId
  rw [h.finalOutcome_eq, h.vFixed]

theorem sameEnd_setLedger (o : Objective) (side : Side) (ledger : ConsensusChannel) :
    SameEnd o (o.setLedger side ledger) := by
  cases side with
  | left => exact ⟨rfl, rfl, rfl, rfl⟩
  | right => exact ⟨rfl, rfl, rfl, rfl⟩

theorem clone_eq (h : o.clone = .ok d) : d = o := by
  obtain ⟨vFixed, hfixed, h⟩ := Res.bind_eq_ok.1 h
  obtain ⟨initialOutcome, houtcome, h⟩ := Res.bind_eq_ok.1 h
  obtain ⟨paidToBob, hpaid, hend⟩ := Res.bind_eq_ok.1 h
  obtain rfl := FixedPart.clone_eq hfixed
  obtain rfl := SingleAssetExit.clone_eq houtcome
  rw [BigInt.deref_eq_ok] at hpaid
  cases hend
  rw [← hpaid]
  rfl

/-! ## the signatures -/

/-- the signature is that of participant `i` on the final state -/
def SignedBy (cr : Crypto) (o : Objective) (i : Nat) (sig : Signature) : Prop :=
  ∃ final a, o.finalState = .ok final ∧ o.vFixed.participants[i]? = some a ∧
    final.recoverSigner cr sig = .ok a

/-- the final state stays, and the signatures that are there have the property `S` -/
structure Keeps (S : Nat → Signature → Prop) (o₀ o : Objective) : Prop where
  same : SameEnd o₀ o
  checked : ∀ i sig, o.signature i = .ok sig → isZero sig = false → S i sig

variable {S : Nat → Signature → Prop}

theorem sameEnd_setSignature {i : Nat} {sig : Signature} (h : o.setSignature i sig = .ok o') :
    SameEnd o o' := by
  unfold setSignature at h
  split at h
  · cases h
    exact ⟨rfl, rfl, rfl, rfl⟩
  · cases h
    exact ⟨rfl, rfl, rfl, rfl⟩
  · cases h
    exact ⟨rfl, rfl, rfl, rfl⟩
  · cases h

theorem status_setSignature {i : Nat} {sig : Signature} (h : o.setSignature i sig = .ok o') :
    o'.status = o.status := by
  unfold setSignature at h
  split at h
  · cases h
    rfl
  · cases h
    rfl
  · cases h
    rfl
  · cases h

theorem signature_setSignature {i j : Nat} {sig sig' : Signature}
    (h : o.setSignature j sig = .ok o') (hi : o'.signature i = .ok sig') :
    i = j ∧ sig' = sig ∨ o.signature i = .ok sig' := by
  have hlt : i < 3 := (List.getElem?_eq_some_iff.1 (index_eq_ok.1 hi)).1
  have hcases : i = 0 ∨ i = 1 ∨ i = 2 := by omega
  match j, h with
  | 0, h | 1, h | 2, h =>
    cases h
    rcases hcases with rfl | rfl | rfl <;> cases hi <;> simp [signature, index]
  | _ + 3, h => cases h

theorem Keeps.setSignature (h : Keeps S o₀ o) {i : Nat} {sig : Signature}
    (hset : o.setSignature i sig = .ok o') (hs : S i sig) : Keeps S o₀ o' := by
  refine ⟨h.same.trans (sameEnd_setSignature hset), fun j sig' hj hzero => ?_⟩
  rcases signature_setSignature hset hj with ⟨rfl, rfl⟩ | hold
  · exact hs
  · exact h.checked j sig' hold hzero

theorem Keeps.setLedger (h : Keeps S o₀ o) (side : Side) (ledger : ConsensusChannel) :
    Keeps S o₀ (o.setLedger side ledger) := by
  refine ⟨h.same.trans (sameEnd_setLedger o side ledger), fun i sig hi hzero => ?_⟩
  refine h.checked i sig ?_ hzero
  cases side with
  | left => exact hi
  | right => exact hi

theorem Keeps.setStatus (h : Keeps S o₀ o) (status : ObjectiveStatus) :
    Keeps S o₀ { o with status := status } :=
  ⟨⟨h.same.initialOutcome, h.same.paidToBob, h.same.vFixed, h.same.myRole⟩, h.checked⟩

/-! ## updates -/

theorem validateSignature_ok {sig : Signature} {i : Nat}
    (h : o.validateSignature cr sig i = .ok ()) : SignedBy cr o i sig := by
  obtain ⟨-, h⟩ := failIf_bind_eq_ok.1 h
  obtain ⟨final, hfinal, h⟩ := Res.bind_eq_ok.1 h
  obtain ⟨signer, hsigner, h⟩ := Res.bind_eq_ok.1 h
  obtain ⟨participant, hp, h⟩ := Res.bind_eq_ok.1 h
  have heq := failIf_eq_ok.1 h
  rw [not_ne_iff] at heq
  subst heq
  exact ⟨final, signer, hfinal, index_eq_ok.1 hp, Res.wrap_eq_ok.1 hsigner⟩

theorem SameEnd.signedBy (h : SameEnd o₀ o) {i : Nat} {sig : Signature}
    (hs : SignedBy cr o i sig) : SignedBy cr o₀ i sig := by
  obtain ⟨final, a, hfinal, ha, hrec⟩ := hs
  refine ⟨final, a, ?_, ?_, hrec⟩
  · rw [← h.finalState_eq]
    exact hfinal
  · rw [← h.vFixed]
    exact ha

section updates
variable (hS : ∀ i sig, SignedBy cr o₀ i sig → S i sig)
include hS

theorem Keeps.receiveSignatures {incoming : List Signature} {is : List Nat} (h : Keeps S o₀ d)
    (hrun : o.receiveSignatures cr incoming is d = .ok o') : Keeps S o₀ o' := by
  induction is generalizing d with
  | nil =>
    cases hrun
    exact h
  | cons i is ih =>
    obtain ⟨existingSig, -, hrun⟩ := Res.bind_eq_ok.1 hrun
    obtain ⟨incomingSig, -, hrun⟩ := Res.bind_eq_ok.1 hrun
    split at hrun
    · exact ih h hrun
    · split at hrun
      · split at hrun
        · exact ih h hrun
        · cases hrun
      · obtain ⟨⟨⟩, hvalid, hrun⟩ := Res.bind_eq_ok.1 hrun
        obtain ⟨next, hset, hrun⟩ := Res.bind_eq_ok.1 hrun
        have hsigned := validateSignature_ok (Res.wrap_eq_ok.1 hvalid)
        exact ih (h.setSignature hset (hS _ _ (h.same.signedBy hsigned))) hrun

omit hS in
theorem Keeps.receiveProposal {side : Side} {sp : SignedProposal} (h : Keeps S o₀ d)
    (hrun : d.receiveProposal cr side sp = .ok o') : Keeps S o₀ o' := by
  unfold VirtualDefund.Objective.receiveProposal at hrun
  split at hrun
  · cases hrun
  · split at hrun
    · cases hrun
      exact h.setLedger _ _
    · split at hrun
      · cases hrun
        exact h.setLedger _ _
      · cases hrun
    · cases hrun

theorem Keeps.update {event : ObjectiveEvent} (h : Keeps S o₀ o)
    (hrun : o.update cr event = .ok o') : Keeps S o₀ o' := by
  obtain ⟨id, -, hrun⟩ := Res.bind_eq_ok.1 hrun
  obtain ⟨-, hrun⟩ := failIf_bind_eq_ok.1 hrun
  obtain ⟨copy, hcopy, hrun⟩ := Res.bind_eq_ok.1 hrun
  obtain ⟨next, hnext, hrun⟩ := Res.bind_eq_ok.1 hrun
  obtain rfl := clone_eq hcopy
  have hsigs : Keeps S o₀ next := by
    unfold updateSignatures at hnext
    split at hnext
    · cases hnext
      exact h
    · obtain ⟨_, -, hnext⟩ := Res.bind_eq_ok.1 hnext
      obtain ⟨_, -, hnext⟩ := Res.bind_eq_ok.1 hnext
      obtain ⟨-, hnext⟩ := failIf_bind_eq_ok.1 hnext
      exact h.receiveSignatures hS hnext
  obtain ⟨vId, -, hrun⟩ := Res.bind_eq_ok.1 hrun
  split at hrun
  · cases hrun
    exact hsigs
  · split at hrun
    · cases hrun
    · split at hrun
      · exact hsigs.receiveProposal hrun
      · split at hrun
        · exact hsigs.receiveProposal hrun
        · cases hrun

end updates

/-! ## the reasons for using the key -/

inductive Justified (cr : Crypto) : KeyUse Objective → Prop
  | final {o : Objective} {final : State} (hfinal : o.finalState = .ok final) :
      Justified cr ⟨o, .state final⟩
  | ledger {o : Objective} {side : Side} {ledger : ConsensusChannel} {sp : SignedProposal}
      (hfull : o.fullySigned = true) (hledger : o.ledger side = some ledger)
      (hsp : o.ledgerProposal cr ledger = .ok sp.proposal) :
      Justified cr ⟨o, .proposal ledger sp⟩

structure Proper (cr : Crypto) (S : Nat → Signature → Prop) (o₀ : Objective)
    (u : KeyUse Objective) : Prop where
  reason : Justified cr u
  keeps : Keeps S o₀ u.during

structure Cranking (cr : Crypto) (S : Nat → Signature → Prop) (o₀ : Objective) (k : Work) :
    Prop where
  keeps : Keeps S o₀ k.updated
  uses : ∀ u ∈ k.uses, Proper cr S o₀ u

/-- what the key makes has the property -/
def Attests (cr : Crypto) (S : Nat → Signature → Prop) (o₀ : Objective) (sk : Bytes) : Prop :=
  ∀ final sig, o₀.finalState = .ok final → final.sign cr sk = .ok sig → S o₀.myRole sig

section cranking
variable {k : Work} {sk : Bytes} {side : Side} {ledger : ConsensusChannel}

theorem Cranking.use (h : Cranking cr S o₀ k) {x : Signed} (hx : Justified cr ⟨k.updated, x⟩) :
    Cranking cr S o₀ (k.use x) := by
  refine ⟨h.keeps, fun u hu => ?_⟩
  rcases List.mem_append.1 hu with hu | hu
  · exact h.uses u hu
  · rw [List.mem_singleton.1 hu]
    exact ⟨hx, h.keeps⟩

theorem signFinal_post (hkey : Attests cr S o₀ sk) (ho : SameEnd o₀ o)
    (h : Cranking cr S o₀ k) :
    (o.signFinal cr sk).Post k (fun _ => Cranking cr S o₀) (Cranking cr S o₀) := by
  apply Meth.post_bind
  apply Meth.post_get
  apply Meth.post_bind
  apply Meth.post_lift
  · intro signed _
    apply Meth.post_ite
    · intro _
      exact Meth.post_pure h
    · intro _
      apply Meth.post_bind
      apply Meth.post_lift
      · intro final hfinal
        have hfinal' : k.updated.finalState = .ok final := by
          rw [h.keeps.same.finalState_eq, ← ho.finalState_eq]
          exact hfinal
        have hused := h.use (.final hfinal')
        apply Meth.post_bind
        apply Meth.post_modify
        apply Meth.post_bind
        apply Meth.post_lift
        · intro sig hsig
          have hsigned : S k.updated.myRole sig := by
            rw [h.keeps.same.myRole]
            exact hkey final sig (ho.finalState_eq ▸ hfinal) (Res.wrap_eq_ok.1 hsig)
          apply Meth.post_bind
          apply Meth.post_lift
          · intro updated hset
            have hnext : Cranking cr S o₀ { k.use (.state final) with updated := updated } :=
              ⟨h.keeps.setSignature hset hsigned, hused.uses⟩
            apply Meth.post_bind
            apply Meth.post_modify
            apply Meth.post_bind
            apply Meth.post_lift
            · intro signedFinal _
              apply Meth.post_bind
              apply Meth.post_lift
              · intro id _
                apply Meth.post_modify
                exact ⟨hnext.keeps, hnext.uses⟩
              · exact hnext
            · exact hnext
          · exact hused
        · exact hused
      · exact h
  · exact h

section ledgers
variable (h : Cranking cr S o₀ k) (hfull : k.updated.fullySigned = true)
variable (hl : k.updated.ledger side = some ledger)
include h hfull hl

theorem Cranking.signed {sp : SignedProposal}
    (hsp : k.updated.ledgerProposal cr ledger = .ok sp.proposal) (next : ConsensusChannel) :
    Cranking cr S o₀ ((k.use (.proposal ledger sp)).setLedger side next) := by
  have hused := h.use (.ledger hfull hl hsp)
  exact ⟨hused.keeps.setLedger side next, hused.uses⟩

theorem proposeRemoval_post : (proposeRemoval cr sk side ledger).Post k
    (fun _ k' => Cranking cr S o₀ k' ∧ k'.updated.signatures = k.updated.signatures)
    (Cranking cr S o₀) := by
  apply Meth.post_bind
  apply Meth.post_get
  apply Meth.post_bind
  apply Meth.post_lift
  · intro proposal hproposal
    cases hp : ConsensusChannel.propose cr proposal sk ledger with
    | error e next =>
      cases e with
      | err e => exact Meth.post_throw h
      | panic r => exact Meth.post_throw h
    | ok sp next =>
      obtain rfl := ConsensusChannel.propose_ok hp
      have hnext := h.signed hfull hl hproposal next
      apply Meth.post_bind
      apply Meth.post_modify
      apply Meth.post_bind
      apply Meth.post_modify
      apply Meth.post_bind
      apply Meth.post_lift
      · intro recipient _
        refine Meth.post_pure ⟨hnext, ?_⟩
        cases side <;> rfl
      · exact hnext
  · exact h

theorem acceptRemoval_post : (acceptRemoval cr sk side ledger).Post k
    (fun _ k' => Cranking cr S o₀ k' ∧ k'.updated.signatures = k.updated.signatures)
    (Cranking cr S o₀) := by
  apply Meth.post_bind
  apply Meth.post_get
  apply Meth.post_bind
  apply Meth.post_lift
  · intro proposal hproposal
    cases hp : ConsensusChannel.signNextProposal cr proposal sk ledger with
    | error e next =>
      cases e with
      | err e => exact Meth.post_throw h
      | panic r => exact Meth.post_throw h
    | ok sp next =>
      obtain rfl := ConsensusChannel.signNextProposal_ok hp
      have hnext := h.signed hfull hl hproposal next
      apply Meth.post_bind
      apply Meth.post_modify
      apply Meth.post_bind
      apply Meth.post_modify
      apply Meth.post_bind
      apply Meth.post_lift
      · intro recipient _
        refine Meth.post_pure ⟨hnext, ?_⟩
        cases side <;> rfl
      · exact hnext
  · exact h

theorem updateLedgerToRemoveGuarantee_post :
    (updateLedgerToRemoveGuarantee cr sk side ledger).Post k
      (fun _ k' => Cranking cr S o₀ k' ∧ k'.updated.signatures = k.updated.signatures)
      (Cranking cr S o₀) := by
  apply Meth.post_bind
  apply Meth.post_get
  apply Meth.post_bind
  apply Meth.post_lift
  · intro vId _
    apply Meth.post_ite
    · intro _
      apply Meth.post_ite
      · intro _
        exact Meth.post_pure ⟨h, rfl⟩
      · intro _
        exact proposeRemoval_post h hfull hl
    · intro _
      apply Meth.post_ite
      · intro _
        exact acceptRemoval_post h hfull hl
      · intro _
        exact Meth.post_pure ⟨h, rfl⟩
  · exact h

end ledgers

theorem defund_post (h : Cranking cr S o₀ k) (hfull : k.updated.fullySigned = true) (side : Side)
    (missing : Bool) : (defund cr sk side missing).Post k
      (fun _ k' => Cranking cr S o₀ k' ∧ k'.updated.signatures = k.updated.signatures)
      (Cranking cr S o₀) := by
  apply Meth.post_ite
  · intro _
    exact Meth.post_pure ⟨h, rfl⟩
  · intro _
    apply Meth.post_bind
    apply Meth.post_get
    apply Meth.post_bind
    apply Meth.post_lift
    · intro defunded _
      apply Meth.post_ite
      · intro _
        exact Meth.post_pure ⟨h, rfl⟩
      · intro _
        cases hl : k.updated.ledger side with
        | none => exact Meth.post_throw h
        | some ledger =>
          apply Meth.post_bind
          refine (Meth.post_wrap (updateLedgerToRemoveGuarantee_post h hfull hl)).mono ?_
            fun _ h' => h'
          rintro se k' ⟨hk', hsigs⟩
          apply Meth.post_modify
          exact ⟨⟨hk'.keeps, hk'.uses⟩, hsigs⟩
    · exact h

theorem progress_post (sk : Bytes) (h : Cranking cr S o₀ k) :
    (progress cr sk).Post k (fun _ => Cranking cr S o₀) (Cranking cr S o₀) := by
  apply Meth.post_bind
  apply Meth.post_get
  apply Meth.post_ite
  · intro _
    exact Meth.post_pure h
  · intro hfull
    rw [Bool.not_eq_false] at hfull
    apply Meth.post_bind
    refine (defund_post h hfull .left _).mono ?_ fun _ h' => h'
    rintro ⟨⟩ k₁ ⟨h₁, hsigs⟩
    have hfull₁ : k₁.updated.fullySigned = true := by
      unfold fullySigned
      rw [hsigs]
      exact hfull
    apply Meth.post_bind
    refine (defund_post h₁ hfull₁ .right _).mono ?_ fun _ h' => h'
    rintro ⟨⟩ k₂ ⟨h₂, -⟩
    apply Meth.post_bind
    apply Meth.post_get
    apply Meth.post_bind
    apply Meth.post_lift
    · intro defunded _
      apply Meth.post_ite
      · intro _
        exact Meth.post_pure h₂
      · intro _
        apply Meth.post_bind
        apply Meth.post_modify
        exact Meth.post_pure ⟨h₂.keeps.setStatus _, h₂.uses⟩
    · exact h₂

/-! ## the whole of `Crank` -/

variable (hkey : Attests cr S o₀ sk) (h : Keeps S o₀ o)
include hkey h

theorem start_post : (o.signFinal cr sk).Post ⟨o, .empty, []⟩ (fun _ => Cranking cr S o₀)
    (Cranking cr S o₀) :=
  signFinal_post hkey h.same ⟨h, fun _ hu => nomatch hu⟩

/-- **every use of the key is justified, whether or not `Crank` returns** -/
theorem crankUses_proper : ∀ u ∈ o.crankUses cr sk, Proper cr S o₀ u := by
  unfold crankUses
  cases hd : o.clone with
  | error e => exact fun u hu => nomatch hu
  | ok d =>
    obtain rfl := clone_eq hd
    by_cases hstatus : d.status = .approved
    · have hstart := start_post hkey h
      unfold Meth.Post at hstart
      simp only [ne_eq, hstatus, not_true_eq_false, if_false]
      cases hrun : d.signFinal cr sk ⟨d, .empty, []⟩ with
      | error e k =>
        rw [hrun] at hstart
        exact hstart.uses
      | ok u k =>
        rw [hrun] at hstart
        exact (progress_post sk hstart).after.uses
    · simp only [ne_eq, hstatus, not_false_eq_true, if_true]
      exact fun u hu => nomatch hu

theorem Keeps.crank {r : Cranked} (hr : o.crank cr sk = .ok r) : Keeps S o₀ r.updated := by
  obtain ⟨d, hd, hr⟩ := Res.bind_eq_ok.1 hr
  obtain rfl := clone_eq hd
  by_cases hstatus : d.status = .approved
  · rw [if_neg (not_not.2 hstatus)] at hr
    have hstart := start_post hkey h
    unfold Meth.Post at hstart
    cases hrun : d.signFinal cr sk ⟨d, .empty, []⟩ with
    | error e k =>
      rw [hrun] at hr hstart
      cases e with
      | err e =>
        cases hr
        exact hstart.keeps
      | panic reason => cases hr
    | ok _ k =>
      rw [hrun] at hr hstart
      simp only at hr
      have hend := progress_post sk hstart
      unfold Meth.Post at hend
      cases hrest : VirtualDefund.Objective.progress cr sk k with
      | ok w k' =>
        rw [hrest] at hr hend
        cases hr
        exact hend.keeps
      | error e k' =>
        rw [hrest] at hr hend
        cases e with
        | err e =>
          cases hr
          exact ⟨⟨h.same.initialOutcome, h.same.paidToBob, h.same.vFixed, h.same.myRole⟩,
            h.checked⟩
        | panic reason => cases hr
  · rw [if_pos hstatus] at hr
    cases hr
    exact h

end cranking

/-! ## runs -/

/-- a `Crank` is called with such a key -/
def Call.Attests (cr : Crypto) (S : Nat → Signature → Prop) (o₀ : Objective) : Call → Prop
  | .crank sk => Objective.Attests cr S o₀ sk
  | _ => True

theorem Call.keeps_step (hS : ∀ i sig, SignedBy cr o₀ i sig → S i sig) (o : Objective)
    (call : Call) (h : Keeps S o₀ o) (hcall : Call.Attests cr S o₀ call) :
    Keeps S o₀ (call.step cr o) := by
  cases call with
  | approve =>
    refine Res.getD_ind h fun d hd => ?_
    obtain ⟨x, hx, hend⟩ := Res.bind_eq_ok.1 hd
    obtain rfl := clone_eq hx
    cases hend
    exact h.setStatus _
  | reject =>
    refine Res.getD_ind h fun d hd => ?_
    obtain ⟨x, hx, hend⟩ := Res.bind_eq_ok.1 hd
    obtain rfl := clone_eq hx
    cases hend
    exact h.setStatus _
  | update event => exact Res.getD_ind h fun d hd => h.update hS hd
  | crank sk => exact Res.map_getD_ind h fun r hr => h.crank hcall hr

theorem Call.uses_proper {call : Call} {u : KeyUse Objective} (h : Keeps S o₀ o)
    (hcall : Call.Attests cr S o₀ call) (hu : u ∈ call.uses cr o) : Proper cr S o₀ u := by
  cases call with
  | crank sk => exact crankUses_proper hcall h u hu
  | approve => cases hu
  | reject => cases hu
  | update event => cases hu

theorem keeps_new (h : o.signatures = (default, default, default)) : Keeps S o o := by
  refine ⟨SameEnd.refl o, fun i sig hi hzero => ?_⟩
  have hlt : i < 3 := (List.getElem?_eq_some_iff.1 (index_eq_ok.1 hi)).1
  have hcases : i = 0 ∨ i = 1 ∨ i = 2 := by omega
  have hsig : sig = default := by
    unfold signature at hi
    rw [h] at hi
    rcases hcases with rfl | rfl | rfl <;> cases hi <;> rfl
  rw [hsig] at hzero
  cases hzero

end Objective

/-! ## a new objective -/

inductive Opened (cr : Crypto) (getChannel : Destination → Option Channel)
    (getLedger : Address → Option ConsensusChannel) (me : Address) : Objective → Prop
  | request {request : ObjectiveRequest} {preApprove : Bool} {o : Objective}
      (h : newObjective request preApprove me getChannel getLedger = .ok o) :
      Opened cr getChannel getLedger me o
  | message {s : State} {preapprove : Bool} {o : Objective}
      (h : constructObjectiveFromState cr s preapprove me getChannel getLedger = .ok o) :
      Opened cr getChannel getLedger me o

section building
variable {cr : Crypto} {getChannel : Destination → Option Channel}
variable {getLedger : Address → Option ConsensusChannel} {me : Address} {o : Objective}

theorem newObjective_ok {request : ObjectiveRequest} {preApprove : Bool}
    (h : newObjective request preApprove me getChannel getLedger = .ok o) :
    ∃ channel, getChannel request.channelId = some channel ∧
      channel.postFundState.outcome[0]? = some o.initialOutcome ∧
      o.paidToBob = request.paidToBob ∧ o.vFixed = channel.fixedPart ∧
      o.myRole = channel.myIndex ∧ o.signatures = (default, default, default) := by
  unfold newObjective at h
  cases hfound : getChannel request.channelId with
  | none => rw [hfound] at h; cases h
  | some channel =>
    rw [hfound] at h
    obtain ⟨initialOutcome, hinitial, h⟩ := Res.bind_eq_ok.1 h
    obtain ⟨_, -, h⟩ := Res.bind_eq_ok.1 h
    obtain ⟨_, -, h⟩ := Res.bind_eq_ok.1 h
    obtain ⟨_, -, h⟩ := Res.bind_eq_ok.1 h
    obtain ⟨_, -, hend⟩ := Res.bind_eq_ok.1 h
    cases hend
    exact ⟨channel, rfl, index_eq_ok.1 hinitial, rfl, rfl, rfl, rfl⟩

theorem constructObjectiveFromState_ok {s : State} {preapprove : Bool}
    (h : constructObjectiveFromState cr s preapprove me getChannel getLedger = .ok o) :
    ∃ channelId paidToBob, s.channelId cr = .ok channelId ∧
      calculatePaidToBob cr s getChannel = .ok paidToBob ∧
      newObjective ⟨channelId, some paidToBob⟩ preapprove me getChannel getLedger = .ok o := by
  obtain ⟨-, -, h⟩ := Res.bind_eq_ok.1 h
  obtain ⟨channelId, hid, h⟩ := Res.bind_eq_ok.1 h
  obtain ⟨paidToBob, hpaid, hnew⟩ := Res.bind_eq_ok.1 h
  exact ⟨channelId, paidToBob, hid, hpaid, hnew⟩

theorem Opened.newObjective (h : Opened cr getChannel getLedger me o) :
    ∃ request preApprove,
      VirtualDefund.newObjective request preApprove me getChannel getLedger = .ok o := by
  cases h with
  | request h => exact ⟨_, _, h⟩
  | message h =>
    obtain ⟨_, _, -, -, hnew⟩ := constructObjectiveFromState_ok h
    exact ⟨_, _, hnew⟩

end building
end VirtualDefund

end Nitro
