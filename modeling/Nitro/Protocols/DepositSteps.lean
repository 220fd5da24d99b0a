import Nitro.Copies
import Nitro.SetupStates
import Nitro.Protocols.DirectFund
import Mathlib.Logic.Relation

/-!
# The steps of direct funding

What the methods of a `directfund` objective do, said once.  A `Crank` works on a copy of the
objective and takes a few acts on it, each behind a guard; every other method changes the channel,
the status or the block number of a copy.

* `Act cr sk`       an act of `Crank`: sign a setup state, fail to, deposit, complete;
* `crank_acts`      **a `Crank` is a sequence of acts on a copy**;
* `Call.quiet`      what the other calls may do;
* `Deposits`        what is deposited, and when it is safe.
-/

set_option linter.unusedSectionVars false

namespace Nitro
open Go FinMap Relation

namespace DirectFund.Objective
variable {cr : Crypto} {sk : Bytes} {o o' : Objective} {se : SideEffects} {r : Cranked}

theorem clone_ok (h : o.clone cr = .ok o') :
    ∃ d, o.c.clone cr = .ok d ∧ o' = { o with c := d } := by
  obtain ⟨d, hd, h⟩ := Res.bind_eq_ok.1 h
  cases h
  refine ⟨d, hd, ?_⟩
  simp only [Funds.clone_eq]

theorem clone_self (h : Channel.Stable cr o.c) : o.clone cr = .ok o := by
  unfold clone
  rw [h.clone]
  simp only [Res.ok_bind, Funds.clone_eq]

/-! ## deposits -/

/-- a deposit brings each asset from the recorded holdings to the target, and the holdings have
reached the safety thresholds -/
structure Deposits (o : Objective) (deposits : Funds) : Prop where
  amounts : ∀ asset d, deposits.lookup asset = some d → asset ∈ o.myDepositTarget ∧
    ∃ h, o.c.onChainFunding.lookup asset = some h ∧ d = o.myDepositTarget.amount asset - h
  safe : ∀ asset ∈ o.myDepositSafetyThreshold,
    o.myDepositSafetyThreshold.amount asset ≤ o.c.onChainFunding.amount asset

theorem amountToDeposit_congr {o' : Objective} (htarget : o'.myDepositTarget = o.myDepositTarget)
    (hheld : o'.c.onChainFunding = o.c.onChainFunding) :
    o'.amountToDeposit = o.amountToDeposit := by
  unfold amountToDeposit
  rw [htarget, hheld]

theorem amountToDeposit_ok {deposits : Funds} (h : o.amountToDeposit = .ok deposits) :
    ∀ asset d, deposits.lookup asset = some d → asset ∈ o.myDepositTarget ∧
      ∃ held, o.c.onChainFunding.lookup asset = some held ∧
        d = o.myDepositTarget.amount asset - held := by
  unfold amountToDeposit at h
  split at h
  · cases h
  · next hall =>
    cases h
    intro asset d hd
    rw [lookup_ofKeys] at hd
    split at hd
    · next hmem =>
      have hheld : asset ∈ o.c.onChainFunding :=
        not_not.1 (any_eq_false.1 (Bool.eq_false_iff.2 hall) asset (Finmap.mem_keys.1 hmem))
      refine ⟨Finmap.mem_keys.1 hmem, _, Funds.lookup_of_mem hheld, ?_⟩
      exact (Option.some.inj hd).symm
    · cases hd

theorem safeToDeposit_ok (h : o.safeToDeposit = .ok true) :
    ∀ asset ∈ o.myDepositSafetyThreshold,
      o.myDepositSafetyThreshold.amount asset ≤ o.c.onChainFunding.amount asset := by
  intro asset hasset
  unfold safeToDeposit at h
  split at h
  · cases h
  · rw [Except.ok.injEq] at h
    exact all_eq_true.1 h asset hasset

theorem fundingComplete_iff : o.fundingComplete = true ↔
    ∀ asset ∈ o.fullyFundedThreshold, asset ∈ o.c.onChainFunding ∧
      o.fullyFundedThreshold.amount asset ≤ o.c.onChainFunding.amount asset :=
  all_eq_true

/-! ## acts of `Crank` -/

/-- when the setup state of turn `t` gets signed -/
def Signable (o : Objective) (t : UInt64) : Prop :=
  (t = preFundTurnNum ∨ t = postFundTurnNum ∧ o.fundingComplete = true) ∧
    (o.c.signedState t).hasSignatureForParticipant o.c.myIndex = false

/-- one act: the objective and the side effects before and after it -/
inductive Act (cr : Crypto) (sk : Bytes) : Objective × SideEffects → Objective × SideEffects → Prop
  | sign {o : Objective} {se : SideEffects} {t : UInt64} {ss : SignedState} {c : Channel}
      (ht : o.Signable t)
      (hsign : Channel.signAndAddState cr (o.c.signedState t).state sk o.c = .ok ss c) :
      Act cr sk (o, se) ({ o with c := c },
        se.send (createSignedStateMessages o.id ss o.c.myIndex))
  | fail {o : Objective} {se : SideEffects} {t : UInt64} {e : Error} {c : Channel}
      (ht : o.Signable t)
      (hsign : Channel.signAndAddState cr (o.c.signedState t).state sk o.c = .error (.err e) c) :
      Act cr sk (o, se) ({ o with c := c }, .empty)
  | deposit {o : Objective} {se : SideEffects} {deposits : Funds}
      (hpre : o.c.preFundComplete = true) (hdeposits : Deposits o deposits)
      (hfirst : o.transactionSubmitted = false) :
      Act cr sk (o, se) ({ o with transactionSubmitted := true },
        se.submit (.deposit o.c.id deposits))
  | complete {o : Objective} {se : SideEffects} (hpost : o.c.postFundComplete = true) :
      Act cr sk (o, se) ({ o with status := .completed }, se)

theorem signSetup_acts {t : UInt64} {sign : Meth Channel SignedState} {text : String}
    {out : Except Error SideEffects}
    (ht : t = preFundTurnNum ∨ t = postFundTurnNum ∧ o.fundingComplete = true)
    (h : signSetup ((o.c.signedState t).hasSignatureForParticipant o.c.myIndex) sign text o se =
      .ok (o', out))
    (hsign : sign o.c = Channel.signAndAddState cr (o.c.signedState t).state sk o.c) :
    ReflTransGen (Act cr sk) (o, se) (o', out.toOption.getD .empty) := by
  unfold signSetup at h
  split at h
  · cases h
    exact .refl
  · next hnot =>
    have hable : o.Signable t := ⟨ht, Bool.eq_false_iff.2 hnot⟩
    cases hs : Channel.signAndAddState cr (o.c.signedState t).state sk o.c with
    | error e c =>
      rw [hsign, hs] at h
      cases e with
      | panic reason => cases h
      | err e =>
        cases h
        exact .single (.fail hable hs)
    | ok ss c =>
      rw [hsign, hs] at h
      cases h
      exact .single (.sign hable hs)

theorem crankPostfund_acts (hfunded : o.fundingComplete = true)
    (h : o.crankPostfund cr se sk = .ok r) :
    ReflTransGen (Act cr sk) (o, se) (r.updated, r.sideEffects) := by
  obtain ⟨⟨u, out⟩, hsetup, h⟩ := Res.bind_eq_ok.1 h
  have hacts := signSetup_acts (t := postFundTurnNum) (.inr ⟨rfl, hfunded⟩) hsetup rfl
  cases out with
  | error e =>
    cases h
    exact hacts
  | ok se' =>
    dsimp only at h
    split at h
    · cases h
      exact hacts
    · next hpost =>
      cases h
      exact hacts.tail (.complete (Bool.eq_true_of_not_eq_false hpost))

theorem crankFunding_acts (hpre : o.c.preFundComplete = true)
    (h : o.crankFunding cr se sk = .ok r) :
    ReflTransGen (Act cr sk) (o, se) (r.updated, r.sideEffects) := by
  obtain ⟨deposits, hdeposits, h⟩ := Res.bind_eq_ok.1 h
  obtain ⟨safe, hsafe, h⟩ := Res.bind_eq_ok.1 h
  split at h
  · cases h
    exact .refl
  · next hnot =>
    split at h
    · next hincomplete =>
      split at h
      · next hfirst =>
        have htrue : safe = true := by
          cases safe with
          | true => rfl
          | false => exact absurd ⟨hincomplete, rfl⟩ hnot
        rw [htrue] at hsafe
        cases h
        exact .single (.deposit hpre ⟨amountToDeposit_ok hdeposits, safeToDeposit_ok hsafe⟩
          hfirst.2)
      · cases h
        exact .refl
    · next hcomplete => exact crankPostfund_acts (Bool.eq_true_of_not_eq_false hcomplete) h

/-- **a `Crank` is a sequence of acts on a copy of the objective** -/
theorem crank_acts (h : o.crank cr sk = .ok r) :
    ∃ d, o.c.clone cr = .ok d ∧
      ReflTransGen (Act cr sk) ({ o with c := d }, .empty) (r.updated, r.sideEffects) := by
  obtain ⟨u, hclone, h⟩ := Res.bind_eq_ok.1 h
  obtain ⟨d, hd, rfl⟩ := clone_ok hclone
  refine ⟨d, hd, ?_⟩
  split at h
  · cases h
    exact .refl
  · obtain ⟨⟨u, out⟩, hsetup, h⟩ := Res.bind_eq_ok.1 h
    have hacts := signSetup_acts (t := preFundTurnNum) (.inl rfl) hsetup rfl
    cases out with
    | error e =>
      cases h
      exact hacts
    | ok se =>
      dsimp only at h
      split at h
      · cases h
        exact hacts
      · next hpre => exact hacts.trans (crankFunding_acts (Bool.eq_true_of_not_eq_false hpre) h)

/-! ## the other methods -/

/-- what the other methods make of the copy of the channel -/
def Receives (cr : Crypto) (d c : Channel) : Prop :=
  c = d ∨ (∃ ss, c = (Channel.addSignedState cr ss).after d) ∨
    ∃ funds, c = { d with onChainFunding := funds }

/-- the objective after another call: the same, or a copy with another channel, status and block
number; only `Crank` completes an objective -/
inductive Quiet (cr : Crypto) (o : Objective) : Objective → Prop
  | same : Quiet cr o o
  | received {d c : Channel} {status : ObjectiveStatus} {block : UInt64}
      (hd : o.c.clone cr = .ok d) (hc : Receives cr d c)
      (hstatus : status = .completed → o.status = .completed) :
      Quiet cr o { o with c := c, status := status, latestBlockNumber := block }

theorem Call.quiet (cr : Crypto) (o : Objective) {call : Call} (hcall : ∀ sk, call ≠ .crank sk) :
    Quiet cr o (call.step cr o) := by
  cases call with
  | approve =>
    refine Res.getD_ind .same fun o' hr => ?_
    obtain ⟨u, hclone, hend⟩ := Res.bind_eq_ok.1 hr
    obtain ⟨d, hd, rfl⟩ := clone_ok hclone
    cases hend
    exact .received hd (.inl rfl) (fun e => by cases e)
  | reject =>
    refine Res.getD_ind .same fun o' hr => ?_
    obtain ⟨u, hclone, hend⟩ := Res.bind_eq_ok.1 hr
    obtain ⟨d, hd, rfl⟩ := clone_ok hclone
    cases hend
    exact .received hd (.inl rfl) (fun e => by cases e)
  | update event =>
    refine Res.getD_ind .same fun o' hr => ?_
    obtain ⟨-, hr⟩ := failIf_bind_eq_ok.1 hr
    obtain ⟨u, hclone, hr⟩ := Res.bind_eq_ok.1 hr
    obtain ⟨c, hc, hend⟩ := Res.bind_eq_ok.1 hr
    obtain ⟨d, hd, rfl⟩ := clone_ok hclone
    cases hend
    exact .received hd (.inr (.inl ⟨_, (Meth.exec_eq_ok hc).symm⟩)) (fun e => e)
  | updateWithChainEvent event =>
    refine Res.map_getD_ind .same fun r hr => ?_
    obtain ⟨u, hclone, hr⟩ := Res.bind_eq_ok.1 hr
    obtain ⟨d, hd, rfl⟩ := clone_ok hclone
    cases event with
    | deposited id block asset amount held =>
      dsimp only at hr
      split at hr
      · cases hr
        exact .received hd (.inr (.inr ⟨_, rfl⟩)) (fun e => e)
      · cases hr
        exact .received hd (.inl rfl) (fun e => e)
    | allocationUpdated id block asset amount =>
      cases hr
      exact .received hd (.inl rfl) (fun e => e)
    | concluded id block =>
      cases hr
      exact .received hd (.inl rfl) (fun e => e)
  | crank sk => exact absurd rfl (hcall sk)

end DirectFund.Objective

end Nitro
