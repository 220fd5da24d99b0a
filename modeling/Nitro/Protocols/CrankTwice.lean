import Nitro.Copies
import Nitro.Protocols.FundingTrace
import Nitro.Protocols.Closing

/-!
# Cranking twice: the direct protocols

A `Crank` that returned without completing the objective has made all the progress there is: each of its
branches leaves the condition behind that disables it, and the copy that the next `Crank` starts with is
the objective itself.

* `DirectFund.Objective.crank_again`      for funding with deposits;
* `DirectDefund.Objective.crank_again`    for closing a ledger.
-/

set_option linter.unusedSectionVars false

namespace Nitro
open Go FinMap Runs
open Channel (Setup Ready SignedBy OwnKey Stable)

namespace Channel
variable {cr : Crypto} {c d : Channel} {st : State} {sk : Bytes} {i : Nat}

structure Signed (cr : Crypto) (t : UInt64) (i : Nat) (c d : Channel) : Prop where
  stable : Stable cr d
  own : SignedBy t i d
  stays : ∀ t' j, SignedBy t' j c → SignedBy t' j d
  other : ∀ t', t' ≠ t → d.signedState t' = c.signedState t'
  held : d.onChainFunding = c.onChainFunding
  index : d.myIndex = c.myIndex

theorem Signed.refl {t : UInt64} (h : Stable cr c) (hown : SignedBy t i c) : Signed cr t i c c :=
  ⟨h, hown, fun _ _ hj => hj, fun _ _ => rfl, rfl, rfl⟩

theorem signed_signAndAddState {ss : SignedState} (h : Stable cr c) (hst : st.clone = .ok st)
    (hkey : OwnKey cr st.participants i sk) (hsign : signAndAddState cr st sk c = .ok ss d) :
    Signed cr st.turnNum i c d := by
  have hd : (signAndAddState cr st sk).after c = d := Meth.after_ok hsign
  refine ⟨?_, signedBy_signAndAddState hkey hsign, ?_, ?_, ?_, ?_⟩
  · rw [← hd]
    exact h.signAndAddState hst
  · intro t' j hj
    rw [← hd]
    exact hj.signAndAddState
  · intro t' ht'
    rw [← hd]
    exact signedState_signAndAddState ht'
  · rw [← hd]
    exact signAndAddState_onChainFunding cr st sk c
  · rw [← hd]
    rcases signAndAddState_cases cr st sk c with hsame | ⟨sig, x, -, -, hrun⟩
    · rw [hsame]
    · rw [hrun]
      exact (addSignedState_frame cr x c).2.2

end Channel

/-! ## direct funding -/

namespace DirectFund.Objective
variable {cr : Crypto} {s : State} {i : Nat} {sk : Bytes} {o u u' : Objective} {se : SideEffects}
  {r : Cranked}

theorem signSetup_signed {t : UInt64} {sign : Meth Channel SignedState} {text : String}
    {se' : SideEffects} (hready : Ready cr anySig s i u.c) (hstable : Stable cr u.c)
    (h0 : s.turnNum = 0) (hkey : OwnKey cr s.participants i sk)
    (ht : t = preFundTurnNum ∨ t = postFundTurnNum)
    (h : signSetup ((u.c.signedState t).hasSignatureForParticipant u.c.myIndex) sign text u se =
      .ok (u', .ok se'))
    (hsign : sign u.c = Channel.signAndAddState cr (u.c.signedState t).state sk u.c) :
    ∃ c, u' = { u with c := c } ∧ Ready cr anySig s i c ∧ Channel.Signed cr t i u.c c := by
  unfold signSetup at h
  split at h
  · next hsigned =>
    cases h
    refine ⟨u.c, rfl, hready, .refl hstable ?_⟩
    rw [← hready.myIndex]
    exact Channel.hasSignature_iff.1 hsigned
  · cases hs : Channel.signAndAddState cr (u.c.signedState t).state sk u.c with
    | error e c =>
      rw [hsign, hs] at h
      cases e <;> cases h
    | ok ss c =>
      rw [hsign, hs] at h
      cases h
      obtain ⟨st, hrec, hpart, hturn⟩ := hready.record ht h0
      have hstate := hrec.state_eq
      have hclone := hstable.state (hstable.setup t ht)
      rw [hstate] at hs hclone
      refine ⟨c, rfl, ?_, ?_⟩
      · rw [← Meth.after_ok hs]
        exact hready.signAndAddState fun _ _ => trivial
      · rw [← hturn]
        exact Channel.signed_signAndAddState hstable hclone (by rw [hpart]; exact hkey) hs

theorem signSetup_idle {signedByMe : Bool} {sign : Meth Channel SignedState} {text : String}
    (h : signedByMe = true) : signSetup signedByMe sign text u se = .ok (u, .ok se) := by
  unfold signSetup
  rw [if_pos h]

structure Resting (cr : Crypto) (u : Objective) : Prop where
  stable : Stable cr u.c
  approved : u.status = .approved
  signed : u.c.preFundSignedByMe = true

theorem Resting.crank (h : Resting cr u) : u.crank cr sk =
    if u.c.preFundComplete = false then .ok ⟨u, .empty, .completePrefund, none⟩
    else u.crankFunding cr .empty sk := by
  unfold Objective.crank
  rw [clone_self h.stable]
  simp only [Res.ok_bind, h.approved, ne_eq, not_true_eq_false, if_false, signSetup_idle h.signed]

theorem crankPostfund_again (hready : Ready cr anySig s i u.c) (hstable : Stable cr u.c)
    (h0 : s.turnNum = 0) (hkey : OwnKey cr s.participants i sk)
    (hr : u.crankPostfund cr se sk = .ok r) (herr : r.err = none)
    (hopen : r.updated.status ≠ .completed) :
    ∃ c, r.updated = { u with c := c } ∧ Channel.Signed cr postFundTurnNum i u.c c ∧
      r.updated.crankPostfund cr .empty sk = .ok ⟨r.updated, .empty, r.waitingFor, none⟩ := by
  obtain ⟨⟨u', out⟩, hsetup, h⟩ := Res.bind_eq_ok.1 hr
  cases out with
  | error e =>
    cases h
    cases herr
  | ok se' =>
    obtain ⟨c, rfl, hready', hsigned⟩ :=
      signSetup_signed hready hstable h0 hkey (.inr rfl) hsetup rfl
    have hmine : c.postFundSignedByMe = true := by
      show (c.signedState postFundTurnNum).hasSignatureForParticipant c.myIndex = true
      rw [hready'.myIndex]
      exact Channel.hasSignature_iff.2 hsigned.own
    dsimp only at h
    split at h
    · next hincomplete =>
      cases h
      refine ⟨c, rfl, hsigned, ?_⟩
      unfold crankPostfund
      rw [signSetup_idle hmine]
      simp only [Res.ok_bind, hincomplete, if_true]
    · cases h
      exact absurd rfl hopen

theorem safeToDeposit_congr (hsame : SameTargets u u')
    (hheld : u'.c.onChainFunding = u.c.onChainFunding) :
    u'.safeToDeposit = u.safeToDeposit := by
  unfold safeToDeposit
  rw [hsame.safety, hheld]

theorem crankFunding_again (hready : Ready cr anySig s i u.c) (hstable : Stable cr u.c)
    (h0 : s.turnNum = 0) (hkey : OwnKey cr s.participants i sk)
    (hr : u.crankFunding cr se sk = .ok r) (herr : r.err = none)
    (hopen : r.updated.status ≠ .completed) :
    r.updated.status = u.status ∧ (r.updated.c = u.c ∨
      Channel.Signed cr postFundTurnNum i u.c r.updated.c) ∧
      r.updated.crankFunding cr .empty sk = .ok ⟨r.updated, .empty, r.waitingFor, none⟩ := by
  obtain ⟨deposits, hdeposits, h⟩ := Res.bind_eq_ok.1 hr
  obtain ⟨safe, hsafe, h⟩ := Res.bind_eq_ok.1 h
  -- what the second run reads is what the first one read
  have hagain : ∀ v : Objective, SameTargets u v → v.c.onChainFunding = u.c.onChainFunding →
      v.crankFunding cr .empty sk =
        if u.fundingComplete = false ∧ safe = false then
          .ok ⟨v, .empty, .myTurnToFund, none⟩
        else if u.fundingComplete = false then
          if deposits.isNonZero = true ∧ v.transactionSubmitted = false then
            .ok ⟨{ v with transactionSubmitted := true },
              SideEffects.empty.submit (.deposit v.c.id deposits), .completeFunding, none⟩
          else .ok ⟨v, .empty, .completeFunding, none⟩
        else v.crankPostfund cr .empty sk := by
    intro v hsame hheld
    unfold crankFunding
    rw [fundingComplete_congr hsame hheld, amountToDeposit_congr hsame.target hheld,
      safeToDeposit_congr hsame hheld, hdeposits, hsafe]
    rfl
  split at h
  · next hwait =>
    cases h
    refine ⟨rfl, .inl rfl, ?_⟩
    rw [hagain u (.refl u) rfl, if_pos hwait]
  · next hturn =>
    split at h
    · next hincomplete =>
      split at h
      · next hfirst =>
        cases h
        refine ⟨rfl, .inl rfl, ?_⟩
        rw [hagain { u with transactionSubmitted := true } ⟨rfl, rfl, rfl⟩ rfl, if_neg hturn,
          if_pos hincomplete, if_neg]
        rintro ⟨-, hsub⟩
        cases hsub
      · next hnothing =>
        cases h
        refine ⟨rfl, .inl rfl, ?_⟩
        rw [hagain u (.refl u) rfl, if_neg hturn, if_pos hincomplete, if_neg hnothing]
    · next hfunded =>
      obtain ⟨c, hu, hsigned, hpost⟩ :=
        crankPostfund_again hready hstable h0 hkey h herr hopen
      have hsame : SameTargets u r.updated := by
        rw [hu]
        exact ⟨rfl, rfl, rfl⟩
      have hc : r.updated.c = c := by rw [hu]
      refine ⟨by rw [hu], .inr (hc ▸ hsigned), ?_⟩
      rw [hagain r.updated hsame (by rw [hc, hsigned.held]), if_neg hturn, if_neg hfunded, hpost]

/-- **direct funding: a second `Crank` does nothing** -/
theorem crank_again (hsetup : Setup cr anySig s i o.c) (h0 : s.turnNum = 0)
    (hkey : OwnKey cr s.participants i sk) (hr : o.crank cr sk = .ok r) (herr : r.err = none)
    (hopen : r.updated.status ≠ .completed) :
    r.updated.crank cr sk = .ok ⟨r.updated, .empty, r.waitingFor, none⟩ := by
  obtain ⟨u, hclone, h⟩ := Res.bind_eq_ok.1 hr
  obtain ⟨d, hd, rfl⟩ := clone_ok hclone
  have hready := hsetup.clone hd
  have hstable := Channel.stable_clone hd
  split at h
  · cases h
    cases herr
  · next happroved =>
    obtain ⟨⟨u, out⟩, hpre, h⟩ := Res.bind_eq_ok.1 h
    cases out with
    | error e =>
      cases h
      cases herr
    | ok se =>
      obtain ⟨c, rfl, hready', hsigned⟩ :=
        signSetup_signed hready hstable h0 hkey (.inl rfl) hpre rfl
      have hmine : ∀ v : Objective, v.c.myIndex = i → SignedBy preFundTurnNum i v.c →
          v.c.preFundSignedByMe = true := by
        intro v hindex hv
        show (v.c.signedState preFundTurnNum).hasSignatureForParticipant v.c.myIndex = true
        rw [hindex]
        exact Channel.hasSignature_iff.2 hv
      dsimp only at h
      split at h
      · next hincomplete =>
        cases h
        have hrest : Resting cr { o with c := c } :=
          ⟨hsigned.stable, not_not.1 happroved, hmine _ hready'.myIndex hsigned.own⟩
        rw [hrest.crank, if_pos hincomplete]
      · next hcomplete =>
        obtain ⟨hstatus, hc, hagain⟩ :=
          crankFunding_again hready' hsigned.stable h0 hkey h herr hopen
        have hrest : Resting cr r.updated ∧
            r.updated.c.preFundComplete = c.preFundComplete := by
          rcases hc with hc | hpost
          · refine ⟨⟨by rw [hc]; exact hsigned.stable, hstatus.trans (not_not.1 happroved),
              hmine _ ?_ ?_⟩, by rw [hc]⟩
            · rw [hc]
              exact hready'.myIndex
            · rw [hc]
              exact hsigned.own
          · refine ⟨⟨hpost.stable, hstatus.trans (not_not.1 happroved), hmine _ ?_ ?_⟩, ?_⟩
            · rw [hpost.index]
              exact hready'.myIndex
            · exact hpost.stays _ _ hsigned.own
            · show (r.updated.c.signedState preFundTurnNum).hasAllSignatures = _
              rw [hpost.other _ (by decide)]
              rfl
        rw [hrest.1.crank, if_neg (by rw [hrest.2]; exact hcomplete), hagain]

end DirectFund.Objective

/-! ## direct defunding -/

/-- in every recorded state, the address of the key is first found at our index -/
def Channel.Owned (cr : Crypto) (sk : Bytes) (c : Channel) : Prop :=
  ∀ t ss, c.signedStateForTurnNum.lookup t = some ss →
    OwnKey cr ss.state.participants c.myIndex sk

theorem Closing.nothing_to_sign {cr : Crypto} {good : Exit → Prop} {n : UInt64} {c : Channel}
    (h : Closing cr good n c) (hsigned : SignedBy (n + 1) c.myIndex c) :
    ∃ latest, c.latestSignedState = .ok latest ∧
      DirectDefund.Objective.stateToSign latest c.myIndex = .ok none := by
  obtain ⟨ss, hl, hmem⟩ := hsigned.lookup
  obtain ⟨-, hfinal, -⟩ := h.final ss hl
  have hhas : ss.hasSignatureForParticipant c.myIndex = true := by
    have hss : c.signedState (n + 1) = ss := by simp [Channel.signedState, hl]
    rw [← hss]
    exact Channel.hasSignature_iff.2 hsigned
  refine ⟨ss, Channel.latestSignedState_eq hl fun t ht => ?_, ?_⟩
  · rw [h.next]
    exact h.turns t ht
  · unfold DirectDefund.Objective.stateToSign
    rw [if_neg (by rw [hfinal, hhas]; decide)]

theorem Closing.latest {cr : Crypto} {good : Exit → Prop} {n : UInt64} {c : Channel}
    (h : Closing cr good n c) {latest : SignedState} (hl : c.latestSignedState = .ok latest) :
    ∃ t, (t = n ∨ t = n + 1) ∧ c.signedStateForTurnNum.lookup t = some latest := by
  cases hfin : c.signedStateForTurnNum.lookup (n + 1) with
  | some ss =>
    have hlatest : c.latestSignedState = .ok ss := by
      refine Channel.latestSignedState_eq hfin fun t ht => ?_
      rw [h.next]
      exact h.turns t ht
    rw [hlatest, Except.ok.injEq] at hl
    exact ⟨n + 1, .inr rfl, hl ▸ hfin⟩
  | none =>
    obtain ⟨ss, hss, -⟩ := h.ledger
    have hlatest : c.latestSignedState = .ok ss := by
      refine Channel.latestSignedState_eq hss fun t ht => ?_
      have hle := h.turns t ht
      have hne : t.toNat ≠ n.toNat + 1 := fun e => by
        rw [← h.next] at e
        rw [UInt64.toNat_inj.1 e] at ht
        exact Finmap.lookup_eq_none.1 hfin ht
      omega
    rw [hlatest, Except.ok.injEq] at hl
    exact ⟨n, .inl rfl, hl ▸ hss⟩

theorem owned_latest {cr : Crypto} {good : Exit → Prop} {sk : Bytes} {n : UInt64} {c d : Channel}
    (h : Closing cr good n c) (hkey : Channel.Owned cr sk c) (hd : c.clone cr = .ok d)
    {latest : SignedState} (hl : d.latestSignedState = .ok latest) :
    OwnKey cr latest.state.participants d.myIndex sk := by
  obtain ⟨t, ht, hlookup⟩ := (h.clone hd).latest hl
  obtain ⟨-, hindex, -, -, -, hcopied, hturns⟩ := Channel.clone_ok hd
  have hmem : t ∈ c.signedStateForTurnNum := by
    rcases ht with rfl | rfl
    · obtain ⟨ss, hss, -⟩ := h.ledger
      exact Finmap.mem_of_lookup_eq_some hss
    · have hnext := h.next
      have hpos := h.pos
      rcases hturns _ (Finmap.mem_of_lookup_eq_some hlookup) with hmem | he | he
      · exact hmem
      · rw [he] at hnext
        have h0 : preFundTurnNum.toNat = 0 := rfl
        omega
      · rw [he] at hnext
        have h1 : postFundTurnNum.toNat = 1 := rfl
        omega
  obtain ⟨ss, hss⟩ := Finmap.mem_iff.1 hmem
  obtain rfl := Option.some.inj ((hcopied t ss hss).symm.trans hlookup)
  rw [hindex]
  exact hkey t ss hss

namespace DirectDefund.Objective
variable {cr : Crypto} {sk : Bytes} {n : UInt64} {o u : Objective} {r : Cranked}

theorem crankWithdraw_again {t : UInt64} {se : SideEffects} (hr : u.crankWithdraw t se = .ok r)
    (herr : r.err = none) (hopen : r.updated.status ≠ .completed) :
    r.updated.status = u.status ∧ ∀ t', r.updated.crankWithdraw t' .empty =
      .ok ⟨r.updated, .empty, r.waitingFor, none⟩ := by
  unfold crankWithdraw at hr
  cases hs : u.c.latestSupportedState with
  | error e =>
    rw [hs] at hr
    cases e with
    | panic reason => cases hr
    | err e =>
      cases hr
      cases herr
  | ok supported =>
    simp only [hs] at hr
    split at hr
    · next hnot =>
      cases hr
      refine ⟨rfl, fun t' => ?_⟩
      simp only [crankWithdraw, hs, hnot, if_true]
    · next hfinal =>
      split at hr
      · next hheld =>
        have hheld' : ∀ b, ({ u with transactionSubmitted := b } : Objective).fullyWithdrawn =
            false := fun _ => hheld
        split at hr
        · cases hr
          refine ⟨rfl, fun t' => ?_⟩
          simp only [crankWithdraw, hs, if_neg hfinal, hheld', if_true, Bool.true_eq_false,
            and_false, if_false]
        · next hnothing =>
          cases hr
          refine ⟨rfl, fun t' => ?_⟩
          simp only [crankWithdraw, hs, if_neg hfinal, hheld, if_true, if_neg hnothing]
      · cases hr
        exact absurd rfl hopen

theorem crank_of_nothing_to_sign {latest : SignedState} (hstable : Stable cr u.c)
    (happroved : u.status = .approved) (hl : u.c.latestSignedState = .ok latest)
    (hnone : stateToSign latest u.c.myIndex = .ok none) :
    u.crank cr sk = u.crankWithdraw u.c.latestTurn .empty := by
  have hclone : u.clone cr = .ok u := by
    unfold clone
    rw [hstable.clone]
    rfl
  unfold crank
  rw [hclone]
  simp only [Res.ok_bind, happroved, ne_eq, not_true_eq_false, if_false, hl, hnone]

theorem stateToSign_ok {latest : SignedState} {i : Nat} {s : State}
    (h : stateToSign latest i = .ok (some s)) :
    s.participants = latest.state.participants ∧ s.clone = .ok s := by
  unfold stateToSign at h
  split at h
  · obtain ⟨x, hx, h⟩ := Res.bind_eq_ok.1 h
    have hx' := State.clone_eq hx
    have hxx := State.clone_clone hx
    split at h
    · cases h
      refine ⟨?_, hxx⟩
      rw [hx']
    · cases h
      refine ⟨?_, State.clone_of hxx rfl rfl ?_⟩
      · rw [hx']
      · rw [hx']
  · cases h

/-- **closing a ledger: a second `Crank` does nothing** -/
theorem crank_again (hcloses : Closes cr (fun _ => True) n o) (hkey : Channel.Owned cr sk o.c)
    (hr : o.crank cr sk = .ok r) (herr : r.err = none) (hopen : r.updated.status ≠ .completed) :
    r.updated.crank cr sk = .ok ⟨r.updated, .empty, r.waitingFor, none⟩ := by
  have hclosed := (hcloses.crank hr).1
  obtain ⟨u, hclone, h⟩ := Res.bind_eq_ok.1 hr
  have hclosing := (hcloses.clone hclone).1
  obtain ⟨d, hd, rfl⟩ := clone_ok hclone
  have hstable := Channel.stable_clone hd
  split at h
  · cases h
    cases herr
  · next happroved =>
    rw [not_ne_iff] at happroved
    cases hlatest : d.latestSignedState with
    | error e =>
      simp only [hlatest] at h
      cases h
      cases herr
    | ok latest =>
      simp only [hlatest] at h
      obtain ⟨next, hnext, h⟩ := Res.bind_eq_ok.1 h
      cases next with
      | none =>
        obtain ⟨hc, -⟩ := crankWithdraw_ok h
        obtain ⟨hstatus, hagain⟩ := crankWithdraw_again h herr hopen
        have hc : r.updated.c = d := hc
        rw [crank_of_nothing_to_sign (by rw [hc]; exact hstable) (hstatus.trans happroved)
          (by rw [hc]; exact hlatest) (by rw [hc]; exact hnext), hagain]
      | some s =>
        obtain ⟨hpart, hself⟩ := stateToSign_ok hnext
        obtain ⟨hturn, -⟩ := hclosing.stateToSign hlatest hnext
        have hown : OwnKey cr s.participants d.myIndex sk := by
          rw [hpart]
          exact owned_latest hcloses.1 hkey hd hlatest
        cases hrun : Channel.signAndAddState cr s sk d with
        | error e c =>
          simp only [hrun] at h
          cases e with
          | panic reason => cases h
          | err e =>
            cases h
            cases herr
        | ok ss c =>
          simp only [hrun] at h
          obtain ⟨hc, -⟩ := crankWithdraw_ok h
          obtain ⟨hstatus, hagain⟩ := crankWithdraw_again h herr hopen
          have hc : r.updated.c = c := hc
          have hsigned := Channel.signed_signAndAddState hstable hself hown hrun
          rw [hturn] at hsigned
          have hmine : SignedBy (n + 1) c.myIndex c := by
            rw [hsigned.index]
            exact hsigned.own
          rw [hc] at hclosed
          obtain ⟨last, hlast, hnone⟩ := hclosed.nothing_to_sign hmine
          rw [crank_of_nothing_to_sign (by rw [hc]; exact hsigned.stable)
            (hstatus.trans happroved) (by rw [hc]; exact hlast) (by rw [hc]; exact hnone), hagain]

end DirectDefund.Objective

end Nitro
