import Nitro.Channel

/-!
# Support moves forward

`AddSignedState` refuses what is older than the latest supported state, and the supported turn number is
the turn number of the state that is supported.  But the turn number is compared with the value that is
reserved for "nothing is supported", and nothing keeps a state from having that number.

* `addSignedState_stale`    what is older than the latest supported state changes nothing;
* `LatestPlaced`            the record of the latest supported turn is one of that turn;
* `SupportedFrom`           support of at least a given turn, which one call keeps;
* `support_forward`         **without the reserved turn number, support only moves forward**.
-/

set_option linter.unusedSectionVars false

namespace Nitro
open Go FinMap Runs

namespace Channel
variable {cr : Crypto} {c c' : Channel} {ss : SignedState}

theorem addSignedState_stale (hsome : c.latestSupportedStateTurnNum ≠ maxTurnNum)
    (hstale : ss.state.turnNum < c.latestSupportedStateTurnNum) :
    (addSignedState cr ss).after c = c := by
  cases hid : ss.state.channelId cr with
  | error e => simp [Meth.after, addSignedState, hid]
  | ok cId =>
    by_cases hne : cId = c.id
    · simp [Meth.after, addSignedState, hid, hne, hsome, hstale]
    · simp [Meth.after, addSignedState, hid, hne]

/-- the record of the latest supported turn is one of that turn -/
def LatestPlaced (c : Channel) : Prop :=
  c.latestSupportedStateTurnNum ≠ maxTurnNum →
    ∃ ss, c.signedStateForTurnNum.lookup c.latestSupportedStateTurnNum = some ss ∧
      ss.state.turnNum = c.latestSupportedStateTurnNum

theorem latestPlaced_new {s : State} {i : Nat} (h : new cr s i = .ok c) : LatestPlaced c := by
  obtain ⟨-, -, -, hlatest, -⟩ := new_ok h
  exact fun hne => absurd hlatest hne

theorem LatestPlaced.store {ss' : SignedState} (h : LatestPlaced c) (hr : Recorded cr c ss ss') :
    LatestPlaced (c.store ss.state.turnNum ss') := by
  intro hne
  obtain ⟨x, hx, hturn⟩ := h hne
  show ∃ y, (c.signedStateForTurnNum.insert _ _).lookup c.latestSupportedStateTurnNum = some y ∧ _
  by_cases e : c.latestSupportedStateTurnNum = ss.state.turnNum
  · cases hr with
    | fresh hnone =>
      rw [e, hnone] at hx
      cases hx
    | @merged existing hsome =>
      rw [e, hsome, Option.some.injEq] at hx
      subst hx
      refine ⟨(SignedState.merge cr ss).after existing, ?_, ?_⟩
      · rw [e, Finmap.lookup_insert]
      · rw [SignedState.merge_state]
        exact hturn
  · refine ⟨x, ?_, hturn⟩
    rw [Finmap.lookup_insert_of_ne _ e]
    exact hx

theorem LatestPlaced.addSignedState (h : LatestPlaced c) (ss : SignedState) :
    LatestPlaced ((Channel.addSignedState cr ss).after c) := by
  rcases addSignedState_cases cr ss c with hsame | ⟨ss', -, hr, hstore | ⟨hstate, -, hrun⟩⟩
  · rwa [hsame]
  · rw [hstore]
    exact h.store hr
  · rw [hrun]
    intro _
    refine ⟨ss', ?_, ?_⟩
    · exact Finmap.lookup_insert _
    · rw [hstate]

theorem LatestPlaced.latestSupportedState (h : LatestPlaced c)
    (hne : c.latestSupportedStateTurnNum ≠ maxTurnNum) :
    ∃ x, c.latestSupportedState = .ok x ∧ x.turnNum = c.latestSupportedStateTurnNum := by
  obtain ⟨ss, hl, hturn⟩ := h hne
  refine ⟨ss.state, ?_, hturn⟩
  unfold Channel.latestSupportedState
  rw [if_neg hne, signedState, hl]
  rfl

theorem latestSupportedState_ok {x : State} (h : c.latestSupportedState = .ok x) :
    c.latestSupportedStateTurnNum ≠ maxTurnNum := by
  intro hmax
  unfold latestSupportedState at h
  rw [if_pos hmax] at h
  cases h

/-- the channel after a call of `AddSignedState`, whatever the call returns -/
def addStep (cr : Crypto) (c : Channel) (ss : SignedState) : Channel :=
  (addSignedState cr ss).after c

/-- support of at least turn `t` -/
def SupportedFrom (t : UInt64) (c : Channel) : Prop :=
  LatestPlaced c ∧ c.latestSupportedStateTurnNum ≠ maxTurnNum ∧ t ≤ c.latestSupportedStateTurnNum

/-- **one call** with another turn number than the reserved one -/
theorem SupportedFrom.addSignedState {t : UInt64} (h : SupportedFrom t c)
    (hturn : ss.state.turnNum ≠ maxTurnNum) :
    SupportedFrom t ((Channel.addSignedState cr ss).after c) := by
  obtain ⟨hplaced, hne, hle⟩ := h
  refine ⟨hplaced.addSignedState ss, ?_⟩
  by_cases hstale : ss.state.turnNum < c.latestSupportedStateTurnNum
  · rw [addSignedState_stale hne hstale]
    exact ⟨hne, hle⟩
  · rcases addSignedState_cases cr ss c with hsame | ⟨ss', -, -, hstore | ⟨-, -, hrun⟩⟩
    · rw [hsame]
      exact ⟨hne, hle⟩
    · rw [hstore]
      exact ⟨hne, hle⟩
    · rw [hrun]
      exact ⟨hturn, UInt64.le_trans hle (UInt64.not_lt.1 hstale)⟩

/-- **support only moves forward** in a run of calls, from the first supported state on, if no call has
the reserved turn number -/
theorem support_forward {s x : State} {i : Nat} {c₀ : Channel} {before after : List SignedState}
    (hnew : new cr s i = .ok c₀)
    (hbefore : run (addStep cr) c₀ before = c)
    (hx : c.latestSupportedState = .ok x)
    (hafter : run (addStep cr) c after = c')
    (hturn : ∀ ss ∈ after, ss.state.turnNum ≠ maxTurnNum) :
    ∃ y, c'.latestSupportedState = .ok y ∧ x.turnNum ≤ y.turnNum := by
  have hplaced : LatestPlaced c := by
    rw [← hbefore]
    exact run_inv (I := LatestPlaced) (fun c ss h => h.addSignedState ss) (latestPlaced_new hnew)
  obtain ⟨x', hx', hxturn⟩ := hplaced.latestSupportedState (latestSupportedState_ok hx)
  obtain rfl : x = x' := Except.ok.inj (hx.symm.trans hx')
  have hstart : SupportedFrom x.turnNum c :=
    ⟨hplaced, latestSupportedState_ok hx, by rw [hxturn]; exact UInt64.le_refl _⟩
  have hend : SupportedFrom x.turnNum c' := by
    rw [← hafter]
    refine Along.inv (P := fun _ ss => ss.state.turnNum ≠ maxTurnNum) (fun c ss h hss => ?_) hstart
      (Along.of_forall hturn)
    exact h.addSignedState hss
  obtain ⟨hplaced', hne', hle⟩ := hend
  obtain ⟨y, hy, hyturn⟩ := hplaced'.latestSupportedState hne'
  exact ⟨y, hy, by rw [hyturn]; exact hle⟩

end Channel

/-! ## the reserved turn number -/

namespace Sample

/-- the last state of all, with an empty signature for each participant -/
def signedMax : SignedState :=
  ⟨state maxTurnNum, some (((∅ : SigMap).insert 0 default).insert 1 default)⟩

end Sample

namespace Channel

theorem support_forward_five :
    ∃ y, (run (addStep Crypto.plain) Sample.channel
        [Sample.signedFive, Sample.forgedFive]).latestSupportedState = .ok y ∧ 5 ≤ y.turnNum := by
  have hfive : (run (addStep Crypto.plain) Sample.channel
      [Sample.signedFive]).latestSupportedState = .ok (Sample.state 5) := by decide +kernel
  have hturn : ∀ ss ∈ [Sample.forgedFive], ss.state.turnNum ≠ maxTurnNum := by decide +kernel
  have hrun : run (addStep Crypto.plain) (run (addStep Crypto.plain) Sample.channel
        [Sample.signedFive]) [Sample.forgedFive] =
      run (addStep Crypto.plain) Sample.channel [Sample.signedFive, Sample.forgedFive] :=
    (run_append [Sample.forgedFive]).symm
  exact support_forward Sample.new_channel rfl hfive hrun hturn

/-- turn 5 is supported, and then a state of the reserved turn arrives -/
theorem support_lost :
    ∃ c, new Crypto.plain (Sample.state 0) 0 = .ok c ∧
      (run (addStep Crypto.plain) c
        [Sample.signedFive]).latestSupportedState = .ok (Sample.state 5) ∧
      (run (addStep Crypto.plain) c
        [Sample.signedFive, Sample.signedMax]).latestSupportedState =
          .error (.err (.new "no state is yet supported")) :=
  ⟨Sample.channel, Sample.new_channel, by decide +kernel, by decide +kernel⟩

end Channel

end Nitro
