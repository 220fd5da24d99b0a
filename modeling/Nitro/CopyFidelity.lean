import Nitro.Channel

/-!
# What a copy of a channel keeps

`Clone` runs `New` on a copy of the prefund state and then copies every record into the new channel.
The copy of a state has no application data, and a missing amount cannot be copied.

* `Begun`                  what the calls leave of a new channel;
* `Faithful`               the copy has what was signed, turn by turn;
* `clone_of_whole`         a channel of whole states has a copy;
* `clone_faithful_iff`     **copies are faithful exactly for states without application data and
                           without a missing amount**.
-/

set_option linter.unusedSectionVars false

namespace Nitro
open Go FinMap Runs

/-- a state that a copy does not change -/
def State.Whole (s : State) : Prop :=
  s.appData = [] ∧ ∀ e ∈ s.outcome, ∀ a ∈ e.allocations, ∃ n, a.amount = some n

instance (s : State) : Decidable s.Whole :=
  decidable_of_iff (s.appData = [] ∧ ∀ e ∈ s.outcome, ∀ a ∈ e.allocations, a.amount.isSome) (by
    simp only [Option.isSome_iff_exists]
    rfl)

theorem State.Whole.clone {cr : Crypto} {s : State} {id : Destination} (h : s.Whole)
    (hid : s.channelId cr = .ok id) : s.clone = .ok s := by
  obtain ⟨happ, hamounts⟩ := h
  unfold State.clone
  rw [FixedPart.clone_ok hid, Exit.clone_of_amounts hamounts]
  show Except.ok { s with appData := [] } = _
  rw [← happ]

theorem State.Whole.of_clone {s r : State} (h : s.clone = .ok r) (happ : s.appData = []) :
    s.Whole := by
  obtain ⟨fp, -, h⟩ := Res.bind_eq_ok.1 h
  obtain ⟨o, ho, -⟩ := Res.bind_eq_ok.1 h
  exact ⟨happ, Exit.amounts_of_clone ho⟩

theorem SignedState.copied_state {ss : SignedState} (h : ss.state.appData = []) :
    ss.copied.state = ss.state := by
  show { ss.state with appData := [] } = ss.state
  rw [← h]

namespace Channel
variable {cr : Crypto} {s : State} {c d c₀ : Channel}

/-! ## what the calls keep -/

structure Begun (cr : Crypto) (s : State) (c₀ c : Channel) : Prop where
  id : c.id = c₀.id
  myIndex : c.myIndex = c₀.myIndex
  fixedPart : c.fixedPart = c₀.fixedPart
  pre : ∃ ss, c.signedStateForTurnNum.lookup preFundTurnNum = some ss ∧ ss.state = s
  post : postFundTurnNum ∈ c.signedStateForTurnNum
  numbered : ∀ t ss, c.signedStateForTurnNum.lookup t = some ss →
    ∃ id, ss.state.channelId cr = .ok id

theorem begun_new {i : Nat} (h : new cr s i = .ok c₀) : Begun cr s c₀ c₀ := by
  obtain ⟨hid, -, -, -, hstates⟩ := new_ok h
  refine ⟨rfl, rfl, rfl, ⟨newSignedState s, ?_, rfl⟩, ?_, fun t ss hl => ?_⟩
  · rw [hstates]
    rfl
  · rw [hstates]
    exact Finmap.mem_insert.2 (.inl rfl)
  · rcases lookup_new h hl with ⟨-, rfl⟩ | ⟨-, rfl⟩
    · exact ⟨_, hid⟩
    · exact ⟨_, hid⟩

theorem Begun.store {ss ss' : SignedState} (h : Begun cr s c₀ c) (hr : Recorded cr c ss ss')
    (hid : ss.state.channelId cr = .ok c.id) : Begun cr s c₀ (c.store ss.state.turnNum ss') := by
  -- a record that was there keeps its state
  have hkeeps : ∀ x, c.signedStateForTurnNum.lookup ss.state.turnNum = some x →
      ss'.state = x.state := by
    intro x hx
    cases hr with
    | fresh hnone =>
      rw [hnone] at hx
      cases hx
    | merged hsome =>
      rw [hsome, Option.some.injEq] at hx
      rw [SignedState.merge_state, hx]
  obtain ⟨pre, hpre, hs⟩ := h.pre
  refine ⟨h.id, h.myIndex, h.fixedPart, ?_, Finmap.mem_insert.2 (.inr h.post), fun t x hl => ?_⟩
  · by_cases e : preFundTurnNum = ss.state.turnNum
    · refine ⟨ss', ?_, ?_⟩
      · rw [e]
        exact Finmap.lookup_insert _
      · rw [hkeeps pre (e ▸ hpre)]
        exact hs
    · refine ⟨pre, ?_, hs⟩
      show (c.signedStateForTurnNum.insert _ _).lookup _ = _
      rw [Finmap.lookup_insert_of_ne _ e]
      exact hpre
  · rcases lookup_store hl with ⟨-, rfl⟩ | ⟨-, hl⟩
    · cases hr with
      | fresh _ => exact ⟨_, hid⟩
      | merged hsome =>
        rw [SignedState.merge_state]
        exact h.numbered _ _ hsome
    · exact h.numbered t x hl

theorem Begun.step (h : Begun cr s c₀ c) (call : Call) : Begun cr s c₀ (call.step cr c) := by
  rcases Call.step_cases cr c call with hsame | ⟨ss, hstep, -⟩
  · rwa [hsame]
  · rw [hstep]
    rcases addSignedState_cases cr ss c with hsame | ⟨ss', hid, hr, hrun | ⟨-, -, hrun⟩⟩
    · rwa [hsame]
    · rw [hrun]
      exact h.store hr hid
    · rw [hrun]
      obtain ⟨hid', hindex, hfixed, hpre, hpost, hnum⟩ := h.store hr hid
      exact ⟨hid', hindex, hfixed, hpre, hpost, hnum⟩

theorem Begun.preFundState (h : Begun cr s c₀ c) : c.preFundState = s := by
  obtain ⟨ss, hl, hs⟩ := h.pre
  unfold Channel.preFundState signedState
  rw [hl]
  exact hs

/-! ## copies -/

structure Faithful (cr : Crypto) (c d : Channel) : Prop where
  id : d.id = c.id
  myIndex : d.myIndex = c.myIndex
  fixedPart : d.fixedPart = c.fixedPart
  onChainFunding : d.onChainFunding = c.onChainFunding
  latest : d.latestSupportedStateTurnNum = c.latestSupportedStateTurnNum
  records : ∀ t, Option.Rel (fun ss ss' : SignedState => ss'.state.equal ss.state = .ok true ∧
    ss'.state.hash cr = ss.state.hash cr ∧ ss'.entries = ss.entries ∧
    ∀ sig, ss'.state.recoverSigner cr sig = ss.state.recoverSigner cr sig)
      (c.signedStateForTurnNum.lookup t) (d.signedStateForTurnNum.lookup t)

def AllWhole (c : Channel) : Prop :=
  ∀ t ss, c.signedStateForTurnNum.lookup t = some ss → ss.state.Whole

instance (c : Channel) : Decidable c.AllWhole :=
  decidable_of_iff (all (fun t => decide (c.signedState t).state.Whole) c.signedStateForTurnNum) (by
    rw [all_eq_true]
    refine ⟨fun h t ss hl => ?_, fun h t ht => ?_⟩
    · have hw := of_decide_eq_true (h t (Finmap.mem_of_lookup_eq_some hl))
      rwa [signedState, hl] at hw
    · obtain ⟨ss, hl⟩ := Finmap.mem_iff.1 ht
      rw [signedState, hl]
      exact decide_eq_true (h t ss hl))

theorem cloneStates_of_whole (hnum : ∀ t ss, c.signedStateForTurnNum.lookup t = some ss →
      ∃ id, ss.state.channelId cr = .ok id) (hw : c.AllWhole) :
    ∃ m, cloneStates c.signedStateForTurnNum = .ok m := by
  unfold cloneStates
  rw [if_pos]
  · exact ⟨_, rfl⟩
  · refine all_eq_true.2 fun t ht => ?_
    obtain ⟨ss, hl⟩ := Finmap.mem_iff.1 ht
    obtain ⟨id, hid⟩ := hnum t ss hl
    rw [hl, Option.getD_some, SignedState.clone, (hw t ss hl).clone hid]
    rfl

theorem clone_of_cloneStates {m m' : Map UInt64 SignedState} (h : cloneStates m = .ok m')
    {t : UInt64} {ss : SignedState} (hl : m.lookup t = some ss) : ∃ ss', ss.clone = .ok ss' := by
  unfold cloneStates at h
  split at h
  · next hall =>
    have hsome := all_eq_true.1 hall t (Finmap.mem_of_lookup_eq_some hl)
    rw [hl, Option.getD_some] at hsome
    cases hc : ss.clone with
    | error e => simp [hc, Except.toOption] at hsome
    | ok ss' => exact ⟨ss', rfl⟩
  · cases h

theorem clone_of_whole {i : Nat} (hnew : new cr s i = .ok c₀) (h : Begun cr s c₀ c)
    (hw : c.AllWhole) : ∃ d, c.clone cr = .ok d := by
  obtain ⟨hid, hindex, -, -, -⟩ := new_ok hnew
  obtain ⟨ss, hl, hs⟩ := h.pre
  have hclone : s.clone = .ok s := hs ▸ (hw _ _ hl).clone (hs.symm ▸ hid)
  obtain ⟨m, hm⟩ := cloneStates_of_whole h.numbered hw
  have hfixed : c.fixedPart.clone = .ok c.fixedPart := by
    rw [h.fixedPart, (new_ok hnew).2.2.1]
    exact FixedPart.clone_ok hid
  unfold Channel.clone
  rw [h.preFundState, hclone, Res.ok_bind, h.myIndex, hindex, hnew]
  simp only [hm, hfixed, Res.ok_bind]
  exact ⟨_, rfl⟩

theorem faithful_of_whole {i : Nat} (hnew : new cr s i = .ok c₀) (h : Begun cr s c₀ c)
    (hw : c.AllWhole) (hd : c.clone cr = .ok d) : Faithful cr c d := by
  obtain ⟨hid, hindex, hfixed, hfunding, hlatest, hrecords, hmem⟩ := clone_ok hd
  refine ⟨?_, hindex, hfixed, hfunding, hlatest, fun t => ?_⟩
  · rw [h.preFundState, (new_ok hnew).1] at hid
    rw [h.id]
    exact (Except.ok.inj hid).symm
  · cases hl : c.signedStateForTurnNum.lookup t with
    | some ss =>
      rw [hrecords t ss hl]
      have hstate := SignedState.copied_state (hw t ss hl).1
      refine .some ⟨?_, ?_, rfl, fun sig => ?_⟩
      · rw [hstate]
        exact State.equal_self _
      · rw [hstate]
      · rw [hstate]
    | none =>
      have hnone : d.signedStateForTurnNum.lookup t = none := by
        refine Finmap.lookup_eq_none.2 fun ht => ?_
        have ht' : t ∉ c.signedStateForTurnNum := Finmap.lookup_eq_none.1 hl
        rcases hmem t ht with hc | rfl | rfl
        · exact ht' hc
        · obtain ⟨ss, hpre, -⟩ := h.pre
          exact ht' (Finmap.mem_of_lookup_eq_some hpre)
        · exact ht' h.post
      rw [hnone]
      exact .none

theorem Faithful.allWhole (hd : c.clone cr = .ok d) (h : Faithful cr c d) : c.AllWhole := by
  intro t ss hl
  obtain ⟨-, -, -, -, -, hrecords, -⟩ := clone_ok hd
  have happ : ss.state.appData = [] := by
    have hrel := h.records t
    rw [hl, hrecords t ss hl] at hrel
    cases hrel with
    | some hrel => rw [← State.equal_eq hrel.1]; rfl
  obtain ⟨pre, -, hd⟩ := Res.bind_eq_ok.1 hd
  cases hnew : new cr pre c.myIndex with
  | error e => simp only [hnew] at hd; cases hd
  | ok e =>
    simp only [hnew] at hd
    obtain ⟨states, hstates, -⟩ := Res.bind_eq_ok.1 hd
    obtain ⟨ss', hss'⟩ := clone_of_cloneStates hstates hl
    obtain ⟨r, hr, -⟩ := Res.bind_eq_ok.1 hss'
    exact State.Whole.of_clone hr happ

/-- **which channels have a faithful copy** -/
theorem clone_faithful_iff {i : Nat} {calls : List Call} (hnew : new cr s i = .ok c₀)
    (hrun : run (Call.step cr) c₀ calls = c) :
    (∃ d, c.clone cr = .ok d ∧ Faithful cr c d) ↔ c.AllWhole := by
  have h : Begun cr s c₀ c := by
    rw [← hrun]
    exact run_inv (I := Begun cr s c₀) (fun c call h => h.step call) (begun_new hnew)
  refine ⟨fun ⟨d, hd, hf⟩ => hf.allWhole hd, fun hw => ?_⟩
  obtain ⟨d, hd⟩ := clone_of_whole hnew h hw
  exact ⟨d, hd, faithful_of_whole hnew h hw hd⟩

theorem clone_faithful_five :
    ∃ d, (run (Call.step Crypto.plain) Sample.channel
        [.addSignedState Sample.signedFive]).clone Crypto.plain = .ok d ∧
      Faithful Crypto.plain (run (Call.step Crypto.plain) Sample.channel
        [.addSignedState Sample.signedFive]) d :=
  (clone_faithful_iff Sample.new_channel rfl).2 (by decide +kernel)

end Channel

namespace Sample

/-- the sample state with application data -/
def appState : State := { state 0 with appData := [7] }

def appChannel : Channel :=
  (Channel.new Crypto.plain appState 0).toOption.getD channel

def appCopy : Channel :=
  (appChannel.clone Crypto.plain).toOption.getD channel

end Sample

namespace Channel

/-- the copy of a channel with application data has another prefund state, with another hash -/
theorem appData_dropped :
    new Crypto.plain Sample.appState 0 = .ok Sample.appChannel ∧
      Sample.appChannel.clone Crypto.plain = .ok Sample.appCopy ∧
      Sample.appCopy.preFundState.equal Sample.appChannel.preFundState = .ok false ∧
      Sample.appCopy.preFundState.hash Crypto.plain ≠
        Sample.appChannel.preFundState.hash Crypto.plain :=
  ⟨by decide +kernel, by decide +kernel, by decide +kernel, by decide +kernel⟩

end Channel

end Nitro
