import Nitro.SetupStates

/-!
# Channels that are their own copies

Every method of an objective works on a copy, and a copy of a `Channel` drops the application data,
computes the id anew and makes the setup records that are missing.  A second copy changes nothing any
more, and neither does a copy after a state of the channel was signed.

* `State.clone_of`               which states are their own copies;
* `Channel.Stable`               what makes a channel its own copy;
* `Channel.stable_clone`         **a copy is its own copy**;
* `Stable.signAndAddState`       **and stays so when a copied state is signed and added**.
-/

set_option linter.unusedSectionVars false

namespace Nitro
open Go FinMap

theorem State.clone_of {s r t : State} (h : s.clone = .ok r) (hfixed : t.fixedPart = s.fixedPart)
    (houtcome : t.outcome = s.outcome) (happ : t.appData = []) : t.clone = .ok t := by
  obtain ⟨fp, hfp, h⟩ := Res.bind_eq_ok.1 h
  obtain ⟨o, ho, -⟩ := Res.bind_eq_ok.1 h
  have hfp' := FixedPart.clone_eq hfp
  have ho' := Exit.clone_eq ho
  unfold State.clone
  rw [hfixed, hfp, houtcome, ho]
  show Except.ok { stateFromFixedAndVariablePart fp t.variablePart with appData := [], outcome := o } =
    _
  rw [hfp', ho', ← hfixed, ← houtcome, ← happ]
  rfl

theorem State.clone_clone {s r : State} (h : s.clone = .ok r) : r.clone = .ok r := by
  have hr := State.clone_eq h
  refine State.clone_of h ?_ ?_ ?_
  · rw [hr]
    rfl
  · rw [hr]
  · rw [hr]

namespace SignedState
variable {cr : Crypto} {ss ss' : SignedState}

theorem clone_self_iff : ss.clone = .ok ss ↔ ss.state.clone = .ok ss.state ∧ ss.sigs.isSome := by
  constructor
  · intro h
    obtain ⟨s, hs, h⟩ := Res.bind_eq_ok.1 h
    have h := Except.ok.inj h
    rw [← h]
    refine ⟨?_, rfl⟩
    show s.clone = .ok s
    exact State.clone_clone hs
  · rintro ⟨hs, hsigs⟩
    unfold clone
    rw [hs]
    obtain ⟨m, hm⟩ := Option.isSome_iff_exists.1 hsigs
    cases ss
    cases hm
    rfl

theorem clone_clone (h : ss.clone = .ok ss') : ss'.clone = .ok ss' := by
  obtain ⟨s, hs, h⟩ := Res.bind_eq_ok.1 h
  cases h
  exact clone_self_iff.2 ⟨State.clone_clone hs, rfl⟩

theorem clone_addSignature {sig : Signature} (h : ss.state.clone = .ok ss.state)
    (hadd : ss.addSignature cr sig = .ok ss') : ss'.clone = .ok ss' := by
  have hstate := (addSignature_ok hadd).1
  unfold addSignature at hadd
  obtain ⟨a, -, hadd⟩ := Res.bind_eq_ok.1 hadd
  cases hi : ss.state.participants.findIdx? (fun p => decide (p = a)) with
  | none => simp only [hi] at hadd; cases hadd
  | some i =>
    simp only [hi] at hadd
    obtain ⟨-, hset⟩ := failIf_bind_eq_ok.1 hadd
    refine clone_self_iff.2 ⟨hstate ▸ h, ?_⟩
    unfold setSig at hset
    split at hset
    · cases hset
      rfl
    · cases hset

theorem clone_merge {ss2 : SignedState} (h : ss.clone = .ok ss) :
    ((merge cr ss2).after ss).clone = .ok ((merge cr ss2).after ss) := by
  refine merge_inv (I := fun x => x.clone = .ok x) ss2 (fun x x' i sig _ _ hx hadd => ?_) h
  exact clone_addSignature (clone_self_iff.1 hx).1 hadd

end SignedState

namespace Channel
variable {cr : Crypto} {c d : Channel}

structure Stable (cr : Crypto) (c : Channel) : Prop where
  pre : c.preFundState.clone = .ok c.preFundState
  made : ∃ e, new cr c.preFundState c.myIndex = .ok e ∧ e.id = c.id
  setup : ∀ t, t = preFundTurnNum ∨ t = postFundTurnNum → t ∈ c.signedStateForTurnNum
  records : ∀ t ss, c.signedStateForTurnNum.lookup t = some ss → ss.clone = .ok ss
  fixed : c.fixedPart.clone = .ok c.fixedPart

theorem cloneStates_self {m : Map UInt64 SignedState}
    (h : ∀ t ss, m.lookup t = some ss → ss.clone = .ok ss) : cloneStates m = .ok m := by
  have hrecord : ∀ t ∈ m, ((m.lookup t).getD SignedState.zero).clone =
      .ok ((m.lookup t).getD SignedState.zero) := by
    intro t ht
    obtain ⟨ss, hl⟩ := Finmap.mem_iff.1 ht
    rw [hl]
    exact h t ss hl
  unfold cloneStates
  rw [if_pos]
  · congr 1
    refine Finmap.ext_lookup fun t => ?_
    rw [lookup_ofKeys]
    by_cases ht : t ∈ m
    · rw [if_pos (Finmap.mem_keys.2 ht), hrecord t ht]
      obtain ⟨ss, hl⟩ := Finmap.mem_iff.1 ht
      rw [hl]
      rfl
    · rw [if_neg (fun hk => ht (Finmap.mem_keys.1 hk)), Finmap.lookup_eq_none.2 ht]
  · refine all_eq_true.2 fun t ht => ?_
    rw [hrecord t ht]
    rfl

theorem Stable.clone (h : Stable cr c) : c.clone cr = .ok c := by
  obtain ⟨e, he, hid⟩ := h.made
  obtain ⟨-, hindex, -, -, hstates⟩ := new_ok he
  -- the records of the new channel are setup records, which are there already
  have hunion : c.signedStateForTurnNum ∪ e.signedStateForTurnNum = c.signedStateForTurnNum := by
    refine Finmap.ext_lookup fun t => ?_
    by_cases ht : t ∈ c.signedStateForTurnNum
    · exact Finmap.lookup_union_left ht
    · rw [Finmap.lookup_union_right ht, Finmap.lookup_eq_none.2 ht]
      cases hl : e.signedStateForTurnNum.lookup t with
      | none => rfl
      | some ss =>
        rcases lookup_new he hl with ⟨h0, -⟩ | ⟨h1, -⟩
        · exact absurd (h.setup t (.inl h0)) ht
        · exact absurd (h.setup t (.inr h1)) ht
  unfold Channel.clone
  rw [h.pre]
  simp only [Res.ok_bind, he, cloneStates_self h.records, h.fixed, hunion, Funds.clone_eq]
  rw [hid, hindex]

theorem cloneStates_records {m m' : Map UInt64 SignedState} (h : cloneStates m = .ok m')
    {t : UInt64} {ss : SignedState} (hl : m'.lookup t = some ss) : ss.clone = .ok ss := by
  have hlookup := lookup_cloneStates h t
  rw [hl] at hlookup
  obtain ⟨x, hx, rfl⟩ := Option.map_eq_some_iff.1 hlookup.symm
  unfold cloneStates at h
  split at h
  · next hall =>
    have hsome := all_eq_true.1 hall t (Finmap.mem_of_lookup_eq_some hx)
    rw [hx] at hsome
    cases hc : x.clone with
    | error e => simp [hc, Except.toOption] at hsome
    | ok y =>
      rw [← SignedState.clone_eq hc]
      exact SignedState.clone_clone hc
  · cases h

theorem new_records {s r : State} {i : Nat} {e : Channel} (h : new cr r i = .ok e)
    (hs : s.clone = .ok r) {t : UInt64} {ss : SignedState}
    (hl : e.signedStateForTurnNum.lookup t = some ss) : ss.clone = .ok ss := by
  have hr := State.clone_clone hs
  rcases lookup_new h hl with ⟨-, rfl⟩ | ⟨-, rfl⟩
  · exact SignedState.clone_self_iff.2 ⟨hr, rfl⟩
  · exact SignedState.clone_self_iff.2 ⟨State.clone_of hr rfl rfl rfl, rfl⟩

/-- **a copy is its own copy** -/
theorem stable_clone (h : c.clone cr = .ok d) : Stable cr d := by
  obtain ⟨pre, hpre, h⟩ := Res.bind_eq_ok.1 h
  cases hnew : new cr pre c.myIndex with
  | error e => simp only [hnew] at h; cases h
  | ok e =>
    simp only [hnew] at h
    obtain ⟨states, hstates, h⟩ := Res.bind_eq_ok.1 h
    obtain ⟨fp, hfp, h⟩ := Res.bind_eq_ok.1 h
    cases h
    obtain ⟨-, hindex, -, -, hmade⟩ := new_ok hnew
    have hsetup : ∀ t, t = preFundTurnNum ∨ t = postFundTurnNum → t ∈ e.signedStateForTurnNum := by
      intro t ht
      rw [hmade]
      rcases ht with rfl | rfl <;> simp
    -- the prefund state of the copy is the copied prefund state
    have hstate : (((states ∪ e.signedStateForTurnNum).lookup preFundTurnNum).getD
        SignedState.zero).state = pre := by
      have hlookup := lookup_cloneStates hstates preFundTurnNum
      cases hl : c.signedStateForTurnNum.lookup preFundTurnNum with
      | some ss =>
        rw [hl] at hlookup
        rw [Finmap.lookup_union_left (Finmap.mem_of_lookup_eq_some hlookup), hlookup]
        have hss : c.preFundState = ss.state := by simp [preFundState, signedState, hl]
        rw [State.clone_eq hpre, hss]
        rfl
      | none =>
        rw [hl] at hlookup
        have hnot : preFundTurnNum ∉ states := Finmap.lookup_eq_none.1 hlookup
        rw [Finmap.lookup_union_right hnot, hmade, Finmap.lookup_insert_of_ne _ (by decide),
          Finmap.lookup_insert]
        rfl
    have hpre' := State.clone_clone hpre
    refine ⟨?_, ⟨e, ?_, rfl⟩, fun t ht => Finmap.mem_union.2 (.inr (hsetup t ht)), ?_, ?_⟩
    · show State.clone (((states ∪ e.signedStateForTurnNum).lookup preFundTurnNum).getD
        SignedState.zero).state = .ok (((states ∪ e.signedStateForTurnNum).lookup
          preFundTurnNum).getD SignedState.zero).state
      rw [hstate]
      exact hpre'
    · show new cr (((states ∪ e.signedStateForTurnNum).lookup preFundTurnNum).getD
        SignedState.zero).state e.myIndex = .ok e
      rw [hstate, hindex]
      exact hnew
    · intro t ss hl
      have hl : (states ∪ e.signedStateForTurnNum).lookup t = some ss := hl
      by_cases ht : t ∈ states
      · rw [Finmap.lookup_union_left ht] at hl
        exact cloneStates_records hstates hl
      · rw [Finmap.lookup_union_right ht] at hl
        exact new_records hnew hpre hl
    · show fp.clone = .ok fp
      have hfp' := FixedPart.clone_eq hfp
      subst hfp'
      exact hfp

theorem Stable.store (h : Stable cr c) {t : UInt64} {ss : SignedState} (hss : ss.clone = .ok ss)
    (hpre : t = preFundTurnNum → ss.state = c.preFundState) : Stable cr (c.store t ss) := by
  have hstate : (c.store t ss).preFundState = c.preFundState := by
    show ((c.store t ss).signedState preFundTurnNum).state = _
    by_cases e : t = preFundTurnNum
    · rw [e, signedState_store, hpre e]
    · rw [signedState_store_of_ne ss (Ne.symm e)]
      rfl
  refine ⟨?_, ?_, fun t' ht' => Finmap.mem_insert.2 (.inr (h.setup t' ht')), ?_, h.fixed⟩
  · rw [hstate]
    exact h.pre
  · rw [hstate]
    exact h.made
  · intro t' ss' hl
    rcases lookup_store hl with ⟨-, rfl⟩ | ⟨-, hl⟩
    · exact hss
    · exact h.records t' ss' hl

theorem Stable.addSignedState (h : Stable cr c) {ss : SignedState} (hss : ss.clone = .ok ss) :
    Stable cr ((Channel.addSignedState cr ss).after c) := by
  have hstore : ∀ ss', Recorded cr c ss ss' → Stable cr (c.store ss.state.turnNum ss') := by
    intro ss' hr
    cases hr with
    | fresh hnone =>
      refine h.store hss fun e => ?_
      exact absurd (h.setup _ (.inl e)) (Finmap.lookup_eq_none.1 hnone)
    | merged hsome =>
      refine h.store (SignedState.clone_merge (h.records _ _ hsome)) fun e => ?_
      rw [SignedState.merge_state]
      rw [e] at hsome
      simp [preFundState, signedState, hsome]
  rcases addSignedState_cases cr ss c with hsame | ⟨ss', -, hr, hrun | ⟨-, -, hrun⟩⟩
  · rwa [hsame]
  · rw [hrun]
    exact hstore ss' hr
  · rw [hrun]
    obtain ⟨hpre, hmade, hsetup, hrecords, hfixed⟩ := hstore ss' hr
    exact ⟨hpre, hmade, hsetup, hrecords, hfixed⟩

/-- **signing a state that is its own copy keeps the channel its own copy** -/
theorem Stable.signAndAddState (h : Stable cr c) {st : State} {sk : Bytes}
    (hst : st.clone = .ok st) : Stable cr ((Channel.signAndAddState cr st sk).after c) := by
  rcases signAndAddState_cases cr st sk c with hsame | ⟨sig, ss, -, hadd, hrun⟩
  · rwa [hsame]
  · rw [hrun]
    have hcopy : (newSignedState st).state.clone = .ok (newSignedState st).state := hst
    exact h.addSignedState (SignedState.clone_addSignature hcopy hadd)

theorem Stable.state (h : Stable cr c) {t : UInt64} (ht : t ∈ c.signedStateForTurnNum) :
    (c.signedState t).state.clone = .ok (c.signedState t).state := by
  obtain ⟨ss, hl⟩ := Finmap.mem_iff.1 ht
  have hss : c.signedState t = ss := by simp [signedState, hl]
  rw [hss]
  exact (SignedState.clone_self_iff.1 (h.records t ss hl)).1

end Channel

end Nitro
