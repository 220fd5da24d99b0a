import Nitro.Channel

/-!
# The setup states of a channel

A channel has a record for its prefund and one for its postfund state from the start.  Signatures get
into them through `merge`, so they are checked.  A copy of a channel drops the application data of its
states, and every method works on a copy: the records that are signed are those of the copy.

* `SignedState.Holds cr G ss`    the signatures are checked, and have the property `G`;
* `Channel.Record`               a record that stays, with such signatures;
* `Channel.Setup`, `Ready`       a channel made for a state, and a copy of one;
* `Record.complete`              **a complete record has such a signature of every participant**.
-/

set_option linter.unusedSectionVars false

namespace Nitro
open Go FinMap

/-- what a copy of a state is -/
def State.copied (s : State) : State := { s with appData := [] }

/-- the postfund state of a channel that starts with `s` -/
def State.postfund (s : State) : State := { s with appData := [], turnNum := postFundTurnNum }

/-! ## signatures with a property -/

namespace SignedState
variable {cr : Crypto} {G G' : State → Signature → Prop} {ss ss' : SignedState}

structure Holds (cr : Crypto) (G : State → Signature → Prop) (ss : SignedState) : Prop where
  checked : ss.Checked cr
  good : ∀ i sig, ss.entries.lookup i = some sig → G ss.state sig

theorem holds_new (s : State) : (newSignedState s).Holds cr G := by
  refine ⟨checked_new s, fun i sig h => ?_⟩
  have h : (∅ : SigMap).lookup i = some sig := h
  rw [AList.lookup_empty] at h
  cases h

theorem Holds.mono (h : ss.Holds cr G) (hG : ∀ s sig, G s sig → G' s sig) : ss.Holds cr G' :=
  ⟨h.checked, fun i sig hi => hG _ _ (h.good i sig hi)⟩

theorem Holds.addSignature {sig : Signature} (h : ss.Holds cr G)
    (hadd : ss.addSignature cr sig = .ok ss') (hG : G ss.state sig) : ss'.Holds cr G := by
  refine ⟨h.checked.addSignature hadd, fun j sig' hj => ?_⟩
  obtain ⟨hstate, i, a, -, -, -, he⟩ := addSignature_ok hadd
  rw [hstate]
  rw [he] at hj
  by_cases e : j = i
  · subst e
    rw [AList.lookup_insert, Option.some.injEq] at hj
    rwa [← hj]
  · rw [AList.lookup_insert_ne e] at hj
    exact h.good j sig' hj

/-- the signatures in `ss` that recover to anybody have the property -/
def Brings (cr : Crypto) (G : State → Signature → Prop) (ss : SignedState) : Prop :=
  ∀ i sig a, ss.entries.lookup i = some sig → ss.state.recoverSigner cr sig = .ok a →
    G ss.state sig

theorem Holds.merge {ss2 : SignedState} (h : ss.Holds cr G) (hG : ss2.Brings cr G) :
    ((SignedState.merge cr ss2).after ss).Holds cr G := by
  refine (merge_inv (I := fun x => x.state = ss.state ∧ x.Holds cr G) ss2
    (fun x x' i sig heq hi hx hadd => ?_) ⟨rfl, h⟩).2
  obtain ⟨hstate, k, a, -, hrec, -, -⟩ := addSignature_ok hadd
  refine ⟨hstate.trans hx.1, hx.2.addSignature hadd ?_⟩
  rw [hx.1, heq] at hrec ⊢
  exact hG i sig a hi hrec

theorem Holds.copied (h : ss.Holds cr G) (happ : ss.state.appData = []) :
    ss.copied.Holds cr G := by
  have hstate : ss.copied.state = ss.state := by
    show { ss.state with appData := [] } = ss.state
    rw [← happ]
  refine ⟨fun i sig hi => ?_, fun i sig hi => ?_⟩
  · rw [hstate]
    exact h.checked i sig hi
  · rw [hstate]
    exact h.good i sig hi

end SignedState

/-! ## records -/

namespace Channel
variable {cr : Crypto} {G G' : State → Signature → Prop} {c d : Channel} {t : UInt64} {st : State}

/-- there is a record for `st` at turn `t`; if the turn is not that of `st`, nobody signed it -/
def Record (cr : Crypto) (G : State → Signature → Prop) (t : UInt64) (st : State) (c : Channel) :
    Prop :=
  ∃ ss, c.signedStateForTurnNum.lookup t = some ss ∧ ss.state = st ∧ ss.Holds cr G ∧
    (ss.entries = ∅ ∨ st.turnNum = t)

theorem Record.mono (h : Record cr G t st c) (hG : ∀ s sig, G s sig → G' s sig) :
    Record cr G' t st c := by
  obtain ⟨ss, hl, hstate, hholds, hturn⟩ := h
  exact ⟨ss, hl, hstate, hholds.mono hG, hturn⟩

theorem Record.state_eq (h : Record cr G t st c) : (c.signedState t).state = st := by
  obtain ⟨ss, hl, hstate, -, -⟩ := h
  simp [signedState, hl, hstate]

theorem Record.congr (h : Record cr G t st c)
    (hd : d.signedStateForTurnNum = c.signedStateForTurnNum) : Record cr G t st d := by
  obtain ⟨ss, hl, hrest⟩ := h
  exact ⟨ss, by rw [hd, hl], hrest⟩

theorem Record.store {ss ss' : SignedState} (h : Record cr G t st c) (hG : ss.Brings cr G)
    (hr : Recorded cr c ss ss') : Record cr G t st (c.store ss.state.turnNum ss') := by
  obtain ⟨x, hl, hstate, hholds, hturn⟩ := h
  by_cases e : t = ss.state.turnNum
  · subst e
    cases hr with
    | fresh hnone =>
      rw [hnone] at hl
      cases hl
    | merged hsome =>
      obtain rfl := Option.some.inj (hsome.symm.trans hl)
      refine ⟨_, Finmap.lookup_insert _, ?_, hholds.merge hG, ?_⟩
      · rw [SignedState.merge_state, hstate]
      · refine SignedState.merge_inv (I := fun y => y.entries = ∅ ∨ st.turnNum = ss.state.turnNum)
          ss (fun y y' i sig heq _ _ _ => .inr ?_) hturn
        rw [← hstate, heq]
  · exact ⟨x, (Finmap.lookup_insert_of_ne _ e).trans hl, hstate, hholds, hturn⟩

theorem Record.addSignedState {ss : SignedState} (h : Record cr G t st c) (hG : ss.Brings cr G) :
    Record cr G t st ((Channel.addSignedState cr ss).after c) := by
  rcases addSignedState_cases cr ss c with hsame | ⟨ss', -, hr, hrun | ⟨-, -, hrun⟩⟩
  · rwa [hsame]
  · rw [hrun]
    exact h.store hG hr
  · rw [hrun]
    exact (h.store hG hr).congr rfl

/-- everybody's signature is known, and has the property -/
def AllSigned (cr : Crypto) (G : State → Signature → Prop) (st : State) : Prop :=
  ∀ (j : Nat) a, st.participants[j]? = some a → ∃ sig, st.recoverSigner cr sig = .ok a ∧ G st sig

theorem AllSigned.mono (h : AllSigned cr G st) (hG : ∀ s sig, G s sig → G' s sig) :
    AllSigned cr G' st := by
  intro j a hj
  obtain ⟨sig, hrec, hsig⟩ := h j a hj
  exact ⟨sig, hrec, hG _ _ hsig⟩

/-- **a complete record has a checked signature of every participant**, with the property -/
theorem Record.complete (h : Record cr G t st c)
    (hall : (c.signedState t).hasAllSignatures = true) {j : Nat} {a : Address}
    (hj : st.participants[j]? = some a) :
    st.turnNum = t ∧ ∃ sig, (c.signedState t).entries.lookup j = some sig ∧
      st.recoverSigner cr sig = .ok a ∧ G st sig := by
  obtain ⟨ss, hl, rfl, hholds, hturn⟩ := h
  have hss : c.signedState t = ss := by simp [signedState, hl]
  rw [hss] at hall ⊢
  obtain ⟨sig, hsig, hrec⟩ := hholds.checked.signed (hholds.checked.full hall) hj
  refine ⟨hturn.resolve_left fun hempty => ?_, sig, hsig, hrec, hholds.good j sig hsig⟩
  rw [hempty, AList.lookup_empty] at hsig
  cases hsig

theorem Record.allSigned (h : Record cr G t st c)
    (hall : (c.signedState t).hasAllSignatures = true) : AllSigned cr G st := by
  intro j a hj
  obtain ⟨-, sig, -, hrec, hG⟩ := h.complete hall hj
  exact ⟨sig, hrec, hG⟩

/-! ## channels made for a state -/

variable {s : State} {i : Nat}

structure Ready (cr : Crypto) (G : State → Signature → Prop) (s : State) (i : Nat) (c : Channel) :
    Prop where
  id : s.channelId cr = .ok c.id
  fixedPart : c.fixedPart = s.fixedPart
  myIndex : c.myIndex = i
  pre : Record cr G preFundTurnNum s.copied c
  post : Record cr G postFundTurnNum s.postfund c

/-- before it is copied for the first time, it is as it was made -/
def Setup (cr : Crypto) (G : State → Signature → Prop) (s : State) (i : Nat) (c : Channel) : Prop :=
  Channel.new cr s i = .ok c ∨ Ready cr G s i c

theorem Ready.mono (h : Ready cr G s i c) (hG : ∀ s sig, G s sig → G' s sig) :
    Ready cr G' s i c :=
  { h with pre := h.pre.mono hG, post := h.post.mono hG }

theorem Setup.mono (h : Setup cr G s i c) (hG : ∀ s sig, G s sig → G' s sig) :
    Setup cr G' s i c := by
  rcases h with hnew | hready
  · exact .inl hnew
  · exact .inr (hready.mono hG)

theorem Record.mem (h : Record cr G t st c) : t ∈ c.signedStateForTurnNum := by
  obtain ⟨ss, hl, -⟩ := h
  exact Finmap.mem_of_lookup_eq_some hl

theorem Setup.mem (h : Setup cr G s i c) (ht : t = preFundTurnNum ∨ t = postFundTurnNum) :
    t ∈ c.signedStateForTurnNum := by
  rcases h with hnew | hready
  · obtain ⟨-, -, -, -, hstates⟩ := new_ok hnew
    rw [hstates]
    rcases ht with rfl | rfl <;> simp
  · rcases ht with rfl | rfl
    · exact hready.pre.mem
    · exact hready.post.mem

theorem Ready.congr (h : Ready cr G s i c) (hid : d.id = c.id) (hfixed : d.fixedPart = c.fixedPart)
    (hindex : d.myIndex = c.myIndex)
    (hstates : d.signedStateForTurnNum = c.signedStateForTurnNum) : Ready cr G s i d := by
  refine ⟨?_, hfixed.trans h.fixedPart, hindex.trans h.myIndex, h.pre.congr hstates,
    h.post.congr hstates⟩
  rw [hid]
  exact h.id

theorem addSignedState_frame (cr : Crypto) (ss : SignedState) (c : Channel) :
    ((Channel.addSignedState cr ss).after c).id = c.id ∧
    ((Channel.addSignedState cr ss).after c).fixedPart = c.fixedPart ∧
    ((Channel.addSignedState cr ss).after c).myIndex = c.myIndex := by
  rcases addSignedState_cases cr ss c with hsame | ⟨ss', -, -, hrun | ⟨-, -, hrun⟩⟩
  · rw [hsame]
    exact ⟨rfl, rfl, rfl⟩
  · rw [hrun]
    exact ⟨rfl, rfl, rfl⟩
  · rw [hrun]
    exact ⟨rfl, rfl, rfl⟩

theorem Ready.addSignedState {ss : SignedState} (h : Ready cr G s i c) (hG : ss.Brings cr G) :
    Ready cr G s i ((Channel.addSignedState cr ss).after c) := by
  obtain ⟨hid, hfixed, hindex⟩ := addSignedState_frame cr ss c
  refine ⟨?_, hfixed.trans h.fixedPart, hindex.trans h.myIndex, h.pre.addSignedState hG,
    h.post.addSignedState hG⟩
  rw [hid]
  exact h.id

theorem Ready.signAndAddState {st : State} {sk : Bytes} (h : Ready cr G s i c)
    (hG : ∀ sig, st.sign cr sk = .ok sig → G st sig) :
    Ready cr G s i ((Channel.signAndAddState cr st sk).after c) := by
  rcases signAndAddState_cases cr st sk c with hsame | ⟨sig, ss, hsig, hadd, hrun⟩
  · rwa [hsame]
  · rw [hrun]
    have hholds := (SignedState.holds_new (G := G) st).addSignature hadd (hG sig hsig)
    exact h.addSignedState fun j sig' a hj _ => hholds.good j sig' hj

theorem record_copied {ss : SignedState} (hl : d.signedStateForTurnNum.lookup t = some ss.copied)
    (hstate : { ss.state with appData := [] } = st) (hholds : ss.Holds cr G)
    (happ : ss.entries = ∅ ∨ ss.state.appData = []) (hturn : ss.entries = ∅ ∨ st.turnNum = t) :
    Record cr G t st d := by
  refine ⟨ss.copied, hl, hstate, ?_, hturn⟩
  rcases happ with hempty | happ
  · have hcopied : ss.copied = newSignedState { ss.state with appData := [] } := by
      show (⟨_, some ss.entries⟩ : SignedState) = _
      rw [hempty]
      rfl
    rw [hcopied]
    exact SignedState.holds_new _
  · exact hholds.copied happ

/-- **a copy is ready** -/
theorem Setup.clone (h : Setup cr G s i c) (hd : c.clone cr = .ok d) : Ready cr G s i d := by
  obtain ⟨hid, hindex, hfixed, -, -, hlookup, -⟩ := clone_ok hd
  rcases h with hnew | hready
  · obtain ⟨-, hindex', hfixed', -, hstates⟩ := new_ok hnew
    have hpre : c.signedStateForTurnNum.lookup preFundTurnNum = some (newSignedState s) := by
      rw [hstates, Finmap.lookup_insert_of_ne _ (by decide), Finmap.lookup_insert]
    have hpost : c.signedStateForTurnNum.lookup postFundTurnNum =
        some (newSignedState s.postfund) := by
      rw [hstates, Finmap.lookup_insert]
      rfl
    refine ⟨?_, hfixed.trans hfixed', hindex.trans hindex', ?_, ?_⟩
    · have hstate : c.preFundState = s := by simp [preFundState, signedState, hpre, newSignedState]
      rwa [hstate] at hid
    · exact record_copied (hlookup _ _ hpre) rfl (SignedState.holds_new s) (.inl rfl) (.inl rfl)
    · exact record_copied (hlookup _ _ hpost) rfl (SignedState.holds_new _) (.inl rfl) (.inl rfl)
  · obtain ⟨pre, hpre, hprestate, hpreholds, hpreturn⟩ := hready.pre
    obtain ⟨post, hpost, hpoststate, hpostholds, hpostturn⟩ := hready.post
    refine ⟨?_, hfixed.trans hready.fixedPart, hindex.trans hready.myIndex, ?_, ?_⟩
    · have hstate : c.preFundState = s.copied := hready.pre.state_eq
      rwa [hstate] at hid
    · refine record_copied (hlookup _ _ hpre) ?_ hpreholds (.inr ?_) hpreturn
      · rw [hprestate]
        rfl
      · rw [hprestate]
        rfl
    · refine record_copied (hlookup _ _ hpost) ?_ hpostholds (.inr ?_) hpostturn
      · rw [hpoststate]
        rfl
      · rw [hpoststate]
        rfl

/-! ## signatures that stay -/

/-- participant `j` has signed the record of turn `t` -/
def SignedBy (t : UInt64) (j : Nat) (c : Channel) : Prop := j ∈ (c.signedState t).entries

theorem hasSignature_iff {c : Channel} {t : UInt64} {j : Nat} :
    (c.signedState t).hasSignatureForParticipant j = true ↔ SignedBy t j c := by
  simp [SignedState.hasSignatureForParticipant, SignedBy]

theorem SignedBy.lookup {j : Nat} (h : SignedBy t j c) :
    ∃ ss, c.signedStateForTurnNum.lookup t = some ss ∧ j ∈ ss.entries := by
  unfold SignedBy signedState at h
  cases hl : c.signedStateForTurnNum.lookup t with
  | none =>
    rw [hl] at h
    exact absurd h (AList.notMem_empty j)
  | some ss =>
    rw [hl] at h
    exact ⟨ss, rfl, h⟩

theorem signedBy_of_lookup {ss : SignedState} {j : Nat}
    (hl : c.signedStateForTurnNum.lookup t = some ss) (hj : j ∈ ss.entries) : SignedBy t j c := by
  unfold SignedBy signedState
  rwa [hl]

theorem SignedBy.congr {j : Nat} (h : SignedBy t j c)
    (hd : d.signedStateForTurnNum = c.signedStateForTurnNum) : SignedBy t j d := by
  unfold SignedBy signedState at h ⊢
  rwa [hd]

theorem SignedBy.clone {j : Nat} (h : SignedBy t j c) (hd : c.clone cr = .ok d) :
    SignedBy t j d := by
  obtain ⟨ss, hl, hj⟩ := h.lookup
  obtain ⟨-, -, -, -, -, hlookup, -⟩ := clone_ok hd
  exact signedBy_of_lookup (hlookup t ss hl) hj

theorem SignedBy.of_clone {j : Nat} (h : SignedBy t j d) (hd : c.clone cr = .ok d)
    (ht : t ∈ c.signedStateForTurnNum) : SignedBy t j c := by
  obtain ⟨ss, hl⟩ := Finmap.mem_iff.1 ht
  obtain ⟨x, hx, hj⟩ := h.lookup
  obtain ⟨-, -, -, -, -, hlookup, -⟩ := clone_ok hd
  obtain rfl := Option.some.inj ((hlookup t ss hl).symm.trans hx)
  exact signedBy_of_lookup hl hj

theorem SignedBy.store {ss ss' : SignedState} {j : Nat} (h : SignedBy t j c)
    (hr : Recorded cr c ss ss') : SignedBy t j (c.store ss.state.turnNum ss') := by
  obtain ⟨x, hl, hj⟩ := h.lookup
  by_cases e : t = ss.state.turnNum
  · subst e
    cases hr with
    | fresh hnone =>
      rw [hnone] at hl
      cases hl
    | merged hsome =>
      obtain rfl := Option.some.inj (hsome.symm.trans hl)
      exact signedBy_of_lookup (Finmap.lookup_insert _) (SignedState.mem_merge hj ss)
  · exact signedBy_of_lookup ((Finmap.lookup_insert_of_ne _ e).trans hl) hj

/-- **no call takes a signature away** -/
theorem SignedBy.addSignedState {j : Nat} (h : SignedBy t j c) (ss : SignedState) :
    SignedBy t j ((Channel.addSignedState cr ss).after c) := by
  rcases addSignedState_cases cr ss c with hsame | ⟨ss', -, hr, hrun | ⟨-, -, hrun⟩⟩
  · rwa [hsame]
  · rw [hrun]
    exact h.store hr
  · rw [hrun]
    exact (h.store hr).congr rfl

theorem SignedBy.signAndAddState {st : State} {sk : Bytes} {j : Nat} (h : SignedBy t j c) :
    SignedBy t j ((Channel.signAndAddState cr st sk).after c) := by
  rcases signAndAddState_cases cr st sk c with hsame | ⟨sig, ss, -, -, hrun⟩
  · rwa [hsame]
  · rw [hrun]
    exact h.addSignedState ss

theorem addSignedState_true {ss : SignedState} (h : Channel.addSignedState cr ss c = .ok true d) :
    ∃ ss', (c.signedStateForTurnNum.lookup ss.state.turnNum = none ∧ ss' = ss ∨
      ∃ existing, c.signedStateForTurnNum.lookup ss.state.turnNum = some existing ∧
        SignedState.merge cr ss existing = .ok () ss') ∧
      d.signedStateForTurnNum = c.signedStateForTurnNum.insert ss.state.turnNum ss' := by
  have hsupport : ∀ x : Channel, (x.updateSupport ss.state.turnNum).signedStateForTurnNum =
      x.signedStateForTurnNum := by
    intro x
    unfold updateSupport
    split <;> rfl
  unfold Channel.addSignedState at h
  cases hid : ss.state.channelId cr with
  | error e => rw [hid] at h; cases h
  | ok cId =>
    simp only [hid] at h
    split at h
    · cases h
    · split at h
      · cases h
      · unfold record at h
        cases hl : c.signedStateForTurnNum.lookup ss.state.turnNum with
        | none =>
          simp only [hl] at h
          cases h
          exact ⟨ss, .inl ⟨rfl, rfl⟩, hsupport _⟩
        | some existing =>
          simp only [hl] at h
          cases hm : SignedState.merge cr ss existing with
          | error e merged =>
            simp only [hm] at h
            cases e <;> cases h
          | ok u merged =>
            simp only [hm] at h
            cases h
            exact ⟨merged, .inr ⟨existing, rfl, hm⟩, hsupport _⟩

theorem signedState_signAndAddState {st : State} {sk : Bytes} (ht : t ≠ st.turnNum) :
    ((signAndAddState cr st sk).after c).signedState t = c.signedState t := by
  rcases signAndAddState_cases cr st sk c with hsame | ⟨sig, ss, -, hadd, hrun⟩
  · rw [hsame]
  · have hstate : ss.state = st := (SignedState.addSignature_ok hadd).1
    rw [← hstate] at ht
    rw [hrun]
    rcases addSignedState_cases cr ss c with hsame | ⟨y, -, -, hrun | ⟨-, -, hrun⟩⟩
    · rw [hsame]
    · rw [hrun, signedState_store_of_ne y ht]
    · rw [hrun]
      exact signedState_store_of_ne y ht

/-- the key belongs to the participant with index `i`, and no earlier one has the same address -/
structure OwnKey (cr : Crypto) (participants : List Address) (i : Nat) (sk : Bytes) : Prop where
  correct : SignCorrect cr
  own : ∃ me, cr.secretKeyToAddress sk = some me ∧
    participants.findIdx? (fun p => decide (p = me)) = some i

/-- **a state that was signed and added carries our signature** -/
theorem signedBy_signAndAddState {st : State} {sk : Bytes} {ss : SignedState}
    (hkey : OwnKey cr st.participants i sk) (h : signAndAddState cr st sk c = .ok ss d) :
    SignedBy st.turnNum i d := by
  obtain ⟨me, hme, hindex⟩ := hkey.own
  unfold signAndAddState at h
  cases ho : signedOwn cr st sk with
  | error e => rw [ho] at h; cases h
  | ok x =>
    obtain ⟨sig, hsig, hadd⟩ := signedOwn_ok ho
    have hrec : st.recoverSigner cr sig = .ok me := State.recover_sign hkey.correct hsig hme
    have hstate : x.state = st := (SignedState.addSignature_ok hadd).1
    have hentries : x.entries = (∅ : SigMap).insert i sig :=
      SignedState.addSignature_first hadd hrec hindex
    simp only [ho] at h
    cases hrun : addSignedState cr x c with
    | error e c' => simp only [hrun] at h; cases h
    | ok b c' =>
      cases b with
      | false => simp only [hrun] at h; cases h
      | true =>
        simp only [hrun] at h
        cases h
        obtain ⟨y, hy, hd⟩ := addSignedState_true hrun
        rw [hstate] at hd
        refine signedBy_of_lookup (by rw [hd, Finmap.lookup_insert]) ?_
        rcases hy with ⟨-, rfl⟩ | ⟨existing, -, hmerge⟩
        · rw [hentries]
          exact (AList.mem_insert _).2 (.inl rfl)
        · rw [← hstate] at hrec hindex
          exact SignedState.mem_merge_single hmerge hentries hrec hindex

theorem Ready.preFundState_eq (h : Ready cr G s i c) : c.preFundState = s.copied := h.pre.state_eq

theorem Ready.postFundState_eq (h : Ready cr G s i c) : c.postFundState = s.postfund :=
  h.post.state_eq

end Channel

end Nitro
