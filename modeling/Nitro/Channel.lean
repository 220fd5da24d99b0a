import Nitro.Lib.Runs
import Nitro.SignedState
import Mathlib.Order.Lattice.Nat

/-!
# Channels

The package `channel`: a `Channel` stores one signed state per turn number and remembers the largest
turn number at which all participants signed.

* `Channel.new`, `addSignedState`, `signAndAddState`, `clone`   the operations;
* `addSignedState_cases`     what a call does to the channel: nothing, a new record, or a merge into
                             an existing one;
* `latest_supported_signed`  a supported state carries everybody's signature, as long as states that
                             arrive at a new turn number carry checked signatures.
-/

set_option linter.unusedSectionVars false

namespace Nitro
open Go FinMap Runs

def preFundTurnNum : UInt64 := 0
def postFundTurnNum : UInt64 := 1

/-- reserved for "there is not yet a supported state" -/
def maxTurnNum : UInt64 := 18446744073709551615

structure Channel where
  id : Destination
  myIndex : Nat
  onChainFunding : Funds
  fixedPart : FixedPart
  signedStateForTurnNum : Map UInt64 SignedState
  latestSupportedStateTurnNum : UInt64
  deriving DecidableEq

namespace Channel

/-- `SignedStateForTurnNum[t]` -/
def signedState (c : Channel) (t : UInt64) : SignedState :=
  (c.signedStateForTurnNum.lookup t).getD SignedState.zero

def store (c : Channel) (t : UInt64) (ss : SignedState) : Channel :=
  { c with signedStateForTurnNum := c.signedStateForTurnNum.insert t ss }

section operations
variable (cr : Crypto)

/-- the prefund state is stored under turn number 0 whatever its own turn number is -/
def new (s : State) (myIndex : Nat) : Res Channel := do
  s.validate cr
  let id ← s.channelId cr
  let post ← s.clone
  let total ← s.outcome.totalAllocated
  .ok { id := id, myIndex := myIndex, onChainFunding := ofKeys total.keys fun _ => 0,
        fixedPart := s.fixedPart,
        signedStateForTurnNum :=
          ((∅ : Map UInt64 SignedState).insert preFundTurnNum (newSignedState s)).insert
            postFundTurnNum (newSignedState { post with turnNum := postFundTurnNum }),
        latestSupportedStateTurnNum := maxTurnNum }

/-- `NewSingleHopVirtualChannel` -/
def newSingleHopVirtualChannel (s : State) (myIndex : Nat) : Res Channel := do
  failIf (2 < myIndex) (.new "myIndex in a single hop virtual channel must be 0, 1, or 2")
  failIf (s.participants.length ≠ 3)
    (.new "a single hop virtual channel must have exactly three participants")
  failIf (∃ assetExit ∈ s.outcome, assetExit.allocations.length ≠ 2)
    (.new "a single hop virtual channel's initial state should only have two allocations")
  new cr s myIndex

def preFundState (c : Channel) : State := (c.signedState preFundTurnNum).state
def postFundState (c : Channel) : State := (c.signedState postFundTurnNum).state
def signedPreFundState (c : Channel) : SignedState := c.signedState preFundTurnNum
def signedPostFundState (c : Channel) : SignedState := c.signedState postFundTurnNum

def preFundSignedByMe (c : Channel) : Bool :=
  (c.signedState preFundTurnNum).hasSignatureForParticipant c.myIndex

def postFundSignedByMe (c : Channel) : Bool :=
  (c.signedState postFundTurnNum).hasSignatureForParticipant c.myIndex

def preFundComplete (c : Channel) : Bool := (c.signedState preFundTurnNum).hasAllSignatures
def postFundComplete (c : Channel) : Bool := (c.signedState postFundTurnNum).hasAllSignatures

def latestSupportedState (c : Channel) : Res State :=
  if c.latestSupportedStateTurnNum = maxTurnNum then
    .error (.err (.new "no state is yet supported"))
  else .ok (c.signedState c.latestSupportedStateTurnNum).state

/-- the largest turn number with a record, whether or not anybody signed it -/
def latestTurn (c : Channel) : UInt64 :=
  UInt64.ofNat (c.signedStateForTurnNum.keys.sup UInt64.toNat)

def latestSignedState (c : Channel) : Res SignedState :=
  if c.signedStateForTurnNum.keys = ∅ then .error (.err (.new "no states are signed"))
  else .ok (c.signedState c.latestTurn)

def total (c : Channel) : Res Funds := c.preFundState.outcome.totalAllocated

/-- the signatures of `ss` go to a new record, or are merged into the one that exists -/
def record (ss : SignedState) : Meth Channel Unit := fun c =>
  match c.signedStateForTurnNum.lookup ss.state.turnNum with
  | none => .ok () (c.store ss.state.turnNum ss)
  | some existing =>
    match SignedState.merge cr ss existing with
    | .ok _ merged => .ok () (c.store ss.state.turnNum merged)
    | .error e merged => .error e (c.store ss.state.turnNum merged)

def updateSupport (c : Channel) (t : UInt64) : Channel :=
  if (c.signedState t).hasAllSignatures then { c with latestSupportedStateTurnNum := t } else c

def addSignedState (ss : SignedState) : Meth Channel Bool := fun c =>
  match ss.state.channelId cr with
  | .error e => .error e c
  | .ok cId =>
    if cId ≠ c.id then .ok false c
    else if c.latestSupportedStateTurnNum ≠ maxTurnNum ∧
        ss.state.turnNum < c.latestSupportedStateTurnNum then .ok false c
    else
      match record cr ss c with
      | .ok _ c' => .ok true (c'.updateSupport ss.state.turnNum)
      | .error (.err _) c' => .ok false c'
      | .error (.panic r) c' => .error (.panic r) c'

def addStateWithSignature (s : State) (sig : Signature) : Meth Channel Bool := fun c =>
  match (newSignedState s).addSignature cr sig with
  | .error (.err _) => .ok false c
  | .error (.panic r) => .error (.panic r) c
  | .ok ss => addSignedState cr ss c

/-- the signed state that `SignAndAddState` adds -/
def signedOwn (s : State) (sk : Bytes) : Res SignedState := do
  let sig ← (s.sign cr sk).wrap "could not sign prefund "
  match (newSignedState s).addSignature cr sig with
  | .ok ss => .ok ss
  | .error _ => .error (.panic "could not add own signature")

def signAndAddState (s : State) (sk : Bytes) : Meth Channel SignedState := fun c =>
  match signedOwn cr s sk with
  | .error e => .error e c
  | .ok ss =>
    match addSignedState cr ss c with
    | .ok true c' => .ok ss c'
    | .ok false c' => .error (.panic "could not add signed state to channel") c'
    | .error e c' => .error e c'

def signAndAddPrefund (sk : Bytes) : Meth Channel SignedState := fun c =>
  signAndAddState cr c.preFundState sk c

def signAndAddPostfund (sk : Bytes) : Meth Channel SignedState := fun c =>
  signAndAddState cr c.postFundState sk c

/-- a copy of every record; a `nil` in any of the states panics -/
def cloneStates (m : Map UInt64 SignedState) : Res (Map UInt64 SignedState) :=
  if all (fun t => (((m.lookup t).getD SignedState.zero).clone).toOption.isSome) m then
    .ok (ofKeys m.keys fun t =>
      (((m.lookup t).getD SignedState.zero).clone).toOption.getD SignedState.zero)
  else .error (.panic "nil pointer dereference")

/-- `Clone`: the error of `New` is dropped, and storing into its `nil` map panics -/
def clone (c : Channel) : Res Channel := do
  let pre ← c.preFundState.clone
  match new cr pre c.myIndex with
  | .error _ => .error (.panic "assignment to entry in nil map")
  | .ok d => do
    let states ← cloneStates c.signedStateForTurnNum
    let fixedPart ← c.fixedPart.clone
    .ok { d with latestSupportedStateTurnNum := c.latestSupportedStateTurnNum,
                 signedStateForTurnNum := states ∪ d.signedStateForTurnNum,
                 onChainFunding := c.onChainFunding.clone, fixedPart := fixedPart }

end operations

/-! ## what the operations do -/

variable {cr : Crypto}

theorem signedState_store (c : Channel) (t : UInt64) (ss : SignedState) :
    (c.store t ss).signedState t = ss := by
  simp [signedState, store]

theorem signedState_store_of_ne {c : Channel} {t t' : UInt64} (ss : SignedState) (h : t' ≠ t) :
    (c.store t ss).signedState t' = c.signedState t' := by
  simp [signedState, store, Finmap.lookup_insert_of_ne _ h]

theorem lookup_store {c : Channel} {t t' : UInt64} {ss ss' : SignedState}
    (h : (c.store t ss).signedStateForTurnNum.lookup t' = some ss') :
    (t' = t ∧ ss' = ss) ∨ (t' ≠ t ∧ c.signedStateForTurnNum.lookup t' = some ss') := by
  have h : (c.signedStateForTurnNum.insert t ss).lookup t' = some ss' := h
  by_cases e : t' = t
  · rw [e, Finmap.lookup_insert] at h
    exact .inl ⟨e, (Option.some.inj h).symm⟩
  · rw [Finmap.lookup_insert_of_ne _ e] at h
    exact .inr ⟨e, h⟩

theorem new_ok {s : State} {i : Nat} {c : Channel} (h : new cr s i = .ok c) :
    s.channelId cr = .ok c.id ∧ c.myIndex = i ∧ c.fixedPart = s.fixedPart ∧
    c.latestSupportedStateTurnNum = maxTurnNum ∧
    c.signedStateForTurnNum =
      ((∅ : Map UInt64 SignedState).insert preFundTurnNum (newSignedState s)).insert
        postFundTurnNum (newSignedState { s with appData := [], turnNum := postFundTurnNum }) := by
  obtain ⟨-, -, h⟩ := Res.bind_eq_ok.1 h
  obtain ⟨id, hid, h⟩ := Res.bind_eq_ok.1 h
  obtain ⟨post, hpost, h⟩ := Res.bind_eq_ok.1 h
  obtain ⟨total, -, h⟩ := Res.bind_eq_ok.1 h
  cases h
  rw [State.clone_eq hpost]
  exact ⟨hid, rfl, rfl, rfl, rfl⟩

theorem lookup_new {s : State} {i : Nat} {c : Channel} (h : new cr s i = .ok c) {t : UInt64}
    {ss : SignedState} (hl : c.signedStateForTurnNum.lookup t = some ss) :
    (t = preFundTurnNum ∧ ss = newSignedState s) ∨ (t = postFundTurnNum ∧
      ss = newSignedState { s with appData := [], turnNum := postFundTurnNum }) := by
  obtain ⟨-, -, -, -, hstates⟩ := new_ok h
  rw [hstates] at hl
  by_cases h1 : t = postFundTurnNum
  · rw [h1, Finmap.lookup_insert] at hl
    exact .inr ⟨h1, (Option.some.inj hl).symm⟩
  · rw [Finmap.lookup_insert_of_ne _ h1] at hl
    by_cases h0 : t = preFundTurnNum
    · rw [h0, Finmap.lookup_insert] at hl
      exact .inl ⟨h0, (Option.some.inj hl).symm⟩
    · rw [Finmap.lookup_insert_of_ne _ h0, Finmap.lookup_empty] at hl
      cases hl

theorem lookup_cloneStates {m m' : Map UInt64 SignedState} (h : cloneStates m = .ok m')
    (t : UInt64) : m'.lookup t = (m.lookup t).map SignedState.copied := by
  unfold cloneStates at h
  split at h
  · next hall =>
    cases h
    rw [lookup_ofKeys]
    cases hl : m.lookup t with
    | none =>
      have hmem : t ∉ m.keys := fun h => Finmap.lookup_eq_none.1 hl (Finmap.mem_keys.1 h)
      simp [hmem]
    | some ss =>
      have hmem : t ∈ m.keys := Finmap.mem_keys.2 (Finmap.mem_of_lookup_eq_some hl)
      have hsome := all_eq_true.1 hall t (Finmap.mem_keys.1 hmem)
      rw [hl] at hsome
      cases hc : ss.clone with
      | error e => simp [hc, Except.toOption] at hsome
      | ok ss' => simp [hmem, hc, Except.toOption, SignedState.clone_eq hc]
  · cases h

/-- **what a copy is**: the records are copied, and a missing setup record is made anew -/
theorem clone_ok {c d : Channel} (h : c.clone cr = .ok d) :
    c.preFundState.channelId cr = .ok d.id ∧ d.myIndex = c.myIndex ∧ d.fixedPart = c.fixedPart ∧
    d.onChainFunding = c.onChainFunding ∧
    d.latestSupportedStateTurnNum = c.latestSupportedStateTurnNum ∧
    (∀ t ss, c.signedStateForTurnNum.lookup t = some ss →
      d.signedStateForTurnNum.lookup t = some ss.copied) ∧
    (∀ t ∈ d.signedStateForTurnNum,
      t ∈ c.signedStateForTurnNum ∨ t = preFundTurnNum ∨ t = postFundTurnNum) := by
  obtain ⟨pre, hpre, h⟩ := Res.bind_eq_ok.1 h
  cases hnew : new cr pre c.myIndex with
  | error e => simp only [hnew] at h; cases h
  | ok e =>
    simp only [hnew] at h
    obtain ⟨states, hstates, h⟩ := Res.bind_eq_ok.1 h
    obtain ⟨fp, hfp, h⟩ := Res.bind_eq_ok.1 h
    cases h
    have hlookup := lookup_cloneStates hstates
    have hpre := State.clone_eq hpre
    obtain ⟨hid, hindex, -, -, -⟩ := new_ok hnew
    subst hpre
    refine ⟨hid, hindex, FixedPart.clone_eq hfp, Funds.clone_eq _, rfl, fun t ss hl => ?_,
      fun t ht => ?_⟩
    · show (states ∪ _).lookup t = _
      have hs := hlookup t
      rw [hl] at hs
      rw [Finmap.lookup_union_left (Finmap.mem_of_lookup_eq_some hs), hs]
      rfl
    · rcases Finmap.mem_union.1 ht with ht | ht
      · left
        rw [← Finmap.lookup_isSome, hlookup t, Option.isSome_map] at ht
        exact Finmap.lookup_isSome.1 ht
      · right
        obtain ⟨ss, hl⟩ := Finmap.mem_iff.1 ht
        rcases lookup_new hnew hl with ⟨h0, -⟩ | ⟨h1, -⟩
        · exact .inl h0
        · exact .inr h1

theorem latestTurn_eq {c : Channel} {t : UInt64} (ht : t ∈ c.signedStateForTurnNum)
    (hmax : ∀ t' ∈ c.signedStateForTurnNum, t'.toNat ≤ t.toNat) : c.latestTurn = t := by
  have hsup : c.signedStateForTurnNum.keys.sup UInt64.toNat = t.toNat :=
    le_antisymm (Finset.sup_le fun t' h => hmax t' (Finmap.mem_keys.1 h))
      (Finset.le_sup (f := UInt64.toNat) (Finmap.mem_keys.2 ht))
  unfold latestTurn
  rw [hsup, UInt64.ofNat_toNat]

theorem latestSignedState_eq {c : Channel} {t : UInt64} {ss : SignedState}
    (hl : c.signedStateForTurnNum.lookup t = some ss)
    (hmax : ∀ t' ∈ c.signedStateForTurnNum, t'.toNat ≤ t.toNat) :
    c.latestSignedState = .ok ss := by
  have ht := Finmap.mem_of_lookup_eq_some hl
  have hne : c.signedStateForTurnNum.keys ≠ ∅ := fun e => by
    have hk := Finmap.mem_keys.2 ht
    rw [e] at hk
    exact absurd hk (Finset.notMem_empty t)
  unfold latestSignedState
  rw [if_neg hne, latestTurn_eq ht hmax, signedState, hl]
  rfl

/-- the record that a signed state leaves behind at its turn number -/
inductive Recorded (cr : Crypto) (c : Channel) (ss : SignedState) : SignedState → Prop
  | fresh (hnone : c.signedStateForTurnNum.lookup ss.state.turnNum = none) : Recorded cr c ss ss
  | merged {existing : SignedState}
      (hsome : c.signedStateForTurnNum.lookup ss.state.turnNum = some existing) :
      Recorded cr c ss ((SignedState.merge cr ss).after existing)

/-- **what a call of `AddSignedState` does**: nothing, a record, or a record that is supported now -/
theorem addSignedState_cases (cr : Crypto) (ss : SignedState) (c : Channel) :
    (addSignedState cr ss).after c = c ∨
    ∃ ss', ss.state.channelId cr = .ok c.id ∧ Recorded cr c ss ss' ∧
      ((addSignedState cr ss).after c = c.store ss.state.turnNum ss' ∨
        (ss'.state = ss.state ∧ ss'.hasAllSignatures = true ∧
          (addSignedState cr ss).after c = { c.store ss.state.turnNum ss' with
            latestSupportedStateTurnNum := ss.state.turnNum })) := by
  cases hid : ss.state.channelId cr with
  | error e =>
    left
    simp [Meth.after, addSignedState, hid]
  | ok cId =>
    by_cases hne : cId = c.id
    · by_cases hstale : c.latestSupportedStateTurnNum ≠ maxTurnNum ∧
          ss.state.turnNum < c.latestSupportedStateTurnNum
      · left
        simp [Meth.after, addSignedState, hid, hne, hstale]
      · right
        subst hne
        cases hl : c.signedStateForTurnNum.lookup ss.state.turnNum with
        | none =>
          have hrec : record cr ss c = .ok () (c.store ss.state.turnNum ss) := by
            simp [record, hl]
          refine ⟨ss, rfl, .fresh hl, ?_⟩
          cases hall : ss.hasAllSignatures with
          | true =>
            right
            exact ⟨rfl, rfl, by
              simp [Meth.after, addSignedState, hid, hstale, hrec, updateSupport, signedState_store,
                hall]⟩
          | false =>
            left
            simp [Meth.after, addSignedState, hid, hstale, hrec, updateSupport, signedState_store,
              hall]
        | some existing =>
          refine ⟨_, rfl, .merged hl, ?_⟩
          cases hm : SignedState.merge cr ss existing with
          | error e merged =>
            left
            have hrec : record cr ss c = .error e (c.store ss.state.turnNum merged) := by
              simp [record, hl, hm]
            cases e <;> simp [Meth.after, addSignedState, hid, hstale, hrec, hm]
          | ok u merged =>
            have hrec : record cr ss c = .ok () (c.store ss.state.turnNum merged) := by
              simp [record, hl, hm]
            have hafter : (SignedState.merge cr ss).after existing = merged := Meth.after_ok hm
            rw [hafter]
            cases hall : merged.hasAllSignatures with
            | true =>
              right
              have hstate : merged.state = ss.state := by
                rw [← hafter, SignedState.merge_state, SignedState.merge_equal hm]
              exact ⟨hstate, rfl, by
                simp [Meth.after, addSignedState, hid, hstale, hrec, updateSupport,
                  signedState_store, hall]⟩
            | false =>
              left
              simp [Meth.after, addSignedState, hid, hstale, hrec, updateSupport, signedState_store,
                hall]
    · left
      simp [Meth.after, addSignedState, hid, hne]

theorem signedOwn_ok {s : State} {sk : Bytes} {ss : SignedState} (h : signedOwn cr s sk = .ok ss) :
    ∃ sig, s.sign cr sk = .ok sig ∧ (newSignedState s).addSignature cr sig = .ok ss := by
  obtain ⟨sig, hsig, h⟩ := Res.bind_eq_ok.1 h
  refine ⟨sig, Res.wrap_eq_ok.1 hsig, ?_⟩
  cases ha : (newSignedState s).addSignature cr sig with
  | error e => simp only [ha] at h; cases h
  | ok ss' =>
    simp only [ha] at h
    cases h
    rfl

theorem signAndAddState_ok {s : State} {sk : Bytes} {c c' : Channel} {ss : SignedState}
    (h : signAndAddState cr s sk c = .ok ss c') : ss.state = s := by
  unfold signAndAddState at h
  cases ho : signedOwn cr s sk with
  | error e => rw [ho] at h; cases h
  | ok x =>
    obtain ⟨sig, -, hadd⟩ := signedOwn_ok ho
    simp only [ho] at h
    cases hrun : addSignedState cr x c with
    | error e d => simp only [hrun] at h; cases h
    | ok b d =>
      cases b with
      | false => simp only [hrun] at h; cases h
      | true =>
        simp only [hrun] at h
        cases h
        exact (SignedState.addSignature_ok hadd).1

theorem signAndAddState_cases (cr : Crypto) (s : State) (sk : Bytes) (c : Channel) :
    (signAndAddState cr s sk).after c = c ∨ ∃ sig ss, s.sign cr sk = .ok sig ∧
      (newSignedState s).addSignature cr sig = .ok ss ∧
      (signAndAddState cr s sk).after c = (addSignedState cr ss).after c := by
  cases ho : signedOwn cr s sk with
  | error e =>
    left
    simp [Meth.after, signAndAddState, ho]
  | ok ss =>
    obtain ⟨sig, hsig, hadd⟩ := signedOwn_ok ho
    refine .inr ⟨sig, ss, hsig, hadd, ?_⟩
    cases hrun : addSignedState cr ss c with
    | error e c' => simp [Meth.after, signAndAddState, ho, hrun]
    | ok b c' => cases b <;> simp [Meth.after, signAndAddState, ho, hrun]

theorem addSignedState_onChainFunding (cr : Crypto) (ss : SignedState) (c : Channel) :
    ((addSignedState cr ss).after c).onChainFunding = c.onChainFunding := by
  rcases addSignedState_cases cr ss c with hsame | ⟨ss', -, -, hrun | ⟨-, -, hrun⟩⟩
  · rw [hsame]
  · rw [hrun]
    rfl
  · rw [hrun]
    rfl

theorem signAndAddState_onChainFunding (cr : Crypto) (s : State) (sk : Bytes) (c : Channel) :
    ((signAndAddState cr s sk).after c).onChainFunding = c.onChainFunding := by
  rcases signAndAddState_cases cr s sk c with hsame | ⟨sig, ss, -, -, hrun⟩
  · rw [hsame]
  · rw [hrun]
    exact addSignedState_onChainFunding cr ss c

/-! ## calls -/

inductive Call where
  | addSignedState (ss : SignedState)
  | addStateWithSignature (s : State) (sig : Signature)
  | signAndAddState (s : State) (sk : Bytes)

/-- the channel after the call, whatever the call returned -/
def Call.step (cr : Crypto) (c : Channel) : Call → Channel
  | .addSignedState ss => (Channel.addSignedState cr ss).after c
  | .addStateWithSignature s sig => (Channel.addStateWithSignature cr s sig).after c
  | .signAndAddState s sk => (Channel.signAndAddState cr s sk).after c

/-- a call adds one signed state or none: the one it was given, or one with a single checked
signature -/
theorem Call.step_cases (cr : Crypto) (c : Channel) (call : Call) :
    call.step cr c = c ∨ ∃ ss, call.step cr c = (Channel.addSignedState cr ss).after c ∧
      (call = .addSignedState ss ∨ ss.Checked cr) := by
  cases call with
  | addSignedState ss => exact .inr ⟨ss, rfl, .inl rfl⟩
  | addStateWithSignature s sig =>
    cases ha : (newSignedState s).addSignature cr sig with
    | error e =>
      left
      cases e <;> simp [Call.step, Meth.after, Channel.addStateWithSignature, ha]
    | ok ss =>
      refine .inr ⟨ss, ?_, .inr ((SignedState.checked_new s).addSignature ha)⟩
      simp [Call.step, Meth.after, Channel.addStateWithSignature, ha]
  | signAndAddState s sk =>
    rcases signAndAddState_cases cr s sk c with hsame | ⟨sig, ss, -, hadd, hrun⟩
    · exact .inl hsame
    · exact .inr ⟨ss, hrun, .inr ((SignedState.checked_new s).addSignature hadd)⟩

/-! ## support -/

/-- every record has checked signatures, and the record of the latest supported turn number is a
complete one for that turn of this channel -/
structure Supported (cr : Crypto) (c : Channel) : Prop where
  checked : ∀ t ss, c.signedStateForTurnNum.lookup t = some ss → ss.Checked cr
  latest : c.latestSupportedStateTurnNum ≠ maxTurnNum →
    ∃ ss, c.signedStateForTurnNum.lookup c.latestSupportedStateTurnNum = some ss ∧
      ss.state.turnNum = c.latestSupportedStateTurnNum ∧ ss.Full ∧
      ss.state.channelId cr = .ok c.id

/-- a signed state for a turn number without a record has checked signatures -/
def FreshChecked (cr : Crypto) (c : Channel) (call : Call) : Prop :=
  ∀ ss, call = .addSignedState ss →
    c.signedStateForTurnNum.lookup ss.state.turnNum = none → ss.Checked cr

theorem supported_new {s : State} {i : Nat} {c : Channel} (h : Channel.new cr s i = .ok c) :
    Supported cr c := by
  obtain ⟨-, -, -, hlatest, -⟩ := new_ok h
  refine ⟨fun t ss hl => ?_, fun hne => absurd hlatest hne⟩
  rcases lookup_new h hl with ⟨-, rfl⟩ | ⟨-, rfl⟩
  · exact SignedState.checked_new _
  · exact SignedState.checked_new _

theorem Recorded.checked {c : Channel} {ss ss' : SignedState} (hr : Recorded cr c ss ss')
    (h : Supported cr c)
    (hfresh : c.signedStateForTurnNum.lookup ss.state.turnNum = none → ss.Checked cr) :
    ss'.Checked cr := by
  cases hr with
  | fresh hnone => exact hfresh hnone
  | merged hsome => exact (h.checked _ _ hsome).merge ss

theorem Supported.store {c : Channel} {ss ss' : SignedState} (h : Supported cr c)
    (hr : Recorded cr c ss ss')
    (hfresh : c.signedStateForTurnNum.lookup ss.state.turnNum = none → ss.Checked cr) :
    Supported cr (c.store ss.state.turnNum ss') := by
  refine ⟨fun t x hx => ?_, fun hne => ?_⟩
  · rcases lookup_store hx with ⟨-, rfl⟩ | ⟨-, hx⟩
    · exact hr.checked h hfresh
    · exact h.checked t x hx
  · obtain ⟨x, hx, hturn, hfull, hid⟩ := h.latest hne
    by_cases e : c.latestSupportedStateTurnNum = ss.state.turnNum
    · cases hr with
      | fresh hnone =>
        rw [e, hnone] at hx
        cases hx
      | @merged existing hsome =>
        rw [e, hsome, Option.some.injEq] at hx
        subst hx
        have hstate := SignedState.merge_state cr existing ss
        refine ⟨(SignedState.merge cr ss).after existing, ?_, ?_, hfull.merge ss, ?_⟩
        · show (c.signedStateForTurnNum.insert _ _).lookup c.latestSupportedStateTurnNum = _
          rw [e, Finmap.lookup_insert]
        · rw [hstate]
          exact hturn
        · rw [hstate]
          exact hid
    · refine ⟨x, ?_, hturn, hfull, hid⟩
      show (c.signedStateForTurnNum.insert _ _).lookup c.latestSupportedStateTurnNum = _
      rw [Finmap.lookup_insert_of_ne _ e]
      exact hx

theorem Supported.addSignedState {c : Channel} (h : Supported cr c) (ss : SignedState)
    (hfresh : c.signedStateForTurnNum.lookup ss.state.turnNum = none → ss.Checked cr) :
    Supported cr ((Channel.addSignedState cr ss).after c) := by
  rcases addSignedState_cases cr ss c with hsame | ⟨ss', hid, hr, hstore | hsupport⟩
  · rwa [hsame]
  · rw [hstore]
    exact h.store hr hfresh
  · obtain ⟨hstate, hall, hrun⟩ := hsupport
    rw [hrun]
    refine ⟨(h.store hr hfresh).checked, fun _ => ⟨ss', ?_, ?_, ?_, ?_⟩⟩
    · show (c.signedStateForTurnNum.insert _ _).lookup ss.state.turnNum = _
      rw [Finmap.lookup_insert]
    · rw [hstate]
    · exact (hr.checked h hfresh).full hall
    · rw [hstate]
      exact hid

theorem Call.supported_step (cr : Crypto) (c : Channel) (call : Call) (h : Supported cr c)
    (hfresh : FreshChecked cr c call) : Supported cr (call.step cr c) := by
  rcases Call.step_cases cr c call with hsame | ⟨ss, hrun, hss⟩
  · rwa [hsame]
  · rw [hrun]
    refine h.addSignedState ss fun hnone => ?_
    rcases hss with rfl | hchecked
    · exact hfresh ss rfl hnone
    · exact hchecked

/-- **a supported state carries a signature of every participant**, in runs in which states for new
turn numbers arrive with checked signatures -/
theorem latest_supported_signed {s : State} {i : Nat} {c : Channel} {calls : List Call}
    (hnew : Channel.new cr s i = .ok c) (hrun : Along (Call.step cr) (FreshChecked cr) c calls)
    {s' : State} (hs : (run (Call.step cr) c calls).latestSupportedState = .ok s') :
    s'.channelId cr = .ok (run (Call.step cr) c calls).id ∧
    ∀ i a, s'.participants[i]? = some a →
      ∃ sig, ((run (Call.step cr) c calls).signedState s'.turnNum).entries.lookup i = some sig ∧
        s'.recoverSigner cr sig = .ok a := by
  have h : Supported cr (run (Call.step cr) c calls) :=
    hrun.inv (Call.supported_step cr) (supported_new hnew)
  unfold latestSupportedState at hs
  split at hs
  · cases hs
  · next hne =>
    obtain ⟨ss, hl, hturn, hfull, hid⟩ := h.latest hne
    have hss : (run (Call.step cr) c calls).signedState
        (run (Call.step cr) c calls).latestSupportedStateTurnNum = ss := by
      simp [signedState, hl]
    rw [hss] at hs
    cases hs
    refine ⟨hid, fun i a hi => ?_⟩
    rw [hturn, hss]
    exact (h.checked _ _ hl).signed hfull hi

end Channel

namespace Sample

/-- the sample state at turn 5 with the signatures of both participants -/
def signedFive : SignedState :=
  ⟨state 5, some (((∅ : SigMap).insert 0 (sigOn (state 5) 1)).insert 1
    (sigOn (state 5) 2))⟩

theorem signedFive_checked : signedFive.Checked Crypto.plain := by
  have h : ((newSignedState (state 5)).addSignature Crypto.plain
      (sigOn (state 5) 1) >>= fun ss => ss.addSignature Crypto.plain
        (sigOn (state 5) 2)) = .ok signedFive := by decide +kernel
  obtain ⟨ss, h₁, h₂⟩ := Res.bind_eq_ok.1 h
  exact ((SignedState.checked_new _).addSignature h₁).addSignature h₂

/-- the same state with an empty signature under each participant's index -/
def forgedFive : SignedState :=
  ⟨state 5, some (((∅ : SigMap).insert 0 default).insert 1 default)⟩

def channel : Channel :=
  (Channel.new Crypto.plain (state 0) 0).toOption.getD
    ⟨0, 0, ∅, fp, ∅, 0⟩

theorem new_channel : Channel.new Crypto.plain (state 0) 0 = .ok channel := by
  decide +kernel

end Sample

namespace Channel

theorem latest_supported_signed_five :
    ∃ sig, ((run (Call.step Crypto.plain) Sample.channel
        [.addSignedState Sample.signedFive]).signedState 5).entries.lookup 1 = some sig ∧
      (Sample.state 5).recoverSigner Crypto.plain sig = .ok 2 := by
  have hfresh : Along (Call.step Crypto.plain) (FreshChecked Crypto.plain) Sample.channel
      [.addSignedState Sample.signedFive] := by
    refine ⟨fun ss e _ => ?_, trivial⟩
    rw [← Call.addSignedState.inj e]
    exact Sample.signedFive_checked
  have hsupported : (run (Call.step Crypto.plain) Sample.channel
      [.addSignedState Sample.signedFive]).latestSupportedState =
        .ok (Sample.state 5) := by decide +kernel
  exact (latest_supported_signed Sample.new_channel hfresh hsupported).2 1 2 rfl

/-- two empty signatures make a state supported -/
theorem forged_state_supported :
    ∃ c s', Channel.new Crypto.plain (Sample.state 0) 0 = .ok c ∧
      (run (Call.step Crypto.plain) c [.addSignedState Sample.forgedFive]).latestSupportedState =
        .ok s' ∧
      ¬ ∃ sig, ((run (Call.step Crypto.plain) c
          [.addSignedState Sample.forgedFive]).signedState s'.turnNum).entries.lookup 0 = some sig ∧
        s'.recoverSigner Crypto.plain sig = .ok 1 := by
  refine ⟨Sample.channel, Sample.state 5, Sample.new_channel, by decide +kernel, ?_⟩
  rintro ⟨sig, hl, hr⟩
  have hsig : ((run (Call.step Crypto.plain) Sample.channel
      [.addSignedState Sample.forgedFive]).signedState
        (Sample.state 5).turnNum).entries.lookup 0 = some default := by decide +kernel
  rw [hsig, Option.some.injEq] at hl
  subst hl
  exact absurd hr (by decide +kernel)

end Channel

end Nitro
