import Nitro.State
import Mathlib.Data.List.AList

/-!
# Signed states

A `SignedState` is a state with signatures keyed by participant index.  The signatures sit in a map
that methods change in place; it may be `nil` after decoding.  The list of entries stands for the
order in which a `range` over the map sees them.

* `addSignature`, `merge`     signatures that are checked before they are stored;
* `SignedState.Checked`       every stored signature recovers to the participant it is stored for;
* `Checked.merge`             `merge` stores checked signatures only, also when it stops in the middle.
-/

set_option linter.unusedSectionVars false

namespace Nitro
open Go

abbrev SigMap := AList (fun _ : Nat => Signature)

/-- unlike the instance for all `AList`s, this one evaluates -/
instance : DecidableEq SigMap := fun a b =>
  decidable_of_iff (a.entries = b.entries) AList.ext_iff.symm

structure SignedState where
  state : State
  sigs : Option SigMap
  deriving DecidableEq

/-- the zero value of the struct -/
def State.zero : State where
  chainId := none
  participants := []
  channelNonce := none
  appDefinition := 0
  challengeDuration := none
  appData := []
  outcome := []
  turnNum := 0
  isFinal := false

def SignedState.zero : SignedState := ⟨State.zero, none⟩

def newSignedState (s : State) : SignedState := ⟨s, some ∅⟩

namespace SignedState

/-- what a read of the map sees -/
def entries (ss : SignedState) : SigMap := ss.sigs.getD ∅

/-- one per participant, zero-valued where there is none -/
def signatures (ss : SignedState) : List Signature :=
  (List.range ss.state.participants.length).map fun i => (ss.entries.lookup i).getD default

def hasSignatureForParticipant (ss : SignedState) (participantIndex : Nat) : Bool :=
  decide (participantIndex ∈ ss.entries)

/-- `len(ss.sigs) == len(ss.state.Participants)`, nothing else -/
def hasAllSignatures (ss : SignedState) : Bool :=
  decide (ss.entries.keys.length = ss.state.participants.length)

def getParticipantSignature (ss : SignedState) (participantIndex : Nat) : Res Signature :=
  match ss.entries.lookup participantIndex with
  | some sig => .ok sig
  | none => .error (.err (.fmt "participant %d does not have a signature" [participantIndex]))

/-- `ss.sigs[i] = sig` -/
def setSig (ss : SignedState) (i : Nat) (sig : Signature) : Res SignedState :=
  match ss.sigs with
  | some m => .ok { ss with sigs := some (m.insert i sig) }
  | none => .error (.panic "assignment to entry in nil map")

variable (cr : Crypto)

def addSignature (ss : SignedState) (sig : Signature) : Res SignedState := do
  let signer ← (ss.state.recoverSigner cr sig).wrap "AddSignature failed to recover signer "
  match ss.state.participants.findIdx? (fun p => decide (p = signer)) with
  | some i =>
    failIf (i ∈ ss.entries) (.new "signature already exists for participant")
    ss.setSig i sig
  | none => .error (.err (.new "signature does not match any participant"))

/-- a call of `AddSignature` whose error is dropped -/
def tryAddSignature (ss : SignedState) (sig : Signature) : Res SignedState :=
  match ss.addSignature cr sig with
  | .error (.err _) => .ok ss
  | r => r

/-- the loop of `Merge` over the entries of the other map -/
def mergeLoop : List (Sigma fun _ : Nat => Signature) → Meth SignedState Unit
  | [] => pure ()
  | ⟨i, sig⟩ :: rest => fun ss =>
    match ss.entries.lookup i with
    | some existing =>
      if existing.equal sig then mergeLoop rest ss
      else .error (.err (.new "cannot merge signed states with conflicting signatures")) ss
    | none =>
      match ss.addSignature cr sig with
      | .ok ss' => mergeLoop rest ss'
      | .error e => .error e ss

def merge (ss2 : SignedState) : Meth SignedState Unit := fun ss =>
  match ss.state.equal ss2.state with
  | .error e => .error e ss
  | .ok false => .error (.err (.new "cannot merge signed states with distinct state hashes")) ss
  | .ok true => mergeLoop cr ss2.entries.entries ss

/-- the copied map is never `nil` -/
def clone (ss : SignedState) : Res SignedState := do
  let state ← ss.state.clone
  .ok { state := state, sigs := some ss.entries }

def channelId (ss : SignedState) : Res Destination := ss.state.channelId cr

/-- what a copy of `ss` is -/
def copied (ss : SignedState) : SignedState := ⟨{ ss.state with appData := [] }, some ss.entries⟩

theorem clone_eq {ss ss' : SignedState} (h : ss.clone = .ok ss') : ss' = ss.copied := by
  obtain ⟨s, hs, h⟩ := Res.bind_eq_ok.1 h
  cases h
  rw [State.clone_eq hs]
  rfl

/-! ## checked signatures -/

def Checked (ss : SignedState) : Prop :=
  ∀ i sig, ss.entries.lookup i = some sig → ∃ a, ss.state.participants[i]? = some a ∧
    ss.state.recoverSigner cr sig = .ok a

variable {cr}

theorem checked_new (s : State) : (newSignedState s).Checked cr := by
  intro i sig h
  have h : (∅ : SigMap).lookup i = some sig := h
  rw [AList.lookup_empty] at h
  cases h

theorem addSignature_ok {ss ss' : SignedState} {sig : Signature}
    (h : ss.addSignature cr sig = .ok ss') :
    ss'.state = ss.state ∧ ∃ i a, ss.state.participants[i]? = some a ∧
      ss.state.recoverSigner cr sig = .ok a ∧ i ∉ ss.entries ∧
      ss'.entries = ss.entries.insert i sig := by
  obtain ⟨signer, hsigner, h⟩ := Res.bind_eq_ok.1 h
  rw [Res.wrap_eq_ok] at hsigner
  cases hi : ss.state.participants.findIdx? (fun p => decide (p = signer)) with
  | none => simp only [hi] at h; cases h
  | some i =>
    simp only [hi] at h
    obtain ⟨hfresh, hset⟩ := failIf_bind_eq_ok.1 h
    obtain ⟨hlt, hp, -⟩ := List.findIdx?_eq_some_iff_getElem.1 hi
    have ha : ss.state.participants[i]? = some signer := by
      rw [List.getElem?_eq_getElem hlt, of_decide_eq_true hp]
    cases ss with
    | mk state sigs =>
      cases sigs with
      | none => cases hset
      | some m =>
        cases hset
        exact ⟨rfl, i, signer, ha, hsigner, hfresh, rfl⟩

/-- a signature goes to the first participant with the signer's address -/
theorem addSignature_first {ss ss' : SignedState} {sig : Signature} {a : Address} {i : Nat}
    (h : ss.addSignature cr sig = .ok ss') (ha : ss.state.recoverSigner cr sig = .ok a)
    (hi : ss.state.participants.findIdx? (fun p => decide (p = a)) = some i) :
    ss'.entries = ss.entries.insert i sig := by
  unfold addSignature at h
  rw [ha] at h
  simp only [Res.wrap, Res.onErr, Res.ok_bind, hi] at h
  obtain ⟨-, hset⟩ := failIf_bind_eq_ok.1 h
  cases ss with
  | mk state sigs =>
    cases sigs with
    | none => cases hset
    | some m =>
      cases hset
      rfl

theorem tryAddSignature_state {ss ss' : SignedState} {sig : Signature}
    (h : ss.tryAddSignature cr sig = .ok ss') : ss'.state = ss.state := by
  unfold tryAddSignature at h
  cases ha : ss.addSignature cr sig with
  | ok x =>
    rw [ha] at h
    cases h
    exact (addSignature_ok ha).1
  | error e =>
    rw [ha] at h
    cases e with
    | err e =>
      cases h
      rfl
    | panic r => cases h

theorem Checked.addSignature {ss ss' : SignedState} {sig : Signature} (hc : ss.Checked cr)
    (h : ss.addSignature cr sig = .ok ss') : ss'.Checked cr := by
  obtain ⟨hstate, i, a, ha, hsig, -, he⟩ := addSignature_ok h
  intro j sig' hj
  rw [hstate]
  rw [he] at hj
  by_cases e : j = i
  · subst e
    rw [AList.lookup_insert, Option.some.injEq] at hj
    subst hj
    exact ⟨a, ha, hsig⟩
  · rw [AList.lookup_insert_ne e] at hj
    exact hc j sig' hj

/-- what every added signature preserves, `merge` preserves, also when it stops in the middle -/
theorem mergeLoop_inv {I : SignedState → Prop} (l : List (Sigma fun _ : Nat => Signature))
    (hadd : ∀ ss ss' i sig, ⟨i, sig⟩ ∈ l → I ss → ss.addSignature cr sig = .ok ss' → I ss')
    {ss : SignedState} (h : I ss) : I ((mergeLoop cr l).after ss) := by
  induction l generalizing ss with
  | nil => exact h
  | cons e l ih =>
    obtain ⟨i, sig⟩ := e
    have ih : ∀ {x : SignedState}, I x → I ((mergeLoop cr l).after x) :=
      ih fun ss ss' i sig hmem => hadd ss ss' i sig (List.mem_cons_of_mem _ hmem)
    cases hl : ss.entries.lookup i with
    | some existing =>
      cases he : existing.equal sig with
      | true =>
        have hrun : (mergeLoop cr (⟨i, sig⟩ :: l)).after ss = (mergeLoop cr l).after ss := by
          simp [Meth.after, mergeLoop, hl, he]
        rw [hrun]
        exact ih h
      | false =>
        have hrun : (mergeLoop cr (⟨i, sig⟩ :: l)).after ss = ss := by
          simp [Meth.after, mergeLoop, hl, he]
        rw [hrun]
        exact h
    | none =>
      cases ha : ss.addSignature cr sig with
      | ok ss' =>
        have hrun : (mergeLoop cr (⟨i, sig⟩ :: l)).after ss = (mergeLoop cr l).after ss' := by
          simp [Meth.after, mergeLoop, hl, ha]
        rw [hrun]
        exact ih (hadd ss ss' i sig List.mem_cons_self h ha)
      | error e =>
        have hrun : (mergeLoop cr (⟨i, sig⟩ :: l)).after ss = ss := by
          simp [Meth.after, mergeLoop, hl, ha]
        rw [hrun]
        exact h

theorem merge_inv {I : SignedState → Prop} (ss2 : SignedState) {ss : SignedState}
    (hadd : ∀ x x' i sig, ss.state = ss2.state → ss2.entries.lookup i = some sig → I x →
      x.addSignature cr sig = .ok x' → I x')
    (h : I ss) : I ((merge cr ss2).after ss) := by
  cases he : ss.state.equal ss2.state with
  | error e =>
    have hrun : (merge cr ss2).after ss = ss := by simp [Meth.after, merge, he]
    rw [hrun]
    exact h
  | ok same =>
    cases same with
    | false =>
      have hrun : (merge cr ss2).after ss = ss := by simp [Meth.after, merge, he]
      rw [hrun]
      exact h
    | true =>
      have hrun : (merge cr ss2).after ss = (mergeLoop cr ss2.entries.entries).after ss := by
        simp [Meth.after, merge, he]
      rw [hrun]
      refine mergeLoop_inv _ (fun x x' i sig hmem hx ha => ?_) h
      exact hadd x x' i sig (State.equal_eq he) (AList.mem_lookup_iff.2 hmem) hx ha

theorem merge_state (cr : Crypto) (ss ss2 : SignedState) : ((merge cr ss2).after ss).state = ss.state :=
  merge_inv (I := fun x => x.state = ss.state) ss2
    (fun _ _ _ _ _ _ h ha => (addSignature_ok ha).1.trans h) rfl

/-- **merging stores checked signatures only** -/
theorem Checked.merge {ss : SignedState} (hc : ss.Checked cr) (ss2 : SignedState) :
    ((SignedState.merge cr ss2).after ss).Checked cr :=
  merge_inv ss2 (fun _ _ _ _ _ _ h ha => h.addSignature ha) hc

theorem mem_merge {ss : SignedState} {j : Nat} (h : j ∈ ss.entries) (ss2 : SignedState) :
    j ∈ ((merge cr ss2).after ss).entries := by
  refine merge_inv (I := fun x => j ∈ x.entries) ss2 (fun x x' i sig _ _ hx hadd => ?_) h
  obtain ⟨-, k, a, -, -, -, he⟩ := addSignature_ok hadd
  rw [he, AList.mem_insert]
  exact .inr hx

theorem merge_equal {ss ss' ss2 : SignedState} (h : merge cr ss2 ss = .ok () ss') :
    ss.state = ss2.state := by
  unfold merge at h
  cases he : ss.state.equal ss2.state with
  | error e => rw [he] at h; cases h
  | ok same =>
    cases same with
    | false => rw [he] at h; cases h
    | true => exact State.equal_eq he

theorem mem_merge_single {ss ss' ss2 : SignedState} {sig : Signature} {a : Address} {i : Nat}
    (h : merge cr ss2 ss = .ok () ss') (hsingle : ss2.entries = (∅ : SigMap).insert i sig)
    (ha : ss2.state.recoverSigner cr sig = .ok a)
    (hi : ss2.state.participants.findIdx? (fun p => decide (p = a)) = some i) :
    i ∈ ss'.entries := by
  have hstate := merge_equal h
  have hentries : ss2.entries.entries = [⟨i, sig⟩] := by
    rw [hsingle, AList.entries_insert_of_notMem (AList.notMem_empty i)]
    rfl
  unfold merge at h
  cases he : ss.state.equal ss2.state with
  | error e => rw [he] at h; cases h
  | ok same =>
    cases same with
    | false => rw [he] at h; cases h
    | true =>
      simp only [he, hentries, mergeLoop] at h
      cases hl : ss.entries.lookup i with
      | some existing =>
        simp only [hl] at h
        split at h
        · cases h
          exact AList.lookup_isSome.1 (by rw [hl]; rfl)
        · cases h
      | none =>
        simp only [hl] at h
        cases hadd : ss.addSignature cr sig with
        | error e => rw [hadd] at h; cases h
        | ok x =>
          rw [hadd] at h
          cases h
          rw [addSignature_first hadd (hstate ▸ ha) (hstate ▸ hi)]
          exact (AList.mem_insert _).2 (.inl rfl)

/-- there is a signature for every participant -/
def Full (ss : SignedState) : Prop := ∀ i < ss.state.participants.length, i ∈ ss.entries

theorem Full.merge {ss : SignedState} (hf : ss.Full) (ss2 : SignedState) :
    ((SignedState.merge cr ss2).after ss).Full := by
  refine merge_inv ss2 (fun ss ss' _ sig _ _ h ha => ?_) hf
  obtain ⟨hstate, i, a, -, -, -, he⟩ := addSignature_ok ha
  intro k hk
  rw [hstate] at hk
  rw [he, AList.mem_insert]
  exact .inr (h k hk)

/-- counting is enough when the signatures are checked: the keys are distinct indices of
participants, so there cannot be as many of them without being all of them -/
theorem Checked.full {ss : SignedState} (hc : ss.Checked cr) (hall : ss.hasAllSignatures = true) :
    ss.Full := by
  have hlen : ss.entries.keys.length = ss.state.participants.length := of_decide_eq_true hall
  have hsub : ss.entries.keys ⊆ List.range ss.state.participants.length := by
    intro k hk
    obtain ⟨sig, hsig⟩ := Option.isSome_iff_exists.1 (AList.lookup_isSome.2 hk)
    obtain ⟨b, hb, -⟩ := hc k sig hsig
    exact List.mem_range.2 (List.getElem?_eq_some_iff.1 hb).1
  have hperm : ss.entries.keys.Perm (List.range ss.state.participants.length) :=
    (ss.entries.keys_nodup.subperm hsub).perm_of_length_le (by simp [hlen])
  intro i hi
  exact hperm.mem_iff.2 (List.mem_range.2 hi)

theorem Checked.signed {ss : SignedState} (hc : ss.Checked cr) (hf : ss.Full) {i : Nat}
    {a : Address} (hi : ss.state.participants[i]? = some a) :
    ∃ sig, ss.entries.lookup i = some sig ∧ ss.state.recoverSigner cr sig = .ok a := by
  have hmem := hf i (List.getElem?_eq_some_iff.1 hi).1
  obtain ⟨sig, hsig⟩ := Option.isSome_iff_exists.1 (AList.lookup_isSome.2 hmem)
  obtain ⟨b, hb, hrec⟩ := hc i sig hsig
  refine ⟨sig, hsig, ?_⟩
  rw [hrec, Option.some.inj (hb.symm.trans hi)]

end SignedState

end Nitro
