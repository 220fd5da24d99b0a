import Nitro.Contracts.NitroAdjudicator

/-!
# A channel embedded in another

The contract `EmbeddedApplication`: a channel `J` of Alice, Bob and Irene carries in its application
data a support proof for a channel `X` of Alice and Bob.  On chain, Alice and Bob may each move once, with
a better proof, and the outcome of `X` replaces their part of the outcome of `J`.

* `validTransition`          the contract, with `validateSupportProofForX`;
* `validTransition_iff`      what one transition checks;
* `one_move_each`            **a run has at most two transitions**, one of Alice and one of Bob;
* `irene_protected`          **the third participant keeps their balance** over a run;
* `unsigned_appData`         **the second state's application data is not signed**;
* `forged_proof_accepted`    **nothing ties the proof to the channel it replaces**.
-/

set_option linter.unusedSectionVars false

namespace Nitro.Contracts
open Evm

namespace EmbeddedApplication

/-! ## types -/

/-- the outcome is encoded -/
structure VariablePart where
  outcome : Bytes
  appData : Bytes
  deriving DecidableEq

structure SupportProof where
  fixedPart : FixedPart
  variableParts : List VariablePart
  turnNumTo : BitVec 48
  sigs : Signature × Signature
  whoSignedWhat : UInt8 × UInt8
  deriving DecidableEq

inductive AlreadyMoved where
  | none
  | a
  | b
  | ab
  deriving DecidableEq

structure AppData where
  channelIdForX : Bytes32
  supportProofForX : SupportProof
  alreadyMoved : AlreadyMoved
  deriving DecidableEq

/-- what the contract runs on, with `abi.decode` of its application data and `validTransition` of the
application at an address -/
structure Host where
  D : Deployment
  decodeAppData : Bytes → Except String AppData
  app : Address → VariablePart → VariablePart → (turnNumB : BitVec 48) →
    (nParticipants signedByFrom signedByTo : Word) → Except String Bool

/-! ## the contract -/

section contract
variable (H : Host)

def decode3PartyAllocation (outcomeBytes : Bytes) : Except String (List Allocation) := do
  let outcome ← H.D.decodeExit outcomeBytes
  require (outcome.length = 1) "outcome: Exactly 1 asset allowed"
  let assetOutcome ← index outcome 0
  require (assetOutcome.allocations.length = 3) "allocation.length != 3"
  .ok assetOutcome.allocations

def decode2PartyAllocation (outcomeBytes : Bytes) : Except String (List Allocation) := do
  let outcome ← H.D.decodeExit outcomeBytes
  let assetOutcome ← index outcome 0
  require (assetOutcome.allocations.length = 2) "allocation.length != 3"
  .ok assetOutcome.allocations

/-- `_hashState` of a state that is not final -/
def hashStateOfX (channelId : Bytes32) (appData outcome : Bytes) (turnNum : BitVec 48) :
    Except String Bytes32 := do
  let outcome ← H.D.decodeExit outcome
  .ok (hashState H.D channelId appData outcome turnNum false)

def requireSigner (proof : SupportProof) (stateHash : Bytes32) (sig : Signature) (i : Nat)
    (reason : String) : Except String Unit := do
  let signer ← recoverSigner H.D stateHash sig
  let participant ← index proof.fixedPart.participants i
  require (signer = participant) reason

/-- two signatures on one state, or one on each of two states; both states are hashed with the
application data of the first -/
def requireSignatures (channelId : Bytes32) (proof : SupportProof) (first greater : VariablePart) :
    Except String Unit := do
  let greaterStateHash ← hashStateOfX H channelId first.appData greater.outcome proof.turnNumTo
  if proof.whoSignedWhat = (0, 0) then do
    requireSigner H proof greaterStateHash proof.sigs.1 0 "sig0 !by participant0"
    requireSigner H proof greaterStateHash proof.sigs.2 1 "sig1 !by participant1"
  else do
    let lesserStateHash ← hashStateOfX H channelId first.appData first.outcome (proof.turnNumTo - 1)
    if proof.whoSignedWhat = (0, 1) then do
      requireSigner H proof lesserStateHash proof.sigs.1 0 "sig0 on state0 !by participant0"
      requireSigner H proof greaterStateHash proof.sigs.2 1 "sig1 on state1 !by participant1"
    else if proof.whoSignedWhat = (1, 0) then do
      requireSigner H proof greaterStateHash proof.sigs.1 0 "sig0 on state1 !by participant0"
      requireSigner H proof lesserStateHash proof.sigs.2 1 "sig1 on state0 !by participant1"
    else .error "invalid whoSignedWhat"

/-- the transition between two states, which the application of `X` judges -/
def requireTransitionOfX (proof : SupportProof) (first : VariablePart) : Except String Unit :=
  if proof.whoSignedWhat = (0, 0) then .ok ()
  else do
    let second ← index proof.variableParts 1
    let valid ← H.app proof.fixedPart.appDefinition first second proof.turnNumTo 2
      (if proof.whoSignedWhat.1 = 0 then 1 else 2) (if proof.whoSignedWhat.1 = 0 then 2 else 1)
    require (valid = true) "invalid transition in X"

def validateSupportProofForX (fromAppData toAppData : AppData) :
    Except String (List Allocation) := do
  let proof := toAppData.supportProofForX
  let fromFixedPart := fromAppData.supportProofForX.fixedPart
  require (fromFixedPart.appDefinition = proof.fixedPart.appDefinition) "X.appDefinition changed"
  require (fromFixedPart.challengeDuration = proof.fixedPart.challengeDuration)
    "X.challengeDuration changed"
  require (proof.variableParts.length = 1 ∨ proof.variableParts.length = 2) "1 or 2 states required"
  let greater ← index proof.variableParts (proof.variableParts.length - 1)
  let first ← index proof.variableParts 0
  requireSignatures H toAppData.channelIdForX proof first greater
  requireTransitionOfX H proof first
  decode2PartyAllocation H greater.outcome

/-- the named states; a proof after the first one must be better -/
def requireMove (fromAppData toAppData : AppData) (signedByA signedByB : Bool) :
    Except String Unit :=
  if fromAppData.alreadyMoved = .none then
    require ((toAppData.alreadyMoved = .a ∧ signedByA = true) ∨
      (toAppData.alreadyMoved = .b ∧ signedByB = true)) "incorrect move from None"
  else do
    require (fromAppData.supportProofForX.turnNumTo < toAppData.supportProofForX.turnNumTo)
      "inferior support proof"
    match fromAppData.alreadyMoved with
    | .a => require (toAppData.alreadyMoved = .ab ∧ signedByB = true) "incorrect move from A"
    | .b => require (toAppData.alreadyMoved = .ab ∧ signedByA = true) "incorrect move from B"
    | _ => .error "move from None,A,B only"

/-- the sums are sums of words -/
def requireAllocations (a b : List Allocation) : Except String Unit := do
  let a0 ← index a 0
  let a1 ← index a 1
  let a2 ← index a 2
  let b0 ← index b 0
  let b1 ← index b 1
  let b2 ← index b 2
  require (a0.destination = b0.destination ∧ a1.destination = b1.destination ∧
    a2.destination = b2.destination) "destinations may not change"
  require (a2.amount = b2.amount) "p2.amt !constant"
  require (a0.amount + a1.amount + a2.amount = b0.amount + b1.amount + b2.amount)
    "total allocation changed"

def requireAbsorbed (x b : List Allocation) : Except String Unit := do
  let x0 ← index x 0
  let x1 ← index x 1
  let b0 ← index b 0
  let b1 ← index b 1
  require (x0.amount = b0.amount ∧ x1.amount = b1.amount ∧ x0.destination = b0.destination ∧
    x1.destination = b1.destination) "X / J outcome mismatch"

/-- the turn number, the number of participants and the signers of the first state are not used -/
def validTransition (a b : VariablePart) (signedByTo : Word) : Except String Bool := do
  let fromAppData ← H.decodeAppData a.appData
  let toAppData ← H.decodeAppData b.appData
  let fromAllocations ← decode3PartyAllocation H a.outcome
  let toAllocations ← decode3PartyAllocation H b.outcome
  requireAllocations fromAllocations toAllocations
  requireMove fromAppData toAppData (isClaimedSignedBy signedByTo 0) (isClaimedSignedBy signedByTo 1)
  let xAllocations ← validateSupportProofForX H fromAppData toAppData
  requireAbsorbed xAllocations toAllocations
  .ok true

end contract

/-! ## one transition -/

/-- the participants who have moved -/
def AlreadyMoved.movers : AlreadyMoved → Finset UInt8
  | .none => ∅
  | .a => {0}
  | .b => {1}
  | .ab => {0, 1}

structure Moves (i : UInt8) (fromAppData toAppData : AppData) (signedByTo : Word) : Prop where
  who : i = 0 ∨ i = 1
  fresh : i ∉ fromAppData.alreadyMoved.movers
  moved : toAppData.alreadyMoved.movers = insert i fromAppData.alreadyMoved.movers
  signed : isClaimedSignedBy signedByTo i = true
  superior : fromAppData.alreadyMoved ≠ .none →
    fromAppData.supportProofForX.turnNumTo < toAppData.supportProofForX.turnNumTo

structure Keeps (x y : List Allocation) : Prop where
  destinations : y.map (·.destination) = x.map (·.destination)
  irene : y[2]?.map (·.amount) = x[2]?.map (·.amount)
  sum : ((y.map (·.amount)).sum : Word) = (x.map (·.amount)).sum

structure SameX (fromAppData toAppData : AppData) : Prop where
  app : fromAppData.supportProofForX.fixedPart.appDefinition =
    toAppData.supportProofForX.fixedPart.appDefinition
  duration : fromAppData.supportProofForX.fixedPart.challengeDuration =
    toAppData.supportProofForX.fixedPart.challengeDuration
  states : toAppData.supportProofForX.variableParts.length = 1 ∨
    toAppData.supportProofForX.variableParts.length = 2

section spec
variable {H : Host} {fromAppData toAppData : AppData} {signedByTo : Word} {x y : List Allocation}
  {a b : VariablePart}

theorem requireMove_ok (h : requireMove fromAppData toAppData (isClaimedSignedBy signedByTo 0)
    (isClaimedSignedBy signedByTo 1) = .ok ()) : ∃ i, Moves i fromAppData toAppData signedByTo := by
  unfold requireMove at h
  cases hfrom : fromAppData.alreadyMoved with
  | none =>
    rw [if_pos hfrom] at h
    rcases require_eq_ok.1 h with ⟨hto, hsigned⟩ | ⟨hto, hsigned⟩
    · exact ⟨0, .inl rfl, by rw [hfrom]; decide, by rw [hfrom, hto]; rfl, hsigned,
        fun hne => absurd hfrom hne⟩
    · exact ⟨1, .inr rfl, by rw [hfrom]; decide, by rw [hfrom, hto]; rfl, hsigned,
        fun hne => absurd hfrom hne⟩
  | a =>
    rw [if_neg (by rw [hfrom]; decide), hfrom] at h
    obtain ⟨hlt, h⟩ := require_bind_eq_ok.1 h
    obtain ⟨hto, hsigned⟩ := require_eq_ok.1 h
    exact ⟨1, .inr rfl, by rw [hfrom]; decide, by rw [hfrom, hto]; decide, hsigned, fun _ => hlt⟩
  | b =>
    rw [if_neg (by rw [hfrom]; decide), hfrom] at h
    obtain ⟨hlt, h⟩ := require_bind_eq_ok.1 h
    obtain ⟨hto, hsigned⟩ := require_eq_ok.1 h
    exact ⟨0, .inl rfl, by rw [hfrom]; decide, by rw [hfrom, hto]; decide, hsigned, fun _ => hlt⟩
  | ab =>
    rw [if_neg (by rw [hfrom]; decide), hfrom] at h
    obtain ⟨-, h⟩ := require_bind_eq_ok.1 h
    cases h

theorem decode3_length {bytes : Bytes} (h : decode3PartyAllocation H bytes = .ok x) :
    ∃ x0 x1 x2, x = [x0, x1, x2] := by
  obtain ⟨outcome, -, h⟩ := bind_eq_ok.1 h
  obtain ⟨-, h⟩ := require_bind_eq_ok.1 h
  obtain ⟨e, -, h⟩ := bind_eq_ok.1 h
  obtain ⟨hlength, hend⟩ := require_bind_eq_ok.1 h
  cases hend
  exact List.length_eq_three.1 hlength

theorem requireAllocations_iff {x0 x1 x2 y0 y1 y2 : Allocation} :
    requireAllocations [x0, x1, x2] [y0, y1, y2] = .ok () ↔
      Keeps [x0, x1, x2] [y0, y1, y2] := by
  show (require _ _ >>= fun _ => require _ _ >>= fun _ => require _ _) = _ ↔ _
  rw [require_bind_eq_ok, require_bind_eq_ok, require_eq_ok]
  constructor
  · rintro ⟨⟨h0, h1, h2⟩, hirene, hsum⟩
    refine ⟨by simp [h0, h1, h2], by simp [hirene], ?_⟩
    simpa [BitVec.add_assoc] using hsum.symm
  · rintro ⟨hdest, hirene, hsum⟩
    simp only [List.map_cons, List.map_nil, List.cons.injEq, and_true] at hdest
    refine ⟨⟨hdest.1.symm, hdest.2.1.symm, hdest.2.2.symm⟩, (by simpa using hirene.symm), ?_⟩
    simpa [BitVec.add_assoc] using hsum.symm

theorem Keeps.trans {z : List Allocation} (hxy : Keeps x y) (hyz : Keeps y z) : Keeps x z :=
  ⟨hyz.destinations.trans hxy.destinations, hyz.irene.trans hxy.irene, hyz.sum.trans hxy.sum⟩

theorem requireAllocations_keeps {bytes bytes' : Bytes} (hx : decode3PartyAllocation H bytes = .ok x)
    (hy : decode3PartyAllocation H bytes' = .ok y) (h : requireAllocations x y = .ok ()) :
    Keeps x y := by
  obtain ⟨x0, x1, x2, rfl⟩ := decode3_length hx
  obtain ⟨y0, y1, y2, rfl⟩ := decode3_length hy
  exact requireAllocations_iff.1 h

theorem validTransition_iff : validTransition H a b signedByTo = .ok true ↔
    ∃ d d' x y z, H.decodeAppData a.appData = .ok d ∧ H.decodeAppData b.appData = .ok d' ∧
      decode3PartyAllocation H a.outcome = .ok x ∧ decode3PartyAllocation H b.outcome = .ok y ∧
      requireAllocations x y = .ok () ∧
      requireMove d d' (isClaimedSignedBy signedByTo 0) (isClaimedSignedBy signedByTo 1) = .ok () ∧
      validateSupportProofForX H d d' = .ok z ∧ requireAbsorbed z y = .ok () := by
  constructor
  · intro h
    obtain ⟨d, hd, h⟩ := bind_eq_ok.1 h
    obtain ⟨d', hd', h⟩ := bind_eq_ok.1 h
    obtain ⟨x, hx, h⟩ := bind_eq_ok.1 h
    obtain ⟨y, hy, h⟩ := bind_eq_ok.1 h
    obtain ⟨⟨⟩, halloc, h⟩ := bind_eq_ok.1 h
    obtain ⟨⟨⟩, hmove, h⟩ := bind_eq_ok.1 h
    obtain ⟨z, hz, h⟩ := bind_eq_ok.1 h
    obtain ⟨⟨⟩, habsorbed, -⟩ := bind_eq_ok.1 h
    exact ⟨d, d', x, y, z, hd, hd', hx, hy, halloc, hmove, hz, habsorbed⟩
  · rintro ⟨d, d', x, y, z, hd, hd', hx, hy, halloc, hmove, hz, habsorbed⟩
    refine bind_eq_ok.2 ⟨d, hd, bind_eq_ok.2 ⟨d', hd', bind_eq_ok.2 ⟨x, hx, bind_eq_ok.2 ⟨y, hy, ?_⟩⟩⟩⟩
    exact bind_eq_ok.2 ⟨(), halloc, bind_eq_ok.2 ⟨(), hmove, bind_eq_ok.2 ⟨z, hz,
      bind_eq_ok.2 ⟨(), habsorbed, rfl⟩⟩⟩⟩

theorem validateSupportProofForX_iff {z : List Allocation} :
    validateSupportProofForX H fromAppData toAppData = .ok z ↔
      ∃ first greater, SameX fromAppData toAppData ∧
        index toAppData.supportProofForX.variableParts
          (toAppData.supportProofForX.variableParts.length - 1) = .ok greater ∧
        index toAppData.supportProofForX.variableParts 0 = .ok first ∧
        requireSignatures H toAppData.channelIdForX toAppData.supportProofForX first greater =
          .ok () ∧
        requireTransitionOfX H toAppData.supportProofForX first = .ok () ∧
        decode2PartyAllocation H greater.outcome = .ok z := by
  constructor
  · intro h
    obtain ⟨happ, h⟩ := require_bind_eq_ok.1 h
    obtain ⟨hduration, h⟩ := require_bind_eq_ok.1 h
    obtain ⟨hlength, h⟩ := require_bind_eq_ok.1 h
    obtain ⟨greater, hgreater, h⟩ := bind_eq_ok.1 h
    obtain ⟨first, hfirst, h⟩ := bind_eq_ok.1 h
    obtain ⟨⟨⟩, hsigs, h⟩ := bind_eq_ok.1 h
    obtain ⟨⟨⟩, hvalid, h⟩ := bind_eq_ok.1 h
    exact ⟨first, greater, ⟨happ, hduration, hlength⟩, hgreater, hfirst, hsigs, hvalid, h⟩
  · rintro ⟨first, greater, hsame, hgreater, hfirst, hsigs, hvalid, h⟩
    refine require_bind_eq_ok.2 ⟨hsame.app, require_bind_eq_ok.2 ⟨hsame.duration,
      require_bind_eq_ok.2 ⟨hsame.states, ?_⟩⟩⟩
    exact bind_eq_ok.2 ⟨greater, hgreater, bind_eq_ok.2 ⟨first, hfirst, bind_eq_ok.2 ⟨(), hsigs,
      bind_eq_ok.2 ⟨(), hvalid, h⟩⟩⟩⟩

end spec

/-! ## runs -/

/-- a state of `J` and the mask of its signers -/
abbrev Signed := VariablePart × Word

def Transition (H : Host) (s t : Signed) : Prop := validTransition H s.1 t.1 t.2 = .ok true

/-- the proof of the second state is for a later turn -/
def Better (H : Host) (s t : Signed) : Prop :=
  ∃ d d', H.decodeAppData s.1.appData = .ok d ∧ H.decodeAppData t.1.appData = .ok d' ∧
    d.supportProofForX.turnNumTo < d'.supportProofForX.turnNumTo

section runs
variable {H : Host} {s t : Signed} {l mid : List Signed}

theorem movers_of_chain {d : AppData} (h : (s :: l).IsChain (Transition H))
    (hd : H.decodeAppData s.1.appData = .ok d) :
    ∃ movers : List UInt8, movers.Nodup ∧ 
      (∀ i ∈ movers, (i = 0 ∨ i = 1) ∧ i ∉ d.alreadyMoved.movers) ∧
      List.Forall₂ (fun i t => isClaimedSignedBy t.2 i = true) movers l ∧
      (d.alreadyMoved ≠ .none → (s :: l).IsChain (Better H)) ∧ l.IsChain (Better H) := by
  induction l generalizing s d with
  | nil => exact ⟨[], .nil, nofun, .nil, fun _ => .singleton s, .nil⟩
  | cons t l ih =>
    obtain ⟨hstep, hrest⟩ := List.isChain_cons_cons.1 h
    obtain ⟨d', e, -, -, -, hd', he, -, -, -, hmove, -⟩ := validTransition_iff.1 hstep
    obtain rfl := Except.ok.inj (hd.symm.trans hd')
    obtain ⟨i, hmoves⟩ := requireMove_ok hmove
    obtain ⟨movers, hnodup, hfresh, hsigned, hbetter, -⟩ := ih hrest he
    rw [hmoves.moved] at hfresh
    have hne : e.alreadyMoved ≠ .none := by
      intro hnone
      have hmoved := hmoves.moved
      rw [hnone] at hmoved
      exact Finset.insert_ne_empty _ _ hmoved.symm
    have hnew : i ∉ movers := fun hi => (hfresh i hi).2 (Finset.mem_insert_self _ _)
    refine ⟨i :: movers, List.nodup_cons.2 ⟨hnew, hnodup⟩, List.forall_mem_cons.2
      ⟨⟨hmoves.who, hmoves.fresh⟩, fun j hj => ⟨(hfresh j hj).1, fun hd =>
        (hfresh j hj).2 (Finset.mem_insert_of_mem hd)⟩⟩,
      .cons hmoves.signed hsigned, fun hd => ?_, hbetter hne⟩
    exact List.isChain_cons_cons.2 ⟨⟨d, e, hd', he, hmoves.superior hd⟩, hbetter hne⟩

/-- **Alice and Bob each move at most once**: the movers are different, signed the states they moved to,
and the second of two proofs is the better one -/
theorem one_move_each (h : (s :: l).IsChain (Transition H)) : l.length ≤ 2 ∧
    (∃ movers : List UInt8, movers.Nodup ∧ (∀ i ∈ movers, i = 0 ∨ i = 1) ∧
      List.Forall₂ (fun i t => isClaimedSignedBy t.2 i = true) movers l) ∧
    l.IsChain (Better H) := by
  cases l with
  | nil => exact ⟨Nat.zero_le _, ⟨[], .nil, nofun, .nil⟩, .nil⟩
  | cons t l =>
    obtain ⟨d, -, -, -, -, hd, -⟩ := validTransition_iff.1 (List.isChain_cons_cons.1 h).1
    obtain ⟨movers, hnodup, hwho, hsigned, -, hbetter⟩ := movers_of_chain h hd
    have hsub : movers ⊆ [0, 1] := by
      intro i hi
      rcases (hwho i hi).1 with rfl | rfl <;> simp
    have hlength := (hnodup.subperm hsub).length_le
    rw [hsigned.length_eq] at hlength
    exact ⟨hlength, ⟨movers, hnodup, fun i hi => (hwho i hi).1, hsigned⟩, hbetter⟩

/-- **Irene is protected**: over a run the destinations and the third balance stay, and so does what the
first two have together, as a word -/
theorem irene_protected (h : (s :: (mid ++ [t])).IsChain (Transition H)) :
    ∃ x0 x1 x2 y0 y1 y2, decode3PartyAllocation H s.1.outcome = .ok [x0, x1, x2] ∧
      decode3PartyAllocation H t.1.outcome = .ok [y0, y1, y2] ∧
      [y0, y1, y2].map (·.destination) = [x0, x1, x2].map (·.destination) ∧
      y2.amount = x2.amount ∧ y0.amount + y1.amount = x0.amount + x1.amount := by
  obtain ⟨u, l, hl⟩ : ∃ u l, mid ++ [t] = u :: l := List.exists_cons_of_ne_nil (by simp)
  have hfirst : Transition H s u := by
    rw [hl] at h
    exact (List.isChain_cons_cons.1 h).1
  obtain ⟨-, -, x, -, -, -, -, hx, -⟩ := validTransition_iff.1 hfirst
  let R (_ : Signed) (t : Signed) : Prop :=
    ∃ y, decode3PartyAllocation H t.1.outcome = .ok y ∧ Keeps x y
  obtain ⟨y, hy, hkeeps⟩ : R s t := by
    refine chain_inv (S := Transition H) ⟨x, hx, rfl, rfl, rfl⟩ ?_ h
    rintro v w - ⟨y, hy, hkeeps⟩ hstep
    obtain ⟨-, -, y', z, -, -, -, hy', hz, halloc, -⟩ := validTransition_iff.1 hstep
    obtain rfl := Except.ok.inj (hy.symm.trans hy')
    exact ⟨z, hz, hkeeps.trans (requireAllocations_keeps hy hz halloc)⟩
  obtain ⟨x0, x1, x2, rfl⟩ := decode3_length hx
  obtain ⟨y0, y1, y2, rfl⟩ := decode3_length hy
  have hirene : y2.amount = x2.amount := by simpa using hkeeps.irene
  have hsum := hkeeps.sum
  simp only [List.map_cons, List.map_nil, List.sum_cons, List.sum_nil, hirene] at hsum
  refine ⟨x0, x1, x2, y0, y1, y2, hx, hy, hkeeps.destinations, hirene, ?_⟩
  bv_omega

end runs

/-! ## what the proof is not checked for -/

section proofs
variable {H : Host} {a b b' : VariablePart} {d d' : AppData} {signedByTo : Word}
  {first second : VariablePart}

theorem requireTransitionOfX_iff {proof : SupportProof} (hwho : proof.whoSignedWhat ≠ (0, 0))
    (hsecond : index proof.variableParts 1 = .ok second) :
    requireTransitionOfX H proof first = .ok () ↔
      H.app proof.fixedPart.appDefinition first second proof.turnNumTo 2
        (if proof.whoSignedWhat.1 = 0 then 1 else 2) (if proof.whoSignedWhat.1 = 0 then 2 else 1) =
          .ok true := by
  rw [requireTransitionOfX, if_neg hwho, hsecond]
  constructor
  · intro h
    obtain ⟨_, hindex, h⟩ := bind_eq_ok.1 h
    cases hindex
    obtain ⟨valid, hvalid, h⟩ := bind_eq_ok.1 h
    rw [require_eq_ok.1 h] at hvalid
    exact hvalid
  · intro hvalid
    exact bind_eq_ok.2 ⟨second, rfl, bind_eq_ok.2 ⟨true, hvalid, rfl⟩⟩

/-- the same data with other application data in the second state of `X` -/
def AppData.withSecond (d : AppData) (first second : VariablePart) (appData : Bytes) : AppData :=
  { d with supportProofForX :=
    { d.supportProofForX with variableParts := [first, { second with appData := appData }] } }

structure Forged (H : Host) (k : Address) (z : Bytes) (proof : SupportProof) (channelId : Bytes32) :
    Prop where
  participants : proof.fixedPart.participants = [k, k]
  states : ∃ appData exit, proof.variableParts = [⟨z, appData⟩] ∧ H.D.decodeExit z = .ok exit ∧
    let stateHash := hashState H.D channelId appData exit proof.turnNumTo false
    recoverSigner H.D stateHash proof.sigs.1 = .ok k ∧ recoverSigner H.D stateHash proof.sigs.2 = .ok k
  whoSignedWhat : proof.whoSignedWhat = (0, 0)

theorem requireSignatures_forged {k : Address} {z appData : Bytes} {exit : Exit} {proof : SupportProof}
    {channelId : Bytes32} (hwho : proof.whoSignedWhat = (0, 0))
    (hk : proof.fixedPart.participants = [k, k]) (hexit : H.D.decodeExit z = .ok exit)
    (h0 : recoverSigner H.D (hashState H.D channelId appData exit proof.turnNumTo false)
      proof.sigs.1 = .ok k)
    (h1 : recoverSigner H.D (hashState H.D channelId appData exit proof.turnNumTo false)
      proof.sigs.2 = .ok k) :
    requireSignatures H channelId proof ⟨z, appData⟩ ⟨z, appData⟩ = .ok () := by
  have hhash : hashStateOfX H channelId appData z proof.turnNumTo =
      .ok (hashState H.D channelId appData exit proof.turnNumTo false) :=
    bind_eq_ok.2 ⟨exit, hexit, rfl⟩
  have hsigner : ∀ {sig : Signature} {i : Nat} {reason : String}, i < 2 →
      recoverSigner H.D (hashState H.D channelId appData exit proof.turnNumTo false) sig = .ok k →
      requireSigner H proof (hashState H.D channelId appData exit proof.turnNumTo false) sig i reason =
        .ok () := by
    intro sig i reason hi hsig
    refine bind_eq_ok.2 ⟨k, hsig, bind_eq_ok.2 ⟨k, ?_, require_eq_ok.2 rfl⟩⟩
    rw [hk, index_eq_ok]
    match i, hi with
    | 0, _ => rfl
    | 1, _ => rfl
  refine bind_eq_ok.2 ⟨_, hhash, ?_⟩
  rw [if_pos hwho]
  exact bind_eq_ok.2 ⟨(), hsigner (by decide) h0, hsigner (by decide) h1⟩

/-- **nothing ties a proof to the channel it replaces**: out of a state in which nobody has moved, one
participant takes what both have, with a proof for a channel of their own key twice -/
theorem forged_proof_accepted {k : Address} {z : Bytes} {e : SingleAssetExit} {rest : Exit}
    {x0 x1 x2 y0 y1 y2 : Allocation} (hd : H.decodeAppData a.appData = .ok d)
    (hd' : H.decodeAppData b.appData = .ok d') (hnone : d.alreadyMoved = .none)
    (hmoved : d'.alreadyMoved = .a)
    (happ : d.supportProofForX.fixedPart.appDefinition = d'.supportProofForX.fixedPart.appDefinition)
    (hduration : d.supportProofForX.fixedPart.challengeDuration =
      d'.supportProofForX.fixedPart.challengeDuration)
    (hforged : Forged H k z d'.supportProofForX d'.channelIdForX)
    (hz : H.D.decodeExit z = .ok (e :: rest)) (he : e.allocations = [y0, y1])
    (hx : decode3PartyAllocation H a.outcome = .ok [x0, x1, x2])
    (hy : decode3PartyAllocation H b.outcome = .ok [y0, y1, y2])
    (h0 : y0.destination = x0.destination ∧ y0.amount = x0.amount + x1.amount)
    (h1 : y1.destination = x1.destination ∧ y1.amount = 0) (h2 : y2 = x2) :
    validTransition H a b 1 = .ok true := by
  subst h2
  obtain ⟨appData, exit, hparts, hexit, hsig0, hsig1⟩ := hforged.states
  have hkeeps : Keeps [x0, x1, y2] [y0, y1, y2] := by
    refine ⟨by simp [h0.1, h1.1], rfl, ?_⟩
    simp only [List.map_cons, List.map_nil, List.sum_cons, List.sum_nil, h0.2, h1.2]
    bv_omega
  have hmove : requireMove d d' (isClaimedSignedBy 1 0) (isClaimedSignedBy 1 1) = .ok () := by
    rw [requireMove, if_pos hnone]
    exact require_eq_ok.2 (.inl ⟨hmoved, by decide⟩)
  have hproof : validateSupportProofForX H d d' = .ok [y0, y1] := by
    refine validateSupportProofForX_iff.2 ⟨⟨z, appData⟩, ⟨z, appData⟩, ⟨happ, hduration, ?_⟩, ?_, ?_,
      requireSignatures_forged hforged.whoSignedWhat hforged.participants hexit hsig0 hsig1,
      if_pos hforged.whoSignedWhat, ?_⟩
    · rw [hparts]
      exact .inl rfl
    · rw [hparts]
      rfl
    · rw [hparts]
      rfl
    · refine bind_eq_ok.2 ⟨_, hz, bind_eq_ok.2 ⟨e, rfl, require_bind_eq_ok.2 ⟨by rw [he]; rfl, ?_⟩⟩⟩
      rw [he]
  exact validTransition_iff.2 ⟨d, d', _, _, _, hd, hd', hx, hy, requireAllocations_iff.2 hkeeps, hmove,
    hproof, require_eq_ok.2 ⟨rfl, rfl, rfl, rfl⟩⟩

end proofs

end EmbeddedApplication

namespace Sample
open EmbeddedApplication

/-- an outcome is the list of its amounts -/
def allocating (amounts : Bytes) : Exit :=
  [⟨0, [], amounts.mapIdx fun i x => ⟨BitVec.ofNat 256 (i + 1), BitVec.ofNat 256 x.toNat, 0, []⟩⟩]

/-- the signature on a state of `X`, channel 9, with the first state's application data -/
def sigOfX (amounts : Bytes) (turnNum : BitVec 48) (key : Nat) : Signature :=
  sign (hashState deployment 9 [] (allocating amounts) turnNum false) key

/-- a proof of one state that two keys signed -/
def proofBy (turnNum : BitVec 48) (amounts : Bytes) (k k' : Nat) : SupportProof where
  fixedPart := { fixedPart with participants := [BitVec.ofNat 160 k, BitVec.ofNat 160 k'] }
  variableParts := [⟨amounts, []⟩]
  turnNumTo := turnNum
  sigs := (sigOfX amounts turnNum k, sigOfX amounts turnNum k')
  whoSignedWhat := (0, 0)

/-- a proof of two states; the application of `X` accepts the application data 1 only -/
def proofOfTwo (appData : Bytes) : SupportProof where
  fixedPart := fixedPart
  variableParts := [⟨[5, 5], []⟩, ⟨[6, 4], appData⟩]
  turnNumTo := 4
  sigs := (sigOfX [5, 5] 3 1, sigOfX [6, 4] 4 2)
  whoSignedWhat := (0, 1)

/-- the application data of `J` -/
def dataOfJ : Bytes → Except String AppData
  | [0] => .ok ⟨9, proofBy 2 [5, 5] 1 2, .none⟩
  | [1] => .ok ⟨9, proofBy 3 [6, 4] 1 2, .a⟩
  | [2] => .ok ⟨9, proofBy 4 [7, 3] 1 2, .ab⟩
  | [3] => .ok ⟨9, proofBy 1 [10, 0] 1 1, .a⟩
  | [4, x] => .ok ⟨9, proofOfTwo [x], .a⟩
  | _ => .error "abi decoding"

def host : Host where
  D := { deployment with decodeExit := fun bytes => .ok (allocating bytes) }
  decodeAppData := dataOfJ
  app := fun _ _ second _ _ _ _ => .ok (second.appData = [1])

end Sample

namespace EmbeddedApplication
open Contracts.Sample

theorem two_moves : [((⟨[5, 5, 5], [0]⟩, 0) : Signed), (⟨[6, 4, 5], [1]⟩, 1),
    (⟨[7, 3, 5], [2]⟩, 2)].IsChain (Transition host) := by
  have hfirst : validTransition host ⟨[5, 5, 5], [0]⟩ ⟨[6, 4, 5], [1]⟩ 1 = .ok true := by
    decide +kernel
  have hsecond : validTransition host ⟨[6, 4, 5], [1]⟩ ⟨[7, 3, 5], [2]⟩ 2 = .ok true := by
    decide +kernel
  exact List.isChain_cons_cons.2 ⟨hfirst, List.isChain_cons_cons.2 ⟨hsecond, .singleton _⟩⟩

theorem one_move_each_two : [((⟨[6, 4, 5], [1]⟩, 1) : Signed), (⟨[7, 3, 5], [2]⟩, 2)].IsChain
    (Better host) :=
  (one_move_each two_moves).2.2

theorem irene_protected_two : ∃ y0 y1 y2, decode3PartyAllocation host [7, 3, 5] = .ok [y0, y1, y2] ∧
    y2.amount = 5 ∧ y0.amount + y1.amount = 10 := by
  have hrun : (((⟨[5, 5, 5], [0]⟩, 0) : Signed) :: ([(⟨[6, 4, 5], [1]⟩, 1)] ++
      [(⟨[7, 3, 5], [2]⟩, 2)])).IsChain (Transition host) := two_moves
  obtain ⟨x0, x1, x2, y0, y1, y2, hx, hy, -, hirene, hsum⟩ := irene_protected hrun
  cases hx
  exact ⟨y0, y1, y2, hy, hirene, hsum⟩

theorem forged_proof_accepted_ten :
    validTransition host ⟨[5, 5, 5], [0]⟩ ⟨[10, 0, 5], [3]⟩ 1 = .ok true := by
  have hforged : Forged host 1 [10, 0] (proofBy 1 [10, 0] 1 1) 9 :=
    ⟨rfl, ⟨[], allocating [10, 0], rfl, rfl, by decide +kernel⟩, rfl⟩
  exact forged_proof_accepted rfl rfl rfl rfl rfl rfl hforged rfl rfl rfl rfl (by decide)
    (by decide) rfl

end EmbeddedApplication

end Nitro.Contracts
