import Nitro.Contracts.NitroUtils

/-!
# Turn taking and the consensus application

The library `ShortcuttingTurnTaking` and the contract `ConsensusApp`.  A support proof is an array of
signed states; every participant signs the state for which they are the mover in the last round
robin, or one after it.

* `requireValidInput`        the shape of the array and the masks of the signers;
* `requireValidSignatures`   one state: the order of its signers, and their signatures;
* `requireValidTurnTaking`   a whole support proof;
* `ConsensusApp.latestSupportedState`   a single state that everyone signed.
-/

set_option linter.unusedSectionVars false

namespace Nitro.Contracts
open Evm

namespace ShortcuttingTurnTaking
variable (D : Deployment)

/-- the loop over the masks: nobody signs twice -/
def signedSoFar : List SignedVariablePart → Word → Except String Word
  | [], signed => .ok signed
  | part :: parts, signed => do
    require (signed &&& part.signedBy = 0) "Excess sigs from one participant"
    signedSoFar parts (signed ||| part.signedBy)

def requireValidInput (nParticipants : Nat) (signedVariableParts : List SignedVariablePart) :
    Except String Unit := do
  let numStates := signedVariableParts.length
  require (numStates ≤ nParticipants ∧ 0 < numStates) "Insufficient or excess states"
  let last ← index signedVariableParts (signedVariableParts.length - 1)
  let largestTurnNum : Word := last.variablePart.turnNum.setWidth 256
  require (nParticipants ≤ (largestTurnNum + 1).toNat) "largestTurnNum too low"
  require (nParticipants ≤ 255) "Too many participants"
  let first ← index signedVariableParts 0
  let turnNumDelta := largestTurnNum - first.variablePart.turnNum.setWidth 256
  require (turnNumDelta.toNat ≤ nParticipants) "Only one round-robin allowed"
  let signed ← signedSoFar signedVariableParts 0
  require (signed = BitVec.ofNat 256 (2 ^ nParticipants) - 1) "Lacking participant signature"

/-- the subtraction from the turn number is one of words, and may wrap -/
def requireOrder (turnNum : BitVec 48) (shift nParticipants : Word) :
    List UInt8 → Except String Unit
  | [] => .ok ()
  | signer :: signers => do
    let turn ← checkedMod (BitVec.ofNat 256 signer.toNat + nParticipants - shift) nParticipants
    let latest ← checkedMod (turnNum.setWidth 256 - shift) nParticipants
    require (turn ≤ latest) "Unacceptable sigs order"
    requireOrder turnNum shift nParticipants signers

def requireAcceptableSigsOrder (signedBy : Word) (turnNum : BitVec 48)
    (shift nParticipants : Word) : Except String Unit := do
  let signerIndices ← getClaimedSignersIndices signedBy
  requireOrder turnNum shift nParticipants signerIndices

/-- the `i`-th signature belongs to the `i`-th signer -/
def requireSigners (fixedPart : FixedPart) (part : SignedVariablePart) :
    List (UInt8 × Nat) → Except String Unit
  | [] => .ok ()
  | (signer, i) :: signers => do
    let channelId ← getChannelId D fixedPart
    let p := part.variablePart
    let sig ← index part.sigs i
    let participant ← index fixedPart.participants signer.toNat
    let signed ← isSignedBy D (hashState D channelId p.appData p.outcome p.turnNum p.isFinal) sig
      participant
    require (signed = true) "Invalid signer"
    requireSigners fixedPart part signers

def requireValidSignatures (fixedPart : FixedPart) (part : SignedVariablePart)
    (roundRobinShift : Word) : Except String Unit := do
  require (0 < part.sigs.length) "Insufficient signatures"
  let num ← getClaimedSignersNum part.signedBy
  require (part.sigs.length = num.toNat) "|sigs| != |signedBy|"
  requireAcceptableSigsOrder part.signedBy part.variablePart.turnNum roundRobinShift
    (BitVec.ofNat 256 fixedPart.participants.length)
  let signerIndices ← getClaimedSignersIndices part.signedBy
  requireSigners D fixedPart part signerIndices.zipIdx

def requireIncreasedTurnNum (prevTurnNum newTurnNum : BitVec 48) : Except String Unit :=
  require (prevTurnNum < newTurnNum) "turnNum not increased"

/-- the loop over the states; the first one has no predecessor -/
def requireParts (fixedPart : FixedPart) (roundRobinShift : Word) :
    Option (BitVec 48) → List SignedVariablePart → Except String Unit
  | _, [] => .ok ()
  | prevTurnNum, part :: parts => do
    requireValidSignatures D fixedPart part roundRobinShift
    match prevTurnNum with
    | none => .ok ()
    | some prev => requireIncreasedTurnNum prev part.variablePart.turnNum
    requireParts fixedPart roundRobinShift (some part.variablePart.turnNum) parts

/-- the turn number is increased as a `uint48` before it is reduced -/
def requireValidTurnTaking (fixedPart : FixedPart)
    (signedVariableParts : List SignedVariablePart) : Except String Unit := do
  let nParticipants := fixedPart.participants.length
  let last ← index signedVariableParts (signedVariableParts.length - 1)
  requireValidInput nParticipants signedVariableParts
  let roundRobinShift ←
    checkedMod ((last.variablePart.turnNum + 1).setWidth 256) (BitVec.ofNat 256 nParticipants)
  requireParts D fixedPart roundRobinShift none signedVariableParts

end ShortcuttingTurnTaking

namespace ConsensusApp

def latestSupportedState (D : Deployment) (fixedPart : FixedPart)
    (signedVariableParts : List SignedVariablePart) : Except String VariablePart := do
  require (signedVariableParts.length = 1) "|signedVariableParts|!=1"
  ShortcuttingTurnTaking.requireValidTurnTaking D fixedPart signedVariableParts
  let part ← index signedVariableParts 0
  .ok part.variablePart

end ConsensusApp

end Nitro.Contracts
