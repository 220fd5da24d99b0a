import Nitro.Contracts.MultiAssetHolder
import Nitro.Contracts.TurnTaking
import Nitro.Lib.Runs

/-!
# The adjudicator

The contract `NitroAdjudicator`, which is `ForceMove` and `MultiAssetHolder` in one and adds the functions that
liquidate a whole outcome.  Anybody may call, with any arguments: a `Call` is one external call,
and `step` carries it out or, if it reverts, leaves everything as it was.

* `transferAllAssets`, `concludeAndTransferAllAssets`   pay out every asset of an outcome;
* `Call.exec`, `step`                                   all calls.
-/

set_option linter.unusedSectionVars false

namespace Nitro.Contracts
open Evm

namespace NitroAdjudicator
open ForceMove MultiAssetHolder

/-! ## liquidating an outcome -/

/-- what the first loop of `transferAllAssets` computes for one entry of the outcome -/
structure Liquidation where
  assetOutcome : SingleAssetExit
  initialHoldings : Word
  effects : TransferState
  deriving DecidableEq

section liquidation
variable (D : Deployment) (env : Env)

/-- the holdings are read before any of them is debited -/
def liquidate (channelId : Bytes32) (w : World) : Exit → Except String (List Liquidation)
  | [] => .ok []
  | e :: es => do
    let initialHoldings := w.holdings e.asset channelId
    let effects ← computeTransferEffectsAndInteractions D initialHoldings e.allocations []
    let rest ← liquidate channelId w es
    .ok (⟨e, initialHoldings, effects⟩ :: rest)

/-- the second loop: debits and events -/
def debitAll (channelId : Bytes32) : Nat → List Liquidation → World → World
  | _, [], w => w
  | assetIndex, l :: ls, w =>
    let asset := l.assetOutcome.asset
    debitAll channelId (assetIndex + 1) ls
      ((w.setHoldings asset channelId
        (w.holdings asset channelId - l.effects.totalPayouts)).emit
          (.allocationUpdated channelId (BitVec.ofNat 256 assetIndex) l.initialHoldings))

def Liquidation.newOutcome (l : Liquidation) : SingleAssetExit :=
  { l.assetOutcome with allocations := l.effects.newAllocations }

def Liquidation.exit (l : Liquidation) : SingleAssetExit :=
  { l.assetOutcome with allocations := l.effects.exitAllocations }

def executeExit : Exit → World → Except String World
  | [], w => .ok w
  | e :: es, w => do
    let w' ← executeSingleAssetExit env e w
    executeExit es w'

/-- a channel that allocates nothing any more is forgotten -/
def settleStatus (channelId stateHash : Bytes32) (ls : List Liquidation) (w : World) : World :=
  if ls.all fun l => l.effects.allocatesOnlyZeros then w.setStatus channelId 0
  else updateFingerprint D w channelId stateHash (hashOutcome D (ls.map Liquidation.newOutcome))

def transferAllAssets (channelId : Bytes32) (outcome : Exit) (stateHash : Bytes32) (w : World) :
    Except String World := do
  requireChannelFinalized env w channelId
  requireMatchingFingerprint D w stateHash (hashOutcome D outcome) channelId
  let ls ← liquidate D channelId w outcome
  executeExit env (ls.map Liquidation.exit)
    (settleStatus D channelId stateHash ls (debitAll channelId 0 ls w))

def concludeAndTransferAllAssets (fixedPart : FixedPart)
    (signedVariableParts : List SignedVariablePart) (w : World) : Except String World := do
  let (channelId, w') ← concludeInternal D env fixedPart signedVariableParts w
  let last ← lastVariablePart signedVariableParts
  transferAllAssets D env channelId last.outcome 0 w'

end liquidation

/-! ## calls -/

inductive Call where
  | deposit (asset : Address) (channelId : Bytes32) (expectedHeld amount : Word)
  | transfer (assetIndex : Word) (fromChannelId : Bytes32) (outcomeBytes : Bytes)
      (stateHash : Bytes32) (indices : List Word)
  | claim (args : ClaimArgs)
  | transferAllAssets (channelId : Bytes32) (outcome : Exit) (stateHash : Bytes32)
  | concludeAndTransferAllAssets (fixedPart : FixedPart)
      (signedVariableParts : List SignedVariablePart)
  | challenge (fixedPart : FixedPart) (signedVariableParts : List SignedVariablePart)
      (challengerSig : Signature)
  | checkpoint (fixedPart : FixedPart) (signedVariableParts : List SignedVariablePart)
  | conclude (fixedPart : FixedPart) (signedVariableParts : List SignedVariablePart)
  deriving DecidableEq

section calls
variable (D : Deployment)

/-- every function but `deposit` refuses ether -/
def nonPayable (env : Env) : Except String Unit := require (env.value = 0) ""

def Call.exec (env : Env) : Call → World → Except String World
  | .deposit asset channelId expectedHeld amount, w =>
    MultiAssetHolder.deposit env asset channelId expectedHeld amount w
  | .transfer assetIndex fromChannelId outcomeBytes stateHash indices, w => do
    nonPayable env
    MultiAssetHolder.transfer D env assetIndex fromChannelId outcomeBytes stateHash indices w
  | .claim args, w => do
    nonPayable env
    MultiAssetHolder.claim D env args w
  | .transferAllAssets channelId outcome stateHash, w => do
    nonPayable env
    NitroAdjudicator.transferAllAssets D env channelId outcome stateHash w
  | .concludeAndTransferAllAssets fixedPart signedVariableParts, w => do
    nonPayable env
    NitroAdjudicator.concludeAndTransferAllAssets D env fixedPart signedVariableParts w
  | .challenge fixedPart signedVariableParts challengerSig, w => do
    nonPayable env
    ForceMove.challenge D env fixedPart signedVariableParts challengerSig w
  | .checkpoint fixedPart signedVariableParts, w => do
    nonPayable env
    ForceMove.checkpoint D env fixedPart signedVariableParts w
  | .conclude fixedPart signedVariableParts, w => do
    nonPayable env
    ForceMove.conclude D env fixedPart signedVariableParts w

/-- a call and what it meets -/
abbrev Tx := Env × Call

def step (w : World) (tx : Tx) : World := attempt (tx.2.exec D tx.1) w

end calls

end NitroAdjudicator

/-! ## a sample deployment -/

namespace Sample

def deployment : Deployment where
  crypto := Crypto.plain
  chainId := 1
  decodeExit := fun _ => .error "abi decoding"
  guarantee := 2

/-- a channel of the participants 1 and 2 under the consensus application -/
def fixedPart : FixedPart where
  chainId := 1
  participants := [1, 2]
  channelNonce := 7
  appDefinition := 77
  challengeDuration := 60

def channelId : Bytes32 := (getChannelId deployment fixedPart).toOption.getD 0

/-- the key of a participant is its address -/
def sign (digest : Bytes32) (participant : Nat) : Signature :=
  ⟨27, Crypto.plain.keccak256
    (asciiBytes "\x19Ethereum Signed Message:\n32" ++ Abi.wordBytes digest),
    BitVec.ofNat 256 participant⟩

/-- a state that both participants signed -/
def signed (p : VariablePart) : SignedVariablePart :=
  let h := hashState deployment channelId p.appData p.outcome p.turnNum p.isFinal
  ⟨p, [sign h 1, sign h 2], 3⟩

/-- a call with the given ether at the given time; everybody accepts payments -/
def env (value timestamp : Word) : Env where
  sender := 1
  value := value
  timestamp := timestamp
  app := fun _ => ConsensusApp.latestSupportedState deployment
  transferFrom := fun _ _ => .ok true
  pays := fun _ _ => true
  refunds := fun _ => true

end Sample

end Nitro.Contracts
