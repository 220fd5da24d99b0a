import Nitro.Contracts.ForceMove

/-!
# Deposits, transfers and claims

The contract `MultiAssetHolder`: funds held against channels, paid out by the outcomes of finalized channels.

* `deposit`      credits a channel;
* `transfer`     pays allocations of one asset of an outcome;
* `claim`        pays the allocations of a target channel out of a guarantee of a source channel;
* `computeTransferEffectsAndInteractions`, `computeClaimEffectsAndInteractions`   who gets what;
* `executeSingleAssetExit`   payments to addresses, and credits to channels.
-/

set_option linter.unusedSectionVars false

namespace Nitro.Contracts
open Evm

/-- `holdings[asset][channelId] = amount` -/
def World.setHoldings (w : World) (asset : Address) (channelId : Bytes32) (amount : Word) : World :=
  { w with
    holdings := Function.update w.holdings asset
      (Function.update (w.holdings asset) channelId amount) }

namespace MultiAssetHolder

def minWord (a b : Word) : Word := if b < a then b else a

/-- the twelve leading bytes are zero -/
def isExternalDestination (destination : Bytes32) : Bool :=
  decide ((destination >>> 160).setWidth 96 = 0)

def bytes32ToAddress (destination : Bytes32) : Address := destination.setWidth 160

/-! ## requirements -/

section requirements
variable (D : Deployment) (env : Env) (w : World)

def requireMatchingFingerprint (stateHash outcomeHash channelId : Bytes32) : Except String Unit :=
  require ((unpackStatus (w.statusOf channelId)).fingerprint =
    generateFingerprint D stateHash outcomeHash) "incorrect fingerprint"

def requireChannelFinalized (channelId : Bytes32) : Except String Unit :=
  require (w.modeOf env channelId = .finalized) "Channel not finalized."

def updateFingerprint (channelId stateHash outcomeHash : Bytes32) : World :=
  let status := unpackStatus (w.statusOf channelId)
  w.setStatus channelId
    (generateStatus D ⟨status.turnNumRecord, status.finalizesAt, stateHash, outcomeHash⟩)

def requireIncreasingIndices : List Word → Except String Unit
  | a :: b :: rest => do
    require (a < b) "Indices must be sorted"
    requireIncreasingIndices (b :: rest)
  | _ => .ok ()

end requirements

/-! ## deposits -/

section deposit
variable (env : Env)

/-- the tokens must have arrived before the holdings change -/
def collect (asset : Address) (amount amountDeposited : Word) : Except String Unit :=
  if asset = 0 then require (env.value = amount) "Incorrect msg.value for deposit"
  else do
    let success ← env.transferFrom asset amountDeposited
    require (success = true) "Could not deposit ERC20s"

/-- whatever was not deposited goes back -/
def refundExcess (asset : Address) (amount amountDeposited : Word) : Except String Unit :=
  if asset = 0 then do
    let refund ← safeSub amount amountDeposited
    require (env.refunds refund = true) "Could not refund excess funds"
  else .ok ()

def deposit (asset : Address) (channelId : Bytes32) (expectedHeld amount : Word) (w : World) :
    Except String World := do
  require (isExternalDestination channelId = false) "Deposit to external destination"
  let held := w.holdings asset channelId
  require (expectedHeld ≤ held) "holdings < expectedHeld"
  let target ← safeAdd expectedHeld amount
  require (held < target) "holdings already sufficient"
  let amountDeposited ← safeSub target held
  collect env asset amount amountDeposited
  let nowHeld ← safeAdd held amountDeposited
  refundExcess env asset amount amountDeposited
  .ok ((w.setHoldings asset channelId nowHeld).emit
    (.deposited channelId asset amountDeposited nowHeld))

theorem deposit_ok {env : Env} {asset : Address} {channelId : Bytes32} {expectedHeld amount : Word}
    {w w' : World} (h : deposit env asset channelId expectedHeld amount w = .ok w') :
    ∃ amountDeposited, w' = (w.setHoldings asset channelId
      (w.holdings asset channelId + amountDeposited)).emit (.deposited channelId asset
        amountDeposited (w.holdings asset channelId + amountDeposited)) := by
  obtain ⟨-, h⟩ := require_bind_eq_ok.1 h
  obtain ⟨-, h⟩ := require_bind_eq_ok.1 h
  obtain ⟨target, -, h⟩ := bind_eq_ok.1 h
  obtain ⟨-, h⟩ := require_bind_eq_ok.1 h
  obtain ⟨amountDeposited, -, h⟩ := bind_eq_ok.1 h
  obtain ⟨_, -, h⟩ := bind_eq_ok.1 h
  obtain ⟨nowHeld, hheld, h⟩ := bind_eq_ok.1 h
  obtain ⟨_, -, hend⟩ := bind_eq_ok.1 h
  cases hend
  rw [safeAdd_ok hheld]
  exact ⟨amountDeposited, rfl⟩

end deposit

/-! ## payments -/

section payments
variable (env : Env)

/-- a payment in ether must succeed, and a token transfer must not revert -/
def transferAsset (asset destination : Address) (amount : Word) (w : World) :
    Except String World := do
  let payment : Payment := ⟨asset, destination, amount⟩
  require (env.pays w.payments payment = true)
    (if asset = 0 then "Could not transfer ETH" else "transfer reverted")
  .ok { w with payments := w.payments ++ [payment] }

/-- the loop of `_executeSingleAssetExit` -/
def payAllocations (asset : Address) : List Allocation → World → Except String World
  | [], w => .ok w
  | a :: as, w =>
    if isExternalDestination a.destination then do
      let w' ← transferAsset env asset (bytes32ToAddress a.destination) a.amount w
      payAllocations asset as w'
    else
      payAllocations asset as
        (w.setHoldings asset a.destination (w.holdings asset a.destination + a.amount))

theorem transferAsset_ok {env : Env} {asset destination : Address} {amount : Word} {w w' : World}
    (h : transferAsset env asset destination amount w = .ok w') :
    w' = { w with payments := w.payments ++ [⟨asset, destination, amount⟩] } := by
  obtain ⟨-, hend⟩ := require_bind_eq_ok.1 h
  cases hend
  rfl

theorem payAllocations_statusOf {env : Env} {asset : Address} {l : List Allocation} {w w' : World}
    (h : payAllocations env asset l w = .ok w') : w'.statusOf = w.statusOf := by
  induction l generalizing w with
  | nil =>
    cases h
    rfl
  | cons b l ih =>
    unfold payAllocations at h
    split at h
    · obtain ⟨u, hpay, h⟩ := bind_eq_ok.1 h
      rw [ih h, transferAsset_ok hpay]
    · rw [ih h]
      rfl

def executeSingleAssetExit (singleAssetExit : SingleAssetExit) (w : World) : Except String World :=
  payAllocations env singleAssetExit.asset singleAssetExit.allocations w

end payments

/-! ## transfers -/

/-- the variables of the loop over the allocations -/
structure TransferState where
  newAllocations : List Allocation
  allocatesOnlyZeros : Bool
  exitAllocations : List Allocation
  totalPayouts : Word
  surplus : Word
  k : Nat
  deriving DecidableEq

/-- no indices means all of them -/
def isSelected (indices : List Word) (k i : Nat) : Bool :=
  decide (indices = [] ∨ indices[k]? = some (BitVec.ofNat 256 i))

section transfer
variable (D : Deployment) (env : Env)

/-- the type that is checked is that of the allocation at `k`, the position in the indices -/
def transferStep (allocations : List Allocation) (indices : List Word) (i : Nat) (a : Allocation)
    (s : TransferState) : Except String TransferState :=
  let affordsForDestination := minWord a.amount s.surplus
  if isSelected indices s.k i then do
    let atK ← index allocations s.k
    require (atK.allocationType ≠ D.guarantee) "cannot transfer a guarantee"
    .ok { newAllocations :=
            s.newAllocations ++ [{ a with amount := a.amount - affordsForDestination }]
          allocatesOnlyZeros :=
            s.allocatesOnlyZeros && decide (a.amount - affordsForDestination = 0)
          exitAllocations := s.exitAllocations.set s.k { a with amount := affordsForDestination }
          totalPayouts := s.totalPayouts + affordsForDestination
          surplus := s.surplus - affordsForDestination
          k := s.k + 1 }
  else
    .ok { s with
          newAllocations := s.newAllocations ++ [a]
          allocatesOnlyZeros := s.allocatesOnlyZeros && decide (a.amount = 0)
          surplus := s.surplus - affordsForDestination }

def transferLoop (allocations : List Allocation) (indices : List Word) :
    Nat → List Allocation → TransferState → Except String TransferState
  | _, [], s => .ok s
  | i, a :: rest, s => do
    let s' ← transferStep D allocations indices i a s
    transferLoop allocations indices (i + 1) rest s'

def computeTransferEffectsAndInteractions (initialHoldings : Word) (allocations : List Allocation)
    (indices : List Word) : Except String TransferState :=
  transferLoop D allocations indices 0 allocations
    { newAllocations := []
      allocatesOnlyZeros := true
      exitAllocations :=
        List.replicate (if 0 < indices.length then indices.length else allocations.length) default
      totalPayouts := 0
      surplus := initialHoldings
      k := 0 }

def applyTransferChecks (assetIndex : Word) (indices : List Word) (channelId stateHash : Bytes32)
    (outcomeBytes : Bytes) (w : World) : Except String (Exit × SingleAssetExit) := do
  requireIncreasingIndices indices
  requireChannelFinalized env w channelId
  requireMatchingFingerprint D w stateHash (D.crypto.keccak256 outcomeBytes) channelId
  let outcome ← D.decodeExit outcomeBytes
  let assetOutcome ← index outcome assetIndex.toNat
  .ok (outcome, assetOutcome)

def applyTransferEffects (assetIndex : Word) (asset : Address) (channelId stateHash : Bytes32)
    (newOutcome : Exit) (initialHoldings totalPayouts : Word) (w : World) : World :=
  (updateFingerprint D
    (w.setHoldings asset channelId (w.holdings asset channelId - totalPayouts))
    channelId stateHash (D.crypto.keccak256 (encodeExit newOutcome))).emit
      (.allocationUpdated channelId assetIndex initialHoldings)

def transfer (assetIndex : Word) (fromChannelId : Bytes32) (outcomeBytes : Bytes)
    (stateHash : Bytes32) (indices : List Word) (w : World) : Except String World := do
  let (outcome, assetOutcome) ←
    applyTransferChecks D env assetIndex indices fromChannelId stateHash outcomeBytes w
  let initialAssetHoldings := w.holdings assetOutcome.asset fromChannelId
  let r ← computeTransferEffectsAndInteractions D initialAssetHoldings assetOutcome.allocations
    indices
  let newOutcome :=
    outcome.set assetIndex.toNat { assetOutcome with allocations := r.newAllocations }
  executeSingleAssetExit env { assetOutcome with allocations := r.exitAllocations }
    (applyTransferEffects D assetIndex assetOutcome.asset fromChannelId stateHash newOutcome
      initialAssetHoldings r.totalPayouts w)

end transfer

/-! ## claims -/

structure ClaimArgs where
  sourceChannelId : Bytes32
  sourceStateHash : Bytes32
  sourceOutcomeBytes : Bytes
  sourceAssetIndex : Word
  indexOfTargetInSource : Word
  targetStateHash : Bytes32
  targetOutcomeBytes : Bytes
  targetAssetIndex : Word
  targetAllocationIndicesToPayout : List Word
  deriving DecidableEq

def decodeGuaranteeData (data : Bytes) : Except String (List Bytes32) := Abi.decodeWords data

/-- the variables of the loop over the guaranteed destinations -/
structure ClaimState where
  newSourceAllocations : List Allocation
  newTargetAllocations : List Allocation
  exitAllocations : List Allocation
  totalPayouts : Word
  targetSurplus : Word
  k : Nat
  deriving DecidableEq

/-- what is left for the target after the allocations before it -/
def sourceSurplus : List Allocation → Nat → Word → Except String Word
  | _, 0, surplus => .ok surplus
  | [], _ + 1, surplus => if surplus = 0 then .ok surplus else .error "invalid opcode"
  | a :: as, n + 1, surplus =>
    if surplus = 0 then .ok surplus else sourceSurplus as n (surplus - minWord a.amount surplus)

section claim
variable (indexOfTargetInSource : Nat) (indices : List Word)

/-- the surplus shrinks whether or not the index was asked for -/
def claimPay (i : Nat) (a : Allocation) (s : ClaimState) : ClaimState :=
  let affordsForDestination := minWord a.amount s.targetSurplus
  let debit (b : Allocation) : Allocation := { b with amount := b.amount - affordsForDestination }
  if isSelected indices s.k i then
    { newSourceAllocations := s.newSourceAllocations.modify indexOfTargetInSource debit
      newTargetAllocations := s.newTargetAllocations.modify i debit
      exitAllocations :=
        s.exitAllocations.modify i fun b => { b with amount := affordsForDestination }
      totalPayouts := s.totalPayouts + affordsForDestination
      targetSurplus := s.targetSurplus - affordsForDestination
      k := s.k + 1 }
  else { s with targetSurplus := s.targetSurplus - affordsForDestination }

/-- the first allocation of the target to the destination -/
def claimSearch (destination : Bytes32) : Nat → List Allocation → ClaimState → ClaimState
  | _, [], s => s
  | i, a :: as, s =>
    if s.targetSurplus = 0 then s
    else if destination = a.destination then claimPay indexOfTargetInSource indices i a s
    else claimSearch destination (i + 1) as s

def claimLoop (targetAllocations : List Allocation) : List Bytes32 → ClaimState → ClaimState
  | [], s => s
  | destination :: destinations, s =>
    if s.targetSurplus = 0 then s
    else claimLoop targetAllocations destinations
      (claimSearch indexOfTargetInSource indices destination 0 targetAllocations s)

end claim

def computeClaimEffectsAndInteractions (initialHoldings : Word)
    (sourceAllocations targetAllocations : List Allocation) (indexOfTargetInSource : Nat)
    (targetAllocationIndicesToPayout : List Word) : Except String ClaimState := do
  let surplus ← sourceSurplus sourceAllocations indexOfTargetInSource initialHoldings
  let guarantee ← index sourceAllocations indexOfTargetInSource
  let destinations ← decodeGuaranteeData guarantee.metadata
  .ok (claimLoop indexOfTargetInSource targetAllocationIndicesToPayout targetAllocations
    destinations
    { newSourceAllocations := sourceAllocations
      newTargetAllocations := targetAllocations
      exitAllocations := targetAllocations.map fun a => { a with amount := 0 }
      totalPayouts := 0
      targetSurplus := minWord surplus guarantee.amount
      k := 0 })

section claims
variable (D : Deployment) (env : Env)

/-- the allocation whose type is checked is the one at `targetAssetIndex` -/
def applyClaimChecks (args : ClaimArgs) (w : World) :
    Except String (Exit × SingleAssetExit × Exit × SingleAssetExit × Bytes32) := do
  requireIncreasingIndices args.targetAllocationIndicesToPayout
  requireChannelFinalized env w args.sourceChannelId
  requireMatchingFingerprint D w args.sourceStateHash (D.crypto.keccak256 args.sourceOutcomeBytes)
    args.sourceChannelId
  let sourceOutcome ← D.decodeExit args.sourceOutcomeBytes
  let targetOutcome ← D.decodeExit args.targetOutcomeBytes
  let source ← index sourceOutcome args.sourceAssetIndex.toNat
  let checked ← index source.allocations args.targetAssetIndex.toNat
  require (checked.allocationType = D.guarantee) "not a guarantee allocation"
  let guarantee ← index source.allocations args.indexOfTargetInSource.toNat
  let targetChannelId := guarantee.destination
  let target ← index targetOutcome args.targetAssetIndex.toNat
  require (target.asset = source.asset) "targetAsset != guaranteeAsset"
  requireChannelFinalized env w targetChannelId
  requireMatchingFingerprint D w args.targetStateHash (D.crypto.keccak256 args.targetOutcomeBytes)
    targetChannelId
  .ok (sourceOutcome, source, targetOutcome, target, targetChannelId)

def applyClaimEffects (args : ClaimArgs) (asset : Address) (newSourceOutcome : Exit)
    (targetChannelId : Bytes32) (newTargetOutcome : Exit) (initialHoldings totalPayouts : Word)
    (w : World) : World :=
  let debited := w.setHoldings asset args.sourceChannelId
    (w.holdings asset args.sourceChannelId - totalPayouts)
  let source := updateFingerprint D debited args.sourceChannelId args.sourceStateHash
    (D.crypto.keccak256 (encodeExit newSourceOutcome))
  let target := updateFingerprint D source targetChannelId args.targetStateHash
    (D.crypto.keccak256 (encodeExit newTargetOutcome))
  (target.emit (.allocationUpdated args.sourceChannelId args.sourceAssetIndex initialHoldings)).emit
    (.allocationUpdated targetChannelId args.targetAssetIndex initialHoldings)

def claim (args : ClaimArgs) (w : World) : Except String World := do
  let (sourceOutcome, source, targetOutcome, target, targetChannelId) ←
    applyClaimChecks D env args w
  let initialAssetHoldings := w.holdings source.asset args.sourceChannelId
  let r ← computeClaimEffectsAndInteractions initialAssetHoldings source.allocations
    target.allocations args.indexOfTargetInSource.toNat args.targetAllocationIndicesToPayout
  let newSourceOutcome := sourceOutcome.set args.sourceAssetIndex.toNat
    { source with allocations := r.newSourceAllocations }
  let newTargetOutcome := targetOutcome.set args.targetAssetIndex.toNat
    { target with allocations := r.newTargetAllocations }
  executeSingleAssetExit env { target with allocations := r.exitAllocations }
    (applyClaimEffects D args source.asset newSourceOutcome targetChannelId newTargetOutcome
      initialAssetHoldings r.totalPayouts w)

end claims

end MultiAssetHolder

end Nitro.Contracts
