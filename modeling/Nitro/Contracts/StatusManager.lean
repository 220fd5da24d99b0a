import Nitro.Contracts.NitroUtils

/-!
# The storage of the contracts and the status of a channel

`World` is what the adjudicator leaves behind: its storage, the events it emitted and the payments it made.
`Env` is what one call meets: the transaction, the block, and the answers of other contracts.  The
contract `StatusManager` packs a turn number, a time and a fingerprint into one word per channel.

* `generateStatus`, `unpackStatus`   packing and unpacking (`unpack_generateStatus`);
* `mode`                             open, challenged or finalized, by the time in the status.
-/

set_option linter.unusedSectionVars false

namespace Nitro.Contracts
open Evm

/-! ## the state of the contracts -/

inductive Event where
  | deposited (destination : Bytes32) (asset : Address) (amountDeposited destinationHoldings : Word)
  | allocationUpdated (channelId : Bytes32) (assetIndex initialHoldings : Word)
  | challengeRegistered (channelId : Bytes32) (turnNumRecord finalizesAt : BitVec 48)
      (isFinal : Bool) (fixedPart : FixedPart) (signedVariableParts : List SignedVariablePart)
  | challengeCleared (channelId : Bytes32) (newTurnNumRecord : BitVec 48)
  | concluded (channelId : Bytes32) (finalizesAt : BitVec 48)
  deriving DecidableEq

structure Payment where
  asset : Address
  destination : Address
  amount : Word
  deriving DecidableEq

structure World where
  statusOf : Bytes32 → Bytes32
  holdings : Address → Bytes32 → Word
  events : List Event
  payments : List Payment

def World.empty : World := ⟨fun _ => 0, fun _ _ => 0, [], []⟩

/-- one call; other contracts answer as they like -/
structure Env where
  sender : Address
  value : Word
  timestamp : Word
  /-- `latestSupportedState` of the application at an address -/
  app : Address → FixedPart → List SignedVariablePart → Except String VariablePart
  /-- `transferFrom` of a token, called for an amount from the sender -/
  transferFrom : Address → Word → Except String Bool
  /-- whether a payment goes through, after the payments made before it -/
  pays : List Payment → Payment → Bool
  /-- whether the sender accepts a refund -/
  refunds : Word → Bool

/-! ## the status word -/

inductive ChannelMode where
  | open
  | challenge
  | finalized
  deriving DecidableEq

structure ChannelData where
  turnNumRecord : BitVec 48
  finalizesAt : BitVec 48
  stateHash : Bytes32
  outcomeHash : Bytes32
  deriving DecidableEq

section status
variable (D : Deployment)

def generateFingerprint (stateHash outcomeHash : Bytes32) : BitVec 160 :=
  (D.crypto.keccak256 (Abi.encode [.word stateHash, .word outcomeHash])).setWidth 160

def generateStatus (data : ChannelData) : Bytes32 :=
  data.turnNumRecord.setWidth 256 <<< 208 ||| data.finalizesAt.setWidth 256 <<< 160 |||
    (generateFingerprint D data.stateHash data.outcomeHash).setWidth 256

end status

structure UnpackedStatus where
  turnNumRecord : BitVec 48
  finalizesAt : BitVec 48
  fingerprint : BitVec 160
  deriving DecidableEq

def unpackStatus (status : Bytes32) : UnpackedStatus where
  turnNumRecord := (status >>> 208).setWidth 48
  finalizesAt := (status >>> 160).setWidth 48
  fingerprint := status.setWidth 160

def mode (status : Bytes32) (timestamp : Word) : ChannelMode :=
  if (unpackStatus status).finalizesAt = 0 then .open
  else if (unpackStatus status).finalizesAt.setWidth 256 ≤ timestamp then .finalized
  else .challenge

theorem getLsbD_packed (turn time : BitVec 48) (fingerprint : BitVec 160) {j : Nat} (hj : j < 256) :
    (turn.setWidth 256 <<< 208 ||| time.setWidth 256 <<< 160 |||
      fingerprint.setWidth 256).getLsbD j =
      if j < 160 then fingerprint.getLsbD j
      else if j < 208 then time.getLsbD (j - 160) else turn.getLsbD (j - 208) := by
  simp only [BitVec.getLsbD_or, BitVec.getLsbD_shiftLeft, BitVec.getLsbD_setWidth, hj]
  rcases Nat.lt_or_ge j 160 with h | h
  · have h208 : j < 208 := by omega
    simp [h, h208]
  · rw [BitVec.getLsbD_of_ge fingerprint j h]
    rcases Nat.lt_or_ge j 208 with h' | h'
    · have hlt : j - 160 < 256 := by omega
      simp [h', Nat.not_lt.2 h, hlt]
    · have hlt : j - 208 < 256 := by omega
      rw [BitVec.getLsbD_of_ge time (j - 160) (by omega)]
      simp [Nat.not_lt.2 h, Nat.not_lt.2 h', hlt]

/-- **packing loses nothing** but the high bits of the fingerprint hash -/
theorem unpack_generateStatus (D : Deployment) (data : ChannelData) :
    unpackStatus (generateStatus D data) = ⟨data.turnNumRecord, data.finalizesAt,
      generateFingerprint D data.stateHash data.outcomeHash⟩ := by
  unfold unpackStatus generateStatus
  congr 1
  · apply BitVec.eq_of_getLsbD_eq
    intro i hi
    have h160 : ¬ 208 + i < 160 := by omega
    have h208 : ¬ 208 + i < 208 := by omega
    rw [BitVec.getLsbD_setWidth, BitVec.getLsbD_ushiftRight, getLsbD_packed _ _ _ (by omega),
      if_neg h160, if_neg h208, Nat.add_sub_cancel_left]
    simp [hi]
  · apply BitVec.eq_of_getLsbD_eq
    intro i hi
    have h160 : ¬ 160 + i < 160 := by omega
    have h208 : 160 + i < 208 := by omega
    rw [BitVec.getLsbD_setWidth, BitVec.getLsbD_ushiftRight, getLsbD_packed _ _ _ (by omega),
      if_neg h160, if_pos h208, Nat.add_sub_cancel_left]
    simp [hi]
  · apply BitVec.eq_of_getLsbD_eq
    intro i hi
    rw [BitVec.getLsbD_setWidth, getLsbD_packed _ _ _ (by omega), if_pos hi]
    simp [hi]

end Nitro.Contracts
