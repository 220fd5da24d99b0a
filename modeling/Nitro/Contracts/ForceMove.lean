import Nitro.Contracts.StatusManager

/-!
# Challenges, checkpoints and conclusions

The contract `ForceMove`.  Its functions take a support proof, which the application of the channel judges, and
write the status of the channel.

* `challenge`    starts, or restarts, the clock of a channel;
* `checkpoint`   clears a challenge by a state with a higher turn number;
* `conclude`     finalizes a channel at once;
* `challenge_ok`, `checkpoint_ok`, `concludeInternal_ok`   what each of them does when it succeeds.
-/

set_option linter.unusedSectionVars false

namespace Nitro.Contracts
open Evm

/-- the mode of a channel at the time of a call -/
def World.modeOf (w : World) (env : Env) (channelId : Bytes32) : ChannelMode :=
  mode (w.statusOf channelId) env.timestamp

def World.setStatus (w : World) (channelId : Bytes32) (status : Bytes32) : World :=
  { w with statusOf := Function.update w.statusOf channelId status }

def World.emit (w : World) (e : Event) : World := { w with events := w.events ++ [e] }

def lastVariablePart (signedVariableParts : List SignedVariablePart) : Except String VariablePart := do
  let last ← index signedVariableParts (signedVariableParts.length - 1)
  .ok last.variablePart

namespace ForceMove

/-! ## requirements -/

section requirements
variable (D : Deployment) (env : Env) (w : World)

def isAddressInArray (suspect : Address) (addresses : List Address) : Bool :=
  addresses.any fun a => decide (suspect = a)

def requireChallengerIsParticipant (supportedStateHash : Bytes32) (participants : List Address)
    (challengerSignature : Signature) : Except String Unit := do
  let challenger ← recoverSigner D
    (D.crypto.keccak256 (Abi.encode [.word supportedStateHash, .bytes (asciiBytes "forceMove")]))
    challengerSignature
  require (isAddressInArray challenger participants = true) "Challenger is not a participant"

def requireVariablePartIsLast (variablePart : VariablePart)
    (signedVariableParts : List SignedVariablePart) : Except String Unit := do
  let last ← lastVariablePart signedVariableParts
  require (bytesEqual (Abi.encode [last.toVal]) (Abi.encode [variablePart.toVal]) = true)
    "variablePart not the last."

/-- the application answers with the latest state that the proof supports -/
def requireStateSupportedBy (fixedPart : FixedPart) (signedVariableParts : List SignedVariablePart)
    (channelId : Bytes32) : Except String Bytes32 := do
  let latest ← env.app fixedPart.appDefinition fixedPart signedVariableParts
  requireVariablePartIsLast latest signedVariableParts
  .ok (hashState D channelId latest.appData latest.outcome latest.turnNum latest.isFinal)

def requireIncreasedTurnNumber (channelId : Bytes32) (newTurnNumRecord : BitVec 48) :
    Except String Unit :=
  require ((unpackStatus (w.statusOf channelId)).turnNumRecord < newTurnNumRecord)
    "turnNumRecord not increased."

def requireNonDecreasedTurnNumber (channelId : Bytes32) (newTurnNumRecord : BitVec 48) :
    Except String Unit :=
  require ((unpackStatus (w.statusOf channelId)).turnNumRecord ≤ newTurnNumRecord)
    "turnNumRecord decreased."

def requireChannelNotFinalized (channelId : Bytes32) : Except String Unit :=
  require (w.modeOf env channelId ≠ .finalized) "Channel finalized."

/-- what a challenge needs in each mode -/
def requireChallengeable (channelId : Bytes32) (largestTurnNum : BitVec 48) : Except String Unit :=
  match w.modeOf env channelId with
  | .open => requireNonDecreasedTurnNumber w channelId largestTurnNum
  | .challenge => requireIncreasedTurnNumber w channelId largestTurnNum
  | .finalized => requireChannelNotFinalized env w channelId

end requirements

/-! ## the functions -/

section functions
variable (D : Deployment) (env : Env) (fixedPart : FixedPart)
variable (signedVariableParts : List SignedVariablePart)

/-- the time could overflow, as a comment in the source says -/
def finalizesAt : BitVec 48 := env.timestamp.setWidth 48 + fixedPart.challengeDuration

def challenge (challengerSig : Signature) (w : World) : Except String World := do
  let channelId ← getChannelId D fixedPart
  let last ← lastVariablePart signedVariableParts
  requireChallengeable env w channelId last.turnNum
  let supportedStateHash ←
    requireStateSupportedBy D env fixedPart signedVariableParts channelId
  requireChallengerIsParticipant D supportedStateHash fixedPart.participants challengerSig
  .ok ((w.emit (.challengeRegistered channelId last.turnNum (finalizesAt env fixedPart) last.isFinal
    fixedPart signedVariableParts)).setStatus channelId (generateStatus D
      ⟨last.turnNum, finalizesAt env fixedPart, supportedStateHash, hashOutcome D last.outcome⟩))

def clearChallenge (channelId : Bytes32) (newTurnNumRecord : BitVec 48) (w : World) : World :=
  (w.setStatus channelId (generateStatus D ⟨newTurnNumRecord, 0, 0, 0⟩)).emit
    (.challengeCleared channelId newTurnNumRecord)

def checkpoint (w : World) : Except String World := do
  let channelId ← getChannelId D fixedPart
  let last ← lastVariablePart signedVariableParts
  requireChannelNotFinalized env w channelId
  requireIncreasedTurnNumber w channelId last.turnNum
  let _ ← requireStateSupportedBy D env fixedPart signedVariableParts channelId
  .ok (clearChallenge D channelId last.turnNum w)

/-- `_conclude`, which also returns the channel id -/
def concludeInternal (w : World) : Except String (Bytes32 × World) := do
  let channelId ← getChannelId D fixedPart
  requireChannelNotFinalized env w channelId
  let _ ← requireStateSupportedBy D env fixedPart signedVariableParts channelId
  let last ← lastVariablePart signedVariableParts
  .ok (channelId, (w.setStatus channelId (generateStatus D
    ⟨0, env.timestamp.setWidth 48, 0, hashOutcome D last.outcome⟩)).emit
      (.concluded channelId (env.timestamp.setWidth 48)))

def conclude (w : World) : Except String World := do
  let (_, w') ← concludeInternal D env fixedPart signedVariableParts w
  .ok w'

end functions

/-! ## what they do -/

section results
variable {D : Deployment} {env : Env} {fixedPart : FixedPart} {parts : List SignedVariablePart}
variable {w w' : World}

theorem challenge_ok {sig : Signature} (h : challenge D env fixedPart parts sig w = .ok w') :
    ∃ channelId last stateHash, getChannelId D fixedPart = .ok channelId ∧
      lastVariablePart parts = .ok last ∧
      requireChallengeable env w channelId last.turnNum = .ok () ∧
      requireStateSupportedBy D env fixedPart parts channelId = .ok stateHash ∧
      w' = (w.emit (.challengeRegistered channelId last.turnNum (finalizesAt env fixedPart)
        last.isFinal fixedPart parts)).setStatus channelId (generateStatus D
          ⟨last.turnNum, finalizesAt env fixedPart, stateHash, hashOutcome D last.outcome⟩) := by
  obtain ⟨channelId, hid, h⟩ := bind_eq_ok.1 h
  obtain ⟨last, hlast, h⟩ := bind_eq_ok.1 h
  obtain ⟨⟨⟩, hmode, h⟩ := bind_eq_ok.1 h
  obtain ⟨stateHash, hstate, h⟩ := bind_eq_ok.1 h
  obtain ⟨-, -, hend⟩ := bind_eq_ok.1 h
  cases hend
  exact ⟨channelId, last, stateHash, hid, hlast, hmode, hstate, rfl⟩

theorem checkpoint_ok (h : checkpoint D env fixedPart parts w = .ok w') :
    ∃ channelId last, getChannelId D fixedPart = .ok channelId ∧
      lastVariablePart parts = .ok last ∧ w.modeOf env channelId ≠ .finalized ∧
      (unpackStatus (w.statusOf channelId)).turnNumRecord < last.turnNum ∧
      w' = clearChallenge D channelId last.turnNum w := by
  obtain ⟨channelId, hid, h⟩ := bind_eq_ok.1 h
  obtain ⟨last, hlast, h⟩ := bind_eq_ok.1 h
  obtain ⟨hmode, h⟩ := require_bind_eq_ok.1 h
  obtain ⟨hturn, h⟩ := require_bind_eq_ok.1 h
  obtain ⟨_, -, hend⟩ := bind_eq_ok.1 h
  cases hend
  exact ⟨channelId, last, hid, hlast, hmode, hturn, rfl⟩

theorem concludeInternal_ok {channelId : Bytes32}
    (h : concludeInternal D env fixedPart parts w = .ok (channelId, w')) :
    getChannelId D fixedPart = .ok channelId ∧ w.modeOf env channelId ≠ .finalized ∧
      ∃ last, lastVariablePart parts = .ok last ∧
      w' = (w.setStatus channelId (generateStatus D
        ⟨0, env.timestamp.setWidth 48, 0, hashOutcome D last.outcome⟩)).emit
          (.concluded channelId (env.timestamp.setWidth 48)) := by
  obtain ⟨id, hid, h⟩ := bind_eq_ok.1 h
  obtain ⟨hmode, h⟩ := require_bind_eq_ok.1 h
  obtain ⟨_, -, h⟩ := bind_eq_ok.1 h
  obtain ⟨last, hlast, hend⟩ := bind_eq_ok.1 h
  cases hend
  exact ⟨hid, hmode, last, hlast, rfl⟩

theorem conclude_ok (h : conclude D env fixedPart parts w = .ok w') :
    ∃ channelId, concludeInternal D env fixedPart parts w = .ok (channelId, w') := by
  obtain ⟨⟨channelId, w''⟩, hc, hend⟩ := bind_eq_ok.1 h
  cases hend
  exact ⟨channelId, hc⟩

end results

end ForceMove

end Nitro.Contracts
