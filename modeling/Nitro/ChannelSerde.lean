import Nitro.Channel
import Nitro.Consensus.Serde

/-!
# JSON form of a channel

The states of a channel have no methods of their own for JSON: a struct is written under the names of
its fields.  `SignedState` and `Channel` write exported twins; the fields of the embedded fixed part
are promoted.  Every codec carries the proof that a value survives the round trip; the last one is
`Channel.json`.
-/

namespace Nitro
open Go FinMap Wire

def Allocation.json : Codec Allocation where
  enc a := .obj [("Destination", destinationJson.enc a.destination),
    ("Amount", Codec.bigInt.enc a.amount), ("AllocationType", Codec.uint8.enc a.allocationType),
    ("Metadata", Codec.bytes.enc a.metadata)]
  dec j := do
    let destination ← destinationJson.dec (← j.field "Destination")
    let amount ← Codec.bigInt.dec (← j.field "Amount")
    let allocationType ← Codec.uint8.dec (← j.field "AllocationType")
    let metadata ← Codec.bytes.dec (← j.field "Metadata")
    .ok ⟨destination, amount, allocationType, metadata⟩
  round a := by simp

def SingleAssetExit.json : Codec SingleAssetExit where
  enc e := .obj [("Asset", addressJson.enc e.asset), ("Metadata", Codec.bytes.enc e.metadata),
    ("Allocations", (Codec.list Allocation.json).enc e.allocations)]
  dec j := do
    let asset ← addressJson.dec (← j.field "Asset")
    let metadata ← Codec.bytes.dec (← j.field "Metadata")
    let allocations ← (Codec.list Allocation.json).dec (← j.field "Allocations")
    .ok ⟨asset, metadata, allocations⟩
  round e := by simp

def State.json : Codec State where
  enc s := .obj [("ChainId", Codec.bigInt.enc s.chainId),
    ("Participants", (Codec.list addressJson).enc s.participants),
    ("ChannelNonce", Codec.bigInt.enc s.channelNonce),
    ("AppDefinition", addressJson.enc s.appDefinition),
    ("ChallengeDuration", Codec.bigInt.enc s.challengeDuration),
    ("AppData", Codec.bytes.enc s.appData),
    ("Outcome", (Codec.list SingleAssetExit.json).enc s.outcome),
    ("TurnNum", Codec.uint64.enc s.turnNum), ("IsFinal", Codec.bool.enc s.isFinal)]
  dec j := do
    let fp ← FixedPart.json.dec j
    let appData ← Codec.bytes.dec (← j.field "AppData")
    let outcome ← (Codec.list SingleAssetExit.json).dec (← j.field "Outcome")
    let turnNum ← Codec.uint64.dec (← j.field "TurnNum")
    let isFinal ← Codec.bool.dec (← j.field "IsFinal")
    .ok (stateFromFixedAndVariablePart fp ⟨appData, outcome, turnNum, isFinal⟩)
  round s := by simp [FixedPart.json, stateFromFixedAndVariablePart]

def SignedState.json : Codec SignedState where
  enc ss := .obj [("State", State.json.enc ss.state),
    ("Sigs", (Codec.alist Signature.json).enc ss.sigs)]
  dec j := do
    let state ← State.json.dec (← j.field "State")
    let sigs ← (Codec.alist Signature.json).dec (← j.field "Sigs")
    .ok ⟨state, sigs⟩
  round ss := by simp

/-- `jsonChannel`; whatever goes wrong, the error is the same -/
def Channel.json : Codec Channel where
  enc c := .obj [("Id", destinationJson.enc c.id), ("MyIndex", Codec.uint.enc c.myIndex),
    ("OnChainFunding", fundsJson.enc c.onChainFunding),
    ("ChainId", Codec.bigInt.enc c.fixedPart.chainId),
    ("Participants", (Codec.list addressJson).enc c.fixedPart.participants),
    ("ChannelNonce", Codec.bigInt.enc c.fixedPart.channelNonce),
    ("AppDefinition", addressJson.enc c.fixedPart.appDefinition),
    ("ChallengeDuration", Codec.bigInt.enc c.fixedPart.challengeDuration),
    ("SignedStateForTurnNum",
      (Codec.mapUint64 SignedState.json).enc c.signedStateForTurnNum),
    ("LatestSupportedStateTurnNum", Codec.uint64.enc c.latestSupportedStateTurnNum)]
  dec j := Res.onErr (fun _ => .new "error unmarshaling channel data") do
    let id ← destinationJson.dec (← j.field "Id")
    let myIndex ← Codec.uint.dec (← j.field "MyIndex")
    let onChainFunding ← fundsJson.dec (← j.field "OnChainFunding")
    let fixedPart ← FixedPart.json.dec j
    let states ← (Codec.mapUint64 SignedState.json).dec (← j.field "SignedStateForTurnNum")
    let latest ← Codec.uint64.dec (← j.field "LatestSupportedStateTurnNum")
    .ok ⟨id, myIndex, onChainFunding, fixedPart, states, latest⟩
  round c := by simp [FixedPart.json, Res.onErr]

end Nitro
