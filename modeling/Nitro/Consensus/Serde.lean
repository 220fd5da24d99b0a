import Nitro.Lib.Json
import Nitro.Consensus.Channel

/-!
# JSON form of a consensus channel

The `MarshalJSON` and `UnmarshalJSON` methods of the package: each struct is written under the names
of its exported twin, and embedded structs are moved to named fields.  A codec carries the proof that
a value survives the round trip; the last one is `ConsensusChannel.json`.
-/

namespace Nitro
open Go FinMap Wire

abbrev addressJson : Codec Address := Codec.word 160
abbrev destinationJson : Codec Destination := Codec.word 256

/-- `jsonGuarantee`, for a wire amount -/
def Guarantee.json : Codec (Guarantee BigInt) where
  enc g := .obj [("Amount", Codec.bigInt.enc g.amount), ("Target", destinationJson.enc g.target),
    ("Left", destinationJson.enc g.left), ("Right", destinationJson.enc g.right)]
  dec j := do
    let amount ← Codec.bigInt.dec (← j.field "Amount")
    let target ← destinationJson.dec (← j.field "Target")
    let left ← destinationJson.dec (← j.field "Left")
    let right ← destinationJson.dec (← j.field "Right")
    .ok ⟨amount, target, left, right⟩
  round g := by simp

/-- the guarantees of an outcome have amounts -/
def Guarantee.jsonInt : Codec (Guarantee Int) where
  enc g := Guarantee.json.enc g.wire
  dec j := do
    let g ← Guarantee.json.dec j
    g.deref
  round g := by simp [Guarantee.deref_wire]

/-- `jsonAdd` -/
def Add.json : Codec Add where
  enc a := .obj [("Guarantee", Guarantee.json.enc a.guarantee),
    ("LeftDeposit", Codec.bigInt.enc a.leftDeposit)]
  dec j := do
    let guarantee ← Guarantee.json.dec (← j.field "Guarantee")
    let leftDeposit ← Codec.bigInt.dec (← j.field "LeftDeposit")
    .ok ⟨guarantee, leftDeposit⟩
  round a := by simp

/-- `jsonRemove` -/
def Remove.json : Codec Remove where
  enc r := .obj [("Target", destinationJson.enc r.target),
    ("LeftAmount", Codec.bigInt.enc r.leftAmount)]
  dec j := do
    let target ← destinationJson.dec (← j.field "Target")
    let leftAmount ← Codec.bigInt.dec (← j.field "LeftAmount")
    .ok ⟨target, leftAmount⟩
  round r := by simp

/-- `jsonProposal` -/
def Proposal.json : Codec Proposal where
  enc p := .obj [("LedgerID", destinationJson.enc p.ledgerID), ("ToAdd", Add.json.enc p.toAdd),
    ("ToRemove", Remove.json.enc p.toRemove)]
  dec j := do
    let ledgerID ← destinationJson.dec (← j.field "LedgerID")
    let toAdd ← Add.json.dec (← j.field "ToAdd")
    let toRemove ← Remove.json.dec (← j.field "ToRemove")
    .ok ⟨ledgerID, toAdd, toRemove⟩
  round p := by simp

def Signature.json : Codec Signature where
  enc s := .obj [("R", Codec.bytes.enc s.R), ("S", Codec.bytes.enc s.S),
    ("V", Codec.uint8.enc s.V)]
  dec j := do
    let R ← Codec.bytes.dec (← j.field "R")
    let S ← Codec.bytes.dec (← j.field "S")
    let V ← Codec.uint8.dec (← j.field "V")
    .ok ⟨R, S, V⟩
  round s := by simp

/-- the fields of the embedded signature are promoted -/
def SignedProposal.json : Codec SignedProposal where
  enc p := .obj [("R", Codec.bytes.enc p.signature.R), ("S", Codec.bytes.enc p.signature.S),
    ("V", Codec.uint8.enc p.signature.V), ("Proposal", Proposal.json.enc p.proposal),
    ("TurnNum", Codec.uint64.enc p.turnNum)]
  dec j := do
    let signature ← Signature.json.dec j
    let proposal ← Proposal.json.dec (← j.field "Proposal")
    let turnNum ← Codec.uint64.dec (← j.field "TurnNum")
    .ok ⟨signature, proposal, turnNum⟩
  round p := by simp [Signature.json]

/-- `jsonBalance` -/
def Balance.json : Codec Balance where
  enc b := .obj [("Destination", destinationJson.enc b.destination),
    ("Amount", Codec.int.enc b.amount)]
  dec j := do
    let destination ← destinationJson.dec (← j.field "Destination")
    let amount ← Codec.int.dec (← j.field "Amount")
    .ok ⟨destination, amount⟩
  round b := by simp

/-- `jsonLedgerOutcome` -/
def LedgerOutcome.json : Codec LedgerOutcome where
  enc o := .obj [("AssetAddress", addressJson.enc o.assetAddress),
    ("Leader", Balance.json.enc o.leader), ("Follower", Balance.json.enc o.follower),
    ("Guarantees", (Codec.map Guarantee.jsonInt).enc o.guarantees)]
  dec j := do
    let assetAddress ← addressJson.dec (← j.field "AssetAddress")
    let leader ← Balance.json.dec (← j.field "Leader")
    let follower ← Balance.json.dec (← j.field "Follower")
    let guarantees ← (Codec.map Guarantee.jsonInt).dec (← j.field "Guarantees")
    .ok ⟨assetAddress, leader, follower, guarantees⟩
  round o := by simp

/-- the fields of the embedded `Vars` are promoted; an array of another length than two leaves zero
values or drops elements -/
def SignedVars.json : Codec SignedVars where
  enc v := .obj [("TurnNum", Codec.uint64.enc v.vars.turnNum),
    ("Outcome", LedgerOutcome.json.enc v.vars.outcome),
    ("Signatures", (Codec.list Signature.json).enc [v.signatures.1, v.signatures.2])]
  dec j := do
    let turnNum ← Codec.uint64.dec (← j.field "TurnNum")
    let outcome ← LedgerOutcome.json.dec (← j.field "Outcome")
    let signatures ← (Codec.list Signature.json).dec (← j.field "Signatures")
    .ok ⟨⟨turnNum, outcome⟩, (signatures.getD 0 default, signatures.getD 1 default)⟩
  round v := by simp

def FixedPart.json : Codec FixedPart where
  enc f := .obj [("ChainId", Codec.bigInt.enc f.chainId),
    ("Participants", (Codec.list addressJson).enc f.participants),
    ("ChannelNonce", Codec.bigInt.enc f.channelNonce),
    ("AppDefinition", addressJson.enc f.appDefinition),
    ("ChallengeDuration", Codec.bigInt.enc f.challengeDuration)]
  dec j := do
    let chainId ← Codec.bigInt.dec (← j.field "ChainId")
    let participants ← (Codec.list addressJson).dec (← j.field "Participants")
    let channelNonce ← Codec.bigInt.dec (← j.field "ChannelNonce")
    let appDefinition ← addressJson.dec (← j.field "AppDefinition")
    let challengeDuration ← Codec.bigInt.dec (← j.field "ChallengeDuration")
    .ok ⟨chainId, participants, channelNonce, appDefinition, challengeDuration⟩
  round f := by simp

abbrev fundsJson : Codec Funds := Codec.map Codec.int

/-- `jsonConsensusChannel` -/
def ConsensusChannel.json : Codec ConsensusChannel where
  enc c := .obj [("Id", destinationJson.enc c.id),
    ("OnChainFunding", fundsJson.enc c.onChainFunding), ("MyIndex", Codec.uint.enc c.myIndex),
    ("FP", FixedPart.json.enc c.fp), ("Current", SignedVars.json.enc c.current),
    ("ProposalQueue", (Codec.list SignedProposal.json).enc c.proposalQueue)]
  dec j := do
    let id ← destinationJson.dec (← j.field "Id")
    let onChainFunding ← fundsJson.dec (← j.field "OnChainFunding")
    let myIndex ← Codec.uint.dec (← j.field "MyIndex")
    let fp ← FixedPart.json.dec (← j.field "FP")
    let current ← SignedVars.json.dec (← j.field "Current")
    let proposalQueue ← (Codec.list SignedProposal.json).dec (← j.field "ProposalQueue")
    .ok ⟨myIndex, fp, id, onChainFunding, current, proposalQueue⟩
  round c := by simp

end Nitro
