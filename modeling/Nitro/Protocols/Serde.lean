import Nitro.ChannelSerde
import Nitro.Protocols.DirectFund
import Nitro.Protocols.DirectDefund
import Nitro.Protocols.VirtualFund
import Nitro.Protocols.VirtualDefund

/-!
# JSON forms of the objectives

The `serde.go` files of the four protocols.  An objective is written without the data of its channels:
for a `Channel` or a connection's ledger only the id is kept, and reading makes a blank channel with
that id, which the store fills in.  Only `virtualdefund` writes its ledgers in full.

* `Channel.blank`, `ConsensusChannel.blank`    zero values with an id;
* `marshalJSON`, `unmarshalJSON`               for each kind of objective;
* `unmarshalJSON_marshalJSON`                  **what is read back is the objective with blank
                                               channels**; a missing connection stays missing, and a
                                               missing ledger of `virtualdefund` becomes a blank one.
-/

set_option linter.unusedSectionVars false

namespace Nitro
open Go FinMap Wire

/-! ## zero values -/

/-- a `Channel` of which only the id is set -/
def Channel.blank (id : Destination) : Channel where
  id := id
  myIndex := 0
  onChainFunding := ∅
  fixedPart := State.zero.fixedPart
  signedStateForTurnNum := ∅
  latestSupportedStateTurnNum := 0

/-- a `ConsensusChannel` of which only the id is set; its balances are `nil`, and nothing reads them -/
def ConsensusChannel.blank (id : Destination) : ConsensusChannel where
  myIndex := 0
  fp := State.zero.fixedPart
  id := id
  onChainFunding := ∅
  current := ⟨⟨0, ⟨0, ⟨0, 0⟩, ⟨0, 0⟩, ∅⟩⟩, default, default⟩
  proposalQueue := []

/-- `ConsensusChannel.UnmarshalJSON`; `null` leaves every field at its zero value -/
def ConsensusChannel.unmarshalJSON (j : Json) : Res ConsensusChannel :=
  match j with
  | .null => .ok (ConsensusChannel.blank 0)
  | j => (ConsensusChannel.json.dec j).wrap "error unmarshaling channel data: "

theorem ConsensusChannel.unmarshalJSON_enc (c : ConsensusChannel) :
    ConsensusChannel.unmarshalJSON (ConsensusChannel.json.enc c) = .ok c := by
  show (ConsensusChannel.json.dec (ConsensusChannel.json.enc c)).wrap _ = .ok c
  rw [ConsensusChannel.json.round]
  rfl

/-- an `int8`; other values than the four are never written -/
def ObjectiveStatus.json : Codec ObjectiveStatus where
  enc s := match s with
    | .unapproved => .num 0
    | .approved => .num 1
    | .rejected => .num 2
    | .completed => .num 3
  dec j := match j with
    | .null => .ok .unapproved
    | .num 0 => .ok .unapproved
    | .num 1 => .ok .approved
    | .num 2 => .ok .rejected
    | .num 3 => .ok .completed
    | _ => .error Json.typeError
  round s := by cases s <;> rfl

/-! ## direct funding -/

namespace DirectFund.Objective

/-- `jsonObjective` -/
def marshalJSON (o : Objective) : Json :=
  .obj [("Status", ObjectiveStatus.json.enc o.status), ("C", destinationJson.enc o.c.id),
    ("MyDepositSafetyThreshold", fundsJson.enc o.myDepositSafetyThreshold),
    ("MyDepositTarget", fundsJson.enc o.myDepositTarget),
    ("FullyFundedThreshold", fundsJson.enc o.fullyFundedThreshold),
    ("LatestBlockNumber", Codec.uint64.enc o.latestBlockNumber),
    ("TransactionSumbmitted", Codec.bool.enc o.transactionSubmitted)]

/-- after `null`, which is never written, the channel pointer is `nil` -/
def unmarshalJSON (j : Json) : Res Objective :=
  match j with
  | .null => .error (.panic "nil pointer dereference")
  | j => do
    let status ← ObjectiveStatus.json.dec (← j.field "Status")
    let c ← destinationJson.dec (← j.field "C")
    let safety ← fundsJson.dec (← j.field "MyDepositSafetyThreshold")
    let target ← fundsJson.dec (← j.field "MyDepositTarget")
    let full ← fundsJson.dec (← j.field "FullyFundedThreshold")
    let block ← Codec.uint64.dec (← j.field "LatestBlockNumber")
    let submitted ← Codec.bool.dec (← j.field "TransactionSumbmitted")
    .ok { status := status, c := Channel.blank c, myDepositSafetyThreshold := safety,
          myDepositTarget := target, fullyFundedThreshold := full, latestBlockNumber := block,
          transactionSubmitted := submitted }

theorem unmarshalJSON_marshalJSON (o : Objective) :
    unmarshalJSON o.marshalJSON = .ok { o with c := Channel.blank o.c.id } := by
  simp [unmarshalJSON, marshalJSON]

end DirectFund.Objective

/-! ## direct defunding -/

namespace DirectDefund.Objective

/-- `jsonObjective` -/
def marshalJSON (o : Objective) : Json :=
  .obj [("Status", ObjectiveStatus.json.enc o.status), ("C", destinationJson.enc o.c.id),
    ("FinalTurnNum", Codec.uint64.enc o.finalTurnNum),
    ("TransactionSumbmitted", Codec.bool.enc o.transactionSubmitted)]

def unmarshalJSON (j : Json) : Res Objective :=
  match j with
  | .null => .error (.panic "nil pointer dereference")
  | j => do
    let status ← ObjectiveStatus.json.dec (← j.field "Status")
    let c ← destinationJson.dec (← j.field "C")
    let final ← Codec.uint64.dec (← j.field "FinalTurnNum")
    let submitted ← Codec.bool.dec (← j.field "TransactionSumbmitted")
    .ok { status := status, c := Channel.blank c, finalTurnNum := final,
          transactionSubmitted := submitted }

theorem unmarshalJSON_marshalJSON (o : Objective) :
    unmarshalJSON o.marshalJSON = .ok { o with c := Channel.blank o.c.id } := by
  simp [unmarshalJSON, marshalJSON]

end DirectDefund.Objective

/-! ## virtual funding -/

namespace VirtualFund

def GuaranteeInfo.json : Codec GuaranteeInfo where
  enc g := .obj [("Left", destinationJson.enc g.left), ("Right", destinationJson.enc g.right),
    ("LeftAmount", fundsJson.enc g.leftAmount), ("RightAmount", fundsJson.enc g.rightAmount),
    ("GuaranteeDestination", destinationJson.enc g.guaranteeDestination)]
  dec j := do
    let left ← destinationJson.dec (← j.field "Left")
    let right ← destinationJson.dec (← j.field "Right")
    let leftAmount ← fundsJson.dec (← j.field "LeftAmount")
    let rightAmount ← fundsJson.dec (← j.field "RightAmount")
    let destination ← destinationJson.dec (← j.field "GuaranteeDestination")
    .ok ⟨left, right, leftAmount, rightAmount, destination⟩
  round g := by simp

namespace Connection

/-- `jsonConnection`, and `null` for a `nil` pointer -/
def marshalJSON : Option Connection → Json
  | none => .null
  | some c => .obj [("Channel", destinationJson.enc c.channel.id),
      ("GuaranteeInfo", GuaranteeInfo.json.enc c.guaranteeInfo)]

/-- the pointer is never `nil`: `null` is read as a connection to a channel with the zero id -/
def unmarshalJSON (j : Json) : Res Connection :=
  match j with
  | .null => .ok ⟨ConsensusChannel.blank 0, ⟨0, 0, ∅, ∅, 0⟩⟩
  | j => do
    let channel ← destinationJson.dec (← j.field "Channel")
    let info ← GuaranteeInfo.json.dec (← j.field "GuaranteeInfo")
    .ok ⟨ConsensusChannel.blank channel, info⟩

/-- a connection to a channel with the zero id is taken for none -/
def unlessZero (c : Connection) : Option Connection := if c.channel.id = 0 then none else some c

/-- what is left of a connection after writing and reading -/
def skeleton (c : Option Connection) : Option Connection :=
  c.bind fun c => unlessZero { c with channel := ConsensusChannel.blank c.channel.id }

theorem unmarshalJSON_marshalJSON (c : Option Connection) :
    (unmarshalJSON (marshalJSON c) >>= fun d => .ok d.unlessZero) = (.ok (skeleton c) : Res _) := by
  cases c with
  | none => rfl
  | some c => simp [unmarshalJSON, marshalJSON, skeleton]

end Connection

namespace Objective

/-- `jsonObjective` -/
def marshalJSON (o : Objective) : Json :=
  .obj [("Status", ObjectiveStatus.json.enc o.status), ("V", destinationJson.enc o.v.id),
    ("ToMyLeft", Codec.text.enc (Connection.marshalJSON o.toMyLeft)),
    ("ToMyRight", Codec.text.enc (Connection.marshalJSON o.toMyRight)),
    ("N", Codec.uint.enc o.n), ("MyRole", Codec.uint.enc o.myRole),
    ("A0", fundsJson.enc o.a0), ("B0", fundsJson.enc o.b0)]

def unmarshalJSON (j : Json) : Res Objective :=
  match j with
  | .null => .error (.panic "nil pointer dereference")
  | j => do
    let (status, v, left, right, n, myRole, a0, b0) ←
      Res.wrap "failed to unmarshal the VirtualFundObjective: " do
        let status ← ObjectiveStatus.json.dec (← j.field "Status")
        let v ← destinationJson.dec (← j.field "V")
        let left ← Codec.text.dec (← j.field "ToMyLeft")
        let right ← Codec.text.dec (← j.field "ToMyRight")
        let n ← Codec.uint.dec (← j.field "N")
        let myRole ← Codec.uint.dec (← j.field "MyRole")
        let a0 ← fundsJson.dec (← j.field "A0")
        let b0 ← fundsJson.dec (← j.field "B0")
        .ok (status, v, left, right, n, myRole, a0, b0)
    let toMyLeft ← (Connection.unmarshalJSON left).wrap
      "failed to unmarshal left ledger channel: "
    let toMyRight ← (Connection.unmarshalJSON right).wrap
      "failed to unmarshal right ledger channel: "
    .ok { status := status, v := Channel.blank v, toMyLeft := toMyLeft.unlessZero,
          toMyRight := toMyRight.unlessZero, n := n, myRole := myRole, a0 := a0, b0 := b0 }

theorem unmarshalJSON_marshalJSON (o : Objective) :
    unmarshalJSON o.marshalJSON = .ok { o with
      v := Channel.blank o.v.id
      toMyLeft := Connection.skeleton o.toMyLeft
      toMyRight := Connection.skeleton o.toMyRight } := by
  obtain ⟨l, hl, hleft⟩ := Res.bind_eq_ok.1 (Connection.unmarshalJSON_marshalJSON o.toMyLeft)
  obtain ⟨r, hr, hright⟩ := Res.bind_eq_ok.1 (Connection.unmarshalJSON_marshalJSON o.toMyRight)
  rw [Except.ok.injEq] at hleft hright
  simp [unmarshalJSON, marshalJSON, hl, hr, Res.wrap, Res.onErr, hleft, hright]

end Objective
end VirtualFund

/-! ## virtual defunding -/

namespace VirtualDefund.Objective

/-- a ledger is written in full, and as `null` if there is none -/
def ledgerJSON : Option ConsensusChannel → Json
  | none => .null
  | some c => ConsensusChannel.json.enc c

/-- `jsonObjective` -/
def marshalJSON (o : Objective) : Json :=
  .obj [("Status", ObjectiveStatus.json.enc o.status), ("VFixed", FixedPart.json.enc o.vFixed),
    ("InitialOutcome", SingleAssetExit.json.enc o.initialOutcome),
    ("Signatures", (Codec.list Signature.json).enc
      [o.signatures.1, o.signatures.2.1, o.signatures.2.2]),
    ("PaidToBob", Codec.bigInt.enc o.paidToBob),
    ("ToMyLeft", Codec.text.enc (ledgerJSON o.toMyLeft)),
    ("ToMyRight", Codec.text.enc (ledgerJSON o.toMyRight)),
    ("MyRole", Codec.uint.enc o.myRole)]

/-- the pointers to the ledgers are never `nil` afterwards -/
def unmarshalJSON (j : Json) : Res Objective :=
  match j with
  | .null => .error (.panic "nil pointer dereference")
  | j => do
    let (status, vFixed, initialOutcome, signatures, paidToBob, left, right, myRole) ←
      Res.wrap "failed to unmarshal the VirtualDefundObjective: " do
        let status ← ObjectiveStatus.json.dec (← j.field "Status")
        let vFixed ← FixedPart.json.dec (← j.field "VFixed")
        let initialOutcome ← SingleAssetExit.json.dec (← j.field "InitialOutcome")
        let signatures ← (Codec.list Signature.json).dec (← j.field "Signatures")
        let paidToBob ← Codec.bigInt.dec (← j.field "PaidToBob")
        let left ← Codec.text.dec (← j.field "ToMyLeft")
        let right ← Codec.text.dec (← j.field "ToMyRight")
        let myRole ← Codec.uint.dec (← j.field "MyRole")
        .ok (status, vFixed, initialOutcome, signatures, paidToBob, left, right, myRole)
    let toMyLeft ← (ConsensusChannel.unmarshalJSON left).wrap
      "failed to unmarshal left ledger channel: "
    let toMyRight ← (ConsensusChannel.unmarshalJSON right).wrap
      "failed to unmarshal right ledger channel: "
    .ok { status := status, initialOutcome := initialOutcome, paidToBob := paidToBob,
          vFixed := vFixed,
          signatures := (signatures.getD 0 default, signatures.getD 1 default,
            signatures.getD 2 default),
          toMyLeft := some toMyLeft, toMyRight := some toMyRight, myRole := myRole }

theorem unmarshalJSON_ledgerJSON (c : Option ConsensusChannel) :
    ConsensusChannel.unmarshalJSON (ledgerJSON c) = .ok (c.getD (ConsensusChannel.blank 0)) := by
  cases c with
  | none => rfl
  | some c => exact ConsensusChannel.unmarshalJSON_enc c

theorem unmarshalJSON_marshalJSON (o : Objective) :
    unmarshalJSON o.marshalJSON = .ok { o with
      toMyLeft := some (o.toMyLeft.getD (ConsensusChannel.blank 0))
      toMyRight := some (o.toMyRight.getD (ConsensusChannel.blank 0)) } := by
  simp [unmarshalJSON, marshalJSON, unmarshalJSON_ledgerJSON, Res.wrap, Res.onErr]

end VirtualDefund.Objective

end Nitro
