import Nitro.Lib.Triple
import Nitro.Protocols.Interfaces

/-!
# Defunding a virtual channel

The package `virtualdefund`.  The final outcome moves `PaidToBob` from Alice's allocation to Bob's; all
three sign the final state, and then the guarantee for the channel is removed from every ledger with
Alice's final amount going to its left party.

* `newObjective`, `constructObjectiveFromState`   building an objective;
* `Objective.finalOutcome`, `finalState`          the agreed end of the channel;
* `Objective.ledgerProposal`                      the proposal that removes the guarantee;
* `update`, `crank`                               the methods.
-/

set_option linter.unusedSectionVars false

namespace Nitro
open Go FinMap

namespace VirtualDefund

def objectivePrefix : String := "VirtualDefund-"

def finalTurnNum : UInt64 := 2

structure Objective where
  status : ObjectiveStatus
  initialOutcome : SingleAssetExit
  paidToBob : BigInt
  vFixed : FixedPart
  /-- Alice's, the intermediary's and Bob's -/
  signatures : Signature × Signature × Signature
  toMyLeft : Option ConsensusChannel
  toMyRight : Option ConsensusChannel
  myRole : Nat
  deriving DecidableEq

structure ObjectiveRequest where
  channelId : Destination
  paidToBob : BigInt
  deriving DecidableEq

/-! ## building an objective -/

section building
variable (cr : Crypto)

/-- the ledgers to the left and to the right of the client -/
def findLedgers (alice intermediary bob myAddress : Address)
    (getConsensusChannel : Address → Option ConsensusChannel) :
    Res (Option ConsensusChannel × Option ConsensusChannel) :=
  let missing (p q : Address) : Res (Option ConsensusChannel × Option ConsensusChannel) :=
    .error (.err (.fmt "could not find a ledger channel between %v and %v" [p.toNat, q.toNat]))
  if myAddress = alice then
    match getConsensusChannel intermediary with
    | none => missing alice intermediary
    | some right => .ok (none, some right)
  else if myAddress = intermediary then
    match getConsensusChannel alice with
    | none => missing alice intermediary
    | some left =>
      match getConsensusChannel bob with
      | none => missing intermediary bob
      | some right => .ok (some left, some right)
  else if myAddress = bob then
    match getConsensusChannel intermediary with
    | none => missing intermediary bob
    | some left => .ok (some left, none)
  else .error (.err (.new "client address not found in an expected participant index"))

def newObjective (request : ObjectiveRequest) (preApprove : Bool) (myAddress : Address)
    (getChannel : Destination → Option Channel)
    (getConsensusChannel : Address → Option ConsensusChannel) : Res Objective :=
  match getChannel request.channelId with
  | none => .error (.err (.new ("could not find channel " ++ destinationString request.channelId)))
  | some V => do
    let initialOutcome ← index V.postFundState.outcome 0
    let alice ← index V.fixedPart.participants 0
    let intermediary ← index V.fixedPart.participants 1
    let bob ← index V.fixedPart.participants 2
    let (toMyLeft, toMyRight) ←
      findLedgers alice intermediary bob myAddress getConsensusChannel
    .ok { status := if preApprove then .approved else .unapproved
          initialOutcome := initialOutcome
          paidToBob := request.paidToBob
          vFixed := V.fixedPart
          signatures := (default, default, default)
          myRole := V.myIndex
          toMyLeft := toMyLeft
          toMyRight := toMyRight }

/-- where there is no channel, the prefund state that is read first is the one of an empty channel -/
def calculatePaidToBob (proposedFinalState : State) (getChannel : Destination → Option Channel) :
    Res Int := do
  failIf (proposedFinalState.isFinal = false) (.new "expected final state")
  let cId ← proposedFinalState.channelId cr
  match getChannel cId with
  | none => .error (.err (.new ("could not find channel " ++ destinationString cId)))
  | some c => do
    let initial ← index c.preFundState.outcome 0
    let initialBob ← index initial.allocations 1
    let final ← index proposedFinalState.outcome 0
    let finalBob ← index final.allocations 1
    let finalBobAmount ← finalBob.amount.deref
    let initialBobAmount ← initialBob.amount.deref
    .ok (finalBobAmount - initialBobAmount)

def constructObjectiveFromState (initialState : State) (preapprove : Bool) (myAddress : Address)
    (getChannel : Destination → Option Channel)
    (getTwoPartyConsensusLedger : Address → Option ConsensusChannel) : Res Objective := do
  initialState.fixedPart.validate cr
  let channelId ← initialState.channelId cr
  let paidToBob ← calculatePaidToBob cr initialState getChannel
  newObjective ⟨channelId, some paidToBob⟩ preapprove myAddress getChannel
    getTwoPartyConsensusLedger

end building

/-! ## the end of the channel -/

namespace Objective
variable (cr : Crypto)

def vId (o : Objective) : Res Destination := o.vFixed.channelId cr

def finalOutcome (o : Objective) : Res SingleAssetExit := do
  let final ← o.initialOutcome.clone
  match final.allocations with
  | alice :: bob :: rest => do
    let aliceAmount ← alice.amount.deref
    let paidToBob ← o.paidToBob.deref
    let bobAmount ← bob.amount.deref
    .ok { final with allocations :=
      { alice with amount := some (aliceAmount - paidToBob) } ::
      { bob with amount := some (bobAmount + paidToBob) } :: rest }
  | _ => .error (.panic "index out of range")

def finalState (o : Objective) : Res State := do
  let final ← o.finalOutcome
  .ok (stateFromFixedAndVariablePart o.vFixed
    { appData := [], outcome := [final], turnNum := finalTurnNum, isFinal := true })

def ledgerProposal (o : Objective) (ledger : ConsensusChannel) : Res Proposal := do
  let final ← o.finalOutcome
  let left ← index final.allocations 0
  let vId ← o.vId cr
  .ok (newRemoveProposal ledger.id vId left.amount)

/-! ## methods -/

def id (o : Objective) : Res ObjectiveId := do
  let vId ← o.vId cr
  .ok (objectivePrefix ++ destinationString vId)

def isAlice (o : Objective) : Bool := decide (o.myRole = 0)
def isBob (o : Objective) : Bool := decide (o.myRole = 2)

def ledger (o : Objective) : Side → Option ConsensusChannel
  | .left => o.toMyLeft
  | .right => o.toMyRight

def setLedger (o : Objective) (side : Side) (ledger : ConsensusChannel) : Objective :=
  match side with
  | .left => { o with toMyLeft := some ledger }
  | .right => { o with toMyRight := some ledger }

/-- `Signatures[i]` -/
def signature (o : Objective) (i : Nat) : Res Signature :=
  index [o.signatures.1, o.signatures.2.1, o.signatures.2.2] i

/-- `Signatures[i] = sig` -/
def setSignature (o : Objective) (i : Nat) (sig : Signature) : Res Objective :=
  match i with
  | 0 => .ok { o with signatures := (sig, o.signatures.2.1, o.signatures.2.2) }
  | 1 => .ok { o with signatures := (o.signatures.1, sig, o.signatures.2.2) }
  | 2 => .ok { o with signatures := (o.signatures.1, o.signatures.2.1, sig) }
  | _ => .error (.panic "index out of range")

/-- `isZero` -/
def isZero (sig : Signature) : Bool := sig.equal default

/-- the ledgers are not copied: the copy has the same pointers -/
def clone (o : Objective) : Res Objective := do
  let vFixed ← o.vFixed.clone
  let initialOutcome ← o.initialOutcome.clone
  let paidToBob ← o.paidToBob.deref
  .ok { o with
    vFixed := vFixed
    initialOutcome := initialOutcome
    paidToBob := some paidToBob
    signatures := (o.signatures.1.clone, o.signatures.2.1.clone, o.signatures.2.2.clone) }

def approve (o : Objective) : Res Objective := do
  let updated ← o.clone
  .ok { updated with status := .approved }

def reject (o : Objective) : Res Objective := do
  let updated ← o.clone
  .ok { updated with status := .rejected }

/-- the loop of `signedFinalState` -/
def addSignatures : List Signature → SignedState → Res SignedState
  | [], signed => .ok signed
  | sig :: sigs, signed =>
    if isZero sig then addSignatures sigs signed
    else do
      let signed ← signed.addSignature cr sig
      addSignatures sigs signed

def signedFinalState (o : Objective) : Res SignedState := do
  let final ← o.finalState
  addSignatures cr [o.signatures.1, o.signatures.2.1, o.signatures.2.2] (newSignedState final)

def fullySigned (o : Objective) : Bool :=
  [o.signatures.1, o.signatures.2.1, o.signatures.2.2].all fun sig => !isZero sig

def signedByMe (o : Objective) : Res Bool := do
  let sig ← o.signature o.myRole
  .ok (!isZero sig)

/-- `isLeftDefunded`, `isRightDefunded` -/
def isDefunded (o : Objective) (side : Side) : Res Bool :=
  match o.ledger side with
  | none => .ok true
  | some ledger => do
    let vId ← o.vId cr
    .ok (!ledger.includesTarget vId)

/-! ## updating -/

/-- `validateSignature`: it returns `true` or an error -/
def validateSignature (o : Objective) (sig : Signature) (participantIndex : Nat) : Res Unit := do
  failIf (2 < participantIndex) (.fmt "participant index %d is out of bounds" [participantIndex])
  let finalState ← o.finalState
  let signer ← (finalState.recoverSigner cr sig).wrap
    "failed to recover signer from signature: "
  let participant ← index o.vFixed.participants participantIndex
  failIf (signer ≠ participant) (.fmt "signature is for %s, expected signature from %s "
    [signer.toNat, participant.toNat])

/-- the loop of `Update` over the signatures; those that are there already are read from `o` -/
def receiveSignatures (o : Objective) (incoming : List Signature) :
    List Nat → Objective → Res Objective
  | [], updated => .ok updated
  | i :: is, updated => do
    let existingSig ← o.signature i
    let incomingSig ← index incoming i
    if isZero incomingSig then receiveSignatures o incoming is updated
    else if isZero existingSig = false then
      if existingSig.equal incomingSig then receiveSignatures o incoming is updated
      else .error (.err (.fmt "incoming signature %+v does not match existing %+v" []))
    else do
      (updated.validateSignature cr incomingSig i).wrap "failed to validate signature: "
      let updated ← updated.setSignature i incomingSig
      receiveSignatures o incoming is updated

def updateSignatures (o updated : Objective) (ss : SignedState) : Res Objective :=
  if ss.signatures.length = 0 then .ok updated
  else do
    let incomingChannelId ← ss.state.channelId cr
    let vChannelId ← updated.vFixed.channelId cr
    failIf (incomingChannelId ≠ vChannelId) (.new "event channelId out of scope of objective")
    o.receiveSignatures cr ss.signatures [0, 1, 2] updated

/-- the id of a ledger, or the zero value -/
def ledgerId (o : Objective) (side : Side) : Destination :=
  match o.ledger side with
  | none => 0
  | some ledger => ledger.id

/-- a proposal goes to a ledger; one with another turn number is ignored -/
def receiveProposal (updated : Objective) (side : Side) (sp : SignedProposal) : Res Objective :=
  match updated.ledger side with
  | none => .error (.panic "nil pointer dereference")
  | some ledger =>
    match ConsensusChannel.receive cr sp ledger with
    | .ok _ ledger => .ok (updated.setLedger side ledger)
    | .error (.err e) ledger =>
      if e.is errInvalidTurnNum then .ok (updated.setLedger side ledger)
      else .error (.err (.wrap "error incorporating signed proposal %+v into objective: " e))
    | .error (.panic r) _ => .error (.panic r)

def updateLedger (o updated : Objective) (sp : SignedProposal) : Res Objective := do
  let vId ← o.vId cr
  if sp.proposal.target ≠ vId then .ok updated
  else if sp.proposal.ledgerID = 0 then
    .error (.err (.new "signed proposal is for a zero-addressed ledger channel"))
  else if sp.proposal.ledgerID = o.ledgerId .left then updated.receiveProposal cr .left sp
  else if sp.proposal.ledgerID = o.ledgerId .right then updated.receiveProposal cr .right sp
  else .error (.err (.fmt "signed proposal is not addressed to a known ledger connection %+v" []))

def update (o : Objective) (event : ObjectiveEvent) : Res Objective := do
  let id ← o.id cr
  failIf (id ≠ event.objectiveId)
    (.new ("event and objective Ids do not match: " ++ event.objectiveId ++ " and " ++ id ++
      " respectively"))
  let updated ← o.clone
  let updated ← o.updateSignatures cr updated event.signedState
  o.updateLedger cr updated event.signedProposal

/-! ## cranking -/

inductive WaitingFor where
  | completeFinal
  | completeLedgerDefunding
  | nothing
  deriving DecidableEq

structure Work where
  updated : Objective
  sideEffects : SideEffects
  uses : List (KeyUse Objective)

namespace Work

def setLedger (side : Side) (ledger : ConsensusChannel) (k : Work) : Work :=
  { k with updated := k.updated.setLedger side ledger }

def send (messages : List Message) (k : Work) : Work :=
  { k with sideEffects := k.sideEffects.send messages }

def merge (se : SideEffects) (k : Work) : Work :=
  { k with sideEffects := k.sideEffects.merge se }

def use (signed : Signed) (k : Work) : Work := { k with uses := k.uses ++ [⟨k.updated, signed⟩] }

end Work

/-- signing of the final state -/
def signFinal (o : Objective) (sk : Bytes) : Meth Work Unit := do
  let k ← get
  let signed ← liftM k.updated.signedByMe
  if signed then pure ()
  else do
    let final ← liftM o.finalState
    modify (Work.use (.state final))
    let sig ← liftM ((final.sign cr sk).wrap "could not sign final state: ")
    let updated ← liftM (k.updated.setSignature k.updated.myRole sig)
    modify fun k => { k with updated := updated }
    let signedFinal ← liftM ((updated.signedFinalState cr).wrap
      "could not generate signed final state: ")
    let id ← liftM (updated.id cr)
    modify (Work.send (createSignedStateMessages id signedFinal updated.myRole))

/-- the part of `updateLedgerToRemoveGuarantee` for the leader of a ledger -/
def proposeRemoval (sk : Bytes) (side : Side) (ledger : ConsensusChannel) :
    Meth Work SideEffects := do
  let k ← get
  let proposal ← liftM (k.updated.ledgerProposal cr ledger)
  match ConsensusChannel.propose cr proposal sk ledger with
  | .error (.err e) _ => throw (.err (.wrap "error proposing ledger update: " e))
  | .error (.panic r) _ => throw (.panic r)
  | .ok signed next => do
    modify (Work.use (.proposal ledger signed))
    modify (Work.setLedger side next)
    let recipient ← liftM next.follower
    pure (SideEffects.empty.send [createSignedProposalMessage recipient next.proposalQueue])

/-- and the part for the follower -/
def acceptRemoval (sk : Bytes) (side : Side) (ledger : ConsensusChannel) :
    Meth Work SideEffects := do
  let k ← get
  let proposal ← liftM (k.updated.ledgerProposal cr ledger)
  match ConsensusChannel.signNextProposal cr proposal sk ledger with
  | .error (.err e) _ => throw (.err (.wrap "could not sign proposal: " e))
  | .error (.panic r) _ => throw (.panic r)
  | .ok sp next => do
    modify (Work.use (.proposal ledger sp))
    modify (Work.setLedger side next)
    let sideEffects := match next.proposalQueue with
      | [] => SideEffects.empty
      | first :: _ => SideEffects.empty.process first.proposal
    let recipient ← liftM next.leader
    pure (sideEffects.send [createSignedProposalMessage recipient [sp]])

def updateLedgerToRemoveGuarantee (sk : Bytes) (side : Side) (ledger : ConsensusChannel) :
    Meth Work SideEffects := do
  let k ← get
  let vId ← liftM (k.updated.vId cr)
  if ledger.isLeader then
    if ledger.hasRemovalBeenProposed vId then pure .empty
    else proposeRemoval cr sk side ledger
  else if ledger.hasRemovalBeenProposedNext vId then acceptRemoval cr sk side ledger
  else pure .empty

/-- the defunding step for one ledger; Alice has none to the left, and Bob none to the right -/
def defund (sk : Bytes) (side : Side) (missing : Bool) : Meth Work Unit :=
  if missing then pure ()
  else do
    let k ← get
    let defunded ← liftM (k.updated.isDefunded cr side)
    if defunded then pure ()
    else
      match k.updated.ledger side with
      | none => throw (.panic "nil pointer dereference")
      | some ledger => do
        let sideEffects ← (updateLedgerToRemoveGuarantee cr sk side ledger).wrap
          "error updating ledger funding: "
        modify (Work.merge sideEffects)

/-- the right ledger is looked at only if the left one is defunded -/
def fullyDefunded (o : Objective) : Res Bool := do
  if ← o.isDefunded cr .left then o.isDefunded cr .right else .ok false

/-- the part of `Crank` after signing -/
def progress (sk : Bytes) : Meth Work WaitingFor := do
  let k ← get
  if k.updated.fullySigned = false then pure .completeFinal
  else do
    defund cr sk .left k.updated.isAlice
    defund cr sk .right k.updated.isBob
    let k ← get
    let defunded ← liftM (k.updated.fullyDefunded cr)
    if defunded = false then pure .completeLedgerDefunding
    else do
      modify fun k => { k with updated.status := .completed }
      pure .nothing

structure Cranked where
  updated : Objective
  sideEffects : SideEffects
  waitingFor : WaitingFor
  err : Option Error
  deriving DecidableEq

/-- an error in signing gives back the copy, and an error about a ledger the objective as it was, but
with the ledgers as they are now -/
def crank (o : Objective) (sk : Bytes) : Res Cranked := do
  let updated ← o.clone
  if updated.status ≠ .approved then .ok ⟨updated, .empty, .nothing, some errNotApproved⟩
  else
    match o.signFinal cr sk ⟨updated, .empty, []⟩ with
    | .error (.err e) k => .ok ⟨k.updated, .empty, .nothing, some e⟩
    | .error (.panic r) _ => .error (.panic r)
    | .ok _ k =>
      match progress cr sk k with
      | .ok waitingFor k => .ok ⟨k.updated, k.sideEffects, waitingFor, none⟩
      | .error (.err e) k =>
        .ok ⟨{ o with toMyLeft := k.updated.toMyLeft, toMyRight := k.updated.toMyRight },
          .empty, .nothing, some e⟩
      | .error (.panic r) _ => .error (.panic r)

/-- the uses of the key during `Crank`, also when it stops early -/
def crankUses (o : Objective) (sk : Bytes) : List (KeyUse Objective) :=
  match o.clone with
  | .error _ => []
  | .ok updated =>
    if updated.status ≠ .approved then []
    else
      match o.signFinal cr sk ⟨updated, .empty, []⟩ with
      | .error _ k => k.uses
      | .ok _ k => ((progress cr sk).after k).uses

/-! ## calls -/

inductive Call where
  | approve
  | reject
  | update (event : ObjectiveEvent)
  | crank (sk : Bytes)

/-- the objective that the call returns, alone or next to an error; the old one after a panic -/
def Call.step (o : Objective) : Call → Objective
  | .approve => o.approve.toOption.getD o
  | .reject => o.reject.toOption.getD o
  | .update event => (o.update cr event).toOption.getD o
  | .crank sk => ((o.crank cr sk).map Cranked.updated).toOption.getD o

/-- the uses of the key during the call -/
def Call.uses (o : Objective) : Call → List (KeyUse Objective)
  | .crank sk => o.crankUses cr sk
  | _ => []

end Objective
end VirtualDefund

end Nitro
