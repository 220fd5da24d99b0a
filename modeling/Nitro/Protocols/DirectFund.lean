import Nitro.Consensus.Encoding
import Nitro.Protocols.Interfaces

/-!
# Funding a channel with deposits

The package `directfund`.  The participants sign the prefund state, deposit one after the other, and
sign the postfund state once the channel is fully funded.  A client deposits when the recorded
holdings have reached its safety threshold, the sum of what stands before it in the outcome.

* `constructFromState`, `newObjective`         building an objective;
* `update`, `updateWithChainEvent`, `crank`    its methods;
* `safeToDeposit`, `amountToDeposit`           when to deposit, and how much;
* `createConsensusChannel`                     the ledger that a funded channel becomes.
-/

set_option linter.unusedSectionVars false

namespace Nitro
open Go FinMap

namespace DirectFund

inductive WaitingFor where
  | completePrefund
  | myTurnToFund
  | completeFunding
  | completePostFund
  | nothing
  deriving DecidableEq

def objectivePrefix : String := "DirectFunding-"

structure Objective where
  status : ObjectiveStatus
  c : Channel
  myDepositSafetyThreshold : Funds
  myDepositTarget : Funds
  fullyFundedThreshold : Funds
  latestBlockNumber : UInt64
  transactionSubmitted : Bool
  deriving DecidableEq

/-! ## building an objective -/

section building
variable (cr : Crypto)

def constructFromState (preApprove : Bool) (initialState : State) (myAddress : Address) :
    Res Objective := do
  initialState.fixedPart.validate cr
  failIf (initialState.turnNum ≠ 0)
    (.new "cannot construct direct fund objective without prefund state")
  failIf (initialState.isFinal = true)
    (.new "attempted to initiate new direct-funding objective with IsFinal == true")
  match initialState.participants.findIdx? (fun v => decide (v = myAddress)) with
  | none => .error (.err (.new "my address not found in participants"))
  | some myIndex => do
    let c ← (Channel.new cr initialState myIndex).wrap
      "failed to initialize channel for direct-fund objective: "
    let myAllocatedAmount ←
      initialState.outcome.totalAllocatedFor (addressToDestination myAddress)
    let fullyFundedThreshold ← initialState.outcome.totalAllocated
    let myDepositSafetyThreshold ←
      initialState.outcome.depositSafetyThreshold (addressToDestination myAddress)
    .ok { status := if preApprove then .approved else .unapproved
          c := c
          myDepositSafetyThreshold := myDepositSafetyThreshold
          myDepositTarget := myDepositSafetyThreshold.add [myAllocatedAmount]
          fullyFundedThreshold := fullyFundedThreshold
          latestBlockNumber := 0
          transactionSubmitted := false }

structure ObjectiveRequest where
  counterParty : Address
  appDefinition : Address
  appData : Bytes
  challengeDuration : BigInt
  outcome : Exit
  nonce : Int
  deriving DecidableEq

/-- a directly funded channel with the counterparty, being funded or already a ledger -/
def channelsExistWithCounterparty (counterparty : Address)
    (getChannels : Address → List Channel)
    (getTwoPartyConsensusLedger : Address → Option ConsensusChannel) : Bool :=
  (getChannels counterparty).any (fun c => decide (c.fixedPart.participants.length = 2)) ||
    (getTwoPartyConsensusLedger counterparty).isSome

def newObjective (request : ObjectiveRequest) (preApprove : Bool) (myAddress : Address)
    (getChannels : Address → List Channel)
    (getTwoPartyConsensusLedger : Address → Option ConsensusChannel) : Res Objective := do
  let objective ← (constructFromState cr preApprove
    { chainId := some 1337
      participants := [myAddress, request.counterParty]
      channelNonce := some request.nonce
      appDefinition := request.appDefinition
      challengeDuration := request.challengeDuration
      appData := request.appData
      outcome := request.outcome
      turnNum := 0
      isFinal := false } myAddress).wrap "could not create new objective: "
  failIf (channelsExistWithCounterparty request.counterParty getChannels
      getTwoPartyConsensusLedger = true)
    (.fmt "a channel already exists with counterparty %s" [request.counterParty.toNat])
  .ok objective

end building

/-! ## methods -/

namespace Objective
section methods
variable (cr : Crypto)

def id (o : Objective) : ObjectiveId := objectivePrefix ++ destinationString o.c.id

def clone (o : Objective) : Res Objective := do
  let c ← o.c.clone cr
  .ok { o with
    c := c
    myDepositSafetyThreshold := o.myDepositSafetyThreshold.clone
    myDepositTarget := o.myDepositTarget.clone
    fullyFundedThreshold := o.fullyFundedThreshold.clone }

/-- the ledger of a funded channel, with the signatures on its postfund state -/
def createConsensusChannel (o : Objective) : Res ConsensusChannel := do
  let ledger := o.c
  failIf (ledger.postFundComplete = false)
    (.new ("expected funding for channel " ++ destinationString o.c.id ++ " to be complete"))
  let signedPostFund := ledger.signedPostFundState
  let leaderSig ← (signedPostFund.getParticipantSignature leaderIndex).wrap
    "could not get leader signature: "
  let followerSig ← (signedPostFund.getParticipantSignature followerIndex).wrap
    "could not get follower signature: "
  failIf (signedPostFund.state.outcome.length ≠ 1)
    (.new "a consensus channel only supports a single asset")
  let assetExit ← index signedPostFund.state.outcome 0
  let outcome ← (fromExit assetExit).wrap "could not create ledger outcome from channel exit: "
  if ledger.myIndex = leaderIndex then do
    let con ← (newConsensusChannelFrom cr ledger.fixedPart leaderIndex
      signedPostFund.state.turnNum outcome (leaderSig, followerSig)).wrap
        "could not create consensus channel as leader: "
    .ok { con with onChainFunding := ledger.onChainFunding.clone }
  else do
    let con ← (newConsensusChannelFrom cr ledger.fixedPart followerIndex
      signedPostFund.state.turnNum outcome (leaderSig, followerSig)).wrap
        "could not create consensus channel as follower: "
    .ok { con with onChainFunding := ledger.onChainFunding.clone }

def approve (o : Objective) : Res Objective := do
  let updated ← o.clone cr
  .ok { updated with status := .approved }

def reject (o : Objective) : Res Objective := do
  let updated ← o.clone cr
  .ok { updated with status := .rejected }

def update (o : Objective) (event : ObjectiveEvent) : Res Objective := do
  failIf (o.id ≠ event.objectiveId)
    (.new ("event and objective Ids do not match: " ++ event.objectiveId ++ " and " ++ o.id ++
      " respectively"))
  let updated ← o.clone cr
  let c ← (Channel.addSignedState cr event.signedState).exec updated.c
  .ok { updated with c := c }

/-- the copy is returned next to the error, whose text has the objective and the event in it -/
def updateWithChainEvent (o : Objective) (event : ChainEvent) :
    Res (Objective × Option Error) := do
  let updated ← o.clone cr
  match event with
  | .deposited _ blockNum asset _ nowHeld =>
    if updated.latestBlockNumber < blockNum then
      .ok ({ updated with
        c := { updated.c with onChainFunding := updated.c.onChainFunding.insert asset nowHeld }
        latestBlockNumber := blockNum }, none)
    else .ok (updated, none)
  | .allocationUpdated .. | .concluded .. =>
    .ok (updated, some (.fmt "objective %+v cannot handle event %+v" []))

def fundingComplete (o : Objective) : Bool :=
  all (fun asset => asset ∈ o.c.onChainFunding ∧
    o.fullyFundedThreshold.amount asset ≤ o.c.onChainFunding.amount asset) o.fullyFundedThreshold

/-- an asset that is missing from the holdings panics, unless one below its threshold is met first;
a channel has an entry for every asset of its outcome, so neither order is ever seen -/
def safeToDeposit (o : Objective) : Res Bool :=
  if any (fun asset => asset ∉ o.c.onChainFunding) o.myDepositSafetyThreshold then
    .error (.panic "nil chainHolding for asset in myDepositSafetyThreshold")
  else .ok (all (fun asset =>
    o.myDepositSafetyThreshold.amount asset ≤ o.c.onChainFunding.amount asset)
      o.myDepositSafetyThreshold)

def amountToDeposit (o : Objective) : Res Funds :=
  if any (fun asset => asset ∉ o.c.onChainFunding) o.myDepositTarget then
    .error (.panic "nil chainHolding for asset in myDepositTarget")
  else .ok (ofKeys o.myDepositTarget.keys fun asset =>
    o.myDepositTarget.amount asset - o.c.onChainFunding.amount asset)

structure Cranked where
  updated : Objective
  sideEffects : SideEffects
  waitingFor : WaitingFor
  err : Option Error
  deriving DecidableEq

/-- how `Crank` signs a setup state: unless our signature is there, the state is signed, added and
sent to the other participants -/
def signSetup (signedByMe : Bool) (sign : Meth Channel SignedState) (text : String)
    (updated : Objective) (sideEffects : SideEffects) :
    Res (Objective × Except Error SideEffects) :=
  if signedByMe then .ok (updated, .ok sideEffects)
  else
    match sign updated.c with
    | .error (.panic r) _ => .error (.panic r)
    | .error (.err e) c => .ok ({ updated with c := c }, .error (.wrap text e))
    | .ok ss c => .ok ({ updated with c := c }, .ok (sideEffects.send
        (createSignedStateMessages updated.id ss updated.c.myIndex)))

/-- the last part of `Crank`, for a channel that is fully funded -/
def crankPostfund (updated : Objective) (sideEffects : SideEffects) (sk : Bytes) :
    Res Cranked := do
  let (updated, signed) ← signSetup updated.c.postFundSignedByMe
    (Channel.signAndAddPostfund cr sk) "could not sign postfund " updated sideEffects
  match signed with
  | .error e => .ok ⟨updated, .empty, .completePostFund, some e⟩
  | .ok sideEffects =>
    if updated.c.postFundComplete = false then
      .ok ⟨updated, sideEffects, .completePostFund, none⟩
    else .ok ⟨{ updated with status := .completed }, sideEffects, .nothing, none⟩

/-- the middle part of `Crank`, for a channel whose prefund state everybody signed -/
def crankFunding (updated : Objective) (sideEffects : SideEffects) (sk : Bytes) :
    Res Cranked := do
  let fundingComplete := updated.fundingComplete
  let amountToDeposit ← updated.amountToDeposit
  let safeToDeposit ← updated.safeToDeposit
  if fundingComplete = false ∧ safeToDeposit = false then
    .ok ⟨updated, sideEffects, .myTurnToFund, none⟩
  else if fundingComplete = false then
    if amountToDeposit.isNonZero = true ∧ updated.transactionSubmitted = false then
      .ok ⟨{ updated with transactionSubmitted := true },
        sideEffects.submit (.deposit updated.c.id amountToDeposit), .completeFunding, none⟩
    else .ok ⟨updated, sideEffects, .completeFunding, none⟩
  else updated.crankPostfund cr sideEffects sk

def crank (o : Objective) (sk : Bytes) : Res Cranked := do
  let updated ← o.clone cr
  if updated.status ≠ .approved then .ok ⟨updated, .empty, .nothing, some errNotApproved⟩
  else do
    let (updated, signed) ← signSetup updated.c.preFundSignedByMe
      (Channel.signAndAddPrefund cr sk) "could not sign prefund " updated .empty
    match signed with
    | .error e => .ok ⟨updated, .empty, .completePrefund, some e⟩
    | .ok sideEffects =>
      if updated.c.preFundComplete = false then
        .ok ⟨updated, sideEffects, .completePrefund, none⟩
      else updated.crankFunding cr sideEffects sk

end methods

/-! ## calls -/

inductive Call where
  | approve
  | reject
  | update (event : ObjectiveEvent)
  | updateWithChainEvent (event : ChainEvent)
  | crank (sk : Bytes)

/-- the objective that the call returns, alone or next to an error; the old one after a panic -/
def Call.step (cr : Crypto) (o : Objective) : Call → Objective
  | .approve => (o.approve cr).toOption.getD o
  | .reject => (o.reject cr).toOption.getD o
  | .update event => (o.update cr event).toOption.getD o
  | .updateWithChainEvent event => ((o.updateWithChainEvent cr event).map Prod.fst).toOption.getD o
  | .crank sk => ((o.crank cr sk).map Cranked.updated).toOption.getD o

end Objective
end DirectFund

end Nitro
