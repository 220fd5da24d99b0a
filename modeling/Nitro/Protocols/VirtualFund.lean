import Nitro.Lib.Triple
import Nitro.Protocols.Interfaces

/-!
# Funding a virtual channel from ledgers

The package `virtualfund`.  A virtual channel `V` joins Alice and Bob through one intermediary; every
two neighbours put a guarantee for `V` into the ledger between them.  All three sign the prefund state
before the ledgers are touched, and the postfund state when the guarantees are there.

* `constructFromState`, `newObjective`, `constructObjectiveFromState`   building an objective;
* `Connection.expectedProposal`    the proposal that adds the guarantee to a ledger;
* `update`, `crank`                its methods; `progress` is the body of `crank`.
-/

set_option linter.unusedSectionVars false

namespace Nitro
open Go FinMap

/-- the order in which a `range` over a map meets the entries is unspecified; this is the first one
that it meets -/
structure RangeOrder where
  first : Funds → Option Address
  mem : ∀ {f : Funds} {a : Address}, first f = some a → a ∈ f
  empty : ∀ {f : Funds}, first f = none → f = ∅

/-- `for _, val := range f { v = val; break }` -/
def RangeOrder.value (r : RangeOrder) (f : Funds) : BigInt := (r.first f).map f.amount

namespace VirtualFund

def objectivePrefix : String := "VirtualFund-"

structure GuaranteeInfo where
  left : Destination
  right : Destination
  leftAmount : Funds
  rightAmount : Funds
  guaranteeDestination : Destination
  deriving DecidableEq

structure Connection where
  channel : ConsensusChannel
  guaranteeInfo : GuaranteeInfo
  deriving DecidableEq

structure Objective where
  status : ObjectiveStatus
  v : Channel
  toMyLeft : Option Connection
  toMyRight : Option Connection
  n : Nat
  myRole : Nat
  a0 : Funds
  b0 : Funds
  deriving DecidableEq

def Objective.isAlice (o : Objective) : Bool := decide (o.myRole = 0)
def Objective.isBob (o : Objective) : Bool := decide (o.myRole = o.n + 1)
def Objective.id (o : Objective) : ObjectiveId := objectivePrefix ++ destinationString o.v.id

/-! ## building an objective -/

/-- the last position of the address: the loop over the participants does not stop at the first -/
def lastIndex (address : Address) (participants : List Address) : Option Nat :=
  participants.zipIdx.foldl (fun found p => if p.1 = address then some p.2 else found) none

/-- the loop that adds up the two amounts of every exit; `bob` is participant `n + 1` -/
def initialAmounts (alice bob : Address) (n : Nat) : Exit → Funds × Funds → Res (Funds × Funds)
  | [], amounts => .ok amounts
  | e :: es, (a0, b0) => do
    let slot0 ← index e.allocations 0
    failIf (slot0.destination ≠ addressToDestination alice)
      (.new "allocation in slot 0 does not correspond to participant 0")
    let slot1 ← index e.allocations 1
    failIf (slot1.destination ≠ addressToDestination bob)
      (.new ("allocation in slot 1 does not correspond to participant " ++ toString (n + 1)))
    let amount0 ← slot0.amount.deref
    let amount1 ← slot1.amount.deref
    initialAmounts alice bob n es (a0.insert e.asset (a0.amount e.asset + amount0),
      b0.insert e.asset (b0.amount e.asset + amount1))

/-- the connection between the participants `i` and `i + 1` over a ledger, with the information of
`insertGuaranteeInfo`; two destinations can always be encoded -/
def newConnection (v : Channel) (a0 b0 : Funds) (i : Nat) (ledger : ConsensusChannel) :
    Res Connection := do
  let left ← index v.fixedPart.participants i
  let right ← index v.fixedPart.participants (i + 1)
  .ok { channel := ledger
        guaranteeInfo := ⟨addressToDestination left, addressToDestination right, a0, b0, v.id⟩ }

/-- everyone other than Alice has a left channel -/
def connectionToMyLeft (v : Channel) (a0 b0 : Funds) (myRole : Nat)
    (ledger : Option ConsensusChannel) : Res (Option Connection) :=
  if myRole = 0 then .ok none
  else
    match ledger with
    | none => .error (.err (.new
        "non-alice virtualfund objective requires non-nil left ledger channel"))
    | some ledger => do
      let c ← newConnection v a0 b0 (myRole - 1) ledger
      .ok (some c)

/-- everyone other than Bob has a right channel -/
def connectionToMyRight (v : Channel) (a0 b0 : Funds) (n myRole : Nat)
    (ledger : Option ConsensusChannel) : Res (Option Connection) :=
  if myRole = n + 1 then .ok none
  else
    match ledger with
    | none => .error (.err (.new
        "non-bob virtualfund objective requires non-nil right ledger channel"))
    | some ledger => do
      let c ← newConnection v a0 b0 myRole ledger
      .ok (some c)

section building
variable (cr : Crypto)

def constructFromState (preApprove : Bool) (initialStateOfV : State) (myAddress : Address)
    (consensusChannelToMyLeft consensusChannelToMyRight : Option ConsensusChannel) :
    Res Objective := do
  match lastIndex myAddress initialStateOfV.participants with
  | none => .error (.err (.new "not a participant in V"))
  | some myRole => do
    let v ← Channel.newSingleHopVirtualChannel cr initialStateOfV myRole
    let n := initialStateOfV.participants.length - 2
    let alice ← index initialStateOfV.participants 0
    let bob ← index initialStateOfV.participants (n + 1)
    let (a0, b0) ← initialAmounts alice bob n initialStateOfV.outcome (∅, ∅)
    let toMyLeft ← connectionToMyLeft v a0 b0 myRole consensusChannelToMyLeft
    let toMyRight ← connectionToMyRight v a0 b0 n myRole consensusChannelToMyRight
    .ok { status := if preApprove then .approved else .unapproved
          v := v, toMyLeft := toMyLeft, toMyRight := toMyRight, n := n, myRole := myRole
          a0 := a0, b0 := b0 }

structure ObjectiveRequest where
  intermediary : Address
  counterParty : Address
  appData : Bytes
  challengeDuration : BigInt
  outcome : Exit
  nonce : Int
  deriving DecidableEq

def newObjective (request : ObjectiveRequest) (preApprove : Bool) (myAddress : Address)
    (getTwoPartyConsensusLedger : Address → Option ConsensusChannel) : Res Objective :=
  match getTwoPartyConsensusLedger request.intermediary with
  | none => .error (.err (.fmt "could not find ledger for %s and %s"
      [myAddress.toNat, request.intermediary.toNat]))
  | some rightCC =>
    (constructFromState cr preApprove
      { chainId := some 9001
        participants := [myAddress, request.intermediary, request.counterParty]
        channelNonce := some request.nonce
        appDefinition := 0
        challengeDuration := request.challengeDuration
        appData := request.appData
        outcome := request.outcome
        turnNum := 0
        isFinal := false } myAddress none (some rightCC)).wrap "error creating objective: "

def constructObjectiveFromState (initialState : State) (preapprove : Bool) (myAddress : Address)
    (getTwoPartyConsensusLedger : Address → Option ConsensusChannel) : Res Objective := do
  let alice ← index initialState.participants 0
  let intermediary ← index initialState.participants 1
  let bob ← index initialState.participants 2
  if myAddress = alice then
    .error (.err (.new "participant[0] should not construct objectives from peer messages"))
  else if myAddress = bob then
    match getTwoPartyConsensusLedger intermediary with
    | none => .error (.err (.fmt "could not find a left ledger channel between %v and %v"
        [intermediary.toNat, bob.toNat]))
    | some leftC => constructFromState cr preapprove initialState myAddress (some leftC) none
  else if myAddress = intermediary then
    match getTwoPartyConsensusLedger alice with
    | none => .error (.err (.fmt "could not find a left ledger channel between %v and %v"
        [alice.toNat, intermediary.toNat]))
    | some leftC =>
      match getTwoPartyConsensusLedger bob with
      | none => .error (.err (.fmt "could not find a right ledger channel between %v and %v"
          [intermediary.toNat, bob.toNat]))
      | some rightC =>
        constructFromState cr preapprove initialState myAddress (some leftC) (some rightC)
  else .error (.err (.new "client address not found in an expected participant index"))

end building

/-! ## the proposal for a ledger -/

namespace Connection

/-- the amounts are `Funds`, and the first asset that the loop meets counts -/
def getExpectedGuarantee (r : RangeOrder) (c : Connection) : Guarantee BigInt where
  amount := r.value (c.guaranteeInfo.leftAmount.add [c.guaranteeInfo.rightAmount])
  target := c.guaranteeInfo.guaranteeDestination
  left := c.guaranteeInfo.left
  right := c.guaranteeInfo.right

/-- every loop has its own order: `r` is that of the loop over the sum of the amounts, `r'` that of
the loop over the left amounts -/
def expectedProposal (r r' : RangeOrder) (c : Connection) : Proposal :=
  newAddProposal c.channel.id (c.getExpectedGuarantee r) (r'.value c.guaranteeInfo.leftAmount)

/-- `Funded` -/
def funded (r : RangeOrder) (c : Connection) : Bool := c.channel.includes (c.getExpectedGuarantee r)

/-- a proposal for another ledger is refused; whatever `Receive` returns is dropped -/
def handleProposal (cr : Crypto) (sp : SignedProposal) : Option Connection → Res Connection
  | none => .error (.err (.new "nil connection should not handle proposals"))
  | some c => do
    failIf (sp.proposal.ledgerID ≠ c.channel.id) errIncorrectChannelID
    match ConsensusChannel.receive cr sp c.channel with
    | .ok _ ledger => .ok { c with channel := ledger }
    | .error (.err _) ledger => .ok { c with channel := ledger }
    | .error (.panic r) _ => .error (.panic r)

end Connection

/-! ## methods -/

inductive WaitingFor where
  | completePrefund
  | completeFunding
  | completePostFund
  | nothing
  deriving DecidableEq

namespace Objective

def connection (o : Objective) : Side → Option Connection
  | .left => o.toMyLeft
  | .right => o.toMyRight

def setConnection (o : Objective) (side : Side) (c : Connection) : Objective :=
  match side with
  | .left => { o with toMyLeft := some c }
  | .right => { o with toMyRight := some c }

/-- `nil` pointers panic -/
def getConnection (o : Objective) (side : Side) : Res Connection :=
  match o.connection side with
  | some c => .ok c
  | none => .error (.panic "nil pointer dereference")

section methods
variable (cr : Crypto)

def cloneConnection : Option Connection → Res (Option Connection)
  | none => .ok none
  | some c => do
    let channel ← c.channel.clone
    .ok (some { c with channel := channel })

def clone (o : Objective) : Res Objective := do
  let v ← o.v.clone cr
  let toMyLeft ← cloneConnection o.toMyLeft
  let toMyRight ← cloneConnection o.toMyRight
  .ok { o with v := v, toMyLeft := toMyLeft, toMyRight := toMyRight }

def approve (o : Objective) : Res Objective := do
  let updated ← o.clone cr
  .ok { updated with status := .approved }

def reject (o : Objective) : Res Objective := do
  let updated ← o.clone cr
  .ok { updated with status := .rejected }

/-- the id of the ledger on a side that the client has; the zero value on the other -/
def ledgerId (o : Objective) (missing : Bool) (side : Side) : Res Destination :=
  if missing then .ok 0 else do
    let c ← o.getConnection side
    .ok c.channel.id

/-- the first half of `Update`: a proposal that targets `V` goes to the ledger that it names -/
def updateLedger (o updated : Objective) (sp : SignedProposal) : Res Objective := do
  let toMyLeftId ← o.ledgerId o.isAlice .left
  let toMyRightId ← o.ledgerId o.isBob .right
  let receive (side : Side) : Res Objective := do
    let c ← (Connection.handleProposal cr sp (updated.connection side)).wrap
      "error incorporating signed proposal %+v into objective: "
    .ok (updated.setConnection side c)
  if sp.proposal.target ≠ o.v.id then .ok updated
  else if sp.proposal.ledgerID = 0 then
    .error (.err (.new "signed proposal is for a zero-addressed ledger channel"))
  else if sp.proposal.ledgerID = toMyLeftId then receive .left
  else if sp.proposal.ledgerID = toMyRightId then receive .right
  else .error (.err (.new "signed proposal is not addressed to a known ledger connection"))

/-- the second half of `Update`: a state of `V` is added, and whatever `AddSignedState` returns is
dropped -/
def updateV (o updated : Objective) (ss : SignedState) : Res Objective :=
  if ss.signatures.length = 0 then .ok updated
  else do
    let channelId ← ss.state.channelId cr
    failIf (channelId = 0) (.new "null channel id")
    failIf (channelId ≠ o.v.id) (.new "event channelId out of scope of objective")
    let v ← (Channel.addSignedState cr ss).exec updated.v
    .ok { updated with v := v }

def update (o : Objective) (event : ObjectiveEvent) : Res Objective := do
  failIf (o.id ≠ event.objectiveId)
    (.new ("event and objective Ids do not match: " ++ event.objectiveId ++ " and " ++ o.id ++
      " respectively"))
  let updated ← o.clone cr
  let updated ← o.updateLedger cr updated event.signedProposal
  o.updateV cr updated event.signedState

/-! ## cranking -/

/-- the orders of the loops over amounts, in `Funded`, in `updateLedgerWithGuarantee`, the two of
`expectedProposal`, and in `fundingComplete` -/
structure LoopOrders where
  funded : RangeOrder
  guarantee : RangeOrder
  proposal : RangeOrder
  leftAmount : RangeOrder
  complete : RangeOrder

structure Work where
  updated : Objective
  sideEffects : SideEffects
  uses : List (KeyUse Objective)

namespace Work

def setV (v : Channel) (k : Work) : Work := { k with updated.v := v }

def setConnection (side : Side) (c : Connection) (k : Work) : Work :=
  { k with updated := k.updated.setConnection side c }

def send (messages : List Message) (k : Work) : Work :=
  { k with sideEffects := k.sideEffects.send messages }

def merge (se : SideEffects) (k : Work) : Work :=
  { k with sideEffects := k.sideEffects.merge se }

def use (signed : Signed) (k : Work) : Work := { k with uses := k.uses ++ [⟨k.updated, signed⟩] }

end Work

/-- how `Crank` signs a setup state of `V`: unless our signature is there, the state is signed, added
and sent to the other participants -/
def signSetup (o : Objective) (signedByMe : Channel → Bool) (state : Channel → State)
    (sign : Meth Channel SignedState) : Meth Work Unit := do
  let k ← get
  if signedByMe k.updated.v then pure ()
  else do
    modify (Work.use (.state (state k.updated.v)))
    let ss ← sign.zoom (fun k => k.updated.v) Work.setV
    modify (Work.send (createSignedStateMessages o.id ss o.v.myIndex))

def proposeLedgerUpdate (orders : LoopOrders) (sk : Bytes) (side : Side) (c : Connection) :
    Meth Work SideEffects := do
  if c.channel.isLeader = false then
    throw (.err (.new "only the leader can propose a ledger update"))
  else
    match ConsensusChannel.propose cr (c.expectedProposal orders.proposal orders.leftAmount) sk
      c.channel with
    | .error e _ => throw e
    | .ok signed ledger => do
      modify (Work.use (.proposal c.channel signed))
      modify (Work.setConnection side { c with channel := ledger })
      let recipient ← liftM ledger.follower
      pure (SideEffects.empty.send [createSignedProposalMessage recipient ledger.proposalQueue])

def acceptLedgerUpdate (orders : LoopOrders) (sk : Bytes) (side : Side) (c : Connection) :
    Meth Work SideEffects :=
  match ConsensusChannel.signNextProposal cr
    (c.expectedProposal orders.proposal orders.leftAmount) sk c.channel with
  | .error (.err e) _ => throw (.err (.wrap "no proposed state found for ledger channel " e))
  | .error (.panic r) _ => throw (.panic r)
  | .ok sp ledger => do
    modify (Work.use (.proposal c.channel sp))
    modify (Work.setConnection side { c with channel := ledger })
    let sideEffects := match ledger.proposalQueue with
      | [] => SideEffects.empty
      | next :: _ => SideEffects.empty.process next.proposal
    let recipient ← liftM ledger.leader
    pure (sideEffects.send [createSignedProposalMessage recipient [sp]])

/-- an error of `IsProposedNext` counts as no -/
def proposedNext (c : ConsensusChannel) (g : Guarantee BigInt) : Res Bool :=
  match c.isProposedNext g with
  | .error (.err _) => .ok false
  | r => r

def updateLedgerWithGuarantee (orders : LoopOrders) (sk : Bytes) (side : Side) (c : Connection) :
    Meth Work SideEffects := do
  let g := c.getExpectedGuarantee orders.guarantee
  let proposed ← liftM (c.channel.isProposed g)
  if c.channel.isLeader then
    if proposed then pure .empty
    else (proposeLedgerUpdate cr orders sk side c).wrap "error proposing ledger update: "
  else do
    let next ← liftM (proposedNext c.channel g)
    if next then (acceptLedgerUpdate cr orders sk side c).wrap "error proposing ledger update: "
    else pure .empty

/-- the funding step for one ledger; Alice has none to the left, and Bob none to the right -/
def fund (orders : LoopOrders) (sk : Bytes) (side : Side) (missing : Bool) : Meth Work Unit :=
  if missing then pure ()
  else do
    let k ← get
    let c ← liftM (k.updated.getConnection side)
    if c.funded orders.funded then pure ()
    else do
      let sideEffects ← (updateLedgerWithGuarantee cr orders sk side c).wrap
        "error updating ledger funding: "
      modify (Work.merge sideEffects)

/-- the intermediary asks for the right ledger first, and for the left one only if that is funded -/
def fundingComplete (orders : Side → LoopOrders) (o : Objective) : Res Bool := do
  let funded (side : Side) : Res Bool := do
    let c ← o.getConnection side
    .ok (c.funded (orders side).complete)
  if o.isAlice then funded .right
  else if o.isBob then funded .left
  else do
    if ← funded .right then funded .left else .ok false

/-- the last part of `Crank`, for a channel with funded ledgers -/
def progressPostfund (o : Objective) (sk : Bytes) : Meth Work WaitingFor := do
  o.signSetup Channel.postFundSignedByMe Channel.postFundState (Channel.signAndAddPostfund cr sk)
  let k ← get
  if k.updated.v.postFundComplete = false then pure .completePostFund
  else do
    modify fun k => { k with updated.status := .completed }
    pure .nothing

/-- the middle part of `Crank`, for a channel whose prefund state everybody signed -/
def progressFunding (o : Objective) (orders : Side → LoopOrders) (sk : Bytes) :
    Meth Work WaitingFor := do
  let k ← get
  fund cr (orders .left) sk .left k.updated.isAlice
  fund cr (orders .right) sk .right k.updated.isBob
  let k ← get
  let complete ← liftM (k.updated.fundingComplete orders)
  if complete = false then pure .completeFunding
  else o.progressPostfund cr sk

def progress (o : Objective) (orders : Side → LoopOrders) (sk : Bytes) : Meth Work WaitingFor := do
  o.signSetup Channel.preFundSignedByMe Channel.preFundState (Channel.signAndAddPrefund cr sk)
  let k ← get
  if k.updated.v.preFundComplete = false then pure .completePrefund
  else o.progressFunding cr orders sk

structure Cranked where
  updated : Objective
  sideEffects : SideEffects
  waitingFor : WaitingFor
  err : Option Error
  deriving DecidableEq

/-- an error gives back the objective as it was -/
def crank (o : Objective) (orders : Side → LoopOrders) (sk : Bytes) : Res Cranked := do
  let updated ← o.clone cr
  if updated.status ≠ .approved then .ok ⟨updated, .empty, .nothing, some errNotApproved⟩
  else
    match o.progress cr orders sk ⟨updated, .empty, []⟩ with
    | .ok waitingFor k => .ok ⟨k.updated, k.sideEffects, waitingFor, none⟩
    | .error (.err e) _ => .ok ⟨o, .empty, .nothing, some e⟩
    | .error (.panic r) _ => .error (.panic r)

/-- the uses of the key during `Crank`, also when it stops early -/
def crankUses (o : Objective) (orders : Side → LoopOrders) (sk : Bytes) :
    List (KeyUse Objective) :=
  match o.clone cr with
  | .error _ => []
  | .ok updated =>
    if updated.status ≠ .approved then []
    else ((o.progress cr orders sk).after ⟨updated, .empty, []⟩).uses

end methods

/-! ## calls -/

inductive Call where
  | approve
  | reject
  | update (event : ObjectiveEvent)
  | crank (orders : Side → LoopOrders) (sk : Bytes)

/-- the objective that the call returns, alone or next to an error; the old one after a panic -/
def Call.step (cr : Crypto) (o : Objective) : Call → Objective
  | .approve => (o.approve cr).toOption.getD o
  | .reject => (o.reject cr).toOption.getD o
  | .update event => (o.update cr event).toOption.getD o
  | .crank orders sk => ((o.crank cr orders sk).map Cranked.updated).toOption.getD o

/-- the uses of the key during the call -/
def Call.uses (cr : Crypto) (o : Objective) : Call → List (KeyUse Objective)
  | .crank orders sk => o.crankUses cr orders sk
  | _ => []

end Objective
end VirtualFund

end Nitro
