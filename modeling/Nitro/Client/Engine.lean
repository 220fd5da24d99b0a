import Nitro.Protocols.MessageSerde
import Nitro.Client.MemStore

/-!
# The engine

`engine.go`: what the client does with a request of the API, an event of the chain, a message of a peer
and a ledger proposal.  Every handler reads an objective from the store, or makes one, and hands it to
`attemptProgress`, which cranks it and writes it back.  Log lines and metrics are left out, except where
computing them can panic: for the summary of an incoming message and for the id of a request.

* `Message.signedStates`                   the states of a message, in order;
* `Protocols.Objective.crank`, `update`    the methods of the interface;
* `constructObjectiveFromMessage`          a new objective for a state of a peer;
* `getOrCreateObjective`                   the objective of a payload;
* `attemptProgress`                        crank, store, release, spawn a ledger, send;
* `handleMessage`, `handleChainEvent`, `handleAPIEvent`, `handleProposal`   the four handlers;
* `Running`, `step`                        the run loop: an error of a handler ends it.
-/

set_option linter.unusedSectionVars false

namespace Nitro
open Go FinMap
open Protocols (Objective Storable Kind)

/-! ## messages -/

/-- the states are compared by channel and turn, so with two or more of them every channel id is
computed; a single one is not looked at -/
def Message.signedStates (cr : Crypto) (m : Message) : Res (List (ObjectivePayload SignedState)) := do
  let states : List (ObjectivePayload SignedState) :=
    (m.payloads.filter fun p => decide (p.type = .signedStatePayload)).map fun p =>
      ⟨p.signedState, p.objectiveId⟩
  if states.length < 2 then .ok states
  else do
    let keyed ← states.mapM fun p => do
      let channelId ← p.payload.state.channelId cr
      (.ok ⟨(p.payload, channelId), p.objectiveId⟩ : Res (ObjectivePayload (SignedState × Destination)))
    let sorted := sortPayloads (fun x : SignedState × Destination => (x.2, x.1.state.turnNum)) keyed
    .ok (sorted.map fun p => ⟨p.payload.1, p.objectiveId⟩)

/-- `SummarizeMessage`: of what it computes for the log, only the channel ids can panic -/
def Message.summarize (cr : Crypto) (m : Message) : Res (List Destination) := do
  let states ← m.signedStates cr
  states.mapM fun p => p.payload.state.channelId cr

/-! ## events -/

def ChainEvent.channelID : ChainEvent → Destination
  | .deposited channelId .. => channelId
  | .allocationUpdated channelId .. => channelId
  | .concluded channelId _ => channelId

/-- `ObjectiveToSpawn` -/
inductive ObjectiveRequest where
  | virtualFund (request : VirtualFund.ObjectiveRequest)
  | virtualDefund (request : VirtualDefund.ObjectiveRequest)
  | directFund (request : DirectFund.ObjectiveRequest)
  | directDefund (channelId : Destination)

namespace ObjectiveRequest

/-- the fixed part that the id of a request for funding is computed from; it is not that of the channel,
which for direct funding has another chain id -/
def fixedPart (participants : List Address) (nonce : Int) (challengeDuration : BigInt) :
    FixedPart where
  chainId := some 9001
  participants := participants
  channelNonce := some nonce
  appDefinition := 0
  challengeDuration := challengeDuration

def id (cr : Crypto) (me : Address) : ObjectiveRequest → Res ObjectiveId
  | virtualFund r => do
    let d ← (fixedPart [me, r.intermediary, r.counterParty] r.nonce
      r.challengeDuration).channelId cr
    .ok (VirtualFund.objectivePrefix ++ destinationString d)
  | virtualDefund r => .ok (VirtualDefund.objectivePrefix ++ destinationString r.channelId)
  | directFund r => do
    let d ← (fixedPart [me, r.counterParty] r.nonce r.challengeDuration).channelId cr
    .ok (DirectFund.objectivePrefix ++ destinationString d)
  | directDefund channelId => .ok (DirectDefund.objectivePrefix ++ destinationString channelId)

end ObjectiveRequest

/-! ## orders of iteration -/

/-- the orders in which the tables of the store and the maps of amounts are ranged over; a table is
given by its keys -/
structure RangeOrders where
  channels : Finset Destination → List Destination
  ledgers : Address → Finset Destination → List Destination
  loops : Side → VirtualFund.Objective.LoopOrders
  channels_mem : ∀ {keys id}, id ∈ channels keys ↔ id ∈ keys
  ledgers_mem : ∀ {counterparty keys id}, id ∈ ledgers counterparty keys ↔ id ∈ keys

namespace RangeOrders

/-- `GetChannelsByParticipant` and `GetConsensusChannel` in these orders -/
def getChannels (ro : RangeOrders) (ms : MemStore) (participant : Address) : List Channel :=
  ms.getChannelsByParticipant (ro.channels ms.channels.keys) participant

def getLedger (ro : RangeOrders) (ms : MemStore) (counterparty : Address) :
    Option ConsensusChannel :=
  ms.getConsensusChannel (ro.ledgers counterparty ms.consensusChannels.keys) counterparty

/-- every table from the smallest key on -/
def ascending (loops : Side → VirtualFund.Objective.LoopOrders) : RangeOrders where
  channels keys := sortedKeys (· ≤ ·) (ofKeys keys fun _ => ())
  ledgers _ keys := sortedKeys (· ≤ ·) (ofKeys keys fun _ => ())
  loops := loops
  channels_mem := by
    intro keys id
    rw [mem_sortedKeys, ← Finmap.mem_keys, keys_ofKeys]
  ledgers_mem := by
    intro _ keys id
    rw [mem_sortedKeys, ← Finmap.mem_keys, keys_ofKeys]

end RangeOrders

/-! ## the methods of an objective -/

namespace Protocols.Objective
variable (cr : Crypto)

def approve : Objective → Res Objective
  | directFund o => (o.approve cr).map directFund
  | directDefund o => (o.approve cr).map directDefund
  | virtualFund o => (o.approve cr).map virtualFund
  | virtualDefund o => o.approve.map virtualDefund

def reject : Objective → Res Objective
  | directFund o => (o.reject cr).map directFund
  | directDefund o => (o.reject cr).map directDefund
  | virtualFund o => (o.reject cr).map virtualFund
  | virtualDefund o => o.reject.map virtualDefund

def update (event : ObjectiveEvent) : Objective → Res Objective
  | directFund o => (o.update cr event).map directFund
  | directDefund o => (o.update cr event).map directDefund
  | virtualFund o => (o.update cr event).map virtualFund
  | virtualDefund o => (o.update cr event).map virtualDefund

/-- what `Crank` returns; `finished` is the comparison of `waitingFor` with `WaitingForNothing` -/
structure Cranked where
  updated : Objective
  sideEffects : SideEffects
  finished : Bool
  err : Option Error

def crank (loops : Side → VirtualFund.Objective.LoopOrders) (sk : Bytes) :
    Objective → Res Cranked
  | directFund o => (o.crank cr sk).map fun c =>
      ⟨.directFund c.updated, c.sideEffects, decide (c.waitingFor = .nothing), c.err⟩
  | directDefund o => (o.crank cr sk).map fun c =>
      ⟨.directDefund c.updated, c.sideEffects, decide (c.waitingFor = .nothing), c.err⟩
  | virtualFund o => (o.crank cr loops sk).map fun c =>
      ⟨.virtualFund c.updated, c.sideEffects, decide (c.waitingFor = .nothing), c.err⟩
  | virtualDefund o => (o.crank cr sk).map fun c =>
      ⟨.virtualDefund c.updated, c.sideEffects, decide (c.waitingFor = .nothing), c.err⟩

end Protocols.Objective

/-! ## objectives from messages -/

section messages
variable (cr : Crypto) (me : Address) (ro : RangeOrders)

/-- the error of virtual defunding has the text of virtual funding -/
def constructObjectiveFromMessage (ms : MemStore) (id : ObjectiveId) (ss : SignedState) :
    Res Objective :=
  if hasPrefix id DirectFund.objectivePrefix then
    (DirectFund.constructFromState cr false ss.state me).map .directFund
  else if hasPrefix id VirtualFund.objectivePrefix then
    ((VirtualFund.constructObjectiveFromState cr ss.state false me (ro.getLedger ms)).wrap
      "could not create virtual fund objective from message: ").map .virtualFund
  else if hasPrefix id VirtualDefund.objectivePrefix then
    ((VirtualDefund.constructObjectiveFromState cr ss.state false me ms.getChannelById
      (ro.getLedger ms)).wrap
      "could not create virtual fund objective from message: ").map .virtualDefund
  else if hasPrefix id DirectDefund.objectivePrefix then
    ((DirectDefund.constructObjectiveFromState cr ss.state false ms.getConsensusChannelById).wrap
      "could not create direct defund objective from message: ").map .directDefund
  else .error (.err (.new "cannot handle unimplemented objective type"))

/-- the objective is made and stored only if the id is not there; any other error is passed on -/
def getOrCreateObjective (id : ObjectiveId) (ss : SignedState) : Meth MemStore Objective := fun ms =>
  match ms.getObjectiveById cr id with
  | .ok o => .ok o ms
  | .error (.panic r) => .error (.panic r) ms
  | .error (.err e) =>
    if e.is errNoSuchObjective then
      (do
        let newObj ← liftM ((constructObjectiveFromMessage cr me ro ms id ss).wrap
          "error constructing objective from message: ")
        (MemStore.setObjective cr newObj).wrap "error setting objective in store: "
        pure newObj : Meth MemStore Objective) ms
    else .error (.err (.wrap ("unexpected error getting/creating objective " ++ id ++ ": ") e)) ms

end messages

/-! ## the engine -/

/-- the store, and what has been sent and submitted so far -/
structure Engine where
  store : MemStore
  executed : List SideEffects

structure ObjectiveChangeEvent where
  completedObjectives : List Objective
  failedObjectives : List ObjectiveId

/-- what does not change during a run: the key, its address, and the policy -/
structure Client where
  me : Address
  sk : Bytes
  shouldApprove : Objective → Bool

namespace Engine

/-- a method of the store -/
def onStore {α : Type} (m : Meth MemStore α) : Meth Engine α :=
  m.zoom Engine.store fun ms e => { e with store := ms }

def modifyStore (f : MemStore → MemStore) : Meth Engine Unit :=
  modify fun e => { e with store := f e.store }

variable (cr : Crypto) (client : Client)

/-- nobody receives on the channel for proposals, so sending one never ends -/
def executeSideEffects (sideEffects : SideEffects) : Meth Engine Unit := do
  modify fun e => { e with executed := e.executed ++ [sideEffects] }
  if sideEffects.proposalsToProcess ≠ [] then throw (.panic "blocked") else pure ()

def spawnConsensusChannelIfDirectFundObjective (crankedObjective : Objective) :
    Meth Engine Unit :=
  match crankedObjective with
  | .directFund dfo => do
    let c ← liftM ((dfo.createConsensusChannel cr).wrap
      ("could not create consensus channel for objective " ++ dfo.id ++ ": "))
    modifyStore fun ms => ms.setConsensusChannel c
    modifyStore fun ms => ms.destroyChannel c.id
  | _ => pure ()

def attemptProgress (loops : Side → VirtualFund.Objective.LoopOrders) (objective : Objective) :
    Meth Engine (List Objective) := do
  let cranked ← liftM (objective.crank cr loops client.sk)
  match cranked.err with
  | some e => throw (.err e)
  | none => do
    onStore (MemStore.setObjective cr cranked.updated)
    if cranked.finished then do
      let channelId ← liftM (cranked.updated.ownsChannel cr)
      modifyStore fun ms => ms.releaseChannelFromOwnership channelId
      spawnConsensusChannelIfDirectFundObjective cr cranked.updated
      executeSideEffects cranked.sideEffects
      pure [cranked.updated]
    else do
      executeSideEffects cranked.sideEffects
      pure []

/-! ## messages -/

/-- a new objective is approved or rejected; the flag tells whether it was rejected -/
def approveOrReject (objective : Objective) : Meth Engine (Objective × Bool) :=
  if objective.getStatus = .unapproved then
    if client.shouldApprove objective then do
      let objective ← liftM (objective.approve cr)
      match objective with
      | .directDefund ddfo => modifyStore fun ms => ms.destroyConsensusChannel ddfo.c.id
      | _ => pure ()
      pure (objective, false)
    else do
      let objective ← liftM (objective.reject cr)
      onStore (MemStore.setObjective cr objective)
      pure (objective, true)
  else pure (objective, false)

/-- the event goes to the objective, unless it is completed -/
def progressWith (loops : Side → VirtualFund.Objective.LoopOrders) (objective : Objective)
    (event : ObjectiveEvent) : Meth Engine (List Objective) :=
  if objective.getStatus = .completed then pure []
  else do
    let updatedObjective ← liftM (objective.update cr event)
    attemptProgress cr client loops updatedObjective

/-- the body of the loop over the states; the flag tells whether the handler returns -/
def handleSignedState (ro : RangeOrders) (entry : ObjectivePayload SignedState) :
    Meth Engine (List Objective × Bool) := do
  let objective ← onStore (getOrCreateObjective cr client.me ro entry.objectiveId entry.payload)
  let (objective, rejected) ← approveOrReject cr client objective
  if rejected then pure ([objective], true)
  else do
    let completed ← progressWith cr client ro.loops objective
      ⟨entry.objectiveId, entry.payload, SignedProposal.zero⟩
    pure (completed, false)

/-- the loop over the states -/
def handleSignedStates : List (RangeOrders × ObjectivePayload SignedState) →
    Meth Engine (List Objective × Bool)
  | [] => pure ([], false)
  | (ro, entry) :: rest => do
    let (completed, stop) ← handleSignedState cr client ro entry
    if stop then pure (completed, true)
    else do
      let (more, stop) ← handleSignedStates rest
      pure (completed ++ more, stop)

/-- the body of the loop over the proposals -/
def handleSignedProposal (ro : RangeOrders) (entry : ObjectivePayload SignedProposal) :
    Meth Engine (List Objective) := do
  let e ← get
  let objective ← liftM (e.store.getObjectiveById cr entry.objectiveId)
  progressWith cr client ro.loops objective ⟨entry.objectiveId, SignedState.zero, entry.payload⟩

/-- the loop over the proposals -/
def handleSignedProposals : List (RangeOrders × ObjectivePayload SignedProposal) →
    Meth Engine (List Objective)
  | [] => pure []
  | (ro, entry) :: rest => do
    let completed ← handleSignedProposal cr client ro entry
    let more ← handleSignedProposals rest
    pure (completed ++ more)

/-- every payload has its own orders of iteration -/
def handleMessage (ro : Nat → RangeOrders) (message : Message) : Meth Engine ObjectiveChangeEvent := do
  let _ ← liftM (message.summarize cr)
  let states ← liftM (message.signedStates cr)
  let proposals := message.signedProposals
  let (completed, stop) ← handleSignedStates cr client
    (states.zipIdx.map fun p => (ro p.2, p.1))
  if stop then pure ⟨completed, []⟩
  else do
    let more ← handleSignedProposals cr client
      (proposals.zipIdx.map fun p => (ro (states.length + p.2), p.1))
    pure ⟨completed ++ more, []⟩

/-! ## the other events -/

def handleProposal (ro : RangeOrders) (proposal : Proposal) : Meth Engine ObjectiveChangeEvent := do
  let e ← get
  let objective ← liftM (e.store.getObjectiveById cr (getProposalObjectiveId proposal))
  let completed ← attemptProgress cr client ro.loops objective
  pure ⟨completed, []⟩

def errUnhandledChainEvent : Error :=
  .fmt ("chain event %#v could not be handled by objective %#v due to: " ++
    "objective does not handle chain events") []

/-- an event for a channel that no readable objective owns is ignored -/
def handleChainEvent (ro : RangeOrders) (chainEvent : ChainEvent) :
    Meth Engine ObjectiveChangeEvent := do
  let e ← get
  let found ← liftM (e.store.getObjectiveByChannelId cr chainEvent.channelID)
  let progress (updated : Objective) (err : Option Error) : Meth Engine ObjectiveChangeEvent :=
    match err with
    | some err => throw (.err err)
    | none => do
      let completed ← attemptProgress cr client ro.loops updated
      pure ⟨completed, []⟩
  match found with
  | none => pure ⟨[], []⟩
  | some (.directFund o) => do
    let (updated, err) ← liftM (o.updateWithChainEvent cr chainEvent)
    progress (.directFund updated) err
  | some (.directDefund o) => do
    let (updated, err) ← liftM (o.updateWithChainEvent cr chainEvent)
    progress (.directDefund updated) err
  | some _ => throw (.err errUnhandledChainEvent)

/-- the text of the error has the request in it -/
def couldNotCreate : String := "handleAPIEvent: Could not create objective for %+v: "

/-- the objectives of requests are approved from the start.  A request to defund a ledger that fails is
reported next to the error -/
def handleAPIEvent (ro : RangeOrders) (objectiveToSpawn : Option ObjectiveRequest) :
    Meth Engine (ObjectiveChangeEvent × Option Error) :=
  match objectiveToSpawn with
  | none => pure (⟨[], []⟩, none)
  | some request => do
    let id ← liftM (request.id cr client.me)
    let e ← get
    let spawn (objective : Objective) : Meth Engine (ObjectiveChangeEvent × Option Error) := do
      let completed ← attemptProgress cr client ro.loops objective
      pure (⟨completed, []⟩, none)
    match request with
    | .virtualFund r => do
      let vfo ← liftM ((VirtualFund.newObjective cr r true client.me (ro.getLedger e.store)).wrap
        couldNotCreate)
      spawn (.virtualFund vfo)
    | .virtualDefund r => do
      let vdfo ← liftM ((VirtualDefund.newObjective r true client.me e.store.getChannelById
        (ro.getLedger e.store)).wrap couldNotCreate)
      spawn (.virtualDefund vdfo)
    | .directFund r => do
      let dfo ← liftM ((DirectFund.newObjective cr r true client.me (ro.getChannels e.store)
        (ro.getLedger e.store)).wrap couldNotCreate)
      spawn (.directFund dfo)
    | .directDefund channelId =>
      match DirectDefund.newObjective cr channelId true e.store.getConsensusChannelById with
      | .error (.panic r) => throw (.panic r)
      | .error (.err err) => pure (⟨[], [id]⟩, some (.wrap couldNotCreate err))
      | .ok ddfo => do
        modifyStore fun ms => ms.destroyConsensusChannel channelId
        spawn (.directDefund ddfo)

/-! ## the run loop -/

inductive Event where
  | api (ro : RangeOrders) (objectiveToSpawn : Option ObjectiveRequest)
  | chain (ro : RangeOrders) (chainEvent : ChainEvent)
  | message (ro : Nat → RangeOrders) (message : Message)
  | proposal (ro : RangeOrders) (proposal : Proposal)

/-- what the handler of an event returns -/
def handle : Event → Meth Engine (ObjectiveChangeEvent × Option Error)
  | .api ro objectiveToSpawn => handleAPIEvent cr client ro objectiveToSpawn
  | .chain ro chainEvent => do
    let res ← handleChainEvent cr client ro chainEvent
    pure (res, none)
  | .message ro message => do
    let res ← handleMessage cr client ro message
    pure (res, none)
  | .proposal ro proposal => do
    let res ← handleProposal cr client ro proposal
    pure (res, none)

/-- the error of a request that the run loop swallows -/
def Event.swallows (err : Error) : Event → Bool
  | .api .. => err.is DirectDefund.errNotEmpty
  | _ => false

end Engine

/-- the engine and what it has reported to the API; it stops at the first error -/
structure Running where
  engine : Engine
  toApi : List ObjectiveChangeEvent
  alive : Bool

namespace Running

/-- `NewMemStore` and `New` -/
def start : Running := ⟨⟨MemStore.empty, []⟩, [], true⟩

/-- one turn of the loop of `Run`; the error that a ledger has running guarantees is reported to the
API and swallowed -/
def step (cr : Crypto) (client : Client) (r : Running) (event : Engine.Event) : Running :=
  if r.alive then
    match Engine.handle cr client event r.engine with
    | .ok (res, none) e =>
      ⟨e, if res.completedObjectives = [] then r.toApi else r.toApi ++ [res], true⟩
    | .ok (res, some err) e =>
      if event.swallows err then ⟨e, r.toApi ++ [res], true⟩ else ⟨e, r.toApi, false⟩
    | .error (.err err) e =>
      if event.swallows err then ⟨e, r.toApi ++ [⟨[], []⟩], true⟩ else ⟨e, r.toApi, false⟩
    | .error (.panic _) e => ⟨e, r.toApi, false⟩
  else r

end Running
end Nitro
