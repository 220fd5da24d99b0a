import Nitro.Channel
import Nitro.Consensus.Channel

/-!
# What the protocols share

The package `protocols` and the chain events of `chainservice`: objective ids and statuses, the
events that reach an objective, and the side effects that `Crank` declares.

* `ObjectiveEvent`, `ChainEvent`     what a peer or the chain delivers;
* `SideEffects`                      messages to send, transactions to submit, proposals to process;
* `KeyUse`                           what `Crank` signs, and when;
* `createSignedStateMessages`        one message for every other participant;
* `createSignedProposalMessage`      one message with a list of proposals.
-/

set_option linter.unusedSectionVars false

namespace Nitro
open Go

abbrev ObjectiveId := String

inductive ObjectiveStatus where
  | unapproved
  | approved
  | rejected
  | completed
  deriving DecidableEq

def errNotApproved : Error := .new "objective not approved"

/-- the ledgers of a participant of a virtual channel: `ToMyLeft`, `ToMyRight` -/
inductive Side where
  | left
  | right
  deriving DecidableEq

/-! ## events -/

structure ObjectiveEvent where
  objectiveId : ObjectiveId
  signedState : SignedState
  signedProposal : SignedProposal
  deriving DecidableEq

inductive ChainEvent where
  | deposited (channelId : Destination) (blockNum : UInt64) (asset : Address)
      (amountDeposited nowHeld : Int)
  | allocationUpdated (channelId : Destination) (blockNum : UInt64) (assetAddress : Address)
      (assetAmount : Int)
  | concluded (channelId : Destination) (blockNum : UInt64)
  deriving DecidableEq

/-! ## side effects -/

structure MessagePayload where
  objectiveId : ObjectiveId
  signedState : SignedState
  signedProposal : SignedProposal
  deriving DecidableEq

structure Message where
  recipient : Address
  payloads : List MessagePayload
  deriving DecidableEq

inductive ChainTransaction where
  | deposit (channelId : Destination) (deposit : Funds)
  | withdrawAll (channelId : Destination) (signedState : SignedState)
  deriving DecidableEq

structure SideEffects where
  messagesToSend : List Message
  transactionsToSubmit : List ChainTransaction
  proposalsToProcess : List Proposal
  deriving DecidableEq

namespace SideEffects

def empty : SideEffects := ⟨[], [], []⟩

def send (se : SideEffects) (messages : List Message) : SideEffects :=
  { se with messagesToSend := se.messagesToSend ++ messages }

/-- `ProposalsToProcess` gets one more -/
def process (se : SideEffects) (p : Proposal) : SideEffects :=
  { se with proposalsToProcess := se.proposalsToProcess ++ [p] }

/-- `Merge`: the proposals of the other are dropped -/
def merge (se other : SideEffects) : SideEffects :=
  { se with
      messagesToSend := se.messagesToSend ++ other.messagesToSend
      transactionsToSubmit := se.transactionsToSubmit ++ other.transactionsToSubmit }

def submit (se : SideEffects) (tx : ChainTransaction) : SideEffects :=
  { se with transactionsToSubmit := se.transactionsToSubmit ++ [tx] }

end SideEffects

/-! ## uses of the secret key -/

/-- what the key is used for: a state of the objective's channel, or the next state of a ledger, of
which the call returns the proposal -/
inductive Signed where
  | state (s : State)
  | proposal (ledger : ConsensusChannel) (returned : SignedProposal)
  deriving DecidableEq

/-- a use of the key, with the objective as it was at that moment; the source keeps no such record -/
structure KeyUse (ω : Type) where
  during : ω
  signed : Signed
  deriving DecidableEq

/-! ## messages -/

def createSignedStateMessages (id : ObjectiveId) (ss : SignedState) (myIndex : Nat) :
    List Message :=
  (ss.state.participants.zipIdx.filter fun p => decide (p.2 ≠ myIndex)).map fun p =>
    ⟨p.1, [⟨id, ss, SignedProposal.zero⟩]⟩

/-- the objective that a proposal belongs to -/
def getProposalObjectiveId (p : Proposal) : ObjectiveId :=
  match p.type with
  | .addProposal => "VirtualFund-" ++ destinationString p.toAdd.guarantee.target
  | .removeProposal => "VirtualDefund-" ++ destinationString p.toRemove.target

def createSignedProposalMessage (recipient : Address) (proposals : List SignedProposal) : Message :=
  ⟨recipient, proposals.map fun sp =>
    ⟨getProposalObjectiveId sp.proposal, SignedState.zero, sp⟩⟩

theorem payload_of_createSignedStateMessages {id : ObjectiveId} {ss : SignedState} {myIndex : Nat}
    {m : Message} {p : MessagePayload} (hm : m ∈ createSignedStateMessages id ss myIndex)
    (hp : p ∈ m.payloads) : p.signedState = ss := by
  obtain ⟨_, -, rfl⟩ := List.mem_map.1 hm
  rw [List.mem_singleton.1 hp]

end Nitro
