import Nitro.Protocols.Interfaces

/-!
# Closing a ledger channel

The package `directdefund`.  An objective is built from a `ConsensusChannel`: its channel holds the
supported ledger state, and `Crank` signs a final state one turn later, waits for the peer's
signature, and withdraws.

* `newObjective`, `constructObjectiveFromState`     building an objective;
* `update`, `updateWithChainEvent`, `crank`         its methods;
* `stateToSign`                                     the state that `crank` signs.
-/

set_option linter.unusedSectionVars false

namespace Nitro
open Go FinMap

namespace DirectDefund

inductive WaitingFor where
  | finalization
  | withdraw
  | nothing
  deriving DecidableEq

def objectivePrefix : String := "DirectDefunding-"

def errChannelUpdateInProgress : Error :=
  .new "can only defund a channel when the latest state is supported or when the channel has a final state"
def errNoFinalState : Error := .new "cannot spawn direct defund objective without a final state"
def errNotEmpty : Error := .new "ledger channel has running guarantees"

structure Objective where
  status : ObjectiveStatus
  c : Channel
  finalTurnNum : UInt64
  transactionSubmitted : Bool
  deriving DecidableEq

/-! ## building an objective -/

section building
variable (cr : Crypto)

def isInConsensusOrFinalState (c : Channel) : Res Bool :=
  let (latestSS, err) := match c.latestSignedState with
    | .ok ss => (ss, none)
    | .error e => (SignedState.zero, some e)
  -- `LatestSignedState` spells this text without the capital, so the branch is never taken
  if err = some (.err (.new "No states are signed")) then .ok true
  else if latestSS.state.isFinal then .ok true
  else do
    let latestSupportedState ← c.latestSupportedState
    latestSS.state.equal latestSupportedState

def createChannelFromConsensusChannel (cc : ConsensusChannel) : Res Channel := do
  let supported ← cc.supportedSignedState cr
  let c ← Channel.new cr (cc.current.vars.asState supported.state.fixedPart) cc.myIndex
  let c := { c with onChainFunding := cc.onChainFunding.clone }
  (Channel.addSignedState cr supported).exec c

def newObjective (channelId : Destination) (preApprove : Bool)
    (getConsensusChannel : Destination → Res ConsensusChannel) : Res Objective := do
  let cc ← (getConsensusChannel channelId).wrap
    ("could not find channel " ++ destinationString channelId ++ "; ")
  failIf (cc.fundingTargets ≠ ∅) errNotEmpty
  let c ← (createChannelFromConsensusChannel cr cc).wrap
    "could not create Channel from ConsensusChannel; "
  let canCreateObjective ← isInConsensusOrFinalState c
  failIf (canCreateObjective = false) errChannelUpdateInProgress
  let clone ← c.clone cr
  let latestSS ← c.latestSupportedState
  .ok { status := if preApprove then .approved else .unapproved
        c := clone
        finalTurnNum := if latestSS.isFinal then latestSS.turnNum else latestSS.turnNum + 1
        transactionSubmitted := false }

def constructObjectiveFromState (s : State) (preapprove : Bool)
    (getConsensusChannel : Destination → Res ConsensusChannel) : Res Objective := do
  failIf (s.isFinal = false) errNoFinalState
  s.fixedPart.validate cr
  let cId ← s.channelId cr
  newObjective cr cId preapprove getConsensusChannel

end building

/-! ## methods -/

namespace Objective
section methods
variable (cr : Crypto)

def id (o : Objective) : ObjectiveId := objectivePrefix ++ destinationString o.c.id

def clone (o : Objective) : Res Objective := do
  let c ← o.c.clone cr
  .ok { o with c := c }

def approve (o : Objective) : Res Objective := do
  let updated ← o.clone cr
  .ok { updated with status := .approved }

def reject (o : Objective) : Res Objective := do
  let updated ← o.clone cr
  .ok { updated with status := .rejected }

/-- `Signatures` has one entry per participant, so the first check is on the participants only -/
def update (o : Objective) (event : ObjectiveEvent) : Res Objective := do
  failIf (o.id ≠ event.objectiveId)
    (.new ("event and objective Ids do not match: " ++ event.objectiveId ++ " and " ++ o.id ++
      " respectively"))
  failIf (event.signedState.signatures.length = 0) (.new "event does not contain a signed state")
  failIf (event.signedState.state.isFinal = false)
    (.new "direct defund objective can only be updated with final states")
  failIf (o.finalTurnNum ≠ event.signedState.state.turnNum)
    (.fmt "expected state with turn number %d, received turn number %d"
      [o.finalTurnNum.toNat, event.signedState.state.turnNum.toNat])
  let updated ← o.clone cr
  let c ← (Channel.addSignedState cr event.signedState).exec updated.c
  .ok { updated with c := c }

/-- the copy is returned next to the error, whose text has the objective and the event in it -/
def updateWithChainEvent (o : Objective) (event : ChainEvent) :
    Res (Objective × Option Error) := do
  let updated ← o.clone cr
  match event with
  | .allocationUpdated _ _ assetAddress assetAmount =>
    .ok ({ updated with c := { updated.c with
      onChainFunding := updated.c.onChainFunding.insert assetAddress assetAmount } }, none)
  | .concluded _ _ => .ok (updated, none)
  | .deposited .. => .ok (updated, some (.fmt "objective %+v cannot handle event %+v" []))

def fullyWithdrawn (o : Objective) : Bool := !o.c.onChainFunding.isNonZero

/-- the state that `Crank` signs, unless the latest one is final and signed by us -/
def stateToSign (latestSignedState : SignedState) (myIndex : Nat) : Res (Option State) :=
  if latestSignedState.state.isFinal = false ∨
      latestSignedState.hasSignatureForParticipant myIndex = false then do
    let s ← latestSignedState.state.clone
    if s.isFinal then .ok (some s)
    else .ok (some { s with turnNum := s.turnNum + 1, isFinal := true })
  else .ok none

structure Cranked where
  updated : Objective
  sideEffects : SideEffects
  waitingFor : WaitingFor
  err : Option Error
  deriving DecidableEq

/-- the second half of `Crank`, from the supported state on.  The signed state to withdraw with was
read at turn `latestTurn` before signing; its signatures sit in the map of that record, so it has
those that were added since -/
def crankWithdraw (updated : Objective) (latestTurn : UInt64) (sideEffects : SideEffects) :
    Res Cranked :=
  match updated.c.latestSupportedState with
  | .error (.panic r) => .error (.panic r)
  | .error (.err e) =>
    .ok ⟨updated, sideEffects, .finalization, some (.wrap "error finding a supported state: " e)⟩
  | .ok latestSupportedState =>
    if latestSupportedState.isFinal = false then .ok ⟨updated, sideEffects, .finalization, none⟩
    else if updated.fullyWithdrawn = false then
      if updated.c.myIndex = 0 ∧ updated.transactionSubmitted = false then
        let withdrawAll := .withdrawAll updated.c.id (updated.c.signedState latestTurn)
        .ok ⟨{ updated with transactionSubmitted := true }, sideEffects.submit withdrawAll,
          .withdraw, none⟩
      else .ok ⟨updated, sideEffects, .withdraw, none⟩
    else .ok ⟨{ updated with status := .completed }, sideEffects, .nothing, none⟩

def crank (o : Objective) (sk : Bytes) : Res Cranked := do
  let updated ← o.clone cr
  if updated.status ≠ .approved then
    .ok ⟨updated, .empty, .nothing, some errNotApproved⟩
  else
    match updated.c.latestSignedState with
    | .error _ => .ok ⟨updated, .empty, .nothing, some (.new
        "the channel must contain at least one signed state to crank the defund objective")⟩
    | .ok latestSignedState => do
      match ← stateToSign latestSignedState updated.c.myIndex with
      | none => updated.crankWithdraw updated.c.latestTurn .empty
      | some s =>
        match Channel.signAndAddState cr s sk updated.c with
        | .error (.panic r) _ => .error (.panic r)
        | .error (.err e) c =>
          .ok ⟨{ updated with c := c }, .empty, .finalization,
            some (.wrap "could not sign final state " e)⟩
        | .ok ss c =>
          crankWithdraw { updated with c := c } updated.c.latestTurn
            (SideEffects.empty.send (createSignedStateMessages updated.id ss updated.c.myIndex))

end methods

/-! ## calls -/

inductive Call where
  | approve
  | reject
  | update (event : ObjectiveEvent)
  | updateWithChainEvent (event : ChainEvent)
  | crank (sk : Bytes)

/-- the objective that the call returns, alone or next to an error; the old one after a panic -/
def Call.step (cr : Crypto) (o : Objective) : Call → Objective
  | .approve => (o.approve cr).toOption.getD o
  | .reject => (o.reject cr).toOption.getD o
  | .update event => (o.update cr event).toOption.getD o
  | .updateWithChainEvent event => ((o.updateWithChainEvent cr event).map Prod.fst).toOption.getD o
  | .crank sk => ((o.crank cr sk).map Cranked.updated).toOption.getD o

end Objective
end DirectDefund

end Nitro
