import Nitro.State

/-!
# Ledger outcomes and the proposals that change them

The data of the package `consensus_channel`: a `LedgerOutcome` holds the two balances and the
guarantees of a ledger channel, `Vars` adds its turn number, and a `Proposal` adds or removes one
guarantee.

* `Vars.handleProposal`       the code: checks first, then one effect after the other;
* `Vars.Step v p v'`          what a proposal does, as a relation: the guards and the new `Vars`;
* `Vars.handleProposal_cases` a call takes the step, or stops with the `Vars` as they were.
-/

set_option linter.unusedSectionVars false

namespace Nitro
open Go FinMap

/-! ## errors -/

def errIncorrectChannelID : Error := .new "proposal ID and channel ID do not match"
def errInvalidDeposit : Error := .new "unable to divert to guarantee: invalid deposit"
def errInsufficientFunds : Error := .new "insufficient funds"
def errDuplicateGuarantee : Error := .new "duplicate guarantee detected"
def errGuaranteeNotFound : Error := .new "guarantee not found"
def errInvalidAmount : Error := .new "left amount is greater than the guarantee amount"

/-! ## outcomes -/

structure Balance where
  destination : Destination
  amount : Int
  deriving DecidableEq

namespace Balance

def equal (b b2 : Balance) : Bool :=
  decide (b.destination = b2.destination) && decide (b.amount = b2.amount)

def clone (b : Balance) : Balance := { destination := b.destination, amount := b.amount }

def asAllocation (b : Balance) : Allocation where
  destination := b.destination
  amount := some b.amount
  allocationType := normalAllocationType
  metadata := []

end Balance

/-- the amount is an integer in an outcome and a `*big.Int` in a proposal -/
structure Guarantee (α : Type) where
  amount : α
  target : Destination
  left : Destination
  right : Destination
  deriving DecidableEq

namespace Guarantee

def asAllocation (g : Guarantee Int) : Allocation where
  destination := g.target
  amount := some g.amount
  allocationType := guaranteeAllocationType
  metadata := Abi.wordBytes g.left ++ Abi.wordBytes g.right

/-- the guarantee behind a wire value -/
def deref (g : Guarantee BigInt) : Res (Guarantee Int) := do
  let amount ← g.amount.deref
  .ok ⟨amount, g.target, g.left, g.right⟩

/-- the wire value of a guarantee -/
def wire (g : Guarantee Int) : Guarantee BigInt := ⟨some g.amount, g.target, g.left, g.right⟩

/-- `Clone`: a `nil` amount panics -/
def clone (g : Guarantee BigInt) : Res (Guarantee BigInt) := do
  let g ← g.deref
  .ok g.wire

/-- `equal` -/
def equal (g g2 : Guarantee BigInt) : Bool :=
  BigInt.equal g.amount g2.amount && decide (g.target = g2.target ∧ g.left = g2.left ∧
    g.right = g2.right)

theorem deref_wire (g : Guarantee Int) : g.wire.deref = .ok g := rfl

theorem deref_eq_ok {g : Guarantee BigInt} {g' : Guarantee Int} :
    g.deref = .ok g' ↔ g = g'.wire := by
  cases g with
  | mk amount target left right =>
    cases amount with
    | none => simp [deref, wire, BigInt.deref]
    | some n =>
      constructor
      · intro h; cases h; rfl
      · intro h; rw [h]; rfl

end Guarantee

structure LedgerOutcome where
  assetAddress : Address
  leader : Balance
  follower : Balance
  guarantees : Map Destination (Guarantee Int)
  deriving DecidableEq

namespace LedgerOutcome

def clone (o : LedgerOutcome) : LedgerOutcome where
  assetAddress := o.assetAddress
  leader := o.leader.clone
  follower := o.follower.clone
  guarantees := o.guarantees

@[simp] theorem clone_eq (o : LedgerOutcome) : o.clone = o := rfl

/-- `NewLedgerOutcome`: a later guarantee replaces an earlier one with the same target -/
def new (assetAddress : Address) (leader follower : Balance) (guarantees : List (Guarantee Int)) :
    LedgerOutcome where
  assetAddress := assetAddress
  leader := leader
  follower := follower
  guarantees := guarantees.foldl (fun m g => m.insert g.target g) ∅

def includesTarget (o : LedgerOutcome) (target : Destination) : Bool :=
  decide (target ∈ o.guarantees)

/-- `includes` -/
def includes (o : LedgerOutcome) (g : Guarantee BigInt) : Bool :=
  match o.guarantees.lookup g.target with
  | none => false
  | some existing =>
    decide (g.left = existing.left ∧ g.right = existing.right ∧ g.target = existing.target ∧
      some existing.amount = g.amount)

/-- `fundingTargets`, in no particular order -/
def fundingTargets (o : LedgerOutcome) : Finset Destination := o.guarantees.keys

/-- leader, follower, then the guarantees in the order of their keys: the source sorts by the hex
text of the keys, which has fixed length, so this is the numeric order -/
def asOutcome (o : LedgerOutcome) : Exit :=
  let keys := sortedKeys (· ≤ ·) o.guarantees
  let guarantees := keys.filterMap fun target =>
    (o.guarantees.lookup target).map Guarantee.asAllocation
  [{ asset := o.assetAddress, metadata := [],
     allocations := o.leader.asAllocation :: o.follower.asAllocation :: guarantees }]

end LedgerOutcome

structure Vars where
  turnNum : UInt64
  outcome : LedgerOutcome
  deriving DecidableEq

namespace Vars

def clone (v : Vars) : Vars := { turnNum := v.turnNum, outcome := v.outcome.clone }

@[simp] theorem clone_eq (v : Vars) : v.clone = v := rfl

def asState (v : Vars) (fp : FixedPart) : State where
  turnNum := v.turnNum
  outcome := v.outcome.asOutcome
  chainId := fp.chainId
  participants := fp.participants
  channelNonce := fp.channelNonce
  challengeDuration := fp.challengeDuration
  appData := []
  appDefinition := fp.appDefinition
  isFinal := false

end Vars

/-! ## proposals -/

structure Add where
  guarantee : Guarantee BigInt
  leftDeposit : BigInt
  deriving DecidableEq

structure Remove where
  target : Destination
  leftAmount : BigInt
  deriving DecidableEq

/-- the zero values of the structs -/
def Add.zero : Add := ⟨⟨none, 0, 0, 0⟩, none⟩
def Remove.zero : Remove := ⟨0, none⟩

structure Proposal where
  ledgerID : Destination
  toAdd : Add
  toRemove : Remove
  deriving DecidableEq

inductive ProposalType where
  | addProposal
  | removeProposal
  deriving DecidableEq

namespace Add

def clone (a : Add) : Res Add :=
  match a.leftDeposit with
  | none => .ok zero
  | some left => do
    let g ← a.guarantee.clone
    .ok ⟨g, some left⟩

def rightDeposit (a : Add) : Res Int := do
  let amount ← a.guarantee.amount.deref
  let left ← a.leftDeposit.deref
  .ok (amount - left)

def equal (a a2 : Add) : Bool :=
  a.guarantee.equal a2.guarantee && BigInt.equal a.leftDeposit a2.leftDeposit

end Add

namespace Remove

def clone (r : Remove) : Remove :=
  match r.leftAmount with
  | none => zero
  | some left => ⟨r.target, some left⟩

def equal (r r2 : Remove) : Bool :=
  decide (r.target = r2.target) && BigInt.equal r.leftAmount r2.leftAmount

end Remove

namespace Proposal

def clone (p : Proposal) : Res Proposal := do
  let toAdd ← p.toAdd.clone
  .ok ⟨p.ledgerID, toAdd, p.toRemove.clone⟩

/-- `Type`: whatever has a non-zero `ToAdd` is an `AddProposal` -/
def type (p : Proposal) : ProposalType :=
  if p.toAdd ≠ Add.zero then .addProposal else .removeProposal

def equal (p q : Proposal) : Bool :=
  decide (p.ledgerID = q.ledgerID) && p.toAdd.equal q.toAdd && p.toRemove.equal q.toRemove

theorem equal_eq {p q : Proposal} (h : p.equal q = true) : p = q := by
  obtain ⟨id, ⟨⟨amount, target, left, right⟩, deposit⟩, target', amount'⟩ := p
  obtain ⟨id₂, ⟨⟨amount₂, target₂, left₂, right₂⟩, deposit₂⟩, target₂', amount₂'⟩ := q
  simp only [equal, Add.equal, Remove.equal, Guarantee.equal, BigInt.equal, Bool.and_eq_true,
    decide_eq_true_eq] at h
  obtain ⟨⟨rfl, ⟨rfl, rfl, rfl, rfl⟩, rfl⟩, rfl, rfl⟩ := h
  rfl

def target (p : Proposal) : Destination :=
  match p.type with
  | .addProposal => p.toAdd.guarantee.target
  | .removeProposal => p.toRemove.target

end Proposal

def newAddProposal (ledgerID : Destination) (g : Guarantee BigInt) (leftDeposit : BigInt) :
    Proposal :=
  ⟨ledgerID, ⟨g, leftDeposit⟩, Remove.zero⟩

def newRemoveProposal (ledgerID target : Destination) (leftAmount : BigInt) : Proposal :=
  ⟨ledgerID, Add.zero, ⟨target, leftAmount⟩⟩

/-! ## applying a proposal -/

namespace Vars

def incTurn (v : Vars) : Vars := { v with turnNum := v.turnNum + 1 }

def creditLeader (v : Vars) (n : Int) : Vars :=
  { v with outcome.leader.amount := v.outcome.leader.amount + n }

def creditFollower (v : Vars) (n : Int) : Vars :=
  { v with outcome.follower.amount := v.outcome.follower.amount + n }

def setGuarantees (v : Vars) (m : Map Destination (Guarantee Int)) : Vars :=
  { v with outcome.guarantees := m }

/-- the checks of `Add`, in order -/
def addChecks (o : LedgerOutcome) (p : Add) : Res Unit := do
  failIf (p.guarantee.target ∈ o.guarantees) errDuplicateGuarantee
  failIf (← BigInt.gt p.leftDeposit p.guarantee.amount) errInvalidDeposit
  failIf (← BigInt.gt p.leftDeposit (some o.leader.amount)) errInsufficientFunds
  failIf (← BigInt.gt (some (← p.rightDeposit)) (some o.follower.amount)) errInsufficientFunds

def addEffects (p : Add) : Meth Vars Unit := do
  modify incTurn
  let leftDeposit ← liftM p.leftDeposit.deref
  modify (creditLeader · (-leftDeposit))
  let rightDeposit ← liftM p.rightDeposit
  modify (creditFollower · (-rightDeposit))
  let g ← liftM p.guarantee.deref
  modify fun v => v.setGuarantees (v.outcome.guarantees.insert g.target g)

def add (p : Add) : Meth Vars Unit := do
  let vars ← get
  liftM (addChecks vars.outcome p)
  addEffects p

/-- the checks of `Remove`; they find the guarantee -/
def removeChecks (o : LedgerOutcome) (p : Remove) : Res (Guarantee Int) :=
  match o.guarantees.lookup p.target with
  | none => .error (.err errGuaranteeNotFound)
  | some guarantee => do
    failIf (← BigInt.gt p.leftAmount (some guarantee.amount)) errInvalidAmount
    .ok guarantee

def removeEffects (p : Remove) (guarantee : Guarantee Int) : Meth Vars Unit := do
  modify incTurn
  let leftAmount ← liftM p.leftAmount.deref
  let rightAmount := guarantee.amount - leftAmount
  let vars ← get
  if vars.outcome.leader.destination = guarantee.left then
    modify (creditLeader · leftAmount)
    modify (creditFollower · rightAmount)
  else
    modify (creditLeader · rightAmount)
    modify (creditFollower · leftAmount)
  modify fun v => v.setGuarantees (v.outcome.guarantees.erase p.target)

def remove (p : Remove) : Meth Vars Unit := do
  let vars ← get
  let guarantee ← liftM (removeChecks vars.outcome p)
  removeEffects p guarantee

def handleProposal (p : Proposal) : Meth Vars Unit :=
  match p.type with
  | .addProposal => add p.toAdd
  | .removeProposal => remove p.toRemove

/-- a local copy of `v` after a call that did not fail -/
def handled (v : Vars) (p : Proposal) : Res Vars :=
  match handleProposal p v with
  | .ok _ v' => .ok v'
  | .error e _ => .error e

/-! ## what a proposal does -/

/-- `v` with the guarantee `g` funded by `left` from the leader and the rest from the follower -/
def funded (v : Vars) (g : Guarantee Int) (left : Int) : Vars :=
  ((v.incTurn.creditLeader (-left)).creditFollower (-(g.amount - left))).setGuarantees
    (v.outcome.guarantees.insert g.target g)

/-- what the leader gets back of a guarantee that pays `left` to its left participant -/
def leaderShare (o : LedgerOutcome) (g : Guarantee Int) (left : Int) : Int :=
  if o.leader.destination = g.left then left else g.amount - left

/-- `v` with the guarantee `g` for `target` paid back -/
def released (v : Vars) (target : Destination) (g : Guarantee Int) (left : Int) : Vars :=
  ((v.incTurn.creditLeader (leaderShare v.outcome g left)).creditFollower
    (g.amount - leaderShare v.outcome g left)).setGuarantees (v.outcome.guarantees.erase target)

inductive Step (v : Vars) : Proposal → Vars → Prop
  | add {id : Destination} {r : Remove} {g : Guarantee Int} {left : Int}
      (fresh : g.target ∉ v.outcome.guarantees) (hleft : left ≤ g.amount)
      (hleader : left ≤ v.outcome.leader.amount)
      (hfollower : g.amount - left ≤ v.outcome.follower.amount) :
      Step v ⟨id, ⟨g.wire, some left⟩, r⟩ (v.funded g left)
  | remove {id target : Destination} {g : Guarantee Int} {left : Int}
      (found : v.outcome.guarantees.lookup target = some g) (hleft : left ≤ g.amount) :
      Step v ⟨id, Add.zero, ⟨target, some left⟩⟩ (v.released target g left)

theorem addChecks_eq_ok {o : LedgerOutcome} {p : Add} :
    addChecks o p = .ok () ↔ ∃ (g : Guarantee Int) (left : Int), p = ⟨g.wire, some left⟩ ∧
      g.target ∉ o.guarantees ∧ left ≤ g.amount ∧
      left ≤ o.leader.amount ∧ g.amount - left ≤ o.follower.amount := by
  constructor
  · intro h
    obtain ⟨hfresh, h⟩ := failIf_bind_eq_ok.1 h
    obtain ⟨b₁, h₁, h⟩ := Res.bind_eq_ok.1 h
    obtain ⟨hb₁, h⟩ := failIf_bind_eq_ok.1 h
    obtain ⟨b₂, h₂, h⟩ := Res.bind_eq_ok.1 h
    obtain ⟨hb₂, h⟩ := failIf_bind_eq_ok.1 h
    obtain ⟨right, hr, hb₃⟩ := Res.bind_eq_ok.1 h
    obtain ⟨amount, ha, hr⟩ := Res.bind_eq_ok.1 hr
    obtain ⟨left, hl, hright⟩ := Res.bind_eq_ok.1 hr
    cases hright
    rw [BigInt.deref_eq_ok] at ha hl
    rw [ha, hl, BigInt.gt_some] at h₁
    rw [hl, BigInt.gt_some] at h₂
    cases h₁
    cases h₂
    refine ⟨⟨amount, p.guarantee.target, p.guarantee.left, p.guarantee.right⟩, left, ?_, hfresh,
      by simpa using hb₁, by simpa using hb₂, by simpa [BigInt.gt_some] using hb₃⟩
    cases p with
    | mk g l => cases g; cases ha; cases hl; rfl
  · rintro ⟨g, left, rfl, hfresh, h₁, h₂, h₃⟩
    refine failIf_bind_eq_ok.2 ⟨hfresh, failIf_bind_eq_ok.2 ⟨?_, failIf_bind_eq_ok.2 ⟨?_, ?_⟩⟩⟩
    · simpa using h₁
    · simpa using h₂
    · simpa [Add.rightDeposit, Guarantee.wire, BigInt.deref, BigInt.gt_some] using h₃

theorem addEffects_run (v : Vars) (g : Guarantee Int) (left : Int) :
    addEffects ⟨g.wire, some left⟩ v = .ok () (v.funded g left) := rfl

theorem add_run {p : Add} {v : Vars} (h : addChecks v.outcome p = .ok ()) :
    add p v = addEffects p v :=
  Meth.read_ok (f := fun v : Vars => addChecks v.outcome p) h

theorem add_cases (p : Add) (v : Vars) :
    (∃ (g : Guarantee Int) (left : Int), p = ⟨g.wire, some left⟩ ∧
      addChecks v.outcome p = .ok () ∧ add p v = .ok () (v.funded g left)) ∨
    ∃ e, addChecks v.outcome p = .error e ∧ add p v = .error e v := by
  cases hc : addChecks v.outcome p with
  | error e =>
    exact .inr ⟨e, rfl, Meth.read_error (f := fun v : Vars => addChecks v.outcome p) hc⟩
  | ok u =>
    obtain ⟨g, left, rfl, -⟩ := addChecks_eq_ok.1 hc
    exact .inl ⟨g, left, rfl, rfl, (add_run hc).trans (addEffects_run v g left)⟩

theorem removeChecks_eq_ok {o : LedgerOutcome} {p : Remove} {g : Guarantee Int} :
    removeChecks o p = .ok g ↔ o.guarantees.lookup p.target = some g ∧
      ∃ left, p.leftAmount = some left ∧ left ≤ g.amount := by
  unfold removeChecks
  cases hl : o.guarantees.lookup p.target with
  | none => simp
  | some g' =>
    cases ha : p.leftAmount with
    | none => simp [BigInt.gt]
    | some left =>
      simp only [BigInt.gt_some, Res.ok_bind, failIf_bind_eq_ok, decide_eq_true_eq, not_lt,
        Except.ok.injEq, Option.some.injEq]
      constructor
      · rintro ⟨hle, rfl⟩; exact ⟨rfl, left, rfl, hle⟩
      · rintro ⟨rfl, _, rfl, hle⟩; exact ⟨hle, rfl⟩

theorem removeEffects_run (v : Vars) (target : Destination) (g : Guarantee Int) (left : Int) :
    removeEffects ⟨target, some left⟩ g v = .ok () (v.released target g left) := by
  by_cases h : v.outcome.leader.destination = g.left
  all_goals
    simp [removeEffects, released, leaderShare, h, BigInt.deref, Meth.bind_run, Meth.modify_run,
      Meth.get_run, Meth.lift_ok, creditLeader, creditFollower, incTurn]

theorem remove_run {p : Remove} {v : Vars} {g : Guarantee Int}
    (h : removeChecks v.outcome p = .ok g) : remove p v = removeEffects p g v :=
  Meth.read_ok (f := fun v : Vars => removeChecks v.outcome p) h

theorem remove_cases (p : Remove) (v : Vars) :
    (∃ (g : Guarantee Int) (left : Int), p.leftAmount = some left ∧
      removeChecks v.outcome p = .ok g ∧ remove p v = .ok () (v.released p.target g left)) ∨
    ∃ e, removeChecks v.outcome p = .error e ∧ remove p v = .error e v := by
  cases hc : removeChecks v.outcome p with
  | error e =>
    exact .inr ⟨e, rfl, Meth.read_error (f := fun v : Vars => removeChecks v.outcome p) hc⟩
  | ok g =>
    obtain ⟨-, left, hleft, -⟩ := removeChecks_eq_ok.1 hc
    refine .inl ⟨g, left, hleft, rfl, (remove_run hc).trans ?_⟩
    cases p with
    | mk target leftAmount =>
      cases hleft
      exact removeEffects_run v target g left

/-- **a call takes the step of its proposal, or stops and leaves the `Vars` as they were** -/
theorem handleProposal_cases (p : Proposal) (v : Vars) :
    (∃ v', v.Step p v' ∧ handleProposal p v = .ok () v') ∨
    ∃ e, handleProposal p v = .error e v := by
  cases p with
  | mk id a r =>
    by_cases hz : a = Add.zero
    · have ht : handleProposal ⟨id, a, r⟩ = remove r := by simp [handleProposal, Proposal.type, hz]
      rw [ht]
      subst hz
      rcases remove_cases r v with ⟨g, left, hleft, hc, hrun⟩ | ⟨e, -, hrun⟩
      · obtain ⟨found, left', hleft', hle⟩ := removeChecks_eq_ok.1 hc
        cases r with
        | mk target leftAmount =>
          cases hleft
          cases hleft'
          exact .inl ⟨_, .remove found hle, hrun⟩
      · exact .inr ⟨e, hrun⟩
    · have ht : handleProposal ⟨id, a, r⟩ = add a := by simp [handleProposal, Proposal.type, hz]
      rw [ht]
      rcases add_cases a v with ⟨g, left, rfl, hc, hrun⟩ | ⟨e, -, hrun⟩
      · obtain ⟨g', left', e, fresh, h₁, h₂, h₃⟩ := addChecks_eq_ok.1 hc
        obtain ⟨rfl, rfl⟩ : g' = g ∧ left' = left := by
          cases g; cases g'; cases e; exact ⟨rfl, rfl⟩
        exact .inl ⟨_, .add fresh h₁ h₂ h₃, hrun⟩
      · exact .inr ⟨e, hrun⟩

theorem Step.handleProposal {p : Proposal} {v v' : Vars} (h : v.Step p v') :
    Vars.handleProposal p v = .ok () v' := by
  cases h with
  | @add id r g left fresh h₁ h₂ h₃ =>
    have ht : Vars.handleProposal ⟨id, ⟨g.wire, some left⟩, r⟩ = Vars.add ⟨g.wire, some left⟩ := by
      simp [Vars.handleProposal, Proposal.type, Add.zero]
    have hc := addChecks_eq_ok.2 ⟨g, left, rfl, fresh, h₁, h₂, h₃⟩
    rw [ht]
    exact (add_run hc).trans (addEffects_run v g left)
  | @remove id target g left found hle =>
    have ht : Vars.handleProposal ⟨id, Add.zero, ⟨target, some left⟩⟩ =
        Vars.remove ⟨target, some left⟩ := by
      simp [Vars.handleProposal, Proposal.type]
    have hc : removeChecks v.outcome ⟨target, some left⟩ = .ok g :=
      removeChecks_eq_ok.2 ⟨found, left, rfl, hle⟩
    rw [ht]
    exact (remove_run hc).trans (removeEffects_run v target g left)

theorem handled_eq_ok {p : Proposal} {v v' : Vars} : v.handled p = .ok v' ↔ v.Step p v' := by
  unfold handled
  constructor
  · intro h
    rcases handleProposal_cases p v with ⟨w, hstep, hrun⟩ | ⟨e, hrun⟩
    · rw [hrun] at h
      cases h
      exact hstep
    · rw [hrun] at h
      cases h
  · intro h
    rw [h.handleProposal]

theorem Step.det {p : Proposal} {v w w' : Vars} (h : v.Step p w) (h' : v.Step p w') : w = w' :=
  Except.ok.inj ((handled_eq_ok.2 h).symm.trans (handled_eq_ok.2 h'))

theorem Step.turnNum {p : Proposal} {v v' : Vars} (h : v.Step p v') :
    v'.turnNum = v.turnNum + 1 := by
  cases h <;> rfl

end Vars

end Nitro
