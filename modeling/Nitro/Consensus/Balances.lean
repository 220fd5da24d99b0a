import Nitro.Consensus.Steps

/-!
# The money in a ledger

* `Vars.totalFunds`                   both balances and all guarantees;
* `ledger_funds_conserved`            no proposal and no call changes it;
* `Vars.remove_undoes_add_iff`        when a removal undoes an addition;
* `Vars.NonNeg`                       no negative balance and no negative guarantee;
* `Vars.Step.nonNeg_iff`              the proposals that keep it: the checks of the code do not
                                      reject a negative guarantee, nor a negative `LeftAmount`;
* `nonNeg_of_safe_run`                runs whose proposals are all of that kind keep it.
-/

set_option linter.unusedSectionVars false

namespace Nitro
open Go FinMap Runs

namespace Vars

/-! ## conservation -/

def totalFunds (v : Vars) : Int :=
  v.outcome.leader.amount + v.outcome.follower.amount +
    total Guarantee.amount v.outcome.guarantees

theorem totalFunds_funded {v : Vars} {g : Guarantee Int} (left : Int)
    (fresh : g.target ∉ v.outcome.guarantees) : (v.funded g left).totalFunds = v.totalFunds := by
  show v.outcome.leader.amount + -left + (v.outcome.follower.amount + -(g.amount - left)) +
    total Guarantee.amount (v.outcome.guarantees.insert g.target g) = _
  rw [total_insert g fresh, totalFunds]
  omega

theorem totalFunds_released {v : Vars} {target : Destination} {g : Guarantee Int} (left : Int)
    (found : v.outcome.guarantees.lookup target = some g) :
    (v.released target g left).totalFunds = v.totalFunds := by
  show v.outcome.leader.amount + leaderShare v.outcome g left +
    (v.outcome.follower.amount + (g.amount - leaderShare v.outcome g left)) +
    total Guarantee.amount (v.outcome.guarantees.erase target) = _
  rw [totalFunds, total_erase found]
  omega

theorem Step.totalFunds {p : Proposal} {v v' : Vars} (h : v.Step p v') :
    v'.totalFunds = v.totalFunds := by
  cases h with
  | add fresh => exact totalFunds_funded _ fresh
  | remove found => exact totalFunds_released _ found

/-- the `Vars` after an attempt to apply a proposal -/
def attempt (v : Vars) (p : Proposal) : Vars := (handleProposal p).after v

theorem totalFunds_attempt (v : Vars) (p : Proposal) : (v.attempt p).totalFunds = v.totalFunds := by
  unfold attempt
  rcases handleProposal_cases p v with ⟨v', hstep, hrun⟩ | ⟨e, hrun⟩
  · rw [Meth.after_ok hrun]
    exact hstep.totalFunds
  · rw [Meth.after_error hrun]

theorem handleQueue_totalFunds {v w : Vars} {q : List SignedProposal}
    (h : v.handleQueue q = .ok w) : w.totalFunds = v.totalFunds := by
  induction q generalizing v with
  | nil =>
    cases h
    rfl
  | cons p q ih =>
    obtain ⟨v', hstep, hq⟩ := handleQueue_cons_ok h
    rw [ih hq, hstep.totalFunds]

theorem handleQueue_turnNum {v w : Vars} {q : List SignedProposal}
    (h : v.handleQueue q = .ok w) : w.turnNum = v.turnNum + UInt64.ofNat q.length := by
  induction q generalizing v with
  | nil =>
    cases h
    simp
  | cons p q ih =>
    obtain ⟨v', hstep, hq⟩ := handleQueue_cons_ok h
    rw [ih hq, hstep.turnNum, List.length_cons, UInt64.ofNat_add]
    simp [UInt64.add_assoc, UInt64.add_comm 1]

end Vars

namespace ConsensusChannel

theorem queueAll_totalFunds_step (cr : Crypto) (T : Int) (c : ConsensusChannel) (op : Op)
    (h : QueueAll (fun v => v.totalFunds = T) c) :
    QueueAll (fun v => v.totalFunds = T) (op.step cr c) := by
  rcases Op.step_cases cr c op with e | hc
  · rwa [e]
  · exact hc.queueAll h fun _ _ _ _ _ hT hstep => hstep.totalFunds.trans hT

/-- the proposals `moved` left the queue for the consensus, and `added` joined the queue -/
structure Moves (c : ConsensusChannel) (moved added : List SignedProposal)
    (c' : ConsensusChannel) : Prop where
  queue : c.proposalQueue ++ added = moved ++ c'.proposalQueue
  one : added.length ≤ 1
  consensus : c.current.vars.handleQueue moved = .ok c'.current.vars
  consensusTurn : c'.current.vars.turnNum = c.current.vars.turnNum + UInt64.ofNat moved.length
  latestTurn : ∀ latest, c.latestProposedVars = .ok latest → ∃ latest',
    c'.latestProposedVars = .ok latest' ∧
      latest'.turnNum = latest.turnNum + UInt64.ofNat added.length

theorem Moves.refl (c : ConsensusChannel) : Moves c [] [] c where
  queue := by simp
  one := by simp
  consensus := rfl
  consensusTurn := by simp
  latestTurn := fun latest h => ⟨latest, h, by simp⟩

theorem Change.moves {cr : Crypto} {c c' : ConsensusChannel} {o : Option Proposal}
    (hc : Change cr c o c') : ∃ moved added, Moves c moved added c' := by
  cases hc with
  | @enqueue sp latest latest' leader hlatest hstep =>
    refine ⟨[], [sp], rfl, Nat.le_refl 1, rfl, by simp, fun latest₁ h₁ => ?_⟩
    obtain rfl : latest₁ = latest := Except.ok.inj (h₁.symm.trans hlatest)
    exact ⟨latest', Vars.handleQueue_snoc hlatest hstep, hstep.turnNum⟩
  | @advance done rest last w w' sig follower hqueue hdone hstep =>
    have hmoved : c.current.vars.handleQueue (done ++ [last]) = .ok w' :=
      Vars.handleQueue_snoc hdone hstep
    refine ⟨done ++ [last], [], by simp [hqueue], Nat.zero_le 1, hmoved,
      Vars.handleQueue_turnNum hmoved, fun latest h => ⟨latest, ?_, by simp⟩⟩
    exact (latestProposedVars_advance hqueue hdone hstep).trans h

theorem Op.call_moves (cr : Crypto) (c : ConsensusChannel) (op : Op) :
    (∃ c' moved added, op.call cr c = .ok () c' ∧ Moves c moved added c') ∨
    ∃ e, op.call cr c = .error e c := by
  rcases Op.call_cases cr c op with ⟨c', hrun, rfl | hc⟩ | ⟨e, hrun⟩
  · exact .inl ⟨c', [], [], hrun, Moves.refl c'⟩
  · obtain ⟨moved, added, hm⟩ := hc.moves
    exact .inl ⟨c', moved, added, hrun, hm⟩
  · exact .inr ⟨e, hrun⟩

/-- **conservation of ledger funds**: a proposal that is applied keeps the total and raises the turn
number by one, and one that is refused changes nothing; so do runs of proposals, and so do runs of
calls for all the `Vars` that a channel stands for -/
theorem ledger_funds_conserved (cr : Crypto) :
    (∀ (p : Proposal) (v : Vars),
      (∃ v', Vars.handleProposal p v = .ok () v' ∧ v'.totalFunds = v.totalFunds ∧
        v'.turnNum = v.turnNum + 1) ∨
      ∃ e, Vars.handleProposal p v = .error e v) ∧
    (∀ (ps : List Proposal) (v : Vars), (run Vars.attempt v ps).totalFunds = v.totalFunds) ∧
    (∀ (ops : List Op) (c : ConsensusChannel),
      QueueAll (fun v => v.totalFunds = c.current.vars.totalFunds) (run (Op.step cr) c ops)) ∧
    ∀ (op : Op) (c : ConsensusChannel),
      (∃ c' moved added, op.call cr c = .ok () c' ∧ Moves c moved added c') ∨
      ∃ e, op.call cr c = .error e c := by
  refine ⟨fun p v => ?_, fun ps v => ?_, fun ops c => ?_, fun op c => Op.call_moves cr c op⟩
  · rcases Vars.handleProposal_cases p v with ⟨v', hstep, hrun⟩ | hfail
    · exact .inl ⟨v', hrun, hstep.totalFunds, hstep.turnNum⟩
    · exact .inr hfail
  · have hinv : ∀ (w : Vars) (p : Proposal), w.totalFunds = v.totalFunds →
        (w.attempt p).totalFunds = v.totalFunds :=
      fun w p h => (Vars.totalFunds_attempt w p).trans h
    exact run_inv (I := fun w : Vars => w.totalFunds = v.totalFunds) hinv rfl
  · refine run_inv (queueAll_totalFunds_step cr _) ?_
    exact fun q v _ hv => Vars.handleQueue_totalFunds hv

end ConsensusChannel

/-! ## adding a guarantee and removing it again -/

namespace Vars

/-- one of the two parties stands on the left of the guarantee, the other on the right -/
def Spans (o : LedgerOutcome) (g : Guarantee Int) : Prop :=
  g.left = o.leader.destination ∧ g.right = o.follower.destination ∨
    g.left = o.follower.destination ∧ g.right = o.leader.destination

/-- the party on the left has paid `left` and the one on the right the rest of the guarantee -/
def EachPaid (o o' : LedgerOutcome) (g : Guarantee Int) (left : Int) : Prop :=
  (g.left = o.leader.destination ∧ g.right = o.follower.destination ∧
    o'.leader.amount = o.leader.amount - left ∧
    o'.follower.amount = o.follower.amount - (g.amount - left)) ∨
  (g.left = o.follower.destination ∧ g.right = o.leader.destination ∧
    o'.follower.amount = o.follower.amount - left ∧
    o'.leader.amount = o.leader.amount - (g.amount - left))

theorem add_eq_ok {v v' : Vars} {g : Guarantee Int} {left : Int}
    (h : add ⟨g.wire, some left⟩ v = .ok () v') :
    v' = v.funded g left ∧ g.target ∉ v.outcome.guarantees ∧ left ≤ g.amount := by
  rcases add_cases ⟨g.wire, some left⟩ v with ⟨g', left', heq, hchecks, hrun⟩ | ⟨e, -, hrun⟩
  · obtain ⟨rfl, rfl⟩ : g = g' ∧ left = left' := by
      cases g; cases g'; cases heq; exact ⟨rfl, rfl⟩
    obtain ⟨g'', left'', heq, hfresh, hle, -⟩ := addChecks_eq_ok.1 hchecks
    obtain ⟨rfl, rfl⟩ : g = g'' ∧ left = left'' := by
      cases g; cases g''; cases heq; exact ⟨rfl, rfl⟩
    rw [hrun] at h
    cases h
    exact ⟨rfl, hfresh, hle⟩
  · rw [hrun] at h
    cases h

theorem remove_funded {v : Vars} {g : Guarantee Int} {left : Int} (hle : left ≤ g.amount) :
    remove ⟨g.target, some left⟩ (v.funded g left) =
      .ok () ((v.funded g left).released g.target g left) := by
  have hfound : (v.funded g left).outcome.guarantees.lookup g.target = some g :=
    Finmap.lookup_insert _
  have hchecks : removeChecks (v.funded g left).outcome ⟨g.target, some left⟩ = .ok g :=
    removeChecks_eq_ok.2 ⟨hfound, left, rfl, hle⟩
  exact (remove_run hchecks).trans (removeEffects_run _ g.target g left)

theorem erase_insert {m : Map Destination (Guarantee Int)} {g : Guarantee Int}
    (hfresh : g.target ∉ m) : (m.insert g.target g).erase g.target = m := by
  refine Finmap.ext_lookup fun k => ?_
  by_cases hk : k = g.target
  · rw [hk, Finmap.lookup_erase, Finmap.lookup_eq_none.2 hfresh]
  · rw [Finmap.lookup_erase_ne hk, Finmap.lookup_insert_of_ne _ hk]

theorem released_funded {v : Vars} {g : Guarantee Int} {left : Int}
    (hfresh : g.target ∉ v.outcome.guarantees) :
    ((v.funded g left).released g.target g left).outcome = v.outcome ↔
      leaderShare v.outcome g left = left := by
  have hguarantees := erase_insert hfresh
  obtain ⟨turnNum, ⟨asset, ⟨leader, l⟩, ⟨follower, f⟩, gs⟩⟩ := v
  have hshare : leaderShare (funded ⟨turnNum, ⟨asset, ⟨leader, l⟩, ⟨follower, f⟩, gs⟩⟩ g
      left).outcome g left = leaderShare ⟨asset, ⟨leader, l⟩, ⟨follower, f⟩, gs⟩ g left := rfl
  show LedgerOutcome.mk asset ⟨leader, l + -left + leaderShare _ g left⟩
      ⟨follower, f + -(g.amount - left) + (g.amount - leaderShare _ g left)⟩
      ((gs.insert g.target g).erase g.target) = _ ↔ _
  rw [hshare, hguarantees]
  simp only [LedgerOutcome.mk.injEq, Balance.mk.injEq, true_and, and_true]
  omega

/-- **each side pays its own deposit, and removing undoes adding**, exactly when the leader stands on
the left or both deposits are the same -/
theorem remove_undoes_add_iff {v v' : Vars} {g : Guarantee Int} {left : Int}
    (hbetween : Spans v.outcome g) (hadd : add ⟨g.wire, some left⟩ v = .ok () v') :
    (EachPaid v.outcome v'.outcome g left ∧
      ∃ v'', remove ⟨g.target, some left⟩ v' = .ok () v'' ∧ v''.outcome = v.outcome) ↔
    g.left = v.outcome.leader.destination ∨ 2 * left = g.amount := by
  obtain ⟨rfl, hfresh, hle⟩ := add_eq_ok hadd
  have hrestored : (∃ v'', remove ⟨g.target, some left⟩ (v.funded g left) = .ok () v'' ∧
      v''.outcome = v.outcome) ↔ leaderShare v.outcome g left = left := by
    rw [remove_funded hle, ← released_funded hfresh]
    constructor
    · rintro ⟨v'', hrun, hsame⟩
      cases hrun
      exact hsame
    · exact fun hsame => ⟨_, rfl, hsame⟩
  rw [hrestored]
  have hleader : (v.funded g left).outcome.leader.amount = v.outcome.leader.amount + -left := rfl
  have hfollower : (v.funded g left).outcome.follower.amount =
    v.outcome.follower.amount + -(g.amount - left) := rfl
  unfold EachPaid leaderShare
  rw [hleader, hfollower]
  constructor
  · rintro ⟨⟨hleft, -⟩ | ⟨-, -, hpaid, -⟩, -⟩
    · exact .inl hleft
    · right
      omega
  · intro h
    rcases hbetween with ⟨hleft, hright⟩ | ⟨hleft, hright⟩
    · rw [if_pos hleft.symm]
      exact ⟨.inl ⟨hleft, hright, by omega, by omega⟩, rfl⟩
    · rcases h with hlead | hhalf
      · have hright : g.right = v.outcome.follower.destination := by
          rw [hright, ← hlead, hleft]
        rw [if_pos hlead.symm]
        exact ⟨.inl ⟨hlead, hright, by omega, by omega⟩, rfl⟩
      · refine ⟨.inr ⟨hleft, hright, by omega, by omega⟩, ?_⟩
        split <;> omega

/-- the leader of the sample ledger stands on the left -/
theorem remove_undoes_add_leader :
    EachPaid Sample.start.outcome (Sample.start.funded ⟨5, 3, 1, 2⟩ 4).outcome ⟨5, 3, 1, 2⟩ 4 ∧
      ∃ v'', remove ⟨3, some 4⟩ (Sample.start.funded ⟨5, 3, 1, 2⟩ 4) = .ok () v'' ∧
        v''.outcome = Sample.start.outcome :=
  (@remove_undoes_add_iff Sample.start _ ⟨5, 3, 1, 2⟩ 4 (.inl ⟨rfl, rfl⟩) (by decide +kernel)).2
    (.inl rfl)

/-- **the follower stands on the left**, and the leader pays what the left side should pay; the
removal gives it to the follower -/
theorem add_debits_wrong_side :
    (add ⟨⟨some 5, 3, 2, 1⟩, some 5⟩).after Sample.start =
        Sample.start.funded ⟨5, 3, 2, 1⟩ 5 ∧
      (Sample.start.funded ⟨5, 3, 2, 1⟩ 5).outcome.leader.amount = 95 ∧
      (Sample.start.funded ⟨5, 3, 2, 1⟩ 5).outcome.follower.amount = 100 ∧
      ((remove ⟨3, some 5⟩).after (Sample.start.funded ⟨5, 3, 2, 1⟩ 5)).outcome =
        LedgerOutcome.new 0 ⟨1, 95⟩ ⟨2, 105⟩ [] := by
  decide +kernel

end Vars

/-! ## negative amounts -/

structure LedgerOutcome.NonNeg (o : LedgerOutcome) : Prop where
  leader : 0 ≤ o.leader.amount
  follower : 0 ≤ o.follower.amount
  guarantees : ∀ target g, o.guarantees.lookup target = some g → 0 ≤ g.amount

namespace Vars

def NonNeg (v : Vars) : Prop := v.outcome.NonNeg

/-- the balance that `Remove` credits with `LeftAmount` -/
def leftBalance (o : LedgerOutcome) (g : Guarantee Int) : Int :=
  if o.leader.destination = g.left then o.leader.amount else o.follower.amount

/-- an `Add` with a non-negative amount, or a `Remove` whose `LeftAmount` does not overdraw the
balance it is credited to -/
def Safe (v : Vars) (p : Proposal) : Prop :=
  match p.type with
  | .addProposal => ∀ amount, p.toAdd.guarantee.amount = some amount → 0 ≤ amount
  | .removeProposal => ∀ g left, v.outcome.guarantees.lookup p.toRemove.target = some g →
      p.toRemove.leftAmount = some left → 0 ≤ leftBalance v.outcome g + left

theorem safe_add {v : Vars} {id : Destination} {r : Remove} {g : Guarantee Int} {left : Int} :
    v.Safe ⟨id, ⟨g.wire, some left⟩, r⟩ ↔ 0 ≤ g.amount := by
  have ht : Proposal.type ⟨id, ⟨g.wire, some left⟩, r⟩ = .addProposal := by
    simp [Proposal.type, Add.zero]
  unfold Safe
  rw [ht]
  simp [Guarantee.wire]

theorem safe_remove {v : Vars} {id target : Destination} {g : Guarantee Int} {left : Int}
    (found : v.outcome.guarantees.lookup target = some g) :
    v.Safe ⟨id, Add.zero, ⟨target, some left⟩⟩ ↔ 0 ≤ leftBalance v.outcome g + left := by
  have ht : Proposal.type ⟨id, Add.zero, ⟨target, some left⟩⟩ = .removeProposal := by
    simp [Proposal.type]
  unfold Safe
  rw [ht]
  simp [found]

theorem nonNeg_funded {v : Vars} {g : Guarantee Int} {left : Int} (h : v.NonNeg)
    (hleader : left ≤ v.outcome.leader.amount)
    (hfollower : g.amount - left ≤ v.outcome.follower.amount) :
    (v.funded g left).NonNeg ↔ 0 ≤ g.amount := by
  constructor
  · intro h'
    exact h'.guarantees g.target g (Finmap.lookup_insert _)
  · intro hg
    refine ⟨?_, ?_, fun target g' hl => ?_⟩
    · show 0 ≤ v.outcome.leader.amount + -left
      omega
    · show 0 ≤ v.outcome.follower.amount + -(g.amount - left)
      omega
    · have hl : (v.outcome.guarantees.insert g.target g).lookup target = some g' := hl
      by_cases e : target = g.target
      · rw [e, Finmap.lookup_insert] at hl
        cases hl
        exact hg
      · rw [Finmap.lookup_insert_of_ne _ e] at hl
        exact h.guarantees target g' hl

theorem nonNeg_released {v : Vars} {target : Destination} {g : Guarantee Int} {left : Int}
    (h : v.NonNeg) (hleft : left ≤ g.amount) :
    (v.released target g left).NonNeg ↔ 0 ≤ leftBalance v.outcome g + left := by
  have hl := h.leader
  have hf := h.follower
  have hsame : ∀ target' g', (v.released target g left).outcome.guarantees.lookup target' = some g' →
      0 ≤ g'.amount := by
    intro target' g' hlook
    have hlook : (v.outcome.guarantees.erase target).lookup target' = some g' := hlook
    by_cases e : target' = target
    · rw [e, Finmap.lookup_erase] at hlook
      cases hlook
    · rw [Finmap.lookup_erase_ne e] at hlook
      exact h.guarantees target' g' hlook
  have hlead : (v.released target g left).outcome.leader.amount =
      v.outcome.leader.amount + leaderShare v.outcome g left := rfl
  have hfoll : (v.released target g left).outcome.follower.amount =
      v.outcome.follower.amount + (g.amount - leaderShare v.outcome g left) := rfl
  by_cases e : v.outcome.leader.destination = g.left
  · rw [leftBalance, if_pos e]
    rw [leaderShare, if_pos e] at hlead hfoll
    constructor
    · intro h'
      have := h'.leader
      omega
    · intro hb
      exact ⟨by omega, by omega, hsame⟩
  · rw [leftBalance, if_neg e]
    rw [leaderShare, if_neg e] at hlead hfoll
    constructor
    · intro h'
      have := h'.follower
      omega
    · intro hb
      exact ⟨by omega, by omega, hsame⟩

/-- **exactly the safe proposals keep money non-negative** -/
theorem Step.nonNeg_iff {p : Proposal} {v v' : Vars} (hstep : v.Step p v') (h : v.NonNeg) :
    v'.NonNeg ↔ v.Safe p := by
  cases hstep with
  | add fresh hleft hleader hfollower =>
    rw [safe_add]
    exact nonNeg_funded h hleader hfollower
  | remove found hleft =>
    rw [safe_remove found]
    exact nonNeg_released h hleft

end Vars

namespace ConsensusChannel

/-- the proposal that a call offers is safe on top of the latest proposed `Vars` -/
def Op.Safe (c : ConsensusChannel) (op : Op) : Prop :=
  ∀ p latest, op.offered c = some p → c.latestProposedVars = .ok latest → latest.Safe p

def Solvent (c : ConsensusChannel) : Prop :=
  QueueAll Vars.NonNeg c ∧ ∃ latest, c.latestProposedVars = .ok latest

theorem Op.solvent_step (cr : Crypto) (c : ConsensusChannel) (op : Op) (h : Solvent c)
    (hsafe : op.Safe c) : Solvent (op.step cr c) := by
  rcases Op.step_cases cr c op with e | hc
  · rwa [e]
  · refine ⟨hc.queueAll h.1 fun p latest latest' ho hl hn hstep => ?_, hc.latestProposedVars h.2⟩
    exact (hstep.nonNeg_iff hn).2 (hsafe p latest ho hl)

/-- **no negative money in a ledger**, in runs whose calls only offer safe proposals -/
theorem nonNeg_of_safe_run {cr : Crypto} {fp : FixedPart} {i : Nat} {turn : UInt64}
    {o : LedgerOutcome} {sigs : Signature × Signature} {c : ConsensusChannel} {ops : List Op}
    (hnew : newConsensusChannel cr fp i turn o sigs = .ok c) (ho : o.NonNeg)
    (hsafe : Along (Op.step cr) Op.Safe c ops) :
    (run (Op.step cr) c ops).current.vars.NonNeg ∧
    ∃ latest, (run (Op.step cr) c ops).latestProposedVars = .ok latest ∧ latest.NonNeg := by
  obtain ⟨-, -, -, hq, hcur, -⟩ := newConsensusChannel_ok hnew
  have hinit : Solvent c := by
    have hl : c.latestProposedVars = .ok ⟨turn, o⟩ := by
      rw [latestProposedVars, hq, hcur]
      rfl
    refine ⟨fun q v hpre hv => ?_, _, hl⟩
    rw [hq, List.prefix_nil] at hpre
    subst hpre
    cases hv
    rw [hcur]
    exact ho
  obtain ⟨hall, latest, hl⟩ := Along.inv (Op.solvent_step cr) hinit hsafe
  exact ⟨hall.current, latest, hl, hall.latest hl⟩

theorem sample_outcome_nonNeg : Sample.outcome.NonNeg where
  leader := by decide
  follower := by decide
  guarantees := by
    intro target g h
    cases (Finmap.lookup_empty target).symm.trans h

theorem nonNeg_sample_run :
    (run (Op.step Crypto.plain) (Sample.ledger leaderIndex)
      [.propose (Sample.addOf 5) (Sample.key 1)]).current.vars.NonNeg ∧
    ∃ latest, (run (Op.step Crypto.plain) (Sample.ledger leaderIndex)
      [.propose (Sample.addOf 5) (Sample.key 1)]).latestProposedVars = .ok latest ∧
        latest.NonNeg := by
  refine nonNeg_of_safe_run Sample.new_leader sample_outcome_nonNeg ⟨?_, trivial⟩
  intro p latest hp hl
  have he : p = Sample.addOf 5 := (Option.some.inj hp).symm
  rw [he]
  exact (Vars.safe_add (g := ⟨5, 3, 1, 2⟩)).2 (by decide)

/-- a negative guarantee passes every check of `Propose` -/
theorem negative_guarantee_proposed :
    ∃ c latest, newConsensusChannel Crypto.plain Sample.fp leaderIndex 0 Sample.outcome
        (Sample.sig Sample.start 1, Sample.sig Sample.start 2) = .ok c ∧
      Sample.outcome.NonNeg ∧
      (run (Op.step Crypto.plain) c
        [.propose (Sample.addOf (-5)) (Sample.key 1)]).latestProposedVars = .ok latest ∧
      ¬ latest.NonNeg := by
  refine ⟨Sample.ledger leaderIndex, Sample.start.funded ⟨-5, 3, 1, 2⟩ (-5), Sample.new_leader,
    sample_outcome_nonNeg, by decide +kernel, fun h => ?_⟩
  exact absurd (h.guarantees 3 ⟨-5, 3, 1, 2⟩ rfl) (by decide)

end ConsensusChannel

end Nitro
