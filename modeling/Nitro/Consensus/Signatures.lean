import Nitro.Consensus.Steps

/-!
# What a channel signs with its own key

The leader signs the latest proposed `Vars`, the follower the consensus.  Each signature builds on
the one before, so the signatures of a run are a chain of proposals, whatever the peer sends in
between.

* `Op.signs`, `signatures`     the turn number and `Vars` that a call signs, and those of a run;
* `base`                       the `Vars` that the next signature builds on;
* `Op.base_step`               **a call signs a successor of the base, or leaves the base alone**;
* `signatures_increasing`      the turn numbers of a run's signatures (`signatures_le_base`);
* `ledger_no_equivocation`     no two `Vars` with one turn number.
-/

set_option linter.unusedSectionVars false

namespace Nitro
open Go FinMap Runs

namespace ConsensusChannel
variable {cr : Crypto} {c : ConsensusChannel}

/-- the turn number that the call returns with its signature, and the `Vars` it signed -/
def Op.signs (cr : Crypto) (c : ConsensusChannel) : Op → Option (UInt64 × Vars)
  | .propose p sk =>
    match c.signedProposal cr p sk with
    | .ok signed =>
      (c.latestProposedVars >>= fun vars => vars.handled p).toOption.map (signed.turnNum, ·)
    | .error _ => none
  | .receive _ => none
  | .signNextProposal p sk =>
    match c.nextConsensus cr p sk with
    | .ok (current, _, countersigned) => some (countersigned.turnNum, current.vars)
    | .error _ => none

def signatures (cr : Crypto) : ConsensusChannel → List Op → List (UInt64 × Vars)
  | _, [] => []
  | c, op :: ops => (op.signs cr c).toList ++ signatures cr (op.step cr c) ops

/-- what the next signature of the channel builds on; a leader's queue may fail to apply -/
def base (c : ConsensusChannel) : Res Vars :=
  if c.myIndex = leaderIndex then c.latestProposedVars else .ok c.current.vars

theorem base_leader (h : c.myIndex = leaderIndex) : base c = c.latestProposedVars := if_pos h

theorem base_other (h : c.myIndex ≠ leaderIndex) : base c = .ok c.current.vars := if_neg h

/-! ## one call -/

theorem Change.enqueued {o : Option Proposal} {c' : ConsensusChannel} (hc : Change cr c o c')
    {p : Proposal} (ho : o = some p) : c'.myIndex = c.myIndex ∧ c'.current = c.current := by
  cases hc with
  | enqueue => exact ⟨rfl, rfl⟩
  | advance => cases ho

theorem Change.advanced {o : Option Proposal} {c' : ConsensusChannel} (hc : Change cr c o c')
    (ho : o = none) :
    c'.myIndex = c.myIndex ∧ c'.latestProposedVars = c.latestProposedVars := by
  cases hc with
  | enqueue => cases ho
  | advance hqueue hdone hstep => exact ⟨rfl, latestProposedVars_advance hqueue hdone hstep⟩

theorem offered_follower {sp : SignedProposal} (h : c.myIndex = followerIndex) :
    Op.offered c (.receive sp) = some sp.proposal := by
  simp [Op.offered, isFollower, h]

theorem offered_leader {sp : SignedProposal} (h : c.myIndex = leaderIndex) :
    Op.offered c (.receive sp) = none := by
  simp [Op.offered, isFollower, h, leaderIndex, followerIndex]

theorem not_leader (h : c.myIndex = followerIndex) : c.myIndex ≠ leaderIndex := by
  rw [h]
  decide

/-- signing nothing leaves the base, and what is signed is the next base -/
inductive Signs (c c' : ConsensusChannel) : Option (UInt64 × Vars) → Prop
  | nothing (hbase : base c' = base c) : Signs c c' none
  | successor {p : Proposal} {v v' : Vars} (hbase : base c = .ok v) (hstep : v.Step p v')
      (hnext : base c' = .ok v') : Signs c c' (some (v'.turnNum, v'))

theorem Op.signs_propose (p : Proposal) (sk : Bytes) (c : ConsensusChannel) :
    Signs c (Op.step cr c (.propose p sk)) (Op.signs cr c (.propose p sk)) := by
  rcases propose_cases cr p sk c with ⟨sp, hsp, hrun⟩ | ⟨e, hsp, hrun⟩
  · obtain ⟨latest, latest', -, hrole, -, hl, hstep, -, -, -, hp, ht⟩ := signedProposal_ok hsp
    have hafter : Op.step cr c (.propose p sk) =
        { c with proposalQueue := c.proposalQueue ++ [sp] } := Meth.after_ok (Meth.bind_ok hrun)
    have hsigned : Op.signs cr c (.propose p sk) = some (latest'.turnNum, latest') := by
      simp only [Op.signs, hsp, hl, ht, Res.ok_bind, Vars.handled_eq_ok.2 hstep]
      rfl
    rw [hafter, hsigned]
    refine .successor ((base_leader hrole).trans hl) hstep ((base_leader (by exact hrole)).trans ?_)
    exact Vars.handleQueue_snoc hl (hp.symm ▸ hstep)
  · have hafter : Op.step cr c (.propose p sk) = c := Meth.after_error (Meth.bind_error hrun)
    have hsigned : Op.signs cr c (.propose p sk) = none := by simp only [Op.signs, hsp]
    rw [hafter, hsigned]
    exact .nothing rfl

/-- nothing that arrives changes what the next signature builds on -/
theorem Op.signs_receive (sp : SignedProposal) (c : ConsensusChannel) :
    Signs c (Op.step cr c (.receive sp)) (Op.signs cr c (.receive sp)) := by
  refine .nothing ?_
  rcases Op.step_cases cr c (.receive sp) with e | hc
  · rw [e]
  · by_cases hf : c.myIndex = followerIndex
    · obtain ⟨hindex, hcurrent⟩ := hc.enqueued (offered_follower hf)
      rw [base_other (not_leader hf), base_other (not_leader (hindex.trans hf)), hcurrent]
    · by_cases hl : c.myIndex = leaderIndex
      · obtain ⟨hindex, hlatest⟩ := hc.advanced (offered_leader hl)
        rw [base_leader hl, base_leader (hindex.trans hl), hlatest]
      · have hnone : Op.step cr c (.receive sp) = c := Meth.after_error (receive_malformed hf hl)
        rw [hnone]

theorem Op.signs_signNextProposal (p : Proposal) (sk : Bytes) (c : ConsensusChannel) :
    Signs c (Op.step cr c (.signNextProposal p sk)) (Op.signs cr c (.signNextProposal p sk)) := by
  rcases signNextProposal_cases cr p sk c with ⟨sv, rest, signed, hn, hrun⟩ | ⟨e, hn, hrun⟩
  · obtain ⟨head, v', a, hrole, hq, -, hstep, -, -, -, rfl, -, ht⟩ := nextConsensus_ok hn
    have hafter : Op.step cr c (.signNextProposal p sk) =
        { c with current := ⟨v', (head.signature, signed.signature)⟩, proposalQueue := rest } :=
      Meth.after_ok (Meth.bind_ok hrun)
    have hsigned : Op.signs cr c (.signNextProposal p sk) = some (v'.turnNum, v') := by
      simp only [Op.signs, hn, ht]
    rw [hafter, hsigned]
    exact .successor (base_other (not_leader hrole)) hstep (base_other (not_leader hrole))
  · have hafter : Op.step cr c (.signNextProposal p sk) = c :=
      Meth.after_error (Meth.bind_error hrun)
    have hsigned : Op.signs cr c (.signNextProposal p sk) = none := by simp only [Op.signs, hn]
    rw [hafter, hsigned]
    exact .nothing rfl

/-- **a call signs a successor of the base, or leaves the base alone** -/
theorem Op.base_step (cr : Crypto) (c : ConsensusChannel) (op : Op) :
    Signs c (op.step cr c) (op.signs cr c) := by
  cases op with
  | propose p sk => exact Op.signs_propose p sk c
  | receive sp => exact Op.signs_receive sp c
  | signNextProposal p sk => exact Op.signs_signNextProposal p sk c

theorem lt_next {t : UInt64} (h : t.toNat < 2 ^ 64 - 1) : t < t + 1 := by
  rw [UInt64.lt_iff_toNat_lt, UInt64.toNat_add, UInt64.toNat_one, Nat.mod_eq_of_lt (by omega)]
  omega

theorem leaderReceive_consensus_le (sp : SignedProposal) :
    c.current.vars.turnNum ≤ ((leaderReceive cr sp).after c).current.vars.turnNum := by
  rcases leaderReceive_cases cr sp c with ⟨sv, rest, hfresh, hloop, hrun⟩ | hrun | ⟨e, hrun⟩
  · obtain ⟨done, last, w, w', a, -, -, -, hreached, -, -, rfl⟩ := leaderLoop_ok hloop
    rw [Meth.after_ok hrun]
    show _ ≤ w'.turnNum
    rw [hreached]
    exact UInt64.le_of_lt hfresh
  · rw [Meth.after_ok hrun]
    exact UInt64.le_refl _
  · rw [Meth.after_error hrun]
    exact UInt64.le_refl _

theorem signNextProposal_consensus_le (hturn : c.current.vars.turnNum.toNat < 2 ^ 64 - 1)
    (p : Proposal) (sk : Bytes) :
    c.current.vars.turnNum ≤ (Op.step cr c (.signNextProposal p sk)).current.vars.turnNum := by
  rcases signNextProposal_cases cr p sk c with ⟨sv, rest, signed, hn, hrun⟩ | ⟨e, hn, hrun⟩
  · obtain ⟨head, v', a, -, -, -, hstep, -, -, -, rfl, -, -⟩ := nextConsensus_ok hn
    have hafter : Op.step cr c (.signNextProposal p sk) =
        { c with current := ⟨v', (head.signature, signed.signature)⟩, proposalQueue := rest } :=
      Meth.after_ok (Meth.bind_ok hrun)
    rw [hafter]
    show _ ≤ v'.turnNum
    rw [hstep.turnNum]
    exact UInt64.le_of_lt (lt_next hturn)
  · have hafter : Op.step cr c (.signNextProposal p sk) = c :=
      Meth.after_error (Meth.bind_error hrun)
    rw [hafter]
    exact UInt64.le_refl _

theorem Op.consensus_le (hturn : c.current.vars.turnNum.toNat < 2 ^ 64 - 1) (op : Op) :
    c.current.vars.turnNum ≤ (op.step cr c).current.vars.turnNum := by
  have hsame : ∀ c' : ConsensusChannel, c'.current = c.current →
      c.current.vars.turnNum ≤ c'.current.vars.turnNum := by
    intro c' h
    rw [h]
    exact UInt64.le_refl _
  rcases Op.step_cases cr c op with e | hc
  · exact hsame _ (by rw [e])
  · cases op with
    | propose p sk => exact hsame _ (hc.enqueued rfl).2
    | receive sp =>
      by_cases hf : c.myIndex = followerIndex
      · exact hsame _ (hc.enqueued (offered_follower hf)).2
      · by_cases hl : c.myIndex = leaderIndex
        · have hcall : Op.step cr c (.receive sp) = (leaderReceive cr sp).after c := by
            show Meth.after (ConsensusChannel.receive cr sp) c = _
            unfold Meth.after
            rw [receive_leader hl]
          rw [hcall]
          exact leaderReceive_consensus_le sp
        · have hnone : Op.step cr c (.receive sp) = c := Meth.after_error (receive_malformed hf hl)
          exact hsame _ (by rw [hnone])
    | signNextProposal p sk => exact signNextProposal_consensus_le hturn p sk

/-! ## runs -/

structure TurnsBelow (c : ConsensusChannel) : Prop where
  consensus : c.current.vars.turnNum.toNat < 2 ^ 64 - 1
  latest : ∀ latest, c.latestProposedVars = .ok latest → latest.turnNum.toNat < 2 ^ 64 - 1

theorem turnsBelow_iff : TurnsBelow c ↔ c.current.vars.turnNum.toNat < 2 ^ 64 - 1 ∧
    ∀ latest ∈ c.latestProposedVars.toOption, latest.turnNum.toNat < 2 ^ 64 - 1 := by
  have hok : ∀ latest, latest ∈ c.latestProposedVars.toOption ↔
      c.latestProposedVars = .ok latest := by
    intro latest
    cases c.latestProposedVars with
    | ok v => simp [Except.toOption]
    | error e => simp [Except.toOption]
  simp only [hok]
  exact ⟨fun h => ⟨h.consensus, h.latest⟩, fun h => ⟨h.1, h.2⟩⟩

instance : Decidable (TurnsBelow c) := decidable_of_iff _ turnsBelow_iff.symm

theorem TurnsBelow.base (h : TurnsBelow c) {v : Vars} (hv : base c = .ok v) :
    v.turnNum.toNat < 2 ^ 64 - 1 := by
  unfold ConsensusChannel.base at hv
  split at hv
  · exact h.latest v hv
  · cases hv
    exact h.consensus

theorem signatures_increasing {ops : List Op}
    (h : Along (Op.step cr) (fun c _ => TurnsBelow c) c ops) :
    (∀ x ∈ signatures cr c ops, ∃ v, base c = .ok v ∧ v.turnNum < x.1) ∧
      (signatures cr c ops).Pairwise (fun x y => x.1 < y.1) := by
  induction ops generalizing c with
  | nil => exact ⟨fun x hx => (nomatch hx), List.Pairwise.nil⟩
  | cons op ops ih =>
    obtain ⟨hbelow, hrest⟩ := h
    obtain ⟨hlater, hpair⟩ := ih hrest
    have hsigns := Op.base_step cr c op
    unfold signatures
    generalize op.signs cr c = signed at hsigns ⊢
    cases hsigns with
    | nothing hbase =>
      rw [hbase] at hlater
      exact ⟨hlater, hpair⟩
    | @successor p v v' hbase hstep hnext =>
      have hlt : v.turnNum < v'.turnNum := by
        rw [hstep.turnNum]
        exact lt_next (hbelow.base hbase)
      have habove : ∀ x ∈ signatures cr (op.step cr c) ops, v'.turnNum < x.1 := by
        intro x hx
        obtain ⟨w, hw, hwx⟩ := hlater x hx
        obtain rfl : w = v' := Except.ok.inj (hw.symm.trans hnext)
        exact hwx
      refine ⟨fun x hx => ⟨v, hbase, ?_⟩, List.pairwise_cons.2 ⟨habove, hpair⟩⟩
      rcases List.mem_cons.1 hx with rfl | hx
      · exact hlt
      · exact UInt64.lt_trans hlt (habove x hx)

theorem Op.base_le (hbelow : TurnsBelow c) {v : Vars} (hv : base c = .ok v) (op : Op) :
    ∃ v', base (op.step cr c) = .ok v' ∧ v.turnNum ≤ v'.turnNum := by
  have hsigns := Op.base_step cr c op
  generalize op.signs cr c = signed at hsigns
  cases hsigns with
  | nothing hbase => exact ⟨v, hbase.trans hv, UInt64.le_refl _⟩
  | @successor p w w' hbase hstep hnext =>
    obtain rfl : v = w := Except.ok.inj (hv.symm.trans hbase)
    refine ⟨w', hnext, ?_⟩
    rw [hstep.turnNum]
    exact UInt64.le_of_lt (lt_next (hbelow.base hv))

theorem base_increasing {ops : List Op} (h : Along (Op.step cr) (fun c _ => TurnsBelow c) c ops)
    {v : Vars} (hv : base c = .ok v) :
    ∃ v', base (run (Op.step cr) c ops) = .ok v' ∧ v.turnNum ≤ v'.turnNum := by
  induction ops generalizing c v with
  | nil => exact ⟨v, hv, UInt64.le_refl _⟩
  | cons op ops ih =>
    obtain ⟨w, hw, hle⟩ := Op.base_le h.1 hv op
    obtain ⟨v', hv', hle'⟩ := ih h.2 hw
    exact ⟨v', hv', UInt64.le_trans hle hle'⟩

theorem signatures_le_base {ops : List Op}
    (h : Along (Op.step cr) (fun c _ => TurnsBelow c) c ops) {x : UInt64 × Vars}
    (hx : x ∈ signatures cr c ops) :
    ∃ v, base (run (Op.step cr) c ops) = .ok v ∧ x.1 ≤ v.turnNum := by
  induction ops generalizing c with
  | nil => cases hx
  | cons op ops ih =>
    have hsigns := Op.base_step cr c op
    rcases List.mem_append.1 hx with hhead | hrest
    · generalize op.signs cr c = signed at hsigns hhead
      cases hsigns with
      | nothing hbase => cases hhead
      | successor hbase hstep hnext =>
        obtain rfl := List.mem_singleton.1 hhead
        exact base_increasing h.2 hnext
    · exact ih h.2 hrest

theorem consensus_increasing {ops : List Op}
    (h : Along (Op.step cr) (fun c _ => TurnsBelow c) c ops) :
    c.current.vars.turnNum ≤ (run (Op.step cr) c ops).current.vars.turnNum := by
  induction ops generalizing c with
  | nil => exact UInt64.le_refl _
  | cons op ops ih => exact UInt64.le_trans (Op.consensus_le h.1.consensus op) (ih h.2)

/-- **a ledger does not equivocate**: whatever it is called with, it never signs two `Vars` of one
turn number, and its consensus never goes back -/
theorem ledger_no_equivocation {ops : List Op}
    (h : Along (Op.step cr) (fun c _ => TurnsBelow c) c ops) :
    (∀ x ∈ signatures cr c ops, ∀ y ∈ signatures cr c ops, x.1 = y.1 → x.2 = y.2) ∧
      ∀ before after, ops = before ++ after →
        (run (Op.step cr) c before).current.vars.turnNum ≤
          (run (Op.step cr) c ops).current.vars.turnNum := by
  constructor
  · intro x hx y hy hturn
    have hdistinct : (signatures cr c ops).Pairwise (fun x y => x.1 ≠ y.1) :=
      (signatures_increasing h).2.imp fun hlt => UInt64.ne_of_lt hlt
    by_contra hne
    have hxy : x ≠ y := fun e => hne (by rw [e])
    have : Std.Symm fun x y : UInt64 × Vars => x.1 ≠ y.1 := ⟨fun _ _ => Ne.symm⟩
    exact hdistinct.forall hx hy hxy hturn
  · intro before after hops
    rw [hops] at h ⊢
    rw [run_append]
    exact consensus_increasing h.of_append.2

/-- a leader that proposes twice under one turn number signs once: the second target is taken -/
theorem ledger_no_equivocation_two :
    let ops : List Op := [.propose (Sample.addOf 5) (Sample.key 1),
      .propose (Sample.addOf 6) (Sample.key 1)]
    (signatures Crypto.plain (Sample.ledger leaderIndex) ops).length = 1 ∧
      ∀ x ∈ signatures Crypto.plain (Sample.ledger leaderIndex) ops,
        ∀ y ∈ signatures Crypto.plain (Sample.ledger leaderIndex) ops, x.1 = y.1 → x.2 = y.2 :=
  ⟨by decide +kernel, (ledger_no_equivocation (by decide +kernel)).1⟩

end ConsensusChannel

end Nitro
