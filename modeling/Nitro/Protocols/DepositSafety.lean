import Nitro.Lib.Runs
import Nitro.Lib.Waterfall
import Nitro.Protocols.DepositSteps
import Mathlib.Data.List.TakeWhile

/-!
# Deposits that can be recovered

A client deposits up to its safety threshold plus everything that is allocated to it.  The threshold
counts what stands before its first allocation; so the deposit can be recovered from the initial
outcome if nothing stands between its allocations.

* `transfer_all`             what the emulated transfer pays, as a payout in priority order;
* `Contiguous me l`          nothing positive of others stands between the allocations to `me`;
* `recovers_iff_contiguous`  the full deposit is recovered exactly in this case;
* `deposit_recovered`        every deposit that `Crank` emits can be recovered;
* `deposit_lost`             a deposit that cannot, when an allocation of another party stands between.
-/

set_option linter.unusedSectionVars false

namespace Nitro
open Go FinMap Runs Waterfall Relation

/-! ## amounts of an outcome -/

abbrev Allocation.IsFor (me : Destination) (a : Allocation) : Prop := a.destination = me

namespace Allocations

def NonNeg (l : Allocations) : Prop := ∀ a ∈ l, ∃ n : Int, 0 ≤ n ∧ a.amount = some n

variable {me : Destination} {a : Allocation} {l : Allocations}

theorem NonNeg.head (h : NonNeg (a :: l)) : a.amount = some a.value := by
  obtain ⟨n, -, hn⟩ := h a List.mem_cons_self
  simp [Allocation.value, hn]

theorem NonNeg.tail (h : NonNeg (a :: l)) : NonNeg l :=
  fun b hb => h b (List.mem_cons_of_mem a hb)

theorem NonNeg.value (h : NonNeg l) : ∀ a ∈ l, 0 ≤ a.value := by
  intro a ha
  obtain ⟨n, hn, he⟩ := h a ha
  simpa [Allocation.value, he] using hn

theorem totalFor_eq (h : NonNeg l) :
    totalFor me l = .ok (owed Allocation.value (Allocation.IsFor me) l) := by
  induction l with
  | nil => rfl
  | cons a l ih =>
    by_cases ha : a.destination = me
    · rw [owed_cons_pos (p := Allocation.IsFor me) ha, totalFor, if_pos ha, h.head, ih h.tail]
      rfl
    · rw [owed_cons_neg (p := Allocation.IsFor me) ha, totalFor, if_neg ha, ih h.tail]

/-- the allocations before the first one to `me`, and the others -/
def before (me : Destination) (l : Allocations) : Allocations :=
  l.takeWhile fun a => decide (a.destination ≠ me)

def fromFirst (me : Destination) (l : Allocations) : Allocations :=
  l.dropWhile fun a => decide (a.destination ≠ me)

theorem before_append_fromFirst (me : Destination) (l : Allocations) :
    before me l ++ fromFirst me l = l := List.takeWhile_append_dropWhile

theorem not_mem_before : ∀ a ∈ before me l, ¬ a.IsFor me := by
  intro a ha
  have hp := List.mem_takeWhile_imp (p := fun a : Allocation => decide (a.destination ≠ me)) ha
  exact of_decide_eq_true hp

theorem NonNeg.before (h : NonNeg l) : NonNeg (Allocations.before me l) :=
  fun a ha => h a (List.takeWhile_sublist _ |>.subset ha)

theorem NonNeg.fromFirst (h : NonNeg l) : NonNeg (Allocations.fromFirst me l) :=
  fun a ha => h a (List.dropWhile_sublist _ |>.subset ha)

theorem depositSafetyThreshold_eq (h : NonNeg l) :
    depositSafetyThreshold me l = .ok (((before me l).map Allocation.value).sum) := by
  induction l with
  | nil => rfl
  | cons a l ih =>
    by_cases ha : a.destination = me
    · simp [depositSafetyThreshold, before, ha]
    · have hbefore : before me (a :: l) = a :: before me l := by simp [before, ha]
      rw [hbefore, depositSafetyThreshold, if_neg ha, h.head, ih h.tail, List.map_cons,
        List.sum_cons]
      rfl

/-- **the emulated transfer of all allocations pays in priority order** -/
theorem transferLoop_all (h : NonNeg l) (k i : Nat) (surplus : Int) :
    ∃ news exits, transferLoop [] k i surplus l = .ok (news, exits) ∧ totalFor me exits =
      .ok (received Allocation.value (Allocation.IsFor me) surplus l) := by
  induction l generalizing i surplus with
  | nil => exact ⟨[], [], rfl, rfl⟩
  | cons a l ih =>
    have hmin : (if a.value > surplus then surplus else a.value) = min a.value surplus := by
      split <;> omega
    obtain ⟨news, exits, hrun, hpaid⟩ := ih h.tail (i + 1) (surplus - min a.value surplus)
    refine ⟨{ a with amount := some (a.value - min a.value surplus) } :: news,
      { a with amount := some (min a.value surplus) } :: exits, ?_, ?_⟩
    · rw [transferLoop, h.head]
      show (transferLoop [] k (i + 1) (surplus - (if a.value > surplus then surplus else a.value)) l
        >>= _) = _
      rw [hmin, hrun]
      rfl
    · by_cases ha : a.destination = me
      · rw [received_cons_pos (p := Allocation.IsFor me) ha, totalFor, if_pos ha, hpaid]
        rfl
      · rw [received_cons_neg (p := Allocation.IsFor me) ha, totalFor, if_neg ha, hpaid]

theorem transfer_all (me : Destination) (h : NonNeg l) (holdings : Int) :
    ∃ news exits, computeTransferEffectsAndInteractions holdings l [] = .ok (news, exits) ∧
      totalFor me exits =
        .ok (received Allocation.value (Allocation.IsFor me) holdings l) :=
  transferLoop_all h 0 0 holdings

/-! ## allocations that stand together -/

/-- nothing positive of others stands between the first allocation to `me` and a positive one -/
def Contiguous (me : Destination) (l : Allocations) : Prop :=
  ∀ m a b, [m, a, b].Sublist l → m.destination = me → a.destination ≠ me → b.destination = me →
    a.value ≤ 0 ∨ b.value ≤ 0

theorem contiguous_iff_ahead :
    Contiguous me l ↔ Ahead Allocation.value (Allocation.IsFor me) (fromFirst me l) := by
  constructor
  · intro h a b hs ha hb
    cases hrest : fromFirst me l with
    | nil =>
      rw [hrest] at hs
      cases hs
    | cons m r =>
      have hm : m.destination = me := by
        have hhead := List.head?_dropWhile_not (fun a => decide (a.destination ≠ me)) l
        rw [show l.dropWhile _ = m :: r from hrest] at hhead
        simpa using hhead
      rw [hrest] at hs
      cases hs with
      | cons_cons _ _ => exact absurd hm ha
      | cons _ hs =>
        have hsub : [m, a, b].Sublist (fromFirst me l) := by
          rw [hrest]
          exact hs.cons_cons m
        exact h m a b (hsub.trans (List.dropWhile_sublist _)) hm ha hb
  · intro h m a b hs hm ha hb
    rw [← before_append_fromFirst me l] at hs
    obtain ⟨x, y, hxy, hx, hy⟩ := List.sublist_append_iff.1 hs
    cases x with
    | cons m' x =>
      have hm' : m = m' := (List.cons.inj hxy).1
      rw [hm'] at hm
      exact absurd hm (not_mem_before m' (hx.subset List.mem_cons_self))
    | nil =>
      have hy : [m, a, b].Sublist (fromFirst me l) := by rwa [hxy]
      exact h a b ((List.sublist_cons_self m _).trans hy) ha hb

theorem owed_fromFirst (me : Destination) (l : Allocations) :
    owed Allocation.value (Allocation.IsFor me) (fromFirst me l) =
      owed Allocation.value (Allocation.IsFor me) l := by
  conv_rhs => rw [← before_append_fromFirst me l]
  exact (owed_append_of_none not_mem_before).symm

/-- what those before the client are owed is paid to them first -/
theorem received_fromFirst (h : NonNeg l) {x : Int} (hx : 0 ≤ x) :
    received Allocation.value (Allocation.IsFor me)
      (((before me l).map Allocation.value).sum + x) l =
    received Allocation.value (Allocation.IsFor me) x (fromFirst me l) := by
  have hsplit : received Allocation.value (Allocation.IsFor me)
      (((before me l).map Allocation.value).sum + x) (before me l ++ fromFirst me l) = _ :=
    received_append_of_none not_mem_before h.before.value (le_add_of_nonneg_right hx)
  rwa [before_append_fromFirst, add_sub_cancel_left] at hsplit

/-- **the client recovers its allocations from holdings that reach its target exactly when nothing
stands between them** -/
theorem recovers_iff_contiguous (h : NonNeg l) :
    owed Allocation.value (Allocation.IsFor me) l ≤
      received Allocation.value (Allocation.IsFor me)
        (((before me l).map Allocation.value).sum + owed Allocation.value (Allocation.IsFor me) l) l ↔
    Contiguous me l := by
  rw [received_fromFirst h (owed_nonneg h.value), ← owed_fromFirst, contiguous_iff_ahead]
  constructor
  · intro hle
    by_contra hbehind
    exact absurd hle (not_le.2 (received_lt_of_behind h.fromFirst.value hbehind))
  · intro hahead
    rw [received_eq_of_ahead h.fromFirst.value hahead (owed_nonneg h.fromFirst.value) (le_refl _)]

end Allocations

theorem Exit.fundsBy_ok {f : Allocations → Res Int} {e : Exit} {acc funds : Funds}
    (h : Exit.fundsBy f e acc = .ok funds) :
    (∀ asset, asset ∉ e.map SingleAssetExit.asset → funds.lookup asset = acc.lookup asset) ∧
    ((e.map SingleAssetExit.asset).Nodup →
      ∀ s ∈ e, ∃ n, f s.allocations = .ok n ∧ funds.lookup s.asset = some n) := by
  induction e generalizing acc with
  | nil =>
    cases h
    exact ⟨fun _ _ => rfl, fun _ s hs => absurd hs List.not_mem_nil⟩
  | cons x e ih =>
    obtain ⟨n, hn, h⟩ := Res.bind_eq_ok.1 h
    obtain ⟨hother, hself⟩ := ih h
    constructor
    · intro asset hasset
      rw [List.map_cons, List.mem_cons, not_or] at hasset
      rw [hother asset hasset.2, Finmap.lookup_insert_of_ne _ hasset.1]
    · intro hnodup s hs
      rw [List.map_cons, List.nodup_cons] at hnodup
      rcases List.mem_cons.1 hs with rfl | hs
      · refine ⟨n, hn, ?_⟩
        rw [hother _ hnodup.1, Finmap.lookup_insert]
      · exact hself hnodup.2 s hs

theorem Exit.keys_fundsBy {f : Allocations → Res Int} {e : Exit} {acc funds : Funds}
    (h : Exit.fundsBy f e acc = .ok funds) {asset : Address}
    (hasset : asset ∈ acc ∨ asset ∈ e.map SingleAssetExit.asset) : asset ∈ funds := by
  induction e generalizing acc with
  | nil =>
    cases h
    exact hasset.resolve_right List.not_mem_nil
  | cons x e ih =>
    obtain ⟨n, -, h⟩ := Res.bind_eq_ok.1 h
    apply ih h
    rw [List.map_cons, List.mem_cons] at hasset
    rcases hasset with hacc | hx | he
    · exact .inl (Finmap.mem_insert.2 (.inr hacc))
    · exact .inl (Finmap.mem_insert.2 (.inl hx))
    · exact .inr he

/-! ## objectives -/

namespace DirectFund
namespace Objective
variable {cr : Crypto} {o o' : Objective}

structure SameTargets (o o' : Objective) : Prop where
  safety : o'.myDepositSafetyThreshold = o.myDepositSafetyThreshold
  target : o'.myDepositTarget = o.myDepositTarget
  full : o'.fullyFundedThreshold = o.fullyFundedThreshold

theorem SameTargets.refl (o : Objective) : SameTargets o o := ⟨rfl, rfl, rfl⟩

theorem Deposits.congr {deposits : Funds} (h : Deposits o' deposits) (hsame : SameTargets o o')
    (hheld : o'.c.onChainFunding = o.c.onChainFunding) : Deposits o deposits := by
  obtain ⟨hamounts, hsafe⟩ := h
  rw [hsame.target, hheld] at hamounts
  rw [hsame.safety, hheld] at hsafe
  exact ⟨hamounts, hsafe⟩

theorem acts_submit {sk : Bytes} {x : Objective × SideEffects}
    (h : ReflTransGen (Act cr sk) (o, .empty) x) :
    SameTargets o x.1 ∧ x.1.c.onChainFunding = o.c.onChainFunding ∧
      ∀ tx ∈ x.2.transactionsToSubmit,
        ∃ id deposits, tx = .deposit id deposits ∧ Deposits o deposits := by
  induction h with
  | refl => exact ⟨.refl o, rfl, fun tx hmem => absurd hmem List.not_mem_nil⟩
  | tail _ hact ih =>
    obtain ⟨hsame, hheld, htx⟩ := ih
    cases hact with
    | sign ht hsign =>
      refine ⟨⟨hsame.safety, hsame.target, hsame.full⟩, ?_, htx⟩
      rw [← hheld, ← Meth.after_ok hsign]
      exact Channel.signAndAddState_onChainFunding cr _ sk _
    | fail ht hsign =>
      refine ⟨⟨hsame.safety, hsame.target, hsame.full⟩, ?_,
        fun tx hmem => absurd hmem List.not_mem_nil⟩
      rw [← hheld, ← Meth.after_error hsign]
      exact Channel.signAndAddState_onChainFunding cr _ sk _
    | deposit hpre hdeposits hfirst =>
      refine ⟨⟨hsame.safety, hsame.target, hsame.full⟩, hheld, fun tx hmem => ?_⟩
      rcases List.mem_append.1 hmem with hmem | hmem
      · exact htx tx hmem
      · exact ⟨_, _, List.mem_singleton.1 hmem, hdeposits.congr hsame hheld⟩
    | complete hpost => exact ⟨⟨hsame.safety, hsame.target, hsame.full⟩, hheld, htx⟩

/-- **what `Crank` submits**: deposits up to the target, made when it is safe -/
theorem crank_ok {sk : Bytes} {r : Cranked} (h : o.crank cr sk = .ok r) :
    SameTargets o r.updated ∧ r.updated.c.onChainFunding = o.c.onChainFunding ∧
      ∀ tx ∈ r.sideEffects.transactionsToSubmit,
        ∃ id deposits, tx = .deposit id deposits ∧ Deposits o deposits := by
  obtain ⟨d, hd, hacts⟩ := crank_acts h
  obtain ⟨-, -, -, hfunding, -⟩ := Channel.clone_ok hd
  obtain ⟨hsame, hheld, htx⟩ := acts_submit hacts
  refine ⟨⟨hsame.safety, hsame.target, hsame.full⟩, hheld.trans hfunding, fun tx hmem => ?_⟩
  obtain ⟨id, deposits, rfl, hdeposits⟩ := htx tx hmem
  exact ⟨id, deposits, rfl, hdeposits.congr ⟨rfl, rfl, rfl⟩ hfunding⟩

theorem SameTargets.quiet {o₀ : Objective} (h : SameTargets o₀ o) (hstep : Quiet cr o o') :
    SameTargets o₀ o' := by
  cases hstep with
  | same => exact h
  | received => exact ⟨h.safety, h.target, h.full⟩

theorem SameTargets.step {o₀ : Objective} (o : Objective) (call : Call) (h : SameTargets o₀ o) :
    SameTargets o₀ (call.step cr o) := by
  cases call with
  | crank sk =>
    refine Res.map_getD_ind h fun r hr => ?_
    have hkeep := (crank_ok hr).1
    exact ⟨hkeep.safety.trans h.safety, hkeep.target.trans h.target, hkeep.full.trans h.full⟩
  | approve => exact h.quiet (Call.quiet cr o (fun sk e => by cases e))
  | reject => exact h.quiet (Call.quiet cr o (fun sk e => by cases e))
  | update event => exact h.quiet (Call.quiet cr o (fun sk e => by cases e))
  | updateWithChainEvent event => exact h.quiet (Call.quiet cr o (fun sk e => by cases e))

end Objective

/-! ## deposits -/

section deposits
variable {cr : Crypto} {preApprove : Bool} {s : State} {myAddress : Address} {o : Objective}
open Objective (Call Cranked)

structure Constructed (cr : Crypto) (s : State) (myAddress : Address) (o : Objective) : Prop where
  turnNum : s.turnNum = 0
  channel : ∃ i, s.participants.findIdx? (fun v => decide (v = myAddress)) = some i ∧
    Channel.new cr s i = .ok o.c
  target : ∃ allocated, s.outcome.totalAllocatedFor (addressToDestination myAddress) =
    .ok allocated ∧ o.myDepositTarget = o.myDepositSafetyThreshold.add [allocated]
  safety : s.outcome.depositSafetyThreshold (addressToDestination myAddress) =
    .ok o.myDepositSafetyThreshold
  full : s.outcome.totalAllocated = .ok o.fullyFundedThreshold
  status : o.status ≠ .completed
  submitted : o.transactionSubmitted = false

theorem constructFromState_ok (h : constructFromState cr preApprove s myAddress = .ok o) :
    Constructed cr s myAddress o := by
  obtain ⟨-, -, h⟩ := Res.bind_eq_ok.1 h
  obtain ⟨hturn, h⟩ := failIf_bind_eq_ok.1 h
  obtain ⟨-, h⟩ := failIf_bind_eq_ok.1 h
  cases hi : s.participants.findIdx? (fun v => decide (v = myAddress)) with
  | none => simp only [hi] at h; cases h
  | some i =>
    simp only [hi] at h
    obtain ⟨c, hc, h⟩ := Res.bind_eq_ok.1 h
    obtain ⟨allocated, halloc, h⟩ := Res.bind_eq_ok.1 h
    obtain ⟨total, htotal, h⟩ := Res.bind_eq_ok.1 h
    obtain ⟨threshold, hthreshold, hend⟩ := Res.bind_eq_ok.1 h
    cases hend
    refine ⟨not_not.1 hturn, ⟨i, hi, Res.wrap_eq_ok.1 hc⟩, ⟨allocated, halloc, rfl⟩, hthreshold,
      htotal, ?_, rfl⟩
    cases preApprove <;> simp

theorem target_eq (hnew : constructFromState cr preApprove s myAddress = .ok o)
    (hnn : ∀ e ∈ s.outcome, e.allocations.NonNeg)
    (hdistinct : (s.outcome.map SingleAssetExit.asset).Nodup) {asset : Address}
    (hasset : asset ∈ o.myDepositTarget) :
    ∃ e ∈ s.outcome, e.asset = asset ∧ asset ∈ o.myDepositSafetyThreshold ∧
      o.myDepositSafetyThreshold.amount asset =
        ((e.allocations.before (addressToDestination myAddress)).map Allocation.value).sum ∧
      o.myDepositTarget.amount asset = o.myDepositSafetyThreshold.amount asset +
        owed Allocation.value (Allocation.IsFor (addressToDestination myAddress)) e.allocations := by
  obtain ⟨-, -, ⟨allocated, halloc, htarget⟩, hthreshold, -⟩ := constructFromState_ok hnew
  obtain ⟨hother₁, hself₁⟩ := Exit.fundsBy_ok halloc
  obtain ⟨hother₂, hself₂⟩ := Exit.fundsBy_ok hthreshold
  have hmem : asset ∈ s.outcome.map SingleAssetExit.asset := by
    by_contra hnot
    rw [htarget, ← Finmap.mem_keys] at hasset
    have hkeys : asset ∈ allocated.keys ∪ o.myDepositSafetyThreshold.keys := by
      simpa [Funds.add, Funds.sum, Funds.keys_accumulate] using hasset
    rcases Finset.mem_union.1 hkeys with hk | hk
    · exact absurd (Finmap.mem_keys.1 hk) (Finmap.lookup_eq_none.1 (hother₁ asset hnot))
    · exact absurd (Finmap.mem_keys.1 hk) (Finmap.lookup_eq_none.1 (hother₂ asset hnot))
  obtain ⟨e, he, rfl⟩ := List.mem_map.1 hmem
  obtain ⟨n, hn, hln⟩ := hself₁ hdistinct e he
  obtain ⟨t, ht, hlt⟩ := hself₂ hdistinct e he
  rw [Allocations.totalFor_eq (hnn e he), Except.ok.injEq] at hn
  rw [Allocations.depositSafetyThreshold_eq (hnn e he), Except.ok.injEq] at ht
  refine ⟨e, he, rfl, Finmap.mem_of_lookup_eq_some hlt, ?_, ?_⟩
  · rw [Funds.amount_of_lookup hlt, ht]
  · rw [htarget, hn, ← Funds.amount_of_lookup hln]
    simp [Funds.add, Funds.sum, Funds.amount_accumulate, Funds.amount_empty, add_comm]

/-- **a client can recover every deposit that it makes from the initial outcome**, if no positive
allocation to another destination stands between its allocations -/
theorem deposit_recovered {calls : List Call} {sk : Bytes} {r : Cranked} {id : Destination}
    {deposits : Funds} {asset : Address} {d : Int}
    (hnew : constructFromState cr preApprove s myAddress = .ok o)
    (hnn : ∀ e ∈ s.outcome, e.allocations.NonNeg)
    (hdistinct : (s.outcome.map SingleAssetExit.asset).Nodup)
    (hcontiguous : ∀ e ∈ s.outcome,
      e.allocations.Contiguous (addressToDestination myAddress))
    (hr : (run (Call.step cr) o calls).crank cr sk = .ok r)
    (htx : .deposit id deposits ∈ r.sideEffects.transactionsToSubmit)
    (hd : deposits.lookup asset = some d) :
    ∃ e ∈ s.outcome, e.asset = asset ∧
      ∃ h, (run (Call.step cr) o calls).c.onChainFunding.lookup asset = some h ∧
        ∃ news exits paid,
          computeTransferEffectsAndInteractions (h + d) e.allocations [] = .ok (news, exits) ∧
          exits.totalFor (addressToDestination myAddress) = .ok paid ∧ d ≤ paid := by
  obtain ⟨hthreshold, htarget, -⟩ : Objective.SameTargets o (run (Call.step cr) o calls) :=
    run_inv Objective.SameTargets.step (.refl o)
  obtain ⟨id', deposits', htx', hdeposits⟩ := (Objective.crank_ok hr).2.2 _ htx
  cases htx'
  obtain ⟨hasset, h, hh, hamount⟩ := hdeposits.amounts asset d hd
  rw [htarget] at hasset hamount
  obtain ⟨e, he, hea, hsafeMem, hT, hG⟩ := target_eq hnew hnn hdistinct hasset
  have hsafe := hdeposits.safe asset (by rw [hthreshold]; exact hsafeMem)
  rw [hthreshold, Funds.amount_of_lookup hh] at hsafe
  obtain ⟨news, exits, hrun, hpaid⟩ :=
    Allocations.transfer_all (addressToDestination myAddress) (hnn e he) (h + d)
  refine ⟨e, he, hea, h, hh, news, exits, _, hrun, hpaid, ?_⟩
  have hsum : h + d = ((e.allocations.before (addressToDestination myAddress)).map
      Allocation.value).sum + owed Allocation.value
        (Allocation.IsFor (addressToDestination myAddress)) e.allocations := by
    rw [hamount, hG, hT]
    omega
  have hle := (Allocations.recovers_iff_contiguous (hnn e he)).2 (hcontiguous e he)
  rw [hsum]
  rw [hG] at hamount
  omega

end deposits
end DirectFund

/-! ## a deposit that is lost -/

namespace Sample

/-- a prefund state with the given allocations of the native token -/
def fundingState (l : Allocations) : State := { state 0 with outcome := [⟨0, [], l⟩] }

/-- the first participant's objective -/
def fundingObjective (l : Allocations) : DirectFund.Objective :=
  (DirectFund.constructFromState Crypto.plain true (fundingState l) 1).toOption.getD
    ⟨.unapproved, channel, ∅, ∅, ∅, 0, false⟩

/-- the second participant's signature on the prefund state -/
def prefundEvent (l : Allocations) : ObjectiveEvent where
  objectiveId := (fundingObjective l).id
  signedState := ⟨fundingState l, some ((∅ : SigMap).insert 1 (sigOn (fundingState l) 2))⟩
  signedProposal := SignedProposal.zero

/-- the objective after that event -/
def prefunded (l : Allocations) : DirectFund.Objective :=
  run (DirectFund.Objective.Call.step Crypto.plain) (fundingObjective l) [.update (prefundEvent l)]

def fiveEach : Allocations := [⟨1, some 5, 0, []⟩, ⟨2, some 5, 0, []⟩]

/-- the second participant's ten stand between the first one's five and five -/
def inBetween : Allocations := [⟨1, some 5, 0, []⟩, ⟨2, some 10, 0, []⟩, ⟨1, some 5, 0, []⟩]

end Sample

namespace DirectFund
open Objective (Call)

theorem deposit_recovered_five :
    ∃ e ∈ (Sample.fundingState Sample.fiveEach).outcome, e.asset = 0 ∧
      ∃ h, (run (Call.step Crypto.plain) (Sample.fundingObjective Sample.fiveEach)
          [.update (Sample.prefundEvent Sample.fiveEach)]).c.onChainFunding.lookup 0 = some h ∧
        ∃ news exits paid,
          computeTransferEffectsAndInteractions (h + 5) e.allocations [] = .ok (news, exits) ∧
          exits.totalFor (addressToDestination 1) = .ok paid ∧ 5 ≤ paid := by
  have heval : ((Sample.prefunded Sample.fiveEach).crank Crypto.plain (Sample.key 1) >>= fun r =>
      .ok r.sideEffects.transactionsToSubmit) = .ok [.deposit
        (Sample.fundingObjective Sample.fiveEach).c.id ((∅ : Funds).insert 0 5)] := by
    decide +kernel
  obtain ⟨r, hcrank, htx⟩ := Res.bind_eq_ok.1 heval
  have hcrank : (run (Call.step Crypto.plain) (Sample.fundingObjective Sample.fiveEach)
      [.update (Sample.prefundEvent Sample.fiveEach)]).crank Crypto.plain (Sample.key 1) = .ok r :=
    hcrank
  have hnew : constructFromState Crypto.plain true (Sample.fundingState Sample.fiveEach) 1 =
      .ok (Sample.fundingObjective Sample.fiveEach) := by decide +kernel
  have htx : .deposit (Sample.fundingObjective Sample.fiveEach).c.id ((∅ : Funds).insert 0 5) ∈
      r.sideEffects.transactionsToSubmit := by
    rw [Except.ok.inj htx]
    exact List.mem_singleton_self _
  have hnn : ∀ e ∈ (Sample.fundingState Sample.fiveEach).outcome, e.allocations.NonNeg := by
    intro e he a ha
    rw [List.mem_singleton.1 he] at ha
    refine ⟨5, by decide, ?_⟩
    simp only [Sample.fiveEach, List.mem_cons, List.not_mem_nil, or_false] at ha
    rcases ha with rfl | rfl <;> rfl
  have hcontiguous : ∀ e ∈ (Sample.fundingState Sample.fiveEach).outcome,
      e.allocations.Contiguous (addressToDestination 1) := by
    -- three of two allocations cannot be picked
    intro e he m a b hs
    rw [List.mem_singleton.1 he] at hs
    exact absurd hs.length_le (by simp [Sample.fiveEach])
  exact deposit_recovered hnew hnn (by decide) hcontiguous hcrank htx (Finmap.lookup_insert _)

/-- ten are deposited, and only five of them would come back -/
theorem deposit_lost :
    ∃ o r, constructFromState Crypto.plain true (Sample.fundingState Sample.inBetween) 1 = .ok o ∧
      (run (Call.step Crypto.plain) o
        [.update (Sample.prefundEvent Sample.inBetween)]).crank Crypto.plain (Sample.key 1) = .ok r ∧
      .deposit o.c.id ((∅ : Funds).insert 0 10) ∈ r.sideEffects.transactionsToSubmit ∧
      (run (Call.step Crypto.plain) o
        [.update (Sample.prefundEvent Sample.inBetween)]).c.onChainFunding.lookup 0 = some 0 ∧
      ∃ news exits,
        computeTransferEffectsAndInteractions (0 + 10) Sample.inBetween [] = .ok (news, exits) ∧
        exits.totalFor (addressToDestination 1) = .ok 5 := by
  have heval : ((Sample.prefunded Sample.inBetween).crank Crypto.plain (Sample.key 1) >>= fun r =>
      .ok r.sideEffects.transactionsToSubmit) = .ok [.deposit
        (Sample.fundingObjective Sample.inBetween).c.id ((∅ : Funds).insert 0 10)] := by
    decide +kernel
  obtain ⟨r, hcrank, htx⟩ := Res.bind_eq_ok.1 heval
  refine ⟨Sample.fundingObjective Sample.inBetween, r, by decide +kernel, hcrank,
    by rw [Except.ok.inj htx]; exact List.mem_singleton_self _, by decide +kernel, ?_⟩
  exact ⟨_, _, rfl, by decide +kernel⟩

end DirectFund

end Nitro
