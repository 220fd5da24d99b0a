import Nitro.Protocols.Authorised
import Nitro.Protocols.Backing

/-!
# The final outcome of a virtual channel

The final outcome is computed from the initial one and `PaidToBob`.  A request brings `PaidToBob` along;
for a peer's final state it is what Bob's allocation there has grown by.  Nothing else of that state is
read, and `PaidToBob` is not compared with what Alice has.

* `Exit.pay`                a payment from Alice to Bob, in the first exit and without the others;
* `Redistributes`           what a final outcome should be;
* `redistributes_pay_iff`   when a payment is a redistribution;
* `final_outcome_iff`       **when the final state that is signed redistributes**, and is the proposed one;
* `overpaid_signed`         a final state with a negative amount that is signed.
-/

set_option linter.unusedSectionVars false

namespace Nitro
open Go FinMap Runs

/-! ## payments -/

def SingleAssetExit.pay (e : SingleAssetExit) (paid : Int) : SingleAssetExit :=
  match e.allocations with
  | alice :: bob :: rest => { e with allocations :=
      { alice with amount := some (alice.amount.getD 0 - paid) } ::
      { bob with amount := some (bob.amount.getD 0 + paid) } :: rest }
  | _ => e

namespace Exit

def pay (e : Exit) (paid : Int) : Exit := (e.take 1).map fun x => x.pay paid

/-- what Alice has in the first exit -/
def aliceAmount : Exit → Int
  | ⟨_, _, alice :: _⟩ :: _ => alice.amount.getD 0
  | _ => 0

/-- what Bob has in the first exit -/
def bobAmount : Exit → Int
  | ⟨_, _, _ :: bob :: _⟩ :: _ => bob.amount.getD 0
  | _ => 0

/-- every amount is there, and none is negative -/
def NonNegative (e : Exit) : Prop :=
  ∀ x ∈ e, ∀ a ∈ x.allocations, ∃ n, a.amount = some n ∧ 0 ≤ n

end Exit

/-- a valid final outcome: no amount is negative, the totals are those of the beginning, and Bob gets
between nothing and all that Alice had -/
structure Redistributes (initial final : Exit) : Prop where
  nonNegative : final.NonNegative
  total : ∀ asset, final.allocatedIn asset = initial.allocatedIn asset
  paid : 0 ≤ final.bobAmount - initial.bobAmount ∧
    final.bobAmount - initial.bobAmount ≤ initial.aliceAmount

section payments
variable {x : SingleAssetExit} {alice bob : Allocation} {a b : Int}
variable (hx : x.allocations = [alice, bob]) (ha : alice.amount = some a) (hb : bob.amount = some b)
include hx ha hb

theorem Exit.aliceAmount_two (rest : Exit) : Exit.aliceAmount (x :: rest) = a := by
  cases x
  subst hx
  simp [Exit.aliceAmount, ha]

theorem Exit.bobAmount_two (rest : Exit) : Exit.bobAmount (x :: rest) = b := by
  cases x
  subst hx
  simp [Exit.bobAmount, hb]

theorem SingleAssetExit.pay_allocations (paid : Int) :
    (x.pay paid).allocations =
      [{ alice with amount := some (a - paid) }, { bob with amount := some (b + paid) }] := by
  simp [SingleAssetExit.pay, hx, ha, hb]

theorem Exit.bobAmount_pay (rest : Exit) (paid : Int) :
    (Exit.pay (x :: rest) paid).bobAmount = b + paid := by
  have h := SingleAssetExit.pay_allocations hx ha hb paid
  show Exit.bobAmount [x.pay paid] = b + paid
  exact Exit.bobAmount_two h rfl rfl []

/-- a payment moves nothing between assets, but drops the exits after the first -/
theorem Exit.allocatedIn_pay (rest : Exit) (asset : Address) (paid : Int) :
    (Exit.pay (x :: rest) paid).allocatedIn asset + rest.allocatedIn asset =
      Exit.allocatedIn (x :: rest) asset := by
  have h := SingleAssetExit.pay_allocations hx ha hb paid
  have hasset : (x.pay paid).asset = x.asset := by simp [SingleAssetExit.pay, hx]
  have hpaid : (x.pay paid).allocated = x.allocated := by
    simp only [SingleAssetExit.allocated, Allocation.value, h, hx, List.map_cons, List.map_nil,
      List.sum_cons, List.sum_nil, ha, hb, Option.getD_some]
    omega
  show Exit.allocatedIn [x.pay paid] asset + _ = _
  rw [Exit.allocatedIn_cons, Exit.allocatedIn_cons, hasset, hpaid]
  simp [Exit.allocatedIn]

/-- **a payment redistributes** if Alice can make it and there is nothing after the first exit -/
theorem redistributes_pay_iff (hb0 : 0 ≤ b) (rest : Exit) (paid : Int) :
    Redistributes (x :: rest) (Exit.pay (x :: rest) paid) ↔
      0 ≤ paid ∧ paid ≤ Exit.aliceAmount (x :: rest) ∧ ∀ asset, rest.allocatedIn asset = 0 := by
  have hbob := Exit.bobAmount_pay hx ha hb rest paid
  have htotal := fun asset => Exit.allocatedIn_pay hx ha hb rest asset paid
  rw [Exit.aliceAmount_two hx ha hb]
  constructor
  · rintro ⟨-, hsame, hpaid⟩
    rw [hbob, Exit.aliceAmount_two hx ha hb, Exit.bobAmount_two hx ha hb] at hpaid
    refine ⟨by omega, by omega, fun asset => ?_⟩
    have h := htotal asset
    rw [hsame asset] at h
    omega
  · rintro ⟨hge, hle, hrest⟩
    refine ⟨fun y hy z hz => ?_, fun asset => ?_, ?_⟩
    · rw [List.mem_singleton.1 hy, SingleAssetExit.pay_allocations hx ha hb] at hz
      rcases List.mem_cons.1 hz with rfl | hz
      · exact ⟨a - paid, rfl, by omega⟩
      · rw [List.mem_singleton.1 hz]
        exact ⟨b + paid, rfl, by omega⟩
    · have h := htotal asset
      rw [hrest asset] at h
      omega
    · rw [hbob, Exit.aliceAmount_two hx ha hb, Exit.bobAmount_two hx ha hb]
      omega

end payments

namespace VirtualDefund

/-! ## what is signed -/

theorem Objective.finalState_ok {o : Objective} {final : State} (h : o.finalState = .ok final) :
    ∃ paid, o.paidToBob = some paid ∧ final.outcome = [o.initialOutcome.pay paid] := by
  obtain ⟨outcome, houtcome, hend⟩ := Res.bind_eq_ok.1 h
  cases hend
  obtain ⟨initial, hclone, houtcome⟩ := Res.bind_eq_ok.1 houtcome
  obtain rfl := SingleAssetExit.clone_eq hclone
  split at houtcome
  · next alice bob rest hallocs =>
    obtain ⟨a, ha, houtcome⟩ := Res.bind_eq_ok.1 houtcome
    obtain ⟨paid, hpaid, houtcome⟩ := Res.bind_eq_ok.1 houtcome
    obtain ⟨b, hb, hend⟩ := Res.bind_eq_ok.1 houtcome
    cases hend
    rw [BigInt.deref_eq_ok] at ha hpaid hb
    refine ⟨paid, hpaid, ?_⟩
    simp [SingleAssetExit.pay, hallocs, ha, hb, stateFromFixedAndVariablePart]
  · cases houtcome

variable {cr : Crypto} {o : Objective}

theorem final_signed (hnew : o.signatures = (default, default, default))
    {calls : List Objective.Call} {call : Objective.Call} {u : KeyUse Objective} {final : State}
    (hu : u ∈ call.uses cr (run (Objective.Call.step cr) o calls))
    (hsigned : u.signed = .state final) : o.finalState = .ok final := by
  have hkeys : ∀ x : Objective.Call, Objective.Call.Attests cr (fun _ _ => True) o x := by
    intro x
    cases x with
    | crank sk => exact fun _ _ _ _ => trivial
    | approve => trivial
    | reject => trivial
    | update event => trivial
  have hrun : Objective.Keeps (fun _ _ => True) o (run (Objective.Call.step cr) o calls) :=
    run_inv (fun o' x h => Objective.Call.keeps_step (fun _ _ _ => trivial) o' x h (hkeys x))
      (Objective.keeps_new hnew)
  obtain ⟨hreason, hduring⟩ := Objective.Call.uses_proper hrun (hkeys call) hu
  cases hreason with
  | final hfinal =>
    cases hsigned
    rw [← hduring.same.finalState_eq]
    exact hfinal
  | ledger => cases hsigned

/-! ## where `PaidToBob` comes from -/

/-- `V` is stored: its setup states have the outcome of the state that it was made for -/
structure Stored (s : State) (V : Channel) : Prop where
  pre : V.preFundState.outcome = s.outcome
  post : V.postFundState.outcome = s.outcome

theorem stored_of_setup {G : State → Signature → Prop} {s : State} {i : Nat} {V : Channel}
    (h : Channel.Setup cr G s i V) : Stored s V := by
  rcases h with hnew | hready
  · obtain ⟨-, -, -, -, hstates⟩ := Channel.new_ok hnew
    constructor
    · rw [Channel.preFundState, Channel.signedState, hstates,
        Finmap.lookup_insert_of_ne _ (by decide), Finmap.lookup_insert]
      rfl
    · rw [Channel.postFundState, Channel.signedState, hstates, Finmap.lookup_insert]
      rfl
  · constructor
    · rw [hready.preFundState_eq]
      rfl
    · rw [hready.postFundState_eq]
      rfl

theorem stored_of_opened {getLedger : Address → Option ConsensusChannel} {me : Address} {s : State}
    {o : VirtualFund.Objective} (h : VirtualFund.Opened cr getLedger me s o)
    (calls : List VirtualFund.Objective.Call) :
    Stored s (run (VirtualFund.Objective.Call.step cr) o calls).v := by
  have hkeeps : VirtualFund.Objective.Runs cr s (o.frame s fun _ _ => True) o :=
    h.keeps fun _ _ _ => trivial
  exact stored_of_setup (VirtualFund.Objective.run_keeps (fun _ => VirtualFund.kept_true)
    h.participants_ne_nil hkeeps calls).v

theorem calculatePaidToBob_ok {getChannel : Destination → Option Channel} {proposed : State}
    {paid : Int} (h : calculatePaidToBob cr proposed getChannel = .ok paid) :
    ∃ id V, proposed.channelId cr = .ok id ∧ getChannel id = some V ∧
      paid = proposed.outcome.bobAmount - V.preFundState.outcome.bobAmount := by
  have hbob : ∀ {e : Exit} {x : SingleAssetExit} {bob : Allocation} {b : Int},
      index e 0 = .ok x → index x.allocations 1 = .ok bob → bob.amount.deref = .ok b →
      e.bobAmount = b := by
    intro e x bob b he hx hb
    rw [index_eq_ok] at he hx
    rw [BigInt.deref_eq_ok] at hb
    rcases e with _ | ⟨⟨asset, metadata, _ | ⟨p, _ | ⟨q, rest⟩⟩⟩, e⟩
    · cases he
    all_goals cases he
    · cases hx
    · cases hx
    · cases hx
      simp [Exit.bobAmount, hb]
  obtain ⟨-, h⟩ := failIf_bind_eq_ok.1 h
  obtain ⟨id, hid, h⟩ := Res.bind_eq_ok.1 h
  cases hfound : getChannel id with
  | none =>
    rw [hfound] at h
    cases h
  | some V =>
    rw [hfound] at h
    obtain ⟨initial, hinitial, h⟩ := Res.bind_eq_ok.1 h
    obtain ⟨initialBob, hinitialBob, h⟩ := Res.bind_eq_ok.1 h
    obtain ⟨final, hfinal, h⟩ := Res.bind_eq_ok.1 h
    obtain ⟨finalBob, hfinalBob, h⟩ := Res.bind_eq_ok.1 h
    obtain ⟨b', hb', h⟩ := Res.bind_eq_ok.1 h
    obtain ⟨b, hb, hend⟩ := Res.bind_eq_ok.1 h
    cases hend
    refine ⟨id, V, hid, hfound, ?_⟩
    rw [hbob hinitial hinitialBob hb, hbob hfinal hfinalBob hb']

/-! ## when the final outcome is a redistribution -/

variable {getChannel : Destination → Option Channel} {getLedger : Address → Option ConsensusChannel}
variable {me : Address} {s : State} {V : Channel}

theorem signed_pay (hV : Stored s V) {request : ObjectiveRequest} {preApprove : Bool}
    (hfound : getChannel request.channelId = some V)
    (hnew : newObjective request preApprove me getChannel getLedger = .ok o)
    {calls : List Objective.Call} {call : Objective.Call} {u : KeyUse Objective} {final : State}
    (hu : u ∈ call.uses cr (run (Objective.Call.step cr) o calls))
    (hsigned : u.signed = .state final) :
    ∃ paid x rest, request.paidToBob = some paid ∧ s.outcome = x :: rest ∧
      final.outcome = Exit.pay (x :: rest) paid := by
  obtain ⟨V', hfound', hinitial, hpaid, -, -, hsigs⟩ := newObjective_ok hnew
  obtain rfl := Option.some.inj (hfound.symm.trans hfound')
  obtain ⟨paid, hpaid', houtcome⟩ := Objective.finalState_ok (final_signed hsigs hu hsigned)
  rw [hV.post] at hinitial
  rcases hs : s.outcome with _ | ⟨x, rest⟩
  · rw [hs] at hinitial
    cases hinitial
  · rw [hs] at hinitial
    obtain rfl := Option.some.inj hinitial
    exact ⟨paid, _, rest, hpaid ▸ hpaid', rfl, houtcome⟩

/-- **when the final state is a redistribution.**  Whatever is called, a final state that `Crank` signs
for a request is one exactly if the payment is between nothing and all that Alice has, and nothing is
allocated outside the first exit; for a peer's final state, it moreover is the outcome that the peer
proposed exactly if the peer computed such a payment itself -/
theorem final_outcome_iff (hV : Stored s V) (htwo : ∀ x ∈ s.outcome, x.allocations.length = 2)
    (hamounts : s.outcome.NonNegative) {calls : List Objective.Call} {call : Objective.Call}
    {u : KeyUse Objective} {final : State}
    (hu : u ∈ call.uses cr (run (Objective.Call.step cr) o calls))
    (hsigned : u.signed = .state final) :
    (∀ request preApprove, getChannel request.channelId = some V →
      newObjective request preApprove me getChannel getLedger = .ok o →
      (Redistributes s.outcome final.outcome ↔
        (∃ paid, request.paidToBob = some paid ∧ 0 ≤ paid ∧ paid ≤ s.outcome.aliceAmount) ∧
        ∀ asset, Exit.allocatedIn s.outcome.tail asset = 0)) ∧
    (∀ proposed id preapprove, proposed.channelId cr = .ok id → getChannel id = some V →
      constructObjectiveFromState cr proposed preapprove me getChannel getLedger = .ok o →
      (Redistributes s.outcome final.outcome ∧ final.outcome = proposed.outcome ↔
        (∃ paid, 0 ≤ paid ∧ paid ≤ s.outcome.aliceAmount ∧
          proposed.outcome = s.outcome.pay paid) ∧
        ∀ asset, Exit.allocatedIn s.outcome.tail asset = 0)) := by
  -- the first exit, with its two amounts
  have hfirst : ∀ x rest, s.outcome = x :: rest → ∃ alice bob a b, x.allocations = [alice, bob] ∧
      alice.amount = some a ∧ bob.amount = some b ∧ 0 ≤ b := by
    intro x rest hs
    have hx : x ∈ s.outcome := by
      rw [hs]
      exact List.mem_cons_self
    obtain ⟨alice, bob, hallocs⟩ := List.length_eq_two.1 (htwo x hx)
    obtain ⟨a, ha, -⟩ := hamounts x hx alice (by simp [hallocs])
    obtain ⟨b, hb, hb0⟩ := hamounts x hx bob (by simp [hallocs])
    exact ⟨alice, bob, a, b, hallocs, ha, hb, hb0⟩
  constructor
  · intro request preApprove hfound hnew
    obtain ⟨paid, x, rest, hpaid, hs, hfinal⟩ := signed_pay hV hfound hnew hu hsigned
    obtain ⟨alice, bob, a, b, hx, ha, hb, hb0⟩ := hfirst x rest hs
    rw [hfinal, hs, redistributes_pay_iff hx ha hb hb0]
    constructor
    · rintro ⟨hge, hle, hrest⟩
      exact ⟨⟨paid, hpaid, hge, hle⟩, hrest⟩
    · rintro ⟨⟨paid', hpaid', hge, hle⟩, hrest⟩
      obtain rfl := Option.some.inj (hpaid.symm.trans hpaid')
      exact ⟨hge, hle, hrest⟩
  · intro proposed id preapprove hid hfound hconstruct
    obtain ⟨id', paid, hid', hcalc, hnew⟩ := constructObjectiveFromState_ok hconstruct
    obtain rfl : id = id' := Except.ok.inj (hid.symm.trans hid')
    obtain ⟨paid', x, rest, hpaid, hs, hfinal⟩ := signed_pay hV hfound hnew hu hsigned
    obtain rfl : paid = paid' := Option.some.inj hpaid
    obtain ⟨id', V', hid', hfound', hgrown⟩ := calculatePaidToBob_ok hcalc
    obtain rfl : id = id' := Except.ok.inj (hid.symm.trans hid')
    obtain rfl := Option.some.inj (hfound.symm.trans hfound')
    obtain ⟨alice, bob, a, b, hx, ha, hb, hb0⟩ := hfirst x rest hs
    rw [hV.pre, hs, Exit.bobAmount_two hx ha hb] at hgrown
    rw [hfinal, hs, redistributes_pay_iff hx ha hb hb0]
    constructor
    · rintro ⟨⟨hge, hle, hrest⟩, hsame⟩
      exact ⟨⟨paid, hge, hle, hsame.symm⟩, hrest⟩
    · rintro ⟨⟨paid', hge, hle, hproposed⟩, hrest⟩
      -- the peer's payment is the one that is read off Bob's allocation
      rw [hproposed, Exit.bobAmount_pay hx ha hb] at hgrown
      obtain rfl : paid = paid' := by omega
      exact ⟨⟨hge, hle, hrest⟩, hproposed.symm⟩

end VirtualDefund

/-! ## Bob proposes a final state to Alice -/

namespace Sample
open VirtualDefund

/-- a final state of the channel in which Alice and Bob have these amounts -/
def proposedFinal (alice bob : Int) : State :=
  { virtualState with
    outcome := [⟨0, [], [⟨1, some alice, 0, []⟩, ⟨3, some bob, 0, []⟩]⟩]
    turnNum := 2
    isFinal := true }

/-- Alice's store has the channel -/
def findVirtual : Destination → Option Channel := fun _ => some aliceFunds.v

/-- Alice's answer -/
def finalObjective (alice bob : Int) : Objective :=
  (constructObjectiveFromState Crypto.plain (proposedFinal alice bob) true 1 findVirtual
    fun _ => some guaranteeLedger).toOption.getD
      ⟨.rejected, ⟨0, [], []⟩, none, fp, (default, default, default), none, none, 0⟩

/-- some state with this outcome is signed -/
def signsOutcome (outcome : Exit) (u : KeyUse Objective) : Bool :=
  match u.signed with
  | .state x => decide (x.outcome = outcome)
  | .proposal .. => false

theorem signed_of_signsOutcome {outcome : Exit} {u : KeyUse Objective}
    (h : signsOutcome outcome u = true) : ∃ x, u.signed = .state x ∧ x.outcome = outcome := by
  unfold signsOutcome at h
  split at h
  · next x hx => exact ⟨x, hx, of_decide_eq_true h⟩
  · cases h

theorem new_finalObjective : constructObjectiveFromState Crypto.plain (proposedFinal 3 5) true 1 findVirtual
    (fun _ => some guaranteeLedger) = .ok (finalObjective 3 5) := by
  decide +kernel

theorem virtual_stored : Stored virtualState aliceFunds.v := by
  have h := stored_of_opened (.request new_aliceFunds) []
  rw [run, List.foldl_nil] at h
  exact h

end Sample

namespace VirtualDefund
open Sample

/-- Bob proposes that Alice has paid two, and Alice signs that -/
theorem final_outcome_alice :
    ∃ u final, u ∈ (Objective.Call.crank (key 1)).uses Crypto.plain
        (run (Objective.Call.step Crypto.plain) (finalObjective 3 5) []) ∧
      u.signed = .state final ∧ Redistributes virtualState.outcome final.outcome ∧
      final.outcome = (proposedFinal 3 5).outcome := by
  have hsigns : ((Objective.Call.crank (key 1)).uses Crypto.plain
      (run (Objective.Call.step Crypto.plain) (finalObjective 3 5) [])).any
      (signsOutcome (proposedFinal 3 5).outcome) = true := by decide +kernel
  obtain ⟨u, hu, hu'⟩ := List.any_eq_true.1 hsigns
  obtain ⟨final, hsigned, -⟩ := signed_of_signsOutcome hu'
  have htwo : ∀ x ∈ virtualState.outcome, x.allocations.length = 2 := by
    intro x hx
    rw [List.mem_singleton.1 hx]
    rfl
  have hamounts : virtualState.outcome.NonNegative := by
    intro x hx a ha
    rw [List.mem_singleton.1 hx] at ha
    rcases List.mem_cons.1 ha with rfl | ha
    · exact ⟨5, rfl, by decide⟩
    · rw [List.mem_singleton.1 ha]
      exact ⟨3, rfl, by decide⟩
  have hid : (proposedFinal 3 5).channelId Crypto.plain = .ok virtualId := by decide +kernel
  have hfound : findVirtual virtualId = some aliceFunds.v := rfl
  have hfair := (final_outcome_iff virtual_stored htwo hamounts hu hsigned).2
    (proposedFinal 3 5) virtualId true hid hfound new_finalObjective
  refine ⟨u, final, hu, hsigned, hfair.2 ⟨⟨2, by decide, by decide, ?_⟩, fun asset => ?_⟩⟩
  · rfl
  · rfl

/-- Bob proposes a final state in which he has a hundred more and Alice what she had; Alice signs
another one, in which her amount is negative -/
theorem overpaid_signed :
    constructObjectiveFromState Crypto.plain (proposedFinal 5 103) true 1 findVirtual
      (fun _ => some guaranteeLedger) = .ok (finalObjective 5 103) ∧
    Stored virtualState aliceFunds.v ∧
    ∃ u final, u ∈ (Objective.Call.crank (key 1)).uses Crypto.plain (finalObjective 5 103) ∧
      u.signed = .state final ∧ ¬ Redistributes virtualState.outcome final.outcome ∧
      final.outcome ≠ (proposedFinal 5 103).outcome := by
  have hsigns : ((Objective.Call.crank (key 1)).uses Crypto.plain (finalObjective 5 103)).any
      (signsOutcome (proposedFinal (-95) 103).outcome) = true := by decide +kernel
  obtain ⟨u, hu, hu'⟩ := List.any_eq_true.1 hsigns
  obtain ⟨final, hsigned, houtcome⟩ := signed_of_signsOutcome hu'
  refine ⟨by decide +kernel, virtual_stored, u, final, hu, hsigned, ?_⟩
  rw [houtcome]
  constructor
  · intro h
    obtain ⟨n, hn, hge⟩ := h.nonNegative _ List.mem_cons_self _ List.mem_cons_self
    cases hn
    omega
  · decide

end VirtualDefund

end Nitro
