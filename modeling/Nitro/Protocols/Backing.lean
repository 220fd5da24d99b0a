import Nitro.Protocols.Neutrality

/-!
# Virtual channels and what backs them

Before it signs the postfund state a client looks for the expected guarantee in its ledgers.  The guarantee
has an amount but no asset, and the amount is that of one asset of the outcome; so the channel is
backed if all of its outcome is in the asset of the ledgers.

* `Backed`               the ledgers of the client hold the assets of `V` and guarantee the totals;
* `virtual_backed_iff`   **when a channel is backed** at the time the client signs the postfund state;
* `other_asset_signed`   a postfund state that is signed for ledgers in another asset.
-/

set_option linter.unusedSectionVars false

namespace Nitro
open Go FinMap Runs

/-! ## the asset of a ledger -/

namespace ConsensusChannel

def asset (c : ConsensusChannel) : Address := c.current.vars.outcome.assetAddress

end ConsensusChannel

theorem Vars.Step.assetAddress {v v' : Vars} {p : Proposal} (h : v.Step p v') :
    v'.outcome.assetAddress = v.outcome.assetAddress := by
  cases h with
  | add => rfl
  | remove => rfl

theorem Vars.handleQueue_assetAddress {v w : Vars} {q : List SignedProposal}
    (h : v.handleQueue q = .ok w) : w.outcome.assetAddress = v.outcome.assetAddress := by
  induction q generalizing v with
  | nil =>
    cases h
    rfl
  | cons p q ih =>
    obtain ⟨v', hstep, h⟩ := handleQueue_cons_ok h
    rw [ih h, hstep.assetAddress]

/-- **a ledger stays in its asset** -/
theorem ConsensusChannel.kept_asset (cr : Crypto) (a : Address) :
    Kept cr fun c => c.asset = a := by
  refine ⟨fun {c c'} h hclone => ?_, fun {c o c'} h hchange => ?_⟩
  · obtain ⟨queue, -, hclone⟩ := Res.bind_eq_ok.1 hclone
    obtain ⟨fp, -, hend⟩ := Res.bind_eq_ok.1 hclone
    cases hend
    exact h
  · cases hchange with
    | enqueue => exact h
    | @advance done rest last v v' sig follower hqueue hdone hstep hfollower hsig =>
      show v'.outcome.assetAddress = a
      rw [hstep.assetAddress, Vars.handleQueue_assetAddress hdone]
      exact h

namespace VirtualFund

/-! ## the amounts of the guarantee -/

/-- the two initial amounts make up the total, since an exit has two allocations -/
theorem initialAmounts_total (asset : Address) {alice bob : Address} {n : Nat} {e : Exit}
    {f g f' g' : Funds} (htwo : ∀ x ∈ e, x.allocations.length = 2)
    (h : initialAmounts alice bob n e (f, g) = .ok (f', g')) :
    f'.amount asset + g'.amount asset =
      f.amount asset + g.amount asset + e.allocatedIn asset := by
  induction e generalizing f g with
  | nil =>
    cases h
    simp [Exit.allocatedIn]
  | cons x e ih =>
    obtain ⟨slot0, slot1, amount0, amount1, h0, h1, ha0, ha1, h⟩ := initialAmounts_cons h
    have hlen := htwo x List.mem_cons_self
    have hallocs : x.allocations = [slot0, slot1] := by
      obtain ⟨p, q, hpq⟩ := List.length_eq_two.1 hlen
      rw [hpq] at h0 h1 ⊢
      cases h0
      cases h1
      rfl
    have hx : x.allocated = amount0 + amount1 := by
      simp [SingleAssetExit.allocated, Allocation.value, hallocs, ha0, ha1]
    rw [ih (fun y hy => htwo y (List.mem_cons_of_mem x hy)) h, Exit.allocatedIn_cons]
    by_cases he : x.asset = asset
    · rw [if_pos he, hx, he, Funds.amount_of_lookup (Finmap.lookup_insert _),
        Funds.amount_of_lookup (Finmap.lookup_insert _)]
      omega
    · have hne : asset ≠ x.asset := fun e' => he e'.symm
      rw [if_neg he]
      simp only [Funds.amount, Finmap.lookup_insert_of_ne _ hne]
      omega

theorem includes_ok {c : ConsensusChannel} {g : Guarantee BigInt} (h : c.includes g = true) :
    ∃ g', c.current.vars.outcome.guarantees.lookup g.target = some g' ∧ g'.wire = g := by
  unfold ConsensusChannel.includes LedgerOutcome.includes at h
  cases hl : c.current.vars.outcome.guarantees.lookup g.target with
  | none =>
    rw [hl] at h
    cases h
  | some g' =>
    rw [hl] at h
    obtain ⟨hleft, hright, htarget, hamount⟩ := of_decide_eq_true h
    refine ⟨g', rfl, ?_⟩
    cases g
    cases g'
    simp_all [Guarantee.wire]

/-! ## backing -/

variable {cr : Crypto} {getLedger : Address → Option ConsensusChannel} {me : Address}
variable {s : State} {o : Objective}

/-- at a use of the key in a run of `o`: for every asset of the outcome of `V`, the ledgers next to
the client are in that asset, and guarantee the total -/
def Backed (s : State) (o : Objective) (u : KeyUse Objective) : Prop :=
  ∀ e ∈ s.outcome, ∀ side : Side, side.Adjacent o.myRole →
    ∃ c g, u.during.connection side = some c ∧ c.channel.asset = e.asset ∧
      c.channel.current.vars.outcome.guarantees.lookup o.v.id = some g ∧
      g.amount = s.outcome.allocatedIn e.asset

/-- each ledger is in the asset that it had at the start -/
def SameAsset (o : Objective) (side : Side) (c : ConsensusChannel) : Prop :=
  ∀ c₀, o.connection side = some c₀ → c.asset = c₀.channel.asset

theorem kept_sameAsset (cr : Crypto) (o : Objective) (side : Side) :
    ConsensusChannel.Kept cr (SameAsset o side) :=
  ⟨fun h hclone c₀ hc₀ => (ConsensusChannel.kept_asset cr _).clone (h c₀ hc₀) hclone,
    fun h hchange c₀ hc₀ => (ConsensusChannel.kept_asset cr _).change (h c₀ hc₀) hchange⟩

/-- the guarantee in a funded ledger is for the total of the outcome, if that is in one asset -/
theorem Opened.guaranteed {asset : Address} {side : Side} {c : Connection} {r : RangeOrder}
    (h : Opened cr getLedger me s o) (hs : OneAsset s.outcome asset)
    (hinfo : Informed s o.v.id o.a0 o.b0 (side.position o.myRole) c.guaranteeInfo)
    (hfunded : c.funded r = true) :
    ∃ g, c.channel.current.vars.outcome.guarantees.lookup o.v.id = some g ∧
      g.amount = s.outcome.allocatedIn asset := by
  obtain ⟨ha, hb⟩ := h.amounts_keys hs
  obtain ⟨_, _, _, h, -, -⟩ := h.construct
  obtain ⟨-, -, -, -, htwo, -, ⟨_, _, -, -, hamounts⟩, -⟩ := constructFromState_ok h
  obtain ⟨x, y, -, -, hinfo⟩ := hinfo
  unfold Connection.funded at hfunded
  rw [c.getExpectedGuarantee_single r hinfo ha hb] at hfunded
  obtain ⟨g, hg, hwire⟩ := includes_ok hfunded
  refine ⟨g, hg, ?_⟩
  have htotal := initialAmounts_total asset htwo hamounts
  rw [Funds.amount_empty, add_zero, zero_add] at htotal
  rw [← htotal]
  exact Option.some.inj (congrArg Guarantee.amount hwire)

/-- **when a virtual channel is backed**: whenever `Crank` signs the postfund state, after any calls,
the ledgers back the channel exactly if they are in the asset of everything that it allocates; a
channel whose initial state has the turn number of the postfund state is another matter -/
theorem virtual_backed_iff (h : Opened cr getLedger me s o)
    (hturn : s.turnNum ≠ postFundTurnNum) {calls : List Objective.Call} {call : Objective.Call}
    {u : KeyUse Objective} (hu : u ∈ call.uses cr (run (Objective.Call.step cr) o calls))
    (hsigned : u.signed = .state s.postfund) :
    Backed s o u ↔ ∀ e ∈ s.outcome, ∀ side c, o.connection side = some c →
      c.channel.asset = e.asset := by
  have hne := h.participants_ne_nil
  have hkeeps : Objective.Runs cr s (o.frame s (SameAsset o)) o := by
    refine h.keeps fun side c hc c₀ hc₀ => ?_
    rw [Option.some.inj (hc.symm.trans hc₀)]
  have hrun := Objective.run_keeps (kept_sameAsset cr o) hne hkeeps calls
  obtain ⟨orders, hreason, hduring⟩ :=
    Objective.Call.uses_proper (kept_sameAsset cr o) hne hrun hu
  cases hreason with
  | prefund o' =>
    -- the prefund state has the turn number of the initial state
    have hpre := hduring.v.preFundState_eq
    rw [show o'.v.preFundState = s.postfund from Signed.state.inj hsigned] at hpre
    exact absurd (congrArg State.turnNum hpre).symm hturn
  | ledger => cases hsigned
  | @postfund o' hpre hfunded =>
    constructor
    · intro hbacked e he side c hc
      obtain ⟨c', g, hc', hasset, -, -⟩ := hbacked e he side ((h.adjacent_iff side).2 ⟨c, hc⟩)
      obtain ⟨-, hsame⟩ := hduring.connection side c' hc'
      rw [← hsame c hc]
      exact hasset
    · intro hassets e he side hadj
      obtain ⟨c₀, hc₀⟩ := (h.adjacent_iff side).1 hadj
      have hrole : side.Adjacent o'.myRole := by
        rw [hduring.myRole]
        exact hadj
      obtain ⟨c, hc, hincluded⟩ := Objective.fundingComplete_ok hfunded hduring.n hrole
      obtain ⟨hinfo, hsame⟩ := hduring.connection side c hc
      have hone : OneAsset s.outcome e.asset := by
        refine ⟨List.ne_nil_of_mem he, fun x hx => ?_⟩
        rw [← hassets x hx side c₀ hc₀, hassets e he side c₀ hc₀]
      obtain ⟨g, hg, hamount⟩ := h.guaranteed hone hinfo hincluded
      exact ⟨c, g, hc, (hsame c₀ hc₀).trans (hassets e he side c₀ hc₀), hg, hamount⟩

end VirtualFund

/-! ## Alice funds a channel -/

namespace Sample
open VirtualFund

/-- five for Alice and three for Bob in an asset -/
def assetState (asset : Address) : State :=
  { virtualState with outcome := [⟨asset, [], [⟨1, some 5, 0, []⟩, ⟨3, some 3, 0, []⟩]⟩] }

/-- the intermediary's answer to Alice's proposal -/
def countersigned : SignedProposal where
  signature := sigOn (((ledgerLedBy 1 2).current.vars.funded
    (Vars.guaranteeFor virtualId 1 2 5 3) 5).asState (ledgerLedBy 1 2).fp) 2
  proposal := newAddProposal (ledgerLedBy 1 2).id (Vars.guaranteeFor virtualId 1 2 5 3).wire (some 5)
  turnNum := 1

/-- Alice's ledger is in the native token -/
def assetObjective (asset : Address) : Objective :=
  (VirtualFund.newObjective Crypto.plain ⟨2, 3, [], some 60, (assetState asset).outcome, 7⟩ true 1
    fun _ => some (ledgerLedBy 1 2)).toOption.getD ⟨.rejected, channel, none, none, 0, 0, ∅, ∅⟩

def assetCalls (asset : Address) : List Objective.Call :=
  [.crank orders (key 1),
    .update ⟨(assetObjective asset).id, signedByOthers (assetState asset), SignedProposal.zero⟩,
    .crank orders (key 1), .update ⟨(assetObjective asset).id, SignedState.zero, countersigned⟩]

/-- the postfund state is signed while the ledger is in the native token -/
def signsPostfund (asset : Address) (u : KeyUse Objective) : Bool :=
  decide (u.signed = .state (assetState asset).postfund) &&
    decide (u.during.toMyRight.map (fun c => c.channel.asset) = some 0)

theorem new_assetObjective {asset : Address} (h : asset = 0 ∨ asset = 7) :
    Opened Crypto.plain (fun _ => some (ledgerLedBy 1 2)) 1 (assetState asset)
      (assetObjective asset) := by
  suffices hnew : newObjective Crypto.plain ⟨2, 3, [], some 60, (assetState asset).outcome, 7⟩ true 1
      (fun _ => some (ledgerLedBy 1 2)) = .ok (assetObjective asset) from .request hnew
  rcases h with rfl | rfl
  · decide +kernel
  · decide +kernel

theorem exists_postfund {asset : Address} (h : asset = 0 ∨ asset = 7) :
    ∃ u ∈ (Objective.Call.crank orders (key 1)).uses Crypto.plain
        (run (Objective.Call.step Crypto.plain) (assetObjective asset) (assetCalls asset)),
      u.signed = .state (assetState asset).postfund ∧
      u.during.toMyRight.map (fun c => c.channel.asset) = some 0 := by
  have hany : ((Objective.Call.crank orders (key 1)).uses Crypto.plain
      (run (Objective.Call.step Crypto.plain) (assetObjective asset) (assetCalls asset))).any
        (signsPostfund asset) = true := by
    rcases h with rfl | rfl
    · decide +kernel
    · decide +kernel
  obtain ⟨u, hu, hsigns⟩ := List.any_eq_true.1 hany
  obtain ⟨hsigned, hasset⟩ := Bool.and_eq_true_iff.1 hsigns
  exact ⟨u, hu, of_decide_eq_true hsigned, of_decide_eq_true hasset⟩

end Sample

namespace VirtualFund
open Sample

theorem virtual_backed_alice :
    ∃ u ∈ (Objective.Call.crank orders (key 1)).uses Crypto.plain
        (run (Objective.Call.step Crypto.plain) (assetObjective 0) (assetCalls 0)),
      u.signed = .state (assetState 0).postfund ∧ Backed (assetState 0) (assetObjective 0) u := by
  have hopened := new_assetObjective (.inl rfl)
  obtain ⟨u, hu, hsigned, -⟩ := exists_postfund (.inl rfl)
  refine ⟨u, hu, hsigned, (virtual_backed_iff hopened (by decide) hu hsigned).2 ?_⟩
  intro e he side c hc
  obtain ⟨a, ha⟩ := hopened.stored hc
  rw [← Option.some.inj ha, List.mem_singleton.1 he]
  rfl

/-- Alice signs the postfund state of a channel in asset 7 that is funded from a ledger in the native
token -/
theorem other_asset_signed :
    ∃ u ∈ (Objective.Call.crank orders (key 1)).uses Crypto.plain
        (run (Objective.Call.step Crypto.plain) (assetObjective 7) (assetCalls 7)),
      Opened Crypto.plain (fun _ => some (ledgerLedBy 1 2)) 1 (assetState 7) (assetObjective 7) ∧
      u.signed = .state (assetState 7).postfund ∧
      ¬ Backed (assetState 7) (assetObjective 7) u := by
  obtain ⟨u, hu, hsigned, hasset⟩ := exists_postfund (.inr rfl)
  refine ⟨u, hu, new_assetObjective (.inr rfl), hsigned, fun hbacked => ?_⟩
  have hrole : Side.right.Adjacent (assetObjective 7).myRole := by
    show (assetObjective 7).myRole ≠ 2
    decide +kernel
  obtain ⟨c, g, hc, hseven, -, -⟩ := hbacked _ (List.mem_singleton.2 rfl) .right hrole
  have hc : u.during.toMyRight = some c := hc
  rw [hc, Option.map_some, hseven] at hasset
  exact absurd (Option.some.inj hasset) (by decide)

end VirtualFund

end Nitro
