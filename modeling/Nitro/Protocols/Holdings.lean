import Nitro.Protocols.DepositSafety

/-!
# The holdings that an objective records

A `directfund` objective keeps one block number for all its assets, and records an event only in a block
after it.  Of the events of one block the first is recorded and the others are not.

* `Deposit`            a `DepositedEvent`; `watch` hands a list of them to the objective;
* `openers`            the events that are the first of their block;
* `watch_recorded`     **the recorded holdings are those of the last opener of each asset**;
* `holdings_tracked_iff`   when they are those of the last event.
-/

set_option linter.unusedSectionVars false

namespace Nitro
open Go FinMap Runs

structure Deposit where
  channelId : Destination
  blockNum : UInt64
  asset : Address
  amountDeposited : Int
  nowHeld : Int
  deriving DecidableEq

def Deposit.event (e : Deposit) : ChainEvent :=
  .deposited e.channelId e.blockNum e.asset e.amountDeposited e.nowHeld

/-- what the last event of an asset reports -/
def lastHeld (asset : Address) (events : List Deposit) : Option Int :=
  (events.filter fun e => decide (e.asset = asset)).getLast?.map Deposit.nowHeld

/-- the events that are the first of their block, in a block after `b` -/
def openers (b : UInt64) (events : List Deposit) : List Deposit :=
  (events.zipIdx.filter fun p =>
    decide (b < p.1.blockNum ∧ ∀ d ∈ events.take p.2, d.blockNum ≠ p.1.blockNum)).map Prod.fst

theorem openers_snoc (b : UInt64) (events : List Deposit) (e : Deposit) :
    openers b (events ++ [e]) = openers b events ++
      if b < e.blockNum ∧ ∀ d ∈ events, d.blockNum ≠ e.blockNum then [e] else [] := by
  unfold openers
  rw [List.zipIdx_append, List.filter_append, List.map_append]
  congr 1
  · congr 1
    refine List.filter_congr fun p hp => ?_
    have hlt : p.2 < events.length := by
      have h := (List.mem_zipIdx hp).2.1
      omega
    rw [List.take_append_of_le_length (Nat.le_of_lt hlt)]
  · show (List.filter _ [(e, 0 + events.length)]).map Prod.fst = _
    rw [Nat.zero_add, List.filter_singleton]
    dsimp only
    rw [List.take_left]
    by_cases h : b < e.blockNum ∧ ∀ d ∈ events, d.blockNum ≠ e.blockNum
    · rw [if_pos h, decide_eq_true h]
      rfl
    · rw [if_neg h, decide_eq_false h]
      rfl

theorem lastHeld_snoc (asset : Address) (events : List Deposit) (e : Deposit) :
    lastHeld asset (events ++ [e]) =
      if e.asset = asset then some e.nowHeld else lastHeld asset events := by
  unfold lastHeld
  rw [List.filter_append, List.filter_singleton]
  by_cases h : e.asset = asset
  · simp [h]
  · simp [h]

namespace DirectFund.Objective
variable {cr : Crypto} {o u : Objective} {events : List Deposit}

/-- the events one after the other -/
def watch (cr : Crypto) (o : Objective) (events : List Deposit) : Res Objective :=
  events.foldlM (fun o e => do
    let r ← o.updateWithChainEvent cr e.event
    .ok r.1) o

/-- what an event does to a copy -/
def recordDeposit (o : Objective) (e : Deposit) : Objective :=
  if o.latestBlockNumber < e.blockNum then
    { o with
      c := { o.c with onChainFunding := o.c.onChainFunding.insert e.asset e.nowHeld }
      latestBlockNumber := e.blockNum }
  else o

theorem stable_recordDeposit (e : Deposit) (h : Channel.Stable cr o.c) :
    Channel.Stable cr (o.recordDeposit e).c := by
  unfold recordDeposit
  split
  · exact ⟨h.pre, h.made, h.setup, h.records, h.fixed⟩
  · exact h

theorem updateWithChainEvent_deposit (hclone : o.clone cr = .ok u) (e : Deposit) :
    o.updateWithChainEvent cr e.event = .ok (u.recordDeposit e, none) := by
  unfold updateWithChainEvent recordDeposit
  rw [hclone]
  show (if u.latestBlockNumber < e.blockNum then _ else _) = _
  split
  · rfl
  · rfl

theorem watch_stable (h : Channel.Stable cr o.c) (events : List Deposit) :
    watch cr o events = .ok (events.foldl recordDeposit o) := by
  unfold watch
  induction events generalizing o with
  | nil => rfl
  | cons e events ih =>
    rw [List.foldlM_cons, updateWithChainEvent_deposit (clone_self h)]
    exact ih (stable_recordDeposit e h)

structure Watched (o : Objective) (events : List Deposit) (r : Objective) : Prop where
  from_start : o.latestBlockNumber ≤ r.latestBlockNumber
  reached : ∀ d ∈ events, d.blockNum ≤ r.latestBlockNumber
  named : r.latestBlockNumber = o.latestBlockNumber ∨ ∃ d ∈ events, d.blockNum = r.latestBlockNumber
  held : ∀ asset, r.c.onChainFunding.lookup asset =
    (lastHeld asset (openers o.latestBlockNumber events)).or (o.c.onChainFunding.lookup asset)

theorem watched_nil (o : Objective) : Watched o [] o :=
  ⟨UInt64.le_refl _, fun _ hd => absurd hd List.not_mem_nil, .inl rfl, fun _ => rfl⟩

theorem Watched.opens_iff {r : Objective} {e : Deposit} (h : Watched o events r)
    (hsorted : ∀ d ∈ events, d.blockNum ≤ e.blockNum) :
    r.latestBlockNumber < e.blockNum ↔
      o.latestBlockNumber < e.blockNum ∧ ∀ d ∈ events, d.blockNum ≠ e.blockNum := by
  constructor
  · intro hlt
    refine ⟨UInt64.lt_of_le_of_lt h.from_start hlt, fun d hd heq => ?_⟩
    exact UInt64.lt_irrefl _ (UInt64.lt_of_lt_of_le hlt (heq ▸ h.reached d hd))
  · intro ⟨hfrom, hfirst⟩
    rcases h.named with heq | ⟨d, hd, heq⟩
    · rwa [heq]
    · rw [← heq]
      exact UInt64.lt_of_le_of_ne (hsorted d hd) (hfirst d hd)

/-- **one event** -/
theorem Watched.record {r : Objective} {e : Deposit} (h : Watched o events r)
    (hsorted : ∀ d ∈ events, d.blockNum ≤ e.blockNum) :
    Watched o (events ++ [e]) (r.recordDeposit e) := by
  have hiff := h.opens_iff hsorted
  unfold recordDeposit
  by_cases hlt : r.latestBlockNumber < e.blockNum
  · rw [if_pos hlt]
    refine ⟨UInt64.le_of_lt (UInt64.lt_of_le_of_lt h.from_start hlt), fun d hd => ?_,
      .inr ⟨e, List.mem_append_right _ List.mem_cons_self, rfl⟩, fun asset => ?_⟩
    · rcases List.mem_append.1 hd with hd | hd
      · exact hsorted d hd
      · rw [List.mem_singleton.1 hd]
        exact UInt64.le_refl _
    · rw [openers_snoc, if_pos (hiff.1 hlt), lastHeld_snoc]
      by_cases ha : e.asset = asset
      · subst ha
        rw [if_pos rfl]
        exact Finmap.lookup_insert _
      · rw [if_neg ha, ← h.held asset]
        exact Finmap.lookup_insert_of_ne _ (Ne.symm ha)
  · rw [if_neg hlt]
    refine ⟨h.from_start, fun d hd => ?_, ?_, fun asset => ?_⟩
    · rcases List.mem_append.1 hd with hd | hd
      · exact h.reached d hd
      · rw [List.mem_singleton.1 hd]
        exact UInt64.not_lt.1 hlt
    · rcases h.named with heq | ⟨d, hd, heq⟩
      · exact .inl heq
      · exact .inr ⟨d, List.mem_append_left _ hd, heq⟩
    · rw [openers_snoc, if_neg fun hopen => hlt (hiff.2 hopen), List.append_nil]
      exact h.held asset

/-- **a run** of events in chain order -/
theorem watched_foldl (hsorted : events.Pairwise fun d e => d.blockNum ≤ e.blockNum) :
    Watched o events (events.foldl recordDeposit o) := by
  induction events using List.reverseRecOn with
  | nil => exact watched_nil o
  | append_singleton events e ih =>
    obtain ⟨hbefore, -, hlast⟩ := List.pairwise_append.1 hsorted
    rw [List.foldl_append]
    exact (ih hbefore).record fun d hd => hlast d hd e List.mem_cons_self

/-- the first event is recorded in a copy, which is its own copy -/
theorem watch_returns (hclone : o.clone cr = .ok u) (events : List Deposit) :
    ∃ o', watch cr o events = .ok (events.foldl recordDeposit o') ∧
      o'.latestBlockNumber = o.latestBlockNumber ∧ o'.c.onChainFunding = o.c.onChainFunding ∧
      o'.fullyFundedThreshold = o.fullyFundedThreshold := by
  cases events with
  | nil => exact ⟨o, rfl, rfl, rfl, rfl⟩
  | cons e events =>
    obtain ⟨d, hd, rfl⟩ := clone_ok hclone
    have hstable : Channel.Stable cr d := Channel.stable_clone hd
    refine ⟨{ o with c := d }, ?_, rfl, (Channel.clone_ok hd).2.2.2.1, rfl⟩
    unfold watch
    rw [List.foldlM_cons, updateWithChainEvent_deposit hclone]
    exact watch_stable (stable_recordDeposit e hstable) events

theorem watch_recorded (hclone : o.clone cr = .ok u)
    (hsorted : events.Pairwise fun d e => d.blockNum ≤ e.blockNum) :
    ∃ r, watch cr o events = .ok r ∧ ∀ asset, r.c.onChainFunding.lookup asset =
      (lastHeld asset (openers o.latestBlockNumber events)).or
        (o.c.onChainFunding.lookup asset) := by
  obtain ⟨o', hrun, hlatest, hheld, -⟩ := watch_returns hclone events
  refine ⟨_, hrun, fun asset => ?_⟩
  rw [(watched_foldl (o := o') hsorted).held asset, hlatest, hheld]

/-- every asset has the holdings that its last event reported -/
def Tracks (o : Objective) (events : List Deposit) : Prop :=
  ∀ asset held, lastHeld asset events = some held → o.c.onChainFunding.lookup asset = some held

/-- the last event of every asset reports what the last one that opened its block reported, or, where
no event of the asset opened a block, what the objective has -/
def OnTime (o : Objective) (events : List Deposit) : Prop :=
  ∀ asset held, lastHeld asset events = some held →
    lastHeld asset (openers o.latestBlockNumber events) = some held ∨
      lastHeld asset (openers o.latestBlockNumber events) = none ∧
        o.c.onChainFunding.lookup asset = some held

/-- **the recorded holdings track the chain exactly when the events are on time** -/
theorem holdings_tracked_iff (hclone : o.clone cr = .ok u)
    (hsorted : events.Pairwise fun d e => d.blockNum ≤ e.blockNum) :
    ∃ r, watch cr o events = .ok r ∧ (r.Tracks events ↔ o.OnTime events) := by
  obtain ⟨r, hr, hheld⟩ := watch_recorded hclone hsorted
  refine ⟨r, hr, forall_congr' fun asset => forall_congr' fun held => imp_congr_right fun _ => ?_⟩
  rw [hheld asset]
  cases lastHeld asset (openers o.latestBlockNumber events) with
  | none => simp
  | some held' => simp

end DirectFund.Objective

/-! ## two assets in one block -/

namespace Sample

/-- five of each of two assets for each of the two participants -/
def bothAssetsState : State := { state 0 with outcome := [⟨0, [], fiveEach⟩, ⟨1, [], fiveEach⟩] }

def bothAssetsObjective : DirectFund.Objective :=
  (DirectFund.constructFromState Crypto.plain true bothAssetsState 1).toOption.getD
    (fundingObjective fiveEach)

/-- a deposit of five of each asset, the first one in block 1 and the second one in a given block -/
def bothDeposits (block : UInt64) : List Deposit :=
  [⟨bothAssetsObjective.c.id, 1, 0, 5, 5⟩, ⟨bothAssetsObjective.c.id, block, 1, 5, 5⟩]

theorem bothAssets_new :
    DirectFund.constructFromState Crypto.plain true bothAssetsState 1 = .ok bothAssetsObjective := by
  decide +kernel

theorem bothAssets_clone : ∃ u, bothAssetsObjective.clone Crypto.plain = .ok u := by
  have h : (bothAssetsObjective.clone Crypto.plain).toOption.isSome = true := by decide +kernel
  cases hc : bothAssetsObjective.clone Crypto.plain with
  | ok u => exact ⟨u, rfl⟩
  | error e =>
    rw [hc] at h
    cases h

end Sample

namespace DirectFund.Objective

/-- in two blocks both are recorded -/
theorem holdings_tracked_two_blocks :
    ∃ r, watch Crypto.plain Sample.bothAssetsObjective (Sample.bothDeposits 2) = .ok r ∧
      r.Tracks (Sample.bothDeposits 2) := by
  obtain ⟨u, hu⟩ := Sample.bothAssets_clone
  have hsorted : (Sample.bothDeposits 2).Pairwise fun e e' => e.blockNum ≤ e'.blockNum := by
    simp [Sample.bothDeposits]
  obtain ⟨r, hr, hiff⟩ := holdings_tracked_iff hu hsorted
  refine ⟨r, hr, hiff.2 fun asset held hheld => .inl ?_⟩
  have hopen : openers Sample.bothAssetsObjective.latestBlockNumber (Sample.bothDeposits 2) =
      Sample.bothDeposits 2 := by decide +kernel
  rw [hopen]
  exact hheld

/-- in one block, as the mock chain has them, the second one is lost -/
theorem one_block_untracked :
    constructFromState Crypto.plain true Sample.bothAssetsState 1 =
      .ok Sample.bothAssetsObjective ∧
    (Sample.bothDeposits 1).Pairwise (fun d e => d.blockNum ≤ e.blockNum) ∧
    (∀ e ∈ Sample.bothDeposits 1, e.channelId = Sample.bothAssetsObjective.c.id) ∧
    ∃ r, watch Crypto.plain Sample.bothAssetsObjective (Sample.bothDeposits 1) = .ok r ∧
      lastHeld 1 (Sample.bothDeposits 1) = some 5 ∧ r.c.onChainFunding.lookup 1 = some 0 := by
  have hsorted : (Sample.bothDeposits 1).Pairwise (fun d e => d.blockNum ≤ e.blockNum) := by
    simp [Sample.bothDeposits]
  obtain ⟨u, hu⟩ := Sample.bothAssets_clone
  obtain ⟨r, hr, hheld⟩ := watch_recorded hu hsorted
  refine ⟨Sample.bothAssets_new, hsorted, by simp [Sample.bothDeposits], r, hr, rfl, ?_⟩
  rw [hheld]
  decide +kernel

end DirectFund.Objective

end Nitro
