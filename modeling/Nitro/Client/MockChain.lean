import Nitro.Lib.Feeds
import Nitro.Protocols.Holdings

/-!
# The mock chain

The chain service that keeps the holdings itself, and the feeds that it shares with the other chain
services: every subscriber has a chan for ten events, and an event that finds it full is dropped.

* `sendTransaction`, `subscribeToEvents`, `broadcast`   the service;
* `feed_lossless_iff`        **what a subscriber gets**, and when that is everything;
* `held_deposits`            **the holdings are the deposits** since the last withdrawal;
* `never_funded`             **two assets in the last transaction**: the channel is never seen funded.
-/

set_option linter.unusedSectionVars false

namespace Nitro
open Go FinMap Runs

namespace ChainService

/-- `NowHeld` is nil for an asset that is not held -/
inductive Event where
  | deposited (channelId : Destination) (blockNum : UInt64) (asset : Address) (amountDeposited : Int)
      (nowHeld : Option Int)
  | allocationUpdated (channelId : Destination) (blockNum : UInt64) (assetAddress : Address)
      (assetAmount : Int)
  deriving DecidableEq

/-- a chan, with what was taken out of it -/
abbrev Chan := Feeds.Feed Event

instance : Inhabited Chan := ⟨⟨[], []⟩⟩

structure MockChain where
  holdings : Map Destination Funds
  blockNum : UInt64
  out : Map Address Chan

def newMockChain : MockChain := ⟨∅, 1, ∅⟩

/-! ## the service -/

def subscribeToEvents (mc : MockChain) (a : Address) : MockChain :=
  { mc with out := mc.out.insert a ⟨[], []⟩ }

def broadcast (mc : MockChain) (event : Event) : MockChain :=
  { mc with out := mapValues (fun c => Feeds.step 10 c (.send event)) mc.out }

def held (mc : MockChain) (channelId : Destination) : Funds :=
  (mc.holdings.lookup channelId).getD ∅

/-- a deposit without a positive amount is not added -/
def credit (mc : MockChain) (channelId : Destination) (deposit : Funds) : MockChain :=
  if deposit.isNonZero then
    { mc with holdings := mc.holdings.insert channelId ((held mc channelId).add [deposit]) }
  else mc

/-- the loops over the assets go in the given order -/
def sendTransaction (mc : MockChain) (order : List Address) : ChainTransaction → MockChain
  | .deposit channelId deposit =>
    let mc := credit { mc with blockNum := mc.blockNum + 1 } channelId deposit
    order.foldl (fun m asset => broadcast m (.deposited channelId mc.blockNum asset
      (deposit.amount asset) ((held mc channelId).lookup asset))) mc
  | .withdrawAll channelId _ =>
    let mc := { mc with blockNum := mc.blockNum + 1 }
    let mc := order.foldl (fun m asset =>
      broadcast m (.allocationUpdated channelId mc.blockNum asset 0)) mc
    { mc with holdings := mc.holdings.insert channelId ∅ }

/-- what the map of a channel is after a transaction -/
def heldAfter (mc : MockChain) : ChainTransaction → Destination → Funds
  | .deposit c deposit, channelId =>
    if c = channelId ∧ deposit.isNonZero then (held mc c).add [deposit] else held mc channelId
  | .withdrawAll c _, channelId => if c = channelId then ∅ else held mc channelId

/-- the events of a transaction -/
def emitted (mc : MockChain) (order : List Address) : ChainTransaction → List Event
  | .deposit c deposit => order.map fun asset => .deposited c (mc.blockNum + 1) asset
      (deposit.amount asset) ((heldAfter mc (.deposit c deposit) c).lookup asset)
  | .withdrawAll c _ => order.map fun asset => .allocationUpdated c (mc.blockNum + 1) asset 0

section service
variable {mc : MockChain} {order : List Address} {tx : ChainTransaction} {a : Address} {c : Chan}

theorem broadcast_foldl (mc : MockChain) (order : List Address) (a : Address) (f : Address → Event) :
    (order.foldl (fun m asset => broadcast m (f asset)) mc).holdings = mc.holdings ∧
    (order.foldl (fun m asset => broadcast m (f asset)) mc).blockNum = mc.blockNum ∧
    (order.foldl (fun m asset => broadcast m (f asset)) mc).out.lookup a =
      (mc.out.lookup a).map fun c => run (Feeds.step 10) c ((order.map f).map .send) := by
  induction order generalizing mc with
  | nil => exact ⟨rfl, rfl, Option.map_id'.symm⟩
  | cons asset order ih =>
    obtain ⟨hholdings, hblock, hout⟩ := ih (broadcast mc (f asset))
    refine ⟨hholdings, hblock, hout.trans ?_⟩
    unfold broadcast
    rw [lookup_mapValues, Option.map_map]
    rfl

theorem held_eq_of_insert {m : MockChain} {c : Destination} {f : Funds}
    (h : m.holdings = mc.holdings.insert c f) (channelId : Destination) :
    held m channelId = if c = channelId then f else held mc channelId := by
  unfold held
  rw [h]
  by_cases hc : c = channelId
  · rw [if_pos hc, ← hc, Finmap.lookup_insert]
    rfl
  · rw [if_neg hc, Finmap.lookup_insert_of_ne _ (Ne.symm hc)]

theorem held_congr {m : MockChain} (h : m.holdings = mc.holdings) (channelId : Destination) :
    held m channelId = held mc channelId := by
  unfold held
  rw [h]

theorem credit_spec (mc : MockChain) (c : Destination) (deposit : Funds) :
    (∀ channelId, held (credit mc c deposit) channelId =
      heldAfter mc (.deposit c deposit) channelId) ∧
    (credit mc c deposit).blockNum = mc.blockNum ∧ (credit mc c deposit).out = mc.out := by
  unfold credit heldAfter
  by_cases hzero : deposit.isNonZero
  · rw [if_pos hzero]
    refine ⟨fun channelId => ?_, rfl, rfl⟩
    rw [held_eq_of_insert rfl]
    simp only [hzero, and_true]
  · rw [if_neg hzero]
    exact ⟨fun channelId => (if_neg fun h => hzero h.2).symm, rfl, rfl⟩

/-- **what a transaction does** -/
theorem sendTransaction_spec (mc : MockChain) (order : List Address) (tx : ChainTransaction)
    (a : Address) :
    (∀ channelId, held (sendTransaction mc order tx) channelId = heldAfter mc tx channelId) ∧
    (sendTransaction mc order tx).blockNum = mc.blockNum + 1 ∧
    (sendTransaction mc order tx).out.lookup a = (mc.out.lookup a).map fun c =>
      run (Feeds.step 10) c ((emitted mc order tx).map .send) := by
  cases tx with
  | deposit c deposit =>
    obtain ⟨hheld, hblock, hout⟩ := credit_spec { mc with blockNum := mc.blockNum + 1 } c deposit
    obtain ⟨hholdings, hblock', hout'⟩ := broadcast_foldl
      (credit { mc with blockNum := mc.blockNum + 1 } c deposit) order a fun asset =>
        .deposited c (credit { mc with blockNum := mc.blockNum + 1 } c deposit).blockNum asset
          (deposit.amount asset)
          ((held (credit { mc with blockNum := mc.blockNum + 1 } c deposit) c).lookup asset)
    refine ⟨fun channelId => (held_congr hholdings channelId).trans (hheld channelId),
      hblock'.trans hblock, hout'.trans ?_⟩
    rw [hout, hblock, hheld]
    rfl
  | withdrawAll c s =>
    obtain ⟨hholdings, hblock, hout⟩ := broadcast_foldl { mc with blockNum := mc.blockNum + 1 } order a
      fun asset => .allocationUpdated c (mc.blockNum + 1) asset 0
    exact ⟨held_eq_of_insert (congrArg (Finmap.insert c ∅) hholdings), hblock, hout⟩

end service

/-! ## feeds -/

inductive Op where
  | subscribe (a : Address)
  | send (order : List Address) (tx : ChainTransaction)
  | receive (a : Address)
  deriving DecidableEq

/-- a subscriber takes the next event, if there is one -/
def receive (mc : MockChain) (a : Address) : MockChain :=
  match mc.out.lookup a with
  | none => mc
  | some c => { mc with out := mc.out.insert a (Feeds.step 10 c .receive) }

def step (mc : MockChain) : Op → MockChain
  | .subscribe a => subscribeToEvents mc a
  | .send order tx => sendTransaction mc order tx
  | .receive a => receive mc a

/-- the events of an operation -/
def broadcasts (mc : MockChain) : Op → List Event
  | .send order tx => emitted mc order tx
  | _ => []

/-- the events of a run -/
def allBroadcasts : MockChain → List Op → List Event
  | _, [] => []
  | mc, op :: ops => broadcasts mc op ++ allBroadcasts (step mc op) ops

/-- what the chan of a subscriber goes through -/
def chanOps (a : Address) : MockChain → List Op → List (Feeds.Op Event)
  | _, [] => []
  | mc, op :: ops => (broadcasts mc op).map .send ++
      (if op = .receive a then [Feeds.Op.receive] else []) ++ chanOps a (step mc op) ops

section feeds
variable {mc : MockChain} {a : Address} {c : Chan} {op : Op} {ops : List Op}

theorem chan_step (h : mc.out.lookup a = some c) (hop : op ≠ .subscribe a) :
    (step mc op).out.lookup a = some (run (Feeds.step 10) c ((broadcasts mc op).map .send ++
      if op = .receive a then [Feeds.Op.receive] else [])) := by
  cases op with
  | subscribe b =>
    have hne : a ≠ b := fun heq => hop (heq ▸ rfl)
    exact (Finmap.lookup_insert_of_ne _ hne).trans h
  | send order tx =>
    rw [if_neg nofun, List.append_nil]
    exact (sendTransaction_spec mc order tx a).2.2.trans (by rw [h]; rfl)
  | receive b =>
    show (receive mc b).out.lookup a = _
    unfold receive
    by_cases hb : b = a
    · subst hb
      rw [h, if_pos rfl]
      exact Finmap.lookup_insert _
    · rw [if_neg fun heq => hb (Op.receive.inj heq)]
      split
      · exact h
      · exact (Finmap.lookup_insert_of_ne _ (Ne.symm hb)).trans h

theorem chan_run (h : mc.out.lookup a = some c) (hops : ∀ op ∈ ops, op ≠ .subscribe a) :
    (run step mc ops).out.lookup a = some (run (Feeds.step 10) c (chanOps a mc ops)) := by
  induction ops generalizing mc c with
  | nil => exact h
  | cons op ops ih =>
    obtain ⟨hop, hops⟩ := List.forall_mem_cons.1 hops
    rw [chanOps, run_append]
    exact ih (chan_step h hop) hops

theorem sent_chanOps : Feeds.sent (chanOps a mc ops) = allBroadcasts mc ops := by
  induction ops generalizing mc with
  | nil => rfl
  | cons op ops ih =>
    have hreceipt : Feeds.sent (if op = .receive a then [Feeds.Op.receive] else []) =
        ([] : List Event) := by
      split <;> rfl
    rw [chanOps, allBroadcasts, Feeds.sent_append, Feeds.sent_append, Feeds.sent_map_send, hreceipt,
      List.append_nil, ih]

/-- **what a subscriber gets** are events of the chain, in order and once, and it is all of them iff
none is broadcast while ten are waiting in the subscriber's chan -/
theorem feed_lossless_iff (h : mc.out.lookup a = some c) (hops : ∀ op ∈ ops, op ≠ .subscribe a) :
    ∃ c', (run step mc ops).out.lookup a = some c' ∧
      c'.arrivals.Sublist (c.arrivals ++ allBroadcasts mc ops) ∧
      (c'.arrivals = c.arrivals ++ allBroadcasts mc ops ↔
        Along (Feeds.step 10) (Feeds.Fits 10) c (chanOps a mc ops)) := by
  refine ⟨_, chan_run h hops, ?_, ?_⟩
  · rw [← sent_chanOps (a := a)]
    exact Feeds.run_sublist _ _
  · rw [← sent_chanOps (a := a)]
    exact Feeds.run_complete_iff

end feeds

/-! ## holdings -/

section holdings
variable {mc : MockChain} {channelId : Destination} {asset : Address} {op : Op} {ops : List Op}

/-- the loop meets every asset once, and no amount is negative; a deposit in the channel has a positive
amount, and nothing is withdrawn from it -/
def Funding (channelId : Destination) : Op → Prop
  | .send order (.deposit c d) => order.Nodup ∧ (∀ x, x ∈ order ↔ x ∈ d) ∧ (∀ x, 0 ≤ d.amount x) ∧
      (c = channelId → d.isNonZero = true)
  | .send _ (.withdrawAll c _) => c ≠ channelId
  | _ => True

def NonNegative : Op → Prop
  | .send _ (.deposit _ d) => ∀ x, 0 ≤ d.amount x
  | _ => True

/-- what is to be held after an operation -/
def ledger (channelId : Destination) (asset : Address) (n : Int) : Op → Int
  | .send _ (.deposit c d) => if c = channelId then n + d.amount asset else n
  | .send _ (.withdrawAll c _) => if c = channelId then 0 else n
  | _ => n

theorem amount_le_zero {f : Funds} (h : f.isNonZero = false) (x : Address) : f.amount x ≤ 0 := by
  by_cases hmem : x ∈ f
  · exact not_lt.1 (any_eq_false.1 h x hmem)
  · exact le_of_eq (Funds.amount_of_notMem hmem)

theorem held_step (h : NonNegative op) : (held (step mc op) channelId).amount asset =
    ledger channelId asset ((held mc channelId).amount asset) op := by
  cases op with
  | subscribe a => rfl
  | receive a =>
    refine congrArg (Funds.amount · asset) (held_congr ?_ channelId)
    show (receive mc a).holdings = _
    unfold receive
    split <;> rfl
  | send order tx =>
    rw [step, (sendTransaction_spec mc order tx 0).1]
    cases tx with
    | deposit c d =>
      unfold heldAfter ledger
      by_cases hc : c = channelId
      · subst hc
        simp only [true_and, if_true]
        split
        · simp [Funds.add, Funds.sum, Funds.amount_accumulate, Funds.amount_empty, add_comm]
        · next hzero =>
          have hd := le_antisymm (amount_le_zero (Bool.eq_false_iff.2 hzero) asset) (h asset)
          rw [hd, add_zero]
      · simp only [hc, false_and, if_false]
    | withdrawAll c s =>
      show (if c = channelId then (∅ : Funds) else _).amount asset = if c = channelId then 0 else _
      split <;> rfl

/-- **the holdings are the deposits** since the last withdrawal, channel by channel -/
theorem held_deposits (hops : ∀ op ∈ ops, NonNegative op) :
    (held (run step mc ops) channelId).amount asset =
      ops.foldl (ledger channelId asset) ((held mc channelId).amount asset) := by
  induction ops generalizing mc with
  | nil => rfl
  | cons op ops ih =>
    obtain ⟨hop, hops⟩ := List.forall_mem_cons.1 hops
    rw [List.foldl_cons, ← held_step hop]
    exact ih hops

end holdings

/-! ## an objective that watches -/

section watching
open DirectFund Objective
variable {cr : Crypto} {o u : Objective} {mc : MockChain} {channelId : Destination} {op : Op}
  {ops : List Op} {events : List Deposit}

/-- the events of a channel, as the objective takes them -/
def asDeposit (channelId : Destination) : Event → Option Deposit
  | .deposited c n asset d (some nowHeld) =>
    if c = channelId then some ⟨c, n, asset, d, nowHeld⟩ else none
  | _ => none

def seen (channelId : Destination) (events : List Event) : List Deposit :=
  events.filterMap (asDeposit channelId)

def recorded (o : Objective) (asset : Address) : Int := o.c.onChainFunding.amount asset

theorem recorded_recordDeposit (e : Deposit) (x : Address) : recorded (o.recordDeposit e) x =
    if o.latestBlockNumber < e.blockNum ∧ e.asset = x then e.nowHeld else recorded o x := by
  unfold recordDeposit recorded Funds.amount
  by_cases hlt : o.latestBlockNumber < e.blockNum
  · rw [if_pos hlt]
    by_cases hx : e.asset = x
    · subst hx
      simp [hlt]
    · simp [hlt, hx, Finmap.lookup_insert_of_ne _ (Ne.symm hx)]
  · simp [hlt]

theorem recorded_le {held : Address → Int} (h : ∀ x, recorded o x ≤ held x)
    (he : ∀ e ∈ events, e.nowHeld ≤ held e.asset) (x : Address) :
    recorded (events.foldl recordDeposit o) x ≤ held x := by
  induction events generalizing o with
  | nil => exact h x
  | cons e events ih =>
    obtain ⟨hhead, htail⟩ := List.forall_mem_cons.1 he
    refine ih (fun y => ?_) htail
    rw [recorded_recordDeposit]
    split
    · next hy => exact hy.2 ▸ hhead
    · exact h y

theorem foldl_idle {n : UInt64} (hn : n ≤ o.latestBlockNumber)
    (he : ∀ e ∈ events, e.blockNum = n) : events.foldl recordDeposit o = o := by
  induction events with
  | nil => rfl
  | cons e events ih =>
    obtain ⟨hhead, htail⟩ := List.forall_mem_cons.1 he
    have hidle : o.recordDeposit e = o := if_neg (UInt64.not_lt.2 (hhead ▸ hn))
    rw [List.foldl_cons, hidle, ih htail]

/-- the events of one block change one asset at most -/
theorem recorded_block {n : UInt64} (he : ∀ e ∈ events, e.blockNum = n) :
    ∃ y, ∀ x, x ≠ y → recorded (events.foldl recordDeposit o) x = recorded o x := by
  induction events with
  | nil => exact ⟨0, fun _ _ => rfl⟩
  | cons e events ih =>
    obtain ⟨hhead, htail⟩ := List.forall_mem_cons.1 he
    rw [List.foldl_cons]
    by_cases hlt : o.latestBlockNumber < e.blockNum
    · have hlatest : n ≤ (o.recordDeposit e).latestBlockNumber := by
        rw [recordDeposit, if_pos hlt]
        exact UInt64.le_of_eq hhead.symm
      refine ⟨e.asset, fun x hx => ?_⟩
      rw [foldl_idle hlatest htail, recorded_recordDeposit, if_neg fun h => hx h.2.symm]
    · rw [show o.recordDeposit e = o from if_neg hlt]
      exact ih htail

theorem seen_broadcasts (hop : Funding channelId op) {e : Deposit}
    (he : e ∈ seen channelId (broadcasts mc op)) :
    e.blockNum = mc.blockNum + 1 ∧ e.nowHeld = (held (step mc op) channelId).amount e.asset ∧
      ∃ order d, op = .send order (.deposit channelId d) ∧ e.asset ∈ order := by
  obtain ⟨event, hevent, hsome⟩ := List.mem_filterMap.1 he
  match op with
  | .send order (.deposit c d) =>
    obtain ⟨asset, hasset, rfl⟩ := List.mem_map.1 hevent
    cases hlookup : (heldAfter mc (.deposit c d) c).lookup asset with
    | none =>
      rw [hlookup] at hsome
      cases hsome
    | some nowHeld =>
      rw [hlookup] at hsome
      have hsome : (if c = channelId then some _ else none) = some e := hsome
      obtain ⟨rfl, heq⟩ := Option.ite_none_right_eq_some.1 hsome
      cases heq
      refine ⟨rfl, ?_, order, d, rfl, hasset⟩
      rw [step, (sendTransaction_spec mc order (.deposit c d) 0).1, Funds.amount_of_lookup hlookup]
  | .send order (.withdrawAll c s) =>
    obtain ⟨asset, hasset, rfl⟩ := List.mem_map.1 hevent
    cases hsome

theorem allBroadcasts_snoc : allBroadcasts mc (ops ++ [op]) =
    allBroadcasts mc ops ++ broadcasts (run step mc ops) op := by
  induction ops generalizing mc with
  | nil => simp [allBroadcasts, run]
  | cons op' ops ih => rw [List.cons_append, allBroadcasts, ih, allBroadcasts, List.append_assoc]; rfl

theorem Funding.nonNegative (hop : Funding channelId op) : NonNegative op := by
  match op with
  | .send _ (.deposit ..) => exact hop.2.2.1
  | .send _ (.withdrawAll ..) | .subscribe _ | .receive _ => trivial

theorem Funding.held_le (hop : Funding channelId op) (x : Address) :
    (held mc channelId).amount x ≤ (held (step mc op) channelId).amount x := by
  rw [held_step hop.nonNegative]
  match op with
  | .send _ (.deposit c d) =>
    have hnonneg := hop.2.2.1 x
    rw [ledger]
    split <;> omega
  | .send _ (.withdrawAll c _) => exact le_of_eq (if_neg hop).symm
  | .subscribe _ | .receive _ => exact le_rfl

theorem recorded_run (hops : ∀ op ∈ ops, Funding channelId op)
    (h : ∀ x, recorded o x ≤ (held mc channelId).amount x) (x : Address) :
    recorded ((seen channelId (allBroadcasts mc ops)).foldl recordDeposit o) x ≤
      (held (run step mc ops) channelId).amount x := by
  induction ops generalizing mc o with
  | nil => exact h x
  | cons op ops ih =>
    obtain ⟨hop, hops⟩ := List.forall_mem_cons.1 hops
    rw [allBroadcasts, seen, List.filterMap_append, List.foldl_append]
    refine ih hops (recorded_le (fun y => (h y).trans (hop.held_le y)) fun e he => ?_)
    exact le_of_eq (seen_broadcasts hop he).2.1

theorem threshold_foldl :
    (events.foldl recordDeposit o).fullyFundedThreshold = o.fullyFundedThreshold := by
  induction events generalizing o with
  | nil => rfl
  | cons e events ih =>
    rw [List.foldl_cons, ih, recordDeposit]
    split <;> rfl

/-- **a channel with two assets is never seen as funded**: the last deposit brings both to the
threshold, and the objective records one of its events -/
theorem never_funded {order : List Address} {d : Funds} {x y : Address}
    (hclone : o.clone cr = .ok u) (h : ∀ z, recorded o z ≤ (held mc channelId).amount z)
    (hops : ∀ op ∈ ops, Funding channelId op)
    (hlast : Funding channelId (.send order (.deposit channelId d))) (hxy : x ≠ y)
    (hneeds : ∀ z, z = x ∨ z = y → z ∈ o.fullyFundedThreshold ∧
      (held (run step mc ops) channelId).amount z < o.fullyFundedThreshold.amount z) :
    ∃ r, watch cr o (seen channelId
        (allBroadcasts mc (ops ++ [.send order (.deposit channelId d)]))) = .ok r ∧
      r.fundingComplete = false := by
  obtain ⟨o', hrun, -, hheld, hthreshold⟩ := watch_returns hclone (seen channelId
    (allBroadcasts mc (ops ++ [.send order (.deposit channelId d)])))
  refine ⟨_, hrun, Bool.eq_false_iff.2 fun hcomplete => ?_⟩
  rw [allBroadcasts_snoc, seen, List.filterMap_append, List.foldl_append] at hcomplete
  have hbefore := recorded_run hops fun z => (congrArg (Funds.amount · z) hheld).le.trans (h z)
  obtain ⟨w, hw⟩ := recorded_block
    (o := (seen channelId (allBroadcasts mc ops)).foldl recordDeposit o')
    (fun e he => (seen_broadcasts hlast he).1)
  obtain ⟨z, hz, hzw⟩ : ∃ z, (z = x ∨ z = y) ∧ z ≠ w := by
    by_cases hxw : x = w
    · exact ⟨y, .inr rfl, fun hyw => hxy (hxw.trans hyw.symm)⟩
    · exact ⟨x, .inl rfl, hxw⟩
  obtain ⟨hmem, hlt⟩ := hneeds z hz
  have hreached := all_eq_true.1 hcomplete z
    (by rw [threshold_foldl, threshold_foldl, hthreshold]; exact hmem)
  rw [threshold_foldl, threshold_foldl, hthreshold] at hreached
  have heq := hw z hzw
  have hle := hbefore z
  exact absurd (hreached.2.trans (heq.le.trans hle)) (not_le.2 hlt)

end watching

end ChainService

namespace Sample
open ChainService

def fiveOfBoth : Funds := ((∅ : Funds).insert 0 5).insert 1 5

def depositBoth : Op := .send [0, 1] (.deposit bothAssetsObjective.c.id fiveOfBoth)

theorem fiveOfBoth_nonneg (x : Address) : 0 ≤ fiveOfBoth.amount x := by
  unfold fiveOfBoth Funds.amount
  by_cases h1 : x = 1
  · subst h1
    simp
  · by_cases h0 : x = 0
    · subst h0
      simp [Finmap.lookup_insert_of_ne]
    · rw [Finmap.lookup_insert_of_ne _ h1, Finmap.lookup_insert_of_ne _ h0]
      exact le_rfl

theorem depositBoth_funds : Funding bothAssetsObjective.c.id depositBoth := by
  refine ⟨by decide, fun x => ?_, fiveOfBoth_nonneg, fun _ => by decide⟩
  simp [fiveOfBoth, Finmap.notMem_empty, or_comm]

end Sample

namespace ChainService
open Sample DirectFund Objective

theorem feed_lossless_one : ∃ c,
    (run step (subscribeToEvents newMockChain 1) [depositBoth]).out.lookup 1 = some c ∧
      c.arrivals.length = 2 := by
  have hlookup : (subscribeToEvents newMockChain 1).out.lookup 1 = some ⟨[], []⟩ :=
    Finmap.lookup_insert _
  have hops : ∀ op ∈ [depositBoth], op ≠ .subscribe 1 := fun op hop => by
    rw [List.mem_singleton.1 hop]
    nofun
  obtain ⟨c, hc, -, hiff⟩ := feed_lossless_iff hlookup hops
  refine ⟨c, hc, ?_⟩
  rw [hiff.2 ⟨show 0 < 10 by decide, show 1 < 10 by decide, trivial⟩]
  rfl

theorem held_deposits_two : (held (run step newMockChain [depositBoth, depositBoth])
    bothAssetsObjective.c.id).amount 0 = 10 := by
  rw [held_deposits]
  · decide +kernel
  · intro op hop
    obtain rfl : op = depositBoth := by simpa using hop
    exact fiveOfBoth_nonneg

theorem never_funded_two : ∃ r, watch Crypto.plain bothAssetsObjective (seen bothAssetsObjective.c.id
      (allBroadcasts newMockChain ([depositBoth] ++ [depositBoth]))) = .ok r ∧
    r.fundingComplete = false := by
  obtain ⟨u, hu⟩ := bothAssets_clone
  have hrecorded : ∀ z, recorded bothAssetsObjective z ≤
      (held newMockChain bothAssetsObjective.c.id).amount z :=
    amount_le_zero (by decide +kernel)
  have hneeds : ∀ z, z = 0 ∨ z = 1 → z ∈ bothAssetsObjective.fullyFundedThreshold ∧
      (held (run step newMockChain [depositBoth]) bothAssetsObjective.c.id).amount z <
        bothAssetsObjective.fullyFundedThreshold.amount z := by
    rintro z (rfl | rfl) <;> decide +kernel
  have hops : ∀ op ∈ [depositBoth], Funding bothAssetsObjective.c.id op := fun op hop => by
    rw [List.mem_singleton.1 hop]
    exact depositBoth_funds
  exact never_funded hu hrecorded hops depositBoth_funds (by decide : (0 : Address) ≠ 1) hneeds

end ChainService

end Nitro
