import Nitro.Consensus.Steps

/-!
# Ledger outcomes as exits

A `LedgerOutcome` goes on chain, and into the signed states, as the exit that `AsOutcome` builds; a
ledger is opened by reading such an exit with `FromExit`.

* `asOutcomeFrom`           `AsOutcome`, for one order in which the map of guarantees is read;
* `asOutcomeFrom_eq`        the order makes no difference;
* `fromExit`, `RawOutcome`  what is read has pointers for amounts, `clone` copies the integers;
* `outcome_canonical`       writing is canonical and reading gives back what was written;
* `Keyed`, `keyed_run`      what that needs, and that ledgers keep it along every run.
-/

set_option linter.unusedSectionVars false

namespace Nitro
open Go FinMap Runs

/-! ## reading an exit -/

/-- `Unpack` for a tuple of two words, then the conversion; what follows the second word is not
read -/
def decodeIntoGuaranteeMetadata (m : Bytes) : Res GuaranteeMetadata :=
  if m.length = 0 then
    .error (.err (.new
      "abi: attempting to unmarshall an empty string while arguments are expected"))
  else if m.length < 32 then
    .error (.err (.fmt "abi: cannot marshal in to go type: length insufficient %d require %d"
      [m.length, 32]))
  else if m.length < 64 then
    .error (.err (.fmt "abi: cannot marshal in to go type: length insufficient %d require %d"
      [m.length, 64]))
  else .ok ⟨Abi.wordAt m 0, Abi.wordAt m 32⟩

/-- a `LedgerOutcome` with the pointers of an exit for its amounts -/
structure RawOutcome where
  assetAddress : Address
  leader : Destination × BigInt
  follower : Destination × BigInt
  guarantees : Map Destination (Guarantee BigInt)
  deriving DecidableEq

instance : Inhabited (Guarantee Int) := ⟨⟨0, 0, 0, 0⟩⟩
instance : Inhabited (Guarantee BigInt) := ⟨⟨none, 0, 0, 0⟩⟩

/-- the loop over the allocations -/
def readGuarantees (guarantees : Map Destination (Guarantee BigInt)) :
    Allocations → Res (Map Destination (Guarantee BigInt))
  | [] => .ok guarantees
  | a :: as =>
    if a.allocationType = guaranteeAllocationType then do
      let gM ← (decodeIntoGuaranteeMetadata a.metadata).wrap "failed to decode guarantee metadata: "
      readGuarantees (guarantees.insert a.destination ⟨a.amount, a.destination, gM.left, gM.right⟩)
        as
    else readGuarantees guarantees as

def fromExit (sae : SingleAssetExit) : Res RawOutcome := do
  let leader ← index sae.allocations 0
  let follower ← index sae.allocations 1
  let guarantees ← readGuarantees ∅ sae.allocations
  .ok ⟨sae.asset, (leader.destination, leader.amount), (follower.destination, follower.amount),
    guarantees⟩

/-- the copies of the guarantees: a `nil` amount panics -/
def cloneGuarantees (m : Map Destination (Guarantee BigInt)) :
    Res (Map Destination (Guarantee Int)) :=
  if all (fun k => ((m.lookup k).bind Guarantee.amount).isSome = true) m then
    .ok (mapValues (fun g => ⟨g.amount.getD 0, g.target, g.left, g.right⟩) m)
  else .error (.panic "nil pointer dereference")

/-- `clone`, the copy that a new consensus channel keeps -/
def RawOutcome.clone (o : RawOutcome) : Res LedgerOutcome := do
  let leader ← o.leader.2.deref
  let follower ← o.follower.2.deref
  let guarantees ← cloneGuarantees o.guarantees
  .ok ⟨o.assetAddress, ⟨o.leader.1, leader⟩, ⟨o.follower.1, follower⟩, guarantees⟩

/-- `NewLeaderChannel`, `NewFollowerChannel` for an outcome that was read from an exit: it is copied
after the checks of the fixed part -/
def newConsensusChannelFrom (cr : Crypto) (fp : FixedPart) (myIndex : Nat) (initialTurnNum : UInt64)
    (outcome : RawOutcome) (signatures : Signature × Signature) : Res ConsensusChannel := do
  fp.validate cr
  let _ ← fp.channelId cr
  let copied ← outcome.clone
  newConsensusChannel cr fp myIndex initialTurnNum copied signatures

theorem decode_metadata (left right : Destination) :
    decodeIntoGuaranteeMetadata (Abi.wordBytes left ++ Abi.wordBytes right) = .ok ⟨left, right⟩ := by
  have hlen : (Abi.wordBytes left ++ Abi.wordBytes right).length = 64 := by
    rw [List.length_append, Abi.length_wordBytes, Abi.length_wordBytes]
  have hleft : Abi.wordAt (Abi.wordBytes left ++ Abi.wordBytes right) 0 = left := by
    have hread := Abi.wordAt_wordBytes [] left (Abi.wordBytes right)
    rwa [List.nil_append, List.length_nil] at hread
  have hright : Abi.wordAt (Abi.wordBytes left ++ Abi.wordBytes right) 32 = right := by
    have hread := Abi.wordAt_wordBytes (Abi.wordBytes left) right []
    rwa [List.append_nil, Abi.length_wordBytes] at hread
  unfold decodeIntoGuaranteeMetadata
  rw [hlen, hleft, hright]
  rfl

theorem readGuarantees_asAllocation (m : Map Destination (Guarantee BigInt))
    (gs : List (Guarantee Int)) :
    readGuarantees m (gs.map Guarantee.asAllocation) =
      .ok (fill Guarantee.target Guarantee.wire m gs) := by
  induction gs generalizing m with
  | nil => rfl
  | cons g gs ih =>
    rw [List.map_cons]
    show ((decodeIntoGuaranteeMetadata (Abi.wordBytes g.left ++ Abi.wordBytes g.right)).wrap _ >>=
      fun gM => readGuarantees _ _) = _
    rw [decode_metadata]
    exact ih (m.insert g.target g.wire)

namespace LedgerOutcome

/-! ## writing an outcome -/

/-- an order in which the keys of a map are met: every key once -/
structure Lists (m : Map Destination (Guarantee Int)) (order : List Destination) : Prop where
  nodup : order.Nodup
  mem : ∀ k, k ∈ order ↔ k ∈ m

/-- `sort.Slice` by the texts of the destinations -/
def sortByString (keys : List Destination) : List Destination :=
  keys.insertionSort fun a b => ¬ destinationString b < destinationString a

/-- `AsOutcome`, when the map of guarantees is read in the given order -/
def asOutcomeFrom (o : LedgerOutcome) (order : List Destination) : Exit :=
  let guarantees := (sortByString order).filterMap fun target =>
    (o.guarantees.lookup target).map Guarantee.asAllocation
  [{ asset := o.assetAddress, metadata := [],
     allocations := o.leader.asAllocation :: o.follower.asAllocation :: guarantees }]

theorem sortByString_eq (keys : List Destination) :
    sortByString keys = keys.insertionSort (· ≤ ·) := by
  unfold sortByString
  congr 1
  funext a b
  rw [destinationString_lt_iff, BitVec.not_lt]

theorem sortByString_sortedKeys {m : Map Destination (Guarantee Int)} {order : List Destination}
    (h : Lists m order) : sortByString order = sortedKeys (· ≤ ·) m := by
  rw [sortByString_eq]
  refine eq_sortedKeys _ ?_ (fun k => ?_) (List.pairwise_insertionSort _ _)
  · exact (List.perm_insertionSort _ order).nodup_iff.2 h.nodup
  · rw [List.mem_insertionSort, h.mem]

theorem asOutcomeFrom_eq {o : LedgerOutcome} {order : List Destination}
    (h : Lists o.guarantees order) : o.asOutcomeFrom order = o.asOutcome := by
  unfold asOutcomeFrom asOutcome
  rw [sortByString_sortedKeys h]

/-! ## what is written -/

/-- every guarantee is stored under its target -/
def Keyed (o : LedgerOutcome) : Prop :=
  ∀ k g, o.guarantees.lookup k = some g → g.target = k

/-- the guarantees in the order of their keys -/
def sortedGuarantees (o : LedgerOutcome) : List (Guarantee Int) :=
  (sortedKeys (· ≤ ·) o.guarantees).filterMap o.guarantees.lookup

/-- the only asset of the exit -/
def assetExit (o : LedgerOutcome) : SingleAssetExit where
  asset := o.assetAddress
  metadata := []
  allocations := o.leader.asAllocation :: o.follower.asAllocation ::
    o.sortedGuarantees.map Guarantee.asAllocation

/-- the outcome with pointers for its amounts -/
def raw (o : LedgerOutcome) : RawOutcome where
  assetAddress := o.assetAddress
  leader := (o.leader.destination, some o.leader.amount)
  follower := (o.follower.destination, some o.follower.amount)
  guarantees := mapValues Guarantee.wire o.guarantees

theorem asOutcome_eq (o : LedgerOutcome) : o.asOutcome = [o.assetExit] := by
  unfold asOutcome assetExit sortedGuarantees
  rw [List.map_filterMap]

theorem mem_sortedGuarantees {o : LedgerOutcome} (hkeyed : o.Keyed) (g : Guarantee Int) :
    g ∈ o.sortedGuarantees ↔ o.guarantees.lookup g.target = some g := by
  unfold sortedGuarantees
  rw [List.mem_filterMap]
  constructor
  · rintro ⟨k, -, hk⟩
    rwa [hkeyed k g hk]
  · intro h
    exact ⟨g.target, (mem_sortedKeys _).2 (Finmap.mem_of_lookup_eq_some h), h⟩

theorem pairwise_sortedGuarantees {o : LedgerOutcome} (hkeyed : o.Keyed) :
    o.sortedGuarantees.Pairwise fun g g' => g.target < g'.target := by
  have hle := pairwise_sortedKeys (· ≤ ·) o.guarantees
  have hlt : (sortedKeys (· ≤ ·) o.guarantees).Pairwise (· < ·) := by
    refine (hle.and (nodup_sortedKeys _ o.guarantees)).imp fun {a b} hab => ?_
    obtain ⟨hab, hne⟩ := hab
    exact BitVec.lt_of_le_ne hab hne
  unfold sortedGuarantees
  rw [List.pairwise_filterMap]
  refine hlt.imp fun {a b} hab g hg g' hg' => ?_
  rw [hkeyed a g hg, hkeyed b g' hg']
  exact hab

/-! ## reading what was written -/

theorem fill_sortedGuarantees {o : LedgerOutcome} (hkeyed : o.Keyed) :
    fill Guarantee.target Guarantee.wire ∅ o.sortedGuarantees =
      mapValues Guarantee.wire o.guarantees := by
  refine Finmap.ext_lookup fun k => ?_
  rw [lookup_mapValues]
  cases hk : o.guarantees.lookup k with
  | none =>
    rw [lookup_fill_of_notMem _ _ fun g hg hgk => ?_]
    · rfl
    · rw [mem_sortedGuarantees hkeyed, hgk, hk] at hg
      cases hg
  | some g =>
    obtain rfl := hkeyed k g hk
    have hdistinct := (pairwise_sortedGuarantees hkeyed).imp fun {a b} hab => BitVec.ne_of_lt hab
    exact lookup_fill_of_mem _ _ hdistinct ((mem_sortedGuarantees hkeyed g).2 hk) ∅

theorem fromExit_assetExit {o : LedgerOutcome} (hkeyed : o.Keyed) :
    fromExit o.assetExit = .ok o.raw := by
  show (readGuarantees ∅ (o.sortedGuarantees.map Guarantee.asAllocation) >>= fun _ => _) = _
  rw [readGuarantees_asAllocation, fill_sortedGuarantees hkeyed]
  rfl

theorem clone_raw (o : LedgerOutcome) : o.raw.clone = .ok o := by
  have hcopies : cloneGuarantees (mapValues Guarantee.wire o.guarantees) = .ok o.guarantees := by
    unfold cloneGuarantees
    rw [if_pos]
    · refine congrArg Except.ok (Finmap.ext_lookup fun k => ?_)
      rw [lookup_mapValues, lookup_mapValues]
      cases o.guarantees.lookup k <;> rfl
    · rw [all_eq_true]
      intro k hk
      obtain ⟨g, hg⟩ := Finmap.mem_iff.1 hk
      rw [lookup_mapValues] at hg
      rw [lookup_mapValues, hg]
      cases hk' : o.guarantees.lookup k with
      | none => rw [hk'] at hg; cases hg
      | some g' => rw [hk'] at hg; cases hg; rfl
  show (cloneGuarantees (mapValues Guarantee.wire o.guarantees) >>= fun _ => _) = _
  rw [hcopies]
  rfl

/-- **the encoding is canonical and loses nothing**: in whatever order the guarantees are met, the
exit lists the leader, the follower and the guarantees by increasing target; it is read back as the
outcome it was written from, so that only equal outcomes have equal exits -/
theorem outcome_canonical {o : LedgerOutcome} (hkeyed : o.Keyed) :
    (∀ order, Lists o.guarantees order → o.asOutcomeFrom order = [o.assetExit]) ∧
    (o.sortedGuarantees.Pairwise fun g g' => g.target < g'.target) ∧
    (∀ g, g ∈ o.sortedGuarantees ↔ o.guarantees.lookup g.target = some g) ∧
    fromExit o.assetExit = .ok o.raw ∧ o.raw.clone = .ok o ∧
    ∀ o' : LedgerOutcome, o'.Keyed → ∀ order order', Lists o.guarantees order →
      Lists o'.guarantees order' →
      (o.asOutcomeFrom order = o'.asOutcomeFrom order' ↔ o = o') := by
  have hwritten : ∀ {o : LedgerOutcome} {order}, Lists o.guarantees order →
      o.asOutcomeFrom order = [o.assetExit] :=
    fun h => (asOutcomeFrom_eq h).trans (asOutcome_eq _)
  refine ⟨fun order h => hwritten h, pairwise_sortedGuarantees hkeyed, mem_sortedGuarantees hkeyed,
    fromExit_assetExit hkeyed, clone_raw o, fun o' hkeyed' order order' h h' => ?_⟩
  rw [hwritten h, hwritten h']
  constructor
  · intro hsame
    have hexit : o.assetExit = o'.assetExit := List.head_eq_of_cons_eq hsame
    have hraw : o.raw = o'.raw := by
      have hread := fromExit_assetExit hkeyed
      rw [hexit, fromExit_assetExit hkeyed'] at hread
      exact (Except.ok.inj hread).symm
    have hclone := clone_raw o
    rw [hraw, clone_raw] at hclone
    exact (Except.ok.inj hclone).symm
  · rintro rfl
    rfl

/-! ## ledgers keep their guarantees under the targets -/

theorem keyed_insert {o : LedgerOutcome} (hkeyed : o.Keyed) (g : Guarantee Int) :
    ∀ k g', (o.guarantees.insert g.target g).lookup k = some g' → g'.target = k := by
  intro k g' hk
  by_cases h : k = g.target
  · subst h
    rw [Finmap.lookup_insert] at hk
    rw [Option.some.inj hk]
  · rw [Finmap.lookup_insert_of_ne _ h] at hk
    exact hkeyed k g' hk

theorem keyed_new (asset : Address) (leader follower : Balance) (gs : List (Guarantee Int)) :
    (LedgerOutcome.new asset leader follower gs).Keyed := by
  have hfold : ∀ m, (LedgerOutcome.mk asset leader follower m).Keyed →
      (LedgerOutcome.mk asset leader follower
        (gs.foldl (fun m g => m.insert g.target g) m)).Keyed := by
    induction gs with
    | nil => exact fun _ hm => hm
    | cons g gs ih => exact fun _ hm => ih _ (keyed_insert hm g)
  refine hfold ∅ fun k g hk => ?_
  rw [Finmap.lookup_empty] at hk
  cases hk

end LedgerOutcome

theorem Vars.Step.keyed {p : Proposal} {v v' : Vars} (h : v.Step p v') (hv : v.outcome.Keyed) :
    v'.outcome.Keyed := by
  cases h with
  | @add id r g left fresh => exact LedgerOutcome.keyed_insert hv g
  | @remove id target g left found =>
    intro k g' hk
    have hk : (v.outcome.guarantees.erase target).lookup k = some g' := hk
    by_cases h : k = target
    · subst h
      rw [Finmap.lookup_erase] at hk
      cases hk
    · rw [Finmap.lookup_erase_ne h] at hk
      exact hv k g' hk

/-- **every outcome that a ledger stands for is keyed by target**, whatever is called on it -/
theorem ConsensusChannel.keyed_run (cr : Crypto) {c : ConsensusChannel}
    (h : QueueAll (fun v => v.outcome.Keyed) c) (ops : List Op) :
    QueueAll (fun v => v.outcome.Keyed) (run (Op.step cr) c ops) := by
  refine run_inv (fun c op hc => ?_) h
  rcases Op.step_cases cr c op with hsame | hchange
  · rwa [hsame]
  · exact hchange.queueAll hc fun p latest latest' _ _ hlatest hstep => hstep.keyed hlatest

namespace Sample

/-- two guarantees, not in the order of their targets -/
def twoGuarantees : List (Guarantee Int) := [⟨5, 4, 1, 2⟩, ⟨5, 3, 1, 2⟩]

def outcomeOfTwo : LedgerOutcome := LedgerOutcome.new 0 ⟨1, 100⟩ ⟨2, 100⟩ twoGuarantees

end Sample

open Sample in
theorem LedgerOutcome.outcome_canonical_two :
    outcomeOfTwo.asOutcomeFrom [4, 3] = outcomeOfTwo.asOutcomeFrom [3, 4] ∧
      fromExit outcomeOfTwo.assetExit = .ok outcomeOfTwo.raw := by
  obtain ⟨hwritten, -, -, hread, -⟩ :=
    @outcome_canonical outcomeOfTwo (keyed_new 0 ⟨1, 100⟩ ⟨2, 100⟩ twoGuarantees)
  have hmem : ∀ k, k ∈ [4, 3] ↔ k ∈ outcomeOfTwo.guarantees := by
    intro k
    show k ∈ [4, 3] ↔ k ∈ ((∅ : Map Destination (Guarantee Int)).insert 4 _).insert 3 _
    rw [Finmap.mem_insert, Finmap.mem_insert, List.mem_pair]
    simp [or_comm, Finmap.notMem_empty]
  refine ⟨(hwritten _ ⟨by decide, hmem⟩).trans (hwritten _ ⟨by decide, fun k => ?_⟩).symm, hread⟩
  rw [← hmem k, List.mem_pair, List.mem_pair]
  exact or_comm

end Nitro
