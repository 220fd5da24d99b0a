import Nitro.Consensus.Encoding
import Nitro.StateEncoding

/-!
# Exits that are read as ledger outcomes

`FromExit` takes the first two allocations for the balances and looks for guarantees among all of
them.  It drops everything else: what it reads is written back as the same exit only if the exit is
of the form that ledgers have.

* `fromExit_ok`                 what was read;
* `RawOutcome.clone_eq_ok`      the copy has the same data, and integers for amounts;
* `assetExit_of_shell`          **an exit that is written back alike but for the amounts is the same**;
* `LedgerExit`                  the form of the exits of ledgers;
* `ledgerExit_iff`              such an exit is the exit of some outcome.
-/

set_option linter.unusedSectionVars false

namespace Nitro
open Go FinMap

/-! ## the loop -/

section loop
variable {m m' : Map Destination (Guarantee BigInt)} {as : Allocations}

theorem readGuarantees_cons {a : Allocation}
    (h : readGuarantees m (a :: as) = .ok m') :
    a.allocationType ≠ guaranteeAllocationType ∧ readGuarantees m as = .ok m' ∨
    ∃ gM, a.allocationType = guaranteeAllocationType ∧
      decodeIntoGuaranteeMetadata a.metadata = .ok gM ∧
      readGuarantees (m.insert a.destination ⟨a.amount, a.destination, gM.left, gM.right⟩) as =
        .ok m' := by
  unfold readGuarantees at h
  split at h
  · next htype =>
    obtain ⟨gM, hgM, h⟩ := Res.bind_eq_ok.1 h
    exact .inr ⟨gM, htype, Res.wrap_eq_ok.1 hgM, h⟩
  · next htype => exact .inl ⟨htype, h⟩

theorem readGuarantees_inv {I : Map Destination (Guarantee BigInt) → Prop}
    (hstep : ∀ m, ∀ a ∈ as, ∀ left right, I m →
      I (m.insert a.destination ⟨a.amount, a.destination, left, right⟩))
    (h : readGuarantees m as = .ok m') (hm : I m) : I m' := by
  induction as generalizing m with
  | nil =>
    cases h
    exact hm
  | cons a as ih =>
    have ih := fun {m} => @ih m fun m x hx => hstep m x (List.mem_cons_of_mem a hx)
    rcases readGuarantees_cons h with ⟨-, h⟩ | ⟨gM, -, -, h⟩
    · exact ih h hm
    · exact ih h (hstep m a List.mem_cons_self _ _ hm)

theorem readGuarantees_keyed (h : readGuarantees m as = .ok m')
    (hm : ∀ k g, m.lookup k = some g → g.target = k) :
    ∀ k g, m'.lookup k = some g → g.target = k := by
  refine readGuarantees_inv (I := fun m => ∀ k g, m.lookup k = some g → g.target = k) ?_ h hm
  intro m a _ left right hm k g hk
  by_cases hka : k = a.destination
  · rw [hka, Finmap.lookup_insert] at hk
    rw [← Option.some.inj hk, hka]
  · rw [Finmap.lookup_insert_of_ne _ hka] at hk
    exact hm k g hk

theorem lookup_readGuarantees_of_notMem (h : readGuarantees m as = .ok m') {k : Destination}
    (hk : ∀ a ∈ as, k ≠ a.destination) : m'.lookup k = m.lookup k := by
  refine readGuarantees_inv (I := fun x => x.lookup k = m.lookup k) ?_ h rfl
  intro x a ha left right hx
  rw [Finmap.lookup_insert_of_ne _ (hk a ha), hx]

theorem lookup_readGuarantees (h : readGuarantees m as = .ok m')
    (hdistinct : as.Pairwise fun a b => a.destination ≠ b.destination) {a : Allocation}
    (ha : a ∈ as) (htype : a.allocationType = guaranteeAllocationType) :
    ∃ gM : GuaranteeMetadata, m'.lookup a.destination = some ⟨a.amount, a.destination, gM.left, gM.right⟩ := by
  induction as generalizing m with
  | nil => cases ha
  | cons b as ih =>
    obtain ⟨hb, hdistinct⟩ := List.pairwise_cons.1 hdistinct
    rcases List.mem_cons.1 ha with rfl | ha
    · rcases readGuarantees_cons h with ⟨hnot, -⟩ | ⟨gM, -, -, h⟩
      · exact absurd htype hnot
      · refine ⟨gM, ?_⟩
        rw [lookup_readGuarantees_of_notMem h hb, Finmap.lookup_insert]
    · rcases readGuarantees_cons h with ⟨-, h⟩ | ⟨gM, -, -, h⟩
      · exact ih h hdistinct ha
      · exact ih h hdistinct ha

end loop

/-! ## what is read and copied -/

theorem fromExit_ok {e : SingleAssetExit} {raw : RawOutcome} (h : fromExit e = .ok raw) :
    ∃ a b rest, e.allocations = a :: b :: rest ∧ raw.assetAddress = e.asset ∧
      raw.leader = (a.destination, a.amount) ∧ raw.follower = (b.destination, b.amount) ∧
      readGuarantees ∅ e.allocations = .ok raw.guarantees := by
  obtain ⟨a, ha, h⟩ := Res.bind_eq_ok.1 h
  obtain ⟨b, hb, h⟩ := Res.bind_eq_ok.1 h
  obtain ⟨m, hm, h⟩ := Res.bind_eq_ok.1 h
  cases h
  rw [index_eq_ok] at ha hb
  match hl : e.allocations with
  | [] => rw [hl] at ha; cases ha
  | [_] => rw [hl] at hb; cases hb
  | x :: y :: rest =>
    rw [hl] at ha hb
    cases ha
    cases hb
    exact ⟨a, b, rest, rfl, rfl, rfl, rfl, hl ▸ hm⟩

theorem cloneGuarantees_eq_ok {m : Map Destination (Guarantee BigInt)}
    {m' : Map Destination (Guarantee Int)} (h : cloneGuarantees m = .ok m') :
    m = mapValues Guarantee.wire m' := by
  unfold cloneGuarantees at h
  split at h
  · next hall =>
    cases h
    refine Finmap.ext_lookup fun k => ?_
    rw [lookup_mapValues, lookup_mapValues]
    cases hk : m.lookup k with
    | none => rfl
    | some g =>
      have hsome := all_eq_true.1 hall k (Finmap.mem_of_lookup_eq_some hk)
      rw [hk] at hsome
      obtain ⟨amount, target, left, right⟩ := g
      cases amount with
      | none => simp at hsome
      | some n => rfl
  · cases h

theorem RawOutcome.clone_eq_ok {r : RawOutcome} {o : LedgerOutcome} :
    r.clone = .ok o ↔ r = o.raw := by
  constructor
  · intro h
    obtain ⟨leader, hl, h⟩ := Res.bind_eq_ok.1 h
    obtain ⟨follower, hf, h⟩ := Res.bind_eq_ok.1 h
    obtain ⟨guarantees, hg, h⟩ := Res.bind_eq_ok.1 h
    cases h
    rw [BigInt.deref_eq_ok] at hl hf
    have hg := cloneGuarantees_eq_ok hg
    obtain ⟨asset, ⟨ld, la⟩, ⟨fd, fa⟩, m⟩ := r
    cases hl
    cases hf
    cases hg
    rfl
  · rintro rfl
    exact LedgerOutcome.clone_raw o

/-! ## an exit that is written back -/

theorem keyed_of_fromExit {e : SingleAssetExit} {o : LedgerOutcome} (h : fromExit e = .ok o.raw) :
    o.Keyed := by
  obtain ⟨a, b, rest, -, -, -, -, hread⟩ := fromExit_ok h
  intro k g hk
  have hraw : o.raw.guarantees.lookup k = some g.wire := by
    show (mapValues Guarantee.wire o.guarantees).lookup k = _
    rw [lookup_mapValues, hk]
    rfl
  exact readGuarantees_keyed hread (fun k g hg => by rw [Finmap.lookup_empty] at hg; cases hg) k
    g.wire hraw

theorem raw_lookup {o : LedgerOutcome} (hkeyed : o.Keyed) {g : Guarantee Int}
    (hg : g ∈ o.sortedGuarantees) : o.raw.guarantees.lookup g.target = some g.wire := by
  show (mapValues Guarantee.wire o.guarantees).lookup g.target = _
  rw [lookup_mapValues, (LedgerOutcome.mem_sortedGuarantees hkeyed g).1 hg]
  rfl

theorem length_sortedGuarantees_le {e : SingleAssetExit} {o : LedgerOutcome}
    (h : fromExit e = .ok o.raw) : o.sortedGuarantees.length ≤ e.allocations.length := by
  have hkeyed := keyed_of_fromExit h
  obtain ⟨a, b, rest, -, -, -, -, hread⟩ := fromExit_ok h
  have hnodup : (o.sortedGuarantees.map Guarantee.target).Nodup :=
    List.pairwise_map.2 ((LedgerOutcome.pairwise_sortedGuarantees hkeyed).imp fun {a b} hab =>
      BitVec.ne_of_lt hab)
  have hsub : o.sortedGuarantees.map Guarantee.target ⊆
      e.allocations.map Allocation.destination := by
    intro k hk
    obtain ⟨g, hg, rfl⟩ := List.mem_map.1 hk
    by_contra hnot
    have hnone := lookup_readGuarantees_of_notMem hread (k := g.target) fun a ha e =>
      hnot (e ▸ List.mem_map_of_mem ha)
    rw [raw_lookup hkeyed hg, Finmap.lookup_empty] at hnone
    cases hnone
  have hle := (hnodup.subperm hsub).length_le
  rwa [List.length_map, List.length_map] at hle

theorem eq_of_map_eq {α β : Type} {f : α → β} {l l' : List α} (h : l.map f = l'.map f)
    (hf : ∀ x ∈ l, ∀ y ∈ l', f x = f y → x = y) : l = l' := by
  induction l generalizing l' with
  | nil => exact (List.map_eq_nil_iff.1 h.symm).symm
  | cons x l ih =>
    cases l' with
    | nil => cases h
    | cons y l' =>
      obtain ⟨hxy, h⟩ := List.cons.inj h
      rw [hf x List.mem_cons_self y List.mem_cons_self hxy,
        ih h fun x hx y hy => hf x (List.mem_cons_of_mem _ hx) y (List.mem_cons_of_mem _ hy)]

theorem Allocation.eq_of_shell {a b : Allocation} (h : a.shell = b.shell)
    (hamount : a.amount = b.amount) : a = b := by
  obtain ⟨ad, aa, at', am⟩ := a
  obtain ⟨bd, ba, bt, bm⟩ := b
  cases hamount
  cases h
  rfl

theorem guarantee_of_shell {rest : Allocations} {o : LedgerOutcome} (hkeyed : o.Keyed)
    (hread : readGuarantees ∅ rest = .ok o.raw.guarantees)
    (hshell : (o.sortedGuarantees.map Guarantee.asAllocation).map Allocation.shell =
      rest.map Allocation.shell) : o.sortedGuarantees.map Guarantee.asAllocation = rest := by
  have htargets : o.sortedGuarantees.map Guarantee.target = rest.map Allocation.destination := by
    have h := congrArg (List.map Allocation.destination) hshell
    rw [List.map_map, List.map_map, List.map_map] at h
    exact h
  have hdistinct : rest.Pairwise fun a b => a.destination ≠ b.destination := by
    have h := List.pairwise_map.2
      ((LedgerOutcome.pairwise_sortedGuarantees hkeyed).imp fun {a b} hab => BitVec.ne_of_lt hab)
    rw [htargets] at h
    exact List.pairwise_map.1 h
  refine eq_of_map_eq hshell fun x hx a ha hxa => Allocation.eq_of_shell hxa ?_
  obtain ⟨g, hg, rfl⟩ := List.mem_map.1 hx
  have htype : a.allocationType = guaranteeAllocationType :=
    (congrArg Allocation.allocationType hxa).symm
  have hdest : g.target = a.destination := congrArg Allocation.destination hxa
  obtain ⟨gM, hlookup⟩ := lookup_readGuarantees hread hdistinct ha htype
  rw [← hdest, raw_lookup hkeyed hg] at hlookup
  exact congrArg Guarantee.amount (Option.some.inj hlookup)

/-- **an exit that is read and written back alike but for the amounts is written back as it is** -/
theorem assetExit_of_shell {e : SingleAssetExit} {o : LedgerOutcome} (h : fromExit e = .ok o.raw)
    (hshell : o.assetExit.shell = e.shell) : o.assetExit = e := by
  have hkeyed := keyed_of_fromExit h
  obtain ⟨a, b, rest, hl, hasset, hleader, hfollower, hread⟩ := fromExit_ok h
  have hmetadata : [] = e.metadata := congrArg SingleAssetExit.metadata hshell
  have hallocations : (o.leader.asAllocation :: o.follower.asAllocation ::
      o.sortedGuarantees.map Guarantee.asAllocation).map Allocation.shell =
      (a :: b :: rest).map Allocation.shell := by
    rw [← hl]
    exact congrArg SingleAssetExit.allocations hshell
  obtain ⟨ha, hallocations⟩ := List.cons.inj hallocations
  obtain ⟨hb, hrest⟩ := List.cons.inj hallocations
  -- the balances are no guarantees, so that only the rest is read
  have hnot : ∀ {x : Allocation} {y : Balance}, y.asAllocation.shell = x.shell →
      x.allocationType ≠ guaranteeAllocationType := by
    intro x y hxy
    have htype : normalAllocationType = x.allocationType := congrArg Allocation.allocationType hxy
    rw [← htype]
    decide
  rw [hl] at hread
  have hread : readGuarantees ∅ rest = .ok o.raw.guarantees := by
    rcases readGuarantees_cons hread with ⟨-, hread⟩ | ⟨_, htype, -⟩
    · rcases readGuarantees_cons hread with ⟨-, hread⟩ | ⟨_, htype, -⟩
      · exact hread
      · exact absurd htype (hnot hb)
    · exact absurd htype (hnot ha)
  have ha := Allocation.eq_of_shell ha (congrArg Prod.snd hleader)
  have hb := Allocation.eq_of_shell hb (congrArg Prod.snd hfollower)
  unfold LedgerOutcome.assetExit
  rw [guarantee_of_shell hkeyed hread hrest, ha, hb, ← hl, hmetadata]
  show (⟨o.raw.assetAddress, e.metadata, e.allocations⟩ : SingleAssetExit) = e
  rw [hasset]

/-! ## the exits of ledgers -/

/-- two plain balances, then guarantees by increasing target, and nothing else -/
structure LedgerExit (e : SingleAssetExit) : Prop where
  metadata : e.metadata = []
  balances : 2 ≤ e.allocations.length
  plain : ∀ a ∈ e.allocations.take 2, a.allocationType = normalAllocationType ∧ a.metadata = []
  guarantees : ∀ a ∈ e.allocations.drop 2, a.allocationType = guaranteeAllocationType ∧
    a.metadata.length = 64
  sorted : (e.allocations.drop 2).Pairwise fun a b => a.destination < b.destination

theorem ledgerExit_assetExit {o : LedgerOutcome} (hkeyed : o.Keyed) : LedgerExit o.assetExit := by
  refine ⟨rfl, Nat.le_add_left 2 _, fun a ha => ?_, fun a ha => ?_, ?_⟩
  · have ha : a ∈ [o.leader.asAllocation, o.follower.asAllocation] := ha
    rcases List.mem_pair.1 ha with rfl | rfl
    · exact ⟨rfl, rfl⟩
    · exact ⟨rfl, rfl⟩
  · have ha : a ∈ o.sortedGuarantees.map Guarantee.asAllocation := ha
    obtain ⟨g, -, rfl⟩ := List.mem_map.1 ha
    refine ⟨rfl, ?_⟩
    show (Abi.wordBytes g.left ++ Abi.wordBytes g.right).length = 64
    rw [List.length_append, Abi.length_wordBytes, Abi.length_wordBytes]
  · show (o.sortedGuarantees.map Guarantee.asAllocation).Pairwise _
    rw [List.pairwise_map]
    exact LedgerOutcome.pairwise_sortedGuarantees hkeyed

/-- the guarantee that an allocation stands for -/
def Allocation.guarantee (a : Allocation) : Guarantee Int :=
  ⟨a.amount.getD 0, a.destination, Abi.wordAt a.metadata 0, Abi.wordAt a.metadata 32⟩

theorem asAllocation_guarantee {a : Allocation} {n : Int} (hamount : a.amount = some n)
    (htype : a.allocationType = guaranteeAllocationType) (hlen : a.metadata.length = 64) :
    a.guarantee.asAllocation = a := by
  have hmetadata : Abi.wordBytes (Abi.wordAt a.metadata 0) ++
      Abi.wordBytes (Abi.wordAt a.metadata 32) = a.metadata := by
    rw [Abi.wordBytes_wordAt (by omega), Abi.wordBytes_wordAt (by omega), List.drop_zero,
      List.take_of_length_le (l := a.metadata.drop 32) (by rw [List.length_drop]; omega),
      List.take_append_drop]
  unfold Allocation.guarantee Guarantee.asAllocation
  rw [hmetadata, hamount, ← htype, Option.getD_some, ← hamount]

theorem LedgerOutcome.sortedGuarantees_new (asset : Address) (leader follower : Balance)
    {gs : List (Guarantee Int)} (hsorted : gs.Pairwise fun g g' => g.target < g'.target) :
    (LedgerOutcome.new asset leader follower gs).sortedGuarantees = gs := by
  have hkeyed := keyed_new asset leader follower gs
  have hdistinct := hsorted.imp fun {a b} hab => BitVec.ne_of_lt hab
  have hmem : ∀ g, g ∈ (LedgerOutcome.new asset leader follower gs).sortedGuarantees ↔ g ∈ gs := by
    intro g
    rw [mem_sortedGuarantees hkeyed]
    constructor
    · intro hg
      by_contra hnot
      have hg : (fill Guarantee.target (fun g => g) ∅ gs).lookup g.target = some g := hg
      by_cases htarget : ∃ g' ∈ gs, g'.target = g.target
      · obtain ⟨g', hg', htarget⟩ := htarget
        rw [← htarget, lookup_fill_of_mem _ _ hdistinct hg'] at hg
        exact hnot (Option.some.inj hg ▸ hg')
      · rw [lookup_fill_of_notMem _ _ fun g' hg' e => htarget ⟨g', hg', e⟩,
          Finmap.lookup_empty] at hg
        cases hg
    · exact fun hg => lookup_fill_of_mem Guarantee.target (fun g => g) hdistinct hg ∅
  have hnodup : ∀ {l : List (Guarantee Int)}, (l.Pairwise fun g g' => g.target < g'.target) →
      l.Nodup := fun h => h.imp fun {a b} hab e => BitVec.ne_of_lt hab (congrArg Guarantee.target e)
  have hsorted' := pairwise_sortedGuarantees hkeyed
  refine List.Perm.eq_of_pairwise ?_ hsorted' hsorted
    ((List.perm_ext_iff_of_nodup (hnodup hsorted') (hnodup hsorted)).2 hmem)
  intro a b _ _ hab hba
  exact absurd hab (BitVec.lt_asymm hba)

/-- **the exits of ledgers**, when no amount is missing -/
theorem ledgerExit_iff {e : SingleAssetExit}
    (hamounts : ∀ a ∈ e.allocations, ∃ n, a.amount = some n) :
    LedgerExit e ↔ ∃ o : LedgerOutcome, o.Keyed ∧ o.assetExit = e := by
  constructor
  · intro h
    obtain ⟨asset, metadata, allocations⟩ := e
    obtain ⟨hmetadata, hlen, hplain, hguarantees, hsorted⟩ := h
    dsimp only at hmetadata hlen hplain hguarantees hsorted hamounts
    match allocations with
    | [] => exact absurd hlen (by decide)
    | [_] => exact absurd hlen (by simp)
    | a :: b :: rest =>
      have hbalance : ∀ x ∈ [a, b], (⟨x.destination, x.amount.getD 0⟩ : Balance).asAllocation = x := by
        intro x hx
        obtain ⟨htype, hmeta⟩ := hplain x hx
        obtain ⟨n, hn⟩ := hamounts x (List.mem_append_left rest hx)
        unfold Balance.asAllocation
        rw [← htype, ← hmeta, hn, Option.getD_some, ← hn]
      have hrest : (rest.map Allocation.guarantee).map Guarantee.asAllocation = rest := by
        rw [List.map_map]
        conv_rhs => rw [← List.map_id rest]
        refine List.map_congr_left fun x hx => ?_
        obtain ⟨n, hn⟩ := hamounts x (List.mem_cons_of_mem a (List.mem_cons_of_mem b hx))
        obtain ⟨htype, hlen⟩ := hguarantees x hx
        exact asAllocation_guarantee hn htype hlen
      refine ⟨LedgerOutcome.new asset ⟨a.destination, a.amount.getD 0⟩
        ⟨b.destination, b.amount.getD 0⟩ (rest.map Allocation.guarantee),
        LedgerOutcome.keyed_new _ _ _ _, ?_⟩
      unfold LedgerOutcome.assetExit
      rw [LedgerOutcome.sortedGuarantees_new _ _ _ (List.pairwise_map.2 hsorted), hrest]
      show (⟨asset, [], (⟨a.destination, a.amount.getD 0⟩ : Balance).asAllocation ::
        (⟨b.destination, b.amount.getD 0⟩ : Balance).asAllocation :: rest⟩ : SingleAssetExit) = _
      rw [hbalance a (by simp), hbalance b (by simp), hmetadata]
  · rintro ⟨o, hkeyed, rfl⟩
    exact ledgerExit_assetExit hkeyed

end Nitro
