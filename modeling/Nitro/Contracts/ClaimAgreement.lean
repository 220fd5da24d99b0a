import Nitro.Contracts.ClaimEmulation
import Nitro.Contracts.TransferOrder

/-!
# When the emulation of a claim agrees with the contract

The contract and its emulation part when an allocation that was paid is visited again: the contract
takes its amount from the surplus once more, and pays it once more if all allocations are claimed.

* `Agrees`                the same new allocations, exit and total;
* `agrees_iff`            results that conserve value agree when their exits do;
* `sharesOf_visits`       what the visits of the contract get;
* `claim_emulated_iff`    when the emulation agrees with the contract.
-/

set_option linter.unusedSectionVars false

namespace Nitro.Contracts
open Evm MultiAssetHolder KeyCursor Serving
open Typescript (ExitAllocation)

/-! ## what the contract pays -/

theorem sharesOf_visits {target : List Allocation} (ds : List Bytes32) (seen : List Nat) :
    ∃ rest, sharesOf (amountAt target) S (asks (amountAt target)) seen (positionsOf target ds) =
        visits target (S - asks (amountAt target) seen) ds ++ rest ∧ ∀ u ∈ rest, u.2 = 0 := by
  induction ds generalizing seen with
  | nil => exact ⟨[], rfl, fun u hu => absurd hu List.not_mem_nil⟩
  | cons d ds ih =>
    unfold visits
    cases hd : positionOf target d with
    | none =>
      have hpos : positionsOf target (d :: ds) = positionsOf target ds := by
        rw [positionsOf, List.filterMap_cons_none hd]
        rfl
      rw [hpos]
      obtain ⟨rest, hrest, hzero⟩ := ih seen
      split
      · next h0 =>
        refine ⟨sharesOf (amountAt target) S (asks (amountAt target)) seen (positionsOf target ds),
          rfl, ?_⟩
        rw [hrest]
        intro u hu
        rcases List.mem_append.1 hu with hu | hu
        · have hnil : visits target (S - asks (amountAt target) seen) ds = [] := by
            rw [h0]
            cases ds <;> rfl
          rw [hnil] at hu
          cases hu
        · exact hzero u hu
      · exact ⟨rest, hrest, hzero⟩
    | some i =>
      have hpos : positionsOf target (d :: ds) = i :: positionsOf target ds := by
        rw [positionsOf, List.filterMap_cons_some hd]
        rfl
      have hseen : S - asks (amountAt target) (seen ++ [i]) =
          S - asks (amountAt target) seen - amountAt target i := by
        unfold asks
        rw [List.map_append, List.sum_append, List.map_singleton, List.sum_singleton]
        omega
      obtain ⟨rest, hrest, hzero⟩ := ih (seen ++ [i])
      rw [hseen] at hrest
      rw [hpos, sharesOf, hrest]
      split
      · next h0 =>
        refine ⟨_, rfl, fun u hu => ?_⟩
        have hnil : visits target (S - asks (amountAt target) seen - amountAt target i) ds = [] := by
          rw [h0, Nat.zero_sub]
          cases ds <;> rfl
        rw [hnil, List.nil_append] at hu
        rcases List.mem_cons.1 hu with rfl | hu
        · show min (amountAt target i) (S - asks (amountAt target) seen) = 0
          rw [h0, Nat.min_zero]
        · exact hzero u hu
      · exact ⟨rest, rfl, hzero⟩

/-! ## the two results -/

section results
variable {holdings : Word} {source target : List Allocation} {idx : Nat} {r : ClaimState}
  {s : Served}

structure Agrees (r : ClaimState) (t : Typescript.Claim) : Prop where
  source : t.newSourceAllocations = r.newSourceAllocations.map Allocation.toExit
  target : t.newTargetAllocations = r.newTargetAllocations.map Allocation.toExit
  exits : t.exitAllocations = r.exitAllocations.map Allocation.toExit
  total : t.totalPayouts = r.totalPayouts.toNat

/-- the same allocations, but for the amounts -/
def SameButAmounts (l l' : List Allocation) : Prop :=
  l.map (fun a => { a with amount := 0 }) = l'.map fun a => { a with amount := 0 }

theorem SameButAmounts.modify {l : List Allocation} (h : SameButAmounts l target) (i : Nat)
    (f : Word → Word) :
    SameButAmounts (l.modify i fun b => { b with amount := f b.amount }) target := by
  refine Eq.trans (List.ext_getElem? fun j => ?_) h
  rw [List.getElem?_map, List.getElem?_map, List.getElem?_modify]
  cases l[j]? with
  | none => rfl
  | some a =>
    by_cases hij : i = j
    · simp [hij]
    · simp [hij]

theorem map_toExit {l : List Allocation} (h : SameButAmounts l target) :
    l.map Allocation.toExit = withAmounts target fun i => amountAt l i := by
  refine List.ext_getElem? fun j => ?_
  have hj := congrArg (fun l => l[j]?) h
  simp only [List.getElem?_map] at hj
  unfold withAmounts amountAt
  rw [List.getElem?_map, List.getElem?_mapIdx]
  cases hl : l[j]? with
  | none =>
    rw [hl] at hj
    cases ht : target[j]? with
    | none => rfl
    | some a => rw [ht] at hj; cases hj
  | some b =>
    rw [hl] at hj
    cases ht : target[j]? with
    | none => rw [ht] at hj; cases hj
    | some a =>
      rw [ht] at hj
      obtain ⟨d, m, ty, md⟩ := a
      obtain ⟨d', m', ty', md'⟩ := b
      simp only [Option.map_some, Option.some.injEq, Allocation.mk.injEq] at hj
      obtain ⟨rfl, -, rfl, rfl⟩ := hj
      dsimp only [Option.map_some]
      rw [hl]
      rfl

theorem withAmounts_inj {f f' : Nat → Int} (h : withAmounts target f = withAmounts target f')
    {i : Nat} (hi : i < target.length) : f i = f' i := by
  have hget := congrArg (fun l => (l[i]?).map ExitAllocation.amount) h
  unfold withAmounts at hget
  simpa [List.getElem?_mapIdx, List.getElem?_eq_getElem hi] using hget

theorem withAmounts_congr {f f' : Nat → Int} (h : ∀ i < target.length, f i = f' i) :
    withAmounts target f = withAmounts target f' := by
  refine List.ext_getElem? fun j => ?_
  unfold withAmounts
  rw [List.getElem?_mapIdx, List.getElem?_mapIdx]
  rcases Nat.lt_or_ge j target.length with hj | hj
  · rw [h j hj]
  · rw [List.getElem?_eq_none_iff.2 hj]
    rfl

theorem paidSum_amountAt {l : List Allocation} (hlen : l.length = target.length) :
    paidSum target (amountAt l) = amounts l := by
  unfold paidSum
  rw [Priority.sum_range_map, ← hlen, ← amounts_take_eq, List.take_length]

structure Shaped (target : List Allocation) (s : ClaimState) : Prop where
  exits : SameButAmounts s.exitAllocations target
  target : SameButAmounts s.newTargetAllocations target

theorem claimLoop_shaped (indices : List Word) (ds : List Bytes32) (surplus : Word) :
    Shaped target (claimLoop idx indices target ds (claimStart source target surplus)) := by
  refine claimLoop_inv idx indices target ds (fun i b s hs => ?_) ⟨?_, rfl⟩
  · unfold claimPay
    split
    · exact ⟨hs.exits.modify i fun _ => _, hs.target.modify i fun x => x - _⟩
    · exact ⟨hs.exits, hs.target⟩
  · show (target.map _).map _ = _
    rw [List.map_map]
    rfl

theorem source_toExit {total : Word} (hle : total.toNat ≤ amountAt source idx) :
    (source.modify idx fun g => { g with amount := g.amount - total }).map Allocation.toExit =
      withAmounts source (Function.update (fun i => amountAt source i) idx
        (amountAt source idx - total.toNat)) := by
  have hshape : SameButAmounts source source := rfl
  rw [map_toExit (hshape.modify idx fun x => x - total)]
  refine withAmounts_congr fun i hi => ?_
  rw [amountAt_modify]
  by_cases hidx : idx = i
  · subst hidx
    rw [if_pos rfl, Function.update_self, List.getElem?_eq_getElem hi]
    rw [amountAt_of_getElem? (List.getElem?_eq_getElem hi)] at hle ⊢
    show ((source[idx].amount - total).toNat : Int) = _
    rw [BitVec.toNat_sub_of_le hle]
    omega
  · rw [if_neg hidx, Function.update_of_ne (Ne.symm hidx)]

/-- **results of the contract that conserve value agree with the emulation when the exits do** -/
theorem agrees_iff (hr : Conserves holdings source target idx r) (hshape : Shaped target r)
    (hle : ∀ i, s.exit i ≤ amountAt target i) :
    Agrees r (claimOf source target idx s) ↔ amountAt r.exitAllocations = s.exit := by
  have hexits := map_toExit hshape.exits
  have hlen : r.exitAllocations.length = target.length := by
    have hmap := congrArg List.length hshape.exits
    simpa using hmap
  constructor
  · intro h
    funext i
    have hsame : withAmounts target (fun i => (s.exit i : Int)) =
        withAmounts target fun i => (amountAt r.exitAllocations i : Int) := h.exits.trans hexits
    rcases Nat.lt_or_ge i target.length with hi | hi
    · have heq := withAmounts_inj hsame hi
      omega
    · have h0 := hle i
      rw [MultiAssetHolder.amountAt_beyond hi] at h0
      rw [MultiAssetHolder.amountAt_beyond (hlen ▸ hi)]
      omega
  · intro heq
    have htotal : paidSum target s.exit = r.totalPayouts.toNat := by
      rw [← heq, paidSum_amountAt hlen, hr.exits]
    refine ⟨?_, ?_, ?_, ?_⟩
    · show withAmounts source _ = _
      rw [hr.debited, source_toExit (le_trans hr.bound (Nat.min_le_left _ _)), htotal]
    · show withAmounts target _ = _
      rw [map_toExit hshape.target]
      refine withAmounts_congr fun i _ => ?_
      have heach := hr.each i
      rw [heq] at heach
      omega
    · show withAmounts target _ = _
      rw [hexits, heq]
    · show ((paidSum target s.exit : Nat) : Int) = _
      rw [htotal]

/-- the results of the emulation conserve value, and so do results that agree with them -/
theorem Agrees.conserves (h : Agrees r (claimOf source target idx s))
    (hshape : Shaped target r) (hdebited : r.newSourceAllocations = source.modify idx fun g =>
      { g with amount := g.amount - r.totalPayouts })
    (hle : ∀ i, s.exit i ≤ amountAt target i)
    (hsum : paidSum target s.exit ≤ affordable holdings source idx) :
    Conserves holdings source target idx r := by
  have hlen : r.exitAllocations.length = target.length := by
    have hmap := congrArg List.length hshape.exits
    simpa using hmap
  have hnewlen : r.newTargetAllocations.length = target.length := by
    have hmap := congrArg List.length hshape.target
    simpa using hmap
  have htotal : ((paidSum target s.exit : Nat) : Int) = r.totalPayouts.toNat := h.total
  have hexits : ∀ i < target.length, (s.exit i : Int) = amountAt r.exitAllocations i :=
    fun i hi => withAmounts_inj (h.exits.trans (map_toExit hshape.exits)) hi
  have hnew : ∀ i < target.length,
      (amountAt target i : Int) - s.exit i = amountAt r.newTargetAllocations i :=
    fun i hi => withAmounts_inj (h.target.trans (map_toExit hshape.target)) hi
  refine ⟨fun i => ?_, ?_, hdebited, ?_⟩
  · rcases Nat.lt_or_ge i target.length with hi | hi
    · have h1 := hexits i hi
      have h2 := hnew i hi
      have h3 := hle i
      omega
    · rw [MultiAssetHolder.amountAt_beyond (hlen ▸ hi),
        MultiAssetHolder.amountAt_beyond (hnewlen ▸ hi), MultiAssetHolder.amountAt_beyond hi]
  · have hpaid : paidSum target (amountAt r.exitAllocations) = paidSum target s.exit := by
      unfold paidSum
      refine congrArg List.sum (List.map_congr_left fun i hi => ?_)
      have h1 := hexits i (List.mem_range.1 hi)
      omega
    rw [← paidSum_amountAt hlen, hpaid]
    omega
  · omega

/-! ## claims for all allocations -/

theorem asked_eq (target : List Allocation) (d : Bytes32) :
    asked target d = ((positionOf target d).map (amountAt target)).getD 0 := by
  induction target with
  | nil => rfl
  | cons b l ih =>
    unfold asked positionOf at *
    rw [List.find?_cons, List.findIdx?_cons]
    by_cases hb : d = b.destination
    · rw [decide_eq_true hb]
      rfl
    · rw [decide_eq_false hb]
      show _ = (((l.findIdx? _).map (· + 1)).map (amountAt (b :: l))).getD 0
      rw [ih, Option.map_map]
      rfl

theorem destination_of_position {d : Bytes32} {i : Nat} {a : Allocation}
    (h : positionOf target d = some i) (ha : target[i]? = some a) : d = a.destination := by
  obtain ⟨hlt, hp, -⟩ := List.findIdx?_eq_some_iff_getElem.1 h
  rw [List.getElem?_eq_getElem hlt] at ha
  rw [← Option.some.inj ha]
  exact of_decide_eq_true hp

/-- when no destination that asks for something comes again, the emulation pays what the visits of the
contract get -/
theorem serve_all {S : Nat} (ds seen : List Bytes32) {s : Served}
    (honce : ∀ front d back, ds = front ++ d :: back → d ∈ seen ++ front →
      asked target d = 0 ∨ S ≤ totalAsked target (seen ++ front))
    (hsurplus : s.surplus = S - totalAsked target seen)
    (hle : ∀ i, s.exit i ≤ amountAt target i)
    (hseen : ∀ i a, target[i]? = some a → s.exit i ≠ 0 → a.destination ∈ seen) :
    (serve (amountAt target) [] (positionsOf target ds) s).exit =
      write s.exit (visits target s.surplus ds) := by
  induction ds generalizing seen s with
  | nil => rfl
  | cons d ds ih =>
    have hrest : ∀ front d' back, ds = front ++ d' :: back → d' ∈ seen ++ [d] ++ front →
        asked target d' = 0 ∨ S ≤ totalAsked target (seen ++ [d] ++ front) := by
      intro front d' back hsplit hmem
      rw [← List.append_cons] at hmem ⊢
      exact honce (d :: front) d' back (by rw [hsplit]; rfl) hmem
    have hasked := asked_eq target d
    unfold visits
    by_cases h0 : s.surplus = 0
    · rw [if_pos h0]
      have hstop : serve (amountAt target) [] (positionsOf target (d :: ds)) s = s := by
        cases positionsOf target (d :: ds) with
        | nil => rfl
        | cons i rest => rw [serve, if_pos h0]
      rw [hstop]
      rfl
    · rw [if_neg h0]
      cases hd : positionOf target d with
      | none =>
        have hpos : positionsOf target (d :: ds) = positionsOf target ds := by
          rw [positionsOf, List.filterMap_cons_none hd]
          rfl
        rw [hd] at hasked
        rw [hpos]
        refine ih (seen ++ [d]) hrest ?_ hle fun i a ha hne => List.mem_append_left _ (hseen i a ha hne)
        rw [totalAsked_append, hasked]
        exact hsurplus
      | some i =>
        have hlt := positionOf_lt hd
        have hget := List.getElem?_eq_getElem hlt
        have hdest := destination_of_position hd hget
        have hpos : positionsOf target (d :: ds) = i :: positionsOf target ds := by
          rw [positionsOf, List.filterMap_cons_some hd]
          rfl
        rw [hd] at hasked
        have hasked : asked target d = amountAt target i := hasked
        -- the allocation was not paid, or nothing is owed to it
        have hexit : s.exit i = 0 := by
          by_contra hne
          have hmem := hseen i _ hget hne
          rw [← hdest] at hmem
          have hlei := hle i
          rcases honce [] d ds rfl (by rw [List.append_nil]; exact hmem) with hzero | hless
          · rw [hasked] at hzero
            omega
          · rw [List.append_nil] at hless
            omega
        have hvisit : s.visit (amountAt target) [] i =
            ⟨Function.update s.exit i (min (amountAt target i) s.surplus),
              s.surplus - amountAt target i, s.k + 1⟩ := by
          unfold Served.visit
          rw [hexit, if_pos (show selected [] s.k i = true from rfl), Nat.zero_add, Nat.sub_zero, Served.mk.injEq]
          exact ⟨rfl, by omega, rfl⟩
        rw [hpos, serve, if_neg h0, hvisit]
        refine ih (seen ++ [d]) hrest ?_ (fun j => ?_) fun j a ha hne => ?_
        · show s.surplus - amountAt target i = S - totalAsked target (seen ++ [d])
          rw [totalAsked_append, hasked, hsurplus]
          omega
        · show Function.update s.exit i _ j ≤ amountAt target j
          by_cases hji : j = i
          · subst hji
            rw [Function.update_self]
            exact Nat.min_le_left _ _
          · rw [Function.update_of_ne hji]
            exact hle j
        · have hne : Function.update s.exit i (min (amountAt target i) s.surplus) j ≠ 0 := hne
          by_cases hji : j = i
          · subst hji
            rw [hget] at ha
            cases ha
            rw [← hdest]
            exact List.mem_append_right _ (List.mem_singleton_self d)
          · rw [Function.update_of_ne hji] at hne
            exact List.mem_append_left _ (hseen j a ha hne)

end results

/-! ## the emulation and the contract -/

section emulated
variable {holdings : Word} {source target : List Allocation} {idx : Nat} {indices : List Word}

theorem sourceSurplus_toExit {l : List Allocation} {n : Nat} (hn : n ≤ l.length) (v : Nat) :
    Typescript.sourceSurplus (l.map Allocation.toExit) n v =
      .ok ((v - amounts (l.take n) : Nat) : Int) := by
  induction l generalizing n v with
  | nil =>
    obtain rfl : n = 0 := Nat.le_zero.1 hn
    rfl
  | cons b l ih =>
    cases n with
    | zero => rfl
    | succ n =>
      have htake : amounts ((b :: l).take (n + 1)) = b.amount.toNat + amounts (l.take n) := rfl
      rw [List.map_cons, Typescript.sourceSurplus, htake]
      by_cases h0 : (v : Int) = 0
      · rw [if_pos h0]
        congr 1
        omega
      · have hv : (v : Int) - Typescript.min b.toExit.amount v =
            ((v - b.amount.toNat : Nat) : Int) := by
          rw [Typescript.min_eq]
          show (v : Int) - min ((b.amount.toNat : Nat) : Int) v = _
          omega
        rw [if_neg h0, hv, ih (Nat.le_of_succ_le_succ hn)]
        congr 2
        omega

theorem sourceSurplus_returns {l : List Allocation} {n : Nat} (hn : n ≤ l.length) (v : Word) :
    ∃ v', sourceSurplus l n v = .ok v' := by
  induction l generalizing n v with
  | nil =>
    obtain rfl : n = 0 := Nat.le_zero.1 hn
    exact ⟨v, rfl⟩
  | cons b l ih =>
    cases n with
    | zero => exact ⟨v, rfl⟩
    | succ n =>
      unfold sourceSurplus
      split
      · exact ⟨v, rfl⟩
      · exact ih (Nat.le_of_succ_le_succ hn) _

theorem computeClaim_returns (holdings : Word) (target : List Allocation) {g : Allocation}
    {ds : List Bytes32} (hg : source[idx]? = some g)
    (hds : decodeGuaranteeData g.metadata = .ok ds) :
    guaranteedDestinations source idx = ds ∧
    ∃ surplus : Word, surplus.toNat = affordable holdings source idx ∧ ∀ indices,
      computeClaimEffectsAndInteractions holdings source target idx indices =
        .ok (claimLoop idx indices target ds (claimStart source target surplus)) := by
  have hread : guaranteedDestinations source idx = ds := by
    simp [guaranteedDestinations, hg, hds, Except.toOption]
  refine ⟨hread, ?_⟩
  rcases computeClaim_cases holdings source target idx with ⟨e, he⟩ | hok
  · exfalso
    obtain ⟨v, hv⟩ := sourceSurplus_returns
      (Nat.le_of_lt (List.getElem?_eq_some_iff.1 hg).1) holdings
    have herror := he []
    unfold computeClaimEffectsAndInteractions at herror
    rw [hv, index_eq_ok.2 hg] at herror
    have herror : (decodeGuaranteeData g.metadata >>= fun ds => Except.ok _) =
      Except.error e := herror
    rw [hds] at herror
    cases herror
  · rwa [hread] at hok

theorem typescript_returns {guarantee : UInt8} {g : Allocation} {ds : List Bytes32}
    {listed : List Nat} (hg : source[idx]? = some g) (htype : g.allocationType = guarantee)
    (hds : decodeGuaranteeData g.metadata = .ok ds) :
    Typescript.computeClaimEffectsAndInteractions guarantee holdings.toNat
        (source.map Allocation.toExit) (target.map Allocation.toExit) idx listed =
      .ok (claimOf source target idx (serve (amountAt target) listed (positionsOf target ds)
        ⟨fun _ => 0, affordable holdings source idx, 0⟩)) := by
  have hlt := (List.getElem?_eq_some_iff.1 hg).1
  have hentry : Typescript.entry (source.map Allocation.toExit) idx = .ok g.toExit := by
    unfold Typescript.entry
    rw [List.getElem?_map, hg]
    rfl
  have hself : SameButAmounts target target := rfl
  have hsource : source.map Allocation.toExit = withAmounts source (Function.update
      (fun i => (amountAt source i : Int)) idx (amountAt source idx - paidSum target fun _ => 0)) := by
    have hshape : SameButAmounts source source := rfl
    rw [map_toExit hshape]
    refine withAmounts_congr fun i _ => ?_
    have hzero : paidSum target (fun _ => 0) = 0 := by simp [paidSum]
    rw [hzero]
    by_cases hi : i = idx
    · subst hi
      rw [Function.update_self]
      omega
    · rw [Function.update_of_ne hi]
  have hstart : ({ newSourceAllocations := source.map Allocation.toExit
                   newTargetAllocations := target.map Allocation.toExit
                   exitAllocations := (target.map Allocation.toExit).map fun a =>
                     { a with amount := 0 }
                   totalPayouts := 0
                   targetSurplus := (affordable holdings source idx : Int)
                   k := 0 } : Typescript.Claim) =
      claimOf source target idx ⟨fun _ => 0, affordable holdings source idx, 0⟩ := by
    unfold claimOf
    rw [← hsource, Typescript.Claim.mk.injEq]
    refine ⟨rfl, ?_, ?_, ?_, rfl, rfl⟩
    · rw [map_toExit hself]
      exact withAmounts_congr fun i _ => (Int.sub_zero _).symm
    · refine List.ext_getElem? fun j => ?_
      unfold withAmounts
      rw [List.getElem?_map, List.getElem?_map, List.getElem?_mapIdx]
      cases target[j]? <;> rfl
    · simp [paidSum]
  have hsurplus : Typescript.min ((holdings.toNat - amounts (source.take idx) : Nat) : Int)
      g.toExit.amount = (affordable holdings source idx : Int) := by
    rw [Typescript.min_eq, affordable, amountAt_of_getElem? hg]
    show min _ ((g.amount.toNat : Nat) : Int) = _
    omega
  unfold Typescript.computeClaimEffectsAndInteractions
  rw [sourceSurplus_toExit (Nat.le_of_lt hlt), hentry]
  show (require (g.toExit.allocationType = guarantee) _ >>= fun _ =>
    decodeGuaranteeData g.metadata >>= fun ds => _) = _
  rw [hds]
  have hchecked : require (g.toExit.allocationType = guarantee) "not a guarantee allocation" =
      .ok () := require_eq_ok.2 htype
  rw [hchecked]
  show Except.ok _ = _
  rw [hsurplus, hstart, claimLoop_served ds fun i => Nat.zero_le _]

theorem eachPaidOnce_split {ds : List Bytes32} (hread : guaranteedDestinations source idx = ds)
    (h : EachPaidOnce holdings source target idx []) {front back : List Bytes32} {d : Bytes32}
    (hsplit : ds = front ++ d :: back) (hmem : d ∈ [] ++ front) :
    asked target d = 0 ∨
      affordable holdings source idx ≤ totalAsked target ([] ++ front) := by
  have hall := h.resolve_left fun hne => hne rfl
  rw [hread] at hall
  have htake : ds.take front.length = front := by
    rw [hsplit]
    simp
  have hget : ds[front.length]? = some d := by
    rw [hsplit]
    simp
  have hcase := hall front.length d hget (by rw [htake]; exact hmem)
  rwa [htake] at hcase

/-- **the emulation agrees with the contract** exactly when, for a claim of all allocations, no
destination that asks for something comes again while something is left, and, for a claim of listed
ones, their shares are the same whether or not the visits to allocations that were paid count -/
theorem claim_emulated_iff {guarantee : UInt8} {g : Allocation} {ds : List Bytes32}
    (hlen : target.length ≤ 2 ^ 256) (hinc : indices.Pairwise (· < ·))
    (hg : source[idx]? = some g) (htype : g.allocationType = guarantee)
    (hds : decodeGuaranteeData g.metadata = .ok ds) :
    ∃ r t, computeClaimEffectsAndInteractions holdings source target idx indices = .ok r ∧
      Typescript.computeClaimEffectsAndInteractions guarantee holdings.toNat
        (source.map Allocation.toExit) (target.map Allocation.toExit) idx
        (indices.map fun w => w.toNat) = .ok t ∧
      (Agrees r t ↔ (indices = [] → EachPaidOnce holdings source target idx []) ∧
        (indices ≠ [] → SameShares (amountAt target) (affordable holdings source idx)
          (asks (amountAt target)) (liveAsks (amountAt target) (indices.map fun w => w.toNat) [])
          (indices.map fun w => w.toNat) (positionsOf target ds))) := by
  obtain ⟨hread, surplus, hS, hok⟩ := computeClaim_returns holdings target hg hds
  have hr := hok indices
  refine ⟨_, _, hr, typescript_returns hg htype hds, ?_⟩
  have hincreasing := requireIncreasingIndices_of_pairwise hinc
  have hstart : amountAt (claimStart source target surplus).exitAllocations = fun _ => 0 := by
    funext i
    exact amountAt_zeroed i
  have hexits : amountAt (claimLoop idx indices target ds
      (claimStart source target surplus)).exitAllocations = write (fun _ => 0)
        (paidVisits indices 0 (visits target (affordable holdings source idx) ds)) := by
    rw [claimLoop_exits hlen (List.length_map _), hstart, ← hS]
    rfl
  have hshape : Shaped target (claimLoop idx indices target ds (claimStart source target surplus)) :=
    claimLoop_shaped indices ds surplus
  have hle : ∀ i, (serve (amountAt target) (indices.map fun w => w.toNat) (positionsOf target ds)
      ⟨fun _ => 0, affordable holdings source idx, 0⟩).exit i ≤ amountAt target i :=
    serve_le _ _ fun i => Nat.zero_le _
  by_cases hnil : indices = []
  · subst hnil
    constructor
    · intro h
      refine ⟨fun _ => (claim_conserves_iff rfl hr).1 ?_, fun hne => absurd rfl hne⟩
      have hreached := claimStart_reached source target idx surplus
      refine h.conserves hshape (claimLoop_reached [] ds hreached surplus.isLt).debited hle ?_
      refine Nat.le_trans (Nat.le_add_right _ _)
        (serve_sum (amountAt target) [] (fun i hi => positionsOf_lt hi) ?_)
      show ((List.range target.length).map fun _ => 0).sum + affordable holdings source idx ≤ _
      simp
    · rintro ⟨honce, -⟩
      have hpaid := honce rfl
      rw [agrees_iff ((claim_conserves_iff rfl hr).2 hpaid) hshape hle, hexits]
      refine (serve_all (S := affordable holdings source idx)
        (s := ⟨fun _ => 0, affordable holdings source idx, 0⟩) ds []
        (fun front d back hsplit hmem => ?_) ?_ (fun i => Nat.zero_le _) fun i a _ hne => absurd rfl hne).symm
      · exact eachPaidOnce_split hread hpaid hsplit hmem
      · exact (Nat.sub_zero _).symm
  · have hlisted : (indices.map fun w => w.toNat) ≠ [] := fun h => hnil (List.map_eq_nil_iff.1 h)
    have hnodup := nodup_toNat hinc
    obtain ⟨rest, hrest, hzero⟩ := @sharesOf_visits (affordable holdings source idx) target ds []
    have hcontract : write (fun _ => 0)
        (paidVisits indices 0 (visits target (affordable holdings source idx) ds)) =
        write (fun _ => 0) (hits (indices.map fun w => w.toNat) (sharesOf (amountAt target)
          (affordable holdings source idx) (asks (amountAt target)) [] (positionsOf target ds))) := by
      rw [hrest, write_hits_append hnodup hzero]
      unfold paidVisits
      rw [if_neg hnil]
      rfl
    rw [agrees_iff ((claim_conserves_iff hincreasing hr).2 (.inl hnil)) hshape hle, hexits,
      serve_exits hlisted hnodup, hcontract, write_shares_iff hnodup]
    exact ⟨fun h => ⟨fun hn => absurd hn hnil, fun _ => h⟩, fun h => h.2 hnil⟩

end emulated

/-! ## a destination that is listed twice -/

namespace Sample

/-- everything is claimed, in the emulation -/
def emulated (destinations : List Bytes32) : Except String Typescript.Claim :=
  Typescript.computeClaimEffectsAndInteractions 2 10
    ((guaranteeFor destinations).map Allocation.toExit) (threeAndFour.map Allocation.toExit) 0 []

end Sample

open Contracts.Sample

theorem sameShares_three_four : SameShares (amountAt threeAndFour) 10 (asks (amountAt threeAndFour))
    (liveAsks (amountAt threeAndFour) [0, 1] []) [0, 1] [0, 0, 1] := by
  intro x i front back _ hpos _ _
  rcases front with _ | ⟨a, _ | ⟨b, _ | ⟨c, front⟩⟩⟩
  · cases hpos
    decide +kernel
  · cases hpos
    decide +kernel
  · cases hpos
    decide +kernel
  · simp at hpos

/-- everything is claimed of a guarantee for 1 and 2; both allocations are listed in a claim of one for
1, 1 and 2, which leaves enough for 2 whether or not the second visit to 1 counts -/
theorem claim_emulated_three_four :
    (∃ r t, claimed [1, 2] = .ok r ∧
      Typescript.computeClaimEffectsAndInteractions 2 (10 : Word).toNat
        ((guaranteeFor [1, 2]).map Allocation.toExit) (threeAndFour.map Allocation.toExit) 0 [] =
          .ok t ∧
      Agrees r t) ∧
    ∃ r t, claimedAt [1, 1, 2] [0, 1] = .ok r ∧
      Typescript.computeClaimEffectsAndInteractions 2 (10 : Word).toNat
        ((guaranteeFor [1, 1, 2]).map Allocation.toExit) (threeAndFour.map Allocation.toExit) 0
        ([0, 1].map fun w : Word => w.toNat) = .ok t ∧
      Agrees r t := by
  have hds : decodeGuaranteeData (Abi.encode [.array ([1, 2].map Abi.Val.word)]) = .ok [1, 2] := by
    decide +kernel
  have hds' : decodeGuaranteeData (Abi.encode [.array ([1, 1, 2].map Abi.Val.word)]) =
      .ok [1, 1, 2] := by decide +kernel
  obtain ⟨r, t, hr, ht, hiff⟩ := @claim_emulated_iff 10 (guaranteeFor [1, 2]) threeAndFour 0 [] 2 _
    [1, 2] (by decide) List.Pairwise.nil rfl rfl hds
  obtain ⟨r', t', hr', ht', hiff'⟩ := @claim_emulated_iff 10 (guaranteeFor [1, 1, 2]) threeAndFour 0
    [0, 1] 2 _ [1, 1, 2] (by decide) (by decide) rfl rfl hds'
  refine ⟨⟨r, t, hr, ht, hiff.2 ⟨fun _ => eachPaidOnce_one_two, fun hne => absurd rfl hne⟩⟩,
    r', t', hr', ht', hiff'.2 ⟨fun hnil => absurd hnil (List.cons_ne_nil _ _), fun _ => ?_⟩⟩
  have hlisted : ([0, 1].map fun w : Word => w.toNat) = [0, 1] := by decide +kernel
  have hpos : positionsOf threeAndFour [1, 1, 2] = [0, 0, 1] := by decide +kernel
  have hsurplus : affordable 10 (guaranteeFor [1, 1, 2]) 0 = 10 := by decide +kernel
  rw [hlisted, hpos, hsurplus]
  exact sameShares_three_four

/-- **the guarantee lists destination 1 twice**: the contract pays six out of the guarantee, the
emulation three -/
theorem emulation_pays_once :
    (claimed [1, 1]).map (fun r => r.totalPayouts.toNat) = .ok 6 ∧
      (emulated [1, 1]).map Typescript.Claim.totalPayouts = .ok 3 := by
  decide +kernel

end Nitro.Contracts
