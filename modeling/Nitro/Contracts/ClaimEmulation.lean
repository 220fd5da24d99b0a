import Nitro.Lib.Serving
import Nitro.Contracts.ClaimVisits

/-!
# The emulation of a claim in TypeScript

`computeClaimEffectsAndInteractions` of the package in TypeScript emulates the contract with unbounded
numbers.  It reads what an allocation is owed from the new allocations of the target and adds to the
exit, where the contract reads the old allocations and overwrites the exit.

* `Typescript`              the functions of the emulation;
* `claimOf`                 the variables of its loop, given what was paid;
* `claimLoop_served`        **the loop of the emulation serves the visits**.
-/

set_option linter.unusedSectionVars false

namespace Nitro.Contracts
open Evm MultiAssetHolder Serving

/-! ## the emulation -/

namespace Typescript

/-- an allocation of the package `exit-format`, its amount a `BigNumber` -/
structure ExitAllocation where
  destination : Bytes32
  amount : Int
  allocationType : UInt8
  metadata : Bytes
  deriving DecidableEq

def min (a b : Int) : Int := if a > b then b else a

/-- `sourceAllocations[i]`, of which a field is read -/
def entry (l : List ExitAllocation) (i : Nat) : Except String ExitAllocation :=
  match l[i]? with
  | some a => .ok a
  | none => .error "TypeError: Cannot read properties of undefined"

/-- the variables of the loop over the guaranteed destinations -/
structure Claim where
  newSourceAllocations : List ExitAllocation
  newTargetAllocations : List ExitAllocation
  exitAllocations : List ExitAllocation
  totalPayouts : Int
  targetSurplus : Int
  k : Nat
  deriving DecidableEq

/-- the loop over the allocations before the guarantee -/
def sourceSurplus : List ExitAllocation → Nat → Int → Except String Int
  | _, 0, surplus => .ok surplus
  | [], _ + 1, surplus =>
    if surplus = 0 then .ok surplus
    else .error "TypeError: Cannot read properties of undefined"
  | a :: as, n + 1, surplus =>
    if surplus = 0 then .ok surplus else sourceSurplus as n (surplus - min a.amount surplus)

section claim
variable (indexOfTargetInSource : Nat) (indices : List Nat)

/-- the amount of `a` is that of the new allocations -/
def claimPay (i : Nat) (a : ExitAllocation) (s : Claim) : Claim :=
  let affordsForDestination := min a.amount s.targetSurplus
  let debit (b : ExitAllocation) : ExitAllocation :=
    { b with amount := b.amount - affordsForDestination }
  if isPaid indices s.k i then
    { newSourceAllocations := s.newSourceAllocations.modify indexOfTargetInSource debit
      newTargetAllocations := s.newTargetAllocations.modify i debit
      exitAllocations := s.exitAllocations.modify i fun b =>
        { b with amount := b.amount + affordsForDestination }
      totalPayouts := s.totalPayouts + affordsForDestination
      targetSurplus := s.targetSurplus - affordsForDestination
      k := s.k + 1 }
  else { s with targetSurplus := s.targetSurplus - affordsForDestination }

def claimSearch (destination : Bytes32) : Nat → List ExitAllocation → Claim → Claim
  | _, [], s => s
  | i, a :: as, s =>
    if s.targetSurplus = 0 then s
    else if destination = a.destination then claimPay indexOfTargetInSource indices i a s
    else claimSearch destination (i + 1) as s

def claimLoop : List Bytes32 → Claim → Claim
  | [], s => s
  | destination :: destinations, s =>
    if s.targetSurplus = 0 then s
    else claimLoop destinations
      (claimSearch indexOfTargetInSource indices destination 0 s.newTargetAllocations s)

end claim

def computeClaimEffectsAndInteractions (guarantee : UInt8) (initialHoldings : Int)
    (sourceAllocations targetAllocations : List ExitAllocation) (indexOfTargetInSource : Nat)
    (targetAllocationIndicesToPayout : List Nat) : Except String Claim := do
  let surplus ← sourceSurplus sourceAllocations indexOfTargetInSource initialHoldings
  let g ← entry sourceAllocations indexOfTargetInSource
  require (g.allocationType = guarantee) "not a guarantee allocation"
  let destinations ← decodeGuaranteeData g.metadata
  .ok (claimLoop indexOfTargetInSource targetAllocationIndicesToPayout destinations
    { newSourceAllocations := sourceAllocations
      newTargetAllocations := targetAllocations
      exitAllocations := targetAllocations.map fun a => { a with amount := 0 }
      totalPayouts := 0
      targetSurplus := min surplus g.amount
      k := 0 })

theorem min_eq (a b : Int) : min a b = Min.min a b := by
  unfold min
  split <;> omega

end Typescript

open Typescript (ExitAllocation)

/-- an allocation of the contract, as the emulation has it -/
def Allocation.toExit (a : Allocation) : ExitAllocation :=
  ⟨a.destination, a.amount.toNat, a.allocationType, a.metadata⟩
/-! ## the loop of the emulation -/

section emulation
variable {source target : List Allocation} {idx : Nat}

/-- the allocations with other amounts -/
def withAmounts (l : List Allocation) (f : Nat → Int) : List ExitAllocation :=
  l.mapIdx fun i a => ⟨a.destination, f i, a.allocationType, a.metadata⟩

theorem modify_withAmounts (l : List Allocation) (f : Nat → Int) (i : Nat) (g : Int → Int) :
    (withAmounts l f).modify i (fun b => { b with amount := g b.amount }) =
      withAmounts l (Function.update f i (g (f i))) := by
  refine List.ext_getElem? fun j => ?_
  unfold withAmounts
  rw [List.getElem?_modify, List.getElem?_mapIdx, List.getElem?_mapIdx]
  cases l[j]? with
  | none => rfl
  | some a =>
    by_cases hij : i = j
    · subst hij
      simp
    · simp [hij, Function.update_of_ne (Ne.symm hij)]

/-- what was paid altogether -/
def paidSum (target : List Allocation) (exit : Nat → Nat) : Nat :=
  ((List.range target.length).map exit).sum

/-- the variables of the emulation's loop -/
def claimOf (source target : List Allocation) (idx : Nat) (s : Served) :
    Typescript.Claim where
  newSourceAllocations := withAmounts source (Function.update (fun i => amountAt source i) idx
    (amountAt source idx - paidSum target s.exit))
  newTargetAllocations := withAmounts target fun i => amountAt target i - s.exit i
  exitAllocations := withAmounts target fun i => s.exit i
  totalPayouts := paidSum target s.exit
  targetSurplus := s.surplus
  k := s.k

/-- the positions of the destinations that have one -/
def positionsOf (target : List Allocation) (ds : List Bytes32) : List Nat :=
  ds.filterMap (positionOf target)

theorem positionOf_lt {d : Bytes32} {i : Nat} (h : positionOf target d = some i) :
    i < target.length := (List.findIdx?_eq_some_iff_getElem.1 h).1

theorem positionsOf_lt {ds : List Bytes32} {i : Nat} (h : i ∈ positionsOf target ds) :
    i < target.length := by
  obtain ⟨d, -, hd⟩ := List.mem_filterMap.1 h
  exact positionOf_lt hd

theorem claimPay_served {indices : List Nat} {s : Served} {i : Nat} {a : Allocation}
    (hi : i < target.length) (hle : s.exit i ≤ amountAt target i) :
    Typescript.claimPay idx indices i
        ⟨a.destination, amountAt target i - s.exit i, a.allocationType, a.metadata⟩
        (claimOf source target idx s) =
      claimOf source target idx (s.visit (amountAt target) indices i) := by
  have hv : Typescript.min ((amountAt target i : Int) - s.exit i) s.surplus =
      ((min (amountAt target i - s.exit i) s.surplus : Nat) : Int) := by
    rw [Typescript.min_eq]
    omega
  unfold Typescript.claimPay Served.visit
  show (if isPaid indices s.k i = true then _ else _) = _
  dsimp only [claimOf]
  rw [hv]
  by_cases hpaid : isPaid indices s.k i = true
  · have hsel : selected indices s.k i = true := hpaid
    rw [if_pos hpaid, if_pos hsel]
    have hsum := sum_update (f := s.exit) (v := min (amountAt target i - s.exit i) s.surplus) hi
    have htotal : paidSum target (Function.update s.exit i
        (s.exit i + min (amountAt target i - s.exit i) s.surplus)) =
        paidSum target s.exit + min (amountAt target i - s.exit i) s.surplus := hsum
    rw [Typescript.Claim.mk.injEq]
    refine ⟨?_, ?_, ?_, ?_, ?_, rfl⟩
    · rw [modify_withAmounts source _ idx (fun x => x - _), htotal, Function.update_self,
        Function.update_idem]
      congr 2
      omega
    · rw [modify_withAmounts target _ i (fun x => x - _)]
      refine congrArg (withAmounts target) (funext fun j => ?_)
      dsimp only
      by_cases hij : j = i
      · subst hij
        rw [Function.update_self, Function.update_self]
        omega
      · rw [Function.update_of_ne hij, Function.update_of_ne hij]
    · rw [modify_withAmounts target _ i (fun x => x + _)]
      refine congrArg (withAmounts target) (funext fun j => ?_)
      dsimp only
      by_cases hij : j = i
      · subst hij
        rw [Function.update_self, Function.update_self]
        omega
      · rw [Function.update_of_ne hij, Function.update_of_ne hij]
    · rw [htotal]
      omega
    · dsimp only
      omega
  · have hsel : ¬ selected indices s.k i = true := hpaid
    rw [if_neg hpaid, if_neg hsel, Typescript.Claim.mk.injEq]
    refine ⟨rfl, rfl, rfl, rfl, ?_, rfl⟩
    dsimp only
    omega

theorem claimSearch_find (idx : Nat) (indices : List Nat) (d : Bytes32) {s : Typescript.Claim}
    (hs : s.targetSurplus ≠ 0) (l : List ExitAllocation) (n : Nat) :
    (l.findIdx? (fun a => decide (d = a.destination)) = none ∧
      Typescript.claimSearch idx indices d n l s = s) ∨
    ∃ j a, l.findIdx? (fun a => decide (d = a.destination)) = some j ∧ l[j]? = some a ∧
      Typescript.claimSearch idx indices d n l s =
        Typescript.claimPay idx indices (n + j) a s := by
  induction l generalizing n with
  | nil => exact .inl ⟨rfl, rfl⟩
  | cons b l ih =>
    rw [Typescript.claimSearch, if_neg hs, List.findIdx?_cons]
    by_cases hb : d = b.destination
    · rw [if_pos hb, if_pos (decide_eq_true hb)]
      exact .inr ⟨0, b, rfl, rfl, rfl⟩
    · rw [if_neg hb, if_neg (by simpa using hb)]
      rcases ih (n + 1) with ⟨hnone, hsame⟩ | ⟨j, a, hj, ha, hpay⟩
      · rw [hnone]
        exact .inl ⟨rfl, hsame⟩
      · rw [hj]
        refine .inr ⟨j + 1, a, rfl, ha, ?_⟩
        rw [hpay, show n + 1 + j = n + (j + 1) by omega]

theorem findIdx?_withAmounts (f : Nat → Int) (d : Bytes32) :
    (withAmounts target f).findIdx? (fun a => decide (d = a.destination)) =
      positionOf target d := by
  have hdest : (withAmounts target f).map ExitAllocation.destination =
      target.map Allocation.destination := by
    refine List.ext_getElem? fun j => ?_
    unfold withAmounts
    rw [List.getElem?_map, List.getElem?_mapIdx, List.getElem?_map]
    cases target[j]? <;> rfl
  have hleft : (withAmounts target f).findIdx? (fun a => decide (d = a.destination)) =
      ((withAmounts target f).map ExitAllocation.destination).findIdx? fun x => decide (d = x) := by
    rw [List.findIdx?_map]
    rfl
  have hright : positionOf target d =
      (target.map Allocation.destination).findIdx? fun x => decide (d = x) := by
    rw [List.findIdx?_map]
    rfl
  rw [hleft, hright, hdest]

/-- **the loop of the emulation serves the positions of the destinations** -/
theorem claimLoop_served {indices : List Nat} (ds : List Bytes32) {s : Served}
    (hle : ∀ i, s.exit i ≤ amountAt target i) :
    Typescript.claimLoop idx indices ds (claimOf source target idx s) =
      claimOf source target idx (serve (amountAt target) indices (positionsOf target ds) s) := by
  induction ds generalizing s with
  | nil => rfl
  | cons d ds ih =>
    rw [Typescript.claimLoop]
    by_cases h0 : s.surplus = 0
    · have hzero : (claimOf source target idx s).targetSurplus = 0 := congrArg Int.ofNat h0
      rw [if_pos hzero]
      have hstop : serve (amountAt target) indices (positionsOf target (d :: ds)) s = s := by
        cases positionsOf target (d :: ds) with
        | nil => rfl
        | cons i rest => rw [serve, if_pos h0]
      rw [hstop]
    · have hzero : (claimOf source target idx s).targetSurplus ≠ 0 :=
        fun h => h0 (Int.ofNat.inj h)
      rw [if_neg hzero]
      rcases claimSearch_find idx indices d hzero
        (claimOf source target idx s).newTargetAllocations 0 with
        ⟨hnone, hsame⟩ | ⟨j, a, hj, ha, hpay⟩
      · have hpos : positionsOf target (d :: ds) = positionsOf target ds := by
          have hnone : positionOf target d = none := (findIdx?_withAmounts _ d).symm.trans hnone
          rw [positionsOf, List.filterMap_cons_none hnone]
          rfl
        rw [hsame, hpos]
        exact ih hle
      · have hj : positionOf target d = some j := (findIdx?_withAmounts _ d).symm.trans hj
        have hlt := positionOf_lt hj
        have hpos : positionsOf target (d :: ds) = j :: positionsOf target ds := by
          rw [positionsOf, List.filterMap_cons_some hj]
          rfl
        have hentry : a = ⟨target[j].destination, amountAt target j - s.exit j,
            target[j].allocationType, target[j].metadata⟩ := by
          have hget : (withAmounts target fun i => (amountAt target i : Int) - s.exit i)[j]? =
              some a := ha
          unfold withAmounts at hget
          rw [List.getElem?_mapIdx, List.getElem?_eq_getElem hlt] at hget
          exact (Option.some.inj hget).symm
        rw [hpay, Nat.zero_add, hentry, claimPay_served hlt (hle j), hpos, serve, if_neg h0]
        refine ih fun i => ?_
        have hone := serve_le indices [j] hle i
        rwa [serve, if_neg h0, serve] at hone

end emulation

end Nitro.Contracts
