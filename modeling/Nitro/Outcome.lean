import Nitro.Lib.Abi
import Nitro.Types

/-!
# Outcomes

The package `outcome`: an `Exit` lists, asset by asset, the amounts allocated to destinations in
priority order.  Amounts are `*big.Int`, so reading one may panic.

* `Exit.equal`, `Exit.clone`                    comparison and deep copy (`equal_eq`, `clone_eq`);
* `totalFor`, `depositSafetyThreshold`          what a destination is owed and what stands before it;
* `computeTransferEffectsAndInteractions`       the client's emulation of an on-chain transfer;
* `Exit.toVal`                                  the value that is ABI encoded.
-/

set_option linter.unusedSectionVars false

namespace Nitro
open Go FinMap

/-! ## allocations -/

def normalAllocationType : UInt8 := 0
def guaranteeAllocationType : UInt8 := 1

structure Allocation where
  destination : Destination
  amount : BigInt
  allocationType : UInt8
  metadata : Bytes
  deriving DecidableEq

/-- the zero value of the struct -/
instance : Inhabited Allocation := ⟨⟨0, none, 0, []⟩⟩

namespace Allocation

def equal (a b : Allocation) : Res Bool :=
  if a.destination = b.destination ∧ a.allocationType = b.allocationType then do
    let same ← BigInt.cmpEq a.amount b.amount
    .ok (same && decide (a.metadata = b.metadata))
  else .ok false

def clone (a : Allocation) : Res Allocation := do
  let amount ← a.amount.deref
  .ok { a with amount := some amount }

def toVal (a : Allocation) : Res Abi.Val := do
  let amount ← a.amount.deref
  .ok (.tuple [.word a.destination, .word (BitVec.ofInt 256 amount),
    .uint a.allocationType.toNat, .bytes a.metadata])

theorem equal_eq {a b : Allocation} (h : a.equal b = .ok true) : a = b := by
  unfold equal at h
  split at h
  · next hd =>
    obtain ⟨same, hs, h⟩ := Res.bind_eq_ok.1 h
    cases same with
    | false => cases h
    | true =>
      have hm : a.metadata = b.metadata := by simpa using h
      have ha := BigInt.cmpEq_true hs
      cases a; cases b
      simp_all
  · cases h

theorem equal_self (a : Allocation) : a.equal a = .ok true := by
  unfold equal
  rw [if_pos ⟨rfl, rfl⟩, BigInt.cmpEq_self]
  exact congrArg Except.ok (decide_eq_true rfl)

theorem clone_eq {a b : Allocation} (h : a.clone = .ok b) : b = a := by
  obtain ⟨n, hn, h⟩ := Res.bind_eq_ok.1 h
  rw [BigInt.deref_eq_ok] at hn
  cases a
  cases h
  simp_all

theorem clone_some {a : Allocation} {n : Int} (h : a.amount = some n) : a.clone = .ok a := by
  cases a
  cases h
  rfl

end Allocation

/-! ## lists of allocations -/

abbrev Allocations := List Allocation

namespace Allocations

def equal (a b : Allocations) : Res Bool := sliceEqual Allocation.equal a b

def clone (a : Allocations) : Res Allocations := a.mapM Allocation.clone

def total : Allocations → Res Int
  | [] => .ok 0
  | a :: as => do
    let amount ← a.amount.deref
    let rest ← total as
    .ok (amount + rest)

def totalFor (dest : Destination) : Allocations → Res Int
  | [] => .ok 0
  | a :: as =>
    if a.destination = dest then do
      let amount ← a.amount.deref
      let rest ← totalFor dest as
      .ok (amount + rest)
    else totalFor dest as

/-- the loop of `DepositSafetyThreshold`: it stops at the first allocation to `interest` -/
def depositSafetyThreshold (interest : Destination) : Allocations → Res Int
  | [] => .ok 0
  | a :: as =>
    if a.destination = interest then .ok 0
    else do
      let amount ← a.amount.deref
      let rest ← depositSafetyThreshold interest as
      .ok (amount + rest)

theorem equal_eq {a b : Allocations} (h : equal a b = .ok true) : a = b :=
  sliceEqual_eq (fun _ _ => Allocation.equal_eq) h

theorem clone_eq {a b : Allocations} (h : clone a = .ok b) : b = a :=
  Res.mapM_eq_ok (fun _ _ => Allocation.clone_eq) h

end Allocations

/-! ## exits -/

structure SingleAssetExit where
  asset : Address
  metadata : Bytes
  allocations : Allocations
  deriving DecidableEq

namespace SingleAssetExit

def equal (s r : SingleAssetExit) : Res Bool :=
  if s.metadata = r.metadata ∧ s.asset = r.asset then s.allocations.equal r.allocations
  else .ok false

def clone (s : SingleAssetExit) : Res SingleAssetExit := do
  let allocations ← s.allocations.clone
  .ok { s with allocations := allocations }

def toVal (s : SingleAssetExit) : Res Abi.Val := do
  let allocations ← s.allocations.mapM Allocation.toVal
  .ok (.tuple [.word (s.asset.setWidth 256), .bytes s.metadata, .array allocations])

theorem equal_self (s : SingleAssetExit) : s.equal s = .ok true := by
  unfold equal
  rw [if_pos ⟨rfl, rfl⟩]
  exact sliceEqual_self Allocation.equal_self s.allocations

theorem equal_eq {s r : SingleAssetExit} (h : s.equal r = .ok true) : s = r := by
  unfold equal at h
  split at h
  · next he =>
    have ha := Allocations.equal_eq h
    cases s; cases r
    simp_all
  · cases h

theorem clone_eq {s r : SingleAssetExit} (h : s.clone = .ok r) : r = s := by
  obtain ⟨as, ha, h⟩ := Res.bind_eq_ok.1 h
  cases h
  rw [Allocations.clone_eq ha]

end SingleAssetExit

abbrev Exit := List SingleAssetExit

namespace Exit

def equal (a b : Exit) : Res Bool := sliceEqual SingleAssetExit.equal a b

def clone (e : Exit) : Res Exit := e.mapM SingleAssetExit.clone

def toVal (e : Exit) : Res Abi.Val := do
  let exits ← e.mapM SingleAssetExit.toVal
  .ok (.array exits)

/-- the loop that fills a `Funds` with one amount per exit; a later exit of the same asset
overwrites an earlier one -/
def fundsBy (f : Allocations → Res Int) : Exit → Funds → Res Funds
  | [], funds => .ok funds
  | s :: e, funds => do
    let amount ← f s.allocations
    fundsBy f e (funds.insert s.asset amount)

def totalAllocated (e : Exit) : Res Funds := fundsBy Allocations.total e ∅

def totalAllocatedFor (e : Exit) (dest : Destination) : Res Funds :=
  fundsBy (Allocations.totalFor dest) e ∅

def depositSafetyThreshold (e : Exit) (interest : Destination) : Res Funds :=
  fundsBy (Allocations.depositSafetyThreshold interest) e ∅

theorem equal_eq {a b : Exit} (h : equal a b = .ok true) : a = b :=
  sliceEqual_eq (fun _ _ => SingleAssetExit.equal_eq) h

theorem clone_eq {a b : Exit} (h : clone a = .ok b) : b = a :=
  Res.mapM_eq_ok (fun _ _ => SingleAssetExit.clone_eq) h

end Exit

/-! ## what an outcome allocates -/

/-- the amount of an allocation that has one -/
def Allocation.value (a : Allocation) : Int := a.amount.getD 0

def SingleAssetExit.allocated (e : SingleAssetExit) : Int :=
  (e.allocations.map Allocation.value).sum

/-- everything that is allocated in an asset, over the whole outcome -/
def Exit.allocatedIn (o : Exit) (asset : Address) : Int :=
  ((o.filter fun e => decide (e.asset = asset)).map SingleAssetExit.allocated).sum

theorem Exit.allocatedIn_cons (x : SingleAssetExit) (e : Exit) (asset : Address) :
    Exit.allocatedIn (x :: e) asset =
      (if x.asset = asset then x.allocated else 0) + Exit.allocatedIn e asset := by
  unfold allocatedIn
  by_cases h : x.asset = asset
  · simp [h]
  · simp [h]

/-! ## outcomes without a missing amount -/

theorem Exit.clone_of_amounts {o : Exit}
    (h : ∀ e ∈ o, ∀ x ∈ e.allocations, ∃ n, x.amount = some n) : o.clone = .ok o := by
  refine Res.mapM_forall₂.2 (List.forall₂_same.2 fun e he => ?_)
  have hall : e.allocations.clone = .ok e.allocations := by
    refine Res.mapM_forall₂.2 (List.forall₂_same.2 fun x hx => ?_)
    obtain ⟨n, hn⟩ := h e he x hx
    exact Allocation.clone_some hn
  unfold SingleAssetExit.clone
  rw [hall]
  rfl

theorem Allocations.total_of_amounts {l : Allocations} (h : ∀ x ∈ l, ∃ n, x.amount = some n) :
    ∃ n, l.total = .ok n := by
  induction l with
  | nil => exact ⟨0, rfl⟩
  | cons x l ih =>
    obtain ⟨n, hn⟩ := h x List.mem_cons_self
    obtain ⟨m, hm⟩ := ih fun y hy => h y (List.mem_cons_of_mem x hy)
    refine ⟨n + m, ?_⟩
    unfold Allocations.total
    rw [hn, hm]
    rfl

theorem Exit.total_of_amounts {o : Exit}
    (h : ∀ e ∈ o, ∀ x ∈ e.allocations, ∃ n, x.amount = some n) :
    ∃ funds, o.totalAllocated = .ok funds := by
  suffices hloop : ∀ acc : Funds, ∃ funds, Exit.fundsBy Allocations.total o acc = .ok funds from
    hloop ∅
  induction o with
  | nil => exact fun acc => ⟨acc, rfl⟩
  | cons e o ih =>
    intro acc
    obtain ⟨n, hn⟩ := Allocations.total_of_amounts (h e List.mem_cons_self)
    obtain ⟨funds, hfunds⟩ := ih (fun f hf => h f (List.mem_cons_of_mem e hf)) (acc.insert e.asset n)
    refine ⟨funds, ?_⟩
    unfold Exit.fundsBy
    rw [hn]
    exact hfunds

theorem Allocations.amounts_of_total {l : Allocations} {n : Int} (h : l.total = .ok n) :
    ∀ x ∈ l, ∃ m, x.amount = some m := by
  induction l generalizing n with
  | nil => exact fun x hx => absurd hx List.not_mem_nil
  | cons a l ih =>
    obtain ⟨m, hm, h⟩ := Res.bind_eq_ok.1 h
    obtain ⟨rest, hrest, -⟩ := Res.bind_eq_ok.1 h
    intro x hx
    rcases List.mem_cons.1 hx with rfl | hx
    · exact ⟨m, BigInt.deref_eq_ok.1 hm⟩
    · exact ih hrest x hx

theorem Exit.amounts_of_total {o : Exit} {acc funds : Funds}
    (h : Exit.fundsBy Allocations.total o acc = .ok funds) :
    ∀ e ∈ o, ∀ x ∈ e.allocations, ∃ m, x.amount = some m := by
  induction o generalizing acc with
  | nil => exact fun e he => absurd he List.not_mem_nil
  | cons f o ih =>
    obtain ⟨n, hn, h⟩ := Res.bind_eq_ok.1 h
    intro e he
    rcases List.mem_cons.1 he with rfl | he
    · exact Allocations.amounts_of_total hn
    · exact ih h e he

theorem Exit.amounts_of_clone {o o' : Exit} (h : o.clone = .ok o') :
    ∀ e ∈ o, ∀ x ∈ e.allocations, ∃ m, x.amount = some m := by
  obtain rfl : o' = o := Exit.clone_eq h
  intro e he x hx
  obtain ⟨f, -, hf⟩ := Res.exists_of_mem_mapM h he
  obtain ⟨as, has, hf⟩ := Res.bind_eq_ok.1 hf
  cases hf
  obtain ⟨y, -, hy⟩ := Res.exists_of_mem_mapM has hx
  obtain ⟨n, -, hy⟩ := Res.bind_eq_ok.1 hy
  cases hy
  exact ⟨n, rfl⟩

/-! ## guarantees -/

structure GuaranteeMetadata where
  left : Destination
  right : Destination
  deriving DecidableEq

/-- the tuple of the two destinations; encoding it cannot fail -/
def GuaranteeMetadata.encode (m : GuaranteeMetadata) : Bytes :=
  Abi.encode [.tuple [.word m.left, .word m.right]]

/-! ## the emulation of an on-chain transfer -/

/-- `len(indices) == 0 || k < len(indices) && indices[k] == i` -/
def isPaid (indices : List Nat) (k i : Nat) : Bool :=
  indices.isEmpty || decide (k < indices.length ∧ indices[k]? = some i)

/-- the loop over the allocations from position `i` on; it never increases `k` -/
def transferLoop (indices : List Nat) (k : Nat) :
    Nat → Int → Allocations → Res (Allocations × Allocations)
  | _, _, [] => .ok ([], [])
  | i, surplus, a :: as => do
    let amount ← a.amount.deref
    let affordsForDestination := if amount > surplus then surplus else amount
    let (newAllocations, exitAllocations) ←
      transferLoop indices k (i + 1) (surplus - affordsForDestination) as
    if isPaid indices k i then
      .ok ({ a with amount := some (amount - affordsForDestination) } :: newAllocations,
        { a with amount := some affordsForDestination } :: exitAllocations)
    else
      .ok ({ a with amount := some amount } :: newAllocations, default :: exitAllocations)

def computeTransferEffectsAndInteractions (initialHoldings : Int) (allocations : Allocations)
    (indices : List Nat) : Res (Allocations × Allocations) :=
  transferLoop indices 0 0 initialHoldings allocations

end Nitro
