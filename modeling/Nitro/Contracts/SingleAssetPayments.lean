import Nitro.Contracts.Support
import Nitro.Contracts.Disputes

/-!
# Payment channels with one asset

The contract `SingleAssetPayments`: the mover of a turn may pay the others.  The sums that are compared
are sums of words, and who moved is read off the turn number, so the contract is as good as the turn
taking it starts with.

* `latestSupportedState`    the contract;
* `Pays`                    what one transition does (`requireValidTransition_iff`);
* `payments_along`          **between any two states of a support proof**;
* `payer_signed`            **whoever pays has signed**, if the proof starts within the last round;
* `early_payment_challenged`  **otherwise the counterparty takes everything**;
* `raise_accepted`          **sums that wrap**: the mover raises both balances;
* `asset_change_accepted`   **the mover changes the asset**.
-/

set_option linter.unusedSectionVars false

namespace Nitro.Contracts
open Evm RoundRobin

namespace SingleAssetPayments

/-! ## the contract -/

section contract
variable (D : Deployment) (simple : UInt8)

/-- there are as many allocations as participants when the loop starts; `simple` is the number of
`ExitFormat.AllocationType.simple` -/
def requireSimple : List Allocation → Except String Unit
  | [] => .ok ()
  | a :: allocations => do
    require (a.allocationType = simple) "not a simple allocation"
    requireSimple allocations

def requireValidOutcome (nParticipants : Nat) (outcome : Exit) : Except String Unit := do
  require (outcome.length = 1) "outcome: Only one asset allowed"
  let e ← index outcome 0
  require (e.allocations.length = nParticipants) "|Allocation|!=|participants|"
  requireSimple simple e.allocations

/-- the loop from participant `i` on, with the two sums so far -/
def transitionLoop (nParticipants : Nat) (turnNum : BitVec 48)
    (allocationsA allocationsB : List Allocation) :
    Nat → Nat → Word → Word → Except String (Word × Word)
  | 0, _, allocationSumA, allocationSumB => .ok (allocationSumA, allocationSumB)
  | rounds + 1, i, allocationSumA, allocationSumB => do
    let a ← index allocationsA i
    let b ← index allocationsB i
    require (b.destination = a.destination) "Destinations may not change"
    require (i ≠ turnNum.toNat % nParticipants → a.amount ≤ b.amount) "Nonmover balance decreased"
    transitionLoop nParticipants turnNum allocationsA allocationsB rounds (i + 1)
      (allocationSumA + a.amount) (allocationSumB + b.amount)

def requireValidTransition (nParticipants : Nat) (a b : VariablePart) : Except String Unit := do
  let exitA ← index a.outcome 0
  let exitB ← index b.outcome 0
  let (allocationSumA, allocationSumB) ←
    transitionLoop nParticipants b.turnNum exitA.allocations exitB.allocations nParticipants 0 0 0
  require (allocationSumA = allocationSumB) "Total allocated cannot change"

def latestSupportedState (fixedPart : FixedPart) (signedVariableParts : List SignedVariablePart) :
    Except String VariablePart := do
  ShortcuttingTurnTaking.requireValidTurnTaking D fixedPart signedVariableParts
  judge (fun part => requireValidOutcome simple fixedPart.participants.length
      part.variablePart.outcome)
    (fun a b => requireValidTransition fixedPart.participants.length a.variablePart b.variablePart)
    none signedVariableParts
  let last ← index signedVariableParts (signedVariableParts.length - 1)
  .ok last.variablePart

end contract

/-! ## balances -/

/-- the allocations of the first asset -/
def allocations (p : VariablePart) : List Allocation :=
  match p.outcome with
  | [] => []
  | e :: _ => e.allocations

/-- what a participant would get -/
def balance (p : VariablePart) (i : Nat) : Nat := ((allocations p)[i]?.map (·.amount.toNat)).getD 0

def total (p : VariablePart) : Nat := ((allocations p).map (·.amount.toNat)).sum

section spec
variable {D : Deployment} {simple : UInt8} {n : Nat} {fixedPart : FixedPart}
  {parts : List SignedVariablePart} {a b : VariablePart}

theorem requireSimple_iff {l : List Allocation} :
    requireSimple simple l = .ok () ↔ ∀ a ∈ l, a.allocationType = simple := by
  induction l with
  | nil => simp [requireSimple]
  | cons a l ih =>
    unfold requireSimple
    rw [require_bind_eq_ok, ih, List.forall_mem_cons]

structure ValidOutcome (simple : UInt8) (n : Nat) (p : VariablePart) : Prop where
  oneAsset : p.outcome.length = 1
  length : (allocations p).length = n
  types : ∀ a ∈ allocations p, a.allocationType = simple

theorem index_allocations (hone : a.outcome.length = 1) :
    ∃ e, index a.outcome 0 = .ok e ∧ e.allocations = allocations a := by
  obtain ⟨e, he⟩ := List.length_eq_one_iff.1 hone
  refine ⟨e, ?_, ?_⟩
  · rw [he]
    rfl
  · unfold allocations
    rw [he]

theorem requireValidOutcome_iff :
    requireValidOutcome simple n a.outcome = .ok () ↔ ValidOutcome simple n a := by
  unfold requireValidOutcome
  rw [require_bind_eq_ok]
  constructor
  · rintro ⟨hone, h⟩
    obtain ⟨e, he, hall⟩ := index_allocations hone
    obtain ⟨_, hindex, h⟩ := bind_eq_ok.1 h
    cases he.symm.trans hindex
    obtain ⟨hlength, h⟩ := require_bind_eq_ok.1 h
    exact ⟨hone, hall ▸ hlength, hall ▸ requireSimple_iff.1 h⟩
  · rintro ⟨hone, hlength, htypes⟩
    obtain ⟨e, he, hall⟩ := index_allocations hone
    rw [← hall] at hlength htypes
    exact ⟨hone, bind_eq_ok.2 ⟨e, he, require_bind_eq_ok.2 ⟨hlength, requireSimple_iff.2 htypes⟩⟩⟩

theorem toNat_sum (l : List Allocation) :
    ((l.map (·.amount)).sum : Word).toNat = (l.map (·.amount.toNat)).sum % 2 ^ 256 := by
  induction l with
  | nil => rfl
  | cons a l ih =>
    rw [List.map_cons, List.sum_cons, BitVec.toNat_add, ih, List.map_cons, List.sum_cons,
      Nat.add_mod_mod]

/-- what the loop checks from participant `i` on -/
def Kept (n : Nat) (turnNum : BitVec 48) (A B : List Allocation) (i : Nat) : Prop :=
  ∀ j x y, i ≤ j → A[j]? = some x → B[j]? = some y →
    y.destination = x.destination ∧ (j ≠ turnNum.toNat % n → x.amount ≤ y.amount)

theorem transitionLoop_iff {turnNum : BitVec 48} {A B : List Allocation} {rounds i : Nat}
    {sumA sumB : Word} {r : Word × Word} (hA : A.length = i + rounds) (hB : B.length = i + rounds) :
    transitionLoop n turnNum A B rounds i sumA sumB = .ok r ↔ Kept n turnNum A B i ∧
      r = (sumA + ((A.drop i).map (·.amount)).sum, sumB + ((B.drop i).map (·.amount)).sum) := by
  induction rounds generalizing i sumA sumB with
  | zero =>
    have hdropA : A.drop i = [] := List.drop_eq_nil_of_le (by omega)
    have hdropB : B.drop i = [] := List.drop_eq_nil_of_le (by omega)
    have hkept : Kept n turnNum A B i := by
      intro j x y hj hx
      have := (List.getElem?_eq_some_iff.1 hx).1
      omega
    rw [hdropA, hdropB, transitionLoop, Except.ok.injEq]
    simp [hkept, eq_comm]
  | succ rounds ih =>
    have hiA : i < A.length := by omega
    have hiB : i < B.length := by omega
    have hindexA : index A i = .ok A[i] := index_eq_ok.2 (List.getElem?_eq_getElem hiA)
    have hindexB : index B i = .ok B[i] := index_eq_ok.2 (List.getElem?_eq_getElem hiB)
    have hkept : Kept n turnNum A B i ↔ B[i].destination = A[i].destination ∧
        (i ≠ turnNum.toNat % n → A[i].amount ≤ B[i].amount) ∧ Kept n turnNum A B (i + 1) := by
      constructor
      · intro h
        obtain ⟨hdest, hle⟩ := h i A[i] B[i] (Nat.le_refl i) (List.getElem?_eq_getElem hiA)
          (List.getElem?_eq_getElem hiB)
        exact ⟨hdest, hle, fun j x y hj => h j x y (by omega)⟩
      · rintro ⟨hdest, hle, h⟩ j x y hj hx hy
        rcases Nat.eq_or_lt_of_le hj with rfl | hlt
        · rw [List.getElem?_eq_getElem hiA] at hx
          rw [List.getElem?_eq_getElem hiB] at hy
          cases hx
          cases hy
          exact ⟨hdest, hle⟩
        · exact h j x y hlt hx hy
    unfold transitionLoop
    rw [hindexA, hindexB]
    show (require _ _ >>= fun _ => require _ _ >>= fun _ => _) = .ok _ ↔ _
    rw [require_bind_eq_ok, require_bind_eq_ok, ih (by omega) (by omega), hkept,
      List.drop_eq_getElem_cons hiA, List.drop_eq_getElem_cons hiB]
    simp only [List.map_cons, List.sum_cons, BitVec.add_assoc, and_assoc]

/-- **a payment**: the mover of the second state pays the others -/
structure Pays (n : Nat) (a b : VariablePart) : Prop where
  destination : (allocations b).map (·.destination) = (allocations a).map (·.destination)
  others : ∀ i < n, i ≠ b.turnNum.toNat % n → balance a i ≤ balance b i
  sum : total b % 2 ^ 256 = total a % 2 ^ 256

theorem balance_of_getElem {i : Nat} {x : Allocation} (h : (allocations a)[i]? = some x) :
    balance a i = x.amount.toNat := by
  unfold balance
  rw [h]
  rfl

theorem map_destination_iff {A B : List Allocation} (hlength : A.length = B.length) :
    B.map (·.destination) = A.map (·.destination) ↔
      ∀ (i : Nat) (x y : Allocation), A[i]? = some x → B[i]? = some y →
        y.destination = x.destination := by
  constructor
  · intro h i x y hx hy
    have hi := congrArg (fun l => l[i]?) h
    simp only [List.getElem?_map, hx, hy, Option.map_some, Option.some.injEq] at hi
    exact hi
  · intro h
    apply List.ext_getElem
    · rw [List.length_map, List.length_map, hlength]
    · intro i hB hA
      rw [List.length_map] at hA hB
      rw [List.getElem_map, List.getElem_map]
      exact h i _ _ (List.getElem?_eq_getElem hA) (List.getElem?_eq_getElem hB)

/-- **one transition** -/
theorem requireValidTransition_iff (ha : ValidOutcome simple n a) (hb : ValidOutcome simple n b) :
    requireValidTransition n a b = .ok () ↔ Pays n a b := by
  obtain ⟨exitA, hexitA, hA⟩ := index_allocations ha.oneAsset
  obtain ⟨exitB, hexitB, hB⟩ := index_allocations hb.oneAsset
  have hsame : (allocations a).length = (allocations b).length := ha.length.trans hb.length.symm
  have hloop (r : Word × Word) :
      transitionLoop n b.turnNum (allocations a) (allocations b) n 0 0 0 = .ok r ↔
        Kept n b.turnNum (allocations a) (allocations b) 0 ∧
          r = (((allocations a).map (·.amount)).sum, ((allocations b).map (·.amount)).sum) := by
    rw [transitionLoop_iff (by rw [ha.length, Nat.zero_add]) (by rw [hb.length, Nat.zero_add])]
    simp only [List.drop_zero, BitVec.ofNat_eq_ofNat, BitVec.zero_add]
  have hsums : (((allocations a).map (·.amount)).sum : Word) = ((allocations b).map (·.amount)).sum ↔
      total b % 2 ^ 256 = total a % 2 ^ 256 := by
    rw [← BitVec.toNat_inj, toNat_sum, toNat_sum]
    exact eq_comm
  have hkept : Kept n b.turnNum (allocations a) (allocations b) 0 ↔
      (allocations b).map (·.destination) = (allocations a).map (·.destination) ∧
        ∀ i < n, i ≠ b.turnNum.toNat % n → balance a i ≤ balance b i := by
    rw [map_destination_iff hsame]
    constructor
    · intro h
      refine ⟨fun i x y hx hy => (h i x y (Nat.zero_le i) hx hy).1, fun i hi hmover => ?_⟩
      have hx := List.getElem?_eq_getElem (show i < (allocations a).length by rw [ha.length]; exact hi)
      have hy := List.getElem?_eq_getElem (show i < (allocations b).length by rw [hb.length]; exact hi)
      rw [balance_of_getElem hx, balance_of_getElem hy]
      exact (h i _ _ (Nat.zero_le i) hx hy).2 hmover
    · rintro ⟨hdest, hothers⟩ j x y _ hx hy
      refine ⟨hdest j x y hx hy, fun hmover => ?_⟩
      have hj : j < n := by
        rw [← ha.length]
        exact (List.getElem?_eq_some_iff.1 hx).1
      have hle := hothers j hj hmover
      rwa [balance_of_getElem hx, balance_of_getElem hy] at hle
  unfold requireValidTransition
  rw [hexitA, hexitB]
  show (transitionLoop n b.turnNum exitA.allocations exitB.allocations n 0 0 0 >>= _) = _ ↔ _
  rw [hA, hB, bind_eq_ok]
  constructor
  · rintro ⟨r, hr, h⟩
    obtain ⟨hk, rfl⟩ := (hloop r).1 hr
    exact ⟨(hkept.1 hk).1, (hkept.1 hk).2, hsums.1 (require_eq_ok.1 h)⟩
  · rintro ⟨hdest, hothers, hsum⟩
    exact ⟨_, (hloop _).2 ⟨hkept.2 ⟨hdest, hothers⟩, rfl⟩, require_eq_ok.2 (hsums.2 hsum)⟩

/-- **an accepted support proof** -/
theorem latestSupportedState_iff {r : VariablePart} :
    latestSupportedState D simple fixedPart parts = .ok r ↔
      ShortcuttingTurnTaking.requireValidTurnTaking D fixedPart parts = .ok () ∧
      (∀ part ∈ parts, ValidOutcome simple fixedPart.participants.length part.variablePart) ∧
      (parts.IsChain fun a b =>
        Pays fixedPart.participants.length a.variablePart b.variablePart) ∧
      ∃ last, parts.getLast? = some last ∧ r = last.variablePart := by
  unfold latestSupportedState
  rw [bind_eq_ok]
  constructor
  · rintro ⟨⟨⟩, hturns, h⟩
    obtain ⟨⟨⟩, hjudge, h⟩ := bind_eq_ok.1 h
    obtain ⟨last, hlast, hend⟩ := bind_eq_ok.1 h
    cases hend
    obtain ⟨houtcome, hchain⟩ := judge_eq_ok.1 hjudge
    have hvalid := fun part hpart => requireValidOutcome_iff.1 (houtcome part hpart)
    refine ⟨hturns, hvalid, ?_, last, ?_, rfl⟩
    · exact List.IsChain.imp_of_mem_imp
        (fun a b ha hb h => (requireValidTransition_iff (hvalid a ha) (hvalid b hb)).1 h) hchain
    · rw [List.getLast?_eq_getElem?]
      exact index_eq_ok.1 hlast
  · rintro ⟨hturns, hvalid, hchain, last, hlast, rfl⟩
    refine ⟨(), hturns, bind_eq_ok.2 ⟨(), judge_eq_ok.2 ⟨?_, ?_⟩, bind_eq_ok.2 ⟨last, ?_, rfl⟩⟩⟩
    · exact fun part hpart => requireValidOutcome_iff.2 (hvalid part hpart)
    · exact List.IsChain.imp_of_mem_imp
        (fun a b ha hb h => (requireValidTransition_iff (hvalid a ha) (hvalid b hb)).2 h) hchain
    · rw [List.getLast?_eq_getElem?] at hlast
      exact index_eq_ok.2 hlast

end spec

/-! ## what a support proof shows -/

section proofs
variable {D : Deployment} {simple : UInt8} {fixedPart : FixedPart} {r : VariablePart}
  {parts l₁ l₂ mid : List SignedVariablePart} {a b first last : SignedVariablePart}

/-- **between any two states of a support proof** the destinations are the same, the totals agree up to
multiples of `2 ^ 256`, and no balance is lower of whom did not move -/
theorem payments_along
    (h : latestSupportedState D simple fixedPart (l₁ ++ a :: (mid ++ b :: l₂)) = .ok r) :
    (allocations b.variablePart).map (·.destination) =
        (allocations a.variablePart).map (·.destination) ∧
      total b.variablePart % 2 ^ 256 = total a.variablePart % 2 ^ 256 ∧
      ∀ p < fixedPart.participants.length,
        (∀ c ∈ mid ++ [b], c.variablePart.turnNum.toNat % fixedPart.participants.length ≠ p) →
        balance a.variablePart p ≤ balance b.variablePart p := by
  obtain ⟨-, -, hchain, -⟩ := latestSupportedState_iff.1 h
  have hsplit : l₁ ++ a :: (mid ++ b :: l₂) = l₁ ++ (a :: (mid ++ [b]) ++ l₂) := by simp
  rw [hsplit] at hchain
  have hbetween := hchain.right_of_append.left_of_append
  refine ⟨?_, ?_, fun p hp hothers => ?_⟩
  · exact chain_inv (R := fun a b => (allocations b.variablePart).map (·.destination) =
      (allocations a.variablePart).map (·.destination)) rfl
      (fun x y _ hx hpays => hpays.destination.trans hx) hbetween
  · exact chain_inv (R := fun a b => total b.variablePart % 2 ^ 256 =
      total a.variablePart % 2 ^ 256) rfl (fun x y _ hx hpays => hpays.sum.trans hx) hbetween
  · refine chain_inv (R := fun a b => balance a.variablePart p ≤ balance b.variablePart p)
      (Nat.le_refl _) (fun x y hy hx hpays => ?_) hbetween
    exact Nat.le_trans hx (hpays.others p hp (hothers y hy).symm)

/-- **whoever pays has signed** the state in which they pay or a later one, if the proof starts within
the last round -/
theorem payer_signed (h : latestSupportedState D simple fixedPart parts = .ok r)
    (hfirst : parts.head? = some first) (hlast : parts.getLast? = some last)
    (hround : last.variablePart.turnNum.toNat <
      first.variablePart.turnNum.toNat + fixedPart.participants.length)
    (hwrap : last.variablePart.turnNum.toNat + 1 < 2 ^ 48) (hparts : parts = l₁ ++ a :: b :: l₂)
    {p : Nat} (hp : p < fixedPart.participants.length)
    (hpaid : balance b.variablePart p < balance a.variablePart p) :
    ∃ part ∈ parts, ShortcuttingTurnTaking.ValidlySigned D fixedPart part p ∧
      b.variablePart.turnNum.toNat ≤ part.variablePart.turnNum.toNat := by
  obtain ⟨hturns, -, hchain, -⟩ := latestSupportedState_iff.1 h
  have hpays : Pays fixedPart.participants.length a.variablePart b.variablePart := by
    rw [hparts, List.isChain_append_cons_cons] at hchain
    exact hchain.2.1
  have hmover : p = b.variablePart.turnNum.toNat % fixedPart.participants.length := by
    by_contra hne
    have := hpays.others p hp hne
    omega
  -- the payer is the mover of a turn in the last round, so this is the turn they signed for
  have hmem : b ∈ parts := by
    rw [hparts]
    simp
  have haccepted := ShortcuttingTurnTaking.accepted_of_ok hturns hfirst hlast
  have hbetween := haccepted.turns b hmem
  have hturn : IsTurn fixedPart.participants.length last.variablePart.turnNum.toNat p
      b.variablePart.turnNum.toNat := ⟨by omega, hbetween.2, hmover.symm⟩
  obtain ⟨part, hpart, hsigned, t, ht, hle⟩ := haccepted.signedInTurn_of_inOrder hround
    (fun part hpart => haccepted.inOrder hround hwrap hpart) hp
  rw [isTurn_unique ht hturn] at hle
  exact ⟨part, hpart, hsigned, hle⟩

end proofs

/-! ## two states -/

section attacks
variable {D : Deployment} {simple : UInt8} {fixedPart : FixedPart} {p q : VariablePart}
  {sigP sigQ : Signature} {c : Bytes32} {i shift : Nat}

/-- the signature of participant `i` is good for the state -/
def SignedBy (D : Deployment) (fixedPart : FixedPart) (c : Bytes32) (p : VariablePart)
    (sig : Signature) (i : Nat) : Prop :=
  ∃ participant, fixedPart.participants[i]? = some participant ∧
    isSignedBy D (hashState D c p.appData p.outcome p.turnNum p.isFinal) sig participant = .ok true

/-- a state with the signature of participant `i` alone -/
def signedOnlyBy (p : VariablePart) (i : Nat) (sig : Signature) : SignedVariablePart :=
  ⟨p, [sig], BitVec.ofNat 256 (2 ^ i)⟩

/-- whose turn it is, with two participants -/
def mover (p : VariablePart) : Nat := p.turnNum.toNat % 2

def other (p : VariablePart) : Nat := (p.turnNum.toNat + 1) % 2

theorem claimedSigners_two : ∀ i < 2, getClaimedSignersNum (BitVec.ofNat 256 (2 ^ i)) = .ok 1 ∧
    getClaimedSignersIndices (BitVec.ofNat 256 (2 ^ i)) = .ok [UInt8.ofNat i] := by
  decide

theorem masks_two : ∀ i < 2, ((0 : Word) ||| BitVec.ofNat 256 (2 ^ i)) &&&
      BitVec.ofNat 256 (2 ^ ((i + 1) % 2)) = 0 ∧
    (0 : Word) ||| BitVec.ofNat 256 (2 ^ i) ||| BitVec.ofNat 256 (2 ^ ((i + 1) % 2)) =
      BitVec.ofNat 256 (2 ^ 2) - 1 := by
  decide

/-- with two participants it does not matter whether the subtraction of the shift wraps -/
theorem requireOrder_two {turnNum : BitVec 48} {signer : UInt8} :
    ShortcuttingTurnTaking.requireOrder turnNum (BitVec.ofNat 256 shift) (BitVec.ofNat 256 2)
        [signer] = .ok () ↔
      (signer.toNat + shift) % 2 ≤ (turnNum.toNat + shift) % 2 := by
  have hsigner : signer.toNat < 256 := signer.toNat_lt
  have hturn : turnNum.toNat < 2 ^ 48 := turnNum.isLt
  have hle : (BitVec.ofNat 256 signer.toNat + BitVec.ofNat 256 2 - BitVec.ofNat 256 shift) %
        BitVec.ofNat 256 2 ≤ (turnNum.setWidth 256 - BitVec.ofNat 256 shift) % BitVec.ofNat 256 2 ↔
      (signer.toNat + shift) % 2 ≤ (turnNum.toNat + shift) % 2 := by
    rw [BitVec.le_def]
    simp only [BitVec.toNat_umod, BitVec.toNat_sub, BitVec.toNat_add, BitVec.toNat_ofNat,
      BitVec.toNat_setWidth, Nat.reducePow, Nat.reduceMod]
    omega
  unfold ShortcuttingTurnTaking.requireOrder
  rw [checkedMod_of_ne (by decide), checkedMod_of_ne (by decide)]
  show (require _ _ >>= fun _ => .ok ()) = .ok () ↔ _
  rw [require_bind_eq_ok, hle]
  simp

theorem total_two (h : (allocations p).length = 2) : total p = balance p 0 + balance p 1 := by
  obtain ⟨x, y, hxy⟩ := List.length_eq_two.1 h
  unfold total balance
  rw [hxy]
  simp

structure TakesAll (simple : UInt8) (p q : VariablePart) : Prop where
  turn : q.turnNum.toNat = p.turnNum.toNat + 2
  before : ValidOutcome simple 2 p
  after : ValidOutcome simple 2 q
  destination : (allocations q).map (·.destination) = (allocations p).map (·.destination)
  everything : balance q (other p) = balance p 0 + balance p 1
  nothing : balance q (mover p) = 0

theorem TakesAll.pays (h : TakesAll simple p q) : Pays 2 p q := by
  have hturn := h.turn
  have heverything := h.everything
  have hnothing := h.nothing
  unfold other at heverything
  unfold mover at hnothing
  refine ⟨h.destination, fun i hi hmover => ?_, ?_⟩
  · have hi' : i = (p.turnNum.toNat + 1) % 2 := by omega
    have hbalance : balance p i ≤ balance p 0 + balance p 1 := by
      rcases Nat.lt_succ_iff_lt_or_eq.1 hi with h | rfl
      · rw [Nat.lt_one_iff.1 h]
        exact Nat.le_add_right _ _
      · exact Nat.le_add_left _ _
    rw [← hi'] at heverything
    rwa [heverything]
  · rw [total_two h.before.length, total_two h.after.length]
    rcases Nat.mod_two_eq_zero_or_one p.turnNum.toNat with hm | hm
    · rw [show (p.turnNum.toNat + 1) % 2 = 1 by omega] at heverything
      rw [hm] at hnothing
      rw [heverything, hnothing, Nat.zero_add]
    · rw [show (p.turnNum.toNat + 1) % 2 = 0 by omega] at heverything
      rw [hm] at hnothing
      rw [heverything, hnothing, Nat.add_zero]

structure Raises (simple : UInt8) (p q : VariablePart) : Prop where
  turn : q.turnNum.toNat = p.turnNum.toNat + 1
  before : ValidOutcome simple 2 p
  after : ValidOutcome simple 2 q
  destination : (allocations q).map (·.destination) = (allocations p).map (·.destination)
  raised : ∀ i < 2, balance q i = balance p i + 2 ^ 255

variable (hlength : fixedPart.participants.length = 2) (hid : getChannelId D fixedPart = .ok c)

include hlength hid

theorem requireValidSignatures_two {sig : Signature} (hi : i < 2)
    (hsigned : SignedBy D fixedPart c p sig i)
    (horder : (i + shift) % 2 ≤ (p.turnNum.toNat + shift) % 2) :
    ShortcuttingTurnTaking.requireValidSignatures D fixedPart (signedOnlyBy p i sig)
      (BitVec.ofNat 256 shift) = .ok () := by
  obtain ⟨hnum, hindices⟩ := claimedSigners_two i hi
  obtain ⟨participant, hparticipant, hsigned⟩ := hsigned
  have hsigner : (UInt8.ofNat i).toNat = i := UInt8.toNat_ofNat_of_lt' (show i < 256 by omega)
  refine require_bind_eq_ok.2 ⟨Nat.one_pos, bind_eq_ok.2 ⟨1, hnum, ?_⟩⟩
  refine require_bind_eq_ok.2 ⟨rfl, bind_eq_ok.2 ⟨(), ?_, bind_eq_ok.2 ⟨_, hindices, ?_⟩⟩⟩
  · refine bind_eq_ok.2 ⟨_, hindices, ?_⟩
    rw [hlength, requireOrder_two, hsigner]
    exact horder
  · refine ShortcuttingTurnTaking.requireSigners_iff.2 fun x hx => ?_
    obtain rfl : x = (UInt8.ofNat i, 0) := by simpa using hx
    refine ⟨c, sig, participant, hid, rfl, ?_, hsigned⟩
    rw [hsigner]
    exact hparticipant

variable (hp : SignedBy D fixedPart c p sigP (mover p)) (hq : SignedBy D fixedPart c q sigQ (other p))

include hp hq

/-- **a state signed by its mover, and one that the other participant signed for one of the next two
turns**, make a support proof -/
theorem turnTaking_two (hlt : p.turnNum.toNat < q.turnNum.toNat)
    (hle : q.turnNum.toNat ≤ p.turnNum.toNat + 2) :
    ShortcuttingTurnTaking.requireValidTurnTaking D fixedPart
      [signedOnlyBy p (mover p) sigP, signedOnlyBy q (other p) sigQ] = .ok () := by
  have hpturn := p.turnNum.isLt
  have hqturn := q.turnNum.isLt
  have hmover : mover p < 2 := Nat.mod_lt _ Nat.two_pos
  have hother : other p < 2 := Nat.mod_lt _ Nat.two_pos
  have hnext : (mover p + 1) % 2 = other p := by
    unfold mover other
    omega
  obtain ⟨hdisjoint, hall⟩ := masks_two (mover p) hmover
  rw [hnext] at hdisjoint hall
  -- `2` divides `2 ^ 48`, so the shift does not depend on a wrap of the turn number
  have hshift : checkedMod ((q.turnNum + 1).setWidth 256) (BitVec.ofNat 256 2) =
      .ok (BitVec.ofNat 256 ((q.turnNum.toNat + 1) % 2)) := by
    rw [checkedMod_of_ne (by decide)]
    congr 1
    apply BitVec.eq_of_toNat_eq
    have hone : (1 : BitVec 48).toNat = 1 := rfl
    simp only [BitVec.toNat_umod, BitVec.toNat_setWidth, BitVec.toNat_add, BitVec.toNat_ofNat, hone,
      Nat.reducePow, Nat.reduceMod]
    omega
  refine bind_eq_ok.2 ⟨signedOnlyBy q (other p) sigQ, rfl, bind_eq_ok.2 ⟨(), ?_, ?_⟩⟩
  · rw [hlength]
    refine require_bind_eq_ok.2 ⟨⟨Nat.le_refl 2, Nat.two_pos⟩, bind_eq_ok.2 ⟨_, rfl, ?_⟩⟩
    refine require_bind_eq_ok.2 ⟨?_, require_bind_eq_ok.2 ⟨by decide, bind_eq_ok.2 ⟨_, rfl, ?_⟩⟩⟩
    · show 2 ≤ (q.turnNum.setWidth 256 + 1#256).toNat
      bv_omega
    · refine require_bind_eq_ok.2 ⟨?_, bind_eq_ok.2 ⟨_, ?_, require_eq_ok.2 hall⟩⟩
      · show (q.turnNum.setWidth 256 - p.turnNum.setWidth 256).toNat ≤ 2
        bv_omega
      · have hfirst : (0 : Word) &&& BitVec.ofNat 256 (2 ^ mover p) = 0 := BitVec.zero_and
        exact require_bind_eq_ok.2 ⟨hfirst, require_bind_eq_ok.2 ⟨hdisjoint, rfl⟩⟩
  · rw [hlength]
    refine bind_eq_ok.2 ⟨_, hshift, bind_eq_ok.2 ⟨(), ?_, bind_eq_ok.2 ⟨(), rfl, ?_⟩⟩⟩
    · refine requireValidSignatures_two hlength hid hmover hp ?_
      unfold mover
      omega
    · refine bind_eq_ok.2 ⟨(), ?_, bind_eq_ok.2 ⟨(), require_eq_ok.2 hlt, rfl⟩⟩
      refine requireValidSignatures_two hlength hid hother hq ?_
      unfold other
      omega

theorem accepted_two (hlt : p.turnNum.toNat < q.turnNum.toNat)
    (hle : q.turnNum.toNat ≤ p.turnNum.toNat + 2) (hbefore : ValidOutcome simple 2 p)
    (hafter : ValidOutcome simple 2 q) (hpays : Pays 2 p q) :
    latestSupportedState D simple fixedPart
      [signedOnlyBy p (mover p) sigP, signedOnlyBy q (other p) sigQ] = .ok q := by
  refine latestSupportedState_iff.2 ⟨turnTaking_two hlength hid hp hq hlt hle, ?_, ?_,
    signedOnlyBy q (other p) sigQ, rfl, rfl⟩
  · rw [hlength]
    simp [signedOnlyBy, hbefore, hafter]
  · rw [hlength]
    simp [signedOnlyBy, hpays]

/-- **the mover pays without signing**: with a state that they signed for their turn, the other
participant alone registers a challenge for everything -/
theorem early_payment_challenged {env : Env} {w : World} {sig : Signature} {challenger : Address}
    (htake : TakesAll simple p q)
    (hchallenger : recoverSigner D (D.crypto.keccak256 (Abi.encode [.word (hashState D c q.appData
      q.outcome q.turnNum q.isFinal), .bytes (asciiBytes "forceMove")])) sig = .ok challenger)
    (hparticipant : fixedPart.participants[other p]? = some challenger)
    (happ : env.app fixedPart.appDefinition fixedPart = latestSupportedState D simple fixedPart)
    (hopen : ForceMove.requireChallengeable env w c q.turnNum = .ok ()) :
    ∃ w', ForceMove.challenge D env fixedPart
        [signedOnlyBy p (mover p) sigP, signedOnlyBy q (other p) sigQ] sig w = .ok w' ∧
      unpackStatus (w'.statusOf c) = ⟨q.turnNum, ForceMove.finalizesAt env fixedPart,
        generateFingerprint D (hashState D c q.appData q.outcome q.turnNum q.isFinal)
          (hashOutcome D q.outcome)⟩ := by
  have hturn := htake.turn
  have haccepted := accepted_two hlength hid hp hq (by omega) (by omega) htake.before htake.after
    htake.pays
  have hsupported : ForceMove.requireStateSupportedBy D env fixedPart
      [signedOnlyBy p (mover p) sigP, signedOnlyBy q (other p) sigQ] c =
        .ok (hashState D c q.appData q.outcome q.turnNum q.isFinal) := by
    refine bind_eq_ok.2 ⟨q, ?_, bind_eq_ok.2 ⟨(), ?_, rfl⟩⟩
    · rw [happ]
      exact haccepted
    · exact bind_eq_ok.2 ⟨q, rfl, require_eq_ok.2 (decide_eq_true rfl)⟩
  have hchecked : ForceMove.requireChallengerIsParticipant D
      (hashState D c q.appData q.outcome q.turnNum q.isFinal) fixedPart.participants sig = .ok () := by
    refine bind_eq_ok.2 ⟨challenger, hchallenger, require_eq_ok.2 ?_⟩
    simp only [ForceMove.isAddressInArray, List.any_eq_true, decide_eq_true_eq]
    exact ⟨challenger, List.mem_of_getElem? hparticipant, rfl⟩
  refine ⟨_, bind_eq_ok.2 ⟨c, hid, bind_eq_ok.2 ⟨q, rfl, bind_eq_ok.2 ⟨(), hopen, bind_eq_ok.2
    ⟨_, hsupported, bind_eq_ok.2 ⟨(), hchecked, rfl⟩⟩⟩⟩⟩, ?_⟩
  exact unpack_setStatus _

/-- **sums that wrap**: the next mover raises both balances, and the contract sees the same total -/
theorem raise_accepted (hraise : Raises simple p q) :
    latestSupportedState D simple fixedPart
        [signedOnlyBy p (mover p) sigP, signedOnlyBy q (other p) sigQ] = .ok q ∧
      total q = total p + 2 ^ 256 := by
  have hturn := hraise.turn
  have htotal : total q = total p + 2 ^ 256 := by
    rw [total_two hraise.before.length, total_two hraise.after.length,
      hraise.raised 0 (by decide), hraise.raised 1 (by decide)]
    omega
  have hpays : Pays 2 p q := by
    refine ⟨hraise.destination, fun i hi _ => ?_, ?_⟩
    · rw [hraise.raised i hi]
      exact Nat.le_add_right _ _
    · rw [htotal, Nat.add_mod_right]
  exact ⟨accepted_two hlength hid hp hq (by omega) (by omega) hraise.before hraise.after hpays, htotal⟩

/-- **the asset is not compared**: the next mover moves to the same allocations in any other asset -/
theorem asset_change_accepted {e : SingleAssetExit} {asset : Address} {metadata : Bytes}
    (hbefore : p.outcome = [e]) (hafter : q.outcome = [⟨asset, metadata, e.allocations⟩])
    (hvalid : ValidOutcome simple 2 p) (hturn : q.turnNum.toNat = p.turnNum.toNat + 1) :
    latestSupportedState D simple fixedPart
      [signedOnlyBy p (mover p) sigP, signedOnlyBy q (other p) sigQ] = .ok q := by
  have hall : allocations q = allocations p := by
    unfold allocations
    rw [hbefore, hafter]
  refine accepted_two hlength hid hp hq (by omega) (by omega) hvalid ?_ ?_
  · exact ⟨by rw [hafter]; rfl, by rw [hall]; exact hvalid.length, by rw [hall]; exact hvalid.types⟩
  · refine ⟨by rw [hall], fun i _ _ => ?_, ?_⟩
    · rw [balance, balance, hall]
    · rw [total, total, hall]

end attacks

end SingleAssetPayments

/-! ## payments between two participants -/

namespace Sample

/-- a state of the channel with the two balances -/
def paying (turnNum : BitVec 48) (x y : Word) : VariablePart :=
  ⟨[⟨0, [], [⟨1, x, 0, []⟩, ⟨2, y, 0, []⟩]⟩], [], turnNum, false⟩

def stateSig (p : VariablePart) (participant : Nat) : Signature :=
  sign (hashState deployment channelId p.appData p.outcome p.turnNum p.isFinal) participant

def byFirst (p : VariablePart) : SignedVariablePart := SingleAssetPayments.signedOnlyBy p 0 (stateSig p 1)

def bySecond (p : VariablePart) : SignedVariablePart := SingleAssetPayments.signedOnlyBy p 1 (stateSig p 2)

/-- the second participant adds `2 ^ 255` to both balances -/
def raised : VariablePart := paying 3 (5 + BitVec.ofNat 256 (2 ^ 255)) (5 + BitVec.ofNat 256 (2 ^ 255))

/-- the same balances in the asset 9 -/
def changed : VariablePart := { paying 4 5 5 with outcome := [⟨9, [], [⟨1, 5, 0, []⟩, ⟨2, 5, 0, []⟩]⟩] }

/-- a call on a channel for payments -/
def paymentEnv : Env :=
  { env 0 101 with app := fun _ => SingleAssetPayments.latestSupportedState deployment 0 }

/-- the first participant's signature on a challenge for everything -/
def takingSig : Signature :=
  let p := paying 5 10 0
  let h := hashState deployment channelId p.appData p.outcome p.turnNum p.isFinal
  sign (deployment.crypto.keccak256
    (Abi.encode [.word h, .bytes (asciiBytes "forceMove")])) 1

/-- the second participant pays 2 -/
def payment : List SignedVariablePart := [byFirst (paying 2 5 5), bySecond (paying 3 7 3)]

end Sample

namespace SingleAssetPayments
open Contracts.Sample

theorem payment_supported :
    latestSupportedState deployment 0 fixedPart payment = .ok (paying 3 7 3) := by decide +kernel

theorem payments_along_payment : total (paying 3 7 3) % 2 ^ 256 = total (paying 2 5 5) % 2 ^ 256 ∧
    balance (paying 2 5 5) 0 ≤ balance (paying 3 7 3) 0 := by
  have hsupported : latestSupportedState deployment 0 fixedPart
      ([] ++ byFirst (paying 2 5 5) :: ([] ++ bySecond (paying 3 7 3) :: [])) =
        .ok (paying 3 7 3) := payment_supported
  obtain ⟨-, htotal, hothers⟩ := payments_along hsupported
  refine ⟨htotal, hothers 0 (by decide) ?_⟩
  intro c hc
  rw [List.mem_singleton.1 hc]
  decide

theorem payer_signed_payment : balance (paying 3 7 3) 1 < balance (paying 2 5 5) 1 ∧
    ∃ part ∈ payment, ShortcuttingTurnTaking.ValidlySigned deployment fixedPart part 1 ∧
      3 ≤ part.variablePart.turnNum.toNat := by
  have hparts : payment = [] ++ byFirst (paying 2 5 5) :: bySecond (paying 3 7 3) :: [] := rfl
  exact ⟨by decide, payer_signed payment_supported rfl rfl (by decide) (by decide) hparts (by decide)
    (by decide)⟩

instance (simple : UInt8) (n : Nat) (p : VariablePart) : Decidable (ValidOutcome simple n p) :=
  decidable_of_iff (p.outcome.length = 1 ∧ (allocations p).length = n ∧
    ∀ a ∈ allocations p, a.allocationType = simple)
    ⟨fun h => ⟨h.1, h.2.1, h.2.2⟩, fun h => ⟨h.oneAsset, h.length, h.types⟩⟩

theorem hasId : getChannelId deployment fixedPart = .ok channelId := by decide +kernel

theorem signedBy_first : SignedBy deployment fixedPart channelId (paying 2 5 5) (stateSig (paying 2 5 5) 1) 0 ∧
    SignedBy deployment fixedPart channelId (paying 5 10 0) (stateSig (paying 5 10 0) 1) 0 ∧
    SignedBy deployment fixedPart channelId changed (stateSig changed 1) 0 :=
  ⟨⟨1, rfl, by decide +kernel⟩, ⟨1, rfl, by decide +kernel⟩, ⟨1, rfl, by decide +kernel⟩⟩

theorem signedBy_second : SignedBy deployment fixedPart channelId (paying 3 5 5) (stateSig (paying 3 5 5) 2) 1 ∧
    SignedBy deployment fixedPart channelId raised (stateSig raised 2) 1 :=
  ⟨⟨2, rfl, by decide +kernel⟩, ⟨2, rfl, by decide +kernel⟩⟩

theorem early_payment_challenged_five : ∃ w', ForceMove.challenge deployment paymentEnv fixedPart
      [bySecond (paying 3 5 5), byFirst (paying 5 10 0)] takingSig World.empty = .ok w' ∧
    (unpackStatus (w'.statusOf channelId)).turnNumRecord = 5 := by
  have htake : TakesAll 0 (paying 3 5 5) (paying 5 10 0) :=
    ⟨by decide, by decide, by decide, by decide, by decide, by decide⟩
  have hchallenger : recoverSigner deployment (deployment.crypto.keccak256 (Abi.encode
      [.word (hashState deployment channelId (paying 5 10 0).appData (paying 5 10 0).outcome
        (paying 5 10 0).turnNum (paying 5 10 0).isFinal), .bytes (asciiBytes "forceMove")]))
      takingSig = .ok 1 := by decide +kernel
  have hopen : ForceMove.requireChallengeable paymentEnv World.empty channelId
      (paying 5 10 0).turnNum = .ok () := by decide +kernel
  obtain ⟨w', hok, hstatus⟩ := early_payment_challenged rfl hasId signedBy_second.1 signedBy_first.2.1
    htake hchallenger rfl rfl hopen
  exact ⟨w', hok, by rw [hstatus]; rfl⟩

/-- the second participant moves -/
theorem raise_accepted_five : latestSupportedState deployment 0 fixedPart
      [byFirst (paying 2 5 5), bySecond raised] = .ok raised ∧
    total raised = total (paying 2 5 5) + 2 ^ 256 := by
  have hraise : Raises 0 (paying 2 5 5) raised := by
    refine ⟨by decide, by decide, by decide, by decide, ?_⟩
    decide +kernel
  exact raise_accepted rfl hasId signedBy_first.1 signedBy_second.2 hraise

/-- the first participant moves -/
theorem asset_change_accepted_nine : latestSupportedState deployment 0 fixedPart
    [bySecond (paying 3 5 5), byFirst changed] = .ok changed :=
  asset_change_accepted rfl hasId signedBy_second.1 signedBy_first.2.2 rfl rfl (by decide) (by decide)

end SingleAssetPayments

end Nitro.Contracts
