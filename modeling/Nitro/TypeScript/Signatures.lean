import Mathlib
import Nitro.Contracts.ClaimedSigners
import Nitro.Contracts.Support

/-!
# Support proofs in the TypeScript package

`bindSignatures` hands every participant's signature to the variable part that the participant signed,
and marks the participant in the mask of that part.  The mask is kept as a decimal text and updated with
`|`, which works on 32 bits: both operands lose their high bits, and the result has a sign.

* `Js.bitOr_lt`               **no result of `|` reaches `2^31`**;
* `Js.bitOr_natCast`          below `2^31` it is the or of the binary digits;
* `bindSignatures`            the loop over the signatures;
* `boundAt`                   what has been bound after some rounds (`bindLoop_eq`);
* `Faithful`                  what the contract needs: signatures and masks in agreement;
* `bindSignatures_faithful_iff`   **the result is faithful for at most 31 participants**.
-/

set_option linter.unusedSectionVars false

/-! ## integers in JavaScript -/

namespace Js

/-- `Number(s)`; `none` is `NaN` -/
def toNumber (s : String) : Option Int := s.toInt?

/-- the conversion of an operand; `NaN` becomes zero -/
def toInt32 (n : Option Int) : BitVec 32 := BitVec.ofInt 32 (n.getD 0)

/-- `a | b` -/
def bitOr (a b : Option Int) : Int := (toInt32 a ||| toInt32 b).toInt

theorem toNumber_repr (n : Int) : toNumber (Int.repr n) = some n := Int.toInt?_repr n

theorem bitOr_lt (a b : Option Int) : bitOr a b < 2 ^ 31 := by
  have h := BitVec.two_mul_toInt_lt (x := toInt32 a ||| toInt32 b)
  show (toInt32 a ||| toInt32 b).toInt < 2 ^ 31
  omega

theorem toNat_toInt32 {n : Nat} (h : n < 2 ^ 31) : (toInt32 (some (n : Int))).toNat = n := by
  show (BitVec.ofInt 32 (n : Int)).toNat = n
  rw [BitVec.ofInt_natCast, BitVec.toNat_ofNat]
  exact Nat.mod_eq_of_lt (by omega)

theorem bitOr_natCast {a b : Nat} (ha : a < 2 ^ 31) (hb : b < 2 ^ 31) :
    bitOr (some (a : Int)) (some (b : Int)) = ((a ||| b : Nat) : Int) := by
  have hor : a ||| b < 2 ^ 31 := Nat.or_lt_two_pow ha hb
  have hnat : (toInt32 (some (a : Int)) ||| toInt32 (some (b : Int))).toNat = a ||| b := by
    rw [BitVec.toNat_or, toNat_toInt32 ha, toNat_toInt32 hb]
  unfold bitOr
  rw [BitVec.toInt_eq_toNat_of_lt (by rw [hnat]; omega), hnat]

end Js

namespace Nitro.TypeScript
open Contracts (Word getClaimedSignersIndices)
open Js

/-- `SignedVariablePart`, for any kind of variable part and of signature -/
structure SignedVariablePart (α β : Type) where
  variablePart : α
  sigs : List β
  signedBy : String
  deriving DecidableEq

variable {α β : Type}

/-- the body of the loop: an index without a part is an access to `undefined` -/
def bindSignature (whoSignedWhat : List Nat) (i : Nat) (signature : β)
    (parts : List (SignedVariablePart α β)) : Except String (List (SignedVariablePart α β)) :=
  match whoSignedWhat[i]? with
  | none => .error "TypeError"
  | some j =>
    match parts[j]? with
    | none => .error "TypeError"
    | some part =>
      let updatedSignedBy := bitOr (toNumber part.signedBy) (some (2 ^ i))
      .ok (parts.set j
        ⟨part.variablePart, part.sigs ++ [signature], Int.repr updatedSignedBy⟩)

def bindLoop (whoSignedWhat : List Nat) : Nat → List β → List (SignedVariablePart α β) →
    Except String (List (SignedVariablePart α β))
  | _, [], parts => .ok parts
  | i, signature :: signatures, parts => do
    let parts ← bindSignature whoSignedWhat i signature parts
    bindLoop whoSignedWhat (i + 1) signatures parts

def bindSignatures (variableParts : List α) (signatures : List β) (whoSignedWhat : List Nat) :
    Except String (List (SignedVariablePart α β)) :=
  bindLoop whoSignedWhat 0 signatures (variableParts.map fun vp => ⟨vp, [], "0"⟩)

/-! ## what the loop computes -/

section loop
variable (variableParts : List α) (signatures : List β) (whoSignedWhat : List Nat)

/-- the participants below `i` that signed part `j` -/
def signersBelow (i j : Nat) : List Nat :=
  (List.range i).filter fun p => decide (whoSignedWhat[p]? = some j)

/-- the number behind the text of the mask of part `j` after `i` rounds -/
def signedByAt : Nat → Nat → Int
  | 0, _ => 0
  | i + 1, j =>
    if whoSignedWhat[i]? = some j then bitOr (some (signedByAt i j)) (some (2 ^ i))
    else signedByAt i j

def boundAt (i : Nat) : List (SignedVariablePart α β) :=
  variableParts.mapIdx fun j vp =>
    ⟨vp, (signersBelow whoSignedWhat i j).filterMap (signatures[·]?),
      Int.repr (signedByAt whoSignedWhat i j)⟩

theorem signersBelow_succ (i j : Nat) :
    signersBelow whoSignedWhat (i + 1) j = signersBelow whoSignedWhat i j ++
      if whoSignedWhat[i]? = some j then [i] else [] := by
  unfold signersBelow
  rw [List.range_succ, List.filter_append, List.filter_singleton]
  by_cases h : whoSignedWhat[i]? = some j
  · simp [h]
  · simp [h]

variable {variableParts signatures whoSignedWhat}

theorem boundAt_zero :
    boundAt variableParts signatures whoSignedWhat 0 = variableParts.map fun vp => ⟨vp, [], "0"⟩ := by
  unfold boundAt
  rw [List.mapIdx_eq_ofFn, ← List.ofFn_getElem_eq_map]
  rfl

/-- **one round** -/
theorem bindSignature_eq {i : Nat} {signature : β} (hsig : signatures[i]? = some signature)
    (hwho : ∀ j, whoSignedWhat[i]? = some j → j < variableParts.length)
    (hlen : i < whoSignedWhat.length) :
    bindSignature whoSignedWhat i signature (boundAt variableParts signatures whoSignedWhat i) =
      .ok (boundAt variableParts signatures whoSignedWhat (i + 1)) := by
  obtain ⟨j, hj⟩ : ∃ j, whoSignedWhat[i]? = some j := ⟨_, List.getElem?_eq_getElem hlen⟩
  obtain ⟨vp, hvp⟩ : ∃ vp, variableParts[j]? = some vp := ⟨_, List.getElem?_eq_getElem (hwho j hj)⟩
  have hpart : (boundAt variableParts signatures whoSignedWhat i)[j]? =
      some ⟨vp, (signersBelow whoSignedWhat i j).filterMap (signatures[·]?),
        Int.repr (signedByAt whoSignedWhat i j)⟩ := by
    unfold boundAt
    rw [List.getElem?_mapIdx, hvp]
    rfl
  unfold bindSignature
  rw [hj]
  simp only [hpart, toNumber_repr]
  congr 1
  apply List.ext_getElem?
  intro k
  rw [List.getElem?_set]
  unfold boundAt
  rw [List.getElem?_mapIdx, List.getElem?_mapIdx, List.length_mapIdx]
  by_cases hk : j = k
  · subst hk
    rw [if_pos rfl, if_pos (hwho j hj), hvp, signersBelow_succ, if_pos hj, signedByAt, if_pos hj]
    simp [hsig]
  · have hne : ¬ whoSignedWhat[i]? = some k := by
      rw [hj, Option.some_inj]
      exact hk
    rw [if_neg hk, signersBelow_succ, if_neg hne, signedByAt, if_neg hne, List.append_nil]

theorem bindLoop_eq {i : Nat} {rest : List β} (hrest : signatures.drop i = rest)
    (hlen : signatures.length = whoSignedWhat.length)
    (hwho : ∀ j ∈ whoSignedWhat, j < variableParts.length) (hi : i ≤ signatures.length) :
    bindLoop whoSignedWhat i rest (boundAt variableParts signatures whoSignedWhat i) =
      .ok (boundAt variableParts signatures whoSignedWhat signatures.length) := by
  induction rest generalizing i with
  | nil =>
    have hge := List.drop_eq_nil_iff.1 hrest
    obtain rfl : i = signatures.length := by omega
    rfl
  | cons signature rest ih =>
    have hlt : i < signatures.length := by
      by_contra hge
      rw [List.drop_eq_nil_of_le (by omega)] at hrest
      cases hrest
    rw [List.drop_eq_getElem_cons hlt] at hrest
    obtain ⟨hhead, htail⟩ := List.cons.inj hrest
    have hsig : signatures[i]? = some signature := by rw [List.getElem?_eq_getElem hlt, hhead]
    have hround : bindSignature whoSignedWhat i signature
        (boundAt variableParts signatures whoSignedWhat i) =
          .ok (boundAt variableParts signatures whoSignedWhat (i + 1)) :=
      bindSignature_eq hsig (fun j hj => hwho j (List.mem_of_getElem? hj)) (by omega)
    unfold bindLoop
    rw [hround]
    exact ih htail hlt

theorem bindSignatures_eq (hlen : signatures.length = whoSignedWhat.length)
    (hwho : ∀ j ∈ whoSignedWhat, j < variableParts.length) :
    bindSignatures variableParts signatures whoSignedWhat =
      .ok (boundAt variableParts signatures whoSignedWhat signatures.length) := by
  unfold bindSignatures
  have hzero : boundAt variableParts signatures whoSignedWhat 0 = _ := boundAt_zero
  rw [← hzero]
  exact bindLoop_eq rfl hlen hwho (Nat.zero_le _)

end loop

/-! ## the masks -/

section masks
variable {whoSignedWhat : List Nat}

theorem signedByAt_eq {i : Nat} (hi : i ≤ 31) (j : Nat) :
    ∃ mask : Nat, signedByAt whoSignedWhat i j = mask ∧ mask < 2 ^ i ∧
      ∀ p, mask.testBit p = (decide (p < i) && decide (whoSignedWhat[p]? = some j)) := by
  induction i with
  | zero => exact ⟨0, rfl, Nat.two_pow_pos 0, fun p => by simp⟩
  | succ i ih =>
    obtain ⟨mask, hmask, hlt, hbits⟩ := ih (by omega)
    have hpow : 2 ^ i < 2 ^ (i + 1) := Nat.pow_lt_pow_right (by omega) (by omega)
    have hsmall : 2 ^ i < 2 ^ 31 := Nat.pow_lt_pow_right (by omega) (by omega)
    unfold signedByAt
    by_cases hj : whoSignedWhat[i]? = some j
    · have hcast : ((2 : Int) ^ i) = ((2 ^ i : Nat) : Int) := by norm_cast
      refine ⟨mask ||| 2 ^ i, ?_, Nat.or_lt_two_pow (by omega) hpow, fun p => ?_⟩
      · rw [if_pos hj, hmask, hcast, bitOr_natCast (by omega) hsmall]
      · rw [Nat.testBit_or, hbits, Nat.testBit_two_pow]
        rcases Nat.lt_trichotomy p i with hp | rfl | hp
        · simp [hp, Nat.lt_succ_of_lt hp, Nat.ne_of_gt hp]
        · simp [hj]
        · simp [Nat.not_lt.2 (Nat.le_of_lt hp), Nat.not_lt.2 hp, Nat.ne_of_lt hp]
    · refine ⟨mask, by rw [if_neg hj, hmask], by omega, fun p => ?_⟩
      rw [hbits]
      rcases Nat.lt_trichotomy p i with hp | rfl | hp
      · simp [hp, Nat.lt_succ_of_lt hp]
      · simp [hj]
      · simp [Nat.not_lt.2 (Nat.le_of_lt hp), Nat.not_lt.2 hp]

/-- whatever the number of participants, no mask reaches the bit of the 32nd -/
theorem signedByAt_lt (i j : Nat) : signedByAt whoSignedWhat i j < 2 ^ 31 := by
  induction i with
  | zero =>
    show (0 : Int) < 2 ^ 31
    decide
  | succ i ih =>
    unfold signedByAt
    split
    · exact bitOr_lt _ _
    · exact ih

end masks

/-! ## faithful support proofs -/

/-- the `uint256` that is sent for the text of a mask; a negative number is refused -/
def maskOf (part : SignedVariablePart α β) : Option Word :=
  match toNumber part.signedBy with
  | some n => if 0 ≤ n ∧ n < 2 ^ 256 then some (BitVec.ofInt 256 n) else none
  | none => none

/-- part `j` has the signatures of its signers, in increasing order, and the contract reads the signers
from its mask in the same order -/
structure FaithfulPart (signatures : List β) (whoSignedWhat : List Nat) (j : Nat)
    (part : SignedVariablePart α β) (mask : Word) : Prop where
  sigs : part.sigs.map some =
    (signersBelow whoSignedWhat whoSignedWhat.length j).map (signatures[·]?)
  sent : maskOf part = some mask
  bits : ∀ p, mask.getLsbD p = true ↔ whoSignedWhat[p]? = some j
  signers : getClaimedSignersIndices mask =
    .ok ((signersBelow whoSignedWhat whoSignedWhat.length j).map UInt8.ofNat)

structure Faithful (variableParts : List α) (signatures : List β) (whoSignedWhat : List Nat)
    (bound : List (SignedVariablePart α β)) (masks : List Word) : Prop where
  parts : bound.map SignedVariablePart.variablePart = variableParts
  length : masks.length = bound.length
  faithful : ∀ j part mask, bound[j]? = some part → masks[j]? = some mask →
    FaithfulPart signatures whoSignedWhat j part mask
  disjoint : masks.Pairwise fun mask mask' => mask &&& mask' = 0
  union : masks.foldl (· ||| ·) 0 = BitVec.ofNat 256 (2 ^ signatures.length) - 1

theorem getLsbD_union (masks : List Word) (acc : Word) (p : Nat) :
    (masks.foldl (· ||| ·) acc).getLsbD p = true ↔
      acc.getLsbD p = true ∨ ∃ mask ∈ masks, mask.getLsbD p = true := by
  induction masks generalizing acc with
  | nil => simp
  | cons mask masks ih =>
    rw [List.foldl_cons, ih, BitVec.getLsbD_or, Bool.or_eq_true, or_assoc]
    simp

section faithful
variable {variableParts : List α} {signatures : List β} {whoSignedWhat : List Nat}

theorem boundAt_getElem? {i j : Nat} {part : SignedVariablePart α β}
    (h : (boundAt variableParts signatures whoSignedWhat i)[j]? = some part) :
    ∃ vp, variableParts[j]? = some vp ∧ part =
      ⟨vp, (signersBelow whoSignedWhat i j).filterMap (signatures[·]?),
        Int.repr (signedByAt whoSignedWhat i j)⟩ := by
  unfold boundAt at h
  rw [List.getElem?_mapIdx] at h
  obtain ⟨vp, hvp, hpart⟩ := Option.map_eq_some_iff.1 h
  exact ⟨vp, hvp, hpart.symm⟩

theorem maskOf_boundAt {vp : α} {sigs : List β} {m : Nat} (h : m < 2 ^ 256) :
    maskOf (⟨vp, sigs, Int.repr m⟩ : SignedVariablePart α β) = some (BitVec.ofNat 256 m) := by
  unfold maskOf
  rw [toNumber_repr]
  dsimp only
  rw [if_pos ⟨Int.natCast_nonneg m, by exact_mod_cast h⟩, BitVec.ofInt_natCast]

theorem filterMap_signers (hlen : whoSignedWhat.length = signatures.length) (j : Nat) :
    ((signersBelow whoSignedWhat whoSignedWhat.length j).filterMap (signatures[·]?)).map some =
      (signersBelow whoSignedWhat whoSignedWhat.length j).map (signatures[·]?) := by
  have hall : ∀ p ∈ signersBelow whoSignedWhat whoSignedWhat.length j, p < signatures.length := by
    intro p hp
    rw [← hlen]
    exact List.mem_range.1 (List.mem_filter.1 hp).1
  generalize signersBelow whoSignedWhat whoSignedWhat.length j = signers at hall
  induction signers with
  | nil => rfl
  | cons p signers ih =>
    have hp := hall p List.mem_cons_self
    rw [List.filterMap_cons_some (List.getElem?_eq_getElem hp), List.map_cons, List.map_cons,
      ih fun q hq => hall q (List.mem_cons_of_mem p hq), List.getElem?_eq_getElem hp]

/-- the mask of part `j`, as a number -/
def maskNat (whoSignedWhat : List Nat) (j : Nat) : Nat :=
  (signedByAt whoSignedWhat whoSignedWhat.length j).toNat

theorem maskNat_eq (hn : whoSignedWhat.length ≤ 31) (j : Nat) :
    signedByAt whoSignedWhat whoSignedWhat.length j = maskNat whoSignedWhat j ∧
      maskNat whoSignedWhat j < 2 ^ 31 ∧
      ∀ p, (maskNat whoSignedWhat j).testBit p =
        (decide (p < whoSignedWhat.length) && decide (whoSignedWhat[p]? = some j)) := by
  obtain ⟨mask, hmask, hlt, hbits⟩ := signedByAt_eq hn j
  have hnat : maskNat whoSignedWhat j = mask := by
    unfold maskNat
    rw [hmask]
    rfl
  rw [hnat]
  exact ⟨hmask, Nat.lt_of_lt_of_le hlt (Nat.pow_le_pow_right (by omega) hn), hbits⟩

theorem toNat_maskNat (hn : whoSignedWhat.length ≤ 31) (j : Nat) :
    (BitVec.ofNat 256 (maskNat whoSignedWhat j)).toNat = maskNat whoSignedWhat j := by
  have hlt := (maskNat_eq hn j).2.1
  rw [BitVec.toNat_ofNat]
  exact Nat.mod_eq_of_lt (by omega)

theorem getLsbD_maskNat (hn : whoSignedWhat.length ≤ 31) (j p : Nat) :
    (BitVec.ofNat 256 (maskNat whoSignedWhat j)).getLsbD p = true ↔ whoSignedWhat[p]? = some j := by
  rw [← BitVec.testBit_toNat, toNat_maskNat hn, (maskNat_eq hn j).2.2, Bool.and_eq_true,
    decide_eq_true_iff, decide_eq_true_iff]
  refine and_iff_right_of_imp fun h => ?_
  by_contra hge
  rw [List.getElem?_eq_none (Nat.not_lt.1 hge)] at h
  cases h

theorem faithfulPart_maskNat (hlen : whoSignedWhat.length = signatures.length)
    (hn : whoSignedWhat.length ≤ 31) {j : Nat} {part : SignedVariablePart α β}
    (hpart : (boundAt variableParts signatures whoSignedWhat signatures.length)[j]? = some part) :
    FaithfulPart signatures whoSignedWhat j part (BitVec.ofNat 256 (maskNat whoSignedWhat j)) := by
  obtain ⟨vp, -, rfl⟩ := boundAt_getElem? hpart
  obtain ⟨hmask, hlt, hbits⟩ := maskNat_eq hn j
  rw [← hlen]
  refine ⟨filterMap_signers hlen j, ?_, getLsbD_maskNat hn j, ?_⟩
  · rw [hmask]
    exact maskOf_boundAt (by omega)
  · rw [Contracts.getClaimedSignersIndices_eq (by rw [toNat_maskNat hn]; omega), toNat_maskNat hn,
      Bits.ones_eq_filter (by omega) hbits]
    rfl

theorem faithful_of_le (hlen : whoSignedWhat.length = signatures.length)
    (hwho : ∀ j ∈ whoSignedWhat, j < variableParts.length) (hn : whoSignedWhat.length ≤ 31) :
    Faithful variableParts signatures whoSignedWhat
      (boundAt variableParts signatures whoSignedWhat signatures.length)
      ((List.range variableParts.length).map fun j =>
        BitVec.ofNat 256 (maskNat whoSignedWhat j)) where
  parts := by
    apply List.ext_getElem?
    intro j
    unfold boundAt
    rw [List.getElem?_map, List.getElem?_mapIdx, Option.map_map]
    show variableParts[j]?.map id = _
    rw [Option.map_id_apply]
  length := by
    unfold boundAt
    rw [List.length_map, List.length_range, List.length_mapIdx]
  faithful := by
    intro j part mask hpart hmask
    rw [List.getElem?_map, Option.map_eq_some_iff] at hmask
    obtain ⟨k, hk, rfl⟩ := hmask
    obtain ⟨hj, hget⟩ := List.getElem?_eq_some_iff.1 hk
    rw [List.getElem_range] at hget
    subst hget
    exact faithfulPart_maskNat hlen hn hpart
  disjoint := by
    refine List.pairwise_map.2 (List.nodup_range.imp fun {j k} hjk => ?_)
    apply BitVec.eq_of_getLsbD_eq
    intro p hp
    rw [BitVec.getLsbD_and]
    by_contra hset
    have hboth : (BitVec.ofNat 256 (maskNat whoSignedWhat j)).getLsbD p = true ∧
        (BitVec.ofNat 256 (maskNat whoSignedWhat k)).getLsbD p = true := by
      simpa using hset
    have hj := (getLsbD_maskNat hn j p).1 hboth.1
    have hk := (getLsbD_maskNat hn k p).1 hboth.2
    exact hjk (Option.some.inj (hj.symm.trans hk))
  union := by
    apply BitVec.eq_of_getLsbD_eq
    intro p hp
    rw [Bool.eq_iff_iff, getLsbD_union, ← hlen,
      Contracts.ShortcuttingTurnTaking.getLsbD_full (by omega)]
    constructor
    · intro h
      rcases h with h | ⟨mask, hmem, hset⟩
      · simp at h
      · obtain ⟨j, -, rfl⟩ := List.mem_map.1 hmem
        have hj := (getLsbD_maskNat hn j p).1 hset
        by_contra hge
        rw [List.getElem?_eq_none (Nat.not_lt.1 hge)] at hj
        cases hj
    · intro hp
      obtain ⟨j, hj⟩ : ∃ j, whoSignedWhat[p]? = some j := ⟨_, List.getElem?_eq_getElem hp⟩
      exact .inr ⟨_, List.mem_map.2 ⟨j, List.mem_range.2 (hwho j (List.mem_of_getElem? hj)), rfl⟩,
        (getLsbD_maskNat hn j p).2 hj⟩

/-- the bit of the 32nd participant is in no mask that can be sent -/
theorem not_faithful {bound : List (SignedVariablePart α β)} {masks : List Word}
    (hwho : ∀ j ∈ whoSignedWhat, j < variableParts.length) (hn : 31 < whoSignedWhat.length)
    (hbound : boundAt variableParts signatures whoSignedWhat signatures.length = bound)
    (h : Faithful variableParts signatures whoSignedWhat bound masks) : False := by
  obtain ⟨j, hj⟩ : ∃ j, whoSignedWhat[31]? = some j := ⟨_, List.getElem?_eq_getElem hn⟩
  have hlt := hwho j (List.mem_of_getElem? hj)
  have hparts : j < bound.length := by
    rw [← hbound, boundAt, List.length_mapIdx]
    exact hlt
  have hmasks : j < masks.length := by
    rw [h.length]
    exact hparts
  have hf := h.faithful j bound[j] masks[j] (List.getElem?_eq_getElem hparts)
    (List.getElem?_eq_getElem hmasks)
  have hpart : (boundAt variableParts signatures whoSignedWhat signatures.length)[j]? =
      some bound[j] := by
    rw [hbound]
    exact List.getElem?_eq_getElem hparts
  obtain ⟨vp, -, hpart⟩ := boundAt_getElem? hpart
  have hsent := hf.sent
  have hset := (hf.bits 31).2 hj
  have hsmall : signedByAt whoSignedWhat signatures.length j < _ := signedByAt_lt signatures.length j
  rw [hpart, maskOf, toNumber_repr] at hsent
  dsimp only at hsent
  split at hsent
  · next hrange =>
    obtain ⟨m, hm⟩ := Int.eq_ofNat_of_zero_le hrange.1
    rw [hm] at hsent hsmall
    rw [← Option.some.inj hsent, BitVec.ofInt_natCast, ← BitVec.testBit_toNat, BitVec.toNat_ofNat,
      Nat.mod_eq_of_lt (by omega), Nat.testBit_lt_two_pow (by omega)] at hset
    cases hset
  · cases hsent

/-- **support proofs are assembled faithfully exactly up to 31 participants** -/
theorem bindSignatures_faithful_iff (hlen : whoSignedWhat.length = signatures.length)
    (hwho : ∀ j ∈ whoSignedWhat, j < variableParts.length) :
    (∃ bound masks, bindSignatures variableParts signatures whoSignedWhat = .ok bound ∧
      Faithful variableParts signatures whoSignedWhat bound masks) ↔ signatures.length ≤ 31 := by
  have hbind : bindSignatures variableParts signatures whoSignedWhat = .ok _ :=
    bindSignatures_eq hlen.symm hwho
  constructor
  · intro ⟨bound, masks, hb, hf⟩
    by_contra hn
    exact not_faithful hwho (by omega) (Except.ok.inj (hbind.symm.trans hb)) hf
  · intro hn
    exact ⟨_, _, hbind, faithful_of_le hlen hwho (by omega)⟩

end faithful

/-- the first participant signed the second part, and the other two the first one -/
theorem bindSignatures_faithful_three :
    bindSignatures ["a", "b"] [10, 20, 30] [1, 0, 0] =
      .ok [⟨"a", [20, 30], "6"⟩, ⟨"b", [10], "1"⟩] ∧
    ∃ bound masks, bindSignatures ["a", "b"] [10, 20, 30] [1, 0, 0] = .ok bound ∧
      Faithful ["a", "b"] [10, 20, 30] [1, 0, 0] bound masks := by
  have hlen : [1, 0, 0].length = [10, 20, 30].length := rfl
  have hwho : ∀ j ∈ [1, 0, 0], j < ["a", "b"].length := by decide
  refine ⟨?_, (bindSignatures_faithful_iff hlen hwho).2 (by decide)⟩
  rw [bindSignatures_eq hlen.symm hwho]
  decide +kernel

/-- the 32nd participant turns the mask of the only part into a negative number -/
theorem bindSignatures_of_32 :
    ∃ part, bindSignatures [()] (List.replicate 32 ()) (List.replicate 32 0) = .ok [part] ∧
      part.signedBy = "-1" ∧ maskOf part = none := by
  refine ⟨⟨(), List.replicate 32 (), Int.repr (-1)⟩, ?_, rfl, ?_⟩
  · have hlen : (List.replicate 32 ()).length = (List.replicate 32 0).length := rfl
    have hwho : ∀ j ∈ List.replicate 32 0, j < [()].length := by decide
    rw [bindSignatures_eq hlen hwho]
    decide +kernel
  · unfold maskOf
    rw [toNumber_repr]
    rfl

end Nitro.TypeScript
