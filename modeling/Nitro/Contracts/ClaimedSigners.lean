import Nitro.Contracts.NitroUtils
import Nitro.Lib.Bits

/-!
# The helpers for masks of signers

`getClaimedSignersNum` clears the lowest bit until nothing is left, `getClaimedSignersIndices` shifts the
mask out.  Their counters are `uint8`s, which wrap in this version of Solidity.  `Checked` has the same
loops with counters that stop instead, so that a result of `Checked` is a run without wrapping.

* `Checked.num_ok`, `Checked.indices_ok`    a checked result is the result;
* `Checked.num_eq`, `Checked.indices_eq`    the loop invariants, up to the set bits that are left;
* `claimedSigners_exact`                    **the helpers are exact** below `2^255`.
-/

set_option linter.unusedSectionVars false

namespace Nitro.Contracts
open Evm Bits

/-! ## checked counters -/

namespace Checked

/-- `n++` that stops at the largest `uint8` -/
def incr (n : UInt8) : Except String UInt8 := if n = 255 then .error "overflow" else .ok (n + 1)

theorem incr_eq_ok {n m : UInt8} : incr n = .ok m ↔ n ≠ 255 ∧ m = n + 1 := by
  unfold incr
  by_cases h : n = 255
  · simp [h]
  · simp [h, eq_comm]

theorem incr_ofNat {k : Nat} (h : k < 255) : incr (UInt8.ofNat k) = .ok (UInt8.ofNat (k + 1)) := by
  refine incr_eq_ok.2 ⟨fun hk => ?_, by simp⟩
  have hnat := congrArg UInt8.toNat hk
  rw [UInt8.toNat_ofNat_of_lt' (show k < 256 by omega)] at hnat
  have hnat : k = 255 := hnat
  omega

def claimedSignersNum : Nat → Word → UInt8 → Except String UInt8
  | 0, _, _ => .error "out of gas"
  | rounds + 1, signedBy, amount =>
    if signedBy = 0 then .ok amount
    else do
      let amount ← incr amount
      claimedSignersNum rounds (signedBy &&& (signedBy - 1)) amount

/-- `acceptedSigners` counts the entries that are written -/
def claimedSignersIndices (size : UInt8) : Nat → Word → UInt8 → UInt8 → List UInt8 →
    Except String (List UInt8)
  | 0, _, _, _, _ => .error "out of gas"
  | rounds + 1, signedBy, signerNum, acceptedSigners, accepted =>
    if signedBy = 0 then
      .ok (accepted ++ List.replicate (size.toNat - accepted.length) 0)
    else if signedBy % 2 = 1 then
      if acceptedSigners < size then do
        let acceptedSigners ← incr acceptedSigners
        let next ← incr signerNum
        claimedSignersIndices size rounds (signedBy >>> 1) next acceptedSigners
          (accepted ++ [signerNum])
      else .error "invalid opcode"
    else do
      let next ← incr signerNum
      claimedSignersIndices size rounds (signedBy >>> 1) next acceptedSigners accepted

def getClaimedSignersNum (signedBy : Word) : Except String UInt8 :=
  claimedSignersNum 257 signedBy 0

def getClaimedSignersIndices (signedBy : Word) : Except String (List UInt8) := do
  let size ← getClaimedSignersNum signedBy
  claimedSignersIndices size 257 signedBy 0 0 []

/-! ## a checked result is the result -/

theorem num_ok {rounds : Nat} {signedBy : Word} {amount r : UInt8}
    (h : claimedSignersNum rounds signedBy amount = .ok r) :
    Contracts.claimedSignersNum rounds signedBy amount = .ok r := by
  induction rounds generalizing signedBy amount with
  | zero => cases h
  | succ rounds ih =>
    unfold claimedSignersNum at h
    unfold Contracts.claimedSignersNum
    split
    · next hz =>
      rw [if_pos hz] at h
      exact h
    · next hz =>
      rw [if_neg hz] at h
      obtain ⟨next, hnext, h⟩ := bind_eq_ok.1 h
      obtain ⟨-, rfl⟩ := incr_eq_ok.1 hnext
      exact ih h

theorem indices_ok {size : UInt8} {rounds : Nat} {signedBy : Word}
    {signerNum acceptedSigners : UInt8} {accepted r : List UInt8}
    (hcount : acceptedSigners.toNat = accepted.length)
    (h : claimedSignersIndices size rounds signedBy signerNum acceptedSigners accepted = .ok r) :
    Contracts.claimedSignersIndices size rounds signedBy signerNum accepted = .ok r := by
  induction rounds generalizing signedBy signerNum acceptedSigners accepted with
  | zero => cases h
  | succ rounds ih =>
    unfold claimedSignersIndices at h
    unfold Contracts.claimedSignersIndices
    split
    · next hz =>
      rw [if_pos hz] at h
      exact h
    · next hz =>
      rw [if_neg hz] at h
      split
      · next hodd =>
        rw [if_pos hodd] at h
        have hiff : acceptedSigners < size ↔ accepted.length < size.toNat := by
          rw [UInt8.lt_iff_toNat_lt, hcount]
        split
        · next hroom =>
          rw [if_pos (hiff.2 hroom)] at h
          obtain ⟨more, hmore, h⟩ := bind_eq_ok.1 h
          obtain ⟨next, hnext, h⟩ := bind_eq_ok.1 h
          obtain ⟨-, rfl⟩ := incr_eq_ok.1 hmore
          obtain ⟨-, rfl⟩ := incr_eq_ok.1 hnext
          refine ih ?_ h
          have hsize := size.toNat_lt
          rw [UInt8.toNat_add, hcount, List.length_append]
          show (accepted.length + 1) % 256 = accepted.length + 1
          exact Nat.mod_eq_of_lt (by omega)
        · next hroom =>
          rw [if_neg fun hlt => hroom (hiff.1 hlt)] at h
          cases h
      · next hodd =>
        rw [if_neg hodd] at h
        obtain ⟨next, hnext, h⟩ := bind_eq_ok.1 h
        obtain ⟨-, rfl⟩ := incr_eq_ok.1 hnext
        exact ih hcount h

/-! ## the loop invariants -/

theorem ne_zero_iff {signedBy : Word} : signedBy ≠ 0 ↔ 0 < signedBy.toNat := by
  rw [Nat.pos_iff_ne_zero, ne_eq, ne_eq, ← BitVec.toNat_inj]
  rfl

theorem toNat_clear {signedBy : Word} (h : signedBy ≠ 0) :
    (signedBy &&& (signedBy - 1)).toNat = signedBy.toNat &&& (signedBy.toNat - 1) := by
  have hle : (1 : Word) ≤ signedBy := by
    rw [BitVec.le_def]
    exact ne_zero_iff.1 h
  rw [BitVec.toNat_and, BitVec.toNat_sub_of_le hle]
  rfl

theorem odd_iff {signedBy : Word} : signedBy % 2 = 1 ↔ signedBy.toNat % 2 = 1 := by
  rw [← BitVec.toNat_inj, BitVec.toNat_umod]
  rfl

theorem toNat_half (signedBy : Word) : (signedBy >>> 1).toNat = signedBy.toNat / 2 := by
  rw [BitVec.toNat_ushiftRight, Nat.shiftRight_eq_div_pow]

/-- the counter and the bits that are left add up to the number of bits -/
theorem num_eq {rounds k : Nat} {signedBy : Word}
    (hrounds : (ones 256 signedBy.toNat).length < rounds)
    (hk : k + (ones 256 signedBy.toNat).length ≤ 255) :
    claimedSignersNum rounds signedBy (UInt8.ofNat k) =
      .ok (UInt8.ofNat (k + (ones 256 signedBy.toNat).length)) := by
  induction rounds generalizing k signedBy with
  | zero => omega
  | succ rounds ih =>
    unfold claimedSignersNum
    by_cases hz : signedBy = 0
    · rw [if_pos hz, hz]
      show _ = Except.ok (UInt8.ofNat (k + (ones 256 0).length))
      rw [ones_zero]
      rfl
    · have hclear := length_ones_clear (ne_zero_iff.1 hz) signedBy.isLt
      rw [← toNat_clear hz] at hclear
      rw [if_neg hz, incr_ofNat (by omega)]
      show claimedSignersNum rounds _ _ = _
      rw [ih (by omega) (by omega), ← hclear]
      congr 2
      omega

/-- `j` positions have been shifted out, `m` bits are left at most, and the array has room for the set
ones -/
theorem indices_eq {size : UInt8} {rounds m j : Nat} {signedBy : Word} {accepted : List UInt8}
    (hlt : signedBy.toNat < 2 ^ m) (hrounds : m < rounds) (hj : j + m ≤ 255)
    (hsize : size.toNat = accepted.length + (ones m signedBy.toNat).length) :
    claimedSignersIndices size rounds signedBy (UInt8.ofNat j) (UInt8.ofNat accepted.length)
        accepted =
      .ok (accepted ++ (ones m signedBy.toNat).map fun p => UInt8.ofNat (p + j)) := by
  induction rounds generalizing m j signedBy accepted with
  | zero => omega
  | succ rounds ih =>
    have hsmall := size.toNat_lt
    unfold claimedSignersIndices
    by_cases hz : signedBy = 0
    · have hnone : ones m signedBy.toNat = [] := by
        rw [hz]
        exact ones_zero m
      rw [hnone, List.length_nil, Nat.add_zero] at hsize
      rw [if_pos hz, hnone, hsize, Nat.sub_self]
      rfl
    · rw [if_neg hz]
      obtain ⟨m, rfl⟩ : ∃ m', m = m' + 1 := by
        refine Nat.exists_eq_succ_of_ne_zero fun hm => hz ?_
        rw [hm, Nat.pow_zero] at hlt
        by_contra hne
        have hpos := ne_zero_iff.1 hne
        omega
      have hhalf : (signedBy >>> 1).toNat < 2 ^ m := by
        rw [toNat_half]
        rw [Nat.pow_succ] at hlt
        omega
      have hshift : (fun p => UInt8.ofNat (p + j)) ∘ (· + 1) = fun p => UInt8.ofNat (p + (j + 1)) := by
        funext p
        show UInt8.ofNat (p + 1 + j) = UInt8.ofNat (p + (j + 1))
        rw [Nat.add_right_comm, Nat.add_assoc]
      rw [ones_succ] at hsize
      rw [ones_succ, ← toNat_half, List.map_append, List.map_map, hshift]
      by_cases hodd : signedBy % 2 = 1
      · have hset := odd_iff.1 hodd
        rw [if_pos hset, ← toNat_half, List.length_append, List.length_map, List.length_singleton]
          at hsize
        have hroom : UInt8.ofNat accepted.length < size := by
          rw [UInt8.lt_iff_toNat_lt, UInt8.toNat_ofNat_of_lt' (show accepted.length < 256 by omega)]
          omega
        have hlen : accepted.length + 1 = (accepted ++ [UInt8.ofNat j]).length := by
          rw [List.length_append, List.length_singleton]
        rw [if_pos hodd, if_pos hroom, incr_ofNat (by omega), incr_ofNat (by omega), if_pos hset,
          hlen]
        show claimedSignersIndices size rounds _ _ _ _ = _
        rw [ih hhalf (by omega) (by omega) (by rw [← hlen]; omega), List.append_assoc]
        simp
      · have hunset : ¬ signedBy.toNat % 2 = 1 := fun h => hodd (odd_iff.2 h)
        rw [if_neg hunset, ← toNat_half, List.length_append, List.length_map, List.length_nil]
          at hsize
        rw [if_neg hodd, incr_ofNat (by omega), if_neg hunset]
        show claimedSignersIndices size rounds _ _ _ _ = _
        rw [ih hhalf (by omega) (by omega) (by omega)]
        simp

/-! ## the two helpers -/

theorem ones_word {signedBy : Word} (h : signedBy.toNat < 2 ^ 255) :
    ones 256 signedBy.toNat = ones 255 signedBy.toNat := by
  unfold ones
  rw [List.range_succ, List.filter_append, List.filter_singleton, Nat.testBit_lt_two_pow h]
  simp

theorem getNum_eq {signedBy : Word} (h : signedBy.toNat < 2 ^ 255) :
    getClaimedSignersNum signedBy = .ok (UInt8.ofNat (ones 255 signedBy.toNat).length) := by
  have hlen := length_ones_le 255 signedBy.toNat
  have hnum : claimedSignersNum 257 signedBy (UInt8.ofNat 0) =
      .ok (UInt8.ofNat (0 + (ones 256 signedBy.toNat).length)) :=
    num_eq (by rw [ones_word h]; omega) (by rw [ones_word h]; omega)
  rw [Nat.zero_add, ones_word h] at hnum
  exact hnum

theorem getIndices_eq {signedBy : Word} (h : signedBy.toNat < 2 ^ 255) :
    getClaimedSignersIndices signedBy = .ok ((ones 255 signedBy.toNat).map UInt8.ofNat) := by
  have hlen := length_ones_le 255 signedBy.toNat
  have hsize : (UInt8.ofNat (ones 255 signedBy.toNat).length).toNat =
      ([] : List UInt8).length + (ones 255 signedBy.toNat).length := by
    rw [UInt8.toNat_ofNat_of_lt' (show (ones 255 signedBy.toNat).length < 256 by omega)]
    simp
  have hind : claimedSignersIndices (UInt8.ofNat (ones 255 signedBy.toNat).length) 257 signedBy
      (UInt8.ofNat 0) (UInt8.ofNat ([] : List UInt8).length) [] =
        .ok ([] ++ (ones 255 signedBy.toNat).map fun p => UInt8.ofNat (p + 0)) :=
    indices_eq h (by omega) (by omega) hsize
  unfold getClaimedSignersIndices
  rw [getNum_eq h]
  exact hind

end Checked

theorem getClaimedSignersNum_eq {signedBy : Word} (h : signedBy.toNat < 2 ^ 255) :
    getClaimedSignersNum signedBy = .ok (UInt8.ofNat (ones 255 signedBy.toNat).length) :=
  Checked.num_ok (Checked.getNum_eq h)

theorem getClaimedSignersIndices_eq {signedBy : Word} (h : signedBy.toNat < 2 ^ 255) :
    getClaimedSignersIndices signedBy = .ok ((ones 255 signedBy.toNat).map UInt8.ofNat) := by
  obtain ⟨size, hsize, hind⟩ := bind_eq_ok.1 (Checked.getIndices_eq h)
  exact bind_eq_ok.2 ⟨size, Checked.num_ok hsize, Checked.indices_ok rfl hind⟩

theorem isClaimedSignedBy_iff {signedBy : Word} {p : UInt8} :
    isClaimedSignedBy signedBy p = true ↔ signedBy.toNat.testBit p.toNat = true := by
  unfold isClaimedSignedBy
  rw [decide_eq_true_iff, Checked.odd_iff, BitVec.toNat_ushiftRight, Nat.testBit_eq_decide_div_mod_eq,
    Nat.shiftRight_eq_div_pow, decide_eq_true_iff]

/-- **the helpers return, count and list the set bits, and their counters do not wrap** -/
theorem claimedSigners_exact {signedBy : Word} (h : signedBy.toNat < 2 ^ 255) :
    (∃ amount, getClaimedSignersNum signedBy = .ok amount ∧
      Checked.getClaimedSignersNum signedBy = .ok amount ∧
      amount.toNat = (List.range 256).countP fun p => signedBy.getLsbD p) ∧
    ∃ signers, getClaimedSignersIndices signedBy = .ok signers ∧
      Checked.getClaimedSignersIndices signedBy = .ok signers ∧
      signers.Pairwise (· < ·) ∧ ∀ p, p ∈ signers ↔ isClaimedSignedBy signedBy p = true := by
  have hlen := length_ones_le 255 signedBy.toNat
  have hnat : ∀ p ∈ ones 255 signedBy.toNat, (UInt8.ofNat p).toNat = p := by
    intro p hp
    have hlt := (mem_ones.1 hp).1
    exact UInt8.toNat_ofNat_of_lt' (show p < 256 by omega)
  refine ⟨⟨_, getClaimedSignersNum_eq h, Checked.getNum_eq h, ?_⟩,
    _, getClaimedSignersIndices_eq h, Checked.getIndices_eq h, ?_, ?_⟩
  · rw [UInt8.toNat_ofNat_of_lt' (show (ones 255 signedBy.toNat).length < 256 by omega),
      ← Checked.ones_word h, List.countP_eq_length_filter]
    rfl
  · refine List.pairwise_map.2 ((ones_sorted 255 signedBy.toNat).imp_of_mem fun {p q} hp hq hlt => ?_)
    rw [UInt8.lt_iff_toNat_lt, hnat p hp, hnat q hq]
    exact hlt
  · intro p
    rw [isClaimedSignedBy_iff, List.mem_map]
    constructor
    · intro ⟨q, hq, hpq⟩
      rw [← hpq, hnat q hq]
      exact (mem_ones.1 hq).2
    · intro hset
      have hp : p.toNat < 255 := by
        by_contra hge
        rw [Nat.testBit_lt_two_pow (Nat.lt_of_lt_of_le h
          (Nat.pow_le_pow_right (by omega) (Nat.not_lt.1 hge)))] at hset
        cases hset
      exact ⟨p.toNat, mem_ones.2 ⟨hp, hset⟩, UInt8.ofNat_toNat⟩

theorem claimedSigners_exact_five :
    getClaimedSignersIndices 5 = .ok [0, 2] ∧
    ∃ signers, getClaimedSignersIndices 5 = .ok signers ∧ signers.Pairwise (· < ·) := by
  have hsmall : (5 : Word).toNat < 2 ^ 255 := by decide
  obtain ⟨-, signers, hs, -, hsorted, -⟩ := claimedSigners_exact hsmall
  exact ⟨by decide, signers, hs, hsorted⟩

end Nitro.Contracts
