import Nitro.Lib.Digits

/-!
# Hexadecimal texts

The helpers of `ethers` for texts that start with `0x`.  A text is the list of its characters.

* `hexlify`, `hexZeroPad`, `hexDataSlice`, `isHexString`    as the library has them;
* `hexText n x`         `n` digits of `x` after `0x`;
* `hexZeroPad_hexlify`  **a number below `16^(2n)` is written with `2n` digits**;
* `readHex_hexDigits`   and is read back.
-/

set_option linter.unusedSectionVars false

namespace Hex
open Digits

def hexCharacters : List Char := "0123456789abcdef".toList

def hexChar (d : Nat) : Char := hexCharacters.getD d '0'

/-- a digit, in lower or upper case -/
def hexValue (c : Char) : Option Nat :=
  if 48 ≤ c.toNat ∧ c.toNat ≤ 57 then some (c.toNat - 48)
  else if 97 ≤ c.toNat ∧ c.toNat ≤ 102 then some (c.toNat - 87)
  else if 65 ≤ c.toNat ∧ c.toNat ≤ 70 then some (c.toNat - 55)
  else none

/-- the loop of `hexlify`: the last digit goes to the front -/
def hexLoop : Nat → Nat → List Char → List Char
  | 0, _, hex => hex
  | rounds + 1, value, hex =>
    if value = 0 then hex else hexLoop rounds (value / 16) (hexChar (value % 16) :: hex)

/-- `hexlify` of a number: an even number of digits, at least two -/
def hexlify (value : Nat) : Except String (List Char) :=
  if 2 ^ 53 ≤ value then .error "invalid hexlify value"
  else
    let hex := hexLoop value value []
    if hex = [] then .ok "0x00".toList
    else if hex.length % 2 = 1 then .ok ('0' :: 'x' :: '0' :: hex)
    else .ok ('0' :: 'x' :: hex)

/-- `hexZeroPad`: zeros after the `0x`, up to `length` bytes -/
def hexZeroPad (value : List Char) (length : Nat) : Except String (List Char) :=
  if 2 * length + 2 < value.length then .error "value out of range"
  else .ok ('0' :: 'x' :: (List.replicate (2 * length + 2 - value.length) '0' ++ value.drop 2))

/-- `hexDataSlice(data, offset)` -/
def hexDataSlice (data : List Char) (offset : Nat) : List Char :=
  '0' :: 'x' :: data.drop (2 + 2 * offset)

def isHexString (value : List Char) : Bool :=
  decide (value.take 2 = ['0', 'x']) && (value.drop 2).all fun c => (hexValue c).isSome

/-- the number that the digits of a text stand for -/
def readHex (digits : List Char) : Nat :=
  digits.foldl (fun a c => a * 16 + (hexValue c).getD 0) 0

/-! ## digits -/

def hexDigits (n x : Nat) : List Char := (digits 16 n x).map hexChar

def hexText (n x : Nat) : List Char := '0' :: 'x' :: hexDigits n x

theorem hexValue_hexChar {d : Nat} (h : d < 16) : hexValue (hexChar d) = some d := by
  have hall : ∀ d < 16, hexValue (hexChar d) = some d := by decide
  exact hall d h

@[simp] theorem length_hexDigits (n x : Nat) : (hexDigits n x).length = n := by
  simp [hexDigits]

theorem hexDigits_add (m n x : Nat) :
    hexDigits (m + n) x = hexDigits m (x / 16 ^ n) ++ hexDigits n x := by
  unfold hexDigits
  rw [digits_add, List.map_append]

theorem hexDigits_mod (n x : Nat) : hexDigits n (x % 16 ^ n) = hexDigits n x :=
  congrArg (List.map hexChar) (digits_mod 16 n x)

theorem isHexString_hexText (n x : Nat) : isHexString (hexText n x) = true := by
  show ((hexDigits n x).all fun c => (hexValue c).isSome) = true
  refine List.all_eq_true.2 fun c hc => ?_
  obtain ⟨d, hd, rfl⟩ := List.mem_map.1 hc
  rw [hexValue_hexChar (lt_of_mem_digits (by omega) hd)]
  rfl

theorem readHex_hexDigits {n x : Nat} (h : x < 16 ^ n) : readHex (hexDigits n x) = x := by
  have hread : ∀ (l : List Nat) (a : Nat), (∀ d ∈ l, d < 16) →
      (l.map hexChar).foldl (fun a c => a * 16 + (hexValue c).getD 0) a =
        l.foldl (fun a d => a * 16 + d) a := by
    intro l
    induction l with
    | nil => intro a _; rfl
    | cons d l ih =>
      intro a hl
      rw [List.map_cons, List.foldl_cons, List.foldl_cons,
        hexValue_hexChar (hl d List.mem_cons_self)]
      exact ih _ fun e he => hl e (List.mem_cons_of_mem d he)
  unfold readHex hexDigits
  rw [hread _ _ fun d hd => lt_of_mem_digits (by omega) hd, foldl_digits, Nat.zero_mul,
    Nat.zero_add, Nat.mod_eq_of_lt h]

/-! ## the loop of `hexlify` -/

theorem hexLoop_append (rounds value : Nat) (hex : List Char) :
    hexLoop rounds value hex = hexLoop rounds value [] ++ hex := by
  induction rounds generalizing value hex with
  | zero => rfl
  | succ rounds ih =>
    unfold hexLoop
    split
    · rfl
    · rw [ih, ih _ [hexChar (value % 16)], List.append_assoc]
      rfl

/-- the digits without leading zeros; with them they are the digits -/
theorem hexLoop_eq {n rounds value : Nat} (hlt : value < 16 ^ n) (hrounds : value ≤ rounds) :
    (hexLoop rounds value []).length ≤ n ∧
      List.replicate (n - (hexLoop rounds value []).length) '0' ++ hexLoop rounds value [] =
        hexDigits n value := by
  induction n generalizing rounds value with
  | zero =>
    have hzero : value = 0 := by
      rw [Nat.pow_zero] at hlt
      omega
    have hnil : hexLoop rounds value [] = [] := by
      rw [hzero]
      cases rounds <;> rfl
    rw [hnil]
    exact ⟨Nat.le_refl 0, rfl⟩
  | succ n ih =>
    by_cases hzero : value = 0
    · have hnil : hexLoop rounds value [] = [] := by
        rw [hzero]
        cases rounds <;> rfl
      rw [hnil, hzero, List.append_nil]
      refine ⟨Nat.zero_le _, ?_⟩
      unfold hexDigits
      rw [digits_zero, List.map_replicate]
      rfl
    · obtain ⟨rounds, rfl⟩ := Nat.exists_eq_succ_of_ne_zero (show rounds ≠ 0 by omega)
      rw [Nat.pow_succ] at hlt
      have hdiv : value / 16 < 16 ^ n := Nat.div_lt_of_lt_mul (by omega)
      have hrounds : value / 16 ≤ rounds := by omega
      obtain ⟨hlen, heq⟩ := ih hdiv hrounds
      have hloop : hexLoop (rounds + 1) value [] =
          hexLoop rounds (value / 16) [] ++ [hexChar (value % 16)] := by
        rw [hexLoop, if_neg hzero]
        exact hexLoop_append _ _ _
      have hlast : hexDigits 1 value = [hexChar (value % 16)] := by
        show [hexChar (value / 16 ^ 0 % 16)] = _
        rw [Nat.pow_zero, Nat.div_one]
      rw [hloop, List.length_append, List.length_singleton, Nat.add_sub_add_right, ← List.append_assoc,
        heq, hexDigits_add, hlast, Nat.pow_one]
      exact ⟨Nat.succ_le_succ hlen, rfl⟩

theorem hexZeroPad_hexlify {n value : Nat} (hlt : value < 16 ^ (2 * n)) (hsafe : value < 2 ^ 53)
    (hn : 1 ≤ n) : (hexlify value >>= fun hex => hexZeroPad hex n) = .ok (hexText (2 * n) value) := by
  obtain ⟨hlen, heq⟩ := hexLoop_eq hlt (Nat.le_refl value)
  have hpad : ∀ zeros : Nat, zeros + (hexLoop value value []).length ≤ 2 * n →
      hexZeroPad ('0' :: 'x' :: (List.replicate zeros '0' ++ hexLoop value value [])) n =
        .ok (hexText (2 * n) value) := by
    intro zeros hz
    unfold hexZeroPad
    rw [if_neg (by simp; omega)]
    congr 3
    rw [List.drop_succ_cons, List.drop_succ_cons, List.drop_zero, ← List.append_assoc,
      List.replicate_append_replicate, ← heq]
    congr 2
    simp
    omega
  unfold hexlify
  rw [if_neg (by omega)]
  dsimp only
  split
  · next hnil =>
    rw [hnil] at hpad
    exact hpad 2 (by simp; omega)
  · split
    · exact hpad 1 (by omega)
    · exact hpad 0 (by omega)

end Hex
