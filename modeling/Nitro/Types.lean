import Nitro.Lib.Go
import Nitro.Lib.FinMap
import Nitro.Lib.Digits
import Mathlib.Data.String.Basic

/-!
# Addresses, destinations and funds

The package `types`: 20-byte addresses, 32-byte destinations (a left-padded address or a channel
id) and `Funds`, the amounts held per asset.
-/

set_option linter.unusedSectionVars false

namespace Nitro
open Go FinMap

abbrev Bytes := List UInt8
abbrev Address := BitVec 160
abbrev Bytes32 := BitVec 256
abbrev Destination := BitVec 256

/-! ## destinations -/

instance destination_trans : IsTrans Destination (· ≤ ·) := ⟨fun _ _ _ => BitVec.le_trans⟩

instance destination_antisymm : @Std.Antisymm Destination (· ≤ ·) :=
  ⟨fun _ _ => BitVec.le_antisymm⟩

instance destination_total : @Std.Total Destination (· ≤ ·) := ⟨BitVec.le_total⟩

/-- the twelve leading bytes are zero -/
def isExternal (d : Destination) : Bool := decide (d.extractLsb' 160 96 = 0)

def addressToDestination (a : Address) : Destination := a.setWidth 256

/-- `0x` and the 64 hexadecimal digits -/
def destinationString (d : Destination) : String :=
  "0x" ++ String.ofList ((List.range 64).map fun i =>
    ((d >>> (4 * (63 - i))).toNat % 16).digitChar)

theorem digitChar_lt : ∀ d < 16, ∀ e < 16, d < e → Nat.digitChar d < Nat.digitChar e := by
  decide

theorem toList_destinationString (d : Destination) : (destinationString d).toList =
    '0' :: 'x' :: (Digits.digits 16 64 d.toNat).map Nat.digitChar := by
  have hdigits : (List.range 64).map (fun i => ((d >>> (4 * (63 - i))).toNat % 16).digitChar) =
      (Digits.digits 16 64 d.toNat).map Nat.digitChar := by
    unfold Digits.digits
    rw [List.map_map]
    refine List.map_congr_left fun i _ => ?_
    show ((d >>> (4 * (63 - i))).toNat % 16).digitChar =
      (d.toNat / 16 ^ (64 - 1 - i) % 16).digitChar
    rw [BitVec.toNat_ushiftRight, Nat.shiftRight_eq_div_pow, Nat.pow_mul]
  unfold destinationString
  rw [hdigits, String.toList_append, String.toList_ofList, String.toList_ofList]
  rfl

/-- **the order of the texts** of two destinations is the order of the destinations -/
theorem destinationString_lt_iff (a b : Destination) :
    destinationString a < destinationString b ↔ a < b := by
  rw [String.lt_iff_toList_lt, toList_destinationString, toList_destinationString]
  have hdigits := Digits.digits_lt_iff (by decide) digitChar_lt 64 a.toNat b.toNat
  rw [show 16 ^ 64 = 2 ^ 256 by decide, Nat.mod_eq_of_lt a.isLt, Nat.mod_eq_of_lt b.isLt,
    ← BitVec.lt_def] at hdigits
  rw [← hdigits]
  simp

/-! ## funds -/

abbrev Funds := Map Address Int

namespace Funds

/-- `funds[asset]`, read as zero when the asset is missing -/
def amount (f : Funds) (asset : Address) : Int := (f.lookup asset).getD 0

/-- one pass of the loop of `Sum`: `sum[asset] += amount` for every entry of `funds` -/
def accumulate (sum funds : Funds) : Funds :=
  ofKeys (sum.keys ∪ funds.keys) fun a => amount sum a + amount funds a

def sum (a : List Funds) : Funds := a.foldl accumulate ∅

def add (h : Funds) (a : List Funds) : Funds := sum (a ++ [h])

def clone (f : Funds) : Funds := sum [f, ∅]

def isNonZero (h : Funds) : Bool := any (fun a => 0 < amount h a) h

/-- each positive balance of `g` is matched or exceeded by `f` -/
def canAfford (f g : Funds) : Bool :=
  all (fun a => 0 < amount g a → a ∈ f ∧ amount g a ≤ amount f a) g

def equal (f g : Funds) : Bool := canAfford f g && canAfford g f

theorem amount_empty (a : Address) : amount ∅ a = 0 := rfl

theorem amount_of_lookup {f : Funds} {a : Address} {n : Int} (h : f.lookup a = some n) :
    amount f a = n := by
  simp [amount, h]

theorem amount_of_notMem {f : Funds} {a : Address} (h : a ∉ f) : amount f a = 0 := by
  simp [amount, Finmap.lookup_eq_none.2 h]

theorem lookup_of_mem {f : Funds} {a : Address} (h : a ∈ f) : f.lookup a = some (amount f a) := by
  obtain ⟨n, hn⟩ := Finmap.mem_iff.1 h
  rw [hn, amount_of_lookup hn]

theorem amount_accumulate (f g : Funds) (a : Address) :
    amount (accumulate f g) a = amount f a + amount g a := by
  unfold accumulate
  rw [amount, lookup_ofKeys]
  split
  · rfl
  · next h =>
    simp only [Finset.mem_union, Finmap.mem_keys, not_or] at h
    rw [amount_of_notMem h.1, amount_of_notMem h.2]
    rfl

theorem keys_accumulate (f g : Funds) : (accumulate f g).keys = f.keys ∪ g.keys :=
  keys_ofKeys _ _

theorem ext_amount {f g : Funds} (hk : f.keys = g.keys)
    (ha : ∀ a, amount f a = amount g a) : f = g := by
  refine Finmap.ext_lookup fun a => ?_
  by_cases h : a ∈ f
  · have h' : a ∈ g := by rwa [← Finmap.mem_keys, ← hk, Finmap.mem_keys]
    rw [lookup_of_mem h, lookup_of_mem h', ha]
  · have h' : a ∉ g := by rwa [← Finmap.mem_keys, ← hk, Finmap.mem_keys]
    rw [Finmap.lookup_eq_none.2 h, Finmap.lookup_eq_none.2 h']

@[simp] theorem clone_eq (f : Funds) : clone f = f := by
  refine ext_amount ?_ fun a => ?_
  · simp [clone, sum, keys_accumulate]
  · simp [clone, sum, amount_accumulate, amount_empty]

end Funds

end Nitro
