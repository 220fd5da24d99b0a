import Nitro.Lib.Go
import Nitro.Lib.FinMap
import Mathlib.Data.List.AList

/-!
# JSON values and codecs

A document is a tree.  Its leaves are the values whose text form is the business of the standard
library: numbers, and byte strings in hexadecimal or base 64.

* `Json.field`     a field of an object, `null` when it is missing, as `json.Unmarshal` reads it;
* `Codec α`        an encoder and a decoder with the proof that decoding undoes encoding;
* `Codec.list`, `Codec.map`, `Codec.alist`, ...   codecs of compound values.
-/

namespace Wire
open Go FinMap

inductive Json where
  | null
  | bool (b : Bool)
  | num (n : Int)
  | str (s : String)
  /-- a byte string of fixed size, as the number it encodes -/
  | hex (n : Nat)
  /-- a byte string in base 64 -/
  | base64 (b : List UInt8)
  /-- a byte string in base 64 that is the text of a document -/
  | text (document : Json)
  | arr (elems : List Json)
  | obj (fields : List (String × Json))
  /-- an object whose keys are the texts of numbers or of fixed-size byte strings -/
  | dict (entries : List (Nat × Json))

namespace Json

def typeError : Fault := .err (.new "json: cannot unmarshal value of this type")

def field (j : Json) (name : String) : Res Json :=
  match j with
  | .obj fields => .ok ((fields.lookup name).getD .null)
  | .null => .ok .null
  | _ => .error typeError

@[simp] theorem field_nil (name : String) : (Json.obj []).field name = .ok .null := rfl

@[simp] theorem field_cons (k : String) (v : Json) (fields : List (String × Json))
    (name : String) : (Json.obj ((k, v) :: fields)).field name =
      if name = k then .ok v else (Json.obj fields).field name := by
  by_cases h : name = k
  · subst h
    simp [field]
  · have hb : (name == k) = false := by simpa using h
    simp [field, List.lookup_cons, h, hb]

end Json

structure Codec (α : Type) where
  enc : α → Json
  dec : Json → Res α
  round : ∀ a, dec (enc a) = .ok a

namespace Codec
variable {α β κ ν : Type}

attribute [simp] Codec.round

/-! ## leaves -/

/-- a `*big.Int`; `nil` is `null` -/
def bigInt : Codec BigInt where
  enc n := match n with
    | none => .null
    | some n => .num n
  dec j := match j with
    | .null => .ok none
    | .num n => .ok (some n)
    | _ => .error Json.typeError
  round n := by cases n <;> rfl

/-- a `*big.Int` that is known not to be `nil` -/
def int : Codec Int where
  enc n := .num n
  dec j := do
    let n ← bigInt.dec j
    n.deref
  round _ := rfl

/-- an unsigned integer below `size`; `null` leaves the zero value -/
def decUint (size : Nat) : Json → Res Nat
  | .null => .ok 0
  | .num (.ofNat n) => if n < size then .ok n else .error Json.typeError
  | _ => .error Json.typeError

theorem decUint_num {size n : Nat} (h : n < size) : decUint size (.num n) = .ok n := if_pos h

def uint64 : Codec UInt64 where
  enc n := .num n.toNat
  dec j := do
    let n ← decUint UInt64.size j
    .ok (UInt64.ofNat n)
  round n := by
    rw [decUint_num n.toNat_lt]
    simp

def uint8 : Codec UInt8 where
  enc n := .num n.toNat
  dec j := do
    let n ← decUint UInt8.size j
    .ok (UInt8.ofNat n)
  round n := by
    rw [decUint_num n.toNat_lt]
    simp

/-- a `uint` that is modelled as a number -/
def uint : Codec Nat where
  enc n := .num n
  dec j := match j with
    | .null => .ok 0
    | .num (.ofNat n) => .ok n
    | _ => .error Json.typeError
  round _ := rfl

def bool : Codec Bool where
  enc b := .bool b
  dec j := match j with
    | .null => .ok false
    | .bool b => .ok b
    | _ => .error Json.typeError
  round _ := rfl

def string : Codec String where
  enc s := .str s
  dec j := match j with
    | .null => .ok ""
    | .str s => .ok s
    | _ => .error Json.typeError
  round _ := rfl

def bytes : Codec (List UInt8) where
  enc b := .base64 b
  dec j := match j with
    | .null => .ok []
    | .base64 b => .ok b
    | _ => .error Json.typeError
  round _ := rfl

/-- a document inside a document -/
def text : Codec Json where
  enc j := .text j
  dec j := match j with
    | .text j => .ok j
    | _ => .error Json.typeError
  round _ := rfl

/-- addresses and hashes -/
def word (w : Nat) : Codec (BitVec w) where
  enc x := .hex x.toNat
  dec j := match j with
    | .null => .ok 0
    | .hex n => .ok (BitVec.ofNat w n)
    | _ => .error Json.typeError
  round x := by simp

/-! ## lists -/

def list (c : Codec α) : Codec (List α) where
  enc l := .arr (l.map c.enc)
  dec j := match j with
    | .null => .ok []
    | .arr l => l.mapM c.dec
    | _ => .error Json.typeError
  round l := by
    show (l.map c.enc).mapM c.dec = .ok l
    induction l with
    | nil => rfl
    | cons a l ih =>
      rw [List.map_cons, List.mapM_cons, c.round, ih]
      rfl

/-! ## maps -/

/-- a key of a map, by the number that is its text -/
structure Key (κ : Type) where
  toNat : κ → Nat
  ofNat : Nat → κ
  round : ∀ k, ofNat (toNat k) = k

def Key.word (w : Nat) : Key (BitVec w) := ⟨BitVec.toNat, BitVec.ofNat w, fun k => by simp⟩

def Key.uint64 : Key UInt64 := ⟨UInt64.toNat, UInt64.ofNat, fun k => by simp⟩

section map
variable [DecidableEq κ] (key : Key κ) (c : Codec ν)

def decEntries : List (Nat × Json) → Map κ ν → Res (Map κ ν)
  | [], m => .ok m
  | (k, j) :: es, m => do
    let v ← c.dec j
    decEntries es (m.insert (key.ofNat k) v)

def encEntries (m : Map κ ν) (keys : List κ) : List (Nat × Json) :=
  keys.filterMap fun k => (m.lookup k).map fun v => (key.toNat k, c.enc v)

/-- decoding the entries of `keys` into `acc` overwrites exactly those keys -/
theorem decEntries_encEntries (m : Map κ ν) (keys : List κ) (acc : Map κ ν) :
    ∃ m', decEntries key c (encEntries key c m keys) acc = .ok m' ∧
      ∀ x, m'.lookup x = if x ∈ keys ∧ x ∈ m then m.lookup x else acc.lookup x := by
  induction keys generalizing acc with
  | nil => exact ⟨acc, rfl, fun x => by simp⟩
  | cons k keys ih =>
    cases hk : m.lookup k with
    | none =>
      obtain ⟨m', hm', hl⟩ := ih acc
      refine ⟨m', ?_, fun x => ?_⟩
      · simpa [encEntries, hk] using hm'
      · rw [hl x]
        have hkm : k ∉ m := Finmap.lookup_eq_none.1 hk
        by_cases hx : x = k
        · subst hx
          simp [hkm]
        · simp [hx]
    | some v =>
      obtain ⟨m', hm', hl⟩ := ih (acc.insert k v)
      refine ⟨m', ?_, fun x => ?_⟩
      · show decEntries key c (encEntries key c m (k :: keys)) acc = .ok m'
        have he : encEntries key c m (k :: keys) =
            (key.toNat k, c.enc v) :: encEntries key c m keys := by
          simp [encEntries, hk]
        rw [he, decEntries, c.round, Res.ok_bind, key.round]
        exact hm'
      · rw [hl x]
        have hkm : k ∈ m := Finmap.mem_of_lookup_eq_some hk
        by_cases hx : x = k
        · subst hx
          simp [hkm, hk]
        · simp [hx, Finmap.lookup_insert_of_ne acc hx]

/-- a map whose keys are written in the order of a list -/
def mapBy (keys : Map κ ν → List κ) (hkeys : ∀ m k, k ∈ keys m ↔ k ∈ m) : Codec (Map κ ν) where
  enc m := .dict (encEntries key c m (keys m))
  dec j := match j with
    | .null => .ok ∅
    | .dict es => decEntries key c es ∅
    | _ => .error Json.typeError
  round m := by
    obtain ⟨m', hm', hl⟩ := decEntries_encEntries key c m (keys m) ∅
    show decEntries key c _ ∅ = .ok m
    rw [hm']
    refine congrArg _ (Finmap.ext_lookup fun x => ?_)
    rw [hl x]
    by_cases hx : x ∈ m
    · simp [hx, hkeys]
    · simp [hx, Finmap.lookup_eq_none.2 hx]

/-- the keys are written in order -/
def map {w : Nat} (c : Codec ν) : Codec (Map (BitVec w) ν) :=
  mapBy (Key.word w) c (sortedKeys (· ≤ ·)) fun _ _ => mem_sortedKeys _

def mapUint64 (c : Codec ν) : Codec (Map UInt64 ν) :=
  mapBy Key.uint64 c (sortedKeys (· ≤ ·)) fun _ _ => mem_sortedKeys _

end map

/-! ## maps with an order -/

/-- reading the entries in turn; a later one replaces an earlier one with the same key -/
def decAList (c : Codec ν) : List (Nat × Json) → AList (fun _ : Nat => ν) →
    Res (AList fun _ : Nat => ν)
  | [], m => .ok m
  | (k, j) :: es, m => do
    let v ← c.dec j
    decAList c es (m.insert k v)

theorem decAList_append (c : Codec ν) (es es' : List (Nat × Json))
    (m : AList fun _ : Nat => ν) : decAList c (es ++ es') m = decAList c es m >>= decAList c es' := by
  induction es generalizing m with
  | nil => rfl
  | cons e es ih =>
    obtain ⟨k, j⟩ := e
    rw [List.cons_append, decAList, decAList]
    cases c.dec j with
    | error f => rfl
    | ok v => exact ih (m.insert k v)

theorem decAList_entries (c : Codec ν) (m : AList fun _ : Nat => ν) :
    decAList c (m.entries.reverse.map fun e => (e.1, c.enc e.2)) ∅ = .ok m := by
  induction m using AList.insertRec with
  | H0 => rfl
  | IH k v m hk ih =>
    rw [AList.entries_insert_of_notMem hk, List.reverse_cons, List.map_append, decAList_append,
      ih, Res.ok_bind]
    simp [decAList]

/-- a map with an order in which it is ranged over; `nil` is `null` -/
def alist (c : Codec ν) : Codec (Option (AList fun _ : Nat => ν)) where
  enc m := match m with
    | none => .null
    | some m => .dict (m.entries.reverse.map fun e => (e.1, c.enc e.2))
  dec j := match j with
    | .null => .ok none
    | .dict es => do
      let m ← decAList c es ∅
      .ok (some m)
    | _ => .error Json.typeError
  round m := by
    cases m with
    | none => rfl
    | some m =>
      show (decAList c _ ∅ >>= fun m => .ok (some m)) = .ok (some m)
      rw [decAList_entries]
      rfl

end Codec

end Wire
