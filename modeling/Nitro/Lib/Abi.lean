import Mathlib.Data.List.Basic
import Nitro.Lib.Digits

/-!
# The contract ABI encoding

`abi.encode` of the Solidity specification, on untyped value trees: a value is a 32-byte word, a
byte string, a dynamic array or a tuple.  A tuple is laid out as heads followed by tails: a static
component sits in the head, a dynamic one leaves its offset there and sits in the tail.
`decodeWords` is `abi.decode` for an array of words.
-/

namespace Abi

inductive Val where
  | word (w : BitVec 256)
  | bytes (b : List UInt8)
  | array (elems : List Val)
  | tuple (elems : List Val)

/-- the 32 bytes of a word, most significant first -/
def wordBytes (w : BitVec 256) : List UInt8 :=
  (List.range 32).map fun i => UInt8.ofNat (w.toNat >>> (8 * (31 - i)))

/-- right padding with zeros to a multiple of 32 bytes -/
def padRight (b : List UInt8) : List UInt8 :=
  b ++ List.replicate ((32 - b.length % 32) % 32) 0

mutual
def Val.isDynamic : Val → Bool
  | .word _ => false
  | .bytes _ => true
  | .array _ => true
  | .tuple elems => anyDynamic elems

def anyDynamic : List Val → Bool
  | [] => false
  | v :: vs => v.isDynamic || anyDynamic vs
end

/-- size of the head of a part: an offset for a dynamic one, else its encoding -/
def headSize : Bool × List UInt8 → Nat
  | (true, _) => 32
  | (false, e) => e.length

/-- heads, the next tail starting at `offset` -/
def heads : Nat → List (Bool × List UInt8) → List UInt8
  | _, [] => []
  | offset, (true, e) :: ps => wordBytes (BitVec.ofNat 256 offset) ++ heads (offset + e.length) ps
  | offset, (false, e) :: ps => e ++ heads offset ps

def tails : List (Bool × List UInt8) → List UInt8
  | [] => []
  | (true, e) :: ps => e ++ tails ps
  | (false, _) :: ps => tails ps

def joinParts (ps : List (Bool × List UInt8)) : List UInt8 :=
  heads ((ps.map headSize).sum) ps ++ tails ps

mutual
def Val.enc : Val → List UInt8
  | .word w => wordBytes w
  | .bytes b => wordBytes (BitVec.ofNat 256 b.length) ++ padRight b
  | .array elems => wordBytes (BitVec.ofNat 256 elems.length) ++ joinParts (encParts elems)
  | .tuple elems => joinParts (encParts elems)

def encParts : List Val → List (Bool × List UInt8)
  | [] => []
  | v :: vs => (v.isDynamic, v.enc) :: encParts vs
end

/-- `abi.encode(args...)` -/
def encode (args : List Val) : List UInt8 := joinParts (encParts args)

/-- the word at a position, most significant byte first -/
def wordAt (data : List UInt8) (i : Nat) : BitVec 256 :=
  BitVec.ofNat 256 (((data.drop i).take 32).foldl (fun n x => n * 256 + x.toNat) 0)

/-- `abi.decode(data, (bytes32[]))`, with the bounds that the decoder checks -/
def decodeWords (data : List UInt8) : Except String (List (BitVec 256)) :=
  let offset := (wordAt data 0).toNat
  if data.length < 32 ∨ 2 ^ 64 ≤ offset ∨ data.length < offset + 32 then .error "abi decoding"
  else
    let n := (wordAt data offset).toNat
    if 2 ^ 64 ≤ n ∨ data.length < offset + 32 + 32 * n then .error "abi decoding"
    else .ok ((List.range n).map fun i => wordAt data (offset + 32 + 32 * i))

def Val.uint (n : Nat) : Val := .word (BitVec.ofNat 256 n)
def Val.bool (b : Bool) : Val := .uint b.toNat

/-! ## words in an encoding -/

@[simp] theorem length_wordBytes (w : BitVec 256) : (wordBytes w).length = 32 := by
  simp [wordBytes]

theorem map_toNat_wordBytes (w : BitVec 256) :
    (wordBytes w).map (fun x => x.toNat) = Digits.digits 256 32 w.toNat := by
  unfold wordBytes Digits.digits
  rw [List.map_map]
  refine List.map_congr_left fun i _ => ?_
  show (UInt8.ofNat (w.toNat >>> (8 * (31 - i)))).toNat = w.toNat / 256 ^ (32 - 1 - i) % 256
  rw [UInt8.toNat_ofNat', Nat.shiftRight_eq_div_pow, Nat.pow_mul]

theorem wordAt_wordBytes (front : List UInt8) (w : BitVec 256) (rest : List UInt8) :
    wordAt (front ++ (wordBytes w ++ rest)) front.length = w := by
  have htake : (List.drop front.length (front ++ (wordBytes w ++ rest))).take 32 = wordBytes w := by
    rw [List.drop_left]
    exact List.take_left' (length_wordBytes w)
  have hread := Digits.foldl_digits 256 32 w.toNat 0
  rw [← map_toNat_wordBytes, List.foldl_map] at hread
  unfold wordAt
  rw [htake, hread, Nat.zero_mul, Nat.zero_add, show 256 ^ 32 = 2 ^ 256 by decide,
    Nat.mod_eq_of_lt w.isLt, BitVec.ofNat_toNat, BitVec.setWidth_eq]

theorem wordBytes_injective {w v : BitVec 256} (h : wordBytes w = wordBytes v) : w = v := by
  rw [← wordAt_wordBytes [] w [], ← wordAt_wordBytes [] v [], h]

theorem wordBytes_wordAt {data : List UInt8} {i : Nat} (h : i + 32 ≤ data.length) :
    wordBytes (wordAt data i) = (data.drop i).take 32 := by
  have hinj : Function.Injective fun x : UInt8 => x.toNat := fun _ _ => UInt8.toNat_inj.1
  refine List.map_injective_iff.2 hinj ?_
  have hlen : (((data.drop i).take 32).map fun x => x.toNat).length = 32 := by
    rw [List.length_map, List.length_take, List.length_drop]
    omega
  have hbytes : ∀ d ∈ ((data.drop i).take 32).map fun x => x.toNat, d < 256 := by
    intro d hd
    obtain ⟨x, -, rfl⟩ := List.mem_map.1 hd
    exact x.toNat_lt
  have hwrite := Digits.digits_foldl hbytes 0
  have hlt := Digits.foldl_lt hbytes
  rw [hlen, List.foldl_map] at hwrite hlt
  rw [map_toNat_wordBytes]
  unfold wordAt
  rw [BitVec.toNat_ofNat, Nat.mod_eq_of_lt (lt_of_lt_of_eq hlt (by decide))]
  exact hwrite

theorem encode_fourth (w t u : BitVec 256) {v₁ v₂ : Val} (h₁ : v₁.isDynamic = true)
    (h₂ : v₂.isDynamic = true) :
    ∃ front rest, front.length = 96 ∧
      encode [.word w, v₁, v₂, .word t, .word u] = front ++ (wordBytes t ++ rest) := by
  have hparts : encParts [.word w, v₁, v₂, .word t, .word u] =
      [(false, wordBytes w), (true, v₁.enc), (true, v₂.enc), (false, wordBytes t),
        (false, wordBytes u)] := by
    simp [encParts, Val.isDynamic, Val.enc, h₁, h₂]
  unfold encode joinParts
  rw [hparts]
  generalize (List.map headSize _).sum = n
  refine ⟨wordBytes w ++ (wordBytes (BitVec.ofNat 256 n) ++
    wordBytes (BitVec.ofNat 256 (n + v₁.enc.length))), wordBytes u ++ (v₁.enc ++ v₂.enc), ?_, ?_⟩
  · simp
  · simp [heads, tails]

/-- a byte string of two words has no room for the offset and the length of an array and for an
element: it is refused, or read as an empty array -/
theorem decodeWords_short {data : List UInt8} {ws : List (BitVec 256)} (hlen : data.length ≤ 64)
    (h : decodeWords data = .ok ws) : ws = [] := by
  unfold decodeWords at h
  dsimp only at h
  split at h
  · cases h
  · next hoffset =>
    split at h
    · cases h
    · next hlength =>
      cases h
      have hn : (wordAt data (wordAt data 0).toNat).toNat = 0 := by
        by_cases h0 : (wordAt data 0).toNat = 0
        · rw [h0]
          exact h0
        · omega
      rw [hn]
      rfl

theorem encode_words (w v : BitVec 256) : encode [.word w, .word v] = wordBytes w ++ wordBytes v := by
  simp [encode, joinParts, encParts, Val.enc, Val.isDynamic, heads, tails]

theorem encode_pair (w v : BitVec 256) :
    encode [.tuple [.word w, .word v]] = wordBytes w ++ wordBytes v := by
  simp [encode, joinParts, encParts, Val.enc, Val.isDynamic, anyDynamic, heads, tails]

theorem encode_record (t u : BitVec 256) {v₁ v₂ : Val} (h₁ : v₁.isDynamic = true)
    (h₂ : v₂.isDynamic = true) :
    encode [.tuple [v₁, v₂, .word t, .word u]] =
      wordBytes 32 ++ (wordBytes 128 ++ (wordBytes (BitVec.ofNat 256 (128 + v₁.enc.length)) ++
        (wordBytes t ++ (wordBytes u ++ (v₁.enc ++ v₂.enc))))) := by
  simp [encode, joinParts, encParts, Val.enc, Val.isDynamic, anyDynamic, heads, tails, headSize, h₁,
    h₂]

/-- such an encoding determines the words, and the encodings of the values if its offsets do not
overflow -/
theorem encode_record_inj {t u t' u' : BitVec 256} {v₁ v₂ v₁' v₂' : Val}
    (h₁ : v₁.isDynamic = true) (h₂ : v₂.isDynamic = true) (h₁' : v₁'.isDynamic = true)
    (h₂' : v₂'.isDynamic = true) (hsize : 128 + v₁.enc.length < 2 ^ 256)
    (hsize' : 128 + v₁'.enc.length < 2 ^ 256)
    (h : encode [.tuple [v₁, v₂, .word t, .word u]] =
      encode [.tuple [v₁', v₂', .word t', .word u']]) :
    t = t' ∧ u = u' ∧ v₁.enc = v₁'.enc ∧ v₂.enc = v₂'.enc := by
  rw [encode_record t u h₁ h₂, encode_record t' u' h₁' h₂'] at h
  have h := (List.append_inj h rfl).2
  have h := (List.append_inj h rfl).2
  obtain ⟨hoffset, h⟩ := List.append_inj h (by simp)
  obtain ⟨ht, h⟩ := List.append_inj h (by simp)
  obtain ⟨hu, h⟩ := List.append_inj h (by simp)
  have hlen : v₁.enc.length = v₁'.enc.length := by
    have hnat := congrArg BitVec.toNat (wordBytes_injective hoffset)
    rw [BitVec.toNat_ofNat, BitVec.toNat_ofNat, Nat.mod_eq_of_lt hsize, Nat.mod_eq_of_lt hsize'] at hnat
    omega
  obtain ⟨hv₁, hv₂⟩ := List.append_inj h hlen
  exact ⟨wordBytes_injective ht, wordBytes_injective hu, hv₁, hv₂⟩

end Abi
