import Mathlib.Data.List.Forall2
import Nitro.Lib.Abi

/-!
# An ABI encoding determines its value

Among values of one type.  Such an encoding can be read from the front: whatever follows, the value
and what follows it are determined.

* `Val.Alike`                two values of one type, shorter than the words that hold their lengths;
* `Separates`                what an encoding that can be read from the front does;
* `joinParts_append_inj`     heads and tails can be read when the components can;
* `Val.Alike.separates`      **values of one type can be read from the front**;
* `encode_injective`         arguments of one list of types can be told apart.
-/

set_option linter.unusedSectionVars false

namespace Abi

/-- values of one type: they differ in words, in byte strings and in the lengths of arrays; tuples
have the same components -/
inductive Val.Alike : Val → Val → Prop
  | word (w w' : BitVec 256) : Alike (.word w) (.word w')
  | bytes {b b' : List UInt8} (hb : b.length < 2 ^ 256) (hb' : b'.length < 2 ^ 256) :
      Alike (.bytes b) (.bytes b')
  | array {vs ws : List Val} (hvs : vs.length < 2 ^ 256) (hws : ws.length < 2 ^ 256)
      (h : ∀ v ∈ vs, ∀ w ∈ ws, Alike v w) : Alike (.array vs) (.array ws)
  | tuple {vs ws : List Val} (hlen : vs.length = ws.length)
      (h : ∀ (i : Nat) v w, vs[i]? = some v → ws[i]? = some w → Alike v w) :
      Alike (.tuple vs) (.tuple ws)

/-- the values can be read from the front of a byte string, and which way is known before -/
structure Separates (v w : Val) : Prop where
  isDynamic : v.isDynamic = w.isDynamic
  inj : ∀ rest rest', v.enc ++ rest = w.enc ++ rest' → v = w ∧ rest = rest'

/-! ## words and byte strings -/

theorem wordBytes_append_inj {w w' : BitVec 256} {rest rest' : List UInt8}
    (h : wordBytes w ++ rest = wordBytes w' ++ rest') : w = w' ∧ rest = rest' := by
  obtain ⟨hw, hrest⟩ := List.append_inj h (by simp)
  exact ⟨wordBytes_injective hw, hrest⟩

theorem lengthWord_append_inj {n n' : Nat} {rest rest' : List UInt8} (hn : n < 2 ^ 256)
    (hn' : n' < 2 ^ 256)
    (h : wordBytes (BitVec.ofNat 256 n) ++ rest = wordBytes (BitVec.ofNat 256 n') ++ rest') :
    n = n' ∧ rest = rest' := by
  obtain ⟨hw, hrest⟩ := wordBytes_append_inj h
  have hnat := congrArg BitVec.toNat hw
  rw [BitVec.toNat_ofNat, BitVec.toNat_ofNat, Nat.mod_eq_of_lt hn, Nat.mod_eq_of_lt hn'] at hnat
  exact ⟨hnat, hrest⟩

theorem padRight_append_inj {b b' rest rest' : List UInt8} (hlen : b.length = b'.length)
    (h : padRight b ++ rest = padRight b' ++ rest') : b = b' ∧ rest = rest' := by
  unfold padRight at h
  rw [hlen] at h
  obtain ⟨hpadded, hrest⟩ := List.append_inj h (by simp [hlen])
  exact ⟨(List.append_inj hpadded hlen).1, hrest⟩

/-! ## heads and tails -/

theorem heads_append_inj {vs ws : List Val} (h : List.Forall₂ Separates vs ws)
    {offset offset' : Nat} {rest rest' : List UInt8}
    (heq : heads offset (encParts vs) ++ rest = heads offset' (encParts ws) ++ rest') :
    List.Forall₂ (fun v w => v.isDynamic = false → v = w) vs ws ∧ rest = rest' := by
  induction h generalizing offset offset' with
  | nil => exact ⟨.nil, heq⟩
  | @cons v w vs ws hvw _ ih =>
    have hdynamic := hvw.isDynamic
    cases hv : v.isDynamic with
    | true =>
      rw [hv] at hdynamic
      simp only [encParts, hv, ← hdynamic, heads, List.append_assoc] at heq
      obtain ⟨hstatic, hrest⟩ := ih (wordBytes_append_inj heq).2
      exact ⟨.cons (fun e => by rw [hv] at e; cases e) hstatic, hrest⟩
    | false =>
      rw [hv] at hdynamic
      simp only [encParts, hv, ← hdynamic, heads, List.append_assoc] at heq
      obtain ⟨hsame, heq⟩ := hvw.inj _ _ heq
      obtain ⟨hstatic, hrest⟩ := ih heq
      exact ⟨.cons (fun _ => hsame) hstatic, hrest⟩

theorem tails_append_inj {vs ws : List Val} (h : List.Forall₂ Separates vs ws)
    {rest rest' : List UInt8}
    (heq : tails (encParts vs) ++ rest = tails (encParts ws) ++ rest') :
    List.Forall₂ (fun v w => v.isDynamic = true → v = w) vs ws ∧ rest = rest' := by
  induction h with
  | nil => exact ⟨.nil, heq⟩
  | @cons v w vs ws hvw _ ih =>
    have hdynamic := hvw.isDynamic
    cases hv : v.isDynamic with
    | true =>
      rw [hv] at hdynamic
      simp only [encParts, hv, ← hdynamic, tails, List.append_assoc] at heq
      obtain ⟨hsame, heq⟩ := hvw.inj _ _ heq
      obtain ⟨hdyn, hrest⟩ := ih heq
      exact ⟨.cons (fun _ => hsame) hdyn, hrest⟩
    | false =>
      rw [hv] at hdynamic
      simp only [encParts, hv, ← hdynamic, tails] at heq
      obtain ⟨hdyn, hrest⟩ := ih heq
      exact ⟨.cons (fun e => by rw [hv] at e; cases e) hdyn, hrest⟩

theorem eq_of_heads_of_tails {vs ws : List Val}
    (hstatic : List.Forall₂ (fun v w => v.isDynamic = false → v = w) vs ws)
    (hdynamic : List.Forall₂ (fun v w => v.isDynamic = true → v = w) vs ws) : vs = ws := by
  induction hstatic with
  | nil => rfl
  | @cons v w vs ws hv _ ih =>
    obtain ⟨hv', hdynamic⟩ := List.forall₂_cons.1 hdynamic
    rw [ih hdynamic]
    cases hdyn : v.isDynamic with
    | true => rw [hv' hdyn]
    | false => rw [hv hdyn]

theorem joinParts_append_inj {vs ws : List Val} (h : List.Forall₂ Separates vs ws)
    {rest rest' : List UInt8}
    (heq : joinParts (encParts vs) ++ rest = joinParts (encParts ws) ++ rest') :
    vs = ws ∧ rest = rest' := by
  unfold joinParts at heq
  rw [List.append_assoc, List.append_assoc] at heq
  obtain ⟨hstatic, heq⟩ := heads_append_inj h heq
  obtain ⟨hdynamic, hrest⟩ := tails_append_inj h heq
  exact ⟨eq_of_heads_of_tails hstatic hdynamic, hrest⟩

/-! ## values of one type -/

theorem anyDynamic_congr {vs ws : List Val} (h : List.Forall₂ Separates vs ws) :
    anyDynamic vs = anyDynamic ws := by
  induction h with
  | nil => rfl
  | cons hvw _ ih =>
    unfold anyDynamic
    rw [hvw.isDynamic, ih]

/-- **values of one type can be read from the front** -/
theorem Val.Alike.separates {v w : Val} (h : v.Alike w) : Separates v w := by
  induction h with
  | word w w' =>
    refine ⟨rfl, fun rest rest' heq => ?_⟩
    obtain ⟨rfl, hrest⟩ := wordBytes_append_inj heq
    exact ⟨rfl, hrest⟩
  | bytes hb hb' =>
    refine ⟨rfl, fun rest rest' heq => ?_⟩
    simp only [Val.enc, List.append_assoc] at heq
    obtain ⟨hlen, heq⟩ := lengthWord_append_inj hb hb' heq
    obtain ⟨rfl, hrest⟩ := padRight_append_inj hlen heq
    exact ⟨rfl, hrest⟩
  | array hvs hws _ ih =>
    refine ⟨rfl, fun rest rest' heq => ?_⟩
    simp only [Val.enc, List.append_assoc] at heq
    obtain ⟨hlen, heq⟩ := lengthWord_append_inj hvs hws heq
    have hall := List.forall₂_iff_get.2
      ⟨hlen, fun i hi hi' => ih _ (List.get_mem _ ⟨i, hi⟩) _ (List.get_mem _ ⟨i, hi'⟩)⟩
    obtain ⟨rfl, hrest⟩ := joinParts_append_inj hall heq
    exact ⟨rfl, hrest⟩
  | tuple hlen _ ih =>
    have hall := List.forall₂_iff_get.2 ⟨hlen, fun i hi hi' =>
      ih i _ _ (List.getElem?_eq_getElem hi) (List.getElem?_eq_getElem hi')⟩
    refine ⟨anyDynamic_congr hall, fun rest rest' heq => ?_⟩
    obtain ⟨rfl, hrest⟩ := joinParts_append_inj hall heq
    exact ⟨rfl, hrest⟩

/-- **arguments of one list of types are determined by their encoding** -/
theorem encode_injective {vs ws : List Val} (h : List.Forall₂ Val.Alike vs ws)
    (heq : encode vs = encode ws) : vs = ws := by
  have hseparates : List.Forall₂ Separates vs ws := h.imp fun _ _ hvw => hvw.separates
  have hjoined : joinParts (encParts vs) ++ [] = joinParts (encParts ws) ++ [] := by
    rw [List.append_nil, List.append_nil]
    exact heq
  exact (joinParts_append_inj hseparates hjoined).1

end Abi
