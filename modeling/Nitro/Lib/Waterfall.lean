import Mathlib.Algebra.Order.BigOperators.Group.List
import Mathlib.Algebra.Order.Ring.Defs
import Mathlib.Tactic.Linarith
import Mathlib.Tactic.Ring

/-!
# Payouts in priority order

Claims stand in a list; each is paid the minimum of its amount and what remains of the holdings.
`p` selects the claims of one party.

* `owed amount p l`         what the party claims;
* `received amount p h l`   what it is paid out of holdings `h`;
* `received_eq_of_ahead`    nothing is lost to others that stand after one of the party's claims, if
                            no positive claim of another party comes before a positive one of ours;
* `received_lt_of_behind`   and otherwise something is lost.
-/

set_option linter.unusedSectionVars false

namespace Waterfall
variable {ι α : Type} [CommRing α] [LinearOrder α] [IsStrictOrderedRing α]
variable (amount : ι → α) (p : ι → Prop) [DecidablePred p]

def owed : List ι → α
  | [] => 0
  | a :: l => (if p a then amount a else 0) + owed l

def received : α → List ι → α
  | _, [] => 0
  | h, a :: l => (if p a then min (amount a) h else 0) + received (h - min (amount a) h) l

variable {amount p} {h : α} {l : List ι} {a : ι}

theorem owed_cons_pos (ha : p a) : owed amount p (a :: l) = amount a + owed amount p l := by
  simp [owed, ha]

theorem owed_cons_neg (ha : ¬ p a) : owed amount p (a :: l) = owed amount p l := by
  simp [owed, ha]

theorem received_cons_pos (ha : p a) : received amount p h (a :: l) =
    min (amount a) h + received amount p (h - min (amount a) h) l := by
  simp [received, ha]

theorem received_cons_neg (ha : ¬ p a) : received amount p h (a :: l) =
    received amount p (h - min (amount a) h) l := by
  simp [received, ha]

theorem owed_nonneg (hl : ∀ a ∈ l, 0 ≤ amount a) : 0 ≤ owed amount p l := by
  induction l with
  | nil => exact le_refl 0
  | cons a l ih =>
    have hrest := ih fun b hb => hl b (List.mem_cons_of_mem a hb)
    by_cases ha : p a
    · rw [owed_cons_pos ha]
      have hpos := hl a List.mem_cons_self
      linarith
    · rwa [owed_cons_neg ha]

theorem owed_append_of_none {l₁ l₂ : List ι} (hnone : ∀ a ∈ l₁, ¬ p a) :
    owed amount p (l₁ ++ l₂) = owed amount p l₂ := by
  induction l₁ with
  | nil => rfl
  | cons a l₁ ih =>
    rw [List.cons_append, owed_cons_neg (hnone a List.mem_cons_self)]
    exact ih fun b hb => hnone b (List.mem_cons_of_mem a hb)

theorem remaining_nonneg (h a : α) : 0 ≤ h - min a h := sub_nonneg.2 (min_le_right a h)

/-- **no more is paid than is held** -/
theorem received_le (hh : 0 ≤ h) (hl : ∀ a ∈ l, 0 ≤ amount a) : received amount p h l ≤ h := by
  induction l generalizing h with
  | nil => exact hh
  | cons a l ih =>
    have hrest := ih (remaining_nonneg h (amount a)) fun b hb => hl b (List.mem_cons_of_mem a hb)
    have hpos : 0 ≤ min (amount a) h := le_min (hl a List.mem_cons_self) hh
    by_cases ha : p a
    · rw [received_cons_pos ha]
      linarith
    · rw [received_cons_neg ha]
      linarith

/-- claims of others that can all be paid leave the rest of the holdings to the claims after them -/
theorem received_append_of_none {l₁ l₂ : List ι} (hnone : ∀ a ∈ l₁, ¬ p a)
    (hl : ∀ a ∈ l₁, 0 ≤ amount a) (hh : (l₁.map amount).sum ≤ h) :
    received amount p h (l₁ ++ l₂) = received amount p (h - (l₁.map amount).sum) l₂ := by
  induction l₁ generalizing h with
  | nil => simp
  | cons a l₁ ih =>
    rw [List.map_cons, List.sum_cons] at hh
    have hsum : 0 ≤ (l₁.map amount).sum := by
      refine List.sum_nonneg fun x hx => ?_
      obtain ⟨b, hb, rfl⟩ := List.mem_map.1 hx
      exact hl b (List.mem_cons_of_mem a hb)
    have hmin : min (amount a) h = amount a := min_eq_left (by linarith)
    rw [List.cons_append, received_cons_neg (hnone a List.mem_cons_self), hmin,
      ih (fun b hb => hnone b (List.mem_cons_of_mem a hb))
        (fun b hb => hl b (List.mem_cons_of_mem a hb)) (by linarith), List.map_cons,
      List.sum_cons, sub_sub]

/-! ## who stands before whom -/

/-- no positive claim of another party comes before a positive claim in `p` -/
def Ahead (amount : ι → α) (p : ι → Prop) (l : List ι) : Prop :=
  ∀ a b, [a, b].Sublist l → ¬ p a → p b → amount a ≤ 0 ∨ amount b ≤ 0

theorem Ahead.tail (hl : Ahead amount p (a :: l)) : Ahead amount p l :=
  fun x y hs hx hy => hl x y (hs.cons a) hx hy

theorem Ahead.cons (hl : Ahead amount p l) (ha : p a ∨ amount a ≤ 0) :
    Ahead amount p (a :: l) := by
  intro x y hs hx hy
  cases hs with
  | cons _ hs => exact hl x y hs hx hy
  | cons_cons _ _ =>
    rcases ha with ha | ha
    · exact absurd ha hx
    · exact .inl ha

theorem owed_nonpos (hl : ∀ b ∈ l, p b → amount b ≤ 0) : owed amount p l ≤ 0 := by
  induction l with
  | nil => exact le_refl 0
  | cons a l ih =>
    have hrest := ih fun b hb => hl b (List.mem_cons_of_mem a hb)
    by_cases ha : p a
    · rw [owed_cons_pos ha]
      have hpos := hl a List.mem_cons_self ha
      linarith
    · rwa [owed_cons_neg ha]

/-- **a party that stands ahead receives the holdings, up to what it claims** -/
theorem received_eq_of_ahead (hl : ∀ a ∈ l, 0 ≤ amount a) (hahead : Ahead amount p l)
    (hh : 0 ≤ h) (hle : h ≤ owed amount p l) : received amount p h l = h := by
  induction l generalizing h with
  | nil => exact le_antisymm hh hle
  | cons a l ih =>
    have hpos := hl a List.mem_cons_self
    have hl' : ∀ b ∈ l, 0 ≤ amount b := fun b hb => hl b (List.mem_cons_of_mem a hb)
    by_cases ha : p a
    · rw [owed_cons_pos ha] at hle
      rw [received_cons_pos ha, ih hl' hahead.tail (remaining_nonneg h (amount a)) ?_]
      · ring
      · -- what remains is nothing, or all but the amount just paid
        rcases le_total (amount a) h with hah | hah
        · rw [min_eq_left hah]
          linarith
        · rw [min_eq_right hah, sub_self]
          exact owed_nonneg hl'
    · rw [owed_cons_neg ha] at hle
      rw [received_cons_neg ha]
      rcases le_or_gt (amount a) 0 with hzero | hgt
      · have hmin : min (amount a) h = 0 := by rw [le_antisymm hzero hpos, min_eq_left hh]
        rw [hmin, sub_zero]
        exact ih hl' hahead.tail hh hle
      · have hnone : owed amount p l ≤ 0 := by
          refine owed_nonpos fun b hb hpb => ?_
          have hsub : [a, b].Sublist (a :: l) := (List.singleton_sublist.2 hb).cons_cons a
          exact (hahead a b hsub ha hpb).resolve_left (not_le.2 hgt)
        have hzero : h = 0 := le_antisymm (hle.trans hnone) hh
        subst hzero
        rw [min_eq_right hpos, sub_zero]
        exact ih hl' hahead.tail (le_refl 0) hle

theorem owed_pos (hl : ∀ a ∈ l, 0 ≤ amount a) {b : ι} (hb : b ∈ l) (hp : p b)
    (hgt : 0 < amount b) : 0 < owed amount p l := by
  induction l with
  | nil => exact absurd hb List.not_mem_nil
  | cons a l ih =>
    have hl' : ∀ b ∈ l, 0 ≤ amount b := fun b hb => hl b (List.mem_cons_of_mem a hb)
    rcases List.mem_cons.1 hb with rfl | hb
    · rw [owed_cons_pos hp]
      have hrest := owed_nonneg (p := p) hl'
      linarith
    · by_cases ha : p a
      · rw [owed_cons_pos ha]
        have hrest := ih hl' hb
        have hpos := hl a List.mem_cons_self
        linarith
      · rw [owed_cons_neg ha]
        exact ih hl' hb

/-- **a party that does not stand ahead loses something** when no more is held than it claims -/
theorem received_lt_of_behind (hl : ∀ a ∈ l, 0 ≤ amount a) (hbehind : ¬ Ahead amount p l) :
    received amount p (owed amount p l) l < owed amount p l := by
  induction l with
  | nil =>
    refine absurd (fun a b hs => ?_) hbehind
    cases hs
  | cons a l ih =>
    have hpos := hl a List.mem_cons_self
    have hl' : ∀ b ∈ l, 0 ≤ amount b := fun b hb => hl b (List.mem_cons_of_mem a hb)
    by_cases ha : p a
    · have hrest := ih hl' fun h => hbehind (h.cons (.inl ha))
      have hmin : min (amount a) (amount a + owed amount p l) = amount a :=
        min_eq_left (le_add_of_nonneg_right (owed_nonneg hl'))
      rw [owed_cons_pos ha, received_cons_pos ha, hmin, add_sub_cancel_left]
      linarith
    · rw [owed_cons_neg ha, received_cons_neg ha]
      rcases le_or_gt (amount a) 0 with hzero | hgt
      · have hmin : min (amount a) (owed amount p l) = 0 := by
          rw [le_antisymm hzero hpos, min_eq_left (owed_nonneg hl')]
        rw [hmin, sub_zero]
        exact ih hl' fun h => hbehind (h.cons (.inr hzero))
      · -- the claim at the head takes something from a positive claim of ours after it
        have howed : 0 < owed amount p l := by
          by_contra hnot
          refine hbehind fun x y hs hx hy => .inr ?_
          by_contra hy'
          have hmem : y ∈ l := by
            cases hs with
            | cons _ hs => exact hs.subset (by simp)
            | cons_cons _ hs => exact hs.subset (by simp)
          exact hnot (owed_pos hl' hmem hy (not_le.1 hy'))
        have hmin : 0 < min (amount a) (owed amount p l) := lt_min hgt howed
        have hle := received_le (p := p) (remaining_nonneg (owed amount p l) (amount a)) hl'
        linarith

end Waterfall
