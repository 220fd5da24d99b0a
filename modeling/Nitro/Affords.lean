import Nitro.Protocols.DepositSafety

/-!
# What allocations can afford

`Affords` walks down the allocations with an exact surplus and stops when it is used up.  The emulated
transfer pays every allocation the minimum of its amount and what is left.  The two agree on the first
allocation that equals a given one.

* `Allocations.affords`        the code;
* `FirstPaid`                  the first allocation equal to a given one is paid in full;
* `affords_iff_firstPaid`      **`Affords` says so exactly then**.
-/

set_option linter.unusedSectionVars false

namespace Nitro
open Go

theorem Allocation.equal_of_some {a b : Allocation} {m n : Int} (ha : a.amount = some m)
    (hb : b.amount = some n) : a.equal b = .ok (decide (a = b)) := by
  obtain ⟨destination, amount, type, metadata⟩ := a
  obtain ⟨destination', amount', type', metadata'⟩ := b
  cases ha
  cases hb
  unfold equal
  by_cases h : destination = destination' ∧ type = type'
  · obtain ⟨rfl, rfl⟩ := h
    simp [BigInt.cmpEq, ← Bool.decide_and]
  · rw [if_neg h, decide_eq_false]
    intro heq
    cases heq
    exact h ⟨rfl, rfl⟩

namespace Allocations
variable {l exits : Allocations} {given a e : Allocation} {surplus n : Int}

/-- the loop of `Affords` -/
def affordsLoop (given : Allocation) : Int → Allocations → Res Bool
  | _, [] => .ok false
  | surplus, a :: as => do
    if ← a.equal given then do
      let amount ← given.amount.deref
      .ok (decide (amount ≤ surplus))
    else do
      let amount ← a.amount.deref
      -- no funds remain for further allocations
      if surplus - amount ≤ 0 then .ok false
      else affordsLoop given (surplus - amount) as

def affords (a : Allocations) (given : Allocation) (funding : BigInt) : Res Bool := do
  let surplus ← funding.deref
  affordsLoop given surplus a

/-! ## the payouts -/

/-- the amounts that a transfer of all allocations pays -/
def payouts : Int → Allocations → List Int
  | _, [] => []
  | surplus, a :: as => min a.value surplus :: payouts (surplus - min a.value surplus) as

theorem transferLoop_payouts (h : NonNeg l) (k i : Nat) (surplus : Int) :
    ∃ news exits, transferLoop [] k i surplus l = .ok (news, exits) ∧
      exits.map Allocation.amount = (payouts surplus l).map some := by
  induction l generalizing i surplus with
  | nil => exact ⟨[], [], rfl, rfl⟩
  | cons a l ih =>
    have hmin : (if a.value > surplus then surplus else a.value) = min a.value surplus := by
      split <;> omega
    obtain ⟨news, exits, hrun, hpaid⟩ := ih h.tail (i + 1) (surplus - min a.value surplus)
    refine ⟨{ a with amount := some (a.value - min a.value surplus) } :: news,
      { a with amount := some (min a.value surplus) } :: exits, ?_, ?_⟩
    · rw [transferLoop, h.head]
      show (transferLoop [] k (i + 1) (surplus - (if a.value > surplus then surplus else a.value)) l
        >>= _) = _
      rw [hmin, hrun]
      rfl
    · rw [List.map_cons, hpaid]
      rfl

theorem payouts_zero (h : NonNeg l) : ∀ p ∈ payouts 0 l, p = 0 := by
  induction l with
  | nil =>
    intro p hp
    cases hp
  | cons a l ih =>
    have hmin : min a.value 0 = 0 := min_eq_right (h.value a List.mem_cons_self)
    intro p hp
    unfold payouts at hp
    rw [hmin, Int.sub_zero] at hp
    rcases List.mem_cons.1 hp with rfl | hp
    · rfl
    · exact ih h.tail p hp

/-! ## the first allocation that equals a given one -/

/-- `l` has an entry equal to `given`, and the first such entry is paid its amount in `exits` -/
def FirstPaid (given : Allocation) (l exits : Allocations) : Prop :=
  ∃ (i : Nat) (a : Allocation), l[i]? = some a ∧ a.equal given = .ok true ∧
    (∀ (j : Nat) (b : Allocation), j < i → l[j]? = some b → b.equal given ≠ .ok true) ∧
    ∃ e : Allocation, exits[i]? = some e ∧ e.amount = a.amount

theorem not_firstPaid_nil : ¬ FirstPaid given [] exits := by
  intro ⟨i, a, ha, _⟩
  simp at ha

theorem firstPaid_cons_self : FirstPaid a (a :: l) (e :: exits) ↔ e.amount = a.amount := by
  constructor
  · intro ⟨i, b, hb, hequal, hfirst, e', he', hamount⟩
    cases i with
    | zero =>
      cases hb
      cases he'
      exact hamount
    | succ i => exact absurd (Allocation.equal_self a) (hfirst 0 a (Nat.succ_pos i) rfl)
  · intro h
    refine ⟨0, a, rfl, Allocation.equal_self a, fun j b hj _ => absurd hj (Nat.not_lt_zero j), e,
      rfl, h⟩

theorem firstPaid_cons (hne : a ≠ given) :
    FirstPaid given (a :: l) (e :: exits) ↔ FirstPaid given l exits := by
  have hunequal : a.equal given ≠ .ok true := fun h => hne (Allocation.equal_eq h)
  constructor
  · intro ⟨i, b, hb, hequal, hfirst, e', he', hamount⟩
    cases i with
    | zero =>
      cases hb
      exact absurd hequal hunequal
    | succ i =>
      exact ⟨i, b, hb, hequal, fun j x hj hx => hfirst (j + 1) x (Nat.succ_lt_succ hj) hx, e', he',
        hamount⟩
  · intro ⟨i, b, hb, hequal, hfirst, e', he', hamount⟩
    refine ⟨i + 1, b, hb, hequal, fun j x hj hx => ?_, e', he', hamount⟩
    cases j with
    | zero =>
      cases hx
      exact hunequal
    | succ j => exact hfirst j x (Nat.lt_of_succ_lt_succ hj) hx

theorem not_firstPaid_of_zero (hn : 0 < n) (hgiven : given.amount = some n)
    (hzero : ∀ e ∈ exits, e.amount = some 0) : ¬ FirstPaid given l exits := by
  intro ⟨i, a, _, hequal, _, e, he, hamount⟩
  have ha := Allocation.equal_eq hequal
  rw [ha, hgiven, hzero e (List.mem_of_getElem? he)] at hamount
  have hamount : (0 : Int) = n := Option.some.inj hamount
  omega

/-! ## agreement -/

/-- while the exact surplus is positive, it is what the transfer has left -/
theorem affordsLoop_iff (h : NonNeg l) (hn : 0 < n) (hgiven : given.amount = some n)
    (hsurplus : 0 ≤ surplus)
    (hpaid : exits.map Allocation.amount = (payouts surplus l).map some) :
    ∃ b, affordsLoop given surplus l = .ok b ∧ (b = true ↔ FirstPaid given l exits) := by
  induction l generalizing surplus exits with
  | nil => exact ⟨false, rfl, iff_of_false Bool.false_ne_true not_firstPaid_nil⟩
  | cons a l ih =>
    obtain ⟨e, exits, rfl⟩ : ∃ e es, exits = e :: es := by
      cases exits with
      | nil => cases hpaid
      | cons e es => exact ⟨e, es, rfl⟩
    obtain ⟨he, hrest⟩ := List.cons.inj hpaid
    unfold affordsLoop
    rw [Allocation.equal_of_some h.head hgiven, Res.ok_bind]
    by_cases ha : a = given
    · subst ha
      rw [if_pos (decide_eq_true rfl), hgiven]
      refine ⟨decide (n ≤ surplus), rfl, ?_⟩
      have hvalue : a.value = n := by simp [Allocation.value, hgiven]
      rw [decide_eq_true_iff, firstPaid_cons_self, he, hgiven, hvalue, Option.some_inj]
      omega
    · rw [if_neg (by simp [ha]), h.head, firstPaid_cons ha]
      show ∃ b, (if surplus - a.value ≤ 0 then .ok false
        else affordsLoop given (surplus - a.value) l) = .ok b ∧ _
      have hvalue := h.value a List.mem_cons_self
      by_cases hused : surplus - a.value ≤ 0
      · have hnone : surplus - min a.value surplus = 0 := by omega
        rw [hnone] at hrest
        refine ⟨false, if_pos hused, iff_of_false Bool.false_ne_true ?_⟩
        refine not_firstPaid_of_zero hn hgiven fun x hx => ?_
        have hmem : x.amount ∈ (payouts 0 l).map some := hrest ▸ List.mem_map_of_mem hx
        obtain ⟨p, hp, hx⟩ := List.mem_map.1 hmem
        rw [← hx, payouts_zero h.tail p hp]
      · have hleft : surplus - min a.value surplus = surplus - a.value := by omega
        rw [hleft] at hrest
        rw [if_neg hused]
        exact ih h.tail (by omega) hrest

/-- **`Affords` agrees with the payout rule** -/
theorem affords_iff_firstPaid (h : NonNeg l) (hn : 0 < n) (hgiven : given.amount = some n)
    {funding : Int} (hfunding : 0 ≤ funding) :
    ∃ b news exits, affords l given (some funding) = .ok b ∧
      computeTransferEffectsAndInteractions funding l [] = .ok (news, exits) ∧
      (b = true ↔ FirstPaid given l exits) := by
  obtain ⟨news, exits, hrun, hpaid⟩ := transferLoop_payouts h 0 0 funding
  obtain ⟨b, hb, hiff⟩ := affordsLoop_iff h hn hgiven hfunding hpaid
  exact ⟨b, news, exits, hb, hrun, hiff⟩

/-- five are held, and the second of two allocations of three is not afforded -/
theorem affords_second_of_three :
    affords [⟨1, some 3, 0, []⟩, ⟨2, some 3, 0, []⟩] ⟨2, some 3, 0, []⟩ (some 5) = .ok false ∧
    ∃ b news exits,
      affords [⟨1, some 3, 0, []⟩, ⟨2, some 3, 0, []⟩] ⟨2, some 3, 0, []⟩ (some 5) = .ok b ∧
      computeTransferEffectsAndInteractions 5 [⟨1, some 3, 0, []⟩, ⟨2, some 3, 0, []⟩] [] =
        .ok (news, exits) ∧
      (b = true ↔
        FirstPaid ⟨2, some 3, 0, []⟩ [⟨1, some 3, 0, []⟩, ⟨2, some 3, 0, []⟩] exits) := by
  refine ⟨by decide, affords_iff_firstPaid ?_ (show (0 : Int) < 3 by decide) rfl (by decide)⟩
  intro a ha
  simp only [List.mem_cons, List.not_mem_nil, or_false] at ha
  rcases ha with rfl | rfl
  · exact ⟨3, by decide, rfl⟩
  · exact ⟨3, by decide, rfl⟩

end Allocations

end Nitro
