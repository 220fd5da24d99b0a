import Nitro.Lib.KeyCursor
import Mathlib.Algebra.GroupWithZero.Nat

/-!
# Serving visits out of a surplus

Positions are visited one after the other, each with what is owed to it, and a surplus is used up.  A
position takes what is still owed to it, so that one that was paid takes nothing when it is visited
again.  Either all visits are paid, or a cursor into a list of positions decides which ones are.

* `Served`, `serve`       what was paid, what is left and the cursor, along the visits;
* `sharesOf`              what the visits get, given what those in front of them take;
* `asks`, `liveAsks`      what they take, all of them or without the visits to paid positions;
* `serve_exits`           **what is paid to the listed positions**;
* `SameShares`            when two ways of counting give the listed positions the same.
-/

set_option linter.unusedSectionVars false

namespace Serving
open KeyCursor

/-- all positions are paid, or the cursor stands at this one -/
def selected (listed : List Nat) (k i : Nat) : Bool :=
  listed.isEmpty || decide (k < listed.length ∧ listed[k]? = some i)

/-! ## the loop -/

structure Served where
  exit : Nat → Nat
  surplus : Nat
  k : Nat

section serve
variable (owed : Nat → Nat) (listed : List Nat)

def Served.visit (i : Nat) (s : Served) : Served :=
  if selected listed s.k i then
    ⟨Function.update s.exit i (s.exit i + min (owed i - s.exit i) s.surplus),
      s.surplus - min (owed i - s.exit i) s.surplus, s.k + 1⟩
  else ⟨s.exit, s.surplus - min (owed i - s.exit i) s.surplus, s.k⟩

/-- the positions are visited until the surplus is used up -/
def serve : List Nat → Served → Served
  | [], s => s
  | i :: rest, s => if s.surplus = 0 then s else serve rest (s.visit owed listed i)

variable {owed listed}

/-- a property of the positions that were visited, and of what was made of them -/
theorem serve_run {P : List Nat → Served → Prop} {pos : List Nat} {s : Served}
    (hstep : ∀ front i s, P front s → s.surplus ≠ 0 → P (front ++ [i]) (s.visit owed listed i))
    (hstop : ∀ front i s, P front s → s.surplus = 0 → P (front ++ [i]) s) (h : P [] s) :
    P pos (serve owed listed pos s) := by
  have hrun : ∀ back front s, P front s → P (front ++ back) (serve owed listed back s) := by
    intro back
    induction back with
    | nil =>
      intro front s hs
      rw [List.append_nil]
      exact hs
    | cons i back ih =>
      intro front s hs
      rw [serve, List.append_cons]
      split
      · next h0 =>
        have hback : serve owed listed back s = s := by
          cases back with
          | nil => rfl
          | cons j back => rw [serve, if_pos h0]
        rw [← hback]
        exact ih _ s (hstop front i s hs h0)
      · next h0 => exact ih _ _ (hstep front i s hs h0)
  exact hrun pos [] s h

theorem serve_le (listed pos : List Nat) {s : Served} (h : ∀ i, s.exit i ≤ owed i) (i : Nat) :
    (serve owed listed pos s).exit i ≤ owed i := by
  refine serve_run (P := fun _ s => ∀ i, s.exit i ≤ owed i) (fun _ j s hs _ i => ?_)
    (fun _ _ _ hs _ => hs) h i
  unfold Served.visit
  split
  · show Function.update s.exit j _ i ≤ owed i
    by_cases hij : i = j
    · subst hij
      have hi := hs i
      rw [Function.update_self]
      omega
    · rw [Function.update_of_ne hij]
      exact hs i
  · exact hs i

theorem sum_update {f : Nat → Nat} {n i v : Nat} (hi : i < n) :
    ((List.range n).map (Function.update f i (f i + v))).sum = ((List.range n).map f).sum + v := by
  induction n with
  | zero => exact absurd hi (Nat.not_lt_zero i)
  | succ n ih =>
    rw [List.range_succ, List.map_append, List.map_append, List.sum_append, List.sum_append]
    by_cases hin : i = n
    · subst hin
      have hsame : (List.range i).map (Function.update f i (f i + v)) = (List.range i).map f := by
        refine List.map_congr_left fun j hj => Function.update_of_ne ?_ _ _
        have hlt := List.mem_range.1 hj
        omega
      rw [hsame, List.map_singleton, List.map_singleton, Function.update_self]
      simp only [List.sum_singleton]
      omega
    · rw [ih (by omega), List.map_singleton, List.map_singleton,
        Function.update_of_ne (Ne.symm hin)]
      simp only [List.sum_singleton]
      omega

theorem serve_sum (owed : Nat → Nat) (listed : List Nat) {n S : Nat} {pos : List Nat} {s : Served}
    (hpos : ∀ i ∈ pos, i < n)
    (h : ((List.range n).map s.exit).sum + s.surplus ≤ S) :
    ((List.range n).map (serve owed listed pos s).exit).sum +
      (serve owed listed pos s).surplus ≤ S := by
  induction pos generalizing s with
  | nil => exact h
  | cons i pos ih =>
    rw [serve]
    split
    · exact h
    · refine ih (fun j hj => hpos j (List.mem_cons_of_mem i hj)) ?_
      unfold Served.visit
      split
      · show ((List.range n).map (Function.update s.exit i _)).sum + (s.surplus - _) ≤ S
        rw [sum_update (hpos i List.mem_cons_self)]
        omega
      · show ((List.range n).map s.exit).sum + (s.surplus - _) ≤ S
        omega

end serve
/-! ## what the visits get -/

section shares
variable (owed : Nat → Nat) (S : Nat)

/-- the visited positions with what they get out of `S`, when `before` says how much the visits in
front of them took -/
def sharesOf (before : List Nat → Nat) (seen : List Nat) : List Nat → List (Nat × Nat)
  | [] => []
  | i :: rest => (i, min (owed i) (S - before seen)) :: sharesOf before (seen ++ [i]) rest

/-- all visits take what is owed -/
def asks (front : List Nat) : Nat := (front.map owed).sum

/-- the position was visited after those listed before it were visited in turn -/
def paidBefore (listed front : List Nat) (i : Nat) : Bool :=
  (List.range listed.length).any fun x =>
    decide (listed[x]? = some i) && (listed.take (x + 1)).isSublist front

/-- the visits to positions that were paid before take nothing -/
def liveAsks (listed seen : List Nat) : List Nat → Nat
  | [] => 0
  | i :: rest =>
    (if paidBefore listed seen i = true then 0 else owed i) + liveAsks listed (seen ++ [i]) rest

variable {owed S} {before : List Nat → Nat} {listed : List Nat}

theorem sharesOf_append (seen front back : List Nat) :
    sharesOf owed S before seen (front ++ back) =
      sharesOf owed S before seen front ++ sharesOf owed S before (seen ++ front) back := by
  induction front generalizing seen with
  | nil =>
    rw [List.append_nil]
    rfl
  | cons i front ih =>
    show _ :: sharesOf owed S before (seen ++ [i]) (front ++ back) = _
    rw [ih, ← List.append_cons]
    rfl

theorem map_fst_sharesOf (seen l : List Nat) :
    (sharesOf owed S before seen l).map Prod.fst = l := by
  induction l generalizing seen with
  | nil => rfl
  | cons i l ih =>
    show i :: (sharesOf owed S before (seen ++ [i]) l).map Prod.fst = i :: l
    rw [ih]

theorem sharesOf_snoc (front : List Nat) (i : Nat) :
    sharesOf owed S before [] (front ++ [i]) =
      sharesOf owed S before [] front ++ [(i, min (owed i) (S - before front))] := by
  rw [sharesOf_append, List.nil_append]
  rfl

theorem completes_shares {pos : List Nat} {x i v : Nat} :
    Completes listed (sharesOf owed S before [] pos) x (i, v) ↔
      ∃ front back, pos = front ++ i :: back ∧ (listed.take x).Sublist front ∧
        ¬ (listed.take (x + 1)).Sublist front ∧ v = min (owed i) (S - before front) := by
  constructor
  · rintro ⟨front, back, hsplit, hin, hnot⟩
    have hkeys := congrArg (List.map Prod.fst) hsplit
    rw [map_fst_sharesOf, List.map_append, List.map_cons] at hkeys
    refine ⟨_, _, hkeys, hin, hnot, ?_⟩
    -- the share at the end of the front is the one that `sharesOf` gives there
    rw [hkeys, sharesOf_append, List.nil_append] at hsplit
    have hlen : (sharesOf owed S before [] (front.map Prod.fst)).length = front.length := by
      rw [← List.length_map (f := Prod.fst), map_fst_sharesOf, List.length_map]
    have htail := (List.append_inj hsplit hlen).2
    exact (congrArg Prod.snd (List.cons.inj htail).1).symm
  · rintro ⟨front, back, rfl, hin, hnot, rfl⟩
    refine ⟨sharesOf owed S before [] front, sharesOf owed S before (front ++ [i]) back, ?_, ?_, ?_⟩
    · rw [sharesOf_append, List.nil_append]
      rfl
    · rw [map_fst_sharesOf]
      exact hin
    · rw [map_fst_sharesOf]
      exact hnot

theorem paidBefore_iff (owed : Nat → Nat) (S : Nat) (before : List Nat → Nat) {front : List Nat}
    {i : Nat} : paidBefore listed front i = true ↔
    i ∈ (hits listed (sharesOf owed S before [] front)).map Prod.fst := by
  rw [mem_keys_hits, map_fst_sharesOf]
  unfold paidBefore
  rw [List.any_eq_true]
  constructor
  · rintro ⟨x, -, hx⟩
    rw [Bool.and_eq_true, decide_eq_true_eq, List.isSublist_iff_sublist] at hx
    exact ⟨x, hx⟩
  · rintro ⟨x, hx, hsub⟩
    refine ⟨x, List.mem_range.2 (List.getElem?_eq_some_iff.1 hx).1, ?_⟩
    rw [Bool.and_eq_true, decide_eq_true_eq, List.isSublist_iff_sublist]
    exact ⟨hx, hsub⟩

theorem liveAsks_append (seen front back : List Nat) :
    liveAsks owed listed seen (front ++ back) =
      liveAsks owed listed seen front + liveAsks owed listed (seen ++ front) back := by
  induction front generalizing seen with
  | nil =>
    rw [List.append_nil]
    exact (Nat.zero_add _).symm
  | cons i front ih =>
    show _ + liveAsks owed listed (seen ++ [i]) (front ++ back) = _
    rw [ih, ← List.append_cons, ← Nat.add_assoc]
    rfl

theorem liveAsks_snoc (front : List Nat) (i : Nat) :
    liveAsks owed listed [] (front ++ [i]) =
      liveAsks owed listed [] front + if paidBefore listed front i = true then 0 else owed i := by
  rw [liveAsks_append, List.nil_append]
  rfl

/-! ## what is paid -/

/-- what holds after the positions in `front`, when some are listed -/
structure Follows (owed : Nat → Nat) (S : Nat) (listed front : List Nat) (s : Served) : Prop where
  surplus : s.surplus = S - liveAsks owed listed [] front
  cursor : s.surplus ≠ 0 →
    s.k = (hits listed (sharesOf owed S (liveAsks owed listed []) [] front)).length
  exits : s.exit = write (fun _ => 0)
    (hits listed (sharesOf owed S (liveAsks owed listed []) [] front))

/-- a position that was paid while something is left was paid in full -/
theorem Follows.paid_full {front : List Nat} {s : Served} (h : Follows owed S listed front s)
    (hnodup : listed.Nodup) (hs : s.surplus ≠ 0) {i : Nat}
    (hpaid : paidBefore listed front i = true) : s.exit i = owed i := by
  have hmem := (paidBefore_iff owed S (liveAsks owed listed [])).1 hpaid
  obtain ⟨u, hu, rfl⟩ := List.mem_map.1 hmem
  obtain ⟨x, hx⟩ := List.mem_iff_getElem?.1 hu
  have hkey := key_of_hit hx
  obtain ⟨f, b, rfl, hin, hnot, hv⟩ := completes_shares.1 (completes_of_hit hx)
  have hfirst : ¬ paidBefore listed f u.1 = true := by
    rw [paidBefore_iff owed S (liveAsks owed listed []), mem_keys_hits, map_fst_sharesOf]
    rintro ⟨y, hy, hsub⟩
    obtain ⟨hxlt, hxu⟩ := List.getElem?_eq_some_iff.1 hkey
    obtain ⟨hylt, hyu⟩ := List.getElem?_eq_some_iff.1 hy
    have hxy : y = x := (List.Nodup.getElem_inj_iff hnodup).1 (hyu.trans hxu.symm)
    rw [hxy] at hsub
    exact hnot hsub
  have hlive : liveAsks owed listed [] (f ++ u.1 :: b) ≥ liveAsks owed listed [] f + owed u.1 := by
    rw [List.append_cons, liveAsks_append, liveAsks_snoc, if_neg hfirst]
    exact Nat.le_add_right _ _
  have hsurplus := h.surplus
  rcases write_hits (fun _ => 0) (sharesOf owed S (liveAsks owed listed []) [] (f ++ u.1 :: b))
    hnodup hkey with ⟨u', hu', -, hval⟩ | ⟨hnone, -⟩
  · rw [hx] at hu'
    cases hu'
    rw [h.exits, hval, hv]
    omega
  · rw [hx] at hnone
    cases hnone

theorem selected_iff {k i : Nat} (hne : listed ≠ []) :
    selected listed k i = true ↔ listed[k]? = some i := by
  unfold selected
  rw [Bool.or_eq_true, decide_eq_true_eq]
  constructor
  · rintro (hempty | ⟨-, hk⟩)
    · exact absurd (List.isEmpty_iff.1 hempty) hne
    · exact hk
  · exact fun hk => .inr ⟨(List.getElem?_eq_some_iff.1 hk).1, hk⟩

theorem Follows.step {front : List Nat} {s : Served} {i : Nat} (h : Follows owed S listed front s)
    (hne : listed ≠ []) (hnodup : listed.Nodup) (hs : s.surplus ≠ 0) :
    Follows owed S listed (front ++ [i]) (s.visit owed listed i) := by
  have hk := h.cursor hs
  have hsurplus := h.surplus
  by_cases hpaid : paidBefore listed front i = true
  · have hzero : min (owed i - s.exit i) s.surplus = 0 := by
      rw [h.paid_full hnodup hs hpaid]
      omega
    have hnext : listed[(hits listed
        (sharesOf owed S (liveAsks owed listed []) [] front)).length]? ≠ some i :=
      fun hc => cursor_notMem hnodup hc ((paidBefore_iff _ _ _).1 hpaid)
    have hnot : ¬ selected listed s.k i = true := by
      rw [selected_iff hne, hk]
      exact hnext
    have hsame : hits listed (sharesOf owed S (liveAsks owed listed []) [] (front ++ [i])) =
        hits listed (sharesOf owed S (liveAsks owed listed []) [] front) := by
      rw [sharesOf_snoc, hits_snoc, if_neg hnext]
    unfold Served.visit
    rw [if_neg hnot, hzero]
    refine ⟨?_, fun _ => ?_, ?_⟩
    · show s.surplus - 0 = _
      rw [liveAsks_snoc, if_pos hpaid]
      omega
    · rw [hsame]
      exact hk
    · rw [hsame]
      exact h.exits
  · have hexit : s.exit i = 0 := by
      rw [h.exits, write_of_notMem fun hmem => hpaid ((paidBefore_iff _ _ _).2 hmem)]
    have hlive : S - liveAsks owed listed [] (front ++ [i]) =
        s.surplus - min (owed i - s.exit i) s.surplus := by
      rw [liveAsks_snoc, if_neg hpaid, hexit]
      omega
    unfold Served.visit
    by_cases hc : listed[(hits listed
        (sharesOf owed S (liveAsks owed listed []) [] front)).length]? = some i
    · have hsame : hits listed (sharesOf owed S (liveAsks owed listed []) [] (front ++ [i])) =
          hits listed (sharesOf owed S (liveAsks owed listed []) [] front) ++
            [(i, min (owed i) (S - liveAsks owed listed [] front))] := by
        rw [sharesOf_snoc, hits_snoc, if_pos hc]
      rw [if_pos ((selected_iff hne).2 (hk ▸ hc))]
      refine ⟨hlive.symm, fun _ => ?_, ?_⟩
      · rw [hsame, List.length_append, List.length_singleton, ← hk]
      · rw [hsame, write_append, ← h.exits, ← hsurplus]
        show Function.update s.exit i _ = Function.update s.exit i _
        rw [hexit, Nat.zero_add, Nat.sub_zero]
    · have hsame : hits listed (sharesOf owed S (liveAsks owed listed []) [] (front ++ [i])) =
          hits listed (sharesOf owed S (liveAsks owed listed []) [] front) := by
        rw [sharesOf_snoc, hits_snoc, if_neg hc]
      rw [if_neg fun hp => hc (hk ▸ (selected_iff hne).1 hp)]
      refine ⟨hlive.symm, fun _ => ?_, ?_⟩
      · rw [hsame]
        exact hk
      · rw [hsame]
        exact h.exits

theorem Follows.stop {front : List Nat} {s : Served} {i : Nat} (h : Follows owed S listed front s)
    (hnodup : listed.Nodup) (hs : s.surplus = 0) : Follows owed S listed (front ++ [i]) s := by
  have hsurplus := h.surplus
  have hzero : S - liveAsks owed listed [] front = 0 := by omega
  refine ⟨?_, fun hne => absurd hs hne, ?_⟩
  · rw [liveAsks_snoc]
    omega
  · rw [sharesOf_snoc, hits_snoc]
    split
    · next hc =>
      rw [write_append, ← h.exits, hzero, Nat.min_zero]
      funext j
      show s.exit j = Function.update s.exit i 0 j
      by_cases hji : j = i
      · subst hji
        rw [Function.update_self, h.exits, write_of_notMem (cursor_notMem hnodup hc)]
      · rw [Function.update_of_ne hji]
    · exact h.exits

/-- **what the emulation pays to the listed positions** -/
theorem serve_exits (hne : listed ≠ []) (hnodup : listed.Nodup) (pos : List Nat) :
    (serve owed listed pos ⟨fun _ => 0, S, 0⟩).exit =
      write (fun _ => 0) (hits listed (sharesOf owed S (liveAsks owed listed []) [] pos)) := by
  refine (serve_run (P := Follows owed S listed) (fun front i s h hs => h.step hne hnodup hs)
    (fun front i s h hs => h.stop hnodup hs) ⟨?_, fun _ => ?_, ?_⟩).exits
  · exact (Nat.sub_zero S).symm
  · cases listed <;> rfl
  · cases listed <;> rfl

/-! ## two ways of counting -/

/-- every listed position gets the same from `before` as from `before'` -/
def SameShares (owed : Nat → Nat) (S : Nat) (before before' : List Nat → Nat)
    (listed pos : List Nat) : Prop :=
  ∀ x i front back, listed[x]? = some i → pos = front ++ i :: back →
    (listed.take x).Sublist front → ¬ (listed.take (x + 1)).Sublist front →
    min (owed i) (S - before front) = min (owed i) (S - before' front)

theorem write_shares (owed : Nat → Nat) (S : Nat) (before : List Nat → Nat) {pos : List Nat}
    {x i v : Nat} (hnodup : listed.Nodup) (hx : listed[x]? = some i)
    (h : Completes listed (sharesOf owed S before [] pos) x (i, v)) :
    write (fun _ => 0) (hits listed (sharesOf owed S before [] pos)) i = v := by
  have hhit := (getElem?_hits_iff _ hx).2 h
  rcases write_hits (fun _ => 0) (sharesOf owed S before [] pos) hnodup hx with
    ⟨u, hu, -, hval⟩ | ⟨hnone, -⟩
  · rw [hhit] at hu
    cases hu
    exact hval
  · rw [hhit] at hnone
    cases hnone

theorem write_shares_iff {before' : List Nat → Nat} (hnodup : listed.Nodup) (pos : List Nat) :
    write (fun _ => 0) (hits listed (sharesOf owed S before [] pos)) =
        write (fun _ => 0) (hits listed (sharesOf owed S before' [] pos)) ↔
      SameShares owed S before before' listed pos := by
  constructor
  · intro hsame x i front back hx hpos hin hnot
    have hleft := write_shares owed S before hnodup hx
      (completes_shares.2 ⟨front, back, hpos, hin, hnot, rfl⟩)
    have hright := write_shares owed S before' hnodup hx
      (completes_shares.2 ⟨front, back, hpos, hin, hnot, rfl⟩)
    rw [hsame] at hleft
    exact hleft.symm.trans hright
  · intro hshares
    funext i
    by_cases hi : i ∈ listed
    · obtain ⟨x, hx⟩ := List.mem_iff_getElem?.1 hi
      rcases write_hits (fun _ => 0) (sharesOf owed S before [] pos) hnodup hx with
        ⟨u, hu, rfl, hval⟩ | ⟨hnone, hval⟩
      · obtain ⟨front, back, hpos, hin, hnot, hv⟩ := completes_shares.1 (completes_of_hit hu)
        rw [hval, hv, hshares x _ front back hx hpos hin hnot]
        exact (write_shares owed S before' hnodup hx
          (completes_shares.2 ⟨front, back, hpos, hin, hnot, rfl⟩)).symm
      · rcases write_hits (fun _ => 0) (sharesOf owed S before' [] pos) hnodup hx with
          ⟨u, hu, rfl, -⟩ | ⟨-, hval'⟩
        · -- the same visit would have been paid on the other side
          obtain ⟨front, back, hpos, hin, hnot, -⟩ := completes_shares.1 (completes_of_hit hu)
          have hhit := (getElem?_hits_iff (sharesOf owed S before [] pos) hx).2
            (completes_shares.2 ⟨front, back, hpos, hin, hnot, rfl⟩)
          rw [hnone] at hhit
          cases hhit
        · rw [hval, hval']
    · rw [write_hits_of_notMem hi, write_hits_of_notMem hi]

end shares

end Serving
