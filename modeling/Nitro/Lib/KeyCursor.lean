import Mathlib.Data.List.Infix
import Mathlib.Data.List.Nodup
import Mathlib.Logic.Function.Basic

/-!
# A cursor into a list of keys

Keys are visited in some order, each visit with a value.  A cursor stands at the first of the listed
keys and moves on when that key is visited; only these visits count.

* `hits keys visits`        the visits that count;
* `Completes`               the visit at which the keys up to a position have been visited in turn;
* `getElem?_hits_iff`       **this visit is the one that counts for the position**;
* `write`                   the values that visits leave, the last one for each key.
-/

set_option linter.unusedSectionVars false

namespace KeyCursor
variable {κ ν : Type} [DecidableEq κ]

def hits : List κ → List (κ × ν) → List (κ × ν)
  | [], _ => []
  | _ :: _, [] => []
  | k :: keys, v :: visits => if k = v.1 then v :: hits keys visits else hits (k :: keys) visits

variable {keys : List κ} {visits : List (κ × ν)} {x : Nat} {k w : κ} {u v : κ × ν}

theorem hits_nil (visits : List (κ × ν)) : hits [] visits = [] := by
  unfold hits
  rfl

theorem hits_cons_pos (h : k = v.1) : hits (k :: keys) (v :: visits) = v :: hits keys visits := by
  rw [hits, if_pos h]

theorem hits_cons_neg (h : k ≠ v.1) : hits (k :: keys) (v :: visits) = hits (k :: keys) visits := by
  rw [hits, if_neg h]

theorem hits_sublist (keys : List κ) (visits : List (κ × ν)) : (hits keys visits).Sublist visits := by
  induction visits generalizing keys with
  | nil => cases keys <;> exact List.nil_sublist _
  | cons v visits ih =>
    cases keys with
    | nil => exact List.nil_sublist _
    | cons k keys =>
      by_cases h : k = v.1
      · rw [hits_cons_pos h]
        exact (ih keys).cons_cons v
      · rw [hits_cons_neg h]
        exact (ih (k :: keys)).cons v

/-- the keys of the visits that count are the first keys of the list -/
theorem map_fst_hits (keys : List κ) (visits : List (κ × ν)) :
    (hits keys visits).map Prod.fst <+: keys := by
  induction visits generalizing keys with
  | nil => cases keys <;> exact List.nil_prefix
  | cons v visits ih =>
    cases keys with
    | nil => exact List.nil_prefix
    | cons k keys =>
      by_cases h : k = v.1
      · rw [hits_cons_pos h, List.map_cons, ← h]
        exact List.cons_prefix_cons.2 ⟨rfl, ih keys⟩
      · rw [hits_cons_neg h]
        exact ih (k :: keys)

theorem key_of_hit (h : (hits keys visits)[x]? = some u) : keys[x]? = some u.1 := by
  have hkey : ((hits keys visits).map Prod.fst)[x]? = some u.1 := by
    rw [List.getElem?_map, h]
    rfl
  obtain ⟨rest, hrest⟩ := map_fst_hits keys visits
  rw [← hrest, List.getElem?_append_left (List.getElem?_eq_some_iff.1 hkey).1, hkey]

theorem hits_append (keys : List κ) (visits more : List (κ × ν)) :
    hits keys (visits ++ more) =
      hits keys visits ++ hits (keys.drop (hits keys visits).length) more := by
  induction visits generalizing keys with
  | nil => cases keys <;> rfl
  | cons v visits ih =>
    cases keys with
    | nil =>
      rw [hits_nil, hits_nil, List.drop_nil, hits_nil]
      rfl
    | cons k keys =>
      rw [List.cons_append]
      by_cases h : k = v.1
      · rw [hits_cons_pos h, hits_cons_pos h, ih]
        rfl
      · rw [hits_cons_neg h, hits_cons_neg h, ih]

/-- one more visit counts if it is to the key the cursor stands at -/
theorem hits_snoc (keys : List κ) (visits : List (κ × ν)) (v : κ × ν) :
    hits keys (visits ++ [v]) =
      if keys[(hits keys visits).length]? = some v.1 then hits keys visits ++ [v]
      else hits keys visits := by
  rw [hits_append]
  cases hrest : keys.drop (hits keys visits).length with
  | nil =>
    have hend : keys[(hits keys visits).length]? = none :=
      List.getElem?_eq_none_iff.2 (List.drop_eq_nil_iff.1 hrest)
    rw [hits_nil, List.append_nil, hend, if_neg fun h => by cases h]
  | cons k rest =>
    have hkey : keys[(hits keys visits).length]? = some k := by
      have hhead := congrArg (fun l => l[0]?) hrest
      simpa using hhead
    rw [hkey]
    by_cases h : k = v.1
    · rw [hits_cons_pos h, if_pos (congrArg some h)]
      cases rest <;> rfl
    · rw [hits_cons_neg h, if_neg fun hk => h (Option.some.inj hk)]
      exact List.append_nil _

/-! ## which visits count -/

/-- the keys before position `x` are visited in turn in front of `u`, and with `u` so are those up to
`x`, for the first time -/
def Completes (keys : List κ) (visits : List (κ × ν)) (x : Nat) (u : κ × ν) : Prop :=
  ∃ front back, visits = front ++ u :: back ∧ (keys.take x).Sublist (front.map Prod.fst) ∧
    ¬ (keys.take (x + 1)).Sublist (front.map Prod.fst)

theorem Completes.cons_pos (h : Completes keys visits x u) :
    Completes (v.1 :: keys) (v :: visits) (x + 1) u := by
  obtain ⟨front, back, rfl, hin, hnot⟩ := h
  refine ⟨v :: front, back, rfl, ?_, ?_⟩
  · exact hin.cons_cons v.1
  · intro hsub
    exact hnot (List.cons_sublist_cons.1 hsub)

theorem Completes.cons_neg (hk : k ≠ v.1) (h : Completes (k :: keys) visits x u) :
    Completes (k :: keys) (v :: visits) x u := by
  obtain ⟨front, back, rfl, hin, hnot⟩ := h
  refine ⟨v :: front, back, rfl, hin.cons v.1, fun hsub => hnot ?_⟩
  rw [List.take_succ_cons] at hsub ⊢
  rcases List.sublist_cons_iff.1 hsub with hsub | ⟨r, hr, -⟩
  · exact hsub
  · exact absurd (List.cons.inj hr).1 hk

theorem completes_of_hit (h : (hits keys visits)[x]? = some u) : Completes keys visits x u := by
  induction visits generalizing keys x with
  | nil => cases keys <;> cases h
  | cons v visits ih =>
    cases keys with
    | nil => cases h
    | cons k keys =>
      by_cases hk : k = v.1
      · subst hk
        rw [hits_cons_pos rfl] at h
        cases x with
        | zero =>
          cases h
          refine ⟨[], visits, rfl, List.Sublist.refl _, fun hsub => ?_⟩
          cases hsub
        | succ x => exact (ih h).cons_pos
      · rw [hits_cons_neg hk] at h
        exact (ih h).cons_neg hk

theorem exists_hit (hsub : (keys.take (x + 1)).Sublist (visits.map Prod.fst)) (hw : keys[x]? = some w) :
    ∃ u, (hits keys visits)[x]? = some u := by
  induction visits generalizing keys x with
  | nil =>
    cases keys with
    | nil => cases hw
    | cons k keys => cases hsub
  | cons v visits ih =>
    cases keys with
    | nil => cases hw
    | cons k keys =>
      by_cases hk : k = v.1
      · rw [hits_cons_pos hk]
        cases x with
        | zero => exact ⟨v, rfl⟩
        | succ x =>
          rw [List.take_succ_cons, List.map_cons, hk] at hsub
          exact ih (List.cons_sublist_cons.1 hsub) hw
      · rw [hits_cons_neg hk]
        refine ih ?_ hw
        rw [List.take_succ_cons] at hsub ⊢
        rcases List.sublist_cons_iff.1 hsub with hsub | ⟨r, hr, -⟩
        · exact hsub
        · exact absurd (List.cons.inj hr).1 hk

theorem Completes.take (h : Completes keys visits x u) (hw : keys[x]? = some u.1) :
    ∃ front back, visits = front ++ u :: back ∧
      (keys.take (x + 1)).Sublist ((front ++ [u]).map Prod.fst) ∧
      ¬ (keys.take (x + 1)).Sublist (front.map Prod.fst) := by
  obtain ⟨front, back, hsplit, hin, hnot⟩ := h
  refine ⟨front, back, hsplit, ?_, hnot⟩
  rw [List.take_add_one, hw, List.map_append]
  exact hin.append (List.Sublist.refl _)

theorem Completes.unique (h : Completes keys visits x u) (h' : Completes keys visits x v)
    (hu : keys[x]? = some u.1) (hv : keys[x]? = some v.1) : u = v := by
  obtain ⟨front, back, hsplit, hin, hnot⟩ := h.take hu
  obtain ⟨front', back', hsplit', hin', hnot'⟩ := h'.take hv
  have hfront : ∀ {f f' : List (κ × ν)} {a b : κ × ν} {r r' : List (κ × ν)},
      f ++ a :: r = f' ++ b :: r' → f.length < f'.length → f ++ [a] <+: f' := by
    intro f f' a b r r' heq hlt
    have hone : f ++ [a] <+: f' ++ b :: r' := ⟨r, by rw [List.append_assoc]; exact heq⟩
    refine List.prefix_of_prefix_length_le hone (List.prefix_append _ _) ?_
    rw [List.length_append, List.length_singleton]
    exact hlt
  rw [hsplit] at hsplit'
  rcases Nat.lt_trichotomy front.length front'.length with hlt | heq | hgt
  · exact absurd (hin.trans ((hfront hsplit' hlt).sublist.map _)) hnot'
  · exact (List.cons.inj (List.append_inj hsplit' heq).2).1
  · exact absurd (hin'.trans ((hfront hsplit'.symm hgt).sublist.map _)) hnot

/-- **the visit that counts for a position** is the one that completes the keys up to it -/
theorem getElem?_hits_iff (visits : List (κ × ν)) {a : ν} (hw : keys[x]? = some w) :
    (hits keys visits)[x]? = some (w, a) ↔ Completes keys visits x (w, a) := by
  refine ⟨completes_of_hit, fun h => ?_⟩
  obtain ⟨front, back, rfl, hin, -⟩ := h.take hw
  have hsub : (keys.take (x + 1)).Sublist ((front ++ (w, a) :: back).map Prod.fst) := by
    refine hin.trans (List.Sublist.map _ ?_)
    exact (List.Sublist.refl front).append (List.nil_sublist back |>.cons_cons (w, a))
  obtain ⟨v, hv⟩ := exists_hit hsub hw
  rw [hv, (completes_of_hit hv).unique h (key_of_hit hv) hw]

theorem mem_keys_hits : w ∈ (hits keys visits).map Prod.fst ↔
    ∃ x, keys[x]? = some w ∧ (keys.take (x + 1)).Sublist (visits.map Prod.fst) := by
  constructor
  · intro hmem
    obtain ⟨u, hu, rfl⟩ := List.mem_map.1 hmem
    obtain ⟨x, hx⟩ := List.mem_iff_getElem?.1 hu
    obtain ⟨front, back, rfl, hin, -⟩ := (completes_of_hit hx).take (key_of_hit hx)
    refine ⟨x, key_of_hit hx, hin.trans (List.Sublist.map _ ?_)⟩
    exact (List.Sublist.refl front).append (List.nil_sublist back |>.cons_cons u)
  · rintro ⟨x, hw, hsub⟩
    obtain ⟨u, hu⟩ := exists_hit hsub hw
    have hkey : u.1 = w := Option.some.inj ((key_of_hit hu).symm.trans hw)
    rw [← hkey]
    exact List.mem_map_of_mem (List.mem_of_getElem? hu)

/-! ## what visits leave -/

/-- a later visit to a key replaces the value of an earlier one -/
def write (e : κ → ν) (visits : List (κ × ν)) : κ → ν :=
  visits.foldl (fun e v => Function.update e v.1 v.2) e

variable {e : κ → ν}

theorem write_append (l l' : List (κ × ν)) : write e (l ++ l') = write (write e l) l' :=
  List.foldl_append

theorem write_of_notMem (h : w ∉ visits.map Prod.fst) : write e visits w = e w := by
  induction visits generalizing e with
  | nil => rfl
  | cons v visits ih =>
    rw [List.map_cons, List.mem_cons, not_or] at h
    show write (Function.update e v.1 v.2) visits w = e w
    rw [ih h.2, Function.update_of_ne h.1]

theorem write_mem (h : w ∈ visits.map Prod.fst) : (w, write e visits w) ∈ visits := by
  induction visits generalizing e with
  | nil => cases h
  | cons v visits ih =>
    show (w, write (Function.update e v.1 v.2) visits w) ∈ v :: visits
    by_cases hrest : w ∈ visits.map Prod.fst
    · exact List.mem_cons_of_mem v (ih hrest)
    · rw [write_of_notMem hrest]
      rw [List.map_cons, List.mem_cons] at h
      obtain rfl := h.resolve_right hrest
      rw [Function.update_self]
      exact List.mem_cons_self

theorem write_getElem? (hnodup : (visits.map Prod.fst).Nodup) (h : visits[x]? = some u) :
    write e visits u.1 = u.2 := by
  have hmem : (u.1, write e visits u.1) ∈ visits :=
    write_mem (List.mem_map_of_mem (List.mem_of_getElem? h))
  have huniq := List.inj_on_of_nodup_map hnodup hmem (List.mem_of_getElem? h) rfl
  exact congrArg Prod.snd huniq

theorem write_hits (e : κ → ν) (visits : List (κ × ν)) (hnodup : keys.Nodup)
    (hw : keys[x]? = some w) :
    (∃ u, (hits keys visits)[x]? = some u ∧ u.1 = w ∧ write e (hits keys visits) w = u.2) ∨
      (hits keys visits)[x]? = none ∧ write e (hits keys visits) w = e w := by
  have hfirst := map_fst_hits keys visits
  have hnodup' : ((hits keys visits).map Prod.fst).Nodup := hnodup.sublist hfirst.sublist
  cases hx : (hits keys visits)[x]? with
  | some u =>
    have hu : u.1 = w := Option.some.inj ((key_of_hit hx).symm.trans hw)
    subst hu
    exact .inl ⟨u, rfl, rfl, write_getElem? hnodup' hx⟩
  | none =>
    refine .inr ⟨rfl, write_of_notMem fun hmem => ?_⟩
    -- the key would be hit at another position, where the list has it as well
    obtain ⟨u, hu, rfl⟩ := List.mem_map.1 hmem
    obtain ⟨y, hy⟩ := List.mem_iff_getElem?.1 hu
    have hkey := key_of_hit hy
    obtain ⟨hxlt, hxw⟩ := List.getElem?_eq_some_iff.1 hw
    obtain ⟨hylt, hyw⟩ := List.getElem?_eq_some_iff.1 hkey
    have hxy : x = y := (List.Nodup.getElem_inj_iff hnodup).1 (hxw.trans hyw.symm)
    rw [hxy, hy] at hx
    cases hx

theorem write_hits_of_notMem (hw : w ∉ keys) : write e (hits keys visits) w = e w :=
  write_of_notMem fun hmem => hw ((map_fst_hits keys visits).sublist.subset hmem)

theorem cursor_notMem (hnodup : keys.Nodup)
    (hw : keys[(hits keys visits).length]? = some w) : w ∉ (hits keys visits).map Prod.fst := by
  intro hmem
  obtain ⟨u, hu, rfl⟩ := List.mem_map.1 hmem
  obtain ⟨y, hy⟩ := List.mem_iff_getElem?.1 hu
  obtain ⟨hlt, hxw⟩ := List.getElem?_eq_some_iff.1 hw
  obtain ⟨hylt, hyw⟩ := List.getElem?_eq_some_iff.1 (key_of_hit hy)
  have hsame : (hits keys visits).length = y :=
    (List.Nodup.getElem_inj_iff hnodup).1 (hxw.trans hyw.symm)
  rw [← hsame] at hy
  exact absurd (List.getElem?_eq_some_iff.1 hy).1 (Nat.lt_irrefl _)

theorem write_hits_append (hnodup : keys.Nodup) {more : List (κ × ν)}
    (hmore : ∀ u ∈ more, u.2 = e u.1) :
    write e (hits keys (visits ++ more)) = write e (hits keys visits) := by
  funext w
  rw [hits_append, write_append]
  by_cases hw : w ∈ (hits (keys.drop (hits keys visits).length) more).map Prod.fst
  · have hold : w ∉ (hits keys visits).map Prod.fst := by
      intro hmem
      have htake : w ∈ keys.take (hits keys visits).length := by
        have hlen := List.prefix_iff_eq_take.1 (map_fst_hits keys visits)
        rw [List.length_map] at hlen
        rwa [← hlen]
      have hdrop := (map_fst_hits (keys.drop (hits keys visits).length) more).sublist.subset hw
      exact List.disjoint_of_nodup_append
        (by rw [List.take_append_drop]; exact hnodup) htake hdrop
    have hlast := (hits_sublist (keys.drop (hits keys visits).length) more).subset
      (write_mem (e := write e (hits keys visits)) hw)
    exact (hmore _ hlast).trans (write_of_notMem hold).symm
  · exact write_of_notMem hw

end KeyCursor
