import Mathlib.Algebra.BigOperators.Group.Multiset.Basic
import Mathlib.Algebra.Group.Int.Defs
import Mathlib.Data.Finmap
import Mathlib.Data.List.Sort

/-!
# Finite maps: building, summing and listing in key order

What the standard `Finmap` lacks for programs that range over their maps.

* `FinMap.ofKeys keys val`      the map with the given keys and values;
* `FinMap.mapValues f m`        the same keys and `f` of the values;
* `FinMap.fill key val m l`     the map after one insertion for each element of a list, and when it
                                is the old one;
* `FinMap.all q m`, `FinMap.any q m`   does every key, some key have the property;
* `FinMap.total f m`            the sum of `f` over the values, and how it changes under `insert`
                                and `erase`;
* `FinMap.sortedKeys r m`       the keys in the order `r`, whatever the order of the entries.
-/

set_option linter.unusedSectionVars false

namespace FinMap
variable {κ ν : Type}

abbrev Map (κ ν : Type) := Finmap (fun _ : κ => ν)

/-! ## maps given by their keys -/

def ofKeys (keys : Finset κ) (val : κ → ν) : Map κ ν where
  entries := keys.val.map fun k => ⟨k, val k⟩
  nodupKeys := by
    rw [← Multiset.nodup_keys]
    unfold Multiset.keys
    rw [Multiset.map_map]
    simpa [Function.comp_def] using keys.nodup

variable [DecidableEq κ]

theorem lookup_ofKeys (keys : Finset κ) (val : κ → ν) (k : κ) :
    (ofKeys keys val).lookup k = if k ∈ keys then some (val k) else none := by
  split
  · next h =>
    refine Finmap.lookup_eq_some_iff.2 ?_
    exact Multiset.mem_map.2 ⟨k, h, rfl⟩
  · next h =>
    refine Finmap.lookup_eq_none.2 fun hk => h ?_
    obtain ⟨v, hv⟩ := Finmap.mem_iff.1 hk
    obtain ⟨k', hk', e⟩ := Multiset.mem_map.1 (Finmap.lookup_eq_some_iff.1 hv)
    cases e
    exact hk'

theorem keys_ofKeys (keys : Finset κ) (val : κ → ν) : (ofKeys keys val).keys = keys := by
  ext k
  rw [Finmap.mem_keys, ← Finmap.lookup_isSome, lookup_ofKeys]
  by_cases h : k ∈ keys <;> simp [h]

/-- the map with `f` applied to every value -/
def mapValues {μ : Type} [Inhabited μ] (f : ν → μ) (m : Map κ ν) : Map κ μ :=
  ofKeys m.keys fun k => ((m.lookup k).map f).getD default

theorem lookup_mapValues {μ : Type} [Inhabited μ] (f : ν → μ) (m : Map κ ν) (k : κ) :
    (mapValues f m).lookup k = (m.lookup k).map f := by
  unfold mapValues
  rw [lookup_ofKeys]
  by_cases h : k ∈ m
  · obtain ⟨v, hv⟩ := Finmap.mem_iff.1 h
    rw [if_pos (Finmap.mem_keys.2 h), hv]
    rfl
  · rw [if_neg fun hk => h (Finmap.mem_keys.1 hk), Finmap.lookup_eq_none.2 h]
    rfl

/-! ## maps filled by a loop -/

section fill
variable {ι : Type} (key : ι → κ) (val : ι → ν)

/-- one insertion for each element of the list, a later one replacing an earlier one -/
def fill (m : Map κ ν) (l : List ι) : Map κ ν := l.foldl (fun m a => m.insert (key a) (val a)) m

theorem lookup_fill_of_notMem {l : List ι} {k : κ} (h : ∀ a ∈ l, key a ≠ k) (m : Map κ ν) :
    (fill key val m l).lookup k = m.lookup k := by
  induction l generalizing m with
  | nil => rfl
  | cons a l ih =>
    show (fill key val (m.insert (key a) (val a)) l).lookup k = m.lookup k
    rw [ih (fun b hb => h b (List.mem_cons_of_mem a hb)),
      Finmap.lookup_insert_of_ne _ (Ne.symm (h a List.mem_cons_self))]

theorem lookup_fill_of_mem {l : List ι} (hl : l.Pairwise fun a b => key a ≠ key b) {a : ι}
    (ha : a ∈ l) (m : Map κ ν) : (fill key val m l).lookup (key a) = some (val a) := by
  induction l generalizing m with
  | nil => exact absurd ha List.not_mem_nil
  | cons b l ih =>
    obtain ⟨hb, hl⟩ := List.pairwise_cons.1 hl
    show (fill key val (m.insert (key b) (val b)) l).lookup (key a) = _
    rcases List.mem_cons.1 ha with rfl | ha
    · rw [lookup_fill_of_notMem key val (fun c hc => Ne.symm (hb c hc)), Finmap.lookup_insert]
    · exact ih hl ha _

/-- an element after which no other has its key -/
def Latest (l : List ι) (a : ι) : Prop := ∃ l₁ l₂, l = l₁ ++ a :: l₂ ∧ ∀ b ∈ l₂, key b ≠ key a

theorem exists_latest {l : List ι} {k : κ} (h : ∃ a ∈ l, key a = k) :
    ∃ a, Latest key l a ∧ key a = k := by
  induction l with
  | nil =>
    obtain ⟨a, ha, -⟩ := h
    exact absurd ha List.not_mem_nil
  | cons c l ih =>
    by_cases hlater : ∃ a ∈ l, key a = k
    · obtain ⟨a, ⟨l₁, l₂, hl, hlast⟩, hkey⟩ := ih hlater
      exact ⟨a, ⟨c :: l₁, l₂, by rw [hl]; rfl, hlast⟩, hkey⟩
    · obtain ⟨a, ha, hkey⟩ := h
      rcases List.mem_cons.1 ha with rfl | ha
      · exact ⟨a, ⟨[], l, rfl, fun b hb hba => hlater ⟨b, hb, hba.trans hkey⟩⟩, hkey⟩
      · exact absurd ⟨a, ha, hkey⟩ hlater

theorem lookup_fill_latest {l : List ι} {a : ι} (h : Latest key l a) (m : Map κ ν) :
    (fill key val m l).lookup (key a) = some (val a) := by
  obtain ⟨l₁, l₂, rfl, hlast⟩ := h
  unfold fill
  rw [List.foldl_append, List.foldl_cons]
  show (fill key val ((fill key val m l₁).insert (key a) (val a)) l₂).lookup (key a) = _
  rw [lookup_fill_of_notMem key val hlast, Finmap.lookup_insert]

/-- **a loop that changes nothing**: what it leaves under each key was there -/
theorem fill_eq_self_iff {l : List ι} {m : Map κ ν} :
    fill key val m l = m ↔ ∀ a, Latest key l a → m.lookup (key a) = some (val a) := by
  constructor
  · intro h a ha
    have hlast := lookup_fill_latest key val ha m
    rw [h] at hlast
    exact hlast
  · intro h
    refine Finmap.ext_lookup fun x => ?_
    by_cases hx : ∃ a ∈ l, key a = x
    · obtain ⟨a, ha, rfl⟩ := exists_latest key hx
      rw [lookup_fill_latest key val ha, h a ha]
    · exact lookup_fill_of_notMem key val (fun a ha hax => hx ⟨a, ha, hax⟩) m

end fill

/-! ## loops that look for a key -/

section search
variable (q : κ → Prop) [DecidablePred q]

/-- every key has the property -/
def all (m : Map κ ν) : Bool := decide (∀ k ∈ m.keys, q k)

/-- some key has the property -/
def any (m : Map κ ν) : Bool := decide (∃ k ∈ m.keys, q k)

variable {q} {m : Map κ ν}

theorem all_eq_true : all q m = true ↔ ∀ k ∈ m, q k := by
  simp [all, Finmap.mem_keys]

theorem any_eq_false : any q m = false ↔ ∀ k ∈ m, ¬ q k := by
  simp [any, Finmap.mem_keys]

end search

/-! ## the sum over the values -/

def total (f : ν → Int) (m : Map κ ν) : Int := (m.entries.map fun e => f e.2).sum

theorem total_insert {f : ν → Int} {m : Map κ ν} {k : κ} (v : ν) (h : k ∉ m) :
    total f (m.insert k v) = f v + total f m := by
  unfold total
  rw [Finmap.entries_insert_of_notMem h, Multiset.map_cons, Multiset.sum_cons]

theorem insert_erase {m : Map κ ν} {k : κ} {v : ν} (h : m.lookup k = some v) :
    (m.erase k).insert k v = m := by
  refine Finmap.ext_lookup fun x => ?_
  by_cases hx : x = k
  · subst hx
    rw [Finmap.lookup_insert, h]
  · rw [Finmap.lookup_insert_of_ne _ hx, Finmap.lookup_erase_ne hx]

theorem total_erase {f : ν → Int} {m : Map κ ν} {k : κ} {v : ν} (h : m.lookup k = some v) :
    total f m = f v + total f (m.erase k) := by
  conv_lhs => rw [← insert_erase h]
  exact total_insert v Finmap.notMem_erase_self

/-! ## keys in order -/

section sorted
variable (r : κ → κ → Prop) [DecidableRel r] [IsTrans κ r] [Std.Antisymm r] [Std.Total r]

def sortedKeys (m : Map κ ν) : List κ :=
  Quot.liftOn m.keys.val (List.insertionSort r) fun l₁ l₂ h =>
    ((List.perm_insertionSort r l₁).trans (h.trans (List.perm_insertionSort r l₂).symm)).eq_of_pairwise
      (fun _ _ _ _ => Std.Antisymm.antisymm _ _)
      (List.pairwise_insertionSort r l₁) (List.pairwise_insertionSort r l₂)

theorem mem_sortedKeys {m : Map κ ν} {k : κ} : k ∈ sortedKeys r m ↔ k ∈ m := by
  rw [← Finmap.mem_keys, ← Finset.mem_val]
  unfold sortedKeys
  induction m.keys.val using Quot.ind with
  | mk l => exact List.mem_insertionSort r

theorem pairwise_sortedKeys (m : Map κ ν) : (sortedKeys r m).Pairwise r := by
  unfold sortedKeys
  induction m.keys.val using Quot.ind with
  | mk l => exact List.pairwise_insertionSort r l

theorem nodup_sortedKeys (m : Map κ ν) : (sortedKeys r m).Nodup := by
  have hkeys : m.keys.val.Nodup := m.keys.nodup
  unfold sortedKeys
  revert hkeys
  induction m.keys.val using Quot.ind with
  | mk l => exact (List.perm_insertionSort r l).nodup_iff.2

theorem eq_sortedKeys {m : Map κ ν} {l : List κ} (hnodup : l.Nodup) (hmem : ∀ k, k ∈ l ↔ k ∈ m)
    (hsorted : l.Pairwise r) : l = sortedKeys r m := by
  have hperm : l.Perm (sortedKeys r m) := by
    refine (List.perm_ext_iff_of_nodup hnodup (nodup_sortedKeys r m)).2 fun k => ?_
    rw [hmem, mem_sortedKeys]
  exact hperm.eq_of_pairwise (fun _ _ _ _ => Std.Antisymm.antisymm _ _) hsorted
    (pairwise_sortedKeys r m)

end sorted

end FinMap
