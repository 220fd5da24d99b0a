import Nitro.SignedState

/-!
# The order of the signatures

The loop of `Merge` ranges over a map, in any order, and stores a signature before it knows that the
others fit.

* `SignedState.verdict`   what one round of the loop does with an entry;
* `mergeEnd_cons`         the loop, entry by entry;
* `Fit`, `Blocked`        every entry finds its own slot; no entry finds one;
* `orderFree_iff`         **the loop is all or nothing exactly for entries that fit or are blocked**.
-/

set_option linter.unusedSectionVars false

namespace Nitro
open Go

namespace SignedState

abbrev Entry := Sigma fun _ : Nat => Signature

/-- the same state and signatures, with another order of iteration maybe -/
structure Alike (a b : SignedState) : Prop where
  state : a.state = b.state
  isSome : a.sigs.isSome = b.sigs.isSome
  lookup : ∀ i, a.entries.lookup i = b.entries.lookup i

theorem Alike.refl (a : SignedState) : a.Alike a := ⟨rfl, rfl, fun _ => rfl⟩

theorem Alike.symm {a b : SignedState} (h : a.Alike b) : b.Alike a :=
  ⟨h.state.symm, h.isSome.symm, fun i => (h.lookup i).symm⟩

theorem Alike.trans {a b c : SignedState} (h : a.Alike b) (h' : b.Alike c) : a.Alike c :=
  ⟨h.state.trans h'.state, h.isSome.trans h'.isSome, fun i => (h.lookup i).trans (h'.lookup i)⟩

theorem Alike.mem_entries {a b : SignedState} (h : a.Alike b) {x : Entry} :
    x ∈ a.entries.entries ↔ x ∈ b.entries.entries := by
  rw [← AList.mem_lookup_iff, ← AList.mem_lookup_iff, h.lookup]

theorem Alike.mem {a b : SignedState} (h : a.Alike b) {i : Nat} : i ∈ a.entries ↔ i ∈ b.entries := by
  rw [← AList.lookup_isSome, ← AList.lookup_isSome, h.lookup]

theorem Alike.hasAllSignatures {a b : SignedState} (h : a.Alike b) :
    a.hasAllSignatures = b.hasAllSignatures := by
  have hperm : a.entries.keys.Perm b.entries.keys :=
    (List.perm_ext_iff_of_nodup a.entries.keys_nodup b.entries.keys_nodup).2 fun _ => h.mem
  unfold SignedState.hasAllSignatures
  rw [hperm.length_eq, h.state]

/-- the order of iteration that begins with `x` -/
def first (ss : SignedState) (x : Entry) : SignedState :=
  { ss with sigs := some (ss.entries.insert x.1 x.2) }

theorem first_entries (ss : SignedState) (x : Entry) :
    (ss.first x).entries.entries = x :: List.kerase x.1 ss.entries.entries :=
  AList.entries_insert

theorem alike_first {ss : SignedState} {x : Entry} (h : x ∈ ss.entries.entries) :
    (ss.first x).Alike ss := by
  refine ⟨rfl, ?_, fun i => ?_⟩
  · cases ss with
    | mk state sigs =>
      cases sigs with
      | none => exact absurd h List.not_mem_nil
      | some m => rfl
  · show (ss.entries.insert x.1 x.2).lookup i = _
    by_cases e : i = x.1
    · rw [e, AList.lookup_insert]
      exact (AList.mem_lookup_iff.2 h).symm
    · rw [AList.lookup_insert_ne e]

/-! ## the loop, entry by entry -/

section loop
variable (cr : Crypto)

/-- the index under which `AddSignature` stores a signature -/
def signerIndex (ss : SignedState) (sig : Signature) : Res Nat := do
  let signer ← (ss.state.recoverSigner cr sig).wrap "AddSignature failed to recover signer "
  match ss.state.participants.findIdx? (fun p => decide (p = signer)) with
  | some i => .ok i
  | none => .error (.err (.new "signature does not match any participant"))

theorem addSignature_eq (ss : SignedState) (sig : Signature) :
    ss.addSignature cr sig = (do
      let i ← ss.signerIndex cr sig
      failIf (i ∈ ss.entries) (.new "signature already exists for participant")
      ss.setSig i sig) := by
  unfold addSignature signerIndex
  cases (ss.state.recoverSigner cr sig).wrap "AddSignature failed to recover signer " with
  | error e => rfl
  | ok signer =>
    simp only [Res.ok_bind]
    cases ss.state.participants.findIdx? (fun p => decide (p = signer)) with
    | none => rfl
    | some i => rfl

/-- what a round of the loop does with its entry -/
inductive Verdict where
  | present
  | stored (k : Nat)
  | refused
  | crashed
  deriving DecidableEq

def verdict (ss : SignedState) (x : Entry) : Verdict :=
  match ss.entries.lookup x.1 with
  | some existing => if existing.equal x.2 then .present else .refused
  | none =>
    match ss.signerIndex cr x.2 with
    | .ok k => if k ∈ ss.entries then .refused else if ss.sigs = none then .crashed else .stored k
    | .error (.err _) => .refused
    | .error (.panic _) => .crashed

def put (ss : SignedState) (k : Nat) (sig : Signature) : SignedState :=
  { ss with sigs := some (ss.entries.insert k sig) }

/-- the end of the loop: whether `Merge` returns without an error, or panics, and the receiver -/
def mergeEnd (l : List Entry) (ss : SignedState) : Option Bool × SignedState :=
  match mergeLoop cr l ss with
  | .ok _ ss' => (some true, ss')
  | .error (.err _) ss' => (some false, ss')
  | .error (.panic _) ss' => (none, ss')

variable {cr} {ss : SignedState} {x y : Entry} {k k' : Nat} {l l' : List Entry}

theorem mergeEnd_nil : mergeEnd cr [] ss = (some true, ss) := rfl

theorem mergeEnd_cons : mergeEnd cr (x :: l) ss = match ss.verdict cr x with
    | .present => mergeEnd cr l ss
    | .stored k => mergeEnd cr l (ss.put k x.2)
    | .refused => (some false, ss)
    | .crashed => (none, ss) := by
  obtain ⟨i, sig⟩ := x
  unfold mergeEnd verdict
  rw [mergeLoop]
  cases hl : ss.entries.lookup i with
  | some existing =>
    by_cases he : existing.equal sig = true
    · simp only [hl, if_pos he]
    · simp only [hl, if_neg he]
  | none =>
    simp only [hl, addSignature_eq]
    cases ss.signerIndex cr sig with
    | error e => cases e <;> rfl
    | ok k =>
      simp only [Res.ok_bind]
      by_cases hk : k ∈ ss.entries
      · simp only [if_pos hk, failIf]
        rfl
      · simp only [if_neg hk, failIf]
        cases hs : ss.sigs with
        | none =>
          simp only [setSig, hs, if_pos]
          rfl
        | some m =>
          simp only [setSig, put, entries, hs, reduceCtorEq, if_false]
          rfl

theorem verdict_present : ss.verdict cr x = .present ↔ ss.entries.lookup x.1 = some x.2 := by
  unfold verdict
  cases ss.entries.lookup x.1 with
  | some existing =>
    by_cases he : existing.equal x.2 = true
    · simpa [he] using Signature.equal_iff.1 he
    · simpa [he] using fun e => he (Signature.equal_iff.2 e)
  | none =>
    cases ss.signerIndex cr x.2 with
    | error e => cases e <;> simp
    | ok k =>
      simp only [reduceCtorEq, iff_false]
      split
      · simp
      · split <;> simp

theorem verdict_stored : ss.verdict cr x = .stored k ↔
    ss.entries.lookup x.1 = none ∧ ss.signerIndex cr x.2 = .ok k ∧ k ∉ ss.entries ∧
      ss.sigs ≠ none := by
  unfold verdict
  cases ss.entries.lookup x.1 with
  | some existing =>
    simp only [reduceCtorEq, false_and, iff_false]
    split <;> simp
  | none =>
    cases ss.signerIndex cr x.2 with
    | error e => cases e <;> simp
    | ok i =>
      by_cases hk : i ∈ ss.entries
      · simp only [if_pos hk, reduceCtorEq, false_iff]
        intro ⟨_, e, hk', _⟩
        cases e
        exact hk' hk
      · by_cases hs : ss.sigs = none
        · simp [hk, hs]
        · simp only [if_neg hk, if_neg hs, Verdict.stored.injEq, Except.ok.injEq, true_and]
          exact ⟨fun e => ⟨e, e ▸ hk, hs⟩, fun h => h.1⟩

/-! ## what a stored signature does to the other entries -/

theorem present_put (hk : k ∉ ss.entries) (h : ss.verdict cr y = .present) (sig : Signature) :
    (ss.put k sig).verdict cr y = .present := by
  rw [verdict_present] at h ⊢
  have hne : y.1 ≠ k := by
    intro e
    exact hk (e ▸ AList.lookup_isSome.1 (by rw [h]; rfl))
  show (ss.entries.insert k sig).lookup y.1 = _
  rw [AList.lookup_insert_ne hne]
  exact h

theorem stored_put (h : ss.verdict cr y = .stored k') (hkey : y.1 ≠ k) (hslot : k' ≠ k)
    (sig : Signature) : (ss.put k sig).verdict cr y = .stored k' := by
  obtain ⟨hnone, hindex, hk', -⟩ := verdict_stored.1 h
  refine verdict_stored.2 ⟨?_, hindex, ?_, Option.some_ne_none _⟩
  · show (ss.entries.insert k sig).lookup y.1 = none
    rw [AList.lookup_insert_ne hkey]
    exact hnone
  · intro hmem
    rcases (AList.mem_insert _).1 hmem with e | hmem
    · exact hslot e
    · exact hk' hmem

theorem refused_slot (h : ss.verdict cr y = .stored k) (hkey : y.1 ≠ k) (sig : Signature) :
    (ss.put k sig).verdict cr y = .refused := by
  obtain ⟨hnone, hindex, -, -⟩ := verdict_stored.1 h
  have hnone' : (ss.put k sig).entries.lookup y.1 = none := by
    show (ss.entries.insert k sig).lookup y.1 = none
    rw [AList.lookup_insert_ne hkey]
    exact hnone
  have hindex' : (ss.put k sig).signerIndex cr y.2 = .ok k := hindex
  have hmem : k ∈ (ss.put k sig).entries := (AList.mem_insert _).2 (.inl rfl)
  unfold verdict
  simp only [hnone', hindex', if_pos hmem]

theorem refused_key (hkey : y.1 = k) {sig : Signature} (hne : sig ≠ y.2) :
    (ss.put k sig).verdict cr y = .refused := by
  have hsome : (ss.put k sig).entries.lookup y.1 = some sig := by
    rw [hkey]
    exact AList.lookup_insert _
  have hdiff : ¬ sig.equal y.2 = true := fun e => hne (Signature.equal_iff.1 e)
  unfold verdict
  simp only [hsome, if_neg hdiff]

theorem mem_mergeEnd {i : Nat} (h : i ∈ ss.entries) : i ∈ (mergeEnd cr l ss).2.entries := by
  induction l generalizing ss with
  | nil => exact h
  | cons x l ih =>
    rw [mergeEnd_cons]
    cases ss.verdict cr x with
    | present => exact ih h
    | stored k => exact ih ((AList.mem_insert _).2 (.inr h))
    | refused => exact h
    | crashed => exact h

end loop

/-! ## entries that fit, and entries that are blocked -/

section fit
variable (cr : Crypto)

/-- every new signature has a slot, and no other new entry has this slot or its number for a key -/
structure Fit (ss : SignedState) (l : List Entry) : Prop where
  stored : ∀ x ∈ l, ss.verdict cr x = .present ∨ ∃ k, ss.verdict cr x = .stored k
  apart : ∀ x ∈ l, ∀ y ∈ l, x ≠ y → ∀ k k', ss.verdict cr x = .stored k →
    ss.verdict cr y = .stored k' → y.1 ≠ k ∧ k' ≠ k

/-- no entry has a slot, and all that are not present yet fail in the same way -/
def Blocked (ss : SignedState) (l : List Entry) : Prop :=
  (∀ x ∈ l, ss.verdict cr x = .present ∨ ss.verdict cr x = .refused) ∨
    ∀ x ∈ l, ss.verdict cr x = .present ∨ ss.verdict cr x = .crashed

/-- the entries of `ss'` are those of `ss` and the new ones of `l` in their slots -/
structure Gathered (ss : SignedState) (l : List Entry) (ss' : SignedState) : Prop where
  state : ss'.state = ss.state
  isSome : ss'.sigs.isSome = ss.sigs.isSome
  lookup : ∀ j sig, ss'.entries.lookup j = some sig ↔
    ss.entries.lookup j = some sig ∨ ∃ x ∈ l, ss.verdict cr x = .stored j ∧ x.2 = sig

variable {cr} {ss : SignedState} {x y : Entry} {k k' : Nat} {l l' : List Entry}

theorem Fit.congr (h : Fit cr ss l) (hl : ∀ x, x ∈ l' → x ∈ l) : Fit cr ss l' :=
  ⟨fun x hx => h.stored x (hl x hx), fun x hx y hy => h.apart x (hl x hx) y (hl y hy)⟩

theorem Fit.tail (h : Fit cr ss (x :: l)) : Fit cr ss l :=
  h.congr fun _ hy => List.mem_cons_of_mem _ hy

theorem Fit.verdict_put (h : Fit cr ss (x :: l)) (hx : ss.verdict cr x = .stored k) (hnew : x ∉ l)
    (hy : y ∈ l) : (ss.put k x.2).verdict cr y = ss.verdict cr y := by
  have hyl : y ∈ x :: l := List.mem_cons_of_mem _ hy
  rcases h.stored y hyl with hpresent | ⟨k', hk'⟩
  · rw [hpresent]
    exact present_put (verdict_stored.1 hx).2.2.1 hpresent x.2
  · have hne : x ≠ y := fun e => hnew (e ▸ hy)
    obtain ⟨hkey, hslot⟩ := h.apart x List.mem_cons_self y hyl hne k k' hx hk'
    rw [hk']
    exact stored_put hk' hkey hslot x.2

theorem Fit.put (h : Fit cr ss (x :: l)) (hx : ss.verdict cr x = .stored k) (hnew : x ∉ l) :
    Fit cr (ss.put k x.2) l := by
  refine ⟨fun y hy => ?_, fun y hy z hz hne i j hi hj => ?_⟩
  · rw [h.verdict_put hx hnew hy]
    exact h.tail.stored y hy
  · rw [h.verdict_put hx hnew hy] at hi
    rw [h.verdict_put hx hnew hz] at hj
    exact h.tail.apart y hy z hz hne i j hi hj

theorem Gathered.of_put {ss' : SignedState} (h : Gathered cr (ss.put k x.2) l ss')
    (hfit : Fit cr ss (x :: l)) (hx : ss.verdict cr x = .stored k) (hnew : x ∉ l) :
    Gathered cr ss (x :: l) ss' := by
  obtain ⟨-, -, hk, hsigs⟩ := verdict_stored.1 hx
  have hisSome : ss.sigs.isSome = true := Option.isSome_iff_ne_none.2 hsigs
  refine ⟨h.state, h.isSome.trans hisSome.symm, fun j sig => ?_⟩
  have hnew' : (∃ y ∈ l, (ss.put k x.2).verdict cr y = .stored j ∧ y.2 = sig) ↔
      ∃ y ∈ l, ss.verdict cr y = .stored j ∧ y.2 = sig := by
    refine exists_congr fun y => and_congr_right fun hy => ?_
    rw [hfit.verdict_put hx hnew hy]
  rw [h.lookup, hnew']
  show (ss.entries.insert k x.2).lookup j = some sig ∨ _ ↔ _
  by_cases e : j = k
  · subst e
    rw [AList.lookup_insert, AList.lookup_eq_none.2 hk]
    refine ⟨?_, ?_⟩
    · intro hor
      rcases hor with hx2 | ⟨y, hy, hv, hsig⟩
      · exact .inr ⟨x, List.mem_cons_self, hx, Option.some.inj hx2⟩
      · exact .inr ⟨y, List.mem_cons_of_mem _ hy, hv, hsig⟩
    · intro hor
      rcases hor with hx2 | ⟨y, hy, hv, hsig⟩
      · cases hx2
      · rcases List.mem_cons.1 hy with rfl | hy
        · exact .inl (congrArg some hsig)
        · exact .inr ⟨y, hy, hv, hsig⟩
  · rw [AList.lookup_insert_ne e]
    refine or_congr_right ⟨?_, ?_⟩
    · intro ⟨y, hy, hv, hsig⟩
      exact ⟨y, List.mem_cons_of_mem _ hy, hv, hsig⟩
    · intro ⟨y, hy, hv, hsig⟩
      rcases List.mem_cons.1 hy with rfl | hy
      · rw [hx, Verdict.stored.injEq] at hv
        exact absurd hv.symm e
      · exact ⟨y, hy, hv, hsig⟩

theorem mergeEnd_fit (hfit : Fit cr ss l) (hl : l.Nodup) :
    ∃ ss', mergeEnd cr l ss = (some true, ss') ∧ Gathered cr ss l ss' := by
  induction l generalizing ss with
  | nil =>
    refine ⟨ss, rfl, rfl, rfl, fun j sig => ?_⟩
    simp
  | cons x l ih =>
    obtain ⟨hnew, hl⟩ := List.nodup_cons.1 hl
    rw [mergeEnd_cons]
    rcases hfit.stored x List.mem_cons_self with hx | ⟨k, hx⟩
    · obtain ⟨ss', hend, hg⟩ := ih hfit.tail hl
      refine ⟨ss', by rw [hx]; exact hend, hg.state, hg.isSome, fun j sig => ?_⟩
      rw [hg.lookup]
      simp [hx]
    · obtain ⟨ss', hend, hg⟩ := ih (hfit.put hx hnew) hl
      exact ⟨ss', by rw [hx]; exact hend, hg.of_put hfit hx hnew⟩

/-- entries at which the loop stops, with the receiver as it is, change nothing -/
theorem mergeEnd_stopped {v : Verdict} {stop : Option Bool} (hv : v ≠ .present)
    (hstop : ∀ x l, ss.verdict cr x = v → mergeEnd cr (x :: l) ss = (stop, ss))
    (h : ∀ x ∈ l, ss.verdict cr x = .present ∨ ss.verdict cr x = v) :
    mergeEnd cr l ss = (if ∀ x ∈ l, ss.verdict cr x = .present then some true else stop, ss) := by
  induction l with
  | nil => simp [mergeEnd_nil]
  | cons x l ih =>
    have ih := ih fun y hy => h y (List.mem_cons_of_mem _ hy)
    rcases h x List.mem_cons_self with hx | hx
    · rw [mergeEnd_cons, hx]
      simp only [ih, List.forall_mem_cons, hx, true_and]
    · have hsome : ¬ ∀ y ∈ x :: l, ss.verdict cr y = .present := fun hall =>
        hv (hx.symm.trans (hall x List.mem_cons_self))
      rw [hstop x l hx, if_neg hsome]

theorem Gathered.alike {a b : SignedState} (ha : Gathered cr ss l a) (hb : Gathered cr ss l' b)
    (hl : ∀ x, x ∈ l ↔ x ∈ l') : a.Alike b := by
  refine ⟨ha.state.trans hb.state.symm, ha.isSome.trans hb.isSome.symm, fun i => ?_⟩
  refine Option.ext fun sig => ?_
  rw [ha.lookup, hb.lookup]
  simp only [hl]

end fit

/-! ## every order of iteration -/

section orders
variable (cr : Crypto)

/-- for every order of iteration: an error leaves the receiver as it was, and the end of the loop and
the receiver do not depend on the order -/
def OrderFree (ss ss2 : SignedState) : Prop :=
  ∀ a b : SignedState, a.Alike ss2 → b.Alike ss2 →
    ((mergeEnd cr a.entries.entries ss).1 = some false → (mergeEnd cr a.entries.entries ss).2 = ss) ∧
    (mergeEnd cr a.entries.entries ss).1 = (mergeEnd cr b.entries.entries ss).1 ∧
    (mergeEnd cr a.entries.entries ss).2.Alike (mergeEnd cr b.entries.entries ss).2

variable {cr} {ss ss2 : SignedState} {x y : Entry} {k k' : Nat}

theorem nodup_entries (m : SigMap) : m.entries.Nodup := m.nodupKeys.nodup

theorem Fit.orderFree (h : Fit cr ss ss2.entries.entries) : OrderFree cr ss ss2 := by
  have hany : ∀ a : SignedState, a.Alike ss2 → ∃ ss',
      mergeEnd cr a.entries.entries ss = (some true, ss') ∧ Gathered cr ss a.entries.entries ss' :=
    fun a ha => mergeEnd_fit (h.congr fun _ hx => ha.mem_entries.1 hx) (nodup_entries _)
  intro a b ha hb
  obtain ⟨a', hea, hga⟩ := hany a ha
  obtain ⟨b', heb, hgb⟩ := hany b hb
  rw [hea, heb]
  refine ⟨fun e => ?_, rfl, hga.alike hgb fun x => ha.mem_entries.trans hb.mem_entries.symm⟩
  cases e

theorem Blocked.orderFree (h : Blocked cr ss ss2.entries.entries) : OrderFree cr ss ss2 := by
  -- how the loop ends is said by the set of the entries
  have hends {v : Verdict} {stop : Option Bool} (hv : v ≠ .present)
      (hstop : ∀ x l, ss.verdict cr x = v → mergeEnd cr (x :: l) ss = (stop, ss))
      (h : ∀ x ∈ ss2.entries.entries, ss.verdict cr x = .present ∨ ss.verdict cr x = v) :
      ∃ r, ∀ a : SignedState, a.Alike ss2 → mergeEnd cr a.entries.entries ss = (r, ss) := by
    refine ⟨if ∀ x ∈ ss2.entries.entries, ss.verdict cr x = .present then some true else stop,
      fun a ha => ?_⟩
    rw [mergeEnd_stopped hv hstop fun x hx => h x (ha.mem_entries.1 hx)]
    simp only [ha.mem_entries]
  have hany : ∃ r, ∀ a : SignedState, a.Alike ss2 → mergeEnd cr a.entries.entries ss = (r, ss) := by
    rcases h with h | h
    · exact hends (by decide) (fun x l hx => by rw [mergeEnd_cons, hx]) h
    · exact hends (by decide) (fun x l hx => by rw [mergeEnd_cons, hx]) h
  obtain ⟨r, hany⟩ := hany
  intro a b ha hb
  rw [hany a ha, hany b hb]
  exact ⟨fun _ => rfl, rfl, Alike.refl _⟩

/-- no entry with a slot goes with one that fails: each of them can come first -/
theorem OrderFree.not_stops (h : OrderFree cr ss ss2) (hx : x ∈ ss2.entries.entries)
    (hy : y ∈ ss2.entries.entries) (hstored : ss.verdict cr x = .stored k) :
    ss.verdict cr y ≠ .refused ∧ ss.verdict cr y ≠ .crashed := by
  obtain ⟨-, -, hk, -⟩ := verdict_stored.1 hstored
  obtain ⟨-, -, halike⟩ := h _ _ (alike_first hx) (alike_first hy)
  rw [first_entries, first_entries, mergeEnd_cons, mergeEnd_cons, hstored] at halike
  have hmem : k ∈ (mergeEnd cr (List.kerase x.1 ss2.entries.entries) (ss.put k x.2)).2.entries :=
    mem_mergeEnd ((AList.mem_insert _).2 (.inl rfl))
  refine ⟨fun e => ?_, fun e => ?_⟩
  · rw [e] at halike
    exact hk (halike.mem.1 hmem)
  · rw [e] at halike
    exact hk (halike.mem.1 hmem)

theorem OrderFree.not_refused (h : OrderFree cr ss ss2) (hx : x ∈ ss2.entries.entries)
    (hy : y ∈ ss2.entries.entries) (hne : x.1 ≠ y.1) (hstored : ss.verdict cr x = .stored k) :
    (ss.put k x.2).verdict cr y ≠ .refused := by
  intro href
  obtain ⟨-, -, hk, -⟩ := verdict_stored.1 hstored
  have hx' : x ∈ (ss2.first y).entries.entries := (alike_first hy).mem_entries.2 hx
  have hfirst : ((ss2.first y).first x).Alike ss2 := (alike_first hx').trans (alike_first hy)
  have hend : mergeEnd cr ((ss2.first y).first x).entries.entries ss = (some false, ss.put k x.2) := by
    rw [first_entries, first_entries, List.kerase_cons_ne hne, mergeEnd_cons, hstored]
    show mergeEnd cr (y :: _) (ss.put k x.2) = _
    rw [mergeEnd_cons, href]
  obtain ⟨hsame, -, -⟩ := h _ _ hfirst hfirst
  rw [hend] at hsame
  have heq : ss.put k x.2 = ss := hsame rfl
  have hmem : k ∈ (ss.put k x.2).entries := (AList.mem_insert _).2 (.inl rfl)
  rw [heq] at hmem
  exact hk hmem

theorem OrderFree.fit (h : OrderFree cr ss ss2) (hx : x ∈ ss2.entries.entries)
    (hstored : ss.verdict cr x = .stored k) : Fit cr ss ss2.entries.entries := by
  refine ⟨fun y hy => ?_, fun x hx y hy hne k k' hk hk' => ?_⟩
  · obtain ⟨hnr, hnc⟩ := h.not_stops hx hy hstored
    cases hv : ss.verdict cr y with
    | present => exact .inl rfl
    | stored k => exact .inr ⟨k, rfl⟩
    | refused => exact absurd hv hnr
    | crashed => exact absurd hv hnc
  · have hkeys : x.1 ≠ y.1 := by
      intro e
      have hsig : some x.2 = some y.2 := by
        rw [← AList.mem_lookup_iff.2 hx, ← AList.mem_lookup_iff.2 hy, e]
      exact hne (Sigma.ext e (heq_of_eq (Option.some.inj hsig)))
    have hslot : k' ≠ k := by
      intro e
      subst e
      by_cases hy1 : y.1 = k'
      · have hx1 : x.1 ≠ k' := fun e => hkeys (e.trans hy1.symm)
        exact h.not_refused hy hx hkeys.symm hk' (refused_slot hk hx1 y.2)
      · exact h.not_refused hx hy hkeys hk (refused_slot hk' hy1 x.2)
    refine ⟨fun hkey => ?_, hslot⟩
    refine h.not_refused hx hy hkeys hk (refused_key hkey fun e => hslot ?_)
    have hindex := (verdict_stored.1 hk).2.1
    rw [e, (verdict_stored.1 hk').2.1] at hindex
    exact Except.ok.inj hindex

theorem OrderFree.blocked (h : OrderFree cr ss ss2)
    (hnone : ∀ x ∈ ss2.entries.entries, ∀ k, ss.verdict cr x ≠ .stored k) :
    Blocked cr ss ss2.entries.entries := by
  by_cases hr : ∃ x ∈ ss2.entries.entries, ss.verdict cr x = .refused
  · obtain ⟨x, hx, hxr⟩ := hr
    refine .inl fun y hy => ?_
    cases hv : ss.verdict cr y with
    | present => exact .inl rfl
    | stored k => exact absurd hv (hnone y hy k)
    | refused => exact .inr rfl
    | crashed =>
      obtain ⟨-, hend, -⟩ := h _ _ (alike_first hx) (alike_first hy)
      rw [first_entries, first_entries, mergeEnd_cons, mergeEnd_cons, hxr, hv] at hend
      cases hend
  · refine .inr fun y hy => ?_
    cases hv : ss.verdict cr y with
    | present => exact .inl rfl
    | stored k => exact absurd hv (hnone y hy k)
    | refused => exact absurd ⟨y, hy, hv⟩ hr
    | crashed => exact .inr rfl

/-- **when the loop is all or nothing** -/
theorem orderFree_iff : OrderFree cr ss ss2 ↔
    Fit cr ss ss2.entries.entries ∨ Blocked cr ss ss2.entries.entries := by
  refine ⟨fun h => ?_, fun h => h.elim Fit.orderFree Blocked.orderFree⟩
  by_cases hs : ∃ x ∈ ss2.entries.entries, ∃ k, ss.verdict cr x = .stored k
  · obtain ⟨x, hx, k, hk⟩ := hs
    exact .inl (h.fit hx hk)
  · exact .inr (h.blocked fun x hx k hk => hs ⟨x, hx, k, hk⟩)

end orders

end SignedState

end Nitro
