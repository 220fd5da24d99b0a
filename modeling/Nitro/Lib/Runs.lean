import Mathlib.Tactic.Common

/-!
# Runs of a deterministic machine

`step : σ → ι → σ` is one step on an input.  `run` feeds a list of inputs, and `Along P` says that
every step of a run meets `P`, a condition on the state before the step and its input.

* `run_inv`     an invariant of the step is an invariant of the run;
* `Along.inv`   the same for the runs whose steps all meet a condition;
* `Along.snoc`, `Along.of_append`   one more step at the end, and a run cut in two;
* `Along.simulate`   a simulation turns a run into a path of the simulating machine.
-/

namespace Runs
variable {σ ι : Type}

def run (step : σ → ι → σ) (s : σ) (l : List ι) : σ := l.foldl step s

def Along (step : σ → ι → σ) (P : σ → ι → Prop) : σ → List ι → Prop
  | _, [] => True
  | s, i :: l => P s i ∧ Along step P (step s i) l

variable {step : σ → ι → σ} {P : σ → ι → Prop} {I : σ → Prop} {s : σ} {l : List ι}

theorem run_inv (hstep : ∀ s i, I s → I (step s i)) (h : I s) : I (run step s l) := by
  induction l generalizing s with
  | nil => exact h
  | cons i l ih => exact ih (hstep s i h)

theorem Along.inv (hstep : ∀ s i, I s → P s i → I (step s i)) (h : I s)
    (hl : Along step P s l) : I (run step s l) := by
  induction l generalizing s with
  | nil => exact h
  | cons i l ih => exact ih (hstep s i h hl.1) hl.2

theorem run_append (l' : List ι) : run step s (l ++ l') = run step (run step s l) l' :=
  List.foldl_append

theorem Along.snoc {i : ι} (hl : Along step P s l) (hi : P (run step s l) i) :
    Along step P s (l ++ [i]) := by
  induction l generalizing s with
  | nil => exact ⟨hi, trivial⟩
  | cons j l ih => exact ⟨hl.1, ih hl.2 hi⟩

theorem Along.of_append {l' : List ι} (h : Along step P s (l ++ l')) :
    Along step P s l ∧ Along step P (run step s l) l' := by
  induction l generalizing s with
  | nil => exact ⟨trivial, h⟩
  | cons j l ih => exact ⟨⟨h.1, (ih h.2).1⟩, (ih h.2).2⟩

theorem Along.of_forall {Q : ι → Prop} (h : ∀ i ∈ l, Q i) : Along step (fun _ => Q) s l := by
  induction l generalizing s with
  | nil => trivial
  | cons i l ih =>
    exact ⟨h i List.mem_cons_self, ih fun j hj => h j (List.mem_cons_of_mem i hj)⟩

/-- if every step on related states is matched by a transition `T`, a run is matched by a path -/
theorem Along.simulate {τ : Type} {R : σ → τ → Prop} {T : τ → τ → Prop}
    (hstep : ∀ s i a, R s a → P s i → ∃ a', T a a' ∧ R (step s i) a') {a : τ} (h : R s a)
    (hl : Along step P s l) :
    ∃ A : Nat → τ, A 0 = a ∧ (∀ k < l.length, T (A k) (A (k + 1))) ∧
      ∀ k ≤ l.length, R (run step s (l.take k)) (A k) := by
  induction l generalizing s a with
  | nil =>
    refine ⟨fun _ => a, rfl, fun k hk => absurd hk (Nat.not_lt_zero k), fun k _ => ?_⟩
    rw [List.take_nil]
    exact h
  | cons i l ih =>
    obtain ⟨a', ht, hr⟩ := hstep s i a h hl.1
    obtain ⟨A, h0, hpath, hrel⟩ := ih hr hl.2
    refine ⟨fun k => Nat.casesOn k a A, rfl, fun k hk => ?_, fun k hk => ?_⟩
    · cases k with
      | zero => show T a (A 0); rw [h0]; exact ht
      | succ k => exact hpath k (Nat.lt_of_succ_lt_succ hk)
    · cases k with
      | zero => exact h
      | succ k => exact hrel k (Nat.le_of_succ_le_succ hk)

instance along_decidable [∀ s i, Decidable (P s i)] :
    ∀ (s : σ) (l : List ι), Decidable (Along step P s l)
  | _, [] => inferInstanceAs (Decidable True)
  | s, i :: l =>
    have := along_decidable (step s i) l
    inferInstanceAs (Decidable (P s i ∧ Along step P (step s i) l))

end Runs
