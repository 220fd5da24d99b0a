import Nitro.Lib.Go

/-!
# When a Go program panics

A `do` block panics where one of its parts does, after the parts before it have returned.

* `Res.Panics x`             the call ends in a panic;
* `Res.panics_bind`, ...     **the parts of a block**, one lemma for each kind;
* `Res.not_panics_mapM`      a loop whose steps do not panic does not;
* `Res.OnlyPanics x`         the call returns or panics: then it panics where it does not return.
-/

namespace Go

namespace Res
variable {α β : Type}

def Panics (x : Res α) : Prop := ∃ r, x = .error (.panic r)

@[simp] theorem panics_panic (r : String) : Panics (.error (.panic r) : Res α) := ⟨r, rfl⟩

@[simp] theorem not_panics_ok (a : α) : ¬ Panics (.ok a : Res α) := by
  intro ⟨r, h⟩
  cases h

@[simp] theorem not_panics_err (e : Error) : ¬ Panics (.error (.err e) : Res α) := by
  intro ⟨r, h⟩
  cases h

theorem panics_error {e : Fault} : Panics (.error e : Res α) ↔ ∃ r, e = .panic r := by
  cases e <;> simp

theorem panics_bind {x : Res α} {f : α → Res β} :
    Panics (x >>= f) ↔ Panics x ∨ ∃ a, x = .ok a ∧ Panics (f a) := by
  cases x with
  | ok a =>
    show Panics (f a) ↔ _
    simp
  | error e =>
    show Panics (.error e : Res β) ↔ _
    cases e <;> simp

@[simp] theorem panics_wrap {x : Res α} {text : String} : Panics (x.wrap text) ↔ Panics x := by
  cases x with
  | ok a => rfl
  | error e => cases e <;> simp [wrap, onErr]

@[simp] theorem panics_map {x : Res α} {f : α → β} : Panics (x.map f) ↔ Panics x := by
  cases x with
  | ok a =>
    show Panics (.ok (f a) : Res β) ↔ _
    simp
  | error e =>
    show Panics (.error e : Res β) ↔ _
    cases e <;> simp

theorem panics_failIf_bind {p : Prop} [Decidable p] {e : Error} {f : Unit → Res β} :
    Panics (failIf p e >>= f) ↔ ¬ p ∧ Panics (f ()) := by
  by_cases h : p
  · simp [failIf, h]
  · simp [failIf, h]

@[simp] theorem not_panics_failIf {p : Prop} [Decidable p] {e : Error} :
    ¬ Panics (failIf p e) := by
  by_cases h : p
  · simp [failIf, h]
  · simp [failIf, h]

theorem not_panics_mapM {f : α → Res β} {l : List α} (h : ∀ a ∈ l, ¬ Panics (f a)) :
    ¬ Panics (l.mapM f) := by
  induction l with
  | nil => exact not_panics_ok []
  | cons a l ih =>
    rw [List.mapM_cons, panics_bind]
    intro hp
    rcases hp with hp | ⟨b, -, hp⟩
    · exact h a List.mem_cons_self hp
    · rcases panics_bind.1 hp with hp | ⟨bs, -, hp⟩
      · exact ih (fun a ha => h a (List.mem_cons_of_mem _ ha)) hp
      · exact not_panics_ok _ hp

/-- the call returns or panics: it has no error of its own -/
def OnlyPanics (x : Res α) : Prop := ∀ e, x ≠ .error (.err e)

theorem OnlyPanics.panics_iff {x : Res α} (h : OnlyPanics x) : Panics x ↔ ¬ ∃ a, x = .ok a := by
  cases x with
  | ok a => simp
  | error f =>
    cases f with
    | err e => exact absurd rfl (h e)
    | panic r => simp

theorem onlyPanics_ok (a : α) : OnlyPanics (.ok a : Res α) := by
  intro e h
  cases h

theorem OnlyPanics.bind {x : Res α} {f : α → Res β} (hx : OnlyPanics x)
    (hf : ∀ a, OnlyPanics (f a)) : OnlyPanics (x >>= f) := by
  intro e h
  cases x with
  | ok a => exact hf a e h
  | error f' =>
    cases h
    exact hx e rfl

theorem onlyPanics_mapM {f : α → Res β} (hf : ∀ a, OnlyPanics (f a)) (l : List α) :
    OnlyPanics (l.mapM f) := by
  induction l with
  | nil => exact onlyPanics_ok []
  | cons a l ih =>
    rw [List.mapM_cons]
    exact (hf a).bind fun b => ih.bind fun bs => onlyPanics_ok (b :: bs)

end Res

namespace BigInt

theorem onlyPanics_deref (p : BigInt) : Res.OnlyPanics (deref p) := by
  intro e h
  cases p <;> cases h

@[simp] theorem panics_deref {p : BigInt} : Res.Panics (deref p) ↔ p = none := by
  cases p <;> simp [deref]

end BigInt

end Go
