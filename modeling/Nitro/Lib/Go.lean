import Mathlib.Data.List.Forall2
import Mathlib.Tactic.Common

/-!
# Go programs as Lean functions

A Go function that returns `(value, error)` is a `Res value`: a `Fault` is a returned `error`
(`Fault.err`) or a run-time panic (`Fault.panic`).

A method with a pointer receiver is a `Meth σ α`, an `EStateM`: it mutates the receiver, and when
it stops early (with an error or a panic) the receiver keeps what was written before the stop.

* `Meth.bind_run`, `Meth.lift_ok`, ...   evaluation of a method on a receiver;
* `Meth.after m s`                       the receiver after the call, whatever the result;
* `Res.bind_eq_ok`                       inversion of a successful `do` block;
* `BigInt`                               a `*big.Int`, that is, an integer or `nil`.
-/

namespace Go

/-! ## errors and panics -/

inductive Error where
  /-- `errors.New(text)` -/
  | new (text : String)
  /-- `fmt.Errorf(format, args...)`, for arguments that are numbers or byte strings -/
  | fmt (format : String) (args : List Nat)
  /-- `fmt.Errorf(text + "%w", inner)` -/
  | wrap (text : String) (inner : Error)
  /-- `fmt.Errorf("%w" + text, inner)` -/
  | wrapBefore (inner : Error) (text : String)
  /-- the text of another error, formatted without wrapping it -/
  | quote (text : String) (inner : Error)
  deriving DecidableEq, Repr

/-- `errors.Is`: the error, or one that it wraps -/
def Error.is : Error → Error → Bool
  | .wrap text inner, target => decide (Error.wrap text inner = target) || inner.is target
  | .wrapBefore inner text, target =>
    decide (Error.wrapBefore inner text = target) || inner.is target
  | e, target => decide (e = target)

inductive Fault where
  | err (e : Error)
  | panic (reason : String)
  deriving DecidableEq, Repr

abbrev Res (α : Type) := Except Fault α

instance decidableEqResult {ε σ α : Type} [DecidableEq ε] [DecidableEq σ] [DecidableEq α] :
    DecidableEq (EStateM.Result ε σ α)
  | .ok a s, .ok b t => decidable_of_iff (a = b ∧ s = t) (by simp)
  | .error e s, .error f t => decidable_of_iff (e = f ∧ s = t) (by simp)
  | .ok .., .error .. | .error .., .ok .. => isFalse nofun

/-- applies a reformatting to the error of a call; a panic stays a panic -/
def Res.onErr {α : Type} (f : Error → Error) : Res α → Res α
  | .ok a => .ok a
  | .error (.err e) => .error (.err (f e))
  | .error (.panic r) => .error (.panic r)

/-- `fmt.Errorf("text%w", err)` on the error of a call -/
def Res.wrap {α : Type} (text : String) (x : Res α) : Res α := x.onErr (Error.wrap text)

theorem Res.onErr_eq_ok {α : Type} {f : Error → Error} {x : Res α} {a : α} :
    x.onErr f = .ok a ↔ x = .ok a := by
  cases x with
  | ok b => exact Iff.rfl
  | error e => cases e <;> simp [Res.onErr]

theorem Res.wrap_eq_ok {α : Type} {text : String} {x : Res α} {a : α} :
    x.wrap text = .ok a ↔ x = .ok a := Res.onErr_eq_ok

theorem Res.bind_eq_ok {α β : Type} {x : Res α} {f : α → Res β} {b : β} :
    (x >>= f) = .ok b ↔ ∃ a, x = .ok a ∧ f a = .ok b := by
  cases x with
  | ok a =>
    constructor
    · intro h; exact ⟨a, rfl, h⟩
    · rintro ⟨a', e, h⟩; cases e; exact h
  | error e =>
    constructor
    · intro h; cases h
    · rintro ⟨a, h, _⟩; cases h

theorem Res.map_eq_ok {α β : Type} {f : α → β} {x : Res α} {b : β} :
    x.map f = .ok b ↔ ∃ a, x = .ok a ∧ f a = b := by
  cases x with
  | ok a =>
    show Except.ok (f a) = Except.ok b ↔ _
    simp
  | error e =>
    show Except.error e = Except.ok b ↔ _
    simp

@[simp] theorem Res.ok_bind {α β : Type} (a : α) (f : α → Res β) : (Except.ok a >>= f) = f a := rfl
@[simp] theorem Res.error_bind {α β : Type} (e : Fault) (f : α → Res β) :
    ((Except.error e : Res α) >>= f) = .error e := rfl

/-- `if c { return err }` -/
def failIf (c : Prop) [Decidable c] (err : Error) : Res Unit :=
  if c then .error (.err err) else .ok ()

@[simp] theorem failIf_eq_ok {c : Prop} [Decidable c] {err : Error} :
    failIf c err = .ok () ↔ ¬ c := by
  unfold failIf
  split <;> simp_all

theorem failIf_bind_eq_ok {α : Type} {c : Prop} [Decidable c] {err : Error} {f : Unit → Res α}
    {a : α} : (failIf c err >>= f) = .ok a ↔ ¬ c ∧ f () = .ok a := by
  by_cases h : c
  · simp [failIf, h]
  · simp [failIf, h]

/-- `l[i]` -/
def index {α : Type} (l : List α) (i : Nat) : Res α :=
  match l[i]? with
  | some a => .ok a
  | none => .error (.panic "index out of range")

theorem index_eq_ok {α : Type} {l : List α} {i : Nat} {a : α} :
    index l i = .ok a ↔ l[i]? = some a := by
  unfold index
  cases l[i]? <;> simp

theorem Res.mapM_eq_ok {α : Type} {f : α → Res α} {l l' : List α}
    (hf : ∀ a b, f a = .ok b → b = a) (h : l.mapM f = .ok l') : l' = l := by
  induction l generalizing l' with
  | nil =>
    rw [List.mapM_nil] at h
    cases h
    rfl
  | cons a l ih =>
    rw [List.mapM_cons] at h
    obtain ⟨b, hb, h⟩ := Res.bind_eq_ok.1 h
    obtain ⟨bs, hbs, h⟩ := Res.bind_eq_ok.1 h
    cases h
    rw [hf a b hb, ih hbs]

theorem Res.mapM_forall₂ {α β : Type} {f : α → Res β} {l : List α} {l' : List β} :
    l.mapM f = .ok l' ↔ List.Forall₂ (fun a b => f a = .ok b) l l' := by
  induction l generalizing l' with
  | nil =>
    rw [List.mapM_nil, List.forall₂_nil_left_iff]
    constructor
    · intro h
      cases h
      rfl
    · rintro rfl
      rfl
  | cons a l ih =>
    rw [List.mapM_cons, List.forall₂_cons_left_iff]
    constructor
    · intro h
      obtain ⟨b, hb, h⟩ := Res.bind_eq_ok.1 h
      obtain ⟨bs, hbs, h⟩ := Res.bind_eq_ok.1 h
      cases h
      exact ⟨b, bs, hb, ih.1 hbs, rfl⟩
    · rintro ⟨b, bs, hb, hbs, rfl⟩
      exact Res.bind_eq_ok.2 ⟨b, hb, Res.bind_eq_ok.2 ⟨bs, ih.2 hbs, rfl⟩⟩

theorem Res.exists_of_mem_mapM {α β : Type} {f : α → Res β} {l : List α} {l' : List β}
    (h : l.mapM f = .ok l') {b : β} (hb : b ∈ l') : ∃ a ∈ l, f a = .ok b := by
  rw [Res.mapM_forall₂] at h
  induction h with
  | nil => cases hb
  | @cons a b' l l' hab _ ih =>
    rcases List.mem_cons.1 hb with rfl | hb
    · exact ⟨a, List.mem_cons_self, hab⟩
    · obtain ⟨a, ha, hab⟩ := ih hb
      exact ⟨a, List.mem_cons_of_mem _ ha, hab⟩

theorem Res.mem_of_mapM {α β : Type} {f : α → Res β} {l : List α} {l' : List β}
    (h : l.mapM f = .ok l') {a : α} (ha : a ∈ l) : ∃ b ∈ l', f a = .ok b := by
  rw [Res.mapM_forall₂] at h
  induction h with
  | nil => cases ha
  | @cons a' b l l' hab _ ih =>
    rcases List.mem_cons.1 ha with rfl | ha
    · exact ⟨b, List.mem_cons_self, hab⟩
    · obtain ⟨b, hb, hab⟩ := ih ha
      exact ⟨b, List.mem_cons_of_mem _ hb, hab⟩

theorem Res.map_eq_of_mapM {α β γ : Type} {f : α → Res β} {g : α → γ} {l k : List α} {l' : List β}
    (hf : ∀ a ∈ l, ∀ b ∈ k, ∀ v, f a = .ok v → f b = .ok v → g a = g b) (hl : l.mapM f = .ok l')
    (hk : k.mapM f = .ok l') : l.map g = k.map g := by
  rw [Res.mapM_forall₂] at hl hk
  induction hl generalizing k with
  | nil =>
    rw [List.forall₂_nil_right_iff] at hk
    rw [hk]
  | @cons a v l l' hav _ ih =>
    obtain ⟨b, k, hbv, hrest, rfl⟩ := List.forall₂_cons_right_iff.1 hk
    have hhead := hf a List.mem_cons_self b List.mem_cons_self v hav hbv
    have htail := ih (fun a ha b hb => hf a (List.mem_cons_of_mem _ ha) b
      (List.mem_cons_of_mem _ hb)) hrest
    rw [List.map_cons, List.map_cons, hhead, htail]

/-- where an error leaves the old value in place -/
theorem Res.getD_ind {α : Type} {P : α → Prop} {x : Res α} {a : α} (ha : P a)
    (hx : ∀ b, x = .ok b → P b) : P (x.toOption.getD a) := by
  cases x with
  | error e => exact ha
  | ok b => exact hx b rfl

theorem Res.map_getD_ind {α β : Type} {P : α → Prop} {x : Res β} {f : β → α} {a : α} (ha : P a)
    (hx : ∀ b, x = .ok b → P (f b)) : P ((x.map f).toOption.getD a) := by
  cases x with
  | error e => exact ha
  | ok b => exact hx b rfl

/-- comparison of two slices: their lengths, then element by element up to the first difference -/
def equalLoop {α : Type} (eq : α → α → Res Bool) : List α → List α → Res Bool
  | a :: as, b :: bs => do
    if ← eq a b then equalLoop eq as bs else .ok false
  | _, _ => .ok true

def sliceEqual {α : Type} (eq : α → α → Res Bool) (a b : List α) : Res Bool :=
  if a.length ≠ b.length then .ok false else equalLoop eq a b

theorem sliceEqual_eq {α : Type} {eq : α → α → Res Bool}
    (heq : ∀ x y, eq x y = .ok true → x = y) {a b : List α} (h : sliceEqual eq a b = .ok true) :
    a = b := by
  unfold sliceEqual at h
  split at h
  · cases h
  · next hlen =>
    rw [not_ne_iff] at hlen
    induction a generalizing b with
    | nil => exact (List.length_eq_zero_iff.1 hlen.symm).symm
    | cons x xs ih =>
      cases b with
      | nil => cases hlen
      | cons y ys =>
        obtain ⟨same, hs, h⟩ := Res.bind_eq_ok.1 h
        cases same with
        | false => cases h
        | true => rw [heq x y hs, ih (Nat.succ.inj hlen) h]

theorem sliceEqual_self {α : Type} {eq : α → α → Res Bool} (heq : ∀ x, eq x x = .ok true)
    (a : List α) : sliceEqual eq a a = .ok true := by
  unfold sliceEqual
  rw [if_neg (not_not.2 rfl)]
  induction a with
  | nil => rfl
  | cons x xs ih =>
    unfold equalLoop
    rw [heq x]
    exact ih

/-! ## methods with a pointer receiver -/

abbrev Meth (σ α : Type) := EStateM Fault σ α

instance liftExcept {ε σ : Type} : MonadLift (Except ε) (EStateM ε σ) where
  monadLift x := fun s => match x with
    | .ok a => .ok a s
    | .error e => .error e s

namespace Meth
variable {σ τ α β : Type}

/-- the receiver after the call -/
def after (m : Meth σ α) (s : σ) : σ :=
  match m s with
  | .ok _ s' => s'
  | .error _ s' => s'

/-- the returned value, error or panic -/
def result (m : Meth σ α) (s : σ) : Res α :=
  match m s with
  | .ok a _ => .ok a
  | .error e _ => .error e

/-- the receiver after a call whose returned value is dropped -/
def exec (m : Meth σ α) (s : σ) : Res σ :=
  match m s with
  | .ok _ s' => .ok s'
  | .error e _ => .error e

theorem exec_eq_ok {m : Meth σ α} {s s' : σ} (h : m.exec s = .ok s') : m.after s = s' := by
  unfold exec at h
  unfold after
  cases hm : m s <;> rw [hm] at h <;> cases h
  rfl

theorem bind_run (m : Meth σ α) (f : α → Meth σ β) (s : σ) :
    (m >>= f) s = match m s with
      | .ok a s' => f a s'
      | .error e s' => .error e s' := by
  show EStateM.bind m f s = _
  unfold EStateM.bind
  cases m s <;> rfl

theorem bind_ok {m : Meth σ α} {f : α → Meth σ β} {s s' : σ} {a : α} (h : m s = .ok a s') :
    (m >>= f) s = f a s' := by
  rw [bind_run, h]

theorem bind_error {m : Meth σ α} {f : α → Meth σ β} {s s' : σ} {e : Fault}
    (h : m s = .error e s') : (m >>= f) s = .error e s' := by
  rw [bind_run, h]

theorem get_run (s : σ) : (get : Meth σ σ) s = .ok s s := rfl
theorem modify_run (f : σ → σ) (s : σ) : (modify f : Meth σ Unit) s = .ok () (f s) := rfl

theorem lift_ok (a : α) (s : σ) : (liftM (Except.ok a : Res α) : Meth σ α) s = .ok a s := rfl
theorem lift_error (e : Fault) (s : σ) :
    (liftM (Except.error e : Res α) : Meth σ α) s = .error e s := rfl

/-- a method that computes a value from the receiver before it does anything else -/
theorem read_ok {f : σ → Res α} {k : α → Meth σ β} {s : σ} {a : α} (h : f s = .ok a) :
    (do let c ← get; let a ← liftM (f c); k a : Meth σ β) s = k a s := by
  rw [bind_ok (get_run s), h, bind_ok (lift_ok a s)]

theorem read_error {f : σ → Res α} {k : α → Meth σ β} {s : σ} {e : Fault} (h : f s = .error e) :
    (do let c ← get; let a ← liftM (f c); k a : Meth σ β) s = .error e s := by
  rw [bind_ok (get_run s), h, bind_error (lift_error e s)]

theorem after_ok {m : Meth σ α} {s s' : σ} {a : α} (h : m s = .ok a s') : m.after s = s' := by
  unfold after; rw [h]

theorem after_error {m : Meth σ α} {s s' : σ} {e : Fault} (h : m s = .error e s') :
    m.after s = s' := by
  unfold after; rw [h]

theorem run_of_result {m : Meth σ α} {s : σ} {a : α} (h : m.result s = .ok a) :
    m s = .ok a (m.after s) := by
  unfold result at h
  unfold after
  cases hm : m s with
  | ok b s' =>
    rw [hm] at h
    cases h
    rfl
  | error e s' =>
    rw [hm] at h
    cases h

end Meth

/-! ## `*big.Int` -/

abbrev BigInt := Option Int

namespace BigInt

/-- the integer behind the pointer -/
def deref : BigInt → Res Int
  | some n => .ok n
  | none => .error (.panic "nil pointer dereference")

/-- `types.Gt`, that is `a.Cmp(b) > 0`: `Cmp` compares the pointers first, so two `nil`s are
equal, and it panics on one `nil` -/
def gt : BigInt → BigInt → Res Bool
  | some a, some b => .ok (decide (b < a))
  | none, none => .ok false
  | _, _ => .error (.panic "nil pointer dereference")

/-- `a.Cmp(b) == 0` -/
def cmpEq : BigInt → BigInt → Res Bool
  | some a, some b => .ok (decide (a = b))
  | none, none => .ok true
  | _, _ => .error (.panic "nil pointer dereference")

/-- `types.Equal`: by value, two `nil`s are equal -/
def equal (a b : BigInt) : Bool := decide (a = b)

theorem deref_eq_ok {p : BigInt} {n : Int} : deref p = .ok n ↔ p = some n := by
  cases p with
  | none => simp [deref]
  | some m => simp [deref]

theorem cmpEq_true {p q : BigInt} (h : cmpEq p q = .ok true) : p = q := by
  cases p <;> cases q <;> simp_all [cmpEq]

theorem cmpEq_self (p : BigInt) : cmpEq p p = .ok true := by
  cases p with
  | none => rfl
  | some n => exact congrArg Except.ok (decide_eq_true rfl)

theorem gt_some (a b : Int) : gt (some a) (some b) = .ok (decide (b < a)) := rfl

end BigInt

end Go
