import Nitro.Lib.Go

/-!
# Postconditions of methods

`Meth.Post m s Q E` says what a call of `m` on the receiver `s` leaves behind: `Q` when it returns a
value, `E` when it stops early.  The rules take a call apart as its `do` block is written; `E` is
the same for every step, so what must survive a stop is stated once.

* `post_bind`, `post_pure`, `post_get`, `post_modify`, `post_lift`, `post_ite`   the rules;
* `Post.mono`, `Post.after`     weakening, and what holds of the receiver in any case;
* `Keeps`, `keeps_bind`, ...    **a part of the receiver that no step of a call changes**.
-/

namespace Go
namespace Meth
variable {σ τ α β : Type} {s : σ} {Q : α → σ → Prop} {R : β → σ → Prop} {E : σ → Prop}

def Post (m : Meth σ α) (s : σ) (Q : α → σ → Prop) (E : σ → Prop) : Prop :=
  match m s with
  | .ok a s' => Q a s'
  | .error _ s' => E s'

theorem Post.ok {m : Meth σ α} {a : α} {s' : σ} (h : m.Post s Q E) (hm : m s = .ok a s') :
    Q a s' := by
  unfold Post at h
  rwa [hm] at h

theorem Post.mono {m : Meth σ α} {Q' : α → σ → Prop} {E' : σ → Prop} (h : m.Post s Q' E')
    (hQ : ∀ a s', Q' a s' → Q a s') (hE : ∀ s', E' s' → E s') : m.Post s Q E := by
  unfold Post at h ⊢
  cases hm : m s with
  | ok a s' =>
    rw [hm] at h
    exact hQ a s' h
  | error e s' =>
    rw [hm] at h
    exact hE s' h

theorem post_after (m : Meth σ α) (s : σ) :
    m.Post s (fun _ s' => s' = m.after s) (fun s' => s' = m.after s) := by
  unfold Post Meth.after
  cases m s with
  | ok a s' => rfl
  | error e s' => rfl

theorem Post.after {m : Meth σ α} {I : σ → Prop} (h : m.Post s (fun _ => I) I) :
    I (m.after s) := by
  unfold Post at h
  unfold Meth.after
  cases hm : m s with
  | ok a s' =>
    rw [hm] at h
    exact h
  | error e s' =>
    rw [hm] at h
    exact h

theorem post_bind {m : Meth σ α} {f : α → Meth σ β}
    (h : m.Post s (fun a s' => (f a).Post s' R E) E) : (m >>= f).Post s R E := by
  unfold Post at h ⊢
  rw [bind_run]
  cases hm : m s with
  | ok a s' =>
    rw [hm] at h
    exact h
  | error e s' =>
    rw [hm] at h
    exact h

theorem post_pure {a : α} (h : Q a s) : (pure a : Meth σ α).Post s Q E := h

theorem post_get {Q : σ → σ → Prop} (h : Q s s) : (get : Meth σ σ).Post s Q E := h

theorem post_modify {f : σ → σ} {Q : Unit → σ → Prop} (h : Q () (f s)) :
    (modify f : Meth σ Unit).Post s Q E := h

theorem post_throw {e : Fault} (h : E s) : (throw e : Meth σ α).Post s Q E := h

theorem post_lift {x : Res α} (hok : ∀ a, x = .ok a → Q a s) (herr : E s) :
    (liftM x : Meth σ α).Post s Q E := by
  cases x with
  | ok a => exact hok a rfl
  | error e => exact herr

theorem post_ite {c : Prop} [Decidable c] {m m' : Meth σ α} (ht : c → m.Post s Q E)
    (hf : ¬ c → m'.Post s Q E) : (if c then m else m').Post s Q E := by
  by_cases hc : c
  · rw [if_pos hc]
    exact ht hc
  · rw [if_neg hc]
    exact hf hc

/-! ## wrapped errors -/

/-- `if err != nil { return fmt.Errorf("text%w", err) }` after a call -/
def wrap (text : String) (m : Meth σ α) : Meth σ α := fun s =>
  match m s with
  | .error (.err e) s' => .error (.err (.wrap text e)) s'
  | r => r

theorem post_wrap {text : String} {m : Meth σ α} (h : m.Post s Q E) : (m.wrap text).Post s Q E := by
  unfold Post at h ⊢
  unfold wrap
  cases hm : m s with
  | ok a s' =>
    rw [hm] at h
    exact h
  | error e s' =>
    rw [hm] at h
    cases e with
    | err e => exact h
    | panic r => exact h

/-! ## calls that return -/

theorem bind_eq_ok {m : Meth σ α} {f : α → Meth σ β} {s' : σ} {b : β} :
    (m >>= f) s = .ok b s' ↔ ∃ a t, m s = .ok a t ∧ f a t = .ok b s' := by
  rw [bind_run]
  cases hm : m s with
  | ok a t =>
    constructor
    · intro h
      exact ⟨a, t, rfl, h⟩
    · rintro ⟨a', t', h, hf⟩
      cases h
      exact hf
  | error e t =>
    constructor
    · intro h
      cases h
    · rintro ⟨a', t', h, -⟩
      cases h

theorem get_bind_eq_ok {f : σ → Meth σ β} {s' : σ} {b : β} :
    (get >>= f : Meth σ β) s = .ok b s' ↔ f s s = .ok b s' := Iff.rfl

theorem modify_bind_eq_ok {g : σ → σ} {f : Unit → Meth σ β} {s' : σ} {b : β} :
    (modify g >>= f : Meth σ β) s = .ok b s' ↔ f () (g s) = .ok b s' := Iff.rfl

theorem lift_bind_eq_ok {x : Res α} {f : α → Meth σ β} {s' : σ} {b : β} :
    ((liftM x : Meth σ α) >>= f) s = .ok b s' ↔ ∃ a, x = .ok a ∧ f a s = .ok b s' := by
  cases x with
  | ok a =>
    constructor
    · intro h
      exact ⟨a, rfl, h⟩
    · rintro ⟨a', h, hf⟩
      cases h
      exact hf
  | error e =>
    constructor
    · intro h
      cases h
    · rintro ⟨a', h, -⟩
      cases h

theorem wrap_eq_ok {text : String} {m : Meth σ α} {a : α} {s' : σ} :
    m.wrap text s = .ok a s' ↔ m s = .ok a s' := by
  unfold wrap
  cases hm : m s with
  | ok a t => rfl
  | error e t => cases e <;> simp

/-- **a loop in which every step leaves the receiver alone and has nothing to report**: `next` is what
follows the first step -/
theorem loop_idle {loop : List α → Meth σ β} (body : α → Meth σ β) {next : β → List α → Meth σ β}
    {idle : β} {P : α → Prop} {l : List α} {b : β} {s' : σ} (hnil : loop [] = pure idle)
    (hcons : ∀ a l, loop (a :: l) = body a >>= fun b => next b l)
    (hnext : ∀ l t, next idle l t = loop l t)
    (hbody : ∀ a ∈ l, ∀ b t, body a s = .ok b t ↔ P a ∧ b = idle ∧ t = s) :
    loop l s = .ok b s' ↔ (∀ a ∈ l, P a) ∧ b = idle ∧ s' = s := by
  induction l with
  | nil =>
    rw [hnil]
    constructor
    · intro h
      cases h
      exact ⟨fun a ha => absurd ha List.not_mem_nil, rfl, rfl⟩
    · rintro ⟨-, rfl, rfl⟩
      rfl
  | cons a l ih =>
    have ih := ih fun x hx => hbody x (List.mem_cons_of_mem a hx)
    have ha := hbody a List.mem_cons_self
    rw [hcons, bind_eq_ok, List.forall_mem_cons]
    constructor
    · rintro ⟨first, t, hfirst, hrest⟩
      obtain ⟨hP, rfl, rfl⟩ := (ha first t).1 hfirst
      rw [hnext, ih] at hrest
      exact ⟨⟨hP, hrest.1⟩, hrest.2⟩
    · rintro ⟨⟨hP, hall⟩, hend⟩
      refine ⟨idle, s, (ha idle s).2 ⟨hP, rfl, rfl⟩, ?_⟩
      rw [hnext, ih]
      exact ⟨hall, hend⟩

/-! ## calls on a part of the receiver -/

/-- a method of a part of the receiver -/
def zoom (part : σ → τ) (set : τ → σ → σ) (m : Meth τ α) : Meth σ α := fun s =>
  match m (part s) with
  | .ok a t => .ok a (set t s)
  | .error e t => .error e (set t s)

theorem zoom_eq_ok {part : σ → τ} {set : τ → σ → σ} {m : Meth τ α} {a : α} {s' : σ} :
    m.zoom part set s = .ok a s' ↔ ∃ t, m (part s) = .ok a t ∧ set t s = s' := by
  unfold zoom
  cases hm : m (part s) with
  | ok b t => simp
  | error e t => simp

theorem post_zoom {part : σ → τ} {set : τ → σ → σ} {m : Meth τ α}
    (h : m.Post (part s) (fun a t => Q a (set t s)) (fun t => E (set t s))) :
    (m.zoom part set).Post s Q E := by
  unfold Post at h ⊢
  unfold zoom
  cases hm : m (part s) with
  | ok a t =>
    rw [hm] at h
    exact h
  | error e t =>
    rw [hm] at h
    exact h

/-! ## parts that a call does not change -/

section keeps
variable {p : σ → τ} {m m' : Meth σ α} {f : α → Meth σ β}

/-- where the call returns, `p` of the receiver is as it was -/
def Keeps (m : Meth σ α) (p : σ → τ) : Prop := ∀ s a s', m s = .ok a s' → p s' = p s

theorem keeps_pure (a : α) : (pure a : Meth σ α).Keeps p := by
  intro s b s' h
  cases h
  rfl

theorem keeps_throw (e : Fault) : (throw e : Meth σ α).Keeps p := by
  intro s b s' h
  cases h

theorem keeps_get : (get : Meth σ σ).Keeps p := by
  intro s b s' h
  cases h
  rfl

theorem keeps_modify {g : σ → σ} (h : ∀ s, p (g s) = p s) : (modify g : Meth σ Unit).Keeps p := by
  intro s b s' hrun
  cases hrun
  exact h s

theorem keeps_lift (x : Res α) : (liftM x : Meth σ α).Keeps p := by
  intro s b s' h
  cases x with
  | ok a =>
    cases h
    rfl
  | error e => cases h

theorem keeps_bind (hm : m.Keeps p) (hf : ∀ a, (f a).Keeps p) : (m >>= f).Keeps p := by
  intro s b s' h
  obtain ⟨a, t, ha, hb⟩ := bind_eq_ok.1 h
  exact (hf a t b s' hb).trans (hm s a t ha)

theorem keeps_ite {c : Prop} [Decidable c] (ht : m.Keeps p) (hf : m'.Keeps p) :
    (if c then m else m').Keeps p := by
  by_cases hc : c
  · rwa [if_pos hc]
  · rwa [if_neg hc]

theorem keeps_wrap {text : String} (h : m.Keeps p) : (m.wrap text).Keeps p :=
  fun s a s' hrun => h s a s' (wrap_eq_ok.1 hrun)

theorem keeps_zoom {ρ : Type} {part : σ → ρ} {set : ρ → σ → σ} (m : Meth ρ α)
    (h : ∀ t s, p (set t s) = p s) : (m.zoom part set).Keeps p := by
  intro s a s' hrun
  obtain ⟨t, -, rfl⟩ := zoom_eq_ok.1 hrun
  exact h t s

end keeps

end Meth
end Go
