import Nitro.Lib.Runs

/-!
# A bounded feed

A buffer of a given capacity between a sender that never waits and a receiver: what is sent while the
buffer is full is dropped.

* `step`               one send or one receipt;
* `run_sublist`        **what arrives was sent, in this order, and once**;
* `run_complete_iff`   **everything arrives** iff the buffer is never full at a send.
-/

namespace Feeds
open Runs
variable {α : Type}

inductive Op (α : Type) where
  | send (a : α)
  | receive

structure Feed (α : Type) where
  buffer : List α
  received : List α

def attemptSend (cap : Nat) (buffer : List α) (a : α) : List α :=
  if buffer.length < cap then buffer ++ [a] else buffer

def receive (f : Feed α) : Feed α :=
  match f.buffer with
  | [] => f
  | a :: buffer => ⟨buffer, f.received ++ [a]⟩

def step (cap : Nat) (f : Feed α) : Op α → Feed α
  | .send a => { f with buffer := attemptSend cap f.buffer a }
  | .receive => receive f

/-- everything that was not dropped -/
def Feed.arrivals (f : Feed α) : List α := f.received ++ f.buffer

def sent (ops : List (Op α)) : List α :=
  ops.filterMap fun op => match op with
    | .send a => some a
    | .receive => none

/-- the operation finds room -/
def Fits (cap : Nat) (f : Feed α) : Op α → Prop
  | .send _ => f.buffer.length < cap
  | .receive => True

variable {cap : Nat} {f : Feed α} {ops : List (Op α)}

theorem arrivals_receive : (receive f).arrivals = f.arrivals := by
  rcases f with ⟨_ | ⟨a, buffer⟩, received⟩
  · rfl
  · simp [receive, Feed.arrivals]

theorem arrivals_step_of_fits {op : Op α} (h : Fits cap f op) :
    (step cap f op).arrivals = f.arrivals ++ sent [op] := by
  cases op with
  | send a => simp [step, attemptSend, Feed.arrivals, if_pos (show f.buffer.length < cap from h), sent]
  | receive => simp [step, arrivals_receive, sent]

theorem arrivals_step_of_not_fits {op : Op α} (h : ¬ Fits cap f op) :
    (step cap f op).arrivals = f.arrivals ∧ (sent [op]).length = 1 := by
  cases op with
  | send a =>
    refine ⟨?_, rfl⟩
    simp [step, attemptSend, Feed.arrivals, if_neg (show ¬ f.buffer.length < cap from h)]
  | receive => exact absurd trivial h

theorem sent_append (l l' : List (Op α)) : sent (l ++ l') = sent l ++ sent l' :=
  List.filterMap_append

theorem sent_map_send (l : List α) : sent (l.map .send) = l := by
  rw [sent, List.filterMap_map]
  exact List.filterMap_some

theorem run_sublist (f : Feed α) (ops : List (Op α)) :
    (run (step cap) f ops).arrivals.Sublist (f.arrivals ++ sent ops) := by
  induction ops generalizing f with
  | nil => simp [run, sent]
  | cons op ops ih =>
    refine (ih (step cap f op)).trans ?_
    rw [← List.singleton_append, sent_append, ← List.append_assoc]
    refine List.Sublist.append_right ?_ _
    by_cases h : Fits cap f op
    · simp only [arrivals_step_of_fits h, List.Sublist.refl]
    · rw [(arrivals_step_of_not_fits h).1]
      exact List.sublist_append_left _ _

theorem run_complete_iff : (run (step cap) f ops).arrivals = f.arrivals ++ sent ops ↔
    Along (step cap) (Fits cap) f ops := by
  induction ops generalizing f with
  | nil => simp [run, sent, Along]
  | cons op ops ih =>
    rw [← List.singleton_append, sent_append]
    by_cases h : Fits cap f op
    · rw [← List.append_assoc, ← arrivals_step_of_fits h]
      exact ih.trans ⟨fun halong => ⟨h, halong⟩, fun halong => halong.2⟩
    · refine iff_of_false (fun heq => ?_) fun halong => h halong.1
      have hlength := congrArg List.length heq
      have hle : (run (step cap) (step cap f op) ops).arrivals.length ≤ _ :=
        (run_sublist (step cap f op) ops).length_le
      obtain ⟨hsame, hone⟩ := arrivals_step_of_not_fits h
      rw [hsame] at hle
      simp only [List.length_append, hone] at hlength hle
      change (run (step cap) (step cap f op) ops).arrivals.length = _ at hlength
      omega

end Feeds
