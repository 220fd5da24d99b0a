import Mathlib.Tactic.Common
import Mathlib.Data.List.Basic

/-!
# A log with a leader and a follower

An append-only log and two positions in it.  The leader appends; the follower confirms one entry
after the other; the leader catches up with what the follower has confirmed.  The order
`leader ≤ follower < length` is part of the type.

* `Step`            the transitions;
* `path_entries`    entries are never changed;
* `path_visits`     a position that the follower has passed is one at which it stood;
* `path_last`       an entry was once the last one;
* `leader_entry_visited`   the leader's entry is the one that the follower held at that position.
-/

namespace ReplicatedLog
variable {α : Type}

structure Log (α : Type) where
  entries : List α
  leader : Nat
  follower : Nat
  leader_le : leader ≤ follower
  follower_lt : follower < entries.length

namespace Log

def append (A : Log α) (a : α) : Log α where
  entries := A.entries ++ [a]
  leader := A.leader
  follower := A.follower
  leader_le := A.leader_le
  follower_lt := by
    rw [List.length_append]
    exact Nat.lt_add_right _ A.follower_lt

def confirm (A : Log α) (h : A.follower + 1 < A.entries.length) : Log α where
  entries := A.entries
  leader := A.leader
  follower := A.follower + 1
  leader_le := Nat.le_succ_of_le A.leader_le
  follower_lt := h

def catchUp (A : Log α) (k : Nat) (h : k ≤ A.follower) : Log α where
  entries := A.entries
  leader := k
  follower := A.follower
  leader_le := h
  follower_lt := A.follower_lt

end Log

inductive Step : Log α → Log α → Prop
  | stay (A : Log α) : Step A A
  | append (A : Log α) (a : α) : Step A (A.append a)
  | confirm (A : Log α) (h : A.follower + 1 < A.entries.length) : Step A (A.confirm h)
  | catchUp (A : Log α) (k : Nat) (h : k ≤ A.follower) : Step A (A.catchUp k h)

theorem Step.entries {A B : Log α} (h : Step A B) : A.entries <+: B.entries := by
  cases h with
  | stay => exact List.prefix_rfl
  | append a => exact List.prefix_append _ _
  | confirm h => exact List.prefix_rfl
  | catchUp k h => exact List.prefix_rfl

theorem Step.follower {A B : Log α} (h : Step A B) :
    A.follower ≤ B.follower ∧ B.follower ≤ A.follower + 1 := by
  cases h with
  | stay => exact ⟨Nat.le_refl _, Nat.le_succ _⟩
  | append a => exact ⟨Nat.le_refl _, Nat.le_succ _⟩
  | confirm h => exact ⟨Nat.le_succ _, Nat.le_refl _⟩
  | catchUp k h => exact ⟨Nat.le_refl _, Nat.le_succ _⟩

theorem Step.length {A B : Log α} (h : Step A B) : B.entries.length ≤ A.entries.length + 1 := by
  cases h with
  | stay => exact Nat.le_succ _
  | append a => exact Nat.le_of_eq (List.length_append)
  | confirm h => exact Nat.le_succ _
  | catchUp k h => exact Nat.le_succ _

section path
variable {A : Nat → Log α} {n : Nat} (h : ∀ k < n, Step (A k) (A (k + 1)))
include h

theorem path_entries {k : Nat} (hk : k ≤ n) : (A k).entries <+: (A n).entries := by
  induction n with
  | zero =>
    obtain rfl := Nat.le_zero.1 hk
    exact List.prefix_rfl
  | succ n ih =>
    rcases Nat.le_succ_iff.1 hk with hk | rfl
    · exact (ih (fun m hm => h m (Nat.lt_succ_of_lt hm)) hk).trans (h n (Nat.lt_succ_self n)).entries
    · exact List.prefix_rfl

theorem path_follower {k : Nat} (hk : k ≤ n) : (A k).follower ≤ (A n).follower := by
  induction n with
  | zero =>
    obtain rfl := Nat.le_zero.1 hk
    exact Nat.le_refl _
  | succ n ih =>
    rcases Nat.le_succ_iff.1 hk with hk | rfl
    · exact Nat.le_trans (ih (fun m hm => h m (Nat.lt_succ_of_lt hm)) hk)
        (h n (Nat.lt_succ_self n)).follower.1
    · exact Nat.le_refl _

theorem path_visits {m : Nat} (hm : m ≤ (A n).follower) (h0 : (A 0).follower ≤ m) :
    ∃ k ≤ n, (A k).follower = m := by
  induction n with
  | zero => exact ⟨0, Nat.le_refl 0, Nat.le_antisymm h0 hm⟩
  | succ n ih =>
    by_cases hn : m ≤ (A n).follower
    · obtain ⟨k, hk, e⟩ := ih (fun m hm => h m (Nat.lt_succ_of_lt hm)) hn
      exact ⟨k, Nat.le_succ_of_le hk, e⟩
    · have hstep := (h n (Nat.lt_succ_self n)).follower
      exact ⟨n + 1, Nat.le_refl _, by omega⟩

theorem path_entry {k m : Nat} {a : α} (hk : k ≤ n) (ha : (A k).entries[m]? = some a) :
    (A n).entries[m]? = some a := by
  obtain ⟨rest, hrest⟩ := path_entries h hk
  obtain ⟨hlt, rfl⟩ := List.getElem?_eq_some_iff.1 ha
  rw [← hrest, List.getElem?_append_left hlt, List.getElem?_eq_getElem hlt]

theorem path_last {m : Nat} (hm : m < (A n).entries.length) (h0 : (A 0).entries.length ≤ m + 1) :
    ∃ k ≤ n, (A k).entries.length = m + 1 := by
  induction n with
  | zero => exact ⟨0, Nat.le_refl 0, Nat.le_antisymm h0 hm⟩
  | succ n ih =>
    by_cases hn : m < (A n).entries.length
    · obtain ⟨k, hk, e⟩ := ih (fun m hm => h m (Nat.lt_succ_of_lt hm)) hn
      exact ⟨k, Nat.le_succ_of_le hk, e⟩
    · have hstep := (h n (Nat.lt_succ_self n)).length
      exact ⟨n + 1, Nat.le_refl _, by omega⟩

/-- **what the leader holds, the follower held at the same position** -/
theorem leader_entry_visited (h0 : (A 0).follower = 0) :
    ∃ k ≤ n, (A k).follower = (A n).leader := by
  exact path_visits h (A n).leader_le (by omega)

end path

end ReplicatedLog
