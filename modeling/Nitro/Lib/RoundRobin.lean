import Mathlib.Tactic.Common

/-!
# The last round of turns

`n` parties take turns, and turn `t` belongs to party `t % n`.  The last round at turn `L` has the
turns from `L + 1 - n` to `L`, one for each party.

* `IsTurn n L p t`    `t` is the turn of party `p` in the last round (`isTurn_unique`, `exists_isTurn`);
* `rank_party`, `rank_turn`   the position in the round, computed from the party and from the turn;
* `rank_le_iff`       comparing positions compares turns;
* `everybody_ranked_iff`   when nobody comes after a turn.
-/

namespace RoundRobin
variable {n L p t u : Nat}

structure IsTurn (n L p t : Nat) : Prop where
  inRound : L < t + n
  le : t ≤ L
  party : t % n = p

/-- the first turn of the round has the remainder of the one after the round -/
theorem first_mod (h : n ≤ L + 1) : (L + 1 - n) % n = (L + 1) % n := by
  rw [← Nat.mod_eq_sub_mod h]

theorem rank_party (hn : n ≤ L + 1) (ht : IsTurn n L p t) :
    (p + n - (L + 1) % n) % n = t - (L + 1 - n) := by
  obtain ⟨hround, hle, hparty⟩ := ht
  have hk : t - (L + 1 - n) < n := by omega
  have hs : (L + 1) % n < n := Nat.mod_lt _ (by omega)
  have hsum : ((L + 1) % n + (t - (L + 1 - n))) % n = p := by
    rw [← first_mod hn, Nat.mod_add_mod, ← hparty]
    congr 1
    omega
  generalize t - (L + 1 - n) = k at hk hsum ⊢
  generalize (L + 1) % n = s at hs hsum ⊢
  rcases Nat.lt_or_ge (s + k) n with h | h
  · have hp : s + k = p := by rwa [Nat.mod_eq_of_lt h] at hsum
    have hshift : p + n - s = k + n := by omega
    rw [hshift, Nat.add_mod_right, Nat.mod_eq_of_lt hk]
  · have hp : s + k - n = p := by
      rwa [Nat.mod_eq_sub_mod h, Nat.mod_eq_of_lt (by omega)] at hsum
    have hshift : p + n - s = k := by omega
    rw [hshift, Nat.mod_eq_of_lt hk]

theorem rank_turn (hn : n ≤ L + 1) (hround : L < u + n) (hle : u ≤ L) :
    (L + 1) % n ≤ u ∧ (u - (L + 1) % n) % n = u - (L + 1 - n) := by
  have hdiv := Nat.div_add_mod (L + 1 - n) n
  rw [first_mod hn] at hdiv
  generalize hs : (L + 1) % n = s at hdiv ⊢
  refine ⟨by omega, ?_⟩
  have hshift : u - s = n * ((L + 1 - n) / n) + (u - (L + 1 - n)) := by omega
  rw [hshift, Nat.mul_add_mod, Nat.mod_eq_of_lt (by omega)]

theorem rank_le_iff (hn : n ≤ L + 1) (ht : IsTurn n L p t) (hround : L < u + n) (hle : u ≤ L) :
    (p + n - (L + 1) % n) % n ≤ (u - (L + 1) % n) % n ↔ t ≤ u := by
  have hinRound := ht.inRound
  rw [rank_party hn ht, (rank_turn hn hround hle).2]
  omega

theorem exists_isTurn (hn : n ≤ L + 1) (hp : p < n) : ∃ t, IsTurn n L p t := by
  refine ⟨L + 1 - n + (p + n - (L + 1) % n) % n, ?_, ?_, ?_⟩
  · omega
  · have hlt := Nat.mod_lt (p + n - (L + 1) % n) (Nat.lt_of_le_of_lt (Nat.zero_le p) hp)
    omega
  · have hs : (L + 1) % n < n := Nat.mod_lt _ (by omega)
    rw [Nat.add_mod_mod, ← Nat.mod_add_mod, first_mod hn]
    have hshift : (L + 1) % n + (p + n - (L + 1) % n) = p + n := by omega
    rw [hshift, Nat.add_mod_right, Nat.mod_eq_of_lt hp]

theorem isTurn_unique (ht : IsTurn n L p t) (hu : IsTurn n L p u) : t = u := by
  rcases Nat.lt_or_ge (L + 1) n with hn | hn
  · -- everything up to `L` is below `n`
    have htn := ht.party
    have hun := hu.party
    have htle := ht.le
    have hule := hu.le
    rw [Nat.mod_eq_of_lt (by omega)] at htn hun
    omega
  · have htrank := rank_party hn ht
    have hurank := rank_party hn hu
    have htround := ht.inRound
    have huround := hu.inRound
    omega

/-- **everybody's position is at most that of turn `t`** exactly when the positions are counted from
the turn after `t` -/
theorem everybody_ranked_iff {s : Nat} (hs : s < n) (hle : s ≤ t) :
    (∀ p < n, (p + n - s) % n ≤ (t - s) % n) ↔ (t + 1) % n = s := by
  have hlt : (t - s) % n < n := Nat.mod_lt _ (by omega)
  have hsplit := Nat.div_add_mod (t - s) n
  constructor
  · intro h
    -- the party whose turn is before the one with remainder `s` has the last position
    obtain ⟨p, hp, hrank⟩ : ∃ p < n, (p + n - s) % n = n - 1 := by
      rcases Nat.eq_zero_or_pos s with rfl | hpos
      · refine ⟨n - 1, by omega, ?_⟩
        rw [Nat.sub_zero, Nat.add_mod_right, Nat.mod_eq_of_lt (by omega)]
      · refine ⟨s - 1, by omega, ?_⟩
        have hlast : s - 1 + n - s = n - 1 := by omega
        rw [hlast, Nat.mod_eq_of_lt (by omega)]
    have hlast : (t - s) % n = n - 1 := by
      have hall := h p hp
      omega
    have hnext : t + 1 = s + n * ((t - s) / n + 1) := by
      rw [Nat.mul_add, Nat.mul_one]
      omega
    rw [hnext, Nat.add_mul_mod_self_left, Nat.mod_eq_of_lt hs]
  · intro h p hp
    have hdiv := Nat.div_add_mod (t + 1) n
    rw [h] at hdiv
    have hq : (t + 1) / n ≠ 0 := by
      intro hzero
      rw [hzero, Nat.mul_zero] at hdiv
      omega
    obtain ⟨q, hq⟩ := Nat.exists_eq_succ_of_ne_zero hq
    rw [hq, Nat.succ_eq_add_one, Nat.mul_add, Nat.mul_one] at hdiv
    have hdiff : t - s = n * q + (n - 1) := by omega
    rw [hdiff, Nat.mul_add_mod, Nat.mod_eq_of_lt (show n - 1 < n by omega)]
    have hrank : (p + n - s) % n < n := Nat.mod_lt _ (by omega)
    omega

end RoundRobin
