import Nitro.Consensus.Malformed
import Nitro.Client.LateMessages

/-!
# Malformed states

What a peer can send is any state that JSON can spell: `null` for a number, any number of participants,
exits and allocations.  Sorting the states of a message and making objectives from them reads some of
these before anything is checked.

* `FixedPart.Complete`, `Exit.Complete`       the numbers are there;
* `Channel.panics_new`                        `New` panics exactly on a missing number;
* `Harmless`                                  a payload from which an objective can be tried;
* `constructObjectiveFromMessage_panics_iff`  **the constructors panic exactly on the others**;
* `Survives`, `survives_iff`                  the same for a whole message, with the sorting.
-/

set_option linter.unusedSectionVars false

namespace Nitro
open Go FinMap
open Protocols (Objective Storable Kind)

/-! ## missing numbers -/

structure FixedPart.Complete (fp : FixedPart) : Prop where
  chainId : fp.chainId ≠ none
  channelNonce : fp.channelNonce ≠ none
  challengeDuration : fp.challengeDuration ≠ none

def Exit.Complete (e : Exit) : Prop := ∀ x ∈ e, ∀ a ∈ x.allocations, a.amount ≠ none

namespace FixedPart
variable {cr : Crypto} {fp : FixedPart}

theorem channelId_ok_iff (cr : Crypto) : (∃ d, fp.channelId cr = .ok d) ↔ fp.Complete := by
  obtain ⟨chainId, participants, nonce, app, duration⟩ := fp
  constructor
  · intro ⟨d, h⟩
    obtain ⟨_, hc, h⟩ := Res.bind_eq_ok.1 h
    obtain ⟨_, hn, h⟩ := Res.bind_eq_ok.1 h
    obtain ⟨_, hd, -⟩ := Res.bind_eq_ok.1 h
    obtain ⟨_, hc, -⟩ := Res.bind_eq_ok.1 hc
    obtain ⟨_, hn, -⟩ := Res.bind_eq_ok.1 hn
    obtain ⟨_, hd, -⟩ := Res.bind_eq_ok.1 hd
    rw [BigInt.deref_eq_ok] at hc hn hd
    refine ⟨?_, ?_, ?_⟩
    · rw [hc]
      exact Option.some_ne_none _
    · rw [hn]
      exact Option.some_ne_none _
    · rw [hd]
      exact Option.some_ne_none _
  · intro ⟨hc, hn, hd⟩
    cases chainId with
    | none => exact absurd rfl hc
    | some _ =>
      cases nonce with
      | none => exact absurd rfl hn
      | some _ =>
        cases duration with
        | none => exact absurd rfl hd
        | some _ => exact ⟨_, rfl⟩

theorem onlyPanics_channelId (cr : Crypto) (fp : FixedPart) : Res.OnlyPanics (fp.channelId cr) := by
  have hval (n : BigInt) : Res.OnlyPanics (uint256Val n) :=
    (BigInt.onlyPanics_deref n).bind fun n => Res.onlyPanics_ok _
  exact (hval fp.chainId).bind fun _ => (hval fp.channelNonce).bind fun _ =>
    (hval fp.challengeDuration).bind fun _ => Res.onlyPanics_ok _

theorem panics_channelId : Res.Panics (fp.channelId cr) ↔ ¬ fp.Complete := by
  rw [(onlyPanics_channelId cr fp).panics_iff, channelId_ok_iff]

/-- the checks look at two of the numbers, and the id needs three -/
theorem panics_validate : Res.Panics (fp.validate cr) ↔
    fp.chainId ≠ none ∧ fp.channelNonce ≠ none ∧ fp.challengeDuration = none := by
  unfold validate
  rw [Res.panics_failIf_bind, Res.panics_failIf_bind, Res.panics_bind, panics_channelId]
  constructor
  · intro ⟨hc, hn, h⟩
    refine ⟨hc, hn, ?_⟩
    rcases h with h | ⟨id, -, h⟩
    · by_contra hd
      exact h ⟨hc, hn, hd⟩
    · exact absurd h Res.not_panics_failIf
  · intro ⟨hc, hn, hd⟩
    exact ⟨hc, hn, .inl fun h => h.challengeDuration hd⟩

theorem complete_of_validate (h : fp.validate cr = .ok ()) : fp.Complete := by
  obtain ⟨id, hid, -⟩ := validate_ok h
  exact (channelId_ok_iff cr).1 ⟨id, hid⟩

theorem clone_of_complete (h : fp.Complete) : fp.clone = .ok fp := by
  -- any hash will do: the id only says that the numbers are there
  obtain ⟨d, hd⟩ := (channelId_ok_iff Crypto.plain).2 h
  exact clone_ok hd

end FixedPart

/-! ## amounts -/

namespace Exit
variable {e : Exit}

theorem complete_iff : Complete e ↔ ∀ x ∈ e, ∀ a ∈ x.allocations, ∃ n, a.amount = some n := by
  unfold Complete
  simp only [Option.ne_none_iff_exists']

theorem clone_of_complete (h : Complete e) : e.clone = .ok e := clone_of_amounts (complete_iff.1 h)

theorem onlyPanics_clone (e : Exit) : Res.OnlyPanics (Exit.clone e) := by
  have hallocation (a : Allocation) : Res.OnlyPanics a.clone :=
    (BigInt.onlyPanics_deref a.amount).bind fun n => Res.onlyPanics_ok _
  have hexit (x : SingleAssetExit) : Res.OnlyPanics x.clone :=
    (Res.onlyPanics_mapM hallocation x.allocations).bind fun as => Res.onlyPanics_ok _
  exact Res.onlyPanics_mapM hexit e

theorem panics_clone : Res.Panics (Exit.clone e) ↔ ¬ Complete e := by
  rw [(onlyPanics_clone e).panics_iff]
  refine not_congr ?_
  constructor
  · intro ⟨e', h⟩
    exact complete_iff.2 (amounts_of_clone h)
  · intro h
    exact ⟨e, clone_of_complete h⟩

theorem not_panics_fundsBy {f : Allocations → Res Int}
    (h : ∀ x ∈ e, ¬ Res.Panics (f x.allocations)) (funds : Funds) :
    ¬ Res.Panics (fundsBy f e funds) := by
  induction e generalizing funds with
  | nil => exact Res.not_panics_ok funds
  | cons x e ih =>
    intro hp
    rcases Res.panics_bind.1 hp with hp | ⟨n, -, hp⟩
    · exact h x List.mem_cons_self hp
    · exact ih (fun y hy => h y (List.mem_cons_of_mem _ hy)) _ hp

end Exit

namespace Allocations
variable {as : Allocations}

theorem not_panics_total (h : ∀ a ∈ as, a.amount ≠ none) : ¬ Res.Panics (total as) := by
  induction as with
  | nil => exact Res.not_panics_ok 0
  | cons a as ih =>
    obtain ⟨ha, has⟩ := List.forall_mem_cons.1 h
    intro hp
    rcases Res.panics_bind.1 hp with hp | ⟨n, -, hp⟩
    · exact ha (BigInt.panics_deref.1 hp)
    · rcases Res.panics_bind.1 hp with hp | ⟨rest, -, hp⟩
      · exact ih has hp
      · exact Res.not_panics_ok _ hp

theorem not_panics_totalFor (dest : Destination) (h : ∀ a ∈ as, a.amount ≠ none) :
    ¬ Res.Panics (totalFor dest as) := by
  induction as with
  | nil => exact Res.not_panics_ok 0
  | cons a as ih =>
    obtain ⟨ha, has⟩ := List.forall_mem_cons.1 h
    intro hp
    unfold totalFor at hp
    by_cases hdest : a.destination = dest
    · rw [if_pos hdest] at hp
      rcases Res.panics_bind.1 hp with hp | ⟨n, -, hp⟩
      · exact ha (BigInt.panics_deref.1 hp)
      · rcases Res.panics_bind.1 hp with hp | ⟨rest, -, hp⟩
        · exact ih has hp
        · exact Res.not_panics_ok _ hp
    · rw [if_neg hdest] at hp
      exact ih has hp

theorem not_panics_depositSafetyThreshold (interest : Destination) (h : ∀ a ∈ as, a.amount ≠ none) :
    ¬ Res.Panics (depositSafetyThreshold interest as) := by
  induction as with
  | nil => exact Res.not_panics_ok 0
  | cons a as ih =>
    obtain ⟨ha, has⟩ := List.forall_mem_cons.1 h
    intro hp
    unfold depositSafetyThreshold at hp
    by_cases hdest : a.destination = interest
    · rw [if_pos hdest] at hp
      exact Res.not_panics_ok _ hp
    · rw [if_neg hdest] at hp
      rcases Res.panics_bind.1 hp with hp | ⟨n, -, hp⟩
      · exact ha (BigInt.panics_deref.1 hp)
      · rcases Res.panics_bind.1 hp with hp | ⟨rest, -, hp⟩
        · exact ih has hp
        · exact Res.not_panics_ok _ hp

end Allocations

/-! ## new channels -/

/-- the checks of `Validate` stop a state without a chain id or a nonce, not one without a challenge
duration -/
def State.Checkable (s : State) : Prop :=
  s.chainId ≠ none → s.channelNonce ≠ none → s.challengeDuration ≠ none

theorem State.panics_validate {cr : Crypto} {s : State} :
    Res.Panics (s.fixedPart.validate cr) ↔ ¬ s.Checkable := by
  rw [FixedPart.panics_validate]
  unfold State.Checkable
  constructor
  · intro ⟨hc, hn, hd⟩ h
    exact h hc hn hd
  · intro h
    by_contra hp
    refine h fun hc hn hd => hp ⟨hc, hn, hd⟩

theorem State.clone_of_complete {s : State} (hf : s.fixedPart.Complete) (ho : s.outcome.Complete) :
    s.clone = .ok { s with appData := [] } := by
  unfold State.clone
  rw [FixedPart.clone_of_complete hf, Exit.clone_of_complete ho]
  rfl

theorem State.panics_clone {s : State} (hf : s.fixedPart.Complete) :
    Res.Panics s.clone ↔ ¬ s.outcome.Complete := by
  unfold State.clone
  rw [FixedPart.clone_of_complete hf, Res.ok_bind, Res.panics_bind, Exit.panics_clone]
  constructor
  · intro h
    rcases h with h | ⟨o, -, h⟩
    · exact h
    · exact absurd h (Res.not_panics_ok _)
  · intro h
    exact .inl h

/-- **`New` panics on a missing number**: the challenge duration or, once the checks have passed, an
amount -/
theorem Channel.panics_new {cr : Crypto} {s : State} {i : Nat} : Res.Panics (Channel.new cr s i) ↔
    ¬ (s.Checkable ∧ (s.fixedPart.validate cr = .ok () → s.outcome.Complete)) := by
  have hvalidate : Res.Panics (s.validate cr) ↔ ¬ s.Checkable := State.panics_validate
  unfold Channel.new
  rw [Res.panics_bind, hvalidate]
  constructor
  · intro h ⟨hcheck, hcomplete⟩
    rcases h with h | ⟨u, hu, h⟩
    · exact h hcheck
    · have hf := FixedPart.complete_of_validate hu
      have ho := hcomplete hu
      rcases Res.panics_bind.1 h with h | ⟨id, -, h⟩
      · exact FixedPart.panics_channelId.1 h hf
      · rcases Res.panics_bind.1 h with h | ⟨post, -, h⟩
        · exact (State.panics_clone hf).1 h ho
        · rcases Res.panics_bind.1 h with h | ⟨total, -, h⟩
          · exact Exit.not_panics_fundsBy (fun x hx => Allocations.not_panics_total (ho x hx)) _ h
          · exact Res.not_panics_ok _ h
  · intro h
    by_cases hcheck : s.Checkable
    · right
      by_cases hu : s.fixedPart.validate cr = .ok ()
      · have hf := FixedPart.complete_of_validate hu
        obtain ⟨id, hid⟩ := (FixedPart.channelId_ok_iff cr).2 hf
        refine ⟨(), hu, Res.panics_bind.2 (.inr ⟨id, hid, Res.panics_bind.2 (.inl ?_)⟩)⟩
        exact (State.panics_clone hf).2 fun ho => h ⟨hcheck, fun _ => ho⟩
      · exact absurd ⟨hcheck, fun hv => absurd hv hu⟩ h
    · exact .inl hcheck

theorem Channel.complete_of_new {cr : Crypto} {s : State} {i : Nat} {c : Channel}
    (h : Channel.new cr s i = .ok c) : s.outcome.Complete := by
  by_contra ho
  obtain ⟨u, hu, -⟩ := Res.bind_eq_ok.1 h
  have hp : Res.Panics (Channel.new cr s i) := Channel.panics_new.2 fun hc => ho (hc.2 hu)
  rw [h] at hp
  exact Res.not_panics_ok _ hp

/-! ## direct funding -/

namespace DirectFund

/-- a prefund state for one of its participants has all its amounts -/
def Harmless (cr : Crypto) (me : Address) (s : State) : Prop :=
  s.Checkable ∧ (s.fixedPart.validate cr = .ok () → s.turnNum = 0 → s.isFinal = false →
    me ∈ s.participants → s.outcome.Complete)

theorem panics_constructFromState {cr : Crypto} {preApprove : Bool} {s : State} {me : Address} :
    Res.Panics (constructFromState cr preApprove s me) ↔ ¬ Harmless cr me s := by
  unfold constructFromState
  rw [Res.panics_bind, State.panics_validate]
  constructor
  · intro h ⟨hcheck, hcomplete⟩
    rcases h with h | ⟨u, hu, h⟩
    · exact h hcheck
    · obtain ⟨hturn, h⟩ := Res.panics_failIf_bind.1 h
      obtain ⟨hfinal, h⟩ := Res.panics_failIf_bind.1 h
      cases hi : s.participants.findIdx? (fun v => decide (v = me)) with
      | none =>
        rw [hi] at h
        exact Res.not_panics_err _ h
      | some i =>
        rw [hi] at h
        have hmem : me ∈ s.participants := by
          obtain ⟨hlt, hme, -⟩ := List.findIdx?_eq_some_iff_getElem.1 hi
          rw [← of_decide_eq_true hme]
          exact List.getElem_mem hlt
        have ho := hcomplete hu (not_ne_iff.1 hturn) (Bool.eq_false_of_not_eq_true hfinal) hmem
        rcases Res.panics_bind.1 h with h | ⟨c, -, h⟩
        · exact Channel.panics_new.1 (Res.panics_wrap.1 h) ⟨hcheck, fun _ => ho⟩
        · rcases Res.panics_bind.1 h with h | ⟨mine, -, h⟩
          · exact Exit.not_panics_fundsBy
              (fun x hx => Allocations.not_panics_totalFor _ (ho x hx)) _ h
          · rcases Res.panics_bind.1 h with h | ⟨total, -, h⟩
            · exact Exit.not_panics_fundsBy (fun x hx => Allocations.not_panics_total (ho x hx)) _ h
            · rcases Res.panics_bind.1 h with h | ⟨threshold, -, h⟩
              · exact Exit.not_panics_fundsBy
                  (fun x hx => Allocations.not_panics_depositSafetyThreshold _ (ho x hx)) _ h
              · exact Res.not_panics_ok _ h
  · intro h
    by_cases hcheck : s.Checkable
    · right
      have hall : ¬ (s.fixedPart.validate cr = .ok () → s.turnNum = 0 → s.isFinal = false →
          me ∈ s.participants → s.outcome.Complete) := fun hc => h ⟨hcheck, hc⟩
      push Not at hall
      obtain ⟨hu, hturn, hfinal, hmem, ho⟩ := hall
      refine ⟨(), hu, Res.panics_failIf_bind.2 ⟨not_ne_iff.2 hturn, ?_⟩⟩
      refine Res.panics_failIf_bind.2 ⟨by rw [hfinal]; exact Bool.false_ne_true, ?_⟩
      cases hi : s.participants.findIdx? (fun v => decide (v = me)) with
      | none =>
        have hne := List.findIdx?_eq_none_iff.1 hi me hmem
        rw [decide_eq_true rfl] at hne
        cases hne
      | some i =>
        refine Res.panics_bind.2 (.inl (Res.panics_wrap.2 (Channel.panics_new.2 ?_)))
        exact fun hp => ho (hp.2 hu)
    · exact .inl hcheck

end DirectFund

/-! ## virtual funding -/

namespace VirtualFund
variable {cr : Crypto} {me : Address} {s : State}

theorem lastIndex_three (alice intermediary bob : Address) :
    lastIndex me [alice, intermediary, bob] =
      if bob = me then some 2 else if intermediary = me then some 1
      else if alice = me then some 0 else none := rfl

theorem lastIndex_of_three (me : Address) (hlen : s.participants.length = 3) :
    (∃ i ≤ 2, lastIndex me s.participants = some i ∧ me ∈ s.participants) ∨
      lastIndex me s.participants = none ∧ me ∉ s.participants := by
  obtain ⟨alice, intermediary, bob, hps⟩ := List.length_eq_three.1 hlen
  rw [hps, lastIndex_three]
  by_cases hb : bob = me
  · rw [if_pos hb, hb]
    exact .inl ⟨2, le_refl 2, rfl, by simp⟩
  · rw [if_neg hb]
    by_cases hi : intermediary = me
    · rw [if_pos hi, hi]
      exact .inl ⟨1, Nat.le_succ 1, rfl, by simp⟩
    · rw [if_neg hi]
      by_cases ha : alice = me
      · rw [if_pos ha, ha]
        exact .inl ⟨0, Nat.zero_le 2, rfl, by simp⟩
      · rw [if_neg ha]
        refine .inr ⟨rfl, ?_⟩
        simp only [List.mem_cons, List.not_mem_nil, or_false, not_or]
        exact ⟨Ne.symm ha, Ne.symm hi, Ne.symm hb⟩

theorem panics_newSingleHopVirtualChannel {i : Nat} :
    Res.Panics (Channel.newSingleHopVirtualChannel cr s i) ↔
      i ≤ 2 ∧ s.participants.length = 3 ∧ (∀ x ∈ s.outcome, x.allocations.length = 2) ∧
        Res.Panics (Channel.new cr s i) := by
  unfold Channel.newSingleHopVirtualChannel
  rw [Res.panics_failIf_bind, Res.panics_failIf_bind, Res.panics_failIf_bind, not_lt, not_ne_iff]
  push Not
  rfl

theorem not_panics_initialAmounts {alice bob : Address} {n : Nat} {e : Exit}
    (htwo : ∀ x ∈ e, x.allocations.length = 2) (hcomplete : e.Complete) (amounts : Funds × Funds) :
    ¬ Res.Panics (initialAmounts alice bob n e amounts) := by
  induction e generalizing amounts with
  | nil => exact Res.not_panics_ok amounts
  | cons x e ih =>
    obtain ⟨hx, htwo⟩ := List.forall_mem_cons.1 htwo
    obtain ⟨hamounts, hcomplete⟩ := List.forall_mem_cons.1 hcomplete
    obtain ⟨slot0, slot1, hslots⟩ := List.length_eq_two.1 hx
    rw [hslots] at hamounts
    have h0 : slot0.amount ≠ none := hamounts slot0 List.mem_cons_self
    have h1 : slot1.amount ≠ none := hamounts slot1 (List.mem_cons_of_mem _ List.mem_cons_self)
    obtain ⟨a0, b0⟩ := amounts
    unfold initialAmounts
    rw [hslots]
    show ¬ Res.Panics (failIf _ _ >>= _)
    rw [Res.panics_failIf_bind]
    intro ⟨_, h⟩
    obtain ⟨-, h⟩ := Res.panics_failIf_bind.1 h
    rcases Res.panics_bind.1 h with h | ⟨amount0, -, h⟩
    · exact h0 (BigInt.panics_deref.1 h)
    · rcases Res.panics_bind.1 h with h | ⟨amount1, -, h⟩
      · exact h1 (BigInt.panics_deref.1 h)
      · exact ih htwo hcomplete _ h

theorem not_panics_newConnection {v : Channel} {a0 b0 : Funds} {i : Nat} {l : ConsensusChannel}
    (hi : i + 1 < v.fixedPart.participants.length) : ¬ Res.Panics (newConnection v a0 b0 i l) := by
  have hleft : index v.fixedPart.participants i = .ok (v.fixedPart.participants[i]) :=
    index_eq_ok.2 (List.getElem?_eq_getElem _)
  have hright : index v.fixedPart.participants (i + 1) = .ok (v.fixedPart.participants[i + 1]) :=
    index_eq_ok.2 (List.getElem?_eq_getElem _)
  unfold newConnection
  rw [hleft, Res.ok_bind, hright, Res.ok_bind]
  exact Res.not_panics_ok _

theorem not_panics_connectionToMyLeft {v : Channel} {a0 b0 : Funds} {i : Nat}
    {ledger : Option ConsensusChannel} (hi : i < v.fixedPart.participants.length) :
    ¬ Res.Panics (connectionToMyLeft v a0 b0 i ledger) := by
  unfold connectionToMyLeft
  by_cases h0 : i = 0
  · rw [if_pos h0]
    exact Res.not_panics_ok _
  · rw [if_neg h0]
    cases ledger with
    | none => exact Res.not_panics_err _
    | some l =>
      intro h
      rcases Res.panics_bind.1 h with h | ⟨c, -, h⟩
      · exact not_panics_newConnection (by omega) h
      · exact Res.not_panics_ok _ h

theorem not_panics_connectionToMyRight {v : Channel} {a0 b0 : Funds} {n i : Nat}
    {ledger : Option ConsensusChannel} (hn : v.fixedPart.participants.length = n + 2)
    (hi : i < v.fixedPart.participants.length) :
    ¬ Res.Panics (connectionToMyRight v a0 b0 n i ledger) := by
  unfold connectionToMyRight
  by_cases hlast : i = n + 1
  · rw [if_pos hlast]
    exact Res.not_panics_ok _
  · rw [if_neg hlast]
    cases ledger with
    | none => exact Res.not_panics_err _
    | some l =>
      intro h
      rcases Res.panics_bind.1 h with h | ⟨c, -, h⟩
      · exact not_panics_newConnection (by omega) h
      · exact Res.not_panics_ok _ h

/-- **whatever the ledgers are**: once the channel is made, nothing panics -/
theorem panics_constructFromState {preApprove : Bool} {left right : Option ConsensusChannel} :
    Res.Panics (constructFromState cr preApprove s me left right) ↔
      me ∈ s.participants ∧ s.participants.length = 3 ∧
        (∀ x ∈ s.outcome, x.allocations.length = 2) ∧
        ¬ (s.Checkable ∧ (s.fixedPart.validate cr = .ok () → s.outcome.Complete)) := by
  by_cases hlen : s.participants.length = 3
  · rcases lastIndex_of_three me hlen with ⟨i, hle, hi, hmem⟩ | ⟨hi, hmem⟩
    · unfold constructFromState
      rw [hi]
      show Res.Panics (Channel.newSingleHopVirtualChannel cr s i >>= _) ↔ _
      rw [Res.panics_bind, panics_newSingleHopVirtualChannel, Channel.panics_new]
      constructor
      · intro h
        rcases h with ⟨-, -, htwo, h⟩ | ⟨v, hv, h⟩
        · exact ⟨hmem, hlen, htwo, h⟩
        · exfalso
          obtain ⟨-, -, htwo, hnew⟩ := newSingleHopVirtualChannel_ok hv
          have hcomplete := Channel.complete_of_new hnew
          have hvlen : v.fixedPart.participants.length = 3 := by
            rw [(Channel.new_ok hnew).2.2.1]
            exact hlen
          obtain ⟨alice, intermediary, bob, hps⟩ := List.length_eq_three.1 hlen
          have halice : index [alice, intermediary, bob] 0 = .ok alice := rfl
          have hbob : index [alice, intermediary, bob]
            ([alice, intermediary, bob].length - 2 + 1) = .ok bob := rfl
          rw [hps, halice, Res.ok_bind, hbob, Res.ok_bind] at h
          rcases Res.panics_bind.1 h with h | ⟨⟨a0, b0⟩, -, h⟩
          · exact not_panics_initialAmounts htwo hcomplete _ h
          · rcases Res.panics_bind.1 h with h | ⟨l, -, h⟩
            · exact not_panics_connectionToMyLeft (by omega) h
            · rcases Res.panics_bind.1 h with h | ⟨r, -, h⟩
              · exact not_panics_connectionToMyRight hvlen (by omega) h
              · exact Res.not_panics_ok _ h
      · intro ⟨_, _, htwo, h⟩
        exact .inl ⟨hle, hlen, htwo, h⟩
    · refine iff_of_false ?_ fun h => hmem h.1
      unfold constructFromState
      rw [hi]
      exact Res.not_panics_err _
  · refine iff_of_false ?_ fun h => hlen h.2.1
    intro h
    unfold constructFromState at h
    cases hi : lastIndex me s.participants with
    | none =>
      rw [hi] at h
      exact Res.not_panics_err _ h
    | some i =>
      rw [hi] at h
      rcases Res.panics_bind.1 h with h | ⟨v, hv, -⟩
      · exact hlen (panics_newSingleHopVirtualChannel.1 h).2.1
      · exact hlen (newSingleHopVirtualChannel_ok hv).2.1

/-- the client is the last or the middle participant, and has the ledgers it needs -/
def Routed (getLedger : Address → Option ConsensusChannel) (me : Address) : List Address → Prop
  | alice :: intermediary :: bob :: _ => me ≠ alice ∧
      ((me = bob ∧ (getLedger intermediary).isSome) ∨
        (me ≠ bob ∧ me = intermediary ∧ (getLedger alice).isSome ∧ (getLedger bob).isSome))
  | _ => False

theorem Routed.mem {getLedger : Address → Option ConsensusChannel} {ps : List Address}
    (h : Routed getLedger me ps) : me ∈ ps := by
  unfold Routed at h
  split at h
  · rcases h with ⟨-, ⟨rfl, -⟩ | ⟨-, rfl, -⟩⟩
    · simp
    · simp
  · exact h.elim

/-- there are three participants to look at; a state that gets as far as the channel has its numbers -/
def Harmless (cr : Crypto) (me : Address) (getLedger : Address → Option ConsensusChannel) (s : State) :
    Prop :=
  3 ≤ s.participants.length ∧ (Routed getLedger me s.participants → s.participants.length = 3 →
    (∀ x ∈ s.outcome, x.allocations.length = 2) →
    s.Checkable ∧ (s.fixedPart.validate cr = .ok () → s.outcome.Complete))

theorem panics_constructObjectiveFromState {preapprove : Bool}
    {getLedger : Address → Option ConsensusChannel} :
    Res.Panics (constructObjectiveFromState cr s preapprove me getLedger) ↔
      ¬ Harmless cr me getLedger s := by
  -- an error before the channel is made, or the channel is made
  have hcases : (s.participants.length < 3 ∧
      Res.Panics (constructObjectiveFromState cr s preapprove me getLedger)) ∨
      (3 ≤ s.participants.length ∧ ¬ Routed getLedger me s.participants ∧
        ¬ Res.Panics (constructObjectiveFromState cr s preapprove me getLedger)) ∨
      (3 ≤ s.participants.length ∧ Routed getLedger me s.participants ∧ ∃ left right,
        constructObjectiveFromState cr s preapprove me getLedger =
          constructFromState cr preapprove s me left right) := by
    unfold constructObjectiveFromState
    match hps : s.participants with
    | [] => exact .inl ⟨by simp, Res.panics_panic _⟩
    | [_] => exact .inl ⟨by simp, Res.panics_panic _⟩
    | [_, _] => exact .inl ⟨by simp, Res.panics_panic _⟩
    | alice :: intermediary :: bob :: rest =>
      have hlen : 3 ≤ (alice :: intermediary :: bob :: rest).length := by simp
      right
      show (_ ∧ ¬ (me ≠ alice ∧ _) ∧ ¬ Res.Panics (if me = alice then _ else _)) ∨
        (_ ∧ (me ≠ alice ∧ _) ∧ ∃ left right, (if me = alice then _ else _) = _)
      by_cases ha : me = alice
      · rw [if_pos ha]
        exact .inl ⟨hlen, fun h => h.1 ha, Res.not_panics_err _⟩
      · rw [if_neg ha]
        by_cases hb : me = bob
        · rw [if_pos hb]
          cases hl : getLedger intermediary with
          | none =>
            refine .inl ⟨hlen, ?_, Res.not_panics_err _⟩
            rintro ⟨-, ⟨-, h⟩ | ⟨h, -⟩⟩
            · cases h
            · exact h hb
          | some l => exact .inr ⟨hlen, ⟨ha, .inl ⟨hb, rfl⟩⟩, some l, none, rfl⟩
        · rw [if_neg hb]
          by_cases hi : me = intermediary
          · rw [if_pos hi]
            cases hl : getLedger alice with
            | none =>
              refine .inl ⟨hlen, ?_, Res.not_panics_err _⟩
              rintro ⟨-, ⟨h, -⟩ | ⟨-, -, h, -⟩⟩
              · exact hb h
              · cases h
            | some l =>
              cases hr : getLedger bob with
              | none =>
                refine .inl ⟨hlen, ?_, Res.not_panics_err _⟩
                rintro ⟨-, ⟨h, -⟩ | ⟨-, -, -, h⟩⟩
                · exact hb h
                · cases h
              | some r =>
                exact .inr ⟨hlen, ⟨ha, .inr ⟨hb, hi, rfl, rfl⟩⟩, some l, some r, rfl⟩
          · rw [if_neg hi]
            refine .inl ⟨hlen, ?_, Res.not_panics_err _⟩
            rintro ⟨-, ⟨h, -⟩ | ⟨-, h, -⟩⟩
            · exact hb h
            · exact hi h
  rcases hcases with ⟨hlen, hp⟩ | ⟨hlen, hrouted, hp⟩ | ⟨hlen, hrouted, left, right, heq⟩
  · exact iff_of_true hp fun h => absurd h.1 (by omega)
  · exact iff_of_false hp fun h => h ⟨hlen, fun hr => absurd hr hrouted⟩
  · rw [heq, panics_constructFromState]
    constructor
    · intro ⟨_, hthree, htwo, h⟩ hharmless
      exact h (hharmless.2 hrouted hthree htwo)
    · intro h
      by_contra hn
      refine h ⟨hlen, fun _ hthree htwo => ?_⟩
      by_contra hc
      exact hn ⟨hrouted.mem, hthree, htwo, hc⟩

end VirtualFund

/-! ## virtual defunding -/

theorem onlyPanics_index {α : Type} (l : List α) (i : Nat) : Res.OnlyPanics (index l i) := by
  intro e h
  unfold index at h
  cases hl : l[i]? with
  | some a =>
    rw [hl] at h
    cases h
  | none =>
    rw [hl] at h
    cases h

/-- the amount of the second allocation of the first exit: Bob's -/
def Exit.secondAmount (e : Exit) : BigInt := do
  let x ← e[0]?
  let a ← x.allocations[1]?
  a.amount

theorem Exit.secondAmount_eq_some {e : Exit} {n : Int} : e.secondAmount = some n ↔
    ∃ x a, e[0]? = some x ∧ x.allocations[1]? = some a ∧ a.amount = some n := by
  unfold secondAmount
  simp only [Option.bind_eq_bind, Option.bind_eq_some_iff]
  constructor
  · intro ⟨x, hx, a, ha, hn⟩
    exact ⟨x, a, hx, ha, hn⟩
  · intro ⟨x, a, hx, ha, hn⟩
    exact ⟨x, hx, a, ha, hn⟩

namespace VirtualDefund
variable {cr : Crypto} {me : Address} {s : State} {getChannel : Destination → Option Channel}
  {getLedger : Address → Option ConsensusChannel}

theorem not_panics_findLedgers {alice intermediary bob : Address} :
    ¬ Res.Panics (findLedgers alice intermediary bob me getLedger) := by
  unfold findLedgers
  dsimp only
  by_cases ha : me = alice
  · rw [if_pos ha]
    cases getLedger intermediary with
    | none => exact Res.not_panics_err _
    | some r => exact Res.not_panics_ok _
  · rw [if_neg ha]
    by_cases hi : me = intermediary
    · rw [if_pos hi]
      cases getLedger alice with
      | none => exact Res.not_panics_err _
      | some l =>
        cases getLedger bob with
        | none => exact Res.not_panics_err _
        | some r => exact Res.not_panics_ok _
    · rw [if_neg hi]
      by_cases hb : me = bob
      · rw [if_pos hb]
        cases getLedger intermediary with
        | none => exact Res.not_panics_err _
        | some l => exact Res.not_panics_ok _
      · rw [if_neg hb]
        exact Res.not_panics_err _

/-- what the stored channel must have for an objective to be tried -/
structure Readable (c : Channel) : Prop where
  prefund : c.preFundState.outcome.secondAmount ≠ none
  postfund : c.postFundState.outcome ≠ []
  participants : 3 ≤ c.fixedPart.participants.length

theorem calculatePaidToBob_ok_iff {c : Channel} {cId : Destination} (hfinal : s.isFinal = true)
    (hid : s.channelId cr = .ok cId) (hc : getChannel cId = some c) :
    (∃ n, calculatePaidToBob cr s getChannel = .ok n) ↔
      c.preFundState.outcome.secondAmount ≠ none ∧ s.outcome.secondAmount ≠ none := by
  unfold calculatePaidToBob
  simp only [Option.ne_none_iff_exists', Exit.secondAmount_eq_some]
  constructor
  · rintro ⟨n, h⟩
    obtain ⟨-, h⟩ := failIf_bind_eq_ok.1 h
    rw [hid, Res.ok_bind, hc] at h
    obtain ⟨x, hx, h⟩ := Res.bind_eq_ok.1 h
    obtain ⟨a, ha, h⟩ := Res.bind_eq_ok.1 h
    obtain ⟨y, hy, h⟩ := Res.bind_eq_ok.1 h
    obtain ⟨b, hb, h⟩ := Res.bind_eq_ok.1 h
    obtain ⟨m, hm, h⟩ := Res.bind_eq_ok.1 h
    obtain ⟨k, hk, -⟩ := Res.bind_eq_ok.1 h
    exact ⟨⟨k, x, a, index_eq_ok.1 hx, index_eq_ok.1 ha, BigInt.deref_eq_ok.1 hk⟩,
      m, y, b, index_eq_ok.1 hy, index_eq_ok.1 hb, BigInt.deref_eq_ok.1 hm⟩
  · rintro ⟨⟨k, x, a, hx, ha, hk⟩, m, y, b, hy, hb, hm⟩
    have hpass : ¬ s.isFinal = false := by
      rw [hfinal]
      decide
    refine ⟨m - k, failIf_bind_eq_ok.2 ⟨hpass, ?_⟩⟩
    rw [hid, Res.ok_bind, hc]
    refine Res.bind_eq_ok.2 ⟨x, index_eq_ok.2 hx, Res.bind_eq_ok.2 ⟨a, index_eq_ok.2 ha, ?_⟩⟩
    refine Res.bind_eq_ok.2 ⟨y, index_eq_ok.2 hy, Res.bind_eq_ok.2 ⟨b, index_eq_ok.2 hb, ?_⟩⟩
    exact Res.bind_eq_ok.2 ⟨m, BigInt.deref_eq_ok.2 hm,
      Res.bind_eq_ok.2 ⟨k, BigInt.deref_eq_ok.2 hk, rfl⟩⟩

theorem panics_calculatePaidToBob {c : Channel} {cId : Destination} (hfinal : s.isFinal = true)
    (hid : s.channelId cr = .ok cId) (hc : getChannel cId = some c) :
    Res.Panics (calculatePaidToBob cr s getChannel) ↔
      ¬ (c.preFundState.outcome.secondAmount ≠ none ∧ s.outcome.secondAmount ≠ none) := by
  have honly : Res.OnlyPanics (calculatePaidToBob cr s getChannel) := by
    unfold calculatePaidToBob
    have hpass : ¬ s.isFinal = false := by
      rw [hfinal]
      exact fun h => nomatch h
    rw [failIf, if_neg hpass, Res.ok_bind, hid, Res.ok_bind, hc]
    refine (onlyPanics_index _ _).bind fun x => (onlyPanics_index _ _).bind fun a => ?_
    refine (onlyPanics_index _ _).bind fun y => (onlyPanics_index _ _).bind fun b => ?_
    exact (BigInt.onlyPanics_deref _).bind fun m => (BigInt.onlyPanics_deref _).bind fun k =>
      Res.onlyPanics_ok _
  rw [honly.panics_iff, calculatePaidToBob_ok_iff hfinal hid hc]

theorem panics_newObjective {request : ObjectiveRequest} {preApprove : Bool} {c : Channel}
    (hc : getChannel request.channelId = some c) :
    Res.Panics (newObjective request preApprove me getChannel getLedger) ↔
      c.postFundState.outcome = [] ∨ c.fixedPart.participants.length < 3 := by
  unfold newObjective
  rw [hc]
  show Res.Panics (index c.postFundState.outcome 0 >>= _) ↔ _
  cases c.postFundState.outcome with
  | nil => exact iff_of_true (Res.panics_panic _) (.inl rfl)
  | cons x e =>
    match c.fixedPart.participants with
    | [] => exact iff_of_true (Res.panics_panic _) (.inr (by simp))
    | [_] => exact iff_of_true (Res.panics_panic _) (.inr (by simp))
    | [_, _] => exact iff_of_true (Res.panics_panic _) (.inr (by simp))
    | alice :: intermediary :: bob :: rest =>
      refine iff_of_false ?_ ?_
      · intro h
        change Res.Panics (findLedgers alice intermediary bob me getLedger >>= _) at h
        rcases Res.panics_bind.1 h with h | ⟨⟨l, r⟩, -, h⟩
        · exact not_panics_findLedgers h
        · exact Res.not_panics_ok _ h
      · intro h
        rcases h with h | h
        · cases h
        · simp only [List.length_cons] at h
          omega

/-- a final state for a channel that is stored has an amount for Bob, and so had the channel; a final
state for any other channel is answered with an error -/
def Harmless (cr : Crypto) (getChannel : Destination → Option Channel) (s : State) : Prop :=
  s.Checkable ∧ (s.fixedPart.validate cr = .ok () → s.isFinal = true →
    ∀ cId c, s.channelId cr = .ok cId → getChannel cId = some c →
      s.outcome.secondAmount ≠ none ∧ Readable c)

theorem calculatePaidToBob_unknown {cId : Destination} (hfinal : s.isFinal = true)
    (hid : s.channelId cr = .ok cId) (hc : getChannel cId = none) :
    calculatePaidToBob cr s getChannel =
      .error (.err (.new ("could not find channel " ++ destinationString cId))) := by
  unfold calculatePaidToBob
  have hpass : ¬ s.isFinal = false := by
    rw [hfinal]
    exact fun h => nomatch h
  rw [failIf, if_neg hpass, Res.ok_bind, hid, Res.ok_bind, hc]

theorem panics_constructObjectiveFromState {preapprove : Bool} :
    Res.Panics (constructObjectiveFromState cr s preapprove me getChannel getLedger) ↔
      ¬ Harmless cr getChannel s := by
  unfold constructObjectiveFromState
  rw [Res.panics_bind, State.panics_validate]
  constructor
  · intro h ⟨hcheck, hharmless⟩
    rcases h with h | ⟨u, hu, h⟩
    · exact h hcheck
    · obtain ⟨cId, hid, -⟩ := FixedPart.validate_ok hu
      have hid : s.channelId cr = .ok cId := hid
      rw [hid, Res.ok_bind] at h
      by_cases hfinal : s.isFinal = true
      · cases hc : getChannel cId with
        | none =>
          rw [calculatePaidToBob_unknown hfinal hid hc, Res.error_bind] at h
          exact Res.not_panics_err _ h
        | some c =>
          obtain ⟨hbob, hreadable⟩ := hharmless hu hfinal cId c hid hc
          rcases Res.panics_bind.1 h with h | ⟨n, -, h⟩
          · exact (panics_calculatePaidToBob hfinal hid hc).1 h ⟨hreadable.prefund, hbob⟩
          · rcases (panics_newObjective hc).1 h with h | h
            · exact hreadable.postfund h
            · exact absurd hreadable.participants (by omega)
      · rcases Res.panics_bind.1 h with h | ⟨n, hn, -⟩
        · obtain ⟨hpass, -⟩ := Res.panics_failIf_bind.1 h
          exact hpass (Bool.eq_false_of_not_eq_true hfinal)
        · obtain ⟨hpass, -⟩ := failIf_bind_eq_ok.1 hn
          exact hpass (Bool.eq_false_of_not_eq_true hfinal)
  · intro h
    by_cases hcheck : s.Checkable
    · right
      have hall : ¬ (s.fixedPart.validate cr = .ok () → s.isFinal = true →
          ∀ cId c, s.channelId cr = .ok cId → getChannel cId = some c →
            s.outcome.secondAmount ≠ none ∧ Readable c) := fun hc => h ⟨hcheck, hc⟩
      rw [Classical.not_imp, Classical.not_imp, not_forall] at hall
      obtain ⟨hu, hfinal, cId, hall⟩ := hall
      obtain ⟨c, hall⟩ := not_forall.1 hall
      obtain ⟨hid, hall⟩ := Classical.not_imp.1 hall
      obtain ⟨hc, hall⟩ := Classical.not_imp.1 hall
      refine ⟨(), hu, ?_⟩
      rw [hid, Res.ok_bind]
      by_cases hpaid : c.preFundState.outcome.secondAmount ≠ none ∧ s.outcome.secondAmount ≠ none
      · obtain ⟨n, hn⟩ := (calculatePaidToBob_ok_iff hfinal hid hc).2 hpaid
        refine Res.panics_bind.2 (.inr ⟨n, hn, (panics_newObjective hc).2 ?_⟩)
        by_contra hnew
        rw [not_or] at hnew
        exact hall ⟨hpaid.2, hpaid.1, hnew.1, by omega⟩
      · exact Res.panics_bind.2 (.inl ((panics_calculatePaidToBob hfinal hid hc).2 hpaid))
    · exact .inl hcheck

end VirtualDefund

/-! ## comparing and merging -/

theorem not_panics_sliceEqual {α : Type} {eq : α → α → Res Bool} {a b : List α}
    (h : ∀ x ∈ a, ∀ y ∈ b, ¬ Res.Panics (eq x y)) : ¬ Res.Panics (sliceEqual eq a b) := by
  unfold sliceEqual
  by_cases hlen : a.length ≠ b.length
  · rw [if_pos hlen]
    exact Res.not_panics_ok _
  · rw [if_neg hlen]
    clear hlen
    induction a generalizing b with
    | nil => exact Res.not_panics_ok _
    | cons x a ih =>
      cases b with
      | nil => exact Res.not_panics_ok _
      | cons y b =>
        intro hp
        rcases Res.panics_bind.1 hp with hp | ⟨same, -, hp⟩
        · exact h x List.mem_cons_self y List.mem_cons_self hp
        · cases same with
          | false => exact Res.not_panics_ok _ hp
          | true => exact ih (fun x hx y hy => h x (List.mem_cons_of_mem _ hx) y
              (List.mem_cons_of_mem _ hy)) hp

theorem Allocation.not_panics_equal {a b : Allocation} (ha : a.amount ≠ none) (hb : b.amount ≠ none) :
    ¬ Res.Panics (a.equal b) := by
  unfold Allocation.equal
  split
  · obtain ⟨m, hm⟩ := Option.ne_none_iff_exists'.1 ha
    obtain ⟨n, hn⟩ := Option.ne_none_iff_exists'.1 hb
    rw [hm, hn]
    exact Res.not_panics_ok _
  · exact Res.not_panics_ok _

theorem Exit.not_panics_equal {a b : Exit} (ha : a.Complete) (hb : b.Complete) :
    ¬ Res.Panics (a.equal b) := by
  refine not_panics_sliceEqual fun x hx y hy => ?_
  unfold SingleAssetExit.equal
  split
  · exact not_panics_sliceEqual fun p hp q hq =>
      Allocation.not_panics_equal (ha x hx p hp) (hb y hy q hq)
  · exact Res.not_panics_ok _

theorem State.not_panics_equal {s r : State} (hs : s.outcome.Complete) (hr : r.outcome.Complete) :
    ¬ Res.Panics (s.equal r) := by
  unfold State.equal
  split
  · intro h
    rcases Res.panics_bind.1 h with h | ⟨same, -, h⟩
    · exact Exit.not_panics_equal hs hr h
    · exact Res.not_panics_ok _ h
  · exact Res.not_panics_ok _

namespace SignedState
variable {cr : Crypto} {ss ss' : SignedState} {sig : Signature}

structure Signable (cr : Crypto) (ss : SignedState) : Prop where
  recover : ∀ sig, ¬ Res.Panics (ss.state.recoverSigner cr sig)
  sigs : ss.sigs ≠ none

theorem Signable.not_panics_addSignature (h : ss.Signable cr) :
    ¬ Res.Panics (ss.addSignature cr sig) := by
  intro hp
  rcases Res.panics_bind.1 hp with hp | ⟨signer, -, hp⟩
  · exact h.recover sig (Res.panics_wrap.1 hp)
  · split at hp
    · obtain ⟨-, hp⟩ := Res.panics_failIf_bind.1 hp
      unfold setSig at hp
      obtain ⟨m, hm⟩ := Option.ne_none_iff_exists'.1 h.sigs
      rw [hm] at hp
      exact Res.not_panics_ok _ hp
    · exact Res.not_panics_err _ hp

theorem Signable.addSignature (h : ss.Signable cr) (hadd : ss.addSignature cr sig = .ok ss') :
    ss'.Signable cr := by
  refine ⟨?_, ?_⟩
  · rw [(addSignature_ok hadd).1]
    exact h.recover
  · obtain ⟨signer, -, hadd⟩ := Res.bind_eq_ok.1 hadd
    split at hadd
    · obtain ⟨-, hadd⟩ := failIf_bind_eq_ok.1 hadd
      unfold setSig at hadd
      split at hadd
      · cases hadd
        exact Option.some_ne_none _
      · cases hadd
    · cases hadd

theorem Signable.tryAddSignature (h : ss.Signable cr) (sig : Signature) :
    ∃ ss', ss.tryAddSignature cr sig = .ok ss' ∧ ss'.Signable cr := by
  unfold SignedState.tryAddSignature
  cases hadd : ss.addSignature cr sig with
  | ok ss' => exact ⟨ss', rfl, h.addSignature hadd⟩
  | error f =>
    cases f with
    | err e => exact ⟨ss, rfl, h⟩
    | panic r => exact absurd ⟨r, hadd⟩ h.not_panics_addSignature

theorem Signable.not_panics_mergeLoop (h : ss.Signable cr)
    (l : List (Sigma fun _ : Nat => Signature)) : ¬ Res.Panics ((mergeLoop cr l).result ss) := by
  induction l generalizing ss with
  | nil => exact Res.not_panics_ok _
  | cons p l ih =>
    obtain ⟨i, sig⟩ := p
    unfold Meth.result mergeLoop
    cases hl : ss.entries.lookup i with
    | some existing =>
      by_cases heq : existing.equal sig = true
      · simp only [heq, if_true]
        exact ih h
      · simp only [heq]
        exact Res.not_panics_err _
    | none =>
      cases hadd : ss.addSignature cr sig with
      | ok ss' => exact ih (h.addSignature hadd)
      | error f =>
        cases f with
        | err e => exact Res.not_panics_err _
        | panic r => exact absurd ⟨r, hadd⟩ h.not_panics_addSignature

theorem Signable.not_panics_merge (h : ss.Signable cr) {ss2 : SignedState}
    (hequal : ¬ Res.Panics (ss.state.equal ss2.state)) :
    ¬ Res.Panics ((merge cr ss2).result ss) := by
  unfold Meth.result merge
  cases he : ss.state.equal ss2.state with
  | error f =>
    intro hp
    rw [he] at hequal
    exact hequal (Res.panics_error.2 (Res.panics_error.1 hp))
  | ok same =>
    cases same with
    | false => exact Res.not_panics_err _
    | true => exact h.not_panics_mergeLoop _

end SignedState

theorem Channel.not_panics_addSignedState {cr : Crypto} {ss : SignedState} {c : Channel}
    {d : Destination} (hid : ss.state.channelId cr = .ok d)
    (hrecord : ∀ existing, c.signedStateForTurnNum.lookup ss.state.turnNum = some existing →
      existing.Signable cr ∧ ¬ Res.Panics (existing.state.equal ss.state)) :
    ¬ Res.Panics ((Channel.addSignedState cr ss).exec c) := by
  have hrec : ¬ Res.Panics ((Channel.record cr ss).result c) := by
    unfold Meth.result Channel.record
    cases hl : c.signedStateForTurnNum.lookup ss.state.turnNum with
    | none => exact Res.not_panics_ok _
    | some existing =>
      obtain ⟨hsignable, hequal⟩ := hrecord existing hl
      have hmerge := hsignable.not_panics_merge hequal
      unfold Meth.result at hmerge
      cases hm : SignedState.merge cr ss existing with
      | ok u merged =>
        simp only [hm]
        exact Res.not_panics_ok _
      | error f merged =>
        rw [hm] at hmerge
        simp only [hm]
        exact fun hp => hmerge (Res.panics_error.2 (Res.panics_error.1 hp))
  unfold Meth.exec Channel.addSignedState
  rw [hid]
  dsimp only
  by_cases hne : d ≠ c.id
  · rw [if_pos hne]
    exact Res.not_panics_ok _
  · rw [if_neg hne]
    by_cases hold : c.latestSupportedStateTurnNum ≠ maxTurnNum ∧
        ss.state.turnNum < c.latestSupportedStateTurnNum
    · rw [if_pos hold]
      exact Res.not_panics_ok _
    · rw [if_neg hold]
      cases hr : Channel.record cr ss c with
      | ok u c' => exact Res.not_panics_ok _
      | error f c' =>
        cases f with
        | err e => exact Res.not_panics_ok _
        | panic r =>
          refine absurd ?_ hrec
          unfold Meth.result
          rw [hr]
          exact Res.panics_panic r

/-! ## direct defunding -/

theorem Vars.complete_asOutcome (v : Vars) : v.outcome.asOutcome.Complete := by
  intro x hx a ha
  rw [List.mem_singleton.1 hx] at ha
  rcases List.mem_cons.1 ha with h | ha
  · rw [h]
    exact Option.some_ne_none _
  · rcases List.mem_cons.1 ha with h | ha
    · rw [h]
      exact Option.some_ne_none _
    · obtain ⟨target, -, h⟩ := List.mem_filterMap.1 ha
      obtain ⟨g, -, h⟩ := Option.map_eq_some_iff.1 h
      rw [← h]
      exact Option.some_ne_none _

namespace DirectDefund
variable {cr : Crypto} {cc : ConsensusChannel}

theorem signable_asState (hsafe : cr.Safe) {fp : FixedPart} (h : fp.Complete) (v : Vars) :
    (newSignedState (v.asState fp)).Signable cr := by
  obtain ⟨d, hd⟩ := (FixedPart.channelId_ok_iff cr).2 h
  exact ⟨fun sig => Vars.not_panics_recoverSigner hsafe hd v sig, Option.some_ne_none _⟩

theorem supportedSignedState_ok (hsafe : cr.Safe) (h : cc.fp.Complete) :
    ∃ ss, cc.supportedSignedState cr = .ok ss := by
  obtain ⟨ss₁, h₁, hsignable⟩ := (signable_asState hsafe h cc.current.vars).tryAddSignature
    cc.current.signatures.1
  obtain ⟨ss₂, h₂, -⟩ := hsignable.tryAddSignature cc.current.signatures.2
  exact ⟨ss₂, Res.bind_eq_ok.2 ⟨ss₁, h₁, h₂⟩⟩

theorem panics_supportedSignedState (h : ¬ cc.fp.Complete) :
    Res.Panics (cc.supportedSignedState cr) := by
  have hrecover (sig : Signature) : Res.Panics ((cc.current.vars.asState cc.fp).recoverSigner cr sig) := by
    refine Res.panics_bind.2 (.inl (Res.panics_bind.2 (.inl (Res.panics_wrap.2 ?_))))
    exact Res.panics_bind.2 (.inl (FixedPart.panics_channelId.2 h))
  obtain ⟨r, hr⟩ : Res.Panics ((newSignedState (cc.current.vars.asState cc.fp)).addSignature cr
      cc.current.signatures.1) := Res.panics_bind.2 (.inl (Res.panics_wrap.2 (hrecover _)))
  refine Res.panics_bind.2 (.inl ?_)
  unfold SignedState.tryAddSignature
  rw [hr]
  exact Res.panics_panic r

theorem createChannel_states {c : Channel} (h : createChannelFromConsensusChannel cr cc = .ok c)
    {t : UInt64} {ss : SignedState} (hl : c.signedStateForTurnNum.lookup t = some ss) :
    ∃ v : Vars, ss.state = v.asState cc.fp := by
  obtain ⟨supported, hsup, h⟩ := Res.bind_eq_ok.1 h
  obtain ⟨c₀, hnew, hadd⟩ := Res.bind_eq_ok.1 h
  have hstate := supportedSignedState_state hsup
  rw [hstate] at hnew
  have hnew : Channel.new cr (cc.current.vars.asState cc.fp) cc.myIndex = .ok c₀ := hnew
  have hold {t : UInt64} {ss : SignedState} (hl : c₀.signedStateForTurnNum.lookup t = some ss) :
      ∃ v : Vars, ss.state = v.asState cc.fp := by
    rcases Channel.lookup_new hnew hl with ⟨-, rfl⟩ | ⟨-, rfl⟩
    · exact ⟨cc.current.vars, rfl⟩
    · exact ⟨{ cc.current.vars with turnNum := postFundTurnNum }, rfl⟩
  have hrecorded {ss' : SignedState}
      (hr : Channel.Recorded cr { c₀ with onChainFunding := cc.onChainFunding.clone } supported ss') :
      ∃ v : Vars, ss'.state = v.asState cc.fp := by
    cases hr with
    | fresh _ => exact ⟨_, hstate⟩
    | merged hsome =>
      obtain ⟨v, hv⟩ := hold hsome
      rw [SignedState.merge_state]
      exact ⟨v, hv⟩
  have hafter := Meth.exec_eq_ok hadd
  rcases Channel.addSignedState_cases cr supported { c₀ with onChainFunding := cc.onChainFunding.clone }
    with hsame | ⟨ss', -, hr, hrun | ⟨-, -, hrun⟩⟩
  · rw [← hafter, hsame] at hl
    exact hold hl
  · rw [← hafter, hrun] at hl
    rcases Channel.lookup_store hl with ⟨-, rfl⟩ | ⟨-, hl⟩
    · exact hrecorded hr
    · exact hold hl
  · rw [← hafter, hrun] at hl
    rcases Channel.lookup_store hl with ⟨-, rfl⟩ | ⟨-, hl⟩
    · exact hrecorded hr
    · exact hold hl

theorem not_panics_createChannel (hsafe : cr.Safe) (h : cc.fp.Complete) :
    ¬ Res.Panics (createChannelFromConsensusChannel cr cc) := by
  obtain ⟨supported, hsup⟩ := supportedSignedState_ok hsafe h
  have hstate := supportedSignedState_state hsup
  unfold createChannelFromConsensusChannel
  rw [hsup, Res.ok_bind, hstate]
  intro hp
  rcases Res.panics_bind.1 hp with hp | ⟨c₀, hnew, hp⟩
  · exact Channel.panics_new.1 hp ⟨fun _ _ => h.challengeDuration, fun _ => cc.current.vars.complete_asOutcome⟩
  · have hnew : Channel.new cr (cc.current.vars.asState cc.fp) cc.myIndex = .ok c₀ := hnew
    have hid : supported.state.channelId cr = .ok c₀.id := by
      rw [hstate]
      exact (Channel.new_ok hnew).1
    refine Channel.not_panics_addSignedState hid (fun existing hl => ?_) hp
    rw [hstate]
    rcases Channel.lookup_new hnew hl with ⟨-, rfl⟩ | ⟨-, rfl⟩
    · exact ⟨signable_asState hsafe h _, State.not_panics_equal cc.current.vars.complete_asOutcome
        cc.current.vars.complete_asOutcome⟩
    · exact ⟨signable_asState hsafe h { cc.current.vars with turnNum := postFundTurnNum },
        State.not_panics_equal cc.current.vars.complete_asOutcome cc.current.vars.complete_asOutcome⟩

theorem not_panics_isInConsensusOrFinalState {c : Channel}
    (h : ∀ t ss, c.signedStateForTurnNum.lookup t = some ss → ss.state.outcome.Complete) :
    ¬ Res.Panics (isInConsensusOrFinalState c) := by
  have hrecord (t : UInt64) : (c.signedState t).state.outcome.Complete := by
    unfold Channel.signedState
    cases hl : c.signedStateForTurnNum.lookup t with
    | none =>
      intro x hx
      cases hx
    | some ss => exact h t ss hl
  have hlatest : ∀ ss, c.latestSignedState = .ok ss → ss.state.outcome.Complete := by
    intro ss hss
    unfold Channel.latestSignedState at hss
    split at hss
    · cases hss
    · cases hss
      exact hrecord _
  have hsupported (ss : SignedState) (hss : ss.state.outcome.Complete) : ¬ Res.Panics (do
      let latestSupportedState ← c.latestSupportedState
      ss.state.equal latestSupportedState) := by
    intro hp
    rcases Res.panics_bind.1 hp with hp | ⟨s, hs, hp⟩
    · unfold Channel.latestSupportedState at hp
      split at hp
      · exact Res.not_panics_err _ hp
      · exact Res.not_panics_ok _ hp
    · unfold Channel.latestSupportedState at hs
      split at hs
      · cases hs
      · cases hs
        exact State.not_panics_equal hss (hrecord _) hp
  unfold isInConsensusOrFinalState
  cases hss : c.latestSignedState with
  | ok ss =>
    dsimp only
    rw [if_neg (fun h => nomatch h)]
    split
    · exact Res.not_panics_ok _
    · exact hsupported ss (hlatest ss hss)
  | error f =>
    dsimp only
    split
    · exact Res.not_panics_ok _
    · refine hsupported SignedState.zero ?_
      intro x hx
      cases hx

theorem panics_newObjective (hsafe : cr.Safe) {id : Destination} {preApprove : Bool}
    {get : Destination → Res ConsensusChannel} (hget : ¬ Res.Panics (get id)) :
    Res.Panics (newObjective cr id preApprove get) ↔
      ∃ cc, get id = .ok cc ∧ cc.fundingTargets = ∅ ∧ ¬ cc.fp.Complete := by
  unfold newObjective
  rw [Res.panics_bind, Res.panics_wrap]
  constructor
  · intro h
    rcases h with h | ⟨cc, hcc, h⟩
    · exact absurd h hget
    · obtain ⟨hempty, h⟩ := Res.panics_failIf_bind.1 h
      refine ⟨cc, Res.wrap_eq_ok.1 hcc, not_ne_iff.1 hempty, fun hcomplete => ?_⟩
      rcases Res.panics_bind.1 h with h | ⟨c, hc, h⟩
      · exact not_panics_createChannel hsafe hcomplete (Res.panics_wrap.1 h)
      · rw [Res.wrap_eq_ok] at hc
        have hstates (t : UInt64) (ss : SignedState)
            (hl : c.signedStateForTurnNum.lookup t = some ss) :
            ss.state.Whole ∧ ss.state.outcome.Complete := by
          obtain ⟨v, hv⟩ := createChannel_states hc hl
          rw [hv]
          exact ⟨⟨rfl, Exit.complete_iff.1 v.complete_asOutcome⟩, v.complete_asOutcome⟩
        rcases Res.panics_bind.1 h with h | ⟨consensus, -, h⟩
        · exact not_panics_isInConsensusOrFinalState (fun t ss hl => (hstates t ss hl).2) h
        · obtain ⟨-, h⟩ := Res.panics_failIf_bind.1 h
          obtain ⟨c₀, hnew, hbegun⟩ := createChannel_begun hc
          obtain ⟨d, hd⟩ := Channel.clone_of_whole hnew hbegun fun t ss hl => (hstates t ss hl).1
          rw [hd, Res.ok_bind] at h
          rcases Res.panics_bind.1 h with h | ⟨s, -, h⟩
          · unfold Channel.latestSupportedState at h
            split at h
            · exact Res.not_panics_err _ h
            · exact Res.not_panics_ok _ h
          · exact Res.not_panics_ok _ h
  · intro ⟨cc, hcc, hempty, hincomplete⟩
    refine .inr ⟨cc, Res.wrap_eq_ok.2 hcc, Res.panics_failIf_bind.2 ⟨not_ne_iff.2 hempty, ?_⟩⟩
    refine Res.panics_bind.2 (.inl (Res.panics_wrap.2 ?_))
    exact Res.panics_bind.2 (.inl (panics_supportedSignedState hincomplete))

/-- a final state is for a ledger whose own numbers are there, unless it still has guarantees -/
def Harmless (cr : Crypto) (get : Destination → Res ConsensusChannel) (s : State) : Prop :=
  s.isFinal = true → s.Checkable ∧ (s.fixedPart.validate cr = .ok () →
    ∀ cId cc, s.channelId cr = .ok cId → get cId = .ok cc → cc.fundingTargets = ∅ → cc.fp.Complete)

theorem panics_constructObjectiveFromState (hsafe : cr.Safe) {s : State} {preapprove : Bool}
    {get : Destination → Res ConsensusChannel} (hget : ∀ id, ¬ Res.Panics (get id)) :
    Res.Panics (constructObjectiveFromState cr s preapprove get) ↔ ¬ Harmless cr get s := by
  unfold constructObjectiveFromState
  rw [Res.panics_failIf_bind, Res.panics_bind, State.panics_validate]
  constructor
  · intro ⟨hfinal, h⟩ hharmless
    obtain ⟨hcheck, hcomplete⟩ := hharmless (Bool.eq_true_of_not_eq_false hfinal)
    rcases h with h | ⟨u, hu, h⟩
    · exact h hcheck
    · obtain ⟨cId, hid, -⟩ := FixedPart.validate_ok hu
      have hid : s.channelId cr = .ok cId := hid
      rw [hid, Res.ok_bind, panics_newObjective hsafe (hget cId)] at h
      obtain ⟨cc, hcc, hempty, hincomplete⟩ := h
      exact hincomplete (hcomplete hu cId cc hid hcc hempty)
  · intro h
    obtain ⟨hfinal, h⟩ := Classical.not_imp.1 h
    have hpass : ¬ s.isFinal = false := by
      rw [hfinal]
      exact fun h => nomatch h
    refine ⟨hpass, ?_⟩
    by_cases hcheck : s.Checkable
    · have hall : ¬ (s.fixedPart.validate cr = .ok () → ∀ cId cc, s.channelId cr = .ok cId →
          get cId = .ok cc → cc.fundingTargets = ∅ → cc.fp.Complete) := fun hc => h ⟨hcheck, hc⟩
      push Not at hall
      obtain ⟨hu, cId, cc, hid, hcc, hempty, hincomplete⟩ := hall
      refine .inr ⟨(), hu, ?_⟩
      rw [hid, Res.ok_bind, panics_newObjective hsafe (hget cId)]
      exact ⟨cc, hcc, hempty, hincomplete⟩
    · exact .inl hcheck

end DirectDefund

/-! ## messages -/

/-- a payload from which an objective can be tried without a panic; the constructor is picked by the
start of the objective id -/
def Harmless (cr : Crypto) (me : Address) (ro : RangeOrders) (ms : MemStore) (id : ObjectiveId)
    (s : State) : Prop :=
  if hasPrefix id DirectFund.objectivePrefix then DirectFund.Harmless cr me s
  else if hasPrefix id VirtualFund.objectivePrefix then VirtualFund.Harmless cr me (ro.getLedger ms) s
  else if hasPrefix id VirtualDefund.objectivePrefix then VirtualDefund.Harmless cr ms.getChannelById s
  else if hasPrefix id DirectDefund.objectivePrefix then
    DirectDefund.Harmless cr ms.getConsensusChannelById s
  else True

section messages
variable {cr : Crypto} {me : Address} {ro : RangeOrders} {ms : MemStore}

theorem MemStore.not_panics_getConsensusChannelById (id : Destination) :
    ¬ Res.Panics (ms.getConsensusChannelById id) := by
  unfold MemStore.getConsensusChannelById
  cases ms.consensusChannels.lookup id with
  | none => exact Res.not_panics_err _
  | some c => exact Res.not_panics_ok _

/-- **an objective is made from a peer's state without a panic exactly if the state is harmless** -/
theorem constructObjectiveFromMessage_panics_iff (hsafe : cr.Safe) {id : ObjectiveId}
    {ss : SignedState} : Res.Panics (constructObjectiveFromMessage cr me ro ms id ss) ↔
      ¬ Harmless cr me ro ms id ss.state := by
  unfold constructObjectiveFromMessage Harmless
  by_cases h1 : hasPrefix id DirectFund.objectivePrefix = true
  · rw [if_pos h1, if_pos h1, Res.panics_map]
    exact DirectFund.panics_constructFromState
  · rw [if_neg h1, if_neg h1]
    by_cases h2 : hasPrefix id VirtualFund.objectivePrefix = true
    · rw [if_pos h2, if_pos h2, Res.panics_map, Res.panics_wrap]
      exact VirtualFund.panics_constructObjectiveFromState
    · rw [if_neg h2, if_neg h2]
      by_cases h3 : hasPrefix id VirtualDefund.objectivePrefix = true
      · rw [if_pos h3, if_pos h3, Res.panics_map, Res.panics_wrap]
        exact VirtualDefund.panics_constructObjectiveFromState
      · rw [if_neg h3, if_neg h3]
        by_cases h4 : hasPrefix id DirectDefund.objectivePrefix = true
        · rw [if_pos h4, if_pos h4, Res.panics_map, Res.panics_wrap]
          exact DirectDefund.panics_constructObjectiveFromState hsafe
            MemStore.not_panics_getConsensusChannelById
        · rw [if_neg h4, if_neg h4]
          exact iff_of_false (Res.not_panics_err _) fun h => h trivial

/-- sorting one state compares nothing -/
theorem Message.panics_signedStates {m : Message} : Res.Panics (m.signedStates cr) ↔
    ¬ (m.stateEntries.length < 2 ∨ ∀ entry ∈ m.stateEntries, entry.payload.state.fixedPart.Complete) := by
  have hidentified : m.Identified cr ↔
      ∀ entry ∈ m.stateEntries, entry.payload.state.fixedPart.Complete :=
    forall₂_congr fun entry _ => FixedPart.channelId_ok_iff cr
  by_cases hlen : m.stateEntries.length < 2
  · refine iff_of_false ?_ fun h => h (.inl hlen)
    unfold Message.signedStates
    change ¬ Res.Panics (if m.stateEntries.length < 2 then _ else _)
    rw [if_pos hlen]
    exact Res.not_panics_ok _
  · rw [or_iff_right hlen, ← hidentified]
    constructor
    · intro hp h
      obtain ⟨states, hstates⟩ := h.signedStates
      rw [hstates] at hp
      exact Res.not_panics_ok _ hp
    · intro h
      unfold Message.signedStates
      change Res.Panics (if m.stateEntries.length < 2 then _ else _)
      rw [if_neg hlen]
      refine Res.panics_bind.2 (.inl ?_)
      refine (Res.OnlyPanics.panics_iff (Res.onlyPanics_mapM (fun p => ?_) _)).2 ?_
      · refine Res.OnlyPanics.bind ?_ fun d => Res.onlyPanics_ok _
        exact FixedPart.onlyPanics_channelId cr p.payload.state.fixedPart
      · intro ⟨keyed, hkeyed⟩
        refine h fun entry hentry => ?_
        obtain ⟨k, -, hk⟩ := Res.mem_of_mapM hkeyed hentry
        obtain ⟨d, hd, -⟩ := Res.bind_eq_ok.1 hk
        exact ⟨d, hd⟩

/-- sorting the states of the message and making objectives from them ends without a panic -/
def Survives (cr : Crypto) (me : Address) (ro : RangeOrders) (ms : MemStore) (m : Message) : Prop :=
  ¬ Res.Panics (m.signedStates cr) ∧ ∀ entry ∈ m.stateEntries,
    ¬ Res.Panics (constructObjectiveFromMessage cr me ro ms entry.objectiveId entry.payload)

end messages

/-- **which messages a client survives** -/
theorem survives_iff (cr : Crypto) (hsafe : cr.Safe) (me : Address) (ro : RangeOrders) (ms : MemStore)
    (m : Message) : Survives cr me ro ms m ↔
      (m.stateEntries.length < 2 ∨
        ∀ entry ∈ m.stateEntries, entry.payload.state.fixedPart.Complete) ∧
      ∀ entry ∈ m.stateEntries, Harmless cr me ro ms entry.objectiveId entry.payload.state := by
  unfold Survives
  rw [Message.panics_signedStates, not_not]
  refine and_congr_right fun _ => forall₂_congr fun entry _ => ?_
  rw [constructObjectiveFromMessage_panics_iff hsafe, not_not]

namespace Sample

/-- a state of a channel with two participants, under the id of a virtual channel -/
def shortMessage : Message := ⟨1, [⟨VirtualFund.objectivePrefix, peerState, SignedProposal.zero⟩]⟩

theorem shortMessage_single : ∀ p ∈ shortMessage.payloads, p.Single := by
  intro p hp
  rw [List.mem_singleton.1 hp]
  refine .state ?_ rfl
  intro h
  have hps := congrArg State.participants h
  cases hps

theorem mem_shortMessage :
    (⟨peerState, VirtualFund.objectivePrefix⟩ : ObjectivePayload SignedState) ∈ shortMessage.stateEntries :=
  Message.mem_stateEntries.2 ⟨_, List.mem_cons_self, rfl, rfl⟩

theorem shortMessage_harmful : ¬ Harmless Crypto.plain 1 rangeOrders MemStore.empty
    VirtualFund.objectivePrefix peerState.state := by
  have hdirect : ¬ hasPrefix VirtualFund.objectivePrefix DirectFund.objectivePrefix = true := by decide
  have hvirtual : hasPrefix VirtualFund.objectivePrefix VirtualFund.objectivePrefix = true := by decide
  unfold Harmless
  rw [if_neg hdirect, if_pos hvirtual]
  intro h
  have hlen : 3 ≤ (fundingState fiveEach).participants.length := h.1
  exact absurd hlen (by decide)

end Sample

open Sample in
/-- **a prefund state with two participants, sent for a virtual channel**: the message is accepted, and
making an objective from it panics -/
theorem two_participants_panic :
    deserializeMessage shortMessage.serialize = .ok shortMessage ∧
    Res.Panics (constructObjectiveFromMessage Crypto.plain 1 rangeOrders MemStore.empty
      VirtualFund.objectivePrefix peerState) ∧
    ¬ Survives Crypto.plain 1 rangeOrders MemStore.empty shortMessage := by
  have hpanics := (constructObjectiveFromMessage_panics_iff safe_plain).2 shortMessage_harmful
  exact ⟨deserializeMessage_serialize shortMessage_single, hpanics,
    fun h => h.2 _ mem_shortMessage hpanics⟩

open Sample in
/-- the same state as it is meant -/
theorem peerMessage_survives : Survives Crypto.plain 1 rangeOrders MemStore.empty peerMessage := by
  refine (survives_iff Crypto.plain safe_plain 1 rangeOrders MemStore.empty peerMessage).2
    ⟨.inl ?_, ?_⟩
  · exact Nat.one_lt_two
  · intro entry hentry
    obtain ⟨p, hp, -, rfl⟩ := Message.mem_stateEntries.1 hentry
    rw [List.mem_singleton.1 hp]
    have hharmless : DirectFund.Harmless Crypto.plain 1 (fundingState fiveEach) := by
      by_contra h
      have hp : Res.Panics (DirectFund.constructFromState Crypto.plain false (fundingState fiveEach) 1) :=
        DirectFund.panics_constructFromState.2 h
      rw [new_peerObjective] at hp
      exact Res.not_panics_ok _ hp
    unfold Harmless
    rw [if_pos (show hasPrefix peerObjective.id DirectFund.objectivePrefix = true from
      hasPrefix_append _ _)]
    exact hharmless

end Nitro
