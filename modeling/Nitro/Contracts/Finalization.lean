import Nitro.Contracts.NitroAdjudicator

/-!
# How a channel becomes finalized

The time in the status of a channel is written by challenges, checkpoints and conclusions.  Transfers and
claims keep it, or forget the channel.  So the channel is finalized by the last of these calls: a
challenge whose time has passed, or a conclusion.  Nothing in the contracts asks whether the states
of a conclusion are final; where the callers see to that, only final states finalize a channel
early.

* `Call.move`            the calls that present a support proof;
* `exec_finalizesAt`     what one call does to the time in a status;
* `Caused`, `finalizesAt_cause`   the move that wrote the time, with no successful one after it;
* `finalized_only_by`    the two ways to be finalized, for conclusions of final states.
-/

set_option linter.unusedSectionVars false

namespace Nitro.Contracts
open Evm Runs ForceMove MultiAssetHolder NitroAdjudicator

/-! ## the time in a status -/

def World.finalizesAt (w : World) (channelId : Bytes32) : BitVec 48 :=
  (unpackStatus (w.statusOf channelId)).finalizesAt

section status
variable {D : Deployment} {env : Env} {w w' : World} {c channelId : Bytes32}

theorem finalizesAt_generated (data : ChannelData) :
    (w.setStatus channelId (generateStatus D data)).finalizesAt c =
      if c = channelId then data.finalizesAt else w.finalizesAt c := by
  unfold World.finalizesAt World.setStatus
  by_cases h : c = channelId
  · subst h
    simp only [Function.update_self, unpack_generateStatus, if_true]
  · simp only [Function.update_of_ne h, if_neg h]

theorem finalizesAt_deleted :
    (w.setStatus channelId 0).finalizesAt c = if c = channelId then 0 else w.finalizesAt c := by
  unfold World.finalizesAt World.setStatus
  by_cases h : c = channelId
  · subst h
    simp only [Function.update_self, if_true]
    rfl
  · simp only [Function.update_of_ne h, if_neg h]

theorem finalizesAt_updateFingerprint (stateHash outcomeHash : Bytes32) :
    (updateFingerprint D w channelId stateHash outcomeHash).finalizesAt c = w.finalizesAt c := by
  unfold updateFingerprint
  rw [finalizesAt_generated]
  split
  · next h => rw [h]; rfl
  · rfl

theorem World.finalizesAt_congr (h : w'.statusOf = w.statusOf) :
    w'.finalizesAt c = w.finalizesAt c := by
  unfold World.finalizesAt
  rw [h]

theorem transfer_finalizesAt {assetIndex : Word} {stateHash : Bytes32} {outcomeBytes : Bytes}
    {indices : List Word}
    (h : MultiAssetHolder.transfer D env assetIndex channelId outcomeBytes stateHash indices w =
      .ok w') : w'.finalizesAt c = w.finalizesAt c := by
  obtain ⟨⟨outcome, e⟩, -, h⟩ := bind_eq_ok.1 h
  obtain ⟨r, -, hpay⟩ := bind_eq_ok.1 h
  rw [World.finalizesAt_congr (payAllocations_statusOf hpay)]
  exact finalizesAt_updateFingerprint _ _

theorem claim_finalizesAt {args : ClaimArgs}
    (h : MultiAssetHolder.claim D env args w = .ok w') : w'.finalizesAt c = w.finalizesAt c := by
  obtain ⟨⟨sourceOutcome, source, targetOutcome, target, targetChannelId⟩, -, h⟩ := bind_eq_ok.1 h
  obtain ⟨r, -, hpay⟩ := bind_eq_ok.1 h
  rw [World.finalizesAt_congr (payAllocations_statusOf hpay)]
  exact (finalizesAt_updateFingerprint _ _).trans (finalizesAt_updateFingerprint _ _)

theorem executeExit_statusOf {exit : Exit} (h : executeExit env exit w = .ok w') :
    w'.statusOf = w.statusOf := by
  induction exit generalizing w with
  | nil =>
    cases h
    rfl
  | cons e es ih =>
    obtain ⟨u, hpay, h⟩ := bind_eq_ok.1 h
    rw [ih h, payAllocations_statusOf hpay]

theorem debitAll_statusOf {i : Nat} {ls : List Liquidation} :
    (debitAll channelId i ls w).statusOf = w.statusOf := by
  induction ls generalizing i w with
  | nil => rfl
  | cons l ls ih =>
    show (debitAll channelId (i + 1) ls _).statusOf = _
    rw [ih]
    rfl

theorem transferAllAssets_finalizesAt {outcome : Exit} {stateHash : Bytes32}
    (h : NitroAdjudicator.transferAllAssets D env channelId outcome stateHash w = .ok w') :
    w'.finalizesAt c = w.finalizesAt c ∨ w'.finalizesAt c = 0 := by
  obtain ⟨-, h⟩ := require_bind_eq_ok.1 h
  obtain ⟨-, h⟩ := require_bind_eq_ok.1 h
  obtain ⟨ls, -, hexec⟩ := bind_eq_ok.1 h
  have hdebit : (debitAll channelId 0 ls w).finalizesAt c = w.finalizesAt c :=
    World.finalizesAt_congr debitAll_statusOf
  rw [World.finalizesAt_congr (executeExit_statusOf hexec)]
  unfold settleStatus
  split
  · rw [finalizesAt_deleted, hdebit]
    by_cases hc : c = channelId
    · exact .inr (if_pos hc)
    · exact .inl (if_neg hc)
  · rw [finalizesAt_updateFingerprint, hdebit]
    exact .inl rfl

end status

/-! ## moves -/

inductive Move where
  | challenge
  | checkpoint
  | conclude
  deriving DecidableEq

/-- what a call does with a support proof -/
def NitroAdjudicator.Call.move : Call → Option (Move × FixedPart × List SignedVariablePart)
  | .challenge fixedPart parts _ => some (.challenge, fixedPart, parts)
  | .checkpoint fixedPart parts => some (.checkpoint, fixedPart, parts)
  | .conclude fixedPart parts => some (.conclude, fixedPart, parts)
  | .concludeAndTransferAllAssets fixedPart parts => some (.conclude, fixedPart, parts)
  | _ => none

section moves
variable (D : Deployment)

/-- a move on the channel -/
def Moves (c : Bytes32) (call : Call) (m : Move) (fixedPart : FixedPart)
    (parts : List SignedVariablePart) : Prop :=
  call.move = some (m, fixedPart, parts) ∧ getChannelId D fixedPart = .ok c

def Succeeds (w : World) (tx : Tx) : Prop := ∃ w', tx.2.exec D tx.1 w = .ok w'

/-- no later move on the channel succeeds -/
def Quiet (c : Bytes32) : World → List Tx → Prop :=
  Along (NitroAdjudicator.step D) fun w tx =>
    ∀ m fixedPart parts, Moves D c tx.2 m fixedPart parts → ¬ Succeeds D w tx

end moves

section causes
variable {D : Deployment} {env : Env} {w w' : World} {c : Bytes32}

theorem not_moves {call : Call} {m : Move} {fixedPart : FixedPart}
    {parts : List SignedVariablePart} {id : Bytes32} (hmove : call.move = some (m, fixedPart, parts))
    (hid : getChannelId D fixedPart = .ok id) (hne : c ≠ id) :
    ∀ m' fixedPart' parts', ¬ Moves D c call m' fixedPart' parts' := by
  rintro m' fixedPart' parts' ⟨hmove', hid'⟩
  rw [hmove] at hmove'
  cases hmove'
  exact hne (Except.ok.inj (hid'.symm.trans hid))

theorem not_moves_of_none {call : Call} (hmove : call.move = none) :
    ∀ m fixedPart parts, ¬ Moves D c call m fixedPart parts := by
  rintro m fixedPart parts ⟨hmove', -⟩
  rw [hmove] at hmove'
  cases hmove'

/-- the time in a status after a call: nothing, the old time, that of a challenge, or anything after
a conclusion -/
inductive TimeAfter (D : Deployment) (env : Env) (call : Call) (c : Bytes32) (w w' : World) : Prop
  | forgotten (h : w'.finalizesAt c = 0)
  | kept (h : w'.finalizesAt c = w.finalizesAt c)
      (hmove : ∀ m fixedPart parts, ¬ Moves D c call m fixedPart parts)
  | challenged (fixedPart : FixedPart) (parts : List SignedVariablePart)
      (hmove : Moves D c call .challenge fixedPart parts)
      (h : w'.finalizesAt c = ForceMove.finalizesAt env fixedPart)
  | concluded (fixedPart : FixedPart) (parts : List SignedVariablePart)
      (hmove : Moves D c call .conclude fixedPart parts)

theorem concludeInternal_finalizesAt {fixedPart : FixedPart} {parts : List SignedVariablePart}
    {channelId : Bytes32} (h : concludeInternal D env fixedPart parts w = .ok (channelId, w'))
    (hne : c ≠ channelId) : w'.finalizesAt c = w.finalizesAt c := by
  obtain ⟨-, -, last, -, rfl⟩ := concludeInternal_ok h
  exact (finalizesAt_generated _).trans (if_neg hne)

theorem exec_finalizesAt {call : Call} (h : call.exec D env w = .ok w') :
    TimeAfter D env call c w w' := by
  cases call with
  | deposit asset channelId expectedHeld amount =>
    obtain ⟨amountDeposited, rfl⟩ := deposit_ok h
    exact .kept rfl (not_moves_of_none rfl)
  | transfer assetIndex fromChannelId outcomeBytes stateHash indices =>
    obtain ⟨-, h⟩ := require_bind_eq_ok.1 h
    exact .kept (transfer_finalizesAt h) (not_moves_of_none rfl)
  | claim args =>
    obtain ⟨-, h⟩ := require_bind_eq_ok.1 h
    exact .kept (claim_finalizesAt h) (not_moves_of_none rfl)
  | transferAllAssets channelId outcome stateHash =>
    obtain ⟨-, h⟩ := require_bind_eq_ok.1 h
    rcases transferAllAssets_finalizesAt (c := c) h with h | h
    · exact .kept h (not_moves_of_none rfl)
    · exact .forgotten h
  | concludeAndTransferAllAssets fixedPart parts =>
    obtain ⟨-, h⟩ := require_bind_eq_ok.1 h
    obtain ⟨⟨channelId, u⟩, hconclude, h⟩ := bind_eq_ok.1 h
    obtain ⟨last, -, h⟩ := bind_eq_ok.1 h
    have hid := (concludeInternal_ok hconclude).1
    by_cases hc : c = channelId
    · subst hc
      exact .concluded fixedPart parts ⟨rfl, hid⟩
    · rcases transferAllAssets_finalizesAt (c := c) h with h | h
      · exact .kept (h.trans (concludeInternal_finalizesAt hconclude hc)) (not_moves rfl hid hc)
      · exact .forgotten h
  | challenge fixedPart parts sig =>
    obtain ⟨-, h⟩ := require_bind_eq_ok.1 h
    obtain ⟨channelId, last, stateHash, hid, -, -, -, rfl⟩ := challenge_ok h
    by_cases hc : c = channelId
    · subst hc
      exact .challenged fixedPart parts ⟨rfl, hid⟩ ((finalizesAt_generated _).trans (if_pos rfl))
    · exact .kept ((finalizesAt_generated _).trans (if_neg hc)) (not_moves rfl hid hc)
  | checkpoint fixedPart parts =>
    obtain ⟨-, h⟩ := require_bind_eq_ok.1 h
    obtain ⟨channelId, last, hid, -, -, -, rfl⟩ := checkpoint_ok h
    by_cases hc : c = channelId
    · exact .forgotten ((finalizesAt_generated _).trans (if_pos hc))
    · exact .kept ((finalizesAt_generated _).trans (if_neg hc)) (not_moves rfl hid hc)
  | conclude fixedPart parts =>
    obtain ⟨-, h⟩ := require_bind_eq_ok.1 h
    obtain ⟨channelId, h⟩ := conclude_ok h
    have hid := (concludeInternal_ok h).1
    by_cases hc : c = channelId
    · subst hc
      exact .concluded fixedPart parts ⟨rfl, hid⟩
    · exact .kept (concludeInternal_finalizesAt h hc) (not_moves rfl hid hc)

/-! ## the call that wrote the time -/

/-- the state after a run -/
abbrev reached (D : Deployment) (txs : List Tx) : World :=
  run (NitroAdjudicator.step D) World.empty txs

/-- the move on the channel that was the last to succeed -/
def LastMove (D : Deployment) (txs : List Tx) (c : Bytes32) (m : Move) (env : Env)
    (fixedPart : FixedPart) (parts : List SignedVariablePart) : Prop :=
  ∃ before call after, txs = before ++ (env, call) :: after ∧
    Moves D c call m fixedPart parts ∧
    Succeeds D (reached D before) (env, call) ∧
    Quiet D c (reached D (before ++ [(env, call)])) after

theorem LastMove.snoc {txs : List Tx} {m : Move} {fixedPart : FixedPart}
    {parts : List SignedVariablePart} {tx : Tx} (h : LastMove D txs c m env fixedPart parts)
    (hquiet : ∀ m fixedPart parts, Moves D c tx.2 m fixedPart parts →
      ¬ Succeeds D (reached D txs) tx) :
    LastMove D (txs ++ [tx]) c m env fixedPart parts := by
  obtain ⟨before, call, after, rfl, hmove, hsucceeds, hafter⟩ := h
  refine ⟨before, call, after ++ [tx], by simp, hmove, hsucceeds, Along.snoc hafter ?_⟩
  unfold reached at hquiet ⊢
  rw [← run_append]
  simpa using hquiet

theorem LastMove.last {txs : List Tx} {m : Move} {fixedPart : FixedPart}
    {parts : List SignedVariablePart} {call : Call} (hmove : Moves D c call m fixedPart parts)
    (hsucceeds : Succeeds D (reached D txs) (env, call)) :
    LastMove D (txs ++ [(env, call)]) c m env fixedPart parts :=
  ⟨txs, call, [], rfl, hmove, hsucceeds, trivial⟩

/-- the time in the status was written by a challenge, or by a conclusion, and by no later move -/
def Caused (D : Deployment) (txs : List Tx) (c : Bytes32) (time : BitVec 48) : Prop :=
  ∃ env fixedPart parts,
    LastMove D txs c .challenge env fixedPart parts ∧ time = ForceMove.finalizesAt env fixedPart ∨
      LastMove D txs c .conclude env fixedPart parts

theorem Caused.snoc {txs : List Tx} {time : BitVec 48} {tx : Tx} (h : Caused D txs c time)
    (hquiet : ∀ m fixedPart parts, Moves D c tx.2 m fixedPart parts →
      ¬ Succeeds D (reached D txs) tx) : Caused D (txs ++ [tx]) c time := by
  obtain ⟨env, fixedPart, parts, ⟨hlast, htime⟩ | hlast⟩ := h
  · exact ⟨env, fixedPart, parts, .inl ⟨hlast.snoc hquiet, htime⟩⟩
  · exact ⟨env, fixedPart, parts, .inr (hlast.snoc hquiet)⟩

theorem finalizesAt_cause {txs : List Tx} (h : (reached D txs).finalizesAt c ≠ 0) :
    Caused D txs c ((reached D txs).finalizesAt c) := by
  induction txs using List.reverseRecOn with
  | nil =>
    refine absurd ?_ h
    show (unpackStatus 0).finalizesAt = 0
    rfl
  | append_singleton txs tx ih =>
    obtain ⟨env, call⟩ := tx
    have hrun : reached D (txs ++ [(env, call)]) =
        attempt (call.exec D env) (reached D txs) := run_append _
    rw [hrun] at h ⊢
    cases hexec : call.exec D env (reached D txs) with
    | error e =>
      rw [attempt_error hexec] at h ⊢
      refine (ih h).snoc fun m fixedPart parts _ hsucceeds => ?_
      obtain ⟨w', hw'⟩ := hsucceeds
      exact absurd (hexec.symm.trans hw') (by simp)
    | ok w' =>
      rw [attempt_ok hexec] at h ⊢
      cases exec_finalizesAt (c := c) hexec with
      | forgotten hzero => exact absurd hzero h
      | kept hsame hmove =>
        rw [hsame] at h ⊢
        exact (ih h).snoc fun m fixedPart parts hm => absurd hm (hmove _ _ _)
      | challenged fixedPart parts hmove htime =>
        exact ⟨env, fixedPart, parts, .inl ⟨LastMove.last hmove ⟨w', hexec⟩, htime⟩⟩
      | concluded fixedPart parts hmove =>
        exact ⟨env, fixedPart, parts, .inr (LastMove.last hmove ⟨w', hexec⟩)⟩

/-! ## the two ways -/

/-- a conclusion that succeeds presents final states only -/
def FinalOnly (D : Deployment) (w : World) (tx : Tx) : Prop :=
  ∀ fixedPart parts, tx.2.move = some (.conclude, fixedPart, parts) → Succeeds D w tx →
    ∀ p ∈ parts, p.variablePart.isFinal = true

/-- a challenge ran out and no move came after it, or the channel was concluded with final states -/
def FinalizedProperly (D : Deployment) (txs : List Tx) (c : Bytes32) (now : Word) : Prop :=
  ∃ env fixedPart parts,
    LastMove D txs c .challenge env fixedPart parts ∧
        env.timestamp.toNat + fixedPart.challengeDuration.toNat ≤ now.toNat ∨
      LastMove D txs c .conclude env fixedPart parts ∧ ∀ p ∈ parts, p.variablePart.isFinal = true

theorem finalized_time {status : Bytes32} {now : Word} (h : mode status now = .finalized) :
    (unpackStatus status).finalizesAt ≠ 0 ∧ (unpackStatus status).finalizesAt.toNat ≤ now.toNat := by
  unfold mode at h
  split at h
  · cases h
  · next hzero =>
    split at h
    · next hle =>
      have hle : ((unpackStatus status).finalizesAt.setWidth 256).toNat ≤ now.toNat := hle
      have hlt := (unpackStatus status).finalizesAt.isLt
      rw [BitVec.toNat_setWidth, Nat.mod_eq_of_lt (by omega)] at hle
      exact ⟨hzero, hle⟩
    · cases h

theorem toNat_finalizesAt {fixedPart : FixedPart}
    (h : env.timestamp.toNat + fixedPart.challengeDuration.toNat < 2 ^ 48) :
    (ForceMove.finalizesAt env fixedPart).toNat =
      env.timestamp.toNat + fixedPart.challengeDuration.toNat := by
  unfold ForceMove.finalizesAt
  rw [BitVec.toNat_add, BitVec.toNat_setWidth, Nat.mod_eq_of_lt (a := env.timestamp.toNat) (by omega),
    Nat.mod_eq_of_lt h]

theorem Moves.challenge {call : Call} {fixedPart : FixedPart} {parts : List SignedVariablePart}
    (h : Moves D c call .challenge fixedPart parts) : ∃ sig, call = .challenge fixedPart parts sig := by
  obtain ⟨hmove, -⟩ := h
  cases call <;> cases hmove
  exact ⟨_, rfl⟩

/-- **only final states finalize early**, in a run that concludes with final states only -/
theorem finalized_only_by {txs : List Tx} {now : Word}
    (hfinal : Along (NitroAdjudicator.step D) (FinalOnly D) World.empty txs)
    (htime : ∀ env fixedPart parts sig, (env, Call.challenge fixedPart parts sig) ∈ txs →
      env.timestamp.toNat + fixedPart.challengeDuration.toNat < 2 ^ 48)
    (h : mode ((reached D txs).statusOf c) now = .finalized) :
    FinalizedProperly D txs c now := by
  obtain ⟨hne, hle⟩ := finalized_time h
  obtain ⟨env, fixedPart, parts, ⟨hlast, hat⟩ | hlast⟩ := finalizesAt_cause hne
  · refine ⟨env, fixedPart, parts, .inl ⟨hlast, ?_⟩⟩
    obtain ⟨before, call, after, rfl, hmove, -, -⟩ := hlast
    obtain ⟨sig, rfl⟩ := hmove.challenge
    have hlt := htime env fixedPart parts sig (by simp)
    rw [← toNat_finalizesAt hlt, ← hat]
    exact hle
  · refine ⟨env, fixedPart, parts, .inr ⟨hlast, ?_⟩⟩
    obtain ⟨before, call, after, rfl, hmove, hsucceeds, -⟩ := hlast
    exact hfinal.of_append.2.1 fixedPart parts hmove.1 hsucceeds

end causes

namespace Sample

/-- the participants get five each -/
def part (isFinal : Bool) : VariablePart where
  outcome := [⟨0, [], [⟨1, 5, 0, []⟩, ⟨2, 5, 0, []⟩]⟩]
  appData := []
  turnNum := 5
  isFinal := isFinal

def conclusion (isFinal : Bool) : List Tx :=
  [(env 0 101, .conclude fixedPart [signed (part isFinal)])]

end Sample

open Contracts.Sample

theorem finalized_only_by_conclusion :
    mode ((reached deployment (conclusion true)).statusOf channelId) 101 = .finalized ∧
      FinalizedProperly deployment (conclusion true) channelId 101 := by
  have hmode : mode ((reached deployment (conclusion true)).statusOf channelId) 101 =
      .finalized := by decide +kernel
  refine ⟨hmode, finalized_only_by ⟨?_, trivial⟩ ?_ hmode⟩
  · intro fixedPart parts hmove _ p hp
    cases hmove
    rw [List.mem_singleton.1 hp]
    rfl
  · intro env fixedPart parts sig hmem
    cases List.mem_singleton.1 hmem

/-- a state that is not final finalizes the channel at once, without any challenge -/
theorem nonfinal_concluded :
    mode ((reached deployment (conclusion false)).statusOf channelId) 101 = .finalized ∧
      ¬ FinalizedProperly deployment (conclusion false) channelId 101 := by
  refine ⟨by decide +kernel, ?_⟩
  rintro ⟨env, fixedPart, parts, ⟨hlast, -⟩ | ⟨hlast, hfinal⟩⟩
  · obtain ⟨before, call, after, htxs, hmove, -, -⟩ := hlast
    obtain ⟨sig, rfl⟩ := hmove.challenge
    have hmem : (env, Call.challenge fixedPart parts sig) ∈ conclusion false := by
      rw [htxs]
      simp
    cases List.mem_singleton.1 hmem
  · obtain ⟨before, call, after, htxs, ⟨hmove, -⟩, -, -⟩ := hlast
    have hmem : (env, call) ∈ conclusion false := by
      rw [htxs]
      simp
    cases List.mem_singleton.1 hmem
    cases hmove
    exact absurd (hfinal _ (List.mem_singleton_self _)) (by decide)

end Nitro.Contracts
