import Nitro.Contracts.Finalization

/-!
# Disputes

Challenges, checkpoints and conclusions on a channel, at times that never decrease.  The mode of a channel
is not stored: it is read from the packed status and the time.  A channel that is finalized at some
time stays so, and then every call reverts.

* `IsDispute`                         the three calls;
* `DisputeStep`                       what one call does to the status of a channel;
* `finalized_frozen`, `record_mono`   runs;
* `challenge_commits`                 what the status says after a challenge;
* `dispute_lawful`                    all of it, for every run.
-/

set_option linter.unusedSectionVars false

namespace Nitro.Contracts
open Evm Runs ForceMove NitroAdjudicator

def World.turnNumRecord (w : World) (channelId : Bytes32) : BitVec 48 :=
  (unpackStatus (w.statusOf channelId)).turnNumRecord

/-! ## what one call does -/

def IsDispute : Call → Prop
  | .challenge .. | .checkpoint .. | .conclude .. => True
  | _ => False

theorem mode_of_finalizesAt {status : Bytes32} {now : Word}
    (h0 : (unpackStatus status).finalizesAt ≠ 0)
    (hle : (unpackStatus status).finalizesAt.toNat ≤ now.toNat) : mode status now = .finalized := by
  have hlt := (unpackStatus status).finalizesAt.isLt
  have hle' : (unpackStatus status).finalizesAt.setWidth 256 ≤ now := by
    show ((unpackStatus status).finalizesAt.setWidth 256).toNat ≤ now.toNat
    rw [BitVec.toNat_setWidth, Nat.mod_eq_of_lt (by omega)]
    exact hle
  rw [mode, if_neg h0, if_pos hle']

theorem mode_finalized_mono {status : Bytes32} {now later : Word}
    (h : mode status now = .finalized) (hle : now.toNat ≤ later.toNat) :
    mode status later = .finalized := by
  obtain ⟨h0, hat⟩ := finalized_time h
  exact mode_of_finalizesAt h0 (by omega)

section steps
variable {D : Deployment} {env : Env} {w w' : World} {c : Bytes32}

/-- the status of a channel after a call that succeeds -/
inductive DisputeStep (D : Deployment) (env : Env) (call : Call) (c : Bytes32) (w w' : World) : Prop
  | same (h : w'.statusOf c = w.statusOf c)
  | raised (hmode : w.modeOf env c ≠ .finalized) (h : w.turnNumRecord c ≤ w'.turnNumRecord c)
  | concluded (fixedPart : FixedPart) (hmode : w.modeOf env c ≠ .finalized)
      (hcall : ∃ parts, call = .conclude fixedPart parts)
      (h : w'.finalizesAt c = env.timestamp.setWidth 48)

theorem statusOf_setStatus_ne {channelId status : Bytes32} (h : c ≠ channelId) :
    (w.setStatus channelId status).statusOf c = w.statusOf c :=
  Function.update_of_ne h _ _

theorem unpack_setStatus (data : ChannelData) :
    unpackStatus ((w.setStatus c (generateStatus D data)).statusOf c) = ⟨data.turnNumRecord,
      data.finalizesAt, generateFingerprint D data.stateHash data.outcomeHash⟩ := by
  show unpackStatus (Function.update w.statusOf c _ c) = _
  rw [Function.update_self, unpack_generateStatus]

theorem requireChallengeable_ok {n : BitVec 48} (h : requireChallengeable env w c n = .ok ()) :
    w.modeOf env c ≠ .finalized ∧ w.turnNumRecord c ≤ n ∧
      (w.modeOf env c = .challenge → w.turnNumRecord c < n) := by
  unfold requireChallengeable at h
  cases hmode : w.modeOf env c with
  | «open» =>
    rw [hmode] at h
    exact ⟨nofun, require_eq_ok.1 h, nofun⟩
  | challenge =>
    rw [hmode] at h
    have hlt := require_eq_ok.1 h
    exact ⟨nofun, BitVec.le_of_lt hlt, fun _ => hlt⟩
  | finalized =>
    rw [hmode] at h
    exact absurd hmode (require_eq_ok.1 h)

theorem exec_dispute {call : Call} (hcall : IsDispute call) (h : call.exec D env w = .ok w') :
    DisputeStep D env call c w w' := by
  cases call with
  | challenge fixedPart parts sig =>
    obtain ⟨-, h⟩ := require_bind_eq_ok.1 h
    obtain ⟨channelId, last, stateHash, -, -, hmode, -, rfl⟩ := challenge_ok h
    by_cases hc : c = channelId
    · subst hc
      obtain ⟨hnot, hle, -⟩ := requireChallengeable_ok hmode
      refine .raised hnot ?_
      show _ ≤ (unpackStatus _).turnNumRecord
      rw [unpack_setStatus]
      exact hle
    · exact .same (statusOf_setStatus_ne hc)
  | checkpoint fixedPart parts =>
    obtain ⟨-, h⟩ := require_bind_eq_ok.1 h
    obtain ⟨channelId, last, -, -, hmode, hlt, rfl⟩ := checkpoint_ok h
    by_cases hc : c = channelId
    · subst hc
      refine .raised hmode ?_
      show _ ≤ (unpackStatus ((w.setStatus c _).statusOf c)).turnNumRecord
      rw [unpack_setStatus]
      exact BitVec.le_of_lt hlt
    · exact .same (statusOf_setStatus_ne hc)
  | conclude fixedPart parts =>
    obtain ⟨-, h⟩ := require_bind_eq_ok.1 h
    obtain ⟨channelId, h⟩ := conclude_ok h
    obtain ⟨-, hmode, last, -, rfl⟩ := concludeInternal_ok h
    by_cases hc : c = channelId
    · subst hc
      refine .concluded fixedPart hmode ⟨parts, rfl⟩ ?_
      show (unpackStatus ((w.setStatus c _).statusOf c)).finalizesAt = _
      rw [unpack_setStatus]
    · exact .same (statusOf_setStatus_ne hc)
  | deposit _ _ _ _ => exact hcall.elim
  | transfer _ _ _ _ _ => exact hcall.elim
  | claim _ => exact hcall.elim
  | transferAllAssets _ _ _ => exact hcall.elim
  | concludeAndTransferAllAssets _ _ => exact hcall.elim

theorem step_dispute {tx : Tx} (hcall : IsDispute tx.2) :
    DisputeStep D tx.1 tx.2 c w (NitroAdjudicator.step D w tx) := by
  show DisputeStep D tx.1 tx.2 c w (attempt (tx.2.exec D tx.1) w)
  cases hexec : tx.2.exec D tx.1 w with
  | error e =>
    rw [attempt_error hexec]
    exact .same rfl
  | ok w' =>
    rw [attempt_ok hexec]
    exact exec_dispute hcall hexec

/-! ## what a challenge commits to -/

/-- the encoding of a part has offsets that fit into a word -/
def VariablePart.Fits (p : VariablePart) : Prop :=
  128 + (Exit.toVal p.outcome).enc.length < 2 ^ 256

theorem hashes_of_encode {p q : VariablePart} (hp : p.Fits) (hq : q.Fits)
    (h : Abi.encode [p.toVal] = Abi.encode [q.toVal]) :
    hashState D c p.appData p.outcome p.turnNum p.isFinal =
      hashState D c q.appData q.outcome q.turnNum q.isFinal := by
  obtain ⟨hturn, hfinal, houtcome, happ⟩ := Abi.encode_record_inj rfl rfl rfl rfl hp hq h
  have hparts : Abi.encParts [.word c, .bytes p.appData, Exit.toVal p.outcome,
      .word (p.turnNum.setWidth 256), .bool p.isFinal] =
      Abi.encParts [.word c, .bytes q.appData, Exit.toVal q.outcome,
        .word (q.turnNum.setWidth 256), .bool q.isFinal] := by
    have hbool : Abi.Val.bool p.isFinal = .bool q.isFinal := congrArg Abi.Val.word hfinal
    rw [hturn, hbool]
    simp only [Abi.encParts]
    rw [houtcome, happ]
    rfl
  unfold hashState Abi.encode
  rw [hparts]

theorem requireStateSupportedBy_ok {fixedPart : FixedPart} {parts : List SignedVariablePart}
    {stateHash : Bytes32} (h : requireStateSupportedBy D env fixedPart parts c = .ok stateHash) :
    ∃ latest last, env.app fixedPart.appDefinition fixedPart parts = .ok latest ∧
      lastVariablePart parts = .ok last ∧
      Abi.encode [latest.toVal] = Abi.encode [last.toVal] ∧
      stateHash = hashState D c latest.appData latest.outcome latest.turnNum latest.isFinal := by
  obtain ⟨latest, happ, h⟩ := bind_eq_ok.1 h
  obtain ⟨⟨⟩, hlast, hend⟩ := bind_eq_ok.1 h
  cases hend
  obtain ⟨last, hparts, heq⟩ := bind_eq_ok.1 hlast
  exact ⟨latest, last, happ, hparts, (of_decide_eq_true (require_eq_ok.1 heq)).symm, rfl⟩

/-- the status has the turn number, the hash and the outcome of the state that the application
supports, which is the last one of the proof -/
def Commits (D : Deployment) (env : Env) (fixedPart : FixedPart) (parts : List SignedVariablePart)
    (c : Bytes32) (w : World) : Prop :=
  ∃ latest last, env.app fixedPart.appDefinition fixedPart parts = .ok latest ∧
    lastVariablePart parts = .ok last ∧ Abi.encode [latest.toVal] = Abi.encode [last.toVal] ∧
    w.turnNumRecord c = last.turnNum ∧
    (unpackStatus (w.statusOf c)).fingerprint = generateFingerprint D
      (hashState D c last.appData last.outcome last.turnNum last.isFinal)
      (hashOutcome D last.outcome)

theorem challenge_commits {fixedPart : FixedPart} {parts : List SignedVariablePart}
    {sig : Signature} (h : challenge D env fixedPart parts sig w = .ok w')
    (hid : getChannelId D fixedPart = .ok c) (hparts : ∀ p ∈ parts, p.variablePart.Fits)
    (happ : ∀ q, env.app fixedPart.appDefinition fixedPart parts = .ok q → q.Fits) :
    Commits D env fixedPart parts c w' := by
  obtain ⟨channelId, last, stateHash, hid', hlast, -, hstate, rfl⟩ := challenge_ok h
  obtain rfl := Except.ok.inj (hid.symm.trans hid')
  obtain ⟨latest, last', hlatest, hlast', heq, rfl⟩ := requireStateSupportedBy_ok hstate
  obtain rfl := Except.ok.inj (hlast.symm.trans hlast')
  have hfits : last.Fits := by
    obtain ⟨p, hp, hend⟩ := bind_eq_ok.1 hlast
    cases hend
    exact hparts p (List.mem_of_getElem? (index_eq_ok.1 hp))
  refine ⟨latest, last, hlatest, hlast, heq, ?_, ?_⟩
  · show (unpackStatus _).turnNumRecord = _
    rw [unpack_setStatus]
  · rw [unpack_setStatus, hashes_of_encode (happ latest hlatest) hfits heq]

theorem challenge_raises {fixedPart : FixedPart} {parts : List SignedVariablePart}
    {sig : Signature} (h : challenge D env fixedPart parts sig w = .ok w')
    (hid : getChannelId D fixedPart = .ok c) (hmode : w.modeOf env c = .challenge) :
    w.turnNumRecord c < w'.turnNumRecord c := by
  obtain ⟨channelId, last, stateHash, hid', -, hok, -, rfl⟩ := challenge_ok h
  obtain rfl := Except.ok.inj (hid.symm.trans hid')
  show _ < (unpackStatus _).turnNumRecord
  rw [unpack_setStatus]
  exact (requireChallengeable_ok hok).2.2 hmode

theorem checkpoint_opens {fixedPart : FixedPart} {parts : List SignedVariablePart}
    (h : checkpoint D env fixedPart parts w = .ok w') (hid : getChannelId D fixedPart = .ok c) :
    w.turnNumRecord c < w'.turnNumRecord c ∧ ∀ now, mode (w'.statusOf c) now = .open := by
  obtain ⟨channelId, last, hid', -, -, hlt, rfl⟩ := checkpoint_ok h
  obtain rfl := Except.ok.inj (hid.symm.trans hid')
  have hunpack : unpackStatus ((clearChallenge D c last.turnNum w).statusOf c) =
      ⟨last.turnNum, 0, generateFingerprint D 0 0⟩ := unpack_setStatus _
  refine ⟨?_, fun now => ?_⟩
  · show _ < (unpackStatus _).turnNumRecord
    rw [hunpack]
    exact hlt
  · rw [mode, hunpack, if_pos rfl]

end steps

/-! ## runs -/

/-- the assumptions about a run: dispute calls at positive times that do not decrease and do not
overflow, with states whose encodings do not overflow -/
structure DisputeRun (txs : List Tx) : Prop where
  dispute : ∀ tx ∈ txs, IsDispute tx.2
  positive : ∀ tx ∈ txs, 0 < tx.1.timestamp.toNat
  sorted : txs.Pairwise fun a b => a.1.timestamp.toNat ≤ b.1.timestamp.toNat
  small : ∀ tx ∈ txs, ∀ m fixedPart parts, tx.2.move = some (m, fixedPart, parts) →
    tx.1.timestamp.toNat + fixedPart.challengeDuration.toNat < 2 ^ 48
  fits : ∀ tx ∈ txs, ∀ m fixedPart parts, tx.2.move = some (m, fixedPart, parts) →
    (∀ p ∈ parts, p.variablePart.Fits) ∧
      ∀ q, tx.1.app fixedPart.appDefinition fixedPart parts = .ok q → q.Fits

section runs
variable {D : Deployment} {w : World} {c : Bytes32} {txs : List Tx}

theorem DisputeRun.tail {tx : Tx} (h : DisputeRun (tx :: txs)) : DisputeRun txs :=
  ⟨fun t ht => h.dispute t (List.mem_cons_of_mem _ ht),
    fun t ht => h.positive t (List.mem_cons_of_mem _ ht), (List.pairwise_cons.1 h.sorted).2,
    fun t ht => h.small t (List.mem_cons_of_mem _ ht),
    fun t ht => h.fits t (List.mem_cons_of_mem _ ht)⟩

theorem DisputeRun.append_right {before : List Tx} (h : DisputeRun (before ++ txs)) :
    DisputeRun txs := by
  induction before with
  | nil => exact h
  | cons tx before ih => exact ih h.tail

theorem DisputeRun.append_left {after : List Tx} (h : DisputeRun (txs ++ after)) :
    DisputeRun txs :=
  ⟨fun t ht => h.dispute t (List.mem_append_left _ ht),
    fun t ht => h.positive t (List.mem_append_left _ ht), (List.pairwise_append.1 h.sorted).1,
    fun t ht => h.small t (List.mem_append_left _ ht),
    fun t ht => h.fits t (List.mem_append_left _ ht)⟩

/-- **a finalized channel is never changed again** -/
theorem finalized_frozen {now : Word} (htxs : ∀ tx ∈ txs, IsDispute tx.2)
    (hlater : ∀ tx ∈ txs, now.toNat ≤ tx.1.timestamp.toNat)
    (h : mode (w.statusOf c) now = .finalized) :
    (run (NitroAdjudicator.step D) w txs).statusOf c = w.statusOf c := by
  have hrun : Along (NitroAdjudicator.step D)
      (fun _ tx => IsDispute tx.2 ∧ now.toNat ≤ tx.1.timestamp.toNat) w txs :=
    Along.of_forall fun tx htx => ⟨htxs tx htx, hlater tx htx⟩
  refine Along.inv (I := fun u => u.statusOf c = w.statusOf c) (fun u tx hu htx => ?_) rfl hrun
  have hfinal : u.modeOf tx.1 c = .finalized := by
    unfold World.modeOf
    rw [hu]
    exact mode_finalized_mono h htx.2
  cases step_dispute (D := D) (c := c) (w := u) htx.1 with
  | same hsame => exact hsame.trans hu
  | raised hmode _ => exact absurd hfinal hmode
  | concluded _ hmode _ _ => exact absurd hfinal hmode

/-- **as long as the channel is not finalized, the turn number never decreases** -/
theorem record_mono {now : Word} (htxs : DisputeRun txs)
    (hbefore : ∀ tx ∈ txs, tx.1.timestamp.toNat ≤ now.toNat)
    (h : mode ((run (NitroAdjudicator.step D) w txs).statusOf c) now ≠ .finalized) :
    w.turnNumRecord c ≤ (run (NitroAdjudicator.step D) w txs).turnNumRecord c := by
  induction txs generalizing w with
  | nil => exact BitVec.le_refl _
  | cons tx txs ih =>
    have hrest := ih (w := NitroAdjudicator.step D w tx) htxs.tail
      (fun t ht => hbefore t (List.mem_cons_of_mem _ ht)) h
    cases step_dispute (D := D) (c := c) (w := w) (htxs.dispute tx List.mem_cons_self) with
    | same hsame =>
      have hrecord : (NitroAdjudicator.step D w tx).turnNumRecord c = w.turnNumRecord c := by
        unfold World.turnNumRecord
        rw [hsame]
      rw [← hrecord]
      exact hrest
    | raised _ hle => exact BitVec.le_trans hle hrest
    | concluded fixedPart _ hcall hat =>
      -- the channel is finalized from now on, so it is at the end
      exfalso
      obtain ⟨parts, hcall⟩ := hcall
      have hsmall := htxs.small tx List.mem_cons_self .conclude fixedPart parts (by rw [hcall]; rfl)
      have hpos := htxs.positive tx List.mem_cons_self
      have htime : ((NitroAdjudicator.step D w tx).finalizesAt c).toNat =
          tx.1.timestamp.toNat := by
        rw [hat, BitVec.toNat_setWidth]
        exact Nat.mod_eq_of_lt (by omega)
      have hne : (NitroAdjudicator.step D w tx).finalizesAt c ≠ 0 := by
        intro h0
        rw [h0] at htime
        have hzero : (0 : BitVec 48).toNat = 0 := rfl
        omega
      have hfinal : mode ((NitroAdjudicator.step D w tx).statusOf c) tx.1.timestamp =
          .finalized := mode_of_finalizesAt hne (by
        show ((NitroAdjudicator.step D w tx).finalizesAt c).toNat ≤ _
        omega)
      have hfrozen := finalized_frozen (D := D) htxs.tail.dispute
        (List.pairwise_cons.1 htxs.sorted).1 hfinal
      apply h
      show mode ((run (NitroAdjudicator.step D) (NitroAdjudicator.step D w tx) txs).statusOf c)
        now = _
      rw [hfrozen]
      exact mode_finalized_mono hfinal (hbefore tx List.mem_cons_self)

structure DisputeLaws (D : Deployment) (c : Bytes32) (w : World) (txs : List Tx) : Prop where
  /-- finalized at some time, the channel keeps its status -/
  frozen : ∀ before after (now : Word), txs = before ++ after →
    (∀ tx ∈ after, now.toNat ≤ tx.1.timestamp.toNat) →
    mode ((run (NitroAdjudicator.step D) w before).statusOf c) now = .finalized →
    (run (NitroAdjudicator.step D) w txs).statusOf c =
      (run (NitroAdjudicator.step D) w before).statusOf c
  /-- between two moments, if it is not finalized at the second one -/
  record : ∀ before between after (now : Word), txs = before ++ (between ++ after) →
    (∀ tx ∈ between, tx.1.timestamp.toNat ≤ now.toNat) →
    mode ((run (NitroAdjudicator.step D) w (before ++ between)).statusOf c) now ≠ .finalized →
    (run (NitroAdjudicator.step D) w before).turnNumRecord c ≤
      (run (NitroAdjudicator.step D) w (before ++ between)).turnNumRecord c
  checkpoint : ∀ before env fixedPart parts after w',
    txs = before ++ (env, .checkpoint fixedPart parts) :: after →
    getChannelId D fixedPart = .ok c →
    (Call.checkpoint fixedPart parts).exec D env (run (NitroAdjudicator.step D) w before) = .ok w' →
    (run (NitroAdjudicator.step D) w before).turnNumRecord c < w'.turnNumRecord c ∧
      ∀ now, mode (w'.statusOf c) now = .open
  challenge : ∀ before env fixedPart parts sig after w',
    txs = before ++ (env, .challenge fixedPart parts sig) :: after →
    getChannelId D fixedPart = .ok c →
    (Call.challenge fixedPart parts sig).exec D env (run (NitroAdjudicator.step D) w before) =
      .ok w' →
    ((run (NitroAdjudicator.step D) w before).modeOf env c = .challenge →
      (run (NitroAdjudicator.step D) w before).turnNumRecord c < w'.turnNumRecord c) ∧
    Commits D env fixedPart parts c w'

/-- **the state machine of disputes** -/
theorem dispute_lawful (D : Deployment) (c : Bytes32) (w : World) (htxs : DisputeRun txs) :
    DisputeLaws D c w txs := by
  refine ⟨?_, ?_, ?_, ?_⟩
  · rintro before after now rfl hlater hfinal
    rw [run_append]
    exact finalized_frozen htxs.append_right.dispute hlater hfinal
  · rintro before between after now rfl hbefore hmode
    rw [run_append] at hmode ⊢
    exact record_mono htxs.append_right.append_left hbefore hmode
  · rintro before env fixedPart parts after w' rfl hid hexec
    obtain ⟨-, hexec⟩ := require_bind_eq_ok.1 hexec
    exact checkpoint_opens hexec hid
  · rintro before env fixedPart parts sig after w' rfl hid hexec
    obtain ⟨-, hexec⟩ := require_bind_eq_ok.1 hexec
    obtain ⟨hparts, happ⟩ := htxs.append_right.fits _ List.mem_cons_self .challenge fixedPart parts
      rfl
    exact ⟨challenge_raises hexec hid, challenge_commits hexec hid hparts happ⟩

end runs

/-! ## a channel that is disputed and concluded -/

namespace Sample

def partAt (turnNum : BitVec 48) (isFinal : Bool) : VariablePart :=
  { part isFinal with turnNum := turnNum }

/-- the first participant's signature on a challenge with the state at turn 5 -/
def challengerSig : Signature :=
  let p := part false
  let h := hashState deployment channelId p.appData p.outcome p.turnNum p.isFinal
  sign (deployment.crypto.keccak256
    (Abi.encode [.word h, .bytes (asciiBytes "forceMove")])) 1

def challengeFive : Call := .challenge fixedPart [signed (part false)] challengerSig

def checkpointSix : Call := .checkpoint fixedPart [signed (partAt 6 false)]

def concludeSeven : Call := .conclude fixedPart [signed (partAt 7 true)]

/-- the last challenge comes too late -/
def disputed : List Tx :=
  [(env 0 101, challengeFive), (env 0 120, checkpointSix), (env 0 130, concludeSeven),
    (env 0 140, challengeFive)]

theorem disputed_mem : ∀ tx ∈ disputed, IsDispute tx.2 ∧ 0 < tx.1.timestamp.toNat ∧
    tx.1.timestamp.toNat + fixedPart.challengeDuration.toNat < 2 ^ 48 ∧
    tx.1.app fixedPart.appDefinition = ConsensusApp.latestSupportedState deployment ∧
    ∃ m turnNum isFinal, tx.2.move = some (m, fixedPart, [signed (partAt turnNum isFinal)]) := by
  simp only [disputed, List.forall_mem_cons, List.not_mem_nil, false_implies, implies_true, and_true]
  exact ⟨⟨trivial, by decide, by decide, rfl, .challenge, 5, false, rfl⟩,
    ⟨trivial, by decide, by decide, rfl, .checkpoint, 6, false, rfl⟩,
    ⟨trivial, by decide, by decide, rfl, .conclude, 7, true, rfl⟩,
    trivial, by decide, by decide, rfl, .challenge, 5, false, rfl⟩

theorem fits_partAt (turnNum : BitVec 48) (isFinal : Bool) : (partAt turnNum isFinal).Fits := by
  have hfits : 128 + (Exit.toVal (part false).outcome).enc.length < 2 ^ 256 := by decide +kernel
  exact hfits

theorem disputed_run : DisputeRun disputed := by
  refine ⟨fun tx htx => (disputed_mem tx htx).1, fun tx htx => (disputed_mem tx htx).2.1,
    by decide +kernel, ?_, ?_⟩
  · intro tx htx m fp parts hmove
    obtain ⟨-, -, hsmall, -, m', turnNum, isFinal, hmove'⟩ := disputed_mem tx htx
    cases hmove.symm.trans hmove'
    exact hsmall
  · intro tx htx m fp parts hmove
    obtain ⟨-, -, -, happ, m', turnNum, isFinal, hmove'⟩ := disputed_mem tx htx
    cases hmove.symm.trans hmove'
    refine ⟨fun p hp => ?_, fun q hq => ?_⟩
    · rw [List.mem_singleton.1 hp]
      exact fits_partAt turnNum isFinal
    · rw [happ] at hq
      obtain ⟨-, hq⟩ := require_bind_eq_ok.1 hq
      obtain ⟨_, -, hq⟩ := bind_eq_ok.1 hq
      cases hq
      exact fits_partAt turnNum isFinal

/-- the chain after so many of the calls -/
def afterCalls (n : Nat) : World := run (NitroAdjudicator.step deployment) World.empty (disputed.take n)

theorem exec_afterCalls (n : Nat) (tx : Tx) (htx : disputed[n]? = some tx)
    (h : (tx.2.exec deployment tx.1 (afterCalls n)).toOption.isSome = true) :
    tx.2.exec deployment tx.1 (afterCalls n) = .ok (afterCalls (n + 1)) := by
  have hnext : afterCalls (n + 1) = NitroAdjudicator.step deployment (afterCalls n) tx := by
    unfold afterCalls
    rw [List.take_add_one, htx, run_append]
    rfl
  rw [hnext]
  cases hexec : tx.2.exec deployment tx.1 (afterCalls n) with
  | error e =>
    rw [hexec] at h
    cases h
  | ok w' => exact congrArg Except.ok (attempt_ok hexec).symm

end Sample

open Contracts.Sample

/-- a challenge, a checkpoint and a conclusion; the challenge after them changes nothing -/
theorem dispute_lawful_concluded :
    challengeFive.exec deployment (env 0 101) World.empty = .ok (afterCalls 1) ∧
    Commits deployment (env 0 101) fixedPart [signed (part false)] channelId (afterCalls 1) ∧
    checkpointSix.exec deployment (env 0 120) (afterCalls 1) = .ok (afterCalls 2) ∧
    (afterCalls 1).turnNumRecord channelId < (afterCalls 2).turnNumRecord channelId ∧
    concludeSeven.exec deployment (env 0 130) (afterCalls 2) = .ok (afterCalls 3) ∧
    mode ((afterCalls 3).statusOf channelId) 130 = .finalized ∧
    (run (NitroAdjudicator.step deployment) World.empty disputed).statusOf channelId =
      (afterCalls 3).statusOf channelId := by
  have hid : getChannelId deployment fixedPart = .ok channelId := by decide +kernel
  have laws := dispute_lawful deployment channelId World.empty disputed_run
  have hchallenge := exec_afterCalls 0 (env 0 101, challengeFive) rfl (by decide +kernel)
  have hcheckpoint := exec_afterCalls 1 (env 0 120, checkpointSix) rfl (by decide +kernel)
  have hconclude := exec_afterCalls 2 (env 0 130, concludeSeven) rfl (by decide +kernel)
  have hmode : mode ((afterCalls 3).statusOf channelId) 130 = .finalized := by decide +kernel
  have hcommits := laws.challenge [] (env 0 101) fixedPart [signed (part false)] challengerSig
    (disputed.drop 1) (afterCalls 1) rfl hid hchallenge
  have hraised := laws.checkpoint (disputed.take 1) (env 0 120) fixedPart
    [signed (partAt 6 false)] (disputed.drop 2) (afterCalls 2) rfl hid hcheckpoint
  have hlate : ∀ tx ∈ disputed.drop 3, (130 : Word).toNat ≤ tx.1.timestamp.toNat := by
    intro tx htx
    rw [List.mem_singleton.1 htx]
    decide
  refine ⟨hchallenge, hcommits.2, hcheckpoint, hraised.1, hconclude, hmode, ?_⟩
  unfold afterCalls at hmode ⊢
  exact laws.frozen _ (disputed.drop 3) 130 (List.take_append_drop 3 _).symm hlate hmode

end Nitro.Contracts
