import Nitro.Contracts.NitroAdjudicator
import Nitro.Lib.Hex

/-!
# The status word in the TypeScript package

`channelDataToStatus` writes the status of a channel as a hexadecimal text, `parseStatus` reads it.  The
contract packs the same fields by shifting.  The package takes a state and an outcome instead of their
hashes, and leaves both out for an open channel.

* `channelDataToStatus`, `parseStatus`   the package;
* `hexDigits_status`                     the digits of a packed word, field by field;
* `status_agreed`                        **packing, unpacking and the texts agree**.
-/

set_option linter.unusedSectionVars false

namespace Nitro.TypeScript
open Contracts Hex

/-- a number, a time and the parts that are hashed, if they are known -/
structure ChannelData (σ ο : Type) where
  turnNumRecord : Nat
  finalizesAt : Nat
  state : Option σ
  outcome : Option ο

structure FingerprintPreimage where
  stateHash : Bytes32
  outcomeHash : Bytes32

structure ParsedStatus where
  turnNumRecord : Nat
  finalizesAt : Nat
  fingerprint : List Char
  deriving DecidableEq

section package
variable (D : Deployment) {σ ο : Type} (hashState : σ → Bytes32) (hashOutcome : ο → Bytes32)

/-- an open channel has no state and no outcome, even where they are given (which is warned about) -/
def getFingerprintPreimage (data : ChannelData σ ο) : FingerprintPreimage :=
  let isOpen := decide (data.finalizesAt = 0)
  ⟨if isOpen then 0 else (data.state.map hashState).getD 0,
    if isOpen then 0 else (data.outcome.map hashOutcome).getD 0⟩

def encodeFingerprintPreimage (data : ChannelData σ ο) : Bytes :=
  let preimage := getFingerprintPreimage hashState hashOutcome data
  Abi.encode [.tuple [.word preimage.stateHash, .word preimage.outcomeHash]]

/-- the text of a word of 32 bytes -/
def hexWord (w : Bytes32) : List Char := hexText 64 w.toNat

def channelDataToStatus (data : ChannelData σ ο) : Except String (List Char) := do
  let hash := hexWord (D.crypto.keccak256 (encodeFingerprintPreimage hashState hashOutcome data))
  let fingerprint := hexDataSlice hash 12
  let turnNumRecord ← hexlify data.turnNumRecord >>= (hexZeroPad · 6)
  let finalizesAt ← hexlify data.finalizesAt >>= (hexZeroPad · 6)
  .ok ('0' :: 'x' :: (turnNumRecord.drop 2 ++ finalizesAt.drop 2 ++ fingerprint.drop 2))

end package

def validateHexString (hexString : List Char) : Except String Unit := do
  if isHexString hexString = false then .error "Not a hex string"
  if hexString.length ≠ 66 then .error "Incorrect length"

/-- `BigNumber.from(s).toNumber()` -/
def asNumber (digits : List Char) : Except String Nat :=
  if 2 ^ 53 ≤ readHex digits then .error "overflow" else .ok (readHex digits)

def parseStatus (status : List Char) : Except String ParsedStatus := do
  validateHexString status
  let turnNumRecord ← asNumber ((status.drop 2).take 12)
  let finalizesAt ← asNumber ((status.drop 14).take 12)
  .ok ⟨turnNumRecord, finalizesAt, '0' :: 'x' :: status.drop 26⟩

/-! ## the digits of a packed word -/

theorem hexDigits_status (status : Bytes32) :
    hexDigits 64 status.toNat = hexDigits 12 (unpackStatus status).turnNumRecord.toNat ++
      (hexDigits 12 (unpackStatus status).finalizesAt.toNat ++
        hexDigits 40 (unpackStatus status).fingerprint.toNat) := by
  have hturn : (unpackStatus status).turnNumRecord.toNat = status.toNat / 16 ^ 52 % 16 ^ 12 := by
    show ((status >>> 208).setWidth 48).toNat = _
    rw [BitVec.toNat_setWidth, BitVec.toNat_ushiftRight, Nat.shiftRight_eq_div_pow]
    norm_num
  have htime : (unpackStatus status).finalizesAt.toNat = status.toNat / 16 ^ 40 % 16 ^ 12 := by
    show ((status >>> 160).setWidth 48).toNat = _
    rw [BitVec.toNat_setWidth, BitVec.toNat_ushiftRight, Nat.shiftRight_eq_div_pow]
    norm_num
  have hprint : (unpackStatus status).fingerprint.toNat = status.toNat % 16 ^ 40 := by
    show (status.setWidth 160).toNat = _
    rw [BitVec.toNat_setWidth]
    norm_num
  rw [hturn, htime, hprint, hexDigits_mod, hexDigits_mod, hexDigits_mod, ← hexDigits_add 12 40,
    ← hexDigits_add 12 52]

theorem slices_hexWord (status : Bytes32) :
    ((hexWord status).drop 2).take 12 = hexDigits 12 (unpackStatus status).turnNumRecord.toNat ∧
    ((hexWord status).drop 14).take 12 = hexDigits 12 (unpackStatus status).finalizesAt.toNat ∧
    (hexWord status).drop 26 = hexDigits 40 (unpackStatus status).fingerprint.toNat := by
  have htext : hexWord status = '0' :: 'x' :: hexDigits 64 status.toNat := rfl
  rw [htext, hexDigits_status]
  generalize hexDigits 40 (unpackStatus status).fingerprint.toNat = fingerprint
  have hturn := length_hexDigits 12 (unpackStatus status).turnNumRecord.toNat
  have htime := length_hexDigits 12 (unpackStatus status).finalizesAt.toNat
  generalize hexDigits 12 (unpackStatus status).turnNumRecord.toNat = turn at hturn
  generalize hexDigits 12 (unpackStatus status).finalizesAt.toNat = time at htime
  refine ⟨?_, ?_, ?_⟩
  · exact List.take_left' hturn
  · show ((turn ++ (time ++ fingerprint)).drop 12).take 12 = time
    rw [List.drop_left' hturn, List.take_left' htime]
  · show (turn ++ (time ++ fingerprint)).drop 24 = fingerprint
    rw [← List.append_assoc]
    exact List.drop_left' (by rw [List.length_append, hturn, htime])

theorem parseStatus_hexWord (status : Bytes32) :
    parseStatus (hexWord status) = .ok ⟨(unpackStatus status).turnNumRecord.toNat,
      (unpackStatus status).finalizesAt.toNat,
      hexText 40 (unpackStatus status).fingerprint.toNat⟩ := by
  have hvalid : validateHexString (hexWord status) = .ok () := by
    unfold validateHexString hexWord
    rw [isHexString_hexText]
    simp [hexText, pure, Except.pure]
  have hnumber : ∀ n : BitVec 48, asNumber (hexDigits 12 n.toNat) = .ok n.toNat := by
    intro n
    have hlt := n.isLt
    unfold asNumber
    rw [readHex_hexDigits hlt, if_neg (by omega)]
  obtain ⟨hturn, htime, hprint⟩ := slices_hexWord status
  unfold parseStatus
  rw [hvalid, hturn, htime, hprint, hnumber, hnumber]
  rfl

/-! ## writing -/

theorem channelDataToStatus_eq (D : Deployment) {σ ο : Type} (hashState : σ → Bytes32)
    (hashOutcome : ο → Bytes32) {data : ChannelData σ ο} {turnNumRecord finalizesAt : BitVec 48}
    (hturn : data.turnNumRecord = turnNumRecord.toNat)
    (htime : data.finalizesAt = finalizesAt.toNat) :
    let preimage := getFingerprintPreimage hashState hashOutcome data
    channelDataToStatus D hashState hashOutcome data = .ok (hexWord (generateStatus D
      ⟨turnNumRecord, finalizesAt, preimage.stateHash, preimage.outcomeHash⟩)) := by
  intro preimage
  have hpad : ∀ n : BitVec 48, (hexlify n.toNat >>= (hexZeroPad · 6)) =
      .ok (hexText 12 n.toNat) := by
    intro n
    have hlt := n.isLt
    exact hexZeroPad_hexlify (n := 6) hlt (by omega) (by omega)
  have hhash : encodeFingerprintPreimage hashState hashOutcome data =
      Abi.encode [.word preimage.stateHash, .word preimage.outcomeHash] :=
    (Abi.encode_pair _ _).trans (Abi.encode_words _ _).symm
  have hslice : (hexDataSlice (hexWord (D.crypto.keccak256
      (Abi.encode [.word preimage.stateHash, .word preimage.outcomeHash]))) 12).drop 2 =
      hexDigits 40 (generateFingerprint D preimage.stateHash preimage.outcomeHash).toNat := by
    have hmod : (generateFingerprint D preimage.stateHash preimage.outcomeHash).toNat =
        (D.crypto.keccak256 (Abi.encode [.word preimage.stateHash,
          .word preimage.outcomeHash])).toNat % 16 ^ 40 := by
      unfold generateFingerprint
      rw [BitVec.toNat_setWidth]
      norm_num
    rw [hmod, hexDigits_mod]
    generalize (D.crypto.keccak256 (Abi.encode [.word preimage.stateHash,
      .word preimage.outcomeHash])) = hash
    show (hexDigits 64 hash.toNat).drop 24 = hexDigits 40 hash.toNat
    rw [hexDigits_add 24 40]
    exact List.drop_left' (length_hexDigits 24 _)
  unfold channelDataToStatus
  rw [hturn, htime, hpad, hpad, hhash]
  dsimp only
  rw [hslice]
  show Except.ok ('0' :: 'x' :: (hexDigits 12 turnNumRecord.toNat ++
    hexDigits 12 finalizesAt.toNat ++ _)) = _
  unfold hexWord hexText
  rw [hexDigits_status, unpack_generateStatus, List.append_assoc]

/-! ## agreement -/

/-- the hashes that are given with the data -/
def ChannelData.hashes {σ ο : Type} (hashState : σ → Bytes32) (hashOutcome : ο → Bytes32)
    (data : ChannelData σ ο) : Bytes32 × Bytes32 :=
  ((data.state.map hashState).getD 0, (data.outcome.map hashOutcome).getD 0)

/-- the data are those of the contract; an open channel is given without hashes -/
structure Matches {σ ο : Type} (hashState : σ → Bytes32) (hashOutcome : ο → Bytes32)
    (data : ChannelData σ ο) (stored : Contracts.ChannelData) : Prop where
  turnNumRecord : data.turnNumRecord = stored.turnNumRecord.toNat
  finalizesAt : data.finalizesAt = stored.finalizesAt.toNat
  hashes : data.hashes hashState hashOutcome = (stored.stateHash, stored.outcomeHash)
  unhashed : stored.finalizesAt = 0 → stored.stateHash = 0 ∧ stored.outcomeHash = 0

theorem Matches.preimage {σ ο : Type} {hashState : σ → Bytes32} {hashOutcome : ο → Bytes32}
    {data : ChannelData σ ο} {stored : Contracts.ChannelData}
    (h : Matches hashState hashOutcome data stored) :
    getFingerprintPreimage hashState hashOutcome data =
      ⟨stored.stateHash, stored.outcomeHash⟩ := by
  unfold getFingerprintPreimage
  have hhashes := h.hashes
  unfold ChannelData.hashes at hhashes
  obtain ⟨hs, ho⟩ := Prod.mk.inj hhashes
  by_cases hopen : data.finalizesAt = 0
  · have hzero : stored.finalizesAt = 0 := BitVec.eq_of_toNat_eq (h.finalizesAt.symm.trans hopen)
    obtain ⟨hs0, ho0⟩ := h.unhashed hzero
    simp [hopen, hs0, ho0]
  · rw [decide_eq_false hopen, ← hs, ← ho]
    rfl

theorem updateFingerprint_status (D : Deployment) (w : World)
    (channelId stateHash outcomeHash c : Bytes32) :
    unpackStatus ((MultiAssetHolder.updateFingerprint D w channelId stateHash outcomeHash).statusOf c) =
      if c = channelId then { unpackStatus (w.statusOf c) with
        fingerprint := generateFingerprint D stateHash outcomeHash }
      else unpackStatus (w.statusOf c) := by
  show unpackStatus (Function.update w.statusOf channelId _ c) = _
  by_cases hc : c = channelId
  · subst hc
    rw [Function.update_self, unpack_generateStatus, if_pos rfl]
  · rw [Function.update_of_ne hc, if_neg hc]

/-- **the status word loses nothing, an update changes only the fingerprint, and the package writes and
reads the same word** -/
theorem status_agreed (D : Deployment) (stored : Contracts.ChannelData) :
    unpackStatus (generateStatus D stored) = ⟨stored.turnNumRecord, stored.finalizesAt,
      (D.crypto.keccak256 (Abi.encode [.word stored.stateHash, .word stored.outcomeHash])).setWidth
        160⟩ ∧
    (∀ (w : World) (channelId c : Bytes32),
      let w' := MultiAssetHolder.updateFingerprint D w channelId stored.stateHash stored.outcomeHash
      w' = { w with statusOf := w'.statusOf } ∧ (c ≠ channelId → w'.statusOf c = w.statusOf c) ∧
      unpackStatus (w'.statusOf channelId) = { unpackStatus (w.statusOf channelId) with
        fingerprint := (D.crypto.keccak256
          (Abi.encode [.word stored.stateHash, .word stored.outcomeHash])).setWidth 160 }) ∧
    ∀ (σ ο : Type) (hashState : σ → Bytes32) (hashOutcome : ο → Bytes32) (data : ChannelData σ ο),
      Matches hashState hashOutcome data stored →
      channelDataToStatus D hashState hashOutcome data = .ok (hexWord (generateStatus D stored)) ∧
      parseStatus (hexWord (generateStatus D stored)) = .ok ⟨data.turnNumRecord, data.finalizesAt,
        hexText 40 (unpackStatus (generateStatus D stored)).fingerprint.toNat⟩ := by
  refine ⟨unpack_generateStatus D stored, fun w channelId c => ⟨rfl, fun hc => ?_, ?_⟩,
    fun σ ο hashState hashOutcome data h => ⟨?_, ?_⟩⟩
  · exact Function.update_of_ne hc _ _
  · rw [updateFingerprint_status, if_pos rfl]
    rfl
  · have hwrite := channelDataToStatus_eq D hashState hashOutcome h.turnNumRecord h.finalizesAt
    rw [h.preimage] at hwrite
    exact hwrite
  · rw [parseStatus_hexWord, unpack_generateStatus, h.turnNumRecord, h.finalizesAt]

theorem status_agreed_challenged :
    channelDataToStatus Contracts.Sample.deployment id id
        (⟨5, 9, some (1 : Bytes32), some (2 : Bytes32)⟩ : ChannelData Bytes32 Bytes32) =
      .ok (hexWord (generateStatus Contracts.Sample.deployment ⟨5, 9, 1, 2⟩)) :=
  ((status_agreed Contracts.Sample.deployment ⟨5, 9, 1, 2⟩).2.2 Bytes32 Bytes32 id id _
    ⟨rfl, rfl, rfl, fun h => absurd h (by decide)⟩).1

/-- an open channel that is given with a state: the package leaves the state out -/
theorem open_status_differs :
    channelDataToStatus Contracts.Sample.deployment id id
        (⟨5, 0, some (1 : Bytes32), some (2 : Bytes32)⟩ : ChannelData Bytes32 Bytes32) ≠
      .ok (hexWord (generateStatus Contracts.Sample.deployment ⟨5, 0, 1, 2⟩)) := by
  decide +kernel

end Nitro.TypeScript
