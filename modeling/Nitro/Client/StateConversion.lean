import Nitro.Contracts.NitroUtils
import Nitro.State

/-!
# States on their way to the contract

A state is sent as call data: the fixed part as it is, the variable part after `ConvertVariablePart`.
Every `*big.Int` is packed modulo `2^256`, and the decoder of the contract refuses a `uint48` that has
more than 48 bits.

* `convertVariablePart`                         the conversion of the client;
* `decodeFixedPart`, `decodeVariablePart`       what the contract gets;
* `Contracts.FixedPart.back`, ...               the values of the contract, read as values of the client;
* `channelIdPreimage`, `Contracts.statePreimage`, ...    what is hashed;
* `adjudicated_iff`                             **which valid states arrive without a loss and with the
                                                same hashes**.
-/

set_option linter.unusedSectionVars false

namespace Nitro
open Go
open Contracts (Word)

/-! ## the conversion -/

/-- `INitroTypesVariablePart` of the bindings; `ExitFormatSingleAssetExit` and `ExitFormatAllocation`
have the fields of the client's own structs -/
structure INitroTypesVariablePart where
  outcome : Exit
  appData : Bytes
  turnNum : BigInt
  isFinal : Bool

def convertAllocations (as : Allocations) : Allocations :=
  as.map fun a => ⟨a.destination, a.amount, a.allocationType, a.metadata⟩

def convertOutcome (o : Exit) : Exit :=
  o.map fun sae => ⟨sae.asset, sae.metadata, convertAllocations sae.allocations⟩

/-- the turn number goes through `int64` -/
def convertVariablePart (vp : VariablePart) : INitroTypesVariablePart where
  appData := vp.appData
  turnNum := some vp.turnNum.toInt64.toInt
  isFinal := vp.isFinal
  outcome := convertOutcome vp.outcome

/-! ## the call data -/

/-- a number in the call data -/
def packNumber (n : BigInt) : Res Word := do
  let n ← n.deref
  .ok (BitVec.ofInt 256 n)

/-- the decoder of the contract at a `uint48` -/
def decodeUint48 (w : Word) : Res (BitVec 48) :=
  if w.toNat < 2 ^ 48 then .ok (w.setWidth 48) else .error (.err (.new "execution reverted"))

def decodeFixedPart (fp : FixedPart) : Res Contracts.FixedPart := do
  let chainId ← packNumber fp.chainId
  let channelNonce ← decodeUint48 (← packNumber fp.channelNonce)
  let challengeDuration ← decodeUint48 (← packNumber fp.challengeDuration)
  .ok { chainId := chainId, participants := fp.participants, channelNonce := channelNonce,
        appDefinition := fp.appDefinition, challengeDuration := challengeDuration }

def decodeAllocation (a : Allocation) : Res Contracts.Allocation := do
  let amount ← packNumber a.amount
  .ok ⟨a.destination, amount, a.allocationType, a.metadata⟩

def decodeSingleAssetExit (e : SingleAssetExit) : Res Contracts.SingleAssetExit := do
  let allocations ← e.allocations.mapM decodeAllocation
  .ok ⟨e.asset, e.metadata, allocations⟩

def decodeVariablePart (vp : INitroTypesVariablePart) : Res Contracts.VariablePart := do
  let outcome ← vp.outcome.mapM decodeSingleAssetExit
  let turnNum ← decodeUint48 (← packNumber vp.turnNum)
  .ok ⟨outcome, vp.appData, turnNum, vp.isFinal⟩

/-! ## what arrives, read as values of the client -/

def Contracts.FixedPart.back (fp : Contracts.FixedPart) : Nitro.FixedPart where
  chainId := some (fp.chainId.toNat : Int)
  participants := fp.participants
  channelNonce := some (fp.channelNonce.toNat : Int)
  appDefinition := fp.appDefinition
  challengeDuration := some (fp.challengeDuration.toNat : Int)

def Contracts.Allocation.back (a : Contracts.Allocation) : Nitro.Allocation :=
  ⟨a.destination, some (a.amount.toNat : Int), a.allocationType, a.metadata⟩

def Contracts.SingleAssetExit.back (e : Contracts.SingleAssetExit) : Nitro.SingleAssetExit :=
  ⟨e.asset, e.metadata, e.allocations.map Contracts.Allocation.back⟩

def Contracts.VariablePart.back (vp : Contracts.VariablePart) : Nitro.VariablePart where
  appData := vp.appData
  outcome := vp.outcome.map Contracts.SingleAssetExit.back
  turnNum := UInt64.ofNat vp.turnNum.toNat
  isFinal := vp.isFinal

/-! ## what is hashed -/

/-- what `FixedPart.ChannelId` hashes -/
def FixedPart.channelIdPreimage (fp : FixedPart) : Res Bytes := do
  let chainId ← uint256Val fp.chainId
  let channelNonce ← uint256Val fp.channelNonce
  let challengeDuration ← uint256Val fp.challengeDuration
  .ok (Abi.encode [chainId, .array (fp.participants.map addressVal), channelNonce,
    addressVal fp.appDefinition, challengeDuration])

/-- what `getChannelId` hashes -/
def Contracts.channelIdPreimage (D : Contracts.Deployment) (fp : Contracts.FixedPart) : Bytes :=
  Abi.encode [.word D.chainId, .array (fp.participants.map fun a => .word (a.setWidth 256)),
    .word (fp.channelNonce.setWidth 256), .word (fp.appDefinition.setWidth 256),
    .word (fp.challengeDuration.setWidth 256)]

/-- what `hashState` hashes -/
def Contracts.statePreimage (channelId : Bytes32) (vp : Contracts.VariablePart) : Bytes :=
  Abi.encode [.word channelId, .bytes vp.appData, Contracts.Exit.toVal vp.outcome,
    .word (vp.turnNum.setWidth 256), .bool vp.isFinal]

theorem FixedPart.channelId_eq (cr : Crypto) (fp : FixedPart) :
    fp.channelId cr = fp.channelIdPreimage >>= fun b => .ok (cr.keccak256 b) := by
  unfold FixedPart.channelId FixedPart.channelIdPreimage
  cases uint256Val fp.chainId with
  | error e => rfl
  | ok chainId =>
    cases uint256Val fp.channelNonce with
    | error e => rfl
    | ok channelNonce =>
      cases uint256Val fp.challengeDuration with
      | error e => rfl
      | ok challengeDuration => rfl

/-! ## numbers -/

/-- a number that fits in 48 bits -/
def Fits48 (n : BigInt) : Prop := ∃ m : Int, n = some m ∧ 0 ≤ m ∧ m < 2 ^ 48

theorem packNumber_ok {n : BigInt} {w : Word} :
    packNumber n = .ok w ↔ ∃ m : Int, n = some m ∧ w = BitVec.ofInt 256 m := by
  unfold packNumber
  cases n with
  | none =>
    refine ⟨fun h => ?_, fun ⟨m, h, _⟩ => ?_⟩
    · cases h
    · cases h
  | some m =>
    refine ⟨fun h => ⟨m, rfl, (Except.ok.inj h).symm⟩, fun ⟨m', hm, hw⟩ => ?_⟩
    cases hm
    rw [hw]
    rfl

theorem fits48_of_back {n : BigInt} {b : BitVec 48} (hback : some (b.toNat : Int) = n) :
    Fits48 n := by
  refine ⟨b.toNat, hback.symm, Int.natCast_nonneg _, ?_⟩
  have := b.isLt
  omega

theorem decodeUint48_of_fits {n : BigInt} (h : Fits48 n) : ∃ (w : Word) (b : BitVec 48),
    packNumber n = .ok w ∧ decodeUint48 w = .ok b ∧ some (b.toNat : Int) = n ∧
      b.setWidth 256 = w := by
  obtain ⟨m, rfl, hm, hlt⟩ := h
  obtain ⟨k, rfl⟩ := Int.eq_ofNat_of_zero_le hm
  have hk : k < 2 ^ 48 := by omega
  have hnat : (BitVec.ofInt 256 (k : Int)).toNat = k := by
    rw [BitVec.ofInt_natCast, BitVec.toNat_ofNat]
    exact Nat.mod_eq_of_lt (by omega)
  refine ⟨BitVec.ofInt 256 k, BitVec.ofNat 48 k, rfl, ?_, ?_, ?_⟩
  · unfold decodeUint48
    rw [hnat, if_pos hk]
    congr 1
    refine BitVec.eq_of_toNat_eq ?_
    rw [BitVec.toNat_setWidth, hnat, BitVec.toNat_ofNat]
  · rw [BitVec.toNat_ofNat, Nat.mod_eq_of_lt hk]
  · refine BitVec.eq_of_toNat_eq ?_
    rw [BitVec.toNat_setWidth, BitVec.toNat_ofNat, hnat, Nat.mod_eq_of_lt hk]
    exact Nat.mod_eq_of_lt (by omega)

/-- an amount that fits in a word -/
def FitsWord (n : BigInt) : Prop := ∃ m : Int, n = some m ∧ 0 ≤ m ∧ m < 2 ^ 256

theorem fitsWord_of_back {n : BigInt} {w : Word} (hback : some (w.toNat : Int) = n) : FitsWord n := by
  refine ⟨w.toNat, hback.symm, Int.natCast_nonneg _, ?_⟩
  have := w.isLt
  omega

theorem packNumber_of_fits {n : BigInt} (h : FitsWord n) : ∃ w : Word,
    packNumber n = .ok w ∧ some (w.toNat : Int) = n := by
  obtain ⟨m, rfl, hm, hlt⟩ := h
  obtain ⟨k, rfl⟩ := Int.eq_ofNat_of_zero_le hm
  refine ⟨BitVec.ofInt 256 k, rfl, ?_⟩
  rw [BitVec.ofInt_natCast, BitVec.toNat_ofNat, Nat.mod_eq_of_lt (by omega)]

theorem toInt64_of_lt {t : UInt64} (h : t.toNat < 2 ^ 48) : t.toInt64.toInt = t.toNat := by
  show t.toBitVec.toInt = _
  rw [BitVec.toInt_eq_toNat_of_lt]
  · rfl
  · show 2 * t.toNat < 2 ^ 64
    omega

theorem uint256Val_eq {n : BigInt} {w : Word} (h : packNumber n = .ok w) :
    uint256Val n = .ok (.word w) := by
  obtain ⟨m, rfl, rfl⟩ := packNumber_ok.1 h
  rfl

/-! ## outcomes -/

theorem mapM_back {α β : Type} {f : α → Res β} {g : β → α} {P : α → Prop} {l : List α}
    (h : ∀ a ∈ l, (∃ b, f a = .ok b ∧ g b = a) ↔ P a) :
    (∃ l', l.mapM f = .ok l' ∧ l'.map g = l) ↔ ∀ a ∈ l, P a := by
  induction l with
  | nil => exact ⟨fun _ a ha => absurd ha List.not_mem_nil, fun _ => ⟨[], rfl, rfl⟩⟩
  | cons a l ih =>
    have ih := ih fun a ha => h a (List.mem_cons_of_mem _ ha)
    rw [List.forall_mem_cons, ← ih, ← h a List.mem_cons_self]
    simp only [Res.mapM_forall₂]
    refine ⟨fun ⟨l', hl', hback⟩ => ?_, fun ⟨⟨b, hb, hba⟩, l', hl', hback⟩ => ?_⟩
    · obtain ⟨b, bs, hb, hbs, rfl⟩ := List.forall₂_cons_left_iff.1 hl'
      obtain ⟨hhead, htail⟩ := List.cons.inj hback
      exact ⟨⟨b, hb, hhead⟩, bs, hbs, htail⟩
    · refine ⟨b :: l', .cons hb hl', ?_⟩
      rw [List.map_cons, hba, hback]

theorem decodeAllocation_back {a : Allocation} :
    (∃ a', decodeAllocation a = .ok a' ∧ a'.back = a) ↔ FitsWord a.amount := by
  refine ⟨fun ⟨a', _, hback⟩ => fitsWord_of_back (congrArg Allocation.amount hback), fun h => ?_⟩
  obtain ⟨w, hw, hback⟩ := packNumber_of_fits h
  refine ⟨⟨a.destination, w, a.allocationType, a.metadata⟩, ?_, ?_⟩
  · unfold decodeAllocation
    rw [hw]
    rfl
  · show Allocation.mk _ (some (w.toNat : Int)) _ _ = a
    rw [hback]

theorem decodeSingleAssetExit_back {e : SingleAssetExit} :
    (∃ e', decodeSingleAssetExit e = .ok e' ∧ e'.back = e) ↔
      ∀ a ∈ e.allocations, FitsWord a.amount := by
  rw [← mapM_back fun a _ => decodeAllocation_back]
  refine ⟨fun ⟨e', he', hback⟩ => ?_, fun ⟨as, has, hback⟩ => ?_⟩
  · obtain ⟨as, has, he'⟩ := Res.bind_eq_ok.1 he'
    cases he'
    exact ⟨as, has, congrArg SingleAssetExit.allocations hback⟩
  · refine ⟨⟨e.asset, e.metadata, as⟩, ?_, ?_⟩
    · unfold decodeSingleAssetExit
      rw [has]
      rfl
    · show SingleAssetExit.mk _ _ (as.map Contracts.Allocation.back) = e
      rw [hback]

theorem convertOutcome_eq (o : Exit) : convertOutcome o = o := by
  have hallocations : ∀ as : Allocations, convertAllocations as = as := fun as => List.map_id as
  unfold convertOutcome
  simp only [hallocations]
  exact List.map_id o

theorem mapM_toVal {α β : Type} {f : α → Res β} {g : α → Res Abi.Val} {v : β → Abi.Val}
    (h : ∀ a b, f a = .ok b → g a = .ok (v b)) {l : List α} {l' : List β}
    (hl : l.mapM f = .ok l') : l.mapM g = .ok (l'.map v) := by
  rw [Res.mapM_forall₂] at hl ⊢
  rw [List.forall₂_map_right_iff]
  exact hl.imp fun a b hab => h a b hab

theorem decodeAllocation_toVal {a : Allocation} {a' : Contracts.Allocation}
    (h : decodeAllocation a = .ok a') : a.toVal = .ok a'.toVal := by
  obtain ⟨w, hw, h⟩ := Res.bind_eq_ok.1 h
  cases h
  obtain ⟨m, hm, rfl⟩ := packNumber_ok.1 hw
  unfold Allocation.toVal
  rw [hm]
  rfl

theorem decodeSingleAssetExit_toVal {e : SingleAssetExit} {e' : Contracts.SingleAssetExit}
    (h : decodeSingleAssetExit e = .ok e') : e.toVal = .ok e'.toVal := by
  obtain ⟨as, has, h⟩ := Res.bind_eq_ok.1 h
  cases h
  unfold SingleAssetExit.toVal
  rw [mapM_toVal (fun _ _ => decodeAllocation_toVal) has]
  rfl

theorem decodeOutcome_toVal {o : Exit} {o' : Contracts.Exit}
    (h : o.mapM decodeSingleAssetExit = .ok o') : o.toVal = .ok (Contracts.Exit.toVal o') := by
  unfold Exit.toVal
  rw [mapM_toVal (fun _ _ => decodeSingleAssetExit_toVal) h]
  rfl

/-! ## states -/

structure State.Sendable (s : State) : Prop where
  channelNonce : Fits48 s.channelNonce
  challengeDuration : Fits48 s.challengeDuration
  turnNum : s.turnNum.toNat < 2 ^ 48
  amounts : ∀ e ∈ s.outcome, ∀ a ∈ e.allocations, FitsWord a.amount

/-- the state arrives without a loss, and both sides hash the same bytes -/
structure Adjudicated (D : Contracts.Deployment) (s : State) (fp : Contracts.FixedPart)
    (vp : Contracts.VariablePart) : Prop where
  fixedPart : decodeFixedPart s.fixedPart = .ok fp
  variablePart : decodeVariablePart (convertVariablePart s.variablePart) = .ok vp
  fixedPart_back : fp.back = s.fixedPart
  variablePart_back : vp.back = s.variablePart
  channelIdPreimage : s.fixedPart.channelIdPreimage = .ok (Contracts.channelIdPreimage D fp)
  statePreimage : ∃ id, s.channelId D.crypto = .ok id ∧ Contracts.getChannelId D fp = .ok id ∧
    s.encode D.crypto = .ok (Contracts.statePreimage id vp) ∧
    s.hash D.crypto = .ok (Contracts.hashState D id vp.appData vp.outcome vp.turnNum vp.isFinal)

section states
variable {D : Contracts.Deployment} {s : State} {fp : Contracts.FixedPart}
  {vp : Contracts.VariablePart}

theorem Adjudicated.sendable (h : Adjudicated D s fp vp) : s.Sendable := by
  refine ⟨fits48_of_back (congrArg FixedPart.channelNonce h.fixedPart_back),
    fits48_of_back (congrArg FixedPart.challengeDuration h.fixedPart_back), ?_, ?_⟩
  · have hturn : UInt64.ofNat vp.turnNum.toNat = s.turnNum :=
      congrArg VariablePart.turnNum h.variablePart_back
    have hlt := vp.turnNum.isLt
    have hsize : vp.turnNum.toNat < UInt64.size := Nat.lt_trans hlt (by decide)
    rw [← hturn, UInt64.toNat_ofNat_of_lt' hsize]
    exact hlt
  · obtain ⟨o', ho', hvp⟩ := Res.bind_eq_ok.1 h.variablePart
    obtain ⟨w, -, hvp⟩ := Res.bind_eq_ok.1 hvp
    obtain ⟨b, -, hvp⟩ := Res.bind_eq_ok.1 hvp
    cases hvp
    have hback : o'.map Contracts.SingleAssetExit.back = s.outcome :=
      congrArg VariablePart.outcome h.variablePart_back
    have ho : s.outcome.mapM decodeSingleAssetExit = .ok o' := by
      rw [← convertOutcome_eq s.outcome]
      exact ho'
    exact (mapM_back fun e _ => decodeSingleAssetExit_back).1 ⟨o', ho, hback⟩

theorem decodeFixedPart_of_sendable (h : s.Sendable) (hchain : s.chainId = some (D.chainId.toNat : Int)) :
    ∃ fp, decodeFixedPart s.fixedPart = .ok fp ∧ fp.back = s.fixedPart ∧ fp.chainId = D.chainId ∧
      s.fixedPart.channelIdPreimage = .ok (Contracts.channelIdPreimage D fp) := by
  obtain ⟨wn, n, hwn, hn, hnback, hnword⟩ := decodeUint48_of_fits h.channelNonce
  obtain ⟨wd, d, hwd, hd, hdback, hdword⟩ := decodeUint48_of_fits h.challengeDuration
  have hc : packNumber s.chainId = .ok D.chainId := by
    refine packNumber_ok.2 ⟨_, hchain, ?_⟩
    rw [BitVec.ofInt_natCast, BitVec.ofNat_toNat, BitVec.setWidth_eq]
  refine ⟨⟨D.chainId, s.participants, n, s.appDefinition, d⟩, ?_, ?_, rfl, ?_⟩
  · unfold decodeFixedPart
    show (packNumber s.chainId >>= fun _ => packNumber s.channelNonce >>= _) = _
    rw [hc, hwn]
    simp only [Res.ok_bind, hn]
    show (packNumber s.challengeDuration >>= _) = _
    rw [hwd]
    simp only [Res.ok_bind, hd]
    rfl
  · show FixedPart.mk _ _ (some (n.toNat : Int)) _ (some (d.toNat : Int)) = s.fixedPart
    rw [hnback, hdback, ← hchain]
    rfl
  · unfold FixedPart.channelIdPreimage
    show (uint256Val s.chainId >>= fun _ => uint256Val s.channelNonce >>= fun _ =>
      uint256Val s.challengeDuration >>= _) = _
    rw [uint256Val_eq hc, uint256Val_eq hwn, uint256Val_eq hwd, ← hnword, ← hdword]
    rfl

theorem decodeVariablePart_of_sendable (h : s.Sendable) :
    ∃ vp, decodeVariablePart (convertVariablePart s.variablePart) = .ok vp ∧
      vp.back = s.variablePart ∧ s.outcome.toVal = .ok (Contracts.Exit.toVal vp.outcome) ∧
      State.turnNumVal s.turnNum = .word (vp.turnNum.setWidth 256) ∧ vp.appData = s.appData ∧
      vp.isFinal = s.isFinal := by
  have hturn := toInt64_of_lt h.turnNum
  have hfits : Fits48 (some s.turnNum.toInt64.toInt) := by
    refine ⟨_, rfl, ?_, ?_⟩
    · omega
    · have := h.turnNum
      omega
  obtain ⟨w, b, hw, hb, hback, hword⟩ := decodeUint48_of_fits hfits
  obtain ⟨o', ho', hoback⟩ := (mapM_back fun e _ => decodeSingleAssetExit_back).2 h.amounts
  have hb' : UInt64.ofNat b.toNat = s.turnNum := by
    have hnat : b.toNat = s.turnNum.toNat := by
      have := Option.some.inj hback
      omega
    rw [hnat, UInt64.ofNat_toNat]
  refine ⟨⟨o', s.appData, b, s.isFinal⟩, ?_, ?_, decodeOutcome_toVal ho', ?_, rfl, rfl⟩
  · unfold decodeVariablePart
    show ((convertOutcome s.outcome).mapM decodeSingleAssetExit >>= fun _ =>
      packNumber (some s.turnNum.toInt64.toInt) >>= _) = _
    rw [convertOutcome_eq, ho', hw]
    simp only [Res.ok_bind, hb]
    rfl
  · show VariablePart.mk _ (o'.map Contracts.SingleAssetExit.back) (UInt64.ofNat b.toNat) _ = _
    rw [hoback, hb']
    rfl
  · rw [hword]
    exact congrArg Abi.Val.word (Except.ok.inj hw)

/-- **which states can be adjudicated** -/
theorem adjudicated_iff (hchain : s.chainId = some (D.chainId.toNat : Int)) :
    (∃ fp vp, Adjudicated D s fp vp) ↔ s.Sendable := by
  refine ⟨fun ⟨fp, vp, h⟩ => h.sendable, fun h => ?_⟩
  obtain ⟨fp, hfp, hfpback, hfpchain, hpre⟩ := decodeFixedPart_of_sendable h hchain
  obtain ⟨vp, hvp, hvpback, houtcome, hturn, happ, hfinal⟩ := decodeVariablePart_of_sendable h
  have hid : s.channelId D.crypto = .ok (D.crypto.keccak256 (Contracts.channelIdPreimage D fp)) := by
    unfold State.channelId
    rw [FixedPart.channelId_eq, hpre]
    rfl
  have hencode : s.encode D.crypto = .ok (Contracts.statePreimage
      (D.crypto.keccak256 (Contracts.channelIdPreimage D fp)) vp) := by
    unfold State.encode
    rw [hid, houtcome]
    simp only [Res.ok_bind, hturn, ← happ, ← hfinal]
    rfl
  refine ⟨fp, vp, hfp, hvp, hfpback, hvpback, hpre, _, hid, ?_, hencode, ?_⟩
  · unfold Contracts.getChannelId
    exact Evm.require_bind_eq_ok.2 ⟨hfpchain, rfl⟩
  · exact State.hash_eq_ok.2 ⟨_, hencode, rfl⟩

end states

namespace Sample

/-- the contracts on the chain of the sample state -/
def chain9001 : Contracts.Deployment where
  crypto := Crypto.plain
  chainId := 9001
  decodeExit _ := .error "abi decoding"
  guarantee := 1

/-- the sample state with a nonce of 49 bits -/
def bigNonce : State := { state 0 with channelNonce := some (2 ^ 48) }

end Sample

theorem adjudicated_five :
    (Sample.state 5).validate Sample.chain9001.crypto = .ok () ∧
      ∃ fp vp, Adjudicated Sample.chain9001 (Sample.state 5) fp vp := by
  refine ⟨by decide +kernel, (adjudicated_iff rfl).2 ⟨?_, ?_, by decide, ?_⟩⟩
  · exact ⟨7, rfl, by decide, by decide⟩
  · exact ⟨60, rfl, by decide, by decide⟩
  · intro e he a ha
    obtain rfl := List.mem_singleton.1 he
    rcases List.mem_cons.1 ha with rfl | ha
    · exact ⟨5, rfl, by decide, by decide⟩
    · obtain rfl := List.mem_singleton.1 ha
      exact ⟨5, rfl, by decide, by decide⟩

/-- a valid state that the contract refuses -/
theorem bigNonce_refused :
    Sample.bigNonce.validate Sample.chain9001.crypto = .ok () ∧
      Sample.bigNonce.chainId = some (Sample.chain9001.chainId.toNat : Int) ∧
      decodeFixedPart Sample.bigNonce.fixedPart = .error (.err (.new "execution reverted")) :=
  ⟨by decide +kernel, by decide, by decide⟩

end Nitro
