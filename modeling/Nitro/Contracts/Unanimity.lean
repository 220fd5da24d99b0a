import Nitro.Contracts.ClaimedSigners
import Nitro.Contracts.Support

/-!
# A single state that everybody signed

`ConsensusApp` hands a single state to the general check of turn taking.  The masks then say that
everybody signed, and the order check says nothing more: nobody's position in the round comes after the
last one.  But that position is computed with the turn after the state's, in 48 bits.

* `getClaimedSignersNum_full`, `getClaimedSignersIndices_full`   the helpers on the mask of everybody;
* `requireValidTurnTaking_single`   what the general check asks of a single state;
* `unanimous_supported_iff`         the application accepts what everybody signed, and nothing else, but
                                    for the last turn number of a channel with an odd factor.
-/

set_option linter.unusedSectionVars false

namespace Nitro.Contracts
open Evm RoundRobin

/-! ## the mask of everybody -/

theorem full_lt {n : Nat} (hn : n ≤ 255) : (BitVec.ofNat 256 (2 ^ n) - 1 : Word).toNat < 2 ^ 255 := by
  rw [ShortcuttingTurnTaking.toNat_full hn]
  exact Nat.sub_one_lt_of_le (Nat.two_pow_pos n) (Nat.pow_le_pow_right (by omega) hn)

theorem ones_full {n : Nat} (hn : n ≤ 255) :
    Bits.ones 255 (BitVec.ofNat 256 (2 ^ n) - 1 : Word).toNat = List.range n := by
  rw [ShortcuttingTurnTaking.toNat_full hn, Bits.ones_two_pow_sub_one hn]

theorem getClaimedSignersNum_full {n : Nat} (hn : n ≤ 255) :
    getClaimedSignersNum (BitVec.ofNat 256 (2 ^ n) - 1) = .ok (UInt8.ofNat n) := by
  rw [getClaimedSignersNum_eq (full_lt hn), ones_full hn, List.length_range]

theorem getClaimedSignersIndices_full {n : Nat} (hn : n ≤ 255) :
    getClaimedSignersIndices (BitVec.ofNat 256 (2 ^ n) - 1) =
      .ok ((List.range n).map UInt8.ofNat) := by
  rw [getClaimedSignersIndices_eq (full_lt hn), ones_full hn]

/-! ## a single state -/

theorem isSignedBy_iff {D : Deployment} {stateHash : Bytes32} {sig : Signature} {signer : Address} :
    isSignedBy D stateHash sig signer = .ok true ↔ recoverSigner D stateHash sig = .ok signer := by
  unfold isSignedBy
  rw [bind_eq_ok]
  constructor
  · rintro ⟨a, ha, h⟩
    have hsame : signer = a := of_decide_eq_true (Except.ok.inj h)
    rw [ha, hsame]
  · intro h
    exact ⟨signer, h, congrArg Except.ok (decide_eq_true rfl)⟩

namespace ShortcuttingTurnTaking
variable {D : Deployment} {fixedPart : FixedPart} {part : SignedVariablePart}
  {parts : List SignedVariablePart} {n : Nat}

theorem requireValidInput_single (hpos : 1 ≤ n) (hn : n ≤ 255) :
    requireValidInput n [part] = .ok () ↔
      n ≤ part.variablePart.turnNum.toNat + 1 ∧ part.signedBy = BitVec.ofNat 256 (2 ^ n) - 1 := by
  have hsum : (part.variablePart.turnNum.setWidth 256 + 1 : Word).toNat =
      part.variablePart.turnNum.toNat + 1 := by
    have hlt := part.variablePart.turnNum.isLt
    rw [setWidth_turnNum, BitVec.toNat_add, BitVec.toNat_ofNat,
      Nat.mod_eq_of_lt (show part.variablePart.turnNum.toNat < 2 ^ 256 by omega)]
    show (part.variablePart.turnNum.toNat + 1) % 2 ^ 256 = _
    exact Nat.mod_eq_of_lt (by omega)
  -- the first and the last state are the same one, and its mask is the union
  show (require (1 ≤ n ∧ 0 < 1) _ >>= fun _ =>
    require (n ≤ (part.variablePart.turnNum.setWidth 256 + 1 : Word).toNat) _ >>= fun _ =>
    require (n ≤ 255) _ >>= fun _ =>
    require ((part.variablePart.turnNum.setWidth 256 -
      part.variablePart.turnNum.setWidth 256 : Word).toNat ≤ n) _ >>= fun _ =>
    (require (0 &&& part.signedBy = 0) _ >>= fun _ => .ok (0 ||| part.signedBy)) >>= fun signed =>
    require (signed = BitVec.ofNat 256 (2 ^ n) - 1) _) = .ok () ↔ _
  rw [require_bind_eq_ok, require_bind_eq_ok, require_bind_eq_ok, require_bind_eq_ok, bind_eq_ok,
    hsum, BitVec.sub_self]
  simp only [require_bind_eq_ok, require_eq_ok]
  simp [hpos, hn]

/-- the shift of a support proof; the turn after the last one is taken in 48 bits -/
theorem checkedMod_next (turnNum : BitVec 48) (hpos : 1 ≤ n) (hn : n ≤ 255) :
    checkedMod ((turnNum + 1).setWidth 256) (BitVec.ofNat 256 n) =
      .ok (BitVec.ofNat 256 ((turnNum.toNat + 1) % 2 ^ 48 % n)) := by
  have hword : (BitVec.ofNat 256 n).toNat = n := by
    rw [BitVec.toNat_ofNat, Nat.mod_eq_of_lt (by omega)]
  have hne : BitVec.ofNat 256 n ≠ 0 := by
    intro hzero
    rw [hzero] at hword
    have hword : 0 = n := hword
    omega
  rw [checkedMod_of_ne hne]
  congr 1
  apply BitVec.eq_of_toNat_eq
  have hlt : (turnNum.toNat + 1) % 2 ^ 48 < 2 ^ 256 := by omega
  have hmod : (turnNum.toNat + 1) % 2 ^ 48 % n < 2 ^ 256 :=
    Nat.lt_of_le_of_lt (Nat.mod_le _ _) hlt
  rw [BitVec.toNat_umod, hword, BitVec.toNat_setWidth, BitVec.toNat_add, BitVec.toNat_ofNat,
    Nat.mod_eq_of_lt hmod]
  show (turnNum.toNat + 1) % 2 ^ 48 % 2 ^ 256 % n = _
  rw [Nat.mod_eq_of_lt hlt]

/-- when everybody signs, the order of the signers asks that the shift be that of the next turn -/
theorem requireAcceptableSigsOrder_full {turnNum : BitVec 48} {shift : Nat} (hn : n ≤ 255)
    (hshift : shift < n) (hturn : shift ≤ turnNum.toNat) :
    requireAcceptableSigsOrder (BitVec.ofNat 256 (2 ^ n) - 1) turnNum (BitVec.ofNat 256 shift)
      (BitVec.ofNat 256 n) = .ok () ↔ (turnNum.toNat + 1) % n = shift := by
  unfold requireAcceptableSigsOrder
  rw [getClaimedSignersIndices_full hn]
  show requireOrder turnNum _ _ _ = .ok () ↔ _
  rw [requireOrder_iff hn hshift hturn, ← everybody_ranked_iff hshift hturn]
  have hnat : ∀ p < n, (UInt8.ofNat p).toNat = p := by
    intro p hp
    apply UInt8.toNat_ofNat_of_lt'
    show p < 256
    omega
  constructor
  · intro h p hp
    have hle := h (UInt8.ofNat p) (List.mem_map.2 ⟨p, List.mem_range.2 hp, rfl⟩)
    rwa [hnat p hp] at hle
  · intro h signer hmem
    obtain ⟨p, hp, rfl⟩ := List.mem_map.1 hmem
    rw [hnat p (List.mem_range.1 hp)]
    exact h p (List.mem_range.1 hp)

theorem requireSigners_full (hn : n ≤ 255) :
    requireSigners D fixedPart part ((List.range n).map UInt8.ofNat).zipIdx = .ok () ↔
      ∀ i < n, SignatureOf D fixedPart part i i := by
  rw [requireSigners_iff]
  have hmem : ∀ (signer : UInt8) (i : Nat),
      (signer, i) ∈ ((List.range n).map UInt8.ofNat).zipIdx ↔ i < n ∧ signer.toNat = i := by
    intro signer i
    rw [List.mk_mem_zipIdx_iff_getElem?, List.getElem?_map]
    rcases Nat.lt_or_ge i n with hi | hi
    · rw [List.getElem?_range hi, Option.map_some, Option.some_inj, ← UInt8.toNat_inj,
        UInt8.toNat_ofNat_of_lt' (show i < 256 by omega), eq_comm]
      exact ⟨fun h => ⟨hi, h⟩, fun h => h.2⟩
    · rw [List.getElem?_eq_none (by simpa using hi)]
      simp [Nat.not_lt.2 hi]
  constructor
  · intro h i hi
    have hnat : (UInt8.ofNat i).toNat = i := UInt8.toNat_ofNat_of_lt' (by
      show i < 256
      omega)
    have hsigned := h _ ((hmem (UInt8.ofNat i) i).2 ⟨hi, hnat⟩)
    rwa [hnat] at hsigned
  · rintro h ⟨signer, i⟩ hx
    obtain ⟨hi, hsigner⟩ := (hmem signer i).1 hx
    have hsigned := h i hi
    show SignatureOf D fixedPart part signer.toNat i
    rwa [hsigner]

theorem requireValidSignatures_full {shift : Nat} (hn : fixedPart.participants.length ≤ 255)
    (hshift : shift < fixedPart.participants.length)
    (hturn : shift ≤ part.variablePart.turnNum.toNat)
    (hmask : part.signedBy = BitVec.ofNat 256 (2 ^ fixedPart.participants.length) - 1) :
    requireValidSignatures D fixedPart part (BitVec.ofNat 256 shift) = .ok () ↔
      part.sigs.length = fixedPart.participants.length ∧
        (part.variablePart.turnNum.toNat + 1) % fixedPart.participants.length = shift ∧
        ∀ i < fixedPart.participants.length, SignatureOf D fixedPart part i i := by
  unfold requireValidSignatures
  rw [hmask, getClaimedSignersNum_full hn, getClaimedSignersIndices_full hn]
  show (require (0 < part.sigs.length) _ >>= fun _ =>
    require (part.sigs.length = (UInt8.ofNat fixedPart.participants.length).toNat) _ >>= fun _ =>
    requireAcceptableSigsOrder _ _ _ _ >>= fun _ =>
    requireSigners D fixedPart part _) = .ok () ↔ _
  rw [require_bind_eq_ok, require_bind_eq_ok, bind_eq_ok,
    UInt8.toNat_ofNat_of_lt' (show fixedPart.participants.length < 256 by omega)]
  constructor
  · rintro ⟨-, hlength, ⟨⟩, horder, hsigners⟩
    exact ⟨hlength, (requireAcceptableSigsOrder_full hn hshift hturn).1 horder,
      (requireSigners_full hn).1 hsigners⟩
  · rintro ⟨hlength, horder, hsigners⟩
    exact ⟨by omega, hlength, (), (requireAcceptableSigsOrder_full hn hshift hturn).2 horder,
      (requireSigners_full hn).2 hsigners⟩

end ShortcuttingTurnTaking

namespace ConsensusApp
open ShortcuttingTurnTaking
variable {D : Deployment} {fixedPart : FixedPart} {part : SignedVariablePart}
  {parts : List SignedVariablePart}

/-- **everybody signed the state**, in the order of the participants -/
structure Unanimous (D : Deployment) (fixedPart : FixedPart) (part : SignedVariablePart) : Prop where
  enough : fixedPart.participants.length ≤ part.variablePart.turnNum.toNat + 1
  signedBy : part.signedBy.toNat = 2 ^ fixedPart.participants.length - 1
  count : part.sigs.length = fixedPart.participants.length
  signed : ∀ i < fixedPart.participants.length, ∃ channelId sig participant,
    getChannelId D fixedPart = .ok channelId ∧ part.sigs[i]? = some sig ∧
      fixedPart.participants[i]? = some participant ∧
      recoverSigner D (hashState D channelId part.variablePart.appData part.variablePart.outcome
        part.variablePart.turnNum part.variablePart.isFinal) sig = .ok participant

theorem unanimous_iff (hn : fixedPart.participants.length ≤ 255) :
    Unanimous D fixedPart part ↔
      (fixedPart.participants.length ≤ part.variablePart.turnNum.toNat + 1 ∧
        part.signedBy = BitVec.ofNat 256 (2 ^ fixedPart.participants.length) - 1) ∧
      part.sigs.length = fixedPart.participants.length ∧
      ∀ i < fixedPart.participants.length, SignatureOf D fixedPart part i i := by
  simp only [SignatureOf, isSignedBy_iff, ← BitVec.toNat_inj, toNat_full hn]
  exact ⟨fun h => ⟨⟨h.enough, h.signedBy⟩, h.count, h.signed⟩,
    fun h => ⟨h.1.1, h.1.2, h.2.1, h.2.2⟩⟩

theorem next_mod_iff {t n : Nat} (ht : t < 2 ^ 48) :
    (t + 1) % n = (t + 1) % 2 ^ 48 % n ↔ (t = 2 ^ 48 - 1 → n ∣ 2 ^ 48) := by
  rcases Nat.lt_or_ge (t + 1) (2 ^ 48) with hlt | hge
  · rw [Nat.mod_eq_of_lt hlt]
    exact ⟨fun _ h => by omega, fun _ => rfl⟩
  · have hlast : t + 1 = 2 ^ 48 := by omega
    rw [hlast, Nat.mod_self, Nat.zero_mod, ← Nat.dvd_iff_mod_eq_zero]
    exact ⟨fun h _ => h, fun h => h (by omega)⟩

theorem requireValidTurnTaking_single (hpos : 1 ≤ fixedPart.participants.length)
    (hn : fixedPart.participants.length ≤ 255) :
    requireValidTurnTaking D fixedPart [part] = .ok () ↔
      Unanimous D fixedPart part ∧
        (part.variablePart.turnNum.toNat = 2 ^ 48 - 1 →
          fixedPart.participants.length ∣ 2 ^ 48) := by
  have hturn := part.variablePart.turnNum.isLt
  show (requireValidInput _ [part] >>= fun _ => checkedMod _ _ >>= fun shift =>
    requireValidSignatures D fixedPart part shift >>= fun _ => .ok ()) = .ok () ↔ _
  rw [checkedMod_next part.variablePart.turnNum hpos hn, unanimous_iff hn, ← next_mod_iff hturn,
    bind_eq_ok]
  have hshift : (part.variablePart.turnNum.toNat + 1) % 2 ^ 48 % fixedPart.participants.length <
      fixedPart.participants.length := Nat.mod_lt _ (by omega)
  have hle : fixedPart.participants.length ≤ part.variablePart.turnNum.toNat + 1 →
      (part.variablePart.turnNum.toNat + 1) % 2 ^ 48 % fixedPart.participants.length ≤
        part.variablePart.turnNum.toNat := by omega
  constructor
  · rintro ⟨⟨⟩, hinput, h⟩
    obtain ⟨shift, hnext, h⟩ := bind_eq_ok.1 h
    obtain rfl := Except.ok.inj hnext
    obtain ⟨⟨⟩, hsigned, -⟩ := bind_eq_ok.1 h
    have hinput := (requireValidInput_single hpos hn).1 hinput
    obtain ⟨hlength, horder, hsigners⟩ :=
      (requireValidSignatures_full hn hshift (hle hinput.1) hinput.2).1 hsigned
    exact ⟨⟨hinput, hlength, hsigners⟩, horder⟩
  · rintro ⟨⟨hinput, hlength, hsigners⟩, horder⟩
    refine ⟨(), (requireValidInput_single hpos hn).2 hinput,
      bind_eq_ok.2 ⟨_, rfl, bind_eq_ok.2 ⟨(), ?_, rfl⟩⟩⟩
    exact (requireValidSignatures_full hn hshift (hle hinput.1) hinput.2).2
      ⟨hlength, horder, hsigners⟩

/-- **the application accepts the single states that everybody signed**, and no other arrays, unless
the turn after such a state wraps and the number of participants is no power of two -/
theorem unanimous_supported_iff (hpos : 1 ≤ fixedPart.participants.length)
    (hn : fixedPart.participants.length ≤ 255) :
    ((∃ v, latestSupportedState D fixedPart parts = .ok v) ↔
        ∃ part, parts = [part] ∧ Unanimous D fixedPart part) ↔
      ∀ part, parts = [part] → Unanimous D fixedPart part →
        part.variablePart.turnNum.toNat = 2 ^ 48 - 1 → fixedPart.participants.length ∣ 2 ^ 48 := by
  have hok : (∃ v, latestSupportedState D fixedPart parts = .ok v) ↔
      ∃ part, parts = [part] ∧ requireValidTurnTaking D fixedPart [part] = .ok () := by
    unfold latestSupportedState
    constructor
    · rintro ⟨v, h⟩
      obtain ⟨hone, h⟩ := require_bind_eq_ok.1 h
      obtain ⟨part, rfl⟩ := List.length_eq_one_iff.1 hone
      obtain ⟨⟨⟩, hvalid, -⟩ := bind_eq_ok.1 h
      exact ⟨part, rfl, hvalid⟩
    · rintro ⟨part, rfl, hvalid⟩
      exact ⟨part.variablePart, require_bind_eq_ok.2 ⟨rfl, bind_eq_ok.2 ⟨(), hvalid, rfl⟩⟩⟩
  rw [hok]
  simp only [requireValidTurnTaking_single hpos hn]
  constructor
  · rintro h part rfl hall
    obtain ⟨part', hsame, -, hdvd⟩ := h.2 ⟨part, rfl, hall⟩
    rw [List.cons.inj hsame |>.1]
    exact hdvd
  · intro h
    constructor
    · rintro ⟨part, hsame, hall, -⟩
      exact ⟨part, hsame, hall⟩
    · rintro ⟨part, hsame, hall⟩
      exact ⟨part, hsame, hall, h part hsame hall⟩

end ConsensusApp

namespace Sample

/-- a channel of three participants -/
def trio : FixedPart := { fixedPart with participants := [1, 2, 3] }

/-- a state that the three signed -/
def signedByTrio (turnNum : BitVec 48) : SignedVariablePart :=
  let p : VariablePart := ⟨[⟨0, [], [⟨1, 5, 0, []⟩, ⟨2, 5, 0, []⟩]⟩], [], turnNum, false⟩
  let id := (getChannelId deployment trio).toOption.getD 0
  let h := hashState deployment id p.appData p.outcome p.turnNum p.isFinal
  ⟨p, [sign h 1, sign h 2, sign h 3], 7⟩

end Sample

namespace ConsensusApp
open ShortcuttingTurnTaking Contracts.Sample

/-- a channel of three accepts the state of turn two that all of them signed, and no other array -/
theorem unanimous_supported_trio :
    trio.participants.length = 3 ∧
      ((∃ v, latestSupportedState deployment trio [signedByTrio 2] = .ok v) ↔
        ∃ part, [signedByTrio 2] = [part] ∧ Unanimous deployment trio part) := by
  refine ⟨rfl, (unanimous_supported_iff (by decide) (by decide)).2 ?_⟩
  intro part hpart hall hlast
  rw [← (List.cons.inj hpart).1] at hlast
  have hlast : (2 : Nat) = 2 ^ 48 - 1 := hlast
  omega

/-- the last turn number: all three signed, and the state is refused -/
theorem unanimous_refused :
    Unanimous deployment trio (signedByTrio (2 ^ 48 - 1)) ∧
      latestSupportedState deployment trio [signedByTrio (2 ^ 48 - 1)] =
        .error "Unacceptable sigs order" := by
  have hsigners : requireSigners deployment trio (signedByTrio (2 ^ 48 - 1))
      ((List.range 3).map UInt8.ofNat).zipIdx = .ok () := by decide +kernel
  have hsigned := (requireSigners_full (show 3 ≤ 255 by decide)).1 hsigners
  refine ⟨(unanimous_iff (by decide)).2 ⟨⟨by decide, by decide⟩, rfl, hsigned⟩, ?_⟩
  decide +kernel

end ConsensusApp

end Nitro.Contracts
