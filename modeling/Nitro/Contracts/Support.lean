import Nitro.Contracts.NitroAdjudicator
import Nitro.Lib.RoundRobin

/-!
# What shortcutting turn taking guarantees

A support proof that `requireValidTurnTaking` accepts has, for every participant, exactly one state
that they are said to have signed, and the signature is checked.  The order check compares positions
in the last round robin; it is right for states within that round.  But the window also lets in the
turn just before the round, and the turn after the last one is computed in 48 bits.

* `mem_signersIndices`       every bit of a mask is listed;
* `Accepted`                 what the checks establish, as one structure (`accepted_of_ok`);
* `ValidlySigned`            a state of the proof with a good signature of a participant;
* `support_sound_iff`        when every participant signed the state of their turn or a later one.
-/

set_option linter.unusedSectionVars false

namespace Nitro.Contracts
open Evm RoundRobin

/-! ## the bits of a mask -/

theorem mem_claimedSignersIndices {size : UInt8} {rounds : Nat} {mask : Word} {j : Nat}
    {accepted r : List UInt8}
    (h : claimedSignersIndices size rounds (mask >>> j) (UInt8.ofNat j) accepted = .ok r) :
    (∀ x ∈ accepted, x ∈ r) ∧ ∀ p, j ≤ p → mask.getLsbD p = true → UInt8.ofNat p ∈ r := by
  induction rounds generalizing j accepted with
  | zero => cases h
  | succ rounds ih =>
    have hshift : mask >>> j >>> 1 = mask >>> (j + 1) := by rw [BitVec.shiftRight_add]
    have hnum : UInt8.ofNat j + 1 = UInt8.ofNat (j + 1) := by simp
    unfold claimedSignersIndices at h
    rw [hshift, hnum] at h
    split at h
    · next hzero =>
      cases h
      refine ⟨fun x hx => List.mem_append_left _ hx, fun p hp hset => ?_⟩
      have hp' : (mask >>> j).getLsbD (p - j) = true := by
        rw [BitVec.getLsbD_ushiftRight, Nat.add_sub_cancel' hp]
        exact hset
      rw [hzero] at hp'
      simp at hp'
    · split at h
      · split at h
        · obtain ⟨hkeep, hrest⟩ := ih h
          refine ⟨fun x hx => hkeep x (List.mem_append_left _ hx), fun p hp hset => ?_⟩
          rcases Nat.eq_or_lt_of_le hp with rfl | hlt
          · exact hkeep _ (List.mem_append_right _ (List.mem_singleton_self _))
          · exact hrest p hlt hset
        · cases h
      · next hodd =>
        obtain ⟨hkeep, hrest⟩ := ih h
        refine ⟨hkeep, fun p hp hset => ?_⟩
        rcases Nat.eq_or_lt_of_le hp with rfl | hlt
        · have hbit : (mask >>> j).toNat.testBit 0 = true := by
            rw [BitVec.testBit_toNat, BitVec.getLsbD_ushiftRight]
            exact hset
          rw [Nat.testBit_zero, decide_eq_true_eq] at hbit
          refine absurd (BitVec.eq_of_toNat_eq ?_) hodd
          rw [BitVec.toNat_umod]
          exact hbit
        · exact hrest p hlt hset

theorem mem_signersIndices {mask : Word} {r : List UInt8}
    (h : getClaimedSignersIndices mask = .ok r) {p : Nat} (hset : mask.getLsbD p = true) :
    UInt8.ofNat p ∈ r := by
  obtain ⟨size, -, hloop⟩ := bind_eq_ok.1 h
  have hstart : mask >>> 0 = mask := BitVec.ushiftRight_zero mask
  rw [← hstart] at hloop
  exact (mem_claimedSignersIndices (j := 0) hloop).2 p (Nat.zero_le p) hset

theorem exists_bit {mask : Word} {num : UInt8} (h : getClaimedSignersNum mask = .ok num)
    (hnum : 0 < num.toNat) : ∃ p, mask.getLsbD p = true := by
  by_contra hnone
  have hzero : mask = 0#256 := by
    apply BitVec.eq_of_getLsbD_eq
    intro p _
    rw [BitVec.getLsbD_zero]
    cases hp : mask.getLsbD p with
    | true => exact absurd ⟨p, hp⟩ hnone
    | false => rfl
  subst hzero
  cases h
  exact absurd hnum (by decide)

namespace ShortcuttingTurnTaking
variable {D : Deployment} {fixedPart : FixedPart} {parts : List SignedVariablePart}
  {part part' first last : SignedVariablePart}

/-- no bit of both masks -/
def Apart (a b : SignedVariablePart) : Prop :=
  ∀ p, a.signedBy.getLsbD p = true → b.signedBy.getLsbD p = true → False

instance : Std.Symm Apart := ⟨fun _ _ h p ha hb => h p hb ha⟩

theorem signedSoFar_ok {signed union : Word} (h : signedSoFar parts signed = .ok union) :
    (∀ p, union.getLsbD p = true ↔
        signed.getLsbD p = true ∨ ∃ part ∈ parts, part.signedBy.getLsbD p = true) ∧
      (∀ part ∈ parts, ∀ p, signed.getLsbD p = true → part.signedBy.getLsbD p = false) ∧
      parts.Pairwise Apart := by
  induction parts generalizing signed with
  | nil =>
    cases h
    simp
  | cons part parts ih =>
    obtain ⟨hzero, hrest⟩ := require_bind_eq_ok.1 h
    obtain ⟨hunion, hsigned, hpair⟩ := ih hrest
    have hpart : ∀ p, signed.getLsbD p = true → part.signedBy.getLsbD p = false := by
      intro p hp
      have hand : (signed &&& part.signedBy).getLsbD p = false := by
        rw [hzero]
        exact BitVec.getLsbD_zero
      rwa [BitVec.getLsbD_and, hp, Bool.true_and] at hand
    refine ⟨fun p => ?_, ?_, List.pairwise_cons.2 ⟨fun later hlater p hp hp' => ?_, hpair⟩⟩
    · rw [hunion p, BitVec.getLsbD_or, Bool.or_eq_true, or_assoc]
      simp
    · intro other hother p hp
      rcases List.mem_cons.1 hother with rfl | hlater
      · exact hpart p hp
      · exact hsigned other hlater p (by rw [BitVec.getLsbD_or, hp, Bool.true_or])
    · have := hsigned later hlater p (by rw [BitVec.getLsbD_or, hp, Bool.or_true])
      rw [this] at hp'
      cases hp'

/-! ## the loops over the signers and over the states -/

theorem toNat_sub_umod {a shift n : Nat} (hle : shift ≤ a) (ha : a < 2 ^ 256) (hn : n < 2 ^ 256) :
    ((BitVec.ofNat 256 a - BitVec.ofNat 256 shift) % BitVec.ofNat 256 n).toNat =
      (a - shift) % n := by
  have hshift : shift < 2 ^ 256 := by omega
  have hsub : BitVec.ofNat 256 shift ≤ BitVec.ofNat 256 a := by
    rw [BitVec.le_def, BitVec.toNat_ofNat, BitVec.toNat_ofNat, Nat.mod_eq_of_lt ha,
      Nat.mod_eq_of_lt hshift]
    exact hle
  rw [BitVec.toNat_umod, BitVec.toNat_sub_of_le hsub, BitVec.toNat_ofNat, BitVec.toNat_ofNat,
    BitVec.toNat_ofNat, Nat.mod_eq_of_lt ha, Nat.mod_eq_of_lt hshift, Nat.mod_eq_of_lt hn]

theorem setWidth_turnNum (turnNum : BitVec 48) :
    turnNum.setWidth 256 = BitVec.ofNat 256 turnNum.toNat := by
  apply BitVec.eq_of_toNat_eq
  rw [BitVec.toNat_setWidth, BitVec.toNat_ofNat]

theorem requireOrder_iff {turnNum : BitVec 48} {shift n : Nat} {signers : List UInt8}
    (hn : n ≤ 255) (hshift : shift < n) (hturn : shift ≤ turnNum.toNat) :
    requireOrder turnNum (BitVec.ofNat 256 shift) (BitVec.ofNat 256 n) signers = .ok () ↔
      ∀ signer ∈ signers, (signer.toNat + n - shift) % n ≤ (turnNum.toNat - shift) % n := by
  induction signers with
  | nil => simp [requireOrder]
  | cons head signers ih =>
    have hhead : head.toNat < 256 := head.toNat_lt
    have hturnNum : turnNum.toNat < 2 ^ 48 := turnNum.isLt
    have hpos : BitVec.ofNat 256 n ≠ 0 := by
      intro hzero
      have hnat := congrArg BitVec.toNat hzero
      rw [BitVec.toNat_ofNat, Nat.mod_eq_of_lt (by omega)] at hnat
      have hn0 : n = 0 := hnat
      omega
    have hle : (BitVec.ofNat 256 head.toNat + BitVec.ofNat 256 n - BitVec.ofNat 256 shift) %
          BitVec.ofNat 256 n ≤
        (turnNum.setWidth 256 - BitVec.ofNat 256 shift) % BitVec.ofNat 256 n ↔
        (head.toNat + n - shift) % n ≤ (turnNum.toNat - shift) % n := by
      rw [setWidth_turnNum, ← BitVec.ofNat_add, BitVec.le_def,
        toNat_sub_umod (by omega) (by omega) (by omega),
        toNat_sub_umod hturn (by omega) (by omega)]
    unfold requireOrder
    rw [checkedMod_of_ne hpos, checkedMod_of_ne hpos]
    show (require _ _ >>= fun _ => requireOrder turnNum _ _ signers) = .ok () ↔ _
    rw [require_bind_eq_ok, hle, ih, List.forall_mem_cons]

structure ValidlySigned (D : Deployment) (fixedPart : FixedPart) (part : SignedVariablePart)
    (p : Nat) : Prop where
  claimed : part.signedBy.getLsbD p = true
  signed : ∃ sig ∈ part.sigs, ∃ channelId participant,
    getChannelId D fixedPart = .ok channelId ∧ fixedPart.participants[p]? = some participant ∧
      isSignedBy D (hashState D channelId part.variablePart.appData part.variablePart.outcome
        part.variablePart.turnNum part.variablePart.isFinal) sig participant = .ok true

/-- the `i`-th signature of the state is that of the participant at `signer` -/
def SignatureOf (D : Deployment) (fixedPart : FixedPart) (part : SignedVariablePart)
    (signer i : Nat) : Prop :=
  ∃ channelId sig participant, getChannelId D fixedPart = .ok channelId ∧
    part.sigs[i]? = some sig ∧ fixedPart.participants[signer]? = some participant ∧
      isSignedBy D (hashState D channelId part.variablePart.appData part.variablePart.outcome
        part.variablePart.turnNum part.variablePart.isFinal) sig participant = .ok true

theorem requireSigners_iff {signers : List (UInt8 × Nat)} :
    requireSigners D fixedPart part signers = .ok () ↔
      ∀ x ∈ signers, SignatureOf D fixedPart part x.1.toNat x.2 := by
  induction signers with
  | nil => simp [requireSigners]
  | cons head signers ih =>
    rw [List.forall_mem_cons]
    unfold requireSigners
    constructor
    · intro h
      obtain ⟨channelId, hid, h⟩ := bind_eq_ok.1 h
      obtain ⟨sig, hsig, h⟩ := bind_eq_ok.1 h
      obtain ⟨participant, hparticipant, h⟩ := bind_eq_ok.1 h
      obtain ⟨signed, hsigned, h⟩ := bind_eq_ok.1 h
      obtain ⟨rfl, hrest⟩ := require_bind_eq_ok.1 h
      exact ⟨⟨channelId, sig, participant, hid, index_eq_ok.1 hsig, index_eq_ok.1 hparticipant,
        hsigned⟩, ih.1 hrest⟩
    · rintro ⟨⟨channelId, sig, participant, hid, hsig, hparticipant, hsigned⟩, hrest⟩
      refine bind_eq_ok.2 ⟨channelId, hid, bind_eq_ok.2 ⟨sig, index_eq_ok.2 hsig, ?_⟩⟩
      refine bind_eq_ok.2 ⟨participant, index_eq_ok.2 hparticipant, ?_⟩
      exact bind_eq_ok.2 ⟨true, hsigned, require_bind_eq_ok.2 ⟨rfl, ih.2 hrest⟩⟩

theorem SignatureOf.validlySigned {p i : Nat} (h : SignatureOf D fixedPart part p i)
    (hclaimed : part.signedBy.getLsbD p = true) : ValidlySigned D fixedPart part p := by
  obtain ⟨channelId, sig, participant, hid, hsig, hparticipant, hsigned⟩ := h
  exact ⟨hclaimed, sig, List.mem_of_getElem? hsig, channelId, participant, hid, hparticipant,
    hsigned⟩

theorem requireValidSignatures_ok {shift : Nat} (hn : fixedPart.participants.length ≤ 255)
    (hshift : shift < fixedPart.participants.length)
    (h : requireValidSignatures D fixedPart part (BitVec.ofNat 256 shift) = .ok ()) :
    (∃ p, part.signedBy.getLsbD p = true) ∧
      ∀ p, part.signedBy.getLsbD p = true → ValidlySigned D fixedPart part p ∧
        (shift ≤ part.variablePart.turnNum.toNat →
          (p + fixedPart.participants.length - shift) % fixedPart.participants.length ≤
            (part.variablePart.turnNum.toNat - shift) % fixedPart.participants.length) := by
  obtain ⟨hsome, h⟩ := require_bind_eq_ok.1 h
  obtain ⟨num, hnum, h⟩ := bind_eq_ok.1 h
  obtain ⟨hlength, h⟩ := require_bind_eq_ok.1 h
  obtain ⟨⟨⟩, horder, h⟩ := bind_eq_ok.1 h
  obtain ⟨signers, hsigners, h⟩ := bind_eq_ok.1 h
  obtain ⟨signers', hsigners', horder⟩ := bind_eq_ok.1 horder
  refine ⟨exists_bit hnum (hlength ▸ hsome), fun p hp => ?_⟩
  have hlt : p < 256 := BitVec.lt_of_getLsbD hp
  constructor
  · obtain ⟨i, hi⟩ := List.mem_iff_getElem?.1 (mem_signersIndices hsigners hp)
    have hmem : (UInt8.ofNat p, i) ∈ signers.zipIdx := List.mk_mem_zipIdx_iff_getElem?.2 hi
    have hsigned := requireSigners_iff.1 h _ hmem
    rw [UInt8.toNat_ofNat_of_lt' hlt] at hsigned
    exact hsigned.validlySigned hp
  · intro hturn
    have hmem := mem_signersIndices hsigners' hp
    have hle := (requireOrder_iff hn hshift hturn).1 horder _ hmem
    rwa [UInt8.toNat_ofNat_of_lt' hlt] at hle

theorem requireParts_ok {shift : Word} {prev : Option (BitVec 48)}
    (h : requireParts D fixedPart shift prev parts = .ok ()) :
    (∀ part ∈ parts, requireValidSignatures D fixedPart part shift = .ok () ∧
        ∀ turnNum ∈ prev, turnNum < part.variablePart.turnNum) ∧
      parts.Pairwise (fun a b => a.variablePart.turnNum < b.variablePart.turnNum) := by
  induction parts generalizing prev with
  | nil => simp
  | cons head parts ih =>
    obtain ⟨⟨⟩, hvalid, h⟩ := bind_eq_ok.1 h
    obtain ⟨hhead, h⟩ : (∀ turnNum ∈ prev, turnNum < head.variablePart.turnNum) ∧
        requireParts D fixedPart shift (some head.variablePart.turnNum) parts = .ok () := by
      cases prev with
      | none => exact ⟨fun _ hmem => (nomatch hmem), h⟩
      | some turnNum =>
        obtain ⟨hlt, h⟩ := require_bind_eq_ok.1 h
        exact ⟨fun _ hmem => Option.some.inj hmem ▸ hlt, h⟩
    obtain ⟨hall, hpair⟩ := ih h
    have hlater : ∀ part ∈ parts, head.variablePart.turnNum < part.variablePart.turnNum := by
      intro part hpart
      exact (hall part hpart).2 _ rfl
    refine ⟨fun part hmem => ?_, List.pairwise_cons.2 ⟨hlater, hpair⟩⟩
    rcases List.mem_cons.1 hmem with rfl | hpart
    · exact ⟨hvalid, hhead⟩
    · refine ⟨(hall part hpart).1, fun turnNum hprev => ?_⟩
      exact BitVec.lt_trans (hhead turnNum hprev) (hlater part hpart)

/-! ## a whole support proof -/

structure Accepted (D : Deployment) (fixedPart : FixedPart) (parts : List SignedVariablePart)
    (n first L : Nat) : Prop where
  pos : 0 < n
  enough : n ≤ L + 1
  signed : ∀ p < n, ∃ part ∈ parts, ValidlySigned D fixedPart part p
  once : ∀ part ∈ parts, ∀ part' ∈ parts, ∀ p, part.signedBy.getLsbD p = true →
    part'.signedBy.getLsbD p = true → part = part'
  signer : ∀ part ∈ parts, ∃ p < n, part.signedBy.getLsbD p = true
  turns : ∀ part ∈ parts, first ≤ part.variablePart.turnNum.toNat ∧
    part.variablePart.turnNum.toNat ≤ L
  ordered : L + 1 < 2 ^ 48 → ∀ part ∈ parts, ∀ p, part.signedBy.getLsbD p = true →
    (L + 1) % n ≤ part.variablePart.turnNum.toNat →
      (p + n - (L + 1) % n) % n ≤ (part.variablePart.turnNum.toNat - (L + 1) % n) % n

theorem toNat_full {n : Nat} (hn : n ≤ 255) :
    (BitVec.ofNat 256 (2 ^ n) - 1).toNat = 2 ^ n - 1 := by
  have hpow : 2 ^ n < 2 ^ 256 := Nat.pow_lt_pow_right (by omega) (by omega)
  have hpos : 0 < 2 ^ n := Nat.two_pow_pos n
  have hsub : (1 : Word) ≤ BitVec.ofNat 256 (2 ^ n) := by
    rw [BitVec.le_def, BitVec.toNat_ofNat, Nat.mod_eq_of_lt hpow]
    exact hpos
  rw [BitVec.toNat_sub_of_le hsub, BitVec.toNat_ofNat, Nat.mod_eq_of_lt hpow]
  rfl

theorem getLsbD_full {n : Nat} (hn : n ≤ 255) (p : Nat) :
    (BitVec.ofNat 256 (2 ^ n) - 1).getLsbD p = true ↔ p < n := by
  rw [← BitVec.testBit_toNat, toNat_full hn, Nat.testBit_two_pow_sub_one, decide_eq_true_eq]

/-- the shift is the remainder of the turn after the last one, unless that turn wraps -/
theorem shift_ok {turnNum : BitVec 48} {n : Nat} {shift : Word} (hn : n ≤ 255)
    (h : checkedMod ((turnNum + 1).setWidth 256) (BitVec.ofNat 256 n) = .ok shift) :
    (0 < n → shift.toNat < n) ∧
      (turnNum.toNat + 1 < 2 ^ 48 → shift.toNat = (turnNum.toNat + 1) % n) := by
  have hword : (BitVec.ofNat 256 n).toNat = n := by
    rw [BitVec.toNat_ofNat, Nat.mod_eq_of_lt (by omega)]
  have hwide : (turnNum + 1).toNat < 2 ^ 256 :=
    Nat.lt_trans (turnNum + 1).isLt (by decide)
  have hshift : shift.toNat = (turnNum + 1).toNat % n := by
    rw [checkedMod_ok h, BitVec.toNat_umod, hword, BitVec.toNat_setWidth, Nat.mod_eq_of_lt hwide]
  refine ⟨fun hpos => ?_, fun hlt => ?_⟩
  · rw [hshift]
    exact Nat.mod_lt _ hpos
  · rw [hshift, BitVec.toNat_add]
    congr 1
    exact Nat.mod_eq_of_lt hlt

theorem turns_between
    (hpair : parts.Pairwise (fun a b => a.variablePart.turnNum < b.variablePart.turnNum))
    (hfirst : parts.head? = some first) (hlast : parts.getLast? = some last)
    (hmem : part ∈ parts) :
    first.variablePart.turnNum.toNat ≤ part.variablePart.turnNum.toNat ∧
      part.variablePart.turnNum.toNat ≤ last.variablePart.turnNum.toNat := by
  constructor
  · obtain ⟨rest, rfl⟩ := List.head?_eq_some_iff.1 hfirst
    rcases List.mem_cons.1 hmem with rfl | hrest
    · exact Nat.le_refl _
    · exact Nat.le_of_lt ((List.pairwise_cons.1 hpair).1 part hrest)
  · obtain ⟨rest, rfl⟩ := List.getLast?_eq_some_iff.1 hlast
    rcases List.mem_append.1 hmem with hrest | hend
    · exact Nat.le_of_lt
        ((List.pairwise_append.1 hpair).2.2 part hrest last (List.mem_singleton_self last))
    · rw [List.mem_singleton.1 hend]

theorem index_last (h : index parts (parts.length - 1) = .ok part)
    (hlast : parts.getLast? = some last) : part = last := by
  rw [List.getLast?_eq_getElem?, index_eq_ok.1 h] at hlast
  exact Option.some.inj hlast

theorem requireValidInput_ok {n : Nat} (h : requireValidInput n parts = .ok ())
    (hlast : parts.getLast? = some last) :
    0 < n ∧ n ≤ 255 ∧ n ≤ last.variablePart.turnNum.toNat + 1 ∧ parts.Pairwise Apart ∧
      ∀ p, (∃ part ∈ parts, part.signedBy.getLsbD p = true) ↔ p < n := by
  obtain ⟨hcount, h⟩ := require_bind_eq_ok.1 h
  obtain ⟨top, htop, h⟩ := bind_eq_ok.1 h
  obtain ⟨henough, h⟩ := require_bind_eq_ok.1 h
  obtain ⟨hmost, h⟩ := require_bind_eq_ok.1 h
  obtain ⟨bottom, -, h⟩ := bind_eq_ok.1 h
  obtain ⟨-, h⟩ := require_bind_eq_ok.1 h
  obtain ⟨union, hunion, h⟩ := bind_eq_ok.1 h
  have hfull : union = BitVec.ofNat 256 (2 ^ n) - 1 := require_eq_ok.1 h
  obtain ⟨hmasks, -, hapart⟩ := signedSoFar_ok hunion
  obtain rfl := index_last htop hlast
  refine ⟨by omega, hmost, Nat.le_trans henough ?_, hapart, fun p => ?_⟩
  · rw [BitVec.toNat_add, BitVec.toNat_setWidth]
    exact Nat.le_trans (Nat.mod_le _ _) (Nat.add_le_add_right (Nat.mod_le _ _) 1)
  · rw [← getLsbD_full hmost p, ← hfull, hmasks p]
    have hzero : ¬ (0 : Word).getLsbD p = true := by simp
    exact (or_iff_right hzero).symm

theorem accepted_of_ok (h : requireValidTurnTaking D fixedPart parts = .ok ())
    (hfirst : parts.head? = some first) (hlast : parts.getLast? = some last) :
    Accepted D fixedPart parts fixedPart.participants.length first.variablePart.turnNum.toNat
      last.variablePart.turnNum.toNat := by
  obtain ⟨top, htop, h⟩ := bind_eq_ok.1 h
  obtain ⟨⟨⟩, hinput, h⟩ := bind_eq_ok.1 h
  obtain ⟨shift, hshift, hparts⟩ := bind_eq_ok.1 h
  obtain rfl := index_last htop hlast
  obtain ⟨hpos, hmost, henough, hapart, hbits⟩ := requireValidInput_ok hinput hlast
  obtain ⟨hvalid, hpair⟩ := requireParts_ok hparts
  obtain ⟨hlt, hexact⟩ := shift_ok hmost hshift
  have hword : shift = BitVec.ofNat 256 shift.toNat := by
    rw [BitVec.ofNat_toNat, BitVec.setWidth_eq]
  rw [hword] at hvalid
  have hstate := fun (part : SignedVariablePart) (hpart : part ∈ parts) =>
    requireValidSignatures_ok hmost (hlt hpos) (hvalid part hpart).1
  refine ⟨hpos, henough, fun p hp => ?_, fun part hpart part' hpart' p hp hp' => ?_,
    fun part hpart => ?_, fun part hpart => turns_between hpair hfirst hlast hpart,
    fun hwrap part hpart p hp => ?_⟩
  · obtain ⟨part, hpart, hset⟩ := (hbits p).2 hp
    exact ⟨part, hpart, ((hstate part hpart).2 p hset).1⟩
  · by_contra hne
    exact hapart.forall hpart hpart' hne p hp hp'
  · obtain ⟨p, hp⟩ := (hstate part hpart).1
    exact ⟨p, (hbits p).1 ⟨part, hpart, hp⟩, hp⟩
  · rw [← hexact hwrap]
    exact ((hstate part hpart).2 p hp).2

/-! ## soundness -/

/-- some state that the participant signed is not before their turn in the last round -/
def SignedInTurn (D : Deployment) (fixedPart : FixedPart) (parts : List SignedVariablePart)
    (n L p : Nat) : Prop :=
  ∃ part ∈ parts, ValidlySigned D fixedPart part p ∧
    ∃ t, IsTurn n L p t ∧ t ≤ part.variablePart.turnNum.toNat

/-- the signers of a state come by its turn, counted from the turn after the last -/
def InOrder (n L : Nat) (part : SignedVariablePart) : Prop :=
  ∀ p < n, part.signedBy.getLsbD p = true →
    (p + n - (L + 1) % n) % n ≤ (part.variablePart.turnNum.toNat - (L + 1) % n) % n

namespace Accepted
variable {n bottom L p : Nat}

/-- a participant is named by one state only, so their turn is by that state's -/
theorem turn_le (h : Accepted D fixedPart parts n bottom L)
    (hsigned : SignedInTurn D fixedPart parts n L p) (hpart : part ∈ parts)
    (hp : part.signedBy.getLsbD p = true) :
    ∃ t, IsTurn n L p t ∧ t ≤ part.variablePart.turnNum.toNat := by
  obtain ⟨part', hpart', hvalid, t, ht, hle⟩ := hsigned
  have hsame : part = part' := h.once part hpart part' hpart' p hp hvalid.claimed
  exact ⟨t, ht, hsame ▸ hle⟩

/-- within the last round, a state's signers are in order exactly when their turns are by its own -/
theorem signedInTurn_of_inOrder (h : Accepted D fixedPart parts n bottom L)
    (hwindow : L < bottom + n) (horder : ∀ part ∈ parts, InOrder n L part) (hp : p < n) :
    SignedInTurn D fixedPart parts n L p := by
  obtain ⟨part, hpart, hvalid⟩ := h.signed p hp
  obtain ⟨t, ht⟩ := exists_isTurn h.enough hp
  have hturns := h.turns part hpart
  have hround : L < part.variablePart.turnNum.toNat + n := by omega
  have hle := horder part hpart p hp hvalid.claimed
  exact ⟨part, hpart, hvalid, t, ht, (rank_le_iff h.enough ht hround hturns.2).1 hle⟩

theorem inOrder (h : Accepted D fixedPart parts n bottom L) (hwindow : L < bottom + n)
    (hwrap : L + 1 < 2 ^ 48) (hpart : part ∈ parts) : InOrder n L part := by
  intro p _ hset
  have hturns := h.turns part hpart
  have hround : L < part.variablePart.turnNum.toNat + n := by omega
  exact h.ordered hwrap part hpart p hset (rank_turn h.enough hround hturns.2).1

theorem window (h : Accepted D fixedPart parts n bottom L)
    (hsigned : ∀ p < n, SignedInTurn D fixedPart parts n L p) (hpart : part ∈ parts) :
    L < part.variablePart.turnNum.toNat + n := by
  obtain ⟨p, hp, hset⟩ := h.signer part hpart
  obtain ⟨t, ht, hle⟩ := h.turn_le (hsigned p hp) hpart hset
  have hround := ht.inRound
  omega

end Accepted

/-- **an accepted support proof is sound exactly when it starts within the last round**, and the
turn after its last one is a `uint48` or the signers are in order all the same. -/
theorem support_sound_iff (h : requireValidTurnTaking D fixedPart parts = .ok ())
    (hfirst : parts.head? = some first) (hlast : parts.getLast? = some last) :
    (∀ p < fixedPart.participants.length,
        SignedInTurn D fixedPart parts fixedPart.participants.length
          last.variablePart.turnNum.toNat p) ↔
      last.variablePart.turnNum.toNat <
          first.variablePart.turnNum.toNat + fixedPart.participants.length ∧
        (last.variablePart.turnNum.toNat + 1 < 2 ^ 48 ∨
          ∀ part ∈ parts, InOrder fixedPart.participants.length
            last.variablePart.turnNum.toNat part) := by
  have haccepted := accepted_of_ok h hfirst hlast
  constructor
  · intro hsigned
    have hround := fun (part : SignedVariablePart) (hpart : part ∈ parts) =>
      haccepted.window hsigned hpart
    refine ⟨hround first (List.mem_of_head? hfirst), Or.inr fun part hpart p hp hset => ?_⟩
    obtain ⟨t, ht, hle⟩ := haccepted.turn_le (hsigned p hp) hpart hset
    exact (rank_le_iff haccepted.enough ht (hround part hpart)
      (haccepted.turns part hpart).2).2 hle
  · rintro ⟨hwindow, hwrap | horder⟩ p hp
    · exact haccepted.signedInTurn_of_inOrder hwindow
        (fun part hpart => haccepted.inOrder hwindow hwrap hpart) hp
    · exact haccepted.signedInTurn_of_inOrder hwindow horder hp

end ShortcuttingTurnTaking

namespace Sample

/-- the state of a turn, signed by one of the participants 1 and 2 -/
def signedAt (turnNum : BitVec 48) (participant : Nat) : SignedVariablePart :=
  let p : VariablePart := ⟨[⟨0, [], [⟨1, 5, 0, []⟩, ⟨2, 5, 0, []⟩]⟩], [], turnNum, false⟩
  let h := hashState deployment channelId p.appData p.outcome p.turnNum p.isFinal
  ⟨p, [sign h participant], BitVec.ofNat 256 participant⟩

/-- both participants sign in their turn -/
def inTurn : List SignedVariablePart := [signedAt 2 1, signedAt 3 2]

/-- the first participant has only signed the state before the last round -/
def early : List SignedVariablePart := [signedAt 1 1, signedAt 3 2]

end Sample

namespace ShortcuttingTurnTaking
open Contracts.Sample

theorem support_sound_in_turn :
    requireValidTurnTaking deployment fixedPart inTurn = .ok () ∧
      ∀ p < 2, SignedInTurn deployment fixedPart inTurn 2 3 p := by
  have hok : requireValidTurnTaking deployment fixedPart inTurn = .ok () := by decide +kernel
  exact ⟨hok, (support_sound_iff hok rfl rfl).2 ⟨by decide, .inl (by decide)⟩⟩

/-- a state signed before the last round supports: the first participant's turn is the second, but
no state from there on names them as signer or has a signature of theirs -/
theorem early_state_supported :
    requireValidTurnTaking deployment fixedPart early = .ok () ∧ IsTurn 2 3 0 2 ∧
      ¬ SignedInTurn deployment fixedPart early 2 3 0 ∧
      ∀ part ∈ early, 2 ≤ part.variablePart.turnNum.toNat → ∀ sig ∈ part.sigs,
        isSignedBy deployment (hashState deployment channelId part.variablePart.appData
          part.variablePart.outcome part.variablePart.turnNum part.variablePart.isFinal) sig 1 =
            .ok false := by
  have hturn : IsTurn 2 3 0 2 := ⟨by decide, by decide, rfl⟩
  refine ⟨by decide +kernel, hturn, ?_, by decide +kernel⟩
  rintro ⟨part, hpart, hvalid, t, ht, hle⟩
  obtain rfl := isTurn_unique ht hturn
  rcases List.mem_cons.1 hpart with rfl | hpart
  · exact absurd hle (by decide)
  · have hclaimed := hvalid.claimed
    rw [List.mem_singleton.1 hpart] at hclaimed
    exact absurd hclaimed (by decide)

end ShortcuttingTurnTaking

end Nitro.Contracts
