import Nitro.Contracts.Support

/-!
# Strict turn taking

The library `StrictTurnTaking`: a support proof is an array of states, each signed by the mover of its
turn and by nobody else, with turn numbers that increase by one.  The number of states is only bounded
by the number of participants, and the turn number of the loop is one of 48 bits.

* `requireValidTurnTaking`   a whole support proof;
* `isSignedByMover_ok`       one step of the loop: the mover signed;
* `requireMoves_ok`          the whole loop: all movers signed, and the turn numbers follow;
* `everyoneMoved_iff`        everybody moved when there is a state for each participant and no turn
                             number wraps.
-/

set_option linter.unusedSectionVars false

namespace Nitro.Contracts
open Evm RoundRobin

namespace StrictTurnTaking
variable (D : Deployment)

def requireValidInput (numParticipants numStates : Nat) : Except String Unit := do
  require (numStates ≤ numParticipants ∧ 0 < numStates) "Insufficient or excess states"
  require (numParticipants ≤ 255) "Too many participants"

def moverAddress (participants : List Address) (turnNum : BitVec 48) : Except String Address := do
  let mover ← checkedMod (turnNum.setWidth 256) (BitVec.ofNat 256 participants.length)
  index participants mover.toNat

/-- the index of the mover is cut to eight bits for the mask -/
def isSignedByMover (fixedPart : FixedPart) (part : SignedVariablePart) : Except String Unit := do
  let p := part.variablePart
  require (part.sigs.length = 1) "sigs.length != 1"
  let mover ← checkedMod (p.turnNum.setWidth 256) (BitVec.ofNat 256 fixedPart.participants.length)
  require (isClaimedSignedOnlyBy part.signedBy (UInt8.ofNat mover.toNat) = true) "Invalid signedBy"
  let channelId ← getChannelId D fixedPart
  let sig ← index part.sigs 0
  let moverAddress ← moverAddress fixedPart.participants p.turnNum
  let signed ← isSignedBy D (hashState D channelId p.appData p.outcome p.turnNum p.isFinal) sig
    moverAddress
  require (signed = true) "Invalid signer"

def requireHasTurnNum (variablePart : VariablePart) (turnNum : BitVec 48) : Except String Unit :=
  require (variablePart.turnNum = turnNum) "Wrong variablePart.turnNum"

/-- the loop over the states, with the turn number the next one must have -/
def requireMoves (fixedPart : FixedPart) : BitVec 48 → List SignedVariablePart → Except String Unit
  | _, [] => .ok ()
  | turnNum, part :: parts => do
    isSignedByMover D fixedPart part
    requireHasTurnNum part.variablePart turnNum
    requireMoves fixedPart (turnNum + 1) parts

def requireValidTurnTaking (fixedPart : FixedPart)
    (signedVariableParts : List SignedVariablePart) : Except String Unit := do
  requireValidInput fixedPart.participants.length signedVariableParts.length
  let first ← index signedVariableParts 0
  requireMoves D fixedPart first.variablePart.turnNum signedVariableParts

end StrictTurnTaking

namespace StrictTurnTaking
open ShortcuttingTurnTaking (ValidlySigned setWidth_turnNum)
variable {D : Deployment} {fixedPart : FixedPart} {part first : SignedVariablePart}
  {parts : List SignedVariablePart}

/-! ## the loop -/

theorem mover_ok {turnNum : BitVec 48} {n : Nat} {mover : Word} (hn : n ≤ 255)
    (h : checkedMod (turnNum.setWidth 256) (BitVec.ofNat 256 n) = .ok mover) :
    mover.toNat = turnNum.toNat % n := by
  have hlt := turnNum.isLt
  rw [checkedMod_ok h, setWidth_turnNum, BitVec.toNat_umod, BitVec.toNat_ofNat, BitVec.toNat_ofNat,
    Nat.mod_eq_of_lt (show turnNum.toNat < 2 ^ 256 by omega),
    Nat.mod_eq_of_lt (show n < 2 ^ 256 by omega)]

theorem isSignedByMover_ok (hpos : 0 < fixedPart.participants.length)
    (hn : fixedPart.participants.length ≤ 255) (h : isSignedByMover D fixedPart part = .ok ()) :
    ValidlySigned D fixedPart part
      (part.variablePart.turnNum.toNat % fixedPart.participants.length) := by
  obtain ⟨hone, h⟩ := require_bind_eq_ok.1 h
  obtain ⟨mover, hmover, h⟩ := bind_eq_ok.1 h
  obtain ⟨honly, h⟩ := require_bind_eq_ok.1 h
  obtain ⟨channelId, hid, h⟩ := bind_eq_ok.1 h
  obtain ⟨sig, hsig, h⟩ := bind_eq_ok.1 h
  obtain ⟨participant, hparticipant, h⟩ := bind_eq_ok.1 h
  obtain ⟨signed, hsigned, h⟩ := bind_eq_ok.1 h
  obtain rfl := require_eq_ok.1 h
  obtain ⟨mover', hmover', hparticipant⟩ := bind_eq_ok.1 hparticipant
  rw [index_eq_ok, mover_ok hn hmover'] at hparticipant
  rw [mover_ok hn hmover] at honly
  have hlt : part.variablePart.turnNum.toNat % fixedPart.participants.length <
      fixedPart.participants.length := Nat.mod_lt _ hpos
  generalize part.variablePart.turnNum.toNat % fixedPart.participants.length = p at *
  refine ⟨?_, sig, List.mem_of_getElem? (index_eq_ok.1 hsig), channelId, participant, hid,
    hparticipant, hsigned⟩
  have hmask : part.signedBy = BitVec.ofNat 256 (2 ^ (UInt8.ofNat p).toNat) :=
    of_decide_eq_true honly
  rw [hmask, UInt8.toNat_ofNat_of_lt' (show p < 256 by omega), BitVec.getLsbD_ofNat,
    Nat.testBit_two_pow_self]
  simp
  omega

theorem requireMoves_ok {turnNum : BitVec 48} (hpos : 0 < fixedPart.participants.length)
    (hn : fixedPart.participants.length ≤ 255)
    (h : requireMoves D fixedPart turnNum parts = .ok ()) :
    (∀ part ∈ parts, ValidlySigned D fixedPart part
        (part.variablePart.turnNum.toNat % fixedPart.participants.length)) ∧
      ∀ i part, parts[i]? = some part →
        part.variablePart.turnNum.toNat = (turnNum.toNat + i) % 2 ^ 48 := by
  induction parts generalizing turnNum with
  | nil => simp
  | cons head parts ih =>
    obtain ⟨⟨⟩, hhead, h⟩ := bind_eq_ok.1 h
    obtain ⟨hturn, h⟩ := require_bind_eq_ok.1 h
    obtain ⟨hall, hturns⟩ := ih h
    refine ⟨List.forall_mem_cons.2 ⟨isSignedByMover_ok hpos hn hhead, hall⟩, ?_⟩
    intro i part hpart
    cases i with
    | zero =>
      obtain rfl := Option.some.inj hpart
      rw [hturn, Nat.add_zero, Nat.mod_eq_of_lt turnNum.isLt]
    | succ i =>
      rw [hturns i part hpart, BitVec.toNat_add]
      show ((turnNum.toNat + 1) % 2 ^ 48 + i) % 2 ^ 48 = _
      rw [Nat.mod_add_mod]
      congr 1
      omega

/-! ## everybody moved -/

/-- **everybody signed the state of their turn**: the states have consecutive turn numbers, one for
each participant -/
structure EveryoneMoved (D : Deployment) (fixedPart : FixedPart) (parts : List SignedVariablePart) :
    Prop where
  turns : ∃ t, parts.map (fun part => part.variablePart.turnNum.toNat) =
    List.range' t fixedPart.participants.length
  byMover : ∀ part ∈ parts, ValidlySigned D fixedPart part
    (part.variablePart.turnNum.toNat % fixedPart.participants.length)
  moved : ∀ p < fixedPart.participants.length, ∃ part ∈ parts,
    part.variablePart.turnNum.toNat % fixedPart.participants.length = p ∧
      ValidlySigned D fixedPart part p

/-- the turn numbers of a round have the remainders of all participants -/
theorem exists_mover {n t p : Nat} (hp : p < n) : ∃ u ∈ List.range' t n, u % n = p := by
  obtain ⟨u, hround, hle, hparty⟩ :=
    exists_isTurn (L := t + n - 1) (show n ≤ t + n - 1 + 1 by omega) hp
  exact ⟨u, List.mem_range'_1.2 ⟨by omega, by omega⟩, hparty⟩

/-- **everybody moved in an accepted support proof** exactly when it has as many states as there are
participants and its turn numbers do not wrap -/
theorem everyoneMoved_iff (h : requireValidTurnTaking D fixedPart parts = .ok ())
    (hfirst : parts.head? = some first) :
    EveryoneMoved D fixedPart parts ↔
      parts.length = fixedPart.participants.length ∧
        first.variablePart.turnNum.toNat + fixedPart.participants.length ≤ 2 ^ 48 := by
  obtain ⟨⟨⟩, hinput, h⟩ := bind_eq_ok.1 h
  obtain ⟨⟨hle, hsome⟩, hinput⟩ := require_bind_eq_ok.1 hinput
  have hn := require_eq_ok.1 hinput
  have hpos : 0 < fixedPart.participants.length := by omega
  obtain ⟨first', hfirst', h⟩ := bind_eq_ok.1 h
  have hsame : first' = first := by
    rw [List.head?_eq_getElem?, index_eq_ok.1 hfirst'] at hfirst
    exact Option.some.inj hfirst
  rw [hsame] at h
  obtain ⟨hall, hturns⟩ := requireMoves_ok hpos hn h
  constructor
  · rintro ⟨⟨t, ht⟩, -, -⟩
    have hlength : parts.length = fixedPart.participants.length := by
      have hcount := congrArg List.length ht
      rwa [List.length_map, List.length_range'] at hcount
    refine ⟨hlength, ?_⟩
    -- the last state has the turn number of the first one, and the number of the others
    have hat : ∀ i part, parts[i]? = some part → part.variablePart.turnNum.toNat = t + i := by
      intro i part hpart
      have hi : i < fixedPart.participants.length := by
        rw [← hlength]
        exact (List.getElem?_eq_some_iff.1 hpart).1
      have hmap := congrArg (fun l => l[i]?) ht
      simp only [List.getElem?_map, hpart, Option.map_some] at hmap
      rw [List.getElem?_range' hi, Nat.one_mul] at hmap
      exact Option.some.inj hmap
    have hzero := hat 0 first (by rw [← hsame]; exact index_eq_ok.1 hfirst')
    obtain ⟨last, hlast⟩ : ∃ last, parts[parts.length - 1]? = some last :=
      ⟨_, List.getElem?_eq_getElem (by omega)⟩
    have htop := hat _ last hlast
    have hlt := last.variablePart.turnNum.isLt
    omega
  · rintro ⟨hlength, hwrap⟩
    have hround : parts.map (fun part => part.variablePart.turnNum.toNat) =
        List.range' first.variablePart.turnNum.toNat fixedPart.participants.length := by
      apply List.ext_getElem?
      intro i
      rw [List.getElem?_map]
      rcases Nat.lt_or_ge i parts.length with hi | hi
      · rw [List.getElem?_range' (by omega), List.getElem?_eq_getElem hi, Option.map_some,
          hturns i _ (List.getElem?_eq_getElem hi), Nat.mod_eq_of_lt (by omega), Nat.one_mul]
      · rw [List.getElem?_eq_none hi, List.getElem?_eq_none (by
          rw [List.length_range']
          omega)]
        rfl
    refine ⟨⟨_, hround⟩, hall, ?_⟩
    intro p hp
    obtain ⟨u, hu, hmod⟩ := exists_mover (t := first.variablePart.turnNum.toNat) hp
    rw [← hround] at hu
    obtain ⟨part, hpart, rfl⟩ := List.mem_map.1 hu
    exact ⟨part, hpart, hmod, hmod ▸ hall part hpart⟩

end StrictTurnTaking

namespace StrictTurnTaking
open Contracts.Sample
open ShortcuttingTurnTaking (ValidlySigned)

theorem everyoneMoved_inTurn :
    requireValidTurnTaking deployment fixedPart inTurn = .ok () ∧
      EveryoneMoved deployment fixedPart inTurn := by
  have hok : requireValidTurnTaking deployment fixedPart inTurn = .ok () := by decide +kernel
  exact ⟨hok, (everyoneMoved_iff hok rfl).2 ⟨rfl, by decide⟩⟩

/-- **one state is enough**: it is accepted with two participants, and the second has signed nothing -/
theorem one_move_accepted :
    requireValidTurnTaking deployment fixedPart [signedAt 2 1] = .ok () ∧
      fixedPart.participants.length = 2 ∧
      ¬ EveryoneMoved deployment fixedPart [signedAt 2 1] ∧
      ¬ ∃ part ∈ [signedAt 2 1], ValidlySigned deployment fixedPart part 1 := by
  have hnobody : ¬ ∃ part ∈ [signedAt 2 1], ValidlySigned deployment fixedPart part 1 := by
    rintro ⟨part, hpart, hclaimed, -⟩
    rw [List.mem_singleton.1 hpart] at hclaimed
    revert hclaimed
    decide
  refine ⟨by decide +kernel, rfl, ?_, hnobody⟩
  intro h
  obtain ⟨part, hpart, -, hsigned⟩ := h.moved 1 (by decide)
  exact hnobody ⟨part, hpart, hsigned⟩

end StrictTurnTaking

end Nitro.Contracts
