import Nitro.Crypto
import Nitro.Outcome

/-!
# Channel states

The package `state`: `FixedPart`, `State` and their hashing and signing.  A field of type
`*big.Int` may be `nil`; packing a `nil` panics.

* `FixedPart.channelId`, `State.hash`    Keccak of the ABI encodings;
* `State.sign`, `State.recoverSigner`    signatures on the hash (`State.recover_sign`);
* `State.equal`, `State.clone`           deep comparison and deep copy.
-/

namespace Nitro
open Go

structure FixedPart where
  chainId : BigInt
  participants : List Address
  channelNonce : BigInt
  appDefinition : Address
  challengeDuration : BigInt
  deriving DecidableEq

structure State where
  chainId : BigInt
  participants : List Address
  channelNonce : BigInt
  appDefinition : Address
  challengeDuration : BigInt
  appData : Bytes
  outcome : Exit
  turnNum : UInt64
  isFinal : Bool
  deriving DecidableEq

structure VariablePart where
  appData : Bytes
  outcome : Exit
  turnNum : UInt64
  isFinal : Bool
  deriving DecidableEq

def State.fixedPart (s : State) : FixedPart :=
  ⟨s.chainId, s.participants, s.channelNonce, s.appDefinition, s.challengeDuration⟩

def State.variablePart (s : State) : VariablePart :=
  ⟨s.appData, s.outcome, s.turnNum, s.isFinal⟩

def stateFromFixedAndVariablePart (f : FixedPart) (v : VariablePart) : State where
  chainId := f.chainId
  participants := f.participants
  channelNonce := f.channelNonce
  appDefinition := f.appDefinition
  challengeDuration := f.challengeDuration
  appData := v.appData
  outcome := v.outcome
  turnNum := v.turnNum
  isFinal := v.isFinal

/-- a `*big.Int` packed as a `uint256` -/
def uint256Val (n : BigInt) : Res Abi.Val := do
  let n ← n.deref
  .ok (.word (BitVec.ofInt 256 n))

def addressVal (a : Address) : Abi.Val := .word (a.setWidth 256)

section
variable (cr : Crypto)

def FixedPart.channelId (fp : FixedPart) : Res Destination := do
  let chainId ← uint256Val fp.chainId
  let channelNonce ← uint256Val fp.channelNonce
  let challengeDuration ← uint256Val fp.challengeDuration
  .ok (cr.keccak256 (Abi.encode [chainId, .array (fp.participants.map addressVal), channelNonce,
    addressVal fp.appDefinition, challengeDuration]))

def FixedPart.validate (fp : FixedPart) : Res Unit := do
  failIf (fp.chainId = none) (.new "cannot compute ChannelId with nil ChainId")
  failIf (fp.channelNonce = none) (.new "cannot compute ChannelId with nil ChannelNonce")
  let id ← fp.channelId cr
  failIf (isExternal id) (.new "channelId is an external destination")

/-- `FixedPart.Clone` -/
def FixedPart.clone (f : FixedPart) : Res FixedPart := do
  let chainId ← f.chainId.deref
  let channelNonce ← f.channelNonce.deref
  let challengeDuration ← f.challengeDuration.deref
  .ok { f with chainId := some chainId, channelNonce := some channelNonce,
               challengeDuration := some challengeDuration }

namespace State

def channelId (s : State) : Res Destination := s.fixedPart.channelId cr

/-- the turn number goes through `int64` on its way into the `uint256` -/
def turnNumVal (turnNum : UInt64) : Abi.Val :=
  .word (BitVec.ofInt 256 turnNum.toInt64.toInt)

def encode (s : State) : Res Bytes := do
  let channelId ← s.channelId cr
  let outcome ← s.outcome.toVal
  .ok (Abi.encode [.word channelId, .bytes s.appData, outcome, turnNumVal s.turnNum,
    .bool s.isFinal])

def hash (s : State) : Res Bytes32 := do
  let encoded ← (s.encode cr).wrap "failed to encode state: "
  .ok (cr.keccak256 encoded)

def sign (s : State) (secretKey : Bytes) : Res Signature := do
  let hash ← s.hash cr
  signEthereumMessage cr (Abi.wordBytes hash) secretKey

def recoverSigner (s : State) (sig : Signature) : Res Address := do
  let stateHash ← s.hash cr
  recoverEthereumMessageSigner cr (Abi.wordBytes stateHash) sig

def validate (s : State) : Res Unit := s.fixedPart.validate cr

/-- `equalParticipants`, and `Equal` field by field, left to right -/
def equal (s r : State) : Res Bool :=
  if BigInt.equal s.chainId r.chainId ∧ s.participants = r.participants ∧
      BigInt.equal s.channelNonce r.channelNonce ∧ s.appDefinition = r.appDefinition ∧
      BigInt.equal s.challengeDuration r.challengeDuration ∧ s.appData = r.appData then do
    let same ← s.outcome.equal r.outcome
    .ok (same && decide (s.turnNum = r.turnNum) && decide (s.isFinal = r.isFinal))
  else .ok false

/-- the copy of `AppData` has length zero: it is made with `make(types.Bytes, 0, len)` -/
def clone (s : State) : Res State := do
  let fp ← s.fixedPart.clone
  let outcome ← s.outcome.clone
  .ok { stateFromFixedAndVariablePart fp s.variablePart with appData := [], outcome := outcome }

end State
end

/-! ## facts about comparing, copying and signing -/

theorem FixedPart.clone_eq {f g : FixedPart} (h : f.clone = .ok g) : g = f := by
  obtain ⟨c, hc, h⟩ := Res.bind_eq_ok.1 h
  obtain ⟨n, hn, h⟩ := Res.bind_eq_ok.1 h
  obtain ⟨d, hd, h⟩ := Res.bind_eq_ok.1 h
  rw [BigInt.deref_eq_ok] at hc hn hd
  cases f
  cases h
  simp_all

theorem FixedPart.clone_ok {cr : Crypto} {fp : FixedPart} {id : Destination}
    (h : fp.channelId cr = .ok id) : fp.clone = .ok fp := by
  obtain ⟨c, hc, h⟩ := Res.bind_eq_ok.1 h
  obtain ⟨n, hn, h⟩ := Res.bind_eq_ok.1 h
  obtain ⟨d, hd, -⟩ := Res.bind_eq_ok.1 h
  obtain ⟨c', hc', -⟩ := Res.bind_eq_ok.1 hc
  obtain ⟨n', hn', -⟩ := Res.bind_eq_ok.1 hn
  obtain ⟨d', hd', -⟩ := Res.bind_eq_ok.1 hd
  rw [BigInt.deref_eq_ok] at hc' hn' hd'
  cases fp
  cases hc'
  cases hn'
  cases hd'
  rfl

theorem FixedPart.validate_ok {cr : Crypto} {fp : FixedPart} (h : fp.validate cr = .ok ()) :
    ∃ id, fp.channelId cr = .ok id ∧ isExternal id = false := by
  obtain ⟨-, h⟩ := failIf_bind_eq_ok.1 h
  obtain ⟨-, h⟩ := failIf_bind_eq_ok.1 h
  obtain ⟨id, hid, h⟩ := Res.bind_eq_ok.1 h
  exact ⟨id, hid, by simpa using h⟩

namespace State

theorem equal_eq {s r : State} (h : s.equal r = .ok true) : s = r := by
  unfold equal at h
  split at h
  · next hf =>
    obtain ⟨same, ho, h⟩ := Res.bind_eq_ok.1 h
    cases same with
    | false => cases h
    | true =>
      have ho := Exit.equal_eq ho
      simp only [BigInt.equal, decide_eq_true_eq] at hf
      cases s; cases r
      simp_all
  · cases h

theorem equal_self (s : State) : s.equal s = .ok true := by
  have houtcome : s.outcome.equal s.outcome = .ok true :=
    sliceEqual_self SingleAssetExit.equal_self s.outcome
  unfold equal
  rw [if_pos (by simp [BigInt.equal]), houtcome]
  simp

theorem clone_eq {s r : State} (h : s.clone = .ok r) : r = { s with appData := [] } := by
  obtain ⟨fp, hfp, h⟩ := Res.bind_eq_ok.1 h
  obtain ⟨o, ho, h⟩ := Res.bind_eq_ok.1 h
  cases h
  rw [FixedPart.clone_eq hfp, Exit.clone_eq ho]
  rfl

/-- **what a participant signs recovers to that participant** -/
theorem recover_sign {cr : Crypto} (hc : SignCorrect cr) {s : State} {sk : Bytes}
    {sig : Signature} {a : Address} (hs : s.sign cr sk = .ok sig)
    (ha : cr.secretKeyToAddress sk = some a) : s.recoverSigner cr sig = .ok a := by
  obtain ⟨hash, hh, hs⟩ := Res.bind_eq_ok.1 hs
  refine Res.bind_eq_ok.2 ⟨hash, hh, ?_⟩
  exact Nitro.recover_sign hc hs ha

theorem hash_eq_ok {cr : Crypto} {s : State} {hash : Bytes32} :
    s.hash cr = .ok hash ↔ ∃ encoded, s.encode cr = .ok encoded ∧ cr.keccak256 encoded = hash := by
  constructor
  · intro h
    obtain ⟨encoded, he, hend⟩ := Res.bind_eq_ok.1 h
    exact ⟨encoded, Res.wrap_eq_ok.1 he, Except.ok.inj hend⟩
  · rintro ⟨encoded, he, rfl⟩
    exact Res.bind_eq_ok.2 ⟨encoded, Res.wrap_eq_ok.2 he, rfl⟩

theorem turnNumVal_injective {a b : UInt64}
    (h : BitVec.ofInt 256 a.toInt64.toInt = BitVec.ofInt 256 b.toInt64.toInt) : a = b := by
  have hint : ∀ n : Int64, (BitVec.ofInt 256 n.toInt).toInt = n.toInt := by
    intro n
    have hlow := Int64.le_toInt n
    have hhigh := Int64.toInt_lt n
    rw [BitVec.toInt_ofInt]
    apply Int.bmod_eq_of_le
    · omega
    · omega
  have htoInt := congrArg BitVec.toInt h
  rw [hint, hint] at htoInt
  exact congrArg Int64.toUInt64 (Int64.toInt_inj.1 htoInt)

/-- **the turn number can be read off the encoding** -/
theorem turnNum_of_encode {cr : Crypto} {s r : State} {encoded : Bytes}
    (hs : s.encode cr = .ok encoded) (hr : r.encode cr = .ok encoded) :
    s.turnNum = r.turnNum := by
  have hword : ∀ {x : State}, x.encode cr = .ok encoded → ∃ front rest, front.length = 96 ∧
      encoded = front ++ (Abi.wordBytes (BitVec.ofInt 256 x.turnNum.toInt64.toInt) ++ rest) := by
    intro x hx
    obtain ⟨id, -, hx⟩ := Res.bind_eq_ok.1 hx
    obtain ⟨outcome, houtcome, hend⟩ := Res.bind_eq_ok.1 hx
    obtain ⟨exits, -, hexits⟩ := Res.bind_eq_ok.1 houtcome
    cases hexits
    cases hend
    exact Abi.encode_fourth _ _ _ rfl rfl
  obtain ⟨front, rest, hlen, he⟩ := hword hs
  obtain ⟨front', rest', hlen', he'⟩ := hword hr
  have hsplit := (List.append_inj (he.symm.trans he') (hlen.trans hlen'.symm)).2
  have hlengths := (Abi.length_wordBytes (BitVec.ofInt 256 s.turnNum.toInt64.toInt)).trans
    (Abi.length_wordBytes (BitVec.ofInt 256 r.turnNum.toInt64.toInt)).symm
  exact turnNumVal_injective (Abi.wordBytes_injective (List.append_inj hsplit hlengths).1)

end State

/-! ## a sample channel -/

namespace Sample

/-- the key of the participant with address `n` -/
def key (n : Nat) : Bytes := Abi.wordBytes (BitVec.ofNat 256 n)

def fp : FixedPart where
  chainId := some 9001
  participants := [1, 2]
  channelNonce := some 7
  appDefinition := 0
  challengeDuration := some 60

/-- five of the native token for each of the two participants -/
def state (turnNum : UInt64) : State :=
  stateFromFixedAndVariablePart fp
    { appData := [], turnNum := turnNum, isFinal := false,
      outcome := [⟨0, [], [⟨1, some 5, 0, []⟩, ⟨2, some 5, 0, []⟩]⟩] }

def sigOn (s : State) (n : Nat) : Signature := (s.sign Crypto.plain (key n)).toOption.getD default

end Sample

end Nitro
