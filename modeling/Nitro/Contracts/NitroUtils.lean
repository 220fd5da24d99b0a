import Nitro.Crypto
import Nitro.Lib.Evm

/-!
# The types of the contracts and the library `NitroUtils`

The structs of `INitroTypes` and of the exit format, with the widths of the Solidity types, and what the
contracts hash and recover.  A `Deployment` has what the contracts use and the repository does not
define: the precompiled functions, the chain and the exit format library.

* `getChannelId`, `hashState`, `hashOutcome`              Keccak of the ABI encodings;
* `recoverSigner`, `isSignedBy`                           signatures on a digest;
* `getClaimedSignersNum`, `getClaimedSignersIndices`      the bits of a mask.
-/

set_option linter.unusedSectionVars false

namespace Nitro.Contracts
open Evm

abbrev Word := BitVec 256

/-! ## structs -/

structure Allocation where
  destination : Bytes32
  amount : Word
  allocationType : UInt8
  metadata : Bytes
  deriving DecidableEq

/-- the entries of a new array in memory -/
instance : Inhabited Allocation := ⟨⟨0, 0, 0, []⟩⟩

structure SingleAssetExit where
  asset : Address
  metadata : Bytes
  allocations : List Allocation
  deriving DecidableEq

abbrev Exit := List SingleAssetExit

structure Signature where
  v : UInt8
  r : Bytes32
  s : Bytes32
  deriving DecidableEq

structure VariablePart where
  outcome : Exit
  appData : Bytes
  turnNum : BitVec 48
  isFinal : Bool
  deriving DecidableEq

structure SignedVariablePart where
  variablePart : VariablePart
  sigs : List Signature
  signedBy : Word
  deriving DecidableEq

structure FixedPart where
  chainId : Word
  participants : List Address
  channelNonce : BitVec 48
  appDefinition : Address
  challengeDuration : BitVec 48
  deriving DecidableEq

/-- what a deployment of the contracts runs on -/
structure Deployment where
  crypto : Crypto
  chainId : Word
  /-- `ExitFormat.decodeExit` -/
  decodeExit : Bytes → Except String Exit
  /-- the number of `ExitFormat.AllocationType.guarantee` -/
  guarantee : UInt8

/-! ## ABI values -/

def Allocation.toVal (a : Allocation) : Abi.Val :=
  .tuple [.word a.destination, .word a.amount, .uint a.allocationType.toNat, .bytes a.metadata]

def SingleAssetExit.toVal (e : SingleAssetExit) : Abi.Val :=
  .tuple [.word (e.asset.setWidth 256), .bytes e.metadata,
    .array (e.allocations.map Allocation.toVal)]

def Exit.toVal (e : Exit) : Abi.Val := .array (e.map SingleAssetExit.toVal)

def VariablePart.toVal (p : VariablePart) : Abi.Val :=
  .tuple [Exit.toVal p.outcome, .bytes p.appData, .word (p.turnNum.setWidth 256), .bool p.isFinal]

/-- `ExitFormat.encodeExit`, which is also `abi.encode` -/
def encodeExit (e : Exit) : Bytes := Abi.encode [Exit.toVal e]

/-! ## hashes and ids -/

section hashes
variable (D : Deployment)

def getChannelId (fixedPart : FixedPart) : Except String Bytes32 := do
  require (fixedPart.chainId = D.chainId) "Incorrect chainId"
  .ok (D.crypto.keccak256 (Abi.encode [.word D.chainId,
    .array (fixedPart.participants.map fun a => .word (a.setWidth 256)),
    .word (fixedPart.channelNonce.setWidth 256), .word (fixedPart.appDefinition.setWidth 256),
    .word (fixedPart.challengeDuration.setWidth 256)]))

def hashState (channelId : Bytes32) (appData : Bytes) (outcome : Exit) (turnNum : BitVec 48)
    (isFinal : Bool) : Bytes32 :=
  D.crypto.keccak256 (Abi.encode [.word channelId, .bytes appData, Exit.toVal outcome,
    .word (turnNum.setWidth 256), .bool isFinal])

def hashOutcome (outcome : Exit) : Bytes32 := D.crypto.keccak256 (encodeExit outcome)

/-! ## signatures -/

/-- the precompiled contract: the zero address for anything that is not a signature -/
def ecrecover (digest : Bytes32) (sig : Signature) : Address :=
  if sig.v = 27 ∨ sig.v = 28 then
    match D.crypto.recoverPubkey (Abi.wordBytes digest)
        (Abi.wordBytes sig.r ++ Abi.wordBytes sig.s ++ [sig.v - 27]) >>=
          D.crypto.pubkeyToAddress with
    | .ok a => a
    | .error _ => 0
  else 0

def recoverSigner (digest : Bytes32) (sig : Signature) : Except String Address := do
  let prefixedHash := D.crypto.keccak256
    (asciiBytes "\x19Ethereum Signed Message:\n32" ++ Abi.wordBytes digest)
  let a := ecrecover D prefixedHash sig
  require (a ≠ 0) "Invalid signature"
  .ok a

def isSignedBy (stateHash : Bytes32) (sig : Signature) (signer : Address) : Except String Bool := do
  let a ← recoverSigner D stateHash sig
  .ok (decide (signer = a))

end hashes

/-! ## masks of signers -/

def isClaimedSignedBy (signedBy : Word) (participantIndex : UInt8) : Bool :=
  decide ((signedBy >>> participantIndex.toNat) % 2 = 1)

def isClaimedSignedOnlyBy (signedBy : Word) (participantIndex : UInt8) : Bool :=
  decide (signedBy = BitVec.ofNat 256 (2 ^ participantIndex.toNat))

/-- every round clears the lowest bit; a loop that does not end runs out of gas -/
def claimedSignersNum : Nat → Word → UInt8 → Except String UInt8
  | 0, _, _ => .error "out of gas"
  | rounds + 1, signedBy, amount =>
    if signedBy = 0 then .ok amount
    else claimedSignersNum rounds (signedBy &&& (signedBy - 1)) (amount + 1)

def getClaimedSignersNum (signedBy : Word) : Except String UInt8 :=
  claimedSignersNum 257 signedBy 0

/-- the loop over the bits; `accepted` has the first entries of the array of the given size, which
is written one by one -/
def claimedSignersIndices (size : UInt8) : Nat → Word → UInt8 → List UInt8 →
    Except String (List UInt8)
  | 0, _, _, _ => .error "out of gas"
  | rounds + 1, signedBy, signerNum, accepted =>
    if signedBy = 0 then
      .ok (accepted ++ List.replicate (size.toNat - accepted.length) 0)
    else if signedBy % 2 = 1 then
      if accepted.length < size.toNat then
        claimedSignersIndices size rounds (signedBy >>> 1) (signerNum + 1) (accepted ++ [signerNum])
      else .error "invalid opcode"
    else claimedSignersIndices size rounds (signedBy >>> 1) (signerNum + 1) accepted

def getClaimedSignersIndices (signedBy : Word) : Except String (List UInt8) := do
  let size ← getClaimedSignersNum signedBy
  claimedSignersIndices size 257 signedBy 0 []

/-- both arguments are ABI encodings, of whole words, so the comparison word by word is exact -/
def bytesEqual (preBytes postBytes : Bytes) : Bool := decide (preBytes = postBytes)

end Nitro.Contracts
