import Nitro.Lib.Abi
import Nitro.Types

/-!
# Signatures on Ethereum messages

The package `crypto`.  Hashing, the curve operations and the address of a key come from outside the
repository: they are the fields of a `Crypto`, a parameter of everything below.

* `signEthereumMessage`, `recoverEthereumMessageSigner`   prefix, hash, sign or recover, and move
  `V` between `{0, 1, ..}` and `{27, 28, ..}`;
* `SignCorrect`        what the curve library documents: a signature has 65 bytes, a small `V`, and
  recovers to the address of the signing key;
* `recover_sign`       what it gives for messages;
* `Crypto.plain`       an executable instance: the hash is a polynomial in the bytes, and a signature
  is the digest followed by the key.
-/

namespace Nitro
open Go

structure Crypto where
  keccak256 : Bytes → Bytes32
  /-- `secp256k1.Sign(digest, secretKey)` -/
  secpSign : Bytes → Bytes → Res Bytes
  /-- `secp256k1.RecoverPubkey(digest, signature)` -/
  recoverPubkey : Bytes → Bytes → Res Bytes
  /-- `UnmarshalPubkey`, then `PubkeyToAddress` -/
  pubkeyToAddress : Bytes → Res Address
  /-- `ToECDSA`, then the address of the public key; `none` where `ToECDSA` fails -/
  secretKeyToAddress : Bytes → Option Address

structure Signature where
  R : Bytes
  S : Bytes
  V : UInt8
  deriving DecidableEq, Repr, Inhabited

namespace Signature

def equal (s1 s2 : Signature) : Bool :=
  decide (s1.S = s2.S) && decide (s1.R = s2.R) && decide (s1.V = s2.V)

/-- `CloneSignature` -/
def clone (s : Signature) : Signature := { R := s.R, S := s.S, V := s.V }

theorem equal_iff {s1 s2 : Signature} : equal s1 s2 = true ↔ s1 = s2 := by
  cases s1; cases s2
  simp [equal]
  tauto

end Signature

/-- the components of a signature in the `R || S || V` format -/
def splitSignature (concatenated : Bytes) : Res Signature :=
  if h : 64 < concatenated.length then
    .ok { R := concatenated.take 32, S := (concatenated.drop 32).take 32,
          V := concatenated[64] }
  else .error (.panic "slice bounds out of range")

def joinSignature (s : Signature) : Bytes := s.R ++ s.S ++ [s.V]

def asciiBytes (s : String) : Bytes := s.toList.map fun c => UInt8.ofNat c.toNat

variable (cr : Crypto)

def computeEthereumSignedMessageDigest (message : Bytes) : Bytes :=
  Abi.wordBytes (cr.keccak256
    (asciiBytes "\x19Ethereum Signed Message:\n" ++ asciiBytes (toString message.length) ++ message))

def signEthereumMessage (message secretKey : Bytes) : Res Signature := do
  let digest := computeEthereumSignedMessageDigest cr message
  let concatenatedSignature ← cr.secpSign digest secretKey
  let sig ← splitSignature concatenatedSignature
  .ok (if sig.V < 27 then { sig with V := sig.V + 27 } else sig)

def recoverEthereumMessageSigner (message : Bytes) (signature : Signature) : Res Address := do
  let sig := if signature.V ≥ 27 then { signature with V := signature.V - 27 } else signature
  let digest := computeEthereumSignedMessageDigest cr message
  let pubKey ← cr.recoverPubkey digest (joinSignature sig)
  cr.pubkeyToAddress pubKey

/-- `GetAddressFromSecretKeyBytes`: a malformed key ends the process (`log.Fatal`) -/
def getAddressFromSecretKeyBytes (secretKeyBytes : Bytes) : Res Address :=
  match cr.secretKeyToAddress secretKeyBytes with
  | some a => .ok a
  | none => .error (.panic "log.Fatal: invalid secret key")

/-! ## a fresh signature recovers to its signer -/

structure SignCorrect : Prop where
  format : ∀ digest sk raw, cr.secpSign digest sk = .ok raw →
    raw.length = 65 ∧ ∀ v, raw[64]? = some v → v < 4
  recovers : ∀ digest sk raw a, cr.secpSign digest sk = .ok raw →
    cr.secretKeyToAddress sk = some a →
      ∃ pk, cr.recoverPubkey digest raw = .ok pk ∧ cr.pubkeyToAddress pk = .ok a

theorem joinSignature_split {raw : Bytes} {sig : Signature} (hlen : raw.length = 65)
    (h : splitSignature raw = .ok sig) : joinSignature sig = raw ∧ raw[64]? = some sig.V := by
  unfold splitSignature at h
  rw [dif_pos (by omega)] at h
  cases h
  have e64 : raw.drop 64 = [raw[64]] := by
    rw [List.drop_eq_getElem_cons (by omega), List.drop_eq_nil_of_le (by omega)]
  constructor
  · show raw.take 32 ++ (raw.drop 32).take 32 ++ [raw[64]] = raw
    have e := List.take_append_drop 32 (raw.drop 32)
    rw [List.drop_drop, e64] at e
    rw [List.append_assoc, e, List.take_append_drop]
  · exact List.getElem?_eq_getElem (by omega)

theorem recover_sign {cr : Crypto} (hc : SignCorrect cr) {message sk : Bytes} {sig : Signature}
    {a : Address} (hs : signEthereumMessage cr message sk = .ok sig)
    (ha : cr.secretKeyToAddress sk = some a) :
    recoverEthereumMessageSigner cr message sig = .ok a := by
  obtain ⟨raw, hraw, hs⟩ := Res.bind_eq_ok.1 hs
  obtain ⟨s, hsplit, hs⟩ := Res.bind_eq_ok.1 hs
  obtain ⟨hlen, hv⟩ := hc.format _ _ _ hraw
  obtain ⟨hjoin, hlast⟩ := joinSignature_split hlen hsplit
  obtain ⟨pk, hpk, haddr⟩ := hc.recovers _ _ _ _ hraw ha
  have hv4 : s.V < 4 := hv _ hlast
  have hv27 : s.V < 27 := UInt8.lt_trans hv4 (by decide)
  rw [if_pos hv27] at hs
  cases hs
  have hge : s.V + 27 ≥ 27 := by
    rw [ge_iff_le, UInt8.le_iff_toNat_le, UInt8.toNat_add]
    have := UInt8.lt_iff_toNat_lt.1 hv4
    change s.V.toNat < 4 at this
    change 27 ≤ (s.V.toNat + 27) % 256
    omega
  unfold recoverEthereumMessageSigner
  rw [if_pos hge]
  have hback : ({ R := s.R, S := s.S, V := s.V + 27 - 27 } : Signature) = s := by
    cases s; simp
  show (cr.recoverPubkey _ (joinSignature { R := s.R, S := s.S, V := s.V + 27 - 27 }) >>= _) = _
  rw [hback, hjoin, hpk]
  exact haddr

/-! ## an executable instance -/

def bytesNat (base : Nat) (b : Bytes) : Nat := b.foldl (fun n x => n * base + x.toNat) 0

def Crypto.plain : Crypto where
  keccak256 b := BitVec.ofNat 256 (bytesNat 257 (1 :: b))
  secpSign digest sk :=
    if digest.length = 32 ∧ sk.length = 32 then .ok (digest ++ sk ++ [0])
    else .error (.err (.new "invalid length"))
  recoverPubkey digest raw :=
    if raw.take 32 = digest then .ok ((raw.drop 32).take 32)
    else .error (.err (.new "recovery failed"))
  pubkeyToAddress pk :=
    if pk.length = 32 then .ok (BitVec.ofNat 160 (bytesNat 256 pk))
    else .error (.err (.new "invalid secp256k1 public key"))
  secretKeyToAddress sk := if sk.length = 32 then some (BitVec.ofNat 160 (bytesNat 256 sk)) else none

theorem signCorrect_plain : SignCorrect Crypto.plain where
  format := by
    intro digest sk raw h
    simp only [Crypto.plain] at h
    split at h
    · next hlen =>
      cases h
      refine ⟨by simp [hlen.1, hlen.2], fun v hv => ?_⟩
      rw [List.getElem?_append_right (by simp [hlen.1, hlen.2])] at hv
      simp only [List.length_append, hlen.1, hlen.2, Nat.sub_self, List.getElem?_cons_zero,
        Option.some.injEq] at hv
      subst hv
      decide
    · cases h
  recovers := by
    intro digest sk raw a h ha
    simp only [Crypto.plain] at h ha ⊢
    split at h
    · next hlen =>
      cases h
      have hd : (digest ++ sk ++ [(0 : UInt8)]).take 32 = digest := by
        rw [List.append_assoc, List.take_left' hlen.1]
      have hk : ((digest ++ sk ++ [(0 : UInt8)]).drop 32).take 32 = sk := by
        rw [List.append_assoc, List.drop_left' hlen.1, List.take_left' hlen.2]
      refine ⟨sk, by rw [if_pos hd, hk], ?_⟩
      rw [if_pos hlen.2] at ha ⊢
      rw [Option.some.inj ha]
    · cases h

end Nitro
