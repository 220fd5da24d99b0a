import Nitro.Contracts.NitroUtils

/-!
# Signatures on their way to the contract

`ConvertSignature` copies `R` and `S` into words and leaves `V` as it is.  The client recovers the signer
from `R` and `S` as they are, one after the other, and takes a `V` from 0 or from 27 on; the precompiled
contract reads words and takes 27 and 28 only.

* `convertSignature`          the conversion;
* `RecoveryFormat`            what the curve library takes;
* `Recoverable`, `Spelled`    signatures that the client may take, and those that the contract reads
                              in the same way;
* `accepted_onchain_iff`      **which signatures the contract takes whenever the client does**.
-/

set_option linter.unusedSectionVars false

namespace Nitro
open Go

/-- `copy(word[:], b)` into a zero word: what is too long is cut off, what is short is filled up on the
right -/
def copyWord (b : Bytes) : Bytes32 :=
  Abi.wordAt (b.take 32 ++ List.replicate (32 - b.length) 0) 0

def convertSignature (s : Signature) : Contracts.Signature where
  v := s.V
  r := copyWord s.R
  s := copyWord s.S

/-- a signature of 65 bytes with a recovery id below 4, and no key has the zero address -/
structure RecoveryFormat (cr : Crypto) : Prop where
  format : ∀ digest raw pk, cr.recoverPubkey digest raw = .ok pk →
    raw.length = 65 ∧ ∀ v, raw[64]? = some v → v < 4
  address : ∀ pk a, cr.pubkeyToAddress pk = .ok a → a ≠ 0

namespace Signature
variable {s : Signature}

/-- `V` as the client uses it -/
def recoveryId (s : Signature) : UInt8 := if s.V ≥ 27 then s.V - 27 else s.V

def Recoverable (s : Signature) : Prop := s.R.length + s.S.length = 64 ∧ s.recoveryId < 4

/-- `V` is one of the two values of the contract, and the two words have the bytes of `R` and `S` -/
def Spelled (s : Signature) : Prop :=
  (s.V = 27 ∨ s.V = 28) ∧
    Abi.wordBytes (copyWord s.R) ++ Abi.wordBytes (copyWord s.S) = s.R ++ s.S

theorem recoveryId_of_spelled (h : s.Spelled) : s.recoveryId = s.V - 27 := by
  unfold recoveryId
  rcases h.1 with e | e <;> rw [e] <;> decide

end Signature

section recover
variable {cr : Crypto} {s : Signature}

theorem recoverEthereumMessageSigner_eq (cr : Crypto) (message : Bytes) (s : Signature) :
    recoverEthereumMessageSigner cr message s =
      cr.recoverPubkey (computeEthereumSignedMessageDigest cr message)
        (s.R ++ s.S ++ [s.recoveryId]) >>= cr.pubkeyToAddress := by
  unfold recoverEthereumMessageSigner joinSignature Signature.recoveryId
  split <;> rfl

theorem digest_eq (cr : Crypto) (h : Bytes32) :
    computeEthereumSignedMessageDigest cr (Abi.wordBytes h) = Abi.wordBytes (cr.keccak256
      (asciiBytes "\x19Ethereum Signed Message:\n32" ++ Abi.wordBytes h)) := by
  have htext : asciiBytes "\x19Ethereum Signed Message:\n" ++ asciiBytes (toString 32) =
      asciiBytes "\x19Ethereum Signed Message:\n32" := by decide
  unfold computeEthereumSignedMessageDigest
  rw [Abi.length_wordBytes, htext]

theorem recoverable_of_ok (hf : RecoveryFormat cr) {message : Bytes} {p : Address}
    (h : recoverEthereumMessageSigner cr message s = .ok p) : s.Recoverable ∧ p ≠ 0 := by
  rw [recoverEthereumMessageSigner_eq] at h
  obtain ⟨pk, hpk, hp⟩ := Res.bind_eq_ok.1 h
  obtain ⟨hlen, hv⟩ := hf.format _ _ _ hpk
  have hRS : (s.R ++ s.S).length = 64 := by
    rw [List.length_append] at hlen
    exact Nat.succ.inj hlen
  have hlast : (s.R ++ s.S ++ [s.recoveryId])[64]? = some s.recoveryId := by
    rw [List.getElem?_append_right (by omega), hRS]
    rfl
  exact ⟨⟨by simpa using hRS, hv _ hlast⟩, hf.address _ _ hp⟩

end recover

namespace Contracts
variable {D : Deployment} {s : Nitro.Signature}

/-- the precompiled contract, for the two values of `V` that it takes -/
theorem ecrecover_eq {sig : Signature} (hv : sig.v = 27 ∨ sig.v = 28) (digest : Bytes32) :
    ecrecover D digest sig = (D.crypto.recoverPubkey (Abi.wordBytes digest)
      (Abi.wordBytes sig.r ++ Abi.wordBytes sig.s ++ [sig.v - 27]) >>=
        D.crypto.pubkeyToAddress).toOption.getD 0 := by
  unfold ecrecover
  rw [if_pos hv]
  cases D.crypto.recoverPubkey (Abi.wordBytes digest)
      (Abi.wordBytes sig.r ++ Abi.wordBytes sig.s ++ [sig.v - 27]) >>= D.crypto.pubkeyToAddress with
  | ok a => rfl
  | error e => rfl

theorem ecrecover_spelled (hs : s.Spelled) (digest : Bytes32) :
    ecrecover D digest (convertSignature s) = (D.crypto.recoverPubkey (Abi.wordBytes digest)
      (s.R ++ s.S ++ [s.recoveryId]) >>= D.crypto.pubkeyToAddress).toOption.getD 0 := by
  have hv : (convertSignature s).v = 27 ∨ (convertSignature s).v = 28 := hs.1
  have hbytes : Abi.wordBytes (convertSignature s).r ++ Abi.wordBytes (convertSignature s).s =
      s.R ++ s.S := hs.2
  rw [ecrecover_eq hv, hbytes, Signature.recoveryId_of_spelled hs]
  rfl

theorem recoverSigner_of_spelled (hs : s.Spelled) {h : Bytes32} {p : Address} (hp : p ≠ 0)
    (hgo : recoverEthereumMessageSigner D.crypto (Abi.wordBytes h) s = .ok p) :
    recoverSigner D h (convertSignature s) = .ok p := by
  rw [recoverEthereumMessageSigner_eq, digest_eq] at hgo
  unfold recoverSigner
  simp only [ecrecover_spelled hs, hgo]
  exact Evm.require_bind_eq_ok.2 ⟨hp, rfl⟩

end Contracts

/-! ## a library that takes one signature only -/

/-- recovers a fixed signature, and refuses every other one -/
def Crypto.only (raw : Bytes) : Crypto where
  keccak256 _ := 0
  secpSign _ _ := .error (.err (.new "no key"))
  recoverPubkey _ raw' := if raw' = raw then .ok [1] else .error (.err (.new "recovery failed"))
  pubkeyToAddress _ := .ok 1
  secretKeyToAddress _ := none

theorem Crypto.only_ne {raw raw' : Bytes} (h : raw' ≠ raw) (digest : Bytes) :
    (Crypto.only raw).recoverPubkey digest raw' = .error (.err (.new "recovery failed")) :=
  if_neg h

def Contracts.Deployment.only (raw : Bytes) : Contracts.Deployment where
  crypto := Crypto.only raw
  chainId := 0
  decodeExit _ := .error ""
  guarantee := 1

namespace Signature
variable {s : Signature}

theorem Recoverable.format (h : s.Recoverable) :
    RecoveryFormat (Crypto.only (s.R ++ s.S ++ [s.recoveryId])) := by
  have hRS : (s.R ++ s.S).length = 64 := by simpa using h.1
  refine ⟨fun digest raw pk hpk => ?_, fun pk a ha => ?_⟩
  · have hraw : raw = s.R ++ s.S ++ [s.recoveryId] := by
      by_contra hne
      rw [Crypto.only_ne hne] at hpk
      cases hpk
    rw [hraw]
    refine ⟨by rw [List.length_append, hRS]; rfl, fun v hv => ?_⟩
    rw [List.getElem?_append_right (by omega), hRS] at hv
    cases hv
    exact h.2
  · have ha : (1 : Address) = a := Except.ok.inj ha
    rw [← ha]
    decide

theorem spelled_of_recoverSigner {h : Bytes32} {p : Address}
    (hok : Contracts.recoverSigner (.only (s.R ++ s.S ++ [s.recoveryId])) h (convertSignature s) =
      .ok p) : s.Spelled := by
  obtain ⟨hne, -⟩ := Evm.require_bind_eq_ok.1 hok
  by_cases hv : (convertSignature s).v = 27 ∨ (convertSignature s).v = 28
  · rw [Contracts.ecrecover_eq hv] at hne
    have hraw : Abi.wordBytes (convertSignature s).r ++ Abi.wordBytes (convertSignature s).s ++
        [(convertSignature s).v - 27] = s.R ++ s.S ++ [s.recoveryId] := by
      by_contra hraw
      refine hne ?_
      show ((Crypto.only _).recoverPubkey _ _ >>= _).toOption.getD 0 = 0
      rw [Crypto.only_ne hraw]
      rfl
    exact ⟨hv, (List.append_inj' hraw rfl).1⟩
  · unfold Contracts.ecrecover at hne
    exact absurd (if_neg hv) hne

/-- **a signature that the client takes is one that the contract takes**, whatever the curve library is,
exactly if it is spelled as the contract reads it or the client never takes it -/
theorem accepted_onchain_iff (s : Signature) :
    (∀ (D : Contracts.Deployment) (h : Bytes32) (p : Address), RecoveryFormat D.crypto →
      recoverEthereumMessageSigner D.crypto (Abi.wordBytes h) s = .ok p →
        Contracts.recoverSigner D h (convertSignature s) = .ok p) ↔
      (s.Recoverable → s.Spelled) := by
  refine ⟨fun hall hr => ?_, fun hcond D h p hf hgo => ?_⟩
  · have hgo : recoverEthereumMessageSigner (Crypto.only (s.R ++ s.S ++ [s.recoveryId]))
        (Abi.wordBytes 0) s = .ok 1 := by
      rw [recoverEthereumMessageSigner_eq]
      show (if _ = _ then (Except.ok [1] : Res Bytes) else _) >>= _ = _
      rw [if_pos rfl]
      rfl
    exact spelled_of_recoverSigner (hall (.only _) 0 1 hr.format hgo)
  · obtain ⟨hr, hp⟩ := recoverable_of_ok hf hgo
    exact Contracts.recoverSigner_of_spelled (hcond hr) hp hgo

end Signature

namespace Sample

/-- a signature with the recovery id 0 where the contract wants 27 -/
def rawV : Signature := ⟨List.replicate 32 1, List.replicate 32 2, 0⟩

end Sample

namespace Signature

theorem rawV_refused :
    RecoveryFormat (Contracts.Deployment.only (List.replicate 32 1 ++ List.replicate 32 2 ++
        [0])).crypto ∧
      recoverEthereumMessageSigner (Contracts.Deployment.only
        (List.replicate 32 1 ++ List.replicate 32 2 ++ [0])).crypto (Abi.wordBytes 7) Sample.rawV =
          .ok 1 ∧
      Contracts.recoverSigner (Contracts.Deployment.only
        (List.replicate 32 1 ++ List.replicate 32 2 ++ [0])) 7 (convertSignature Sample.rawV) =
          .error "Invalid signature" := by
  have hr : Sample.rawV.Recoverable := ⟨rfl, by decide⟩
  exact ⟨hr.format, by decide +kernel, by decide +kernel⟩

end Signature

end Nitro
