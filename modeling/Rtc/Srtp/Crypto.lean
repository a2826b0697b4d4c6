import Rtc.Lib.Bytes

/-!
# Keyed cryptographic operations

The traits of `rtc-crypto/src/traits.rs` that the SRTP ciphers call, already keyed. An operation is any function with
the lengths its trait documents, and it may fail with the text of its `CryptoError`.
-/

namespace Rtc.Srtp

/-- `Mac` keyed for HMAC-SHA1 (`traits.rs:151-163`): the tag over a message. -/
structure Mac where
  sign : List Byte → Except String (List Byte)
  length_sign : ∀ input tag, sign input = .ok tag → tag.length = 20

/-- `StreamCipher` (`traits.rs:166-169`): the data with the keystream of `iv` applied. -/
structure StreamCipher where
  applyKeystream : (iv data : List Byte) → Except String (List Byte)
  length_applyKeystream : ∀ iv data out, applyKeystream iv data = .ok out → out.length = data.length

/-- `AeadCipher` with a 16-byte detached tag (`traits.rs:172-193`). `CipherAeadAesGcm::new` refuses
    any other tag length. -/
structure AeadCipher where
  sealInPlace : (nonce aad plaintext : List Byte) → Except String (List Byte × List Byte)
  openInPlace : (nonce aad ciphertext tag : List Byte) → Except String (List Byte)
  length_seal : ∀ nonce aad plaintext out, sealInPlace nonce aad plaintext = .ok out →
    out.1.length = plaintext.length ∧ out.2.length = 16
  length_open : ∀ nonce aad ciphertext tag out, openInPlace nonce aad ciphertext tag = .ok out →
    out.length = ciphertext.length

/-! ## Trivial operations

The simplest operations with the documented lengths. -/

/-- A tag of twenty times the byte `k`. -/
def Mac.constant (k : Byte) : Mac where
  sign _ := .ok (List.replicate 20 k)
  length_sign _ tag h := by
    obtain rfl := Except.ok.inj h
    rfl

/-- The stream cipher whose keystream is the byte `k` throughout. -/
def StreamCipher.constant (k : Byte) : StreamCipher where
  applyKeystream _ data := .ok (data.map (· ^^^ k))
  length_applyKeystream _ data out h := by
    obtain rfl := Except.ok.inj h
    simp

/-- The AEAD with the keystream `k` and a tag of zeros, which it opens under any associated data
    that satisfies `accepts`. -/
def AeadCipher.constant (k : Byte) (accepts : List Byte → Bool) : AeadCipher where
  sealInPlace _ _ plaintext := .ok (plaintext.map (· ^^^ k), List.replicate 16 0#8)
  openInPlace _ aad ciphertext _ :=
    if accepts aad then .ok (ciphertext.map (· ^^^ k)) else .error "authentication failed"
  length_seal _ _ plaintext out h := by
    obtain rfl := Except.ok.inj h
    simp
  length_open _ aad ciphertext _ out h := by
    split at h
    · obtain rfl := Except.ok.inj h
      simp
    · cases h

end Rtc.Srtp
