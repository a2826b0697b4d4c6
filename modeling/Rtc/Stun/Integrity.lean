import Rtc.Stun.Message

/-!
# MESSAGE-INTEGRITY and FINGERPRINT

`rtc-stun/src/integrity.rs` and `fingerprint.rs`. The crypto provider and the CRC are not part of this
development: both are parameters.
-/

namespace Rtc.Stun
open Bytes Shared

/-! ## Message integrity -/

/-- `MESSAGE_INTEGRITY_SIZE` (`integrity.rs:78`). -/
abbrev messageIntegritySize : Nat := 20

/-- A keyed `Mac` of HMAC-SHA1 (`rtc-crypto/src/traits.rs:151-163`): the tag of a message, or the text of a
    `CryptoError`. -/
structure Mac where
  sign : List Byte → Except String (Vector Byte messageIntegritySize)

/-- The part of `RTCCrypto` that STUN uses: `new_hmac` for HMAC-SHA1. -/
structure Crypto where
  newHmac : (key : List Byte) → Except String Mac

/-- The `CryptoError`s that `check` tells apart. -/
inductive VerifyError
  | authenticationFailed
  | invalidTagLength
  | other (message : String)

/-- `Mac::verify` of the providers (`rtc-crypto/src/providers/ring.rs:229-238`). -/
def Mac.verify (mac : Mac) (input expected : List Byte) : Except VerifyError Unit :=
  if expected.length ≠ messageIntegritySize then .error .invalidTagLength
  else
    match mac.sign input with
    | .error message => .error (.other message)
    | .ok tag => if tag.toList = expected then .ok () else .error .authenticationFailed

namespace MessageIntegrity

/-- `MessageIntegrity::add_to` (`integrity.rs:46-75`). -/
def addTo (crypto : Crypto) (key : List Byte) : Setter := fun m =>
  if m.attributes.any (·.typ = attrFingerprint) then Parse.fail .errFingerprintBeforeIntegrity
  else do
    let length := m.length
    let longer ← addLength m.length (messageIntegritySize + attributeHeaderSize)
    let m := Message.writeLength { m with length := longer }
    let result := do
      let mac ← crypto.newHmac key
      mac.sign m.raw
    let m := Message.writeLength { m with length := length }
    match result with
    | .error message => Parse.fail (.crypto message)
    | .ok value => m.add attrMessageIntegrity value.toList

/-- The loop of `check` (`integrity.rs:146-154`): the size of the attributes after the first
    MESSAGE-INTEGRITY. -/
def sizeReduced : (afterIntegrity : Bool) → List RawAttribute → Nat
  | _, [] => 0
  | afterIntegrity, a :: attributes =>
    (if afterIntegrity then nearestPaddedValueLength a.length.toNat + attributeHeaderSize else 0) +
      sizeReduced (afterIntegrity || a.typ = attrMessageIntegrity) attributes

/-- `MessageIntegrity::check` (`integrity.rs:136-173`): the outcome, and the message, whose length is
    changed for the time of the check. -/
def check (crypto : Crypto) (m : Message) (key : List Byte) : Parse Error Unit × Message :=
  match m.get attrMessageIntegrity with
  | .error e => (Parse.fail e, m)
  | .ok v =>
    let length := m.length
    let reduced := sizeReduced false m.attributes % 2 ^ 32
    if m.length < reduced then (.error .panicked, m)
    else
      let m := Message.writeLength { m with length := m.length - reduced }
      if messageHeaderSize + m.length < attributeHeaderSize + messageIntegritySize then (.error .panicked, m)
      else
        let startOfHmac := messageHeaderSize + m.length - (attributeHeaderSize + messageIntegritySize)
        match Parse.slice m.raw 0 startOfHmac with
        | .error e => (.error e, m)
        | .ok b =>
          let result : Except VerifyError Unit :=
            match crypto.newHmac key with
            | .error message => .error (.other message)
            | .ok mac => mac.verify b v
          let m := Message.writeLength { m with length := length }
          match result with
          | .ok () => (.ok (), m)
          | .error .authenticationFailed => (Parse.fail .errIntegrityMismatch, m)
          | .error .invalidTagLength => (Parse.fail .errIntegrityMismatch, m)
          | .error (.other message) => (Parse.fail (.crypto message), m)

end MessageIntegrity

/-! ## Fingerprint -/

/-- `FINGERPRINT_XOR_VALUE` (`fingerprint.rs:25`). -/
abbrev fingerprintXorValue : BitVec 32 := 0x5354554e#32

/-- `FINGERPRINT_SIZE` (`fingerprint.rs:27`). -/
abbrev fingerprintSize : Nat := 4

namespace FingerprintAttr

-- the CRC-32 of `crc_fast`
variable (crc : List Byte → BitVec 32)

/-- `fingerprint_value` (`fingerprint.rs:42-45`). -/
def fingerprintValue (b : List Byte) : BitVec 32 := crc b ^^^ fingerprintXorValue

/-- `FingerprintAttr::add_to` (`fingerprint.rs:49-59`). -/
def addTo : Setter := fun m => do
  let l := m.length
  let longer ← addLength m.length (fingerprintSize + attributeHeaderSize)
  let m := Message.writeLength { m with length := longer }
  let val := fingerprintValue crc m.raw
  Message.add { m with length := l } attrFingerprint (toBe32 val)

/-- `FingerprintAttr::check` (`fingerprint.rs:65-72`). -/
def check (m : Message) : Parse Error Unit :=
  match m.get attrFingerprint with
  | .error e => Parse.fail e
  | .ok b =>
    if b.length ≠ fingerprintSize then Parse.fail .errAttributeSizeInvalid
    else do
      let b₀ ← Parse.index b 0
      let b₁ ← Parse.index b 1
      let b₂ ← Parse.index b 2
      let b₃ ← Parse.index b 3
      let val := be32 b₀ b₁ b₂ b₃
      if m.raw.length < fingerprintSize + attributeHeaderSize then .error .panicked
      else do
        let covered ← Parse.slice m.raw 0 (m.raw.length - (fingerprintSize + attributeHeaderSize))
        if val = fingerprintValue crc covered then .ok () else Parse.fail .errFingerprintMismatch

end FingerprintAttr
end Rtc.Stun
