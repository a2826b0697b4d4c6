import Rtc.Rtp.Header
import Rtc.Srtp.Crypto
import Rtc.Srtp.ProtectionProfile

/-!
# The SRTP ciphers

The `Cipher` trait of `rtc-srtp/src/cipher/mod.rs` and its two implementations, keyed. A function returns the packet
that the source changes in place. Slices within checked bounds are `take` and `drop`.
-/

namespace Rtc.Srtp
open Bytes Shared

/-- `SRTCP_INDEX_SIZE` (`key_derivation.rs:13`). -/
def srtcpIndexSize : Nat := 4

/-- `crypto_error` (`cipher/mod.rs:11-13`). -/
def cryptoError {α : Type} (r : Except String α) : Except Error α := r.mapError Error.crypto

/-- `*v ^= salt[i]` over the first bytes of `bs`. -/
def xorSalt : (salt bs : List Byte) → List Byte
  | [], bs => bs
  | _ :: _, [] => []
  | s :: salt, b :: bs => (b ^^^ s) :: xorSalt salt bs

/-- `generate_counter` (`key_derivation.rs:125-149`). -/
def generateCounter (sequenceNumber : BitVec 16) (rolloverCounter ssrc : BitVec 32)
    (sessionSalt : List Byte) : List Byte :=
  xorSalt sessionSalt
    (List.replicate 4 0#8 ++ toBe32 ssrc ++ toBe32 rolloverCounter ++
      toBe32 (sequenceNumber.setWidth 32 <<< 16))

/-! ## AES-CM with HMAC-SHA1 -/

/-- `CipherAesCmHmacSha1` (`cipher_aes_cm_hmac_sha1.rs:16-26`), as `new` returns it: with a profile it
    accepts and salts of the profile's length. -/
structure CipherAesCmHmacSha1 where
  profile : ProtectionProfile
  srtpSessionSalt : List Byte
  srtpSessionAuth : Mac
  srtcpSessionSalt : List Byte
  srtcpSessionAuth : Mac
  srtpCipher : StreamCipher
  srtcpCipher : StreamCipher
  profile_isCm : profile.isAead = false
  length_srtpSessionSalt : srtpSessionSalt.length = profile.saltLen
  length_srtcpSessionSalt : srtcpSessionSalt.length = profile.saltLen

namespace CipherAesCmHmacSha1

/-- `generate_srtp_auth_tag` (`cipher_aes_cm_hmac_sha1.rs:129-135`). -/
def generateSrtpAuthTag (c : CipherAesCmHmacSha1) (buf : List Byte) (roc : BitVec 32) :
    Except Error (List Byte) :=
  cryptoError (c.srtpSessionAuth.sign (buf ++ toBe32 roc))

/-- `generate_srtcp_auth_tag` (`cipher_aes_cm_hmac_sha1.rs:138-144`). -/
def generateSrtcpAuthTag (c : CipherAesCmHmacSha1) (buf : List Byte) : Except Error (List Byte) :=
  cryptoError (c.srtcpSessionAuth.sign buf)

/-- `get_rtcp_index` (`cipher_aes_cm_hmac_sha1.rs:163-167`). -/
def getRtcpIndex (c : CipherAesCmHmacSha1) (input : List Byte) : Nat :=
  let tailOffset := input.length - (c.profile.rtcpAuthTagLen + srtcpIndexSize)
  (readU32 input tailOffset &&& 0x7FFFFFFF#32).toNat

/-- `encrypt_rtp_in_place` (`cipher_aes_cm_hmac_sha1.rs:169-198`). -/
def encryptRtpInPlace (c : CipherAesCmHmacSha1) (packet : List Byte) (header : Rtp.Header)
    (roc : BitVec 32) : Except Error (List Byte) := do
  let headerLen := header.marshalSize
  if packet.length < headerLen then throw .errTooShortRtp
  let counter := generateCounter header.sequenceNumber roc header.ssrc c.srtpSessionSalt
  let payload ← cryptoError (c.srtpCipher.applyKeystream counter (packet.drop headerLen))
  let packet := packet.take headerLen ++ payload
  let fullAuthTag ← c.generateSrtpAuthTag packet roc
  return packet ++ fullAuthTag.take c.profile.rtpAuthTagLen

/-- `decrypt_rtp_in_place` (`cipher_aes_cm_hmac_sha1.rs:200-243`). -/
def decryptRtpInPlace (c : CipherAesCmHmacSha1) (packet : List Byte) (header : Rtp.Header)
    (roc : BitVec 32) : Except Error (List Byte) := do
  if packet.length < c.profile.rtpAuthTagLen then
    throw (.srtpTooSmall packet.length c.profile.rtpAuthTagLen)
  let tagOffset := packet.length - c.profile.rtpAuthTagLen
  let cipherText := packet.take tagOffset
  let actualTag := packet.drop tagOffset
  let fullExpectedTag ← c.generateSrtpAuthTag cipherText roc
  if actualTag ≠ fullExpectedTag.take c.profile.rtpAuthTagLen then
    throw .rtpFailedToVerifyAuthTag
  let counter := generateCounter header.sequenceNumber roc header.ssrc c.srtpSessionSalt
  let headerLen := header.marshalSize
  if cipherText.length < headerLen then throw .errTooShortRtp
  let payload ← cryptoError (c.srtpCipher.applyKeystream counter (cipherText.drop headerLen))
  return cipherText.take headerLen ++ payload

/-- The counter of an SRTCP packet (`cipher_aes_cm_hmac_sha1.rs:258-263`, `328-333`). -/
def srtcpCounter (c : CipherAesCmHmacSha1) (srtcpIndex : Nat) (ssrc : BitVec 32) : List Byte :=
  generateCounter (BitVec.ofNat 16 srtcpIndex) (BitVec.ofNat 32 (srtcpIndex / 2 ^ 16)) ssrc
    c.srtcpSessionSalt

/-- `encrypt_rtcp` (`cipher_aes_cm_hmac_sha1.rs:245-278`). -/
def encryptRtcp (c : CipherAesCmHmacSha1) (decrypted : List Byte) (srtcpIndex : Nat)
    (ssrc : BitVec 32) : Except Error (List Byte) := do
  let payload ← cryptoError
    (c.srtcpCipher.applyKeystream (c.srtcpCounter srtcpIndex ssrc) (decrypted.drop 8))
  let writer := decrypted.take 8 ++ payload ++
    toBe32 (BitVec.ofNat 32 srtcpIndex ||| (1#32 <<< 31))
  let fullAuthTag ← c.generateSrtcpAuthTag writer
  return writer ++ fullAuthTag.take c.profile.rtcpAuthTagLen

/-- `decrypt_rtcp` (`cipher_aes_cm_hmac_sha1.rs:280-340`). The packet is returned as it stands when
    its E bit is clear. -/
def decryptRtcp (c : CipherAesCmHmacSha1) (encrypted : List Byte) (srtcpIndex : Nat)
    (ssrc : BitVec 32) : Except Error (List Byte) := do
  let tagLen := c.profile.rtcpAuthTagLen
  if encrypted.length < tagLen + srtcpIndexSize then
    throw (.srtcpTooSmall encrypted.length (tagLen + srtcpIndexSize))
  let tailOffset := encrypted.length - (tagLen + srtcpIndexSize)
  if tailOffset < 8 then throw .errTooShortRtcp
  let writer := encrypted.take tailOffset
  let isEncrypted := encrypted.getD tailOffset 0#8 >>> 7
  if isEncrypted = 0#8 then return writer
  let actualTag := encrypted.drop (encrypted.length - tagLen)
  if actualTag.length ≠ tagLen then throw (.rtcpInvalidLengthAuthTag actualTag.length tagLen)
  let cipherText := encrypted.take (encrypted.length - tagLen)
  let fullExpectedTag ← c.generateSrtcpAuthTag cipherText
  if actualTag ≠ fullExpectedTag.take tagLen then throw .rtcpFailedToVerifyAuthTag
  let payload ← cryptoError
    (c.srtcpCipher.applyKeystream (c.srtcpCounter srtcpIndex ssrc) (writer.drop 8))
  return writer.take 8 ++ payload

end CipherAesCmHmacSha1

/-! ## AES-GCM -/

/-- `CipherAeadAesGcm` (`cipher_aead_aes_gcm.rs:18-24`), as `new` returns it. -/
structure CipherAeadAesGcm where
  profile : ProtectionProfile
  srtpCipher : AeadCipher
  srtcpCipher : AeadCipher
  srtpSessionSalt : List Byte
  srtcpSessionSalt : List Byte
  profile_isAead : profile.isAead = true
  length_srtpSessionSalt : srtpSessionSalt.length = profile.saltLen
  length_srtcpSessionSalt : srtcpSessionSalt.length = profile.saltLen

namespace CipherAeadAesGcm

/-- `rtp_initialization_vector` (`cipher_aead_aes_gcm.rs:241-252`). -/
def rtpInitializationVector (c : CipherAeadAesGcm) (header : Rtp.Header) (roc : BitVec 32) :
    List Byte :=
  xorSalt c.srtpSessionSalt
    (List.replicate 2 0#8 ++ toBe32 header.ssrc ++ toBe32 roc ++ toBe16 header.sequenceNumber)

/-- `rtcp_initialization_vector` (`cipher_aead_aes_gcm.rs:261-272`). -/
def rtcpInitializationVector (c : CipherAeadAesGcm) (srtcpIndex : Nat) (ssrc : BitVec 32) :
    List Byte :=
  xorSalt c.srtcpSessionSalt
    (List.replicate 2 0#8 ++ toBe32 ssrc ++ List.replicate 2 0#8 ++
      toBe32 (BitVec.ofNat 32 srtcpIndex))

/-- `rtcp_additional_authenticated_data` (`cipher_aead_aes_gcm.rs:279-292`). The E bit is set
    whatever the packet says. -/
def rtcpAdditionalAuthenticatedData (rtcpPacket : List Byte) (srtcpIndex : Nat) : List Byte :=
  rtcpPacket.take 8 ++ (toBe32 (BitVec.ofNat 32 srtcpIndex)).modify 0 (· ||| 0x80#8)

/-- `get_rtcp_index` (`cipher_aead_aes_gcm.rs:152-157`). -/
def getRtcpIndex (input : List Byte) : Nat :=
  (readU32 input (input.length - 4) &&& 0x7FFFFFFF#32).toNat

/-- `encrypt_rtp_in_place` (`cipher_aead_aes_gcm.rs:41-63`). -/
def encryptRtpInPlace (c : CipherAeadAesGcm) (packet : List Byte) (header : Rtp.Header)
    (roc : BitVec 32) : Except Error (List Byte) := do
  let headerLen := header.marshalSize
  if packet.length < headerLen then throw .errTooShortRtp
  let nonce := c.rtpInitializationVector header roc
  let aad := packet.take headerLen
  let (payload, tag) ← cryptoError (c.srtpCipher.sealInPlace nonce aad (packet.drop headerLen))
  return aad ++ payload ++ tag

/-- `decrypt_rtp_in_place` (`cipher_aead_aes_gcm.rs:65-93`). -/
def decryptRtpInPlace (c : CipherAeadAesGcm) (packet : List Byte) (header : Rtp.Header)
    (roc : BitVec 32) : Except Error (List Byte) := do
  let tagLen := c.profile.aeadAuthTagLen
  if packet.length < tagLen then throw .errFailedToVerifyAuthTag
  let payloadOffset := header.marshalSize
  if packet.length < payloadOffset + tagLen then throw .errFailedToVerifyAuthTag
  let nonce := c.rtpInitializationVector header roc
  let tagOffset := packet.length - tagLen
  let body := packet.take tagOffset
  let tag := packet.drop tagOffset
  let aad := body.take payloadOffset
  let payload ← (c.srtpCipher.openInPlace nonce aad (body.drop payloadOffset) tag).mapError
    fun _ => .errFailedToVerifyAuthTag
  return aad ++ payload

/-- `encrypt_rtcp` (`cipher_aead_aes_gcm.rs:95-117`). -/
def encryptRtcp (c : CipherAeadAesGcm) (decrypted : List Byte) (srtcpIndex : Nat)
    (ssrc : BitVec 32) : Except Error (List Byte) := do
  let iv := c.rtcpInitializationVector srtcpIndex ssrc
  let aad := rtcpAdditionalAuthenticatedData decrypted srtcpIndex
  let (payload, tag) ← cryptoError (c.srtcpCipher.sealInPlace iv aad (decrypted.drop 8))
  return decrypted.take 8 ++ payload ++ tag ++ aad.drop 8

/-- `decrypt_rtcp` (`cipher_aead_aes_gcm.rs:119-150`). -/
def decryptRtcp (c : CipherAeadAesGcm) (encrypted : List Byte) (srtcpIndex : Nat)
    (ssrc : BitVec 32) : Except Error (List Byte) := do
  let tagLen := c.profile.aeadAuthTagLen
  if encrypted.length < tagLen + srtcpIndexSize then throw .errFailedToVerifyAuthTag
  let nonce := c.rtcpInitializationVector srtcpIndex ssrc
  let aad := rtcpAdditionalAuthenticatedData encrypted srtcpIndex
  let tagStart := encrypted.length - srtcpIndexSize - tagLen
  if tagStart < 8 then throw .errFailedToVerifyAuthTag
  let tag := (encrypted.drop tagStart).take tagLen
  let writer := encrypted.take tagStart
  let payload ← (c.srtcpCipher.openInPlace nonce aad (writer.drop 8) tag).mapError
    fun _ => .errFailedToVerifyAuthTag
  return writer.take 8 ++ payload

end CipherAeadAesGcm

/-! ## The trait -/

/-- A boxed `dyn Cipher`. -/
inductive Cipher where
  | aesCmHmacSha1 (c : CipherAesCmHmacSha1)
  | aeadAesGcm (c : CipherAeadAesGcm)

namespace Cipher

/-- The profile the cipher was made for. -/
def profile : Cipher → ProtectionProfile
  | .aesCmHmacSha1 c => c.profile
  | .aeadAesGcm c => c.profile

/-- `Cipher::rtp_auth_tag_len`. -/
def rtpAuthTagLen (c : Cipher) : Nat := c.profile.rtpAuthTagLen

/-- `Cipher::rtcp_auth_tag_len`. -/
def rtcpAuthTagLen (c : Cipher) : Nat := c.profile.rtcpAuthTagLen

/-- `Cipher::aead_auth_tag_len`. -/
def aeadAuthTagLen (c : Cipher) : Nat := c.profile.aeadAuthTagLen

/-- `Cipher::get_rtcp_index`. -/
def getRtcpIndex : Cipher → List Byte → Nat
  | .aesCmHmacSha1 c, input => c.getRtcpIndex input
  | .aeadAesGcm _, input => CipherAeadAesGcm.getRtcpIndex input

/-- `Cipher::encrypt_rtp_in_place`, also `Cipher::encrypt_rtp`, which copies first
    (`cipher/mod.rs:76-83`). -/
def encryptRtpInPlace : Cipher → List Byte → Rtp.Header → BitVec 32 → Except Error (List Byte)
  | .aesCmHmacSha1 c => c.encryptRtpInPlace
  | .aeadAesGcm c => c.encryptRtpInPlace

/-- `Cipher::decrypt_rtp_in_place`, also `Cipher::decrypt_rtp`, which copies first
    (`cipher/mod.rs:86-90`). -/
def decryptRtpInPlace : Cipher → List Byte → Rtp.Header → BitVec 32 → Except Error (List Byte)
  | .aesCmHmacSha1 c => c.decryptRtpInPlace
  | .aeadAesGcm c => c.decryptRtpInPlace

/-- `Cipher::encrypt_rtcp`. -/
def encryptRtcp : Cipher → List Byte → Nat → BitVec 32 → Except Error (List Byte)
  | .aesCmHmacSha1 c => c.encryptRtcp
  | .aeadAesGcm c => c.encryptRtcp

/-- `Cipher::decrypt_rtcp`. -/
def decryptRtcp : Cipher → List Byte → Nat → BitVec 32 → Except Error (List Byte)
  | .aesCmHmacSha1 c => c.decryptRtcp
  | .aeadAesGcm c => c.decryptRtcp

end Cipher

/-- The AES-CM cipher of zero salts with the given operations. -/
def CipherAesCmHmacSha1.ofOperations (profile : ProtectionProfile) (h : profile.isAead = false)
    (mac : Mac) (stream : StreamCipher) : CipherAesCmHmacSha1 where
  profile := profile
  srtpSessionSalt := List.replicate profile.saltLen 0#8
  srtpSessionAuth := mac
  srtcpSessionSalt := List.replicate profile.saltLen 0#8
  srtcpSessionAuth := mac
  srtpCipher := stream
  srtcpCipher := stream
  profile_isCm := h
  length_srtpSessionSalt := List.length_replicate
  length_srtcpSessionSalt := List.length_replicate

/-- The AES-GCM cipher of zero salts with the given operations. -/
def CipherAeadAesGcm.ofOperations (profile : ProtectionProfile) (h : profile.isAead = true)
    (aead : AeadCipher) : CipherAeadAesGcm where
  profile := profile
  srtpCipher := aead
  srtcpCipher := aead
  srtpSessionSalt := List.replicate profile.saltLen 0#8
  srtcpSessionSalt := List.replicate profile.saltLen 0#8
  profile_isAead := h
  length_srtpSessionSalt := List.length_replicate
  length_srtcpSessionSalt := List.length_replicate

end Rtc.Srtp
