import Mathlib.Tactic

/-!
# SRTP protection profiles

`ProtectionProfile` of `rtc-srtp/src/protection_profile.rs`: the tag and salt lengths of the six
profiles.
-/

namespace Rtc.Srtp

/-- `ProtectionProfile` (`protection_profile.rs:30-49`). -/
inductive ProtectionProfile where
  | aes128CmHmacSha1_80
  | aes128CmHmacSha1_32
  | aes256CmHmacSha1_80
  | aes256CmHmacSha1_32
  | aeadAes128Gcm
  | aeadAes256Gcm
  deriving DecidableEq, Repr

namespace ProtectionProfile

/-- The profiles `Context::new` hands to `CipherAeadAesGcm` (`context/mod.rs:131-150`). -/
def isAead : ProtectionProfile → Bool
  | .aeadAes128Gcm | .aeadAes256Gcm => true
  | _ => false

/-- `ProtectionProfile::salt_len` (`protection_profile.rs:86-94`). -/
def saltLen : ProtectionProfile → Nat
  | .aeadAes128Gcm | .aeadAes256Gcm => 12
  | _ => 14

/-- `ProtectionProfile::rtp_auth_tag_len` (`protection_profile.rs:97-103`). -/
def rtpAuthTagLen : ProtectionProfile → Nat
  | .aes128CmHmacSha1_80 | .aes256CmHmacSha1_80 => 10
  | .aes128CmHmacSha1_32 | .aes256CmHmacSha1_32 => 4
  | .aeadAes128Gcm | .aeadAes256Gcm => 0

/-- `ProtectionProfile::rtcp_auth_tag_len` (`protection_profile.rs:106-114`). -/
def rtcpAuthTagLen : ProtectionProfile → Nat
  | .aeadAes128Gcm | .aeadAes256Gcm => 0
  | _ => 10

/-- `ProtectionProfile::aead_auth_tag_len` (`protection_profile.rs:117-125`). -/
def aeadAuthTagLen : ProtectionProfile → Nat
  | .aeadAes128Gcm | .aeadAes256Gcm => 16
  | _ => 0

variable {p : ProtectionProfile}

theorem rtcpAuthTagLen_of_not_isAead (h : p.isAead = false) : p.rtcpAuthTagLen = 10 := by
  cases p <;> simp_all [isAead, rtcpAuthTagLen]

theorem aeadAuthTagLen_of_not_isAead (h : p.isAead = false) : p.aeadAuthTagLen = 0 := by
  cases p <;> simp_all [isAead, aeadAuthTagLen]

theorem rtpAuthTagLen_of_isAead (h : p.isAead = true) : p.rtpAuthTagLen = 0 := by
  cases p <;> simp_all [isAead, rtpAuthTagLen]

theorem rtcpAuthTagLen_of_isAead (h : p.isAead = true) : p.rtcpAuthTagLen = 0 := by
  cases p <;> simp_all [isAead, rtcpAuthTagLen]

theorem aeadAuthTagLen_of_isAead (h : p.isAead = true) : p.aeadAuthTagLen = 16 := by
  cases p <;> simp_all [isAead, aeadAuthTagLen]

theorem rtpAuthTagLen_le (p : ProtectionProfile) : p.rtpAuthTagLen ≤ 20 := by
  cases p <;> decide

end ProtectionProfile
end Rtc.Srtp
