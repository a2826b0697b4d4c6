import Mathlib.Data.List.GetD
import Rtc.Srtp.Proofs.Rejection

/-!
# Which SRTCP packets are accepted

A packet returned by `decrypt_rtcp` should have been authenticated with its E bit and index. AES-CM returns a packet
whose E bit is clear before it looks at the tag, and AES-GCM authenticates it as if the bit were set.
-/

namespace Rtc.Srtp
open Bytes Shared

/-- The E bit of an SRTCP packet: the top bit of the word before the HMAC tag, or of the last word
    under AES-GCM. -/
def encryptionBit (profile : ProtectionProfile) (b : List Byte) : Bool :=
  b.getD (b.length - (profile.rtcpAuthTagLen + srtcpIndexSize)) 0#8 >>> 7 ≠ 0#8

/-- The authentication tag of `b` verifies under the session keys. For AES-CM the last ten bytes
    are the truncated HMAC of all bytes before them; for AES-GCM the AEAD opens with the first eight
    bytes and the last four as associated data. -/
def RtcpVerified : Cipher → List Byte → Prop
  | .aesCmHmacSha1 c, b => ∃ tag, c.srtcpSessionAuth.sign (b.take (b.length - 10)) = .ok tag ∧
      b.drop (b.length - 10) = tag.take 10
  | .aeadAesGcm c, b => ∃ out,
      c.srtcpCipher.openInPlace
        (c.rtcpInitializationVector (CipherAeadAesGcm.getRtcpIndex b) (readU32 b 4))
        (b.take 8 ++ b.drop (b.length - 4)) ((b.take (b.length - 20)).drop 8)
        ((b.drop (b.length - 20)).take 16) = .ok out

theorem cryptoError_eq_ok {α : Type} {r : Except String α} {a : α} : cryptoError r = .ok a ↔ r = .ok a := by
  cases r <;> simp [cryptoError, Except.mapError]

variable {b : List Byte}

theorem CipherAesCmHmacSha1.verified_of_decryptRtcp (c : CipherAesCmHmacSha1)
    {index : Nat} {ssrc : BitVec 32} {out : List Byte} (hbit : encryptionBit c.profile b = true)
    (hok : c.decryptRtcp b index ssrc = .ok out) : RtcpVerified (.aesCmHmacSha1 c) b := by
  have htag := ProtectionProfile.rtcpAuthTagLen_of_not_isAead c.profile_isCm
  simp only [encryptionBit, htag, decide_eq_true_eq] at hbit
  simp only [decryptRtcp, htag, generateSrtcpAuthTag, bind, Except.bind, pure, Except.pure, throw,
    throwThe, MonadExceptOf.throw] at hok
  rw [if_neg hbit] at hok
  split_ifs at hok
  cases hsign : cryptoError (c.srtcpSessionAuth.sign (b.take (b.length - 10))) with
  | error e => simp [hsign] at hok
  | ok tag =>
    simp only [hsign] at hok
    split_ifs at hok with heq
    exact ⟨tag, cryptoError_eq_ok.mp hsign, not_not.mp heq⟩

theorem CipherAesCmHmacSha1.decryptRtcp_of_not_encrypted (c : CipherAesCmHmacSha1)
    (index : Nat) (ssrc : BitVec 32) (hlen : 22 ≤ b.length) (hbit : encryptionBit c.profile b = false) :
    c.decryptRtcp b index ssrc = .ok (b.take (b.length - 14)) := by
  have htag := ProtectionProfile.rtcpAuthTagLen_of_not_isAead c.profile_isCm
  simp only [encryptionBit, htag, decide_eq_false_iff_not, not_not] at hbit
  simp only [decryptRtcp, htag, srtcpIndexSize, bind, Except.bind, pure, Except.pure, throw,
    throwThe, MonadExceptOf.throw] at hbit ⊢
  rw [if_neg (by omega), if_neg (by omega), if_pos hbit]

/-- The associated data of AES-GCM carries the word of the packet when its E bit is set. -/
theorem CipherAeadAesGcm.aad_eq_of_encrypted (hlen : 4 ≤ b.length)
    (hbit : b.getD (b.length - 4) 0#8 >>> 7 ≠ 0#8) :
    rtcpAdditionalAuthenticatedData b (getRtcpIndex b) = b.take 8 ++ b.drop (b.length - 4) := by
  obtain ⟨w0, w1, w2, w3, hword⟩ : ∃ w0 w1 w2 w3, b.drop (b.length - 4) = [w0, w1, w2, w3] := by
    have hlength : (b.drop (b.length - 4)).length = 4 := by simp; omega
    exact List.length_eq_four.mp hlength
  have hget : ∀ i, i < 4 → b.getD (b.length - 4 + i) 0#8 = [w0, w1, w2, w3].getD i 0#8 := by
    intro i hi
    rw [← hword, List.getD_eq_getElem?_getD, List.getD_eq_getElem?_getD, List.getElem?_drop]
  have h0 := hget 0 (by omega)
  have h1 := hget 1 (by omega)
  have h2 := hget 2 (by omega)
  have h3 := hget 3 (by omega)
  simp only [Nat.add_zero, List.getD_cons_zero, List.getD_cons_succ] at h0 h1 h2 h3
  have hset : ∀ a : Byte, a >>> 7 ≠ 0#8 → (a &&& 0x7F#8) ||| 0x80#8 = a := by decide
  rw [h0] at hbit
  unfold rtcpAdditionalAuthenticatedData getRtcpIndex readU32
  rw [BitVec.ofNat_toNat, BitVec.setWidth_eq, h0, h1, h2, h3, toBe32_be32_and, hword]
  simp [hset w0 hbit]

theorem CipherAeadAesGcm.verified_of_decryptRtcp (c : CipherAeadAesGcm) {out : List Byte}
    (hlen : 28 ≤ b.length) (hbit : encryptionBit c.profile b = true)
    (hok : c.decryptRtcp b (getRtcpIndex b) (readU32 b 4) = .ok out) : RtcpVerified (.aeadAesGcm c) b := by
  have htag := ProtectionProfile.aeadAuthTagLen_of_isAead c.profile_isAead
  have hzero := ProtectionProfile.rtcpAuthTagLen_of_isAead c.profile_isAead
  simp only [encryptionBit, hzero, srtcpIndexSize, Nat.zero_add, decide_eq_true_eq] at hbit
  have hstart : b.length - 4 - 16 = b.length - 20 := by omega
  simp only [decryptRtcp, htag, srtcpIndexSize, bind, Except.bind, pure, Except.pure, throw,
    throwThe, MonadExceptOf.throw, hstart, aad_eq_of_encrypted (by omega) hbit] at hok
  rw [if_neg (by omega), if_neg (by omega)] at hok
  cases hopen : c.srtcpCipher.openInPlace
      (c.rtcpInitializationVector (getRtcpIndex b) (readU32 b 4))
      (b.take 8 ++ b.drop (b.length - 4)) ((b.take (b.length - 20)).drop 8)
      ((b.drop (b.length - 20)).take 16) with
  | error e => simp [hopen, Except.mapError] at hok
  | ok payload => exact ⟨payload, hopen⟩

namespace Context

/-- `decrypt_rtcp` returns `b` only if its tag verifies, and changes the map and the replay windows
    only if it returns `b`. -/
def AcceptsOnlyVerified (ctx : Context) (b : List Byte) : Prop :=
  (∀ out, (ctx.decryptRtcp b).1 = .ok out → RtcpVerified ctx.cipher b) ∧
  ((∀ out, (ctx.decryptRtcp b).1 ≠ .ok out) → Alike ctx (ctx.decryptRtcp b).2)

variable {b : List Byte} {profile : ProtectionProfile}

theorem unmarshal_eq_ok_iff :
    (∃ header, Rtcp.Header.unmarshal b = .ok header) ↔ 4 ≤ b.length ∧ Rtcp.version b = 2#8 := by
  unfold Rtcp.Header.unmarshal
  by_cases hlen : b.length < 4
  · simp [hlen]
  · by_cases hver : Rtcp.version b = 2#8
    · simp [hlen, hver]
      omega
    · simp [hlen, hver]

/-- A packet that is returned has the minimal length and version 2, and the cipher returned it. -/
theorem of_decryptRtcp_ok {ctx : Context} {out : List Byte} (hok : (ctx.decryptRtcp b).1 = .ok out) :
    minRtcpLen ctx.cipher ≤ b.length ∧ Rtcp.version b = 2#8 ∧
      ctx.cipher.decryptRtcp b (ctx.cipher.getRtcpIndex b) (readU32 b 4) = .ok out := by
  rw [decryptRtcp_fst] at hok
  by_cases hlen : b.length < minRtcpLen ctx.cipher
  · simp [hlen] at hok
  rw [if_neg hlen] at hok
  cases hhdr : Rtcp.Header.unmarshal b with
  | error e => simp [hhdr] at hok
  | ok header =>
    simp only [hhdr] at hok
    split_ifs at hok
    exact ⟨by omega, (unmarshal_eq_ok_iff.mp ⟨header, hhdr⟩).2, hok⟩

theorem decryptRtcp_new_fst (cipher : Cipher) (hlen : minRtcpLen cipher ≤ b.length)
    (hver : Rtcp.version b = 2#8) : ((new cipher none none).decryptRtcp b).1 =
      cipher.decryptRtcp b (cipher.getRtcpIndex b) (readU32 b 4) := by
  have hfour : 4 ≤ b.length := by
    unfold minRtcpLen at hlen
    omega
  obtain ⟨header, hhdr⟩ := unmarshal_eq_ok_iff.mpr ⟨hfour, hver⟩
  have hcipher : (new cipher none none).cipher = cipher := rfl
  rw [decryptRtcp_fst, hcipher, if_neg (Nat.not_lt.mpr hlen), hhdr]
  rfl

theorem minRtcpLen_aesCm (c : CipherAesCmHmacSha1) : minRtcpLen (.aesCmHmacSha1 c) = 22 := by
  simp [minRtcpLen, Cipher.rtcpAuthTagLen, Cipher.aeadAuthTagLen, Cipher.profile, srtcpIndexSize,
    ProtectionProfile.rtcpAuthTagLen_of_not_isAead c.profile_isCm,
    ProtectionProfile.aeadAuthTagLen_of_not_isAead c.profile_isCm]

theorem minRtcpLen_gcm (c : CipherAeadAesGcm) : minRtcpLen (.aeadAesGcm c) = 28 := by
  simp [minRtcpLen, Cipher.rtcpAuthTagLen, Cipher.aeadAuthTagLen, Cipher.profile, srtcpIndexSize,
    ProtectionProfile.rtcpAuthTagLen_of_isAead c.profile_isAead,
    ProtectionProfile.aeadAuthTagLen_of_isAead c.profile_isAead]

theorem acceptsOnlyVerified_of_encryptionBit {ctx : Context} (hctx : Settled ctx)
    (hb : minRtcpLen ctx.cipher ≤ b.length → Rtcp.version b = 2#8 →
    encryptionBit ctx.cipher.profile b = true) : AcceptsOnlyVerified ctx b := by
  refine ⟨fun out hok => ?_, fun hno => ?_⟩
  · obtain ⟨hlen, hver, hdec⟩ := of_decryptRtcp_ok hok
    have hbit := hb hlen hver
    revert hlen hdec hbit
    cases ctx.cipher with
    | aesCmHmacSha1 c => exact fun _ hdec hbit => c.verified_of_decryptRtcp hbit hdec
    | aeadAesGcm c =>
      rw [minRtcpLen_gcm]
      exact fun hlen hdec hbit => c.verified_of_decryptRtcp hlen hbit hdec
  · cases hres : (ctx.decryptRtcp b).1 with
    | error e => exact alike_of_decryptRtcp_error hctx hres
    | ok out => exact absurd hres (hno out)

/-- With a tag that does not match, an AES-CM packet whose E bit is clear is returned all the
    same. -/
theorem not_acceptsOnlyVerified_aesCm (hp : profile.isAead = false)
    (hlen : 22 ≤ b.length) (hver : Rtcp.version b = 2#8) (hbit : encryptionBit profile b = false) :
    ∃ ctx, DecryptReachable ctx ∧ ctx.cipher.profile = profile ∧ ¬ AcceptsOnlyVerified ctx b := by
  -- a MAC whose tag differs from the packet's in its first byte
  let c := CipherAesCmHmacSha1.ofOperations profile hp
    (.constant (~~~ (b.getD (b.length - 10) 0#8))) (.constant 0#8)
  refine ⟨new (.aesCmHmacSha1 c) none none, ⟨_, _, _, [], rfl⟩, rfl, fun hacc => ?_⟩
  have hres := decryptRtcp_new_fst (.aesCmHmacSha1 c) (by rwa [minRtcpLen_aesCm]) hver
  have hdec := c.decryptRtcp_of_not_encrypted (Cipher.getRtcpIndex (.aesCmHmacSha1 c) b)
    (readU32 b 4) hlen hbit
  obtain ⟨tag, hsign, htag⟩ := hacc.1 _ (hres.trans hdec)
  obtain rfl := Except.ok.inj hsign
  have hhead := congrArg (fun l => l.getD 0 0#8) htag
  simp only [List.getD_eq_getElem?_getD, List.getElem?_drop, Nat.add_zero] at hhead
  rw [← List.getD_eq_getElem?_getD] at hhead
  simp at hhead

/-- An AES-GCM packet whose E bit is clear is opened as if it were set, so a cipher that opens only
    under a set bit returns it. -/
theorem not_acceptsOnlyVerified_gcm (hp : profile.isAead = true)
    (hlen : 28 ≤ b.length) (hver : Rtcp.version b = 2#8) (hbit : encryptionBit profile b = false) :
    ∃ ctx, DecryptReachable ctx ∧ ctx.cipher.profile = profile ∧ ¬ AcceptsOnlyVerified ctx b := by
  let c := CipherAeadAesGcm.ofOperations profile hp
    (.constant 0#8 fun aad => aad.getD 8 0#8 >>> 7 ≠ 0#8)
  refine ⟨new (.aeadAesGcm c) none none, ⟨_, _, _, [], rfl⟩, rfl, fun hacc => ?_⟩
  have hres := decryptRtcp_new_fst (.aeadAesGcm c) (by rwa [minRtcpLen_gcm]) hver
  have hset : ∀ y : Byte, (y ||| 0x80#8) >>> 7 ≠ 0#8 := by decide
  have htag : c.profile.aeadAuthTagLen = 16 := ProtectionProfile.aeadAuthTagLen_of_isAead hp
  have hzero := ProtectionProfile.rtcpAuthTagLen_of_isAead hp
  have hdec : ∃ out, c.decryptRtcp b (CipherAeadAesGcm.getRtcpIndex b) (readU32 b 4) = .ok out := by
    have haad : (CipherAeadAesGcm.rtcpAdditionalAuthenticatedData b
        (CipherAeadAesGcm.getRtcpIndex b)).getD 8 0#8 >>> 7 ≠ 0#8 := by
      unfold CipherAeadAesGcm.rtcpAdditionalAuthenticatedData toBe32
      rw [List.getD_append_right _ _ _ _ (by simp)]
      have hsub : 8 - (b.take 8).length = 0 := by simp; omega
      rw [hsub]
      exact hset _
    simp only [CipherAeadAesGcm.decryptRtcp, htag, srtcpIndexSize, bind, Except.bind, pure,
      Except.pure, throw, throwThe, MonadExceptOf.throw]
    rw [if_neg (by omega), if_neg (by omega)]
    simp only [c, CipherAeadAesGcm.ofOperations, AeadCipher.constant, haad, ne_eq,
      not_false_eq_true, decide_true, if_true, Except.mapError]
    exact ⟨_, rfl⟩
  obtain ⟨out, hdec⟩ := hdec
  obtain ⟨payload, hopen⟩ := hacc.1 out (hres.trans hdec)
  simp only [encryptionBit, hzero, srtcpIndexSize, Nat.zero_add, decide_eq_false_iff_not,
    not_not] at hbit
  have hword : (b.take 8 ++ b.drop (b.length - 4)).getD 8 0#8 = b.getD (b.length - 4) 0#8 := by
    rw [List.getD_append_right _ _ _ _ (by simp)]
    have hsub : 8 - (b.take 8).length = 0 := by simp; omega
    rw [hsub, List.getD_eq_getElem?_getD, List.getElem?_drop, List.getD_eq_getElem?_getD,
      Nat.add_zero]
  simp only [c, CipherAeadAesGcm.ofOperations, AeadCipher.constant, hword, hbit, ne_eq,
    not_true_eq_false, decide_false] at hopen
  cases hopen

/-- The SRTCP packets that are accepted only if authentic: for every profile and every byte string,
    whatever the keys and the history of the context, exactly those that are rejected by length or
    version and those whose E bit is set. -/
theorem acceptsOnlyVerified_iff (profile : ProtectionProfile) (b : List Byte) :
    (∀ ctx, DecryptReachable ctx → ctx.cipher.profile = profile → AcceptsOnlyVerified ctx b) ↔
      b.length < 8 + srtcpIndexSize + profile.rtcpAuthTagLen + profile.aeadAuthTagLen ∨
      Rtcp.version b ≠ 2#8 ∨ encryptionBit profile b = true := by
  constructor
  · intro hall
    by_contra hno
    simp only [not_or, not_lt, ne_eq, not_not, Bool.not_eq_true] at hno
    obtain ⟨hlen, hver, hbit⟩ := hno
    obtain ⟨ctx, hreach, hprof, hbad⟩ :
        ∃ ctx, DecryptReachable ctx ∧ ctx.cipher.profile = profile ∧
          ¬ AcceptsOnlyVerified ctx b := by
      cases hp : profile.isAead with
      | false =>
        rw [ProtectionProfile.rtcpAuthTagLen_of_not_isAead hp] at hlen
        exact not_acceptsOnlyVerified_aesCm hp (by unfold srtcpIndexSize at hlen; omega) hver hbit
      | true =>
        rw [ProtectionProfile.aeadAuthTagLen_of_isAead hp] at hlen
        exact not_acceptsOnlyVerified_gcm hp (by unfold srtcpIndexSize at hlen; omega) hver hbit
    exact hbad (hall ctx hreach hprof)
  · rintro hb ctx hreach rfl
    refine acceptsOnlyVerified_of_encryptionBit hreach.settled fun hlen hver => ?_
    rcases hb with hshort | hbad | hbit
    · exact absurd hlen (Nat.not_le.mpr hshort)
    · exact absurd hver hbad
    · exact hbit

/-- A receiver report with a clear E bit and a tag of zeros, where the HMAC is all ones, and its
    counterpart under AES-GCM: both are returned and enter the map, and neither verifies. -/
theorem unauthenticated_rtcp_accepted :
    (let c := Cipher.aesCmHmacSha1
      (.ofOperations .aes128CmHmacSha1_80 rfl (.constant 0xFF#8) (.constant 0#8))
     let b := [0x80#8, 201#8, 0#8, 1#8, 0#8, 0#8, 0#8, 7#8] ++ [0#8, 0#8, 0#8, 5#8] ++
       List.replicate 10 0#8
     let after := (new c none (some (srtcpReplayProtection 64))).decryptRtcp b
     after.1 = .ok [0x80#8, 201#8, 0#8, 1#8, 0#8, 0#8, 0#8, 7#8] ∧
       (after.2.srtcpSsrcStates.lookup 7#32).isSome = true ∧ ¬ RtcpVerified c b) ∧
    (let c := Cipher.aeadAesGcm
      (.ofOperations .aeadAes128Gcm rfl (.constant 0#8 fun aad => aad.getD 8 0#8 >>> 7 ≠ 0#8))
     let b := [0x80#8, 201#8, 0#8, 1#8, 0#8, 0#8, 0#8, 7#8] ++ List.replicate 16 0#8 ++
       [0#8, 0#8, 0#8, 5#8]
     let after := (new c none (some (srtcpReplayProtection 64))).decryptRtcp b
     after.1 = .ok [0x80#8, 201#8, 0#8, 1#8, 0#8, 0#8, 0#8, 7#8] ∧
       (after.2.srtcpSsrcStates.lookup 7#32).isSome = true ∧ ¬ RtcpVerified c b) := by
  refine ⟨⟨by rfl, by rfl, ?_⟩, ⟨by rfl, by rfl, ?_⟩⟩
  · rintro ⟨tag, hsign, htag⟩
    obtain rfl := Except.ok.inj hsign
    exact absurd htag (by decide)
  · rintro ⟨out, hopen⟩
    exact absurd hopen (by simp [CipherAeadAesGcm.ofOperations, AeadCipher.constant])

end Context

end Rtc.Srtp
