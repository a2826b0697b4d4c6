import Rtc.Rtp.Proofs.ExtensionBlock
import Rtc.Srtp.Proofs.Rejection

/-!
# Protection of the RTP payload

What SRTP makes of a packet, given where its header ends, and when `encrypt_rtp` does just that. Both directions look
for the payload at `marshal_size` of the parsed header, which is its end only if elements fill the block.
-/

namespace Rtc.Srtp
open Bytes Shared

namespace Cipher

/-- The operations invert each other and never fail. -/
def Inverts : Cipher → Prop
  | .aesCmHmacSha1 c =>
    (∀ iv data, ∃ out, c.srtpCipher.applyKeystream iv data = .ok out ∧
      c.srtpCipher.applyKeystream iv out = .ok data) ∧
    ∀ data, ∃ tag, c.srtpSessionAuth.sign data = .ok tag
  | .aeadAesGcm c => ∀ nonce aad plaintext, ∃ out,
      c.srtpCipher.sealInPlace nonce aad plaintext = .ok out ∧
      c.srtpCipher.openInPlace nonce aad out.1 out.2 = .ok plaintext

/-- The SRTP packet of a header and a payload: the header in the clear, the payload encrypted under
    the packet's counter or nonce, and the tag over both. -/
def protectPayload (c : Cipher) (header : Rtp.Header) (roc : BitVec 32) (hdr payload : List Byte) :
    Except Error (List Byte) :=
  match c with
  | .aesCmHmacSha1 c => do
    let counter := generateCounter header.sequenceNumber roc header.ssrc c.srtpSessionSalt
    let encrypted ← cryptoError (c.srtpCipher.applyKeystream counter payload)
    let tag ← c.generateSrtpAuthTag (hdr ++ encrypted) roc
    return hdr ++ encrypted ++ tag.take c.profile.rtpAuthTagLen
  | .aeadAesGcm c => do
    let (encrypted, tag) ←
      cryptoError (c.srtpCipher.sealInPlace (c.rtpInitializationVector header roc) hdr payload)
    return hdr ++ encrypted ++ tag

variable {c : Cipher} {header : Rtp.Header} {roc : BitVec 32} {hdr payload out : List Byte}

theorem encryptRtpInPlace_eq (c : Cipher) (packet : List Byte) (header : Rtp.Header)
    (roc : BitVec 32) : c.encryptRtpInPlace packet header roc =
      if packet.length < header.marshalSize then .error .errTooShortRtp
      else c.protectPayload header roc (packet.take header.marshalSize)
        (packet.drop header.marshalSize) := by
  cases c <;> rfl

theorem protectPayload_ok (hc : c.Inverts) (header : Rtp.Header) (roc : BitVec 32)
    (hdr payload : List Byte) : ∃ out, c.protectPayload header roc hdr payload = .ok out := by
  cases c with
  | aesCmHmacSha1 c =>
    obtain ⟨encrypted, hencrypted, -⟩ := hc.1
      (generateCounter header.sequenceNumber roc header.ssrc c.srtpSessionSalt) payload
    obtain ⟨tag, htag⟩ := hc.2 (hdr ++ encrypted ++ toBe32 roc)
    refine ⟨hdr ++ encrypted ++ tag.take c.profile.rtpAuthTagLen, ?_⟩
    simp only [protectPayload, CipherAesCmHmacSha1.generateSrtpAuthTag, hencrypted, cryptoError,
      Except.mapError, bind, Except.bind, htag]
    rfl
  | aeadAesGcm c =>
    obtain ⟨⟨encrypted, tag⟩, hseal, -⟩ := hc (c.rtpInitializationVector header roc) hdr payload
    refine ⟨hdr ++ encrypted ++ tag, ?_⟩
    simp only [protectPayload, hseal, cryptoError, Except.mapError, bind, Except.bind]
    rfl

theorem take_drop_tag (body : List Byte) {tag : List Byte} {n : Nat} (h : tag.length = n) :
    (body ++ tag).take ((body ++ tag).length - n) = body ∧
    (body ++ tag).drop ((body ++ tag).length - n) = tag := by
  have hlen : (body ++ tag).length - n = body.length := by
    rw [List.length_append]
    omega
  rw [hlen]
  exact ⟨List.take_left, List.drop_left⟩

theorem decrypt_protectPayload_aesCm {c : CipherAesCmHmacSha1} (hc : (aesCmHmacSha1 c).Inverts)
    (h : (aesCmHmacSha1 c).protectPayload header roc hdr payload = .ok out)
    (hhdr : hdr.length = header.marshalSize) :
    (∃ body, out = hdr ++ body) ∧ header.marshalSize + c.profile.rtpAuthTagLen ≤ out.length ∧
    c.decryptRtpInPlace out header roc = .ok (hdr ++ payload) := by
  obtain ⟨encrypted, hencrypted, hback⟩ := hc.1
    (generateCounter header.sequenceNumber roc header.ssrc c.srtpSessionSalt) payload
  obtain ⟨tag, htag⟩ := hc.2 (hdr ++ encrypted ++ toBe32 roc)
  have htagLen : (tag.take c.profile.rtpAuthTagLen).length = c.profile.rtpAuthTagLen := by
    have hsign := c.srtpSessionAuth.length_sign _ _ htag
    have hle := c.profile.rtpAuthTagLen_le
    rw [List.length_take]
    omega
  simp only [protectPayload, CipherAesCmHmacSha1.generateSrtpAuthTag, hencrypted, cryptoError,
    Except.mapError, bind, Except.bind, htag] at h
  obtain rfl := Except.ok.inj h
  obtain ⟨htake, hdrop⟩ := take_drop_tag (hdr ++ encrypted) htagLen
  have hlen : (hdr ++ encrypted ++ tag.take c.profile.rtpAuthTagLen).length =
      header.marshalSize + encrypted.length + c.profile.rtpAuthTagLen := by
    rw [List.length_append, List.length_append, htagLen, hhdr]
  refine ⟨⟨_, List.append_assoc _ _ _⟩, by omega, ?_⟩
  unfold CipherAesCmHmacSha1.decryptRtpInPlace
  rw [if_neg (by omega)]
  simp only [bind, Except.bind, pure, Except.pure, htake, hdrop,
    CipherAesCmHmacSha1.generateSrtpAuthTag, cryptoError, htag, Except.mapError, ne_eq,
    not_true_eq_false, if_false]
  rw [if_neg (by rw [List.length_append]; omega), ← hhdr, List.drop_left, List.take_left, hback]

theorem decrypt_protectPayload_gcm {c : CipherAeadAesGcm} (hc : (aeadAesGcm c).Inverts)
    (h : (aeadAesGcm c).protectPayload header roc hdr payload = .ok out)
    (hhdr : hdr.length = header.marshalSize) :
    (∃ body, out = hdr ++ body) ∧ header.marshalSize + c.profile.rtpAuthTagLen ≤ out.length ∧
    c.decryptRtpInPlace out header roc = .ok (hdr ++ payload) := by
  obtain ⟨⟨encrypted, tag⟩, hseal, hopen⟩ := hc (c.rtpInitializationVector header roc) hdr payload
  have htagLen : tag.length = c.profile.aeadAuthTagLen := by
    rw [ProtectionProfile.aeadAuthTagLen_of_isAead c.profile_isAead]
    exact (c.srtpCipher.length_seal _ _ _ _ hseal).2
  simp only [protectPayload, hseal, cryptoError, Except.mapError, bind, Except.bind] at h
  obtain rfl := Except.ok.inj h
  obtain ⟨htake, hdrop⟩ := take_drop_tag (hdr ++ encrypted) htagLen
  have hlen : (hdr ++ encrypted ++ tag).length =
      header.marshalSize + encrypted.length + c.profile.aeadAuthTagLen := by
    rw [List.length_append, List.length_append, htagLen, hhdr]
  have hzero := ProtectionProfile.rtpAuthTagLen_of_isAead c.profile_isAead
  refine ⟨⟨_, List.append_assoc _ _ _⟩, by omega, ?_⟩
  unfold CipherAeadAesGcm.decryptRtpInPlace
  rw [if_neg (by omega), if_neg (by omega)]
  simp only [bind, Except.bind, pure, Except.pure, htake, hdrop]
  rw [← hhdr, List.drop_left, List.take_left, hopen]
  rfl

theorem decryptRtpInPlace_protectPayload (hc : c.Inverts) (h : c.protectPayload header roc hdr payload = .ok out)
    (hhdr : hdr.length = header.marshalSize) :
    (∃ body, out = hdr ++ body) ∧ header.marshalSize + c.rtpAuthTagLen ≤ out.length ∧
    c.decryptRtpInPlace out header roc = .ok (hdr ++ payload) := by
  cases c with
  | aesCmHmacSha1 c => exact decrypt_protectPayload_aesCm hc h hhdr
  | aeadAesGcm c => exact decrypt_protectPayload_gcm hc h hhdr

end Cipher

namespace Context

/-- A sender and a receiver of the same keys that agree on the rollover counter of the packet's SSRC;
    the sender has indices left and the receiver has not seen the packet. -/
structure Peers (cipher : Cipher) (header : Rtp.Header) (sender peer : Context) : Prop where
  senderCipher : sender.cipher = cipher
  peerCipher : peer.cipher = cipher
  index : (peer.srtpSsrcState header.ssrc).index = (sender.srtpSsrcState header.ssrc).index
  processed : (peer.srtpSsrcState header.ssrc).rolloverHasProcessed =
    (sender.srtpSsrcState header.ssrc).rolloverHasProcessed
  notRefused :
    ((sender.srtpSsrcState header.ssrc).nextRolloverCount header.sequenceNumber).2.2 = false
  notReplayed : (checkReplay (peer.srtpSsrcState header.ssrc).replayDetector
    header.sequenceNumber.toNat).1 = true

/-- The packet `p` is protected from the end of its header on, with its header unchanged, and comes
    back as it was. -/
def ProtectsPayload (cipher : Cipher) (p : List Byte) : Prop :=
  ∀ header rest sender peer, Rtp.Header.unmarshal p = .ok (header, rest) →
    Peers cipher header sender peer →
    ∃ out, (sender.encryptRtp p).1 = .ok out ∧
      cipher.protectPayload header
        ((sender.srtpSsrcState header.ssrc).nextRolloverCount header.sequenceNumber).1
        (p.take (Rtp.headerLength p)) (p.drop (Rtp.headerLength p)) = .ok out ∧
      out.take (Rtp.headerLength p) = p.take (Rtp.headerLength p) ∧
      (peer.decryptRtp out).1 = .ok p

variable {cipher : Cipher} {header : Rtp.Header} {sender peer : Context}
  {p out rest : List Byte} (profile : ProtectionProfile)

theorem encryptRtp_fst (hp : Rtp.Header.unmarshal p = .ok (header, rest))
    (hpeers : Peers cipher header sender peer) : (sender.encryptRtp p).1 =
      cipher.encryptRtpInPlace p header
        ((sender.srtpSsrcState header.ssrc).nextRolloverCount header.sequenceNumber).1 := by
  have hcipher : (sender.setSrtpSsrcState header.ssrc
    (sender.srtpSsrcState header.ssrc)).cipher = cipher := hpeers.senderCipher
  simp only [encryptRtp, hp, encryptRtpWithHeader, encryptRtpUnderState, hpeers.notRefused,
    Bool.false_eq_true, if_false, hcipher]
  cases cipher.encryptRtpInPlace p header
    ((sender.srtpSsrcState header.ssrc).nextRolloverCount header.sequenceNumber).1 <;> rfl

theorem nextRolloverCount_peer (hpeers : Peers cipher header sender peer) :
    (peer.srtpSsrcState header.ssrc).nextRolloverCount header.sequenceNumber =
      (sender.srtpSsrcState header.ssrc).nextRolloverCount header.sequenceNumber := by
  obtain ⟨-, -, hindex, hprocessed, -, -⟩ := hpeers
  revert hindex hprocessed
  -- the guess reads only the two fields that agree
  rcases peer.srtpSsrcState header.ssrc with ⟨ssrc, index, processed, detector⟩
  rcases sender.srtpSsrcState header.ssrc with ⟨ssrc', index', processed', detector'⟩
  intro hindex hprocessed
  obtain rfl : index = index' := hindex
  obtain rfl : processed = processed' := hprocessed
  rfl

theorem decryptRtp_fst (hout : Rtp.Header.unmarshal out = .ok (header, rest))
    (hlen : header.marshalSize + cipher.rtpAuthTagLen ≤ out.length)
    (hpeers : Peers cipher header sender peer) : (peer.decryptRtp out).1 =
      cipher.decryptRtpInPlace out header
        ((sender.srtpSsrcState header.ssrc).nextRolloverCount header.sequenceNumber).1 := by
  simp only [decryptRtp, hout, decryptRtpWithHeader]
  rw [if_neg (by rw [hpeers.peerCipher]; omega), decryptRtpUnderState_fst, if_pos hpeers.notReplayed,
    nextRolloverCount_peer hpeers, hpeers.peerCipher]

/-- A header of its declared length is all that is left in the clear, and the packet comes back. -/
theorem protectsPayload_of_marshalSize_eq (hc : cipher.Inverts) (hp : Rtp.Header.unmarshal p = .ok (header, rest))
    (hsize : header.marshalSize = Rtp.headerLength p) : ProtectsPayload cipher p := by
  intro header' rest' sender peer hp' hpeers
  obtain ⟨rfl, rfl⟩ := Prod.mk.inj (Except.ok.inj (hp.symm.trans hp'))
  have hle := Rtp.headerLength_le hp
  obtain ⟨out, hout⟩ := Cipher.protectPayload_ok hc header
    ((sender.srtpSsrcState header.ssrc).nextRolloverCount header.sequenceNumber).1
    (p.take (Rtp.headerLength p)) (p.drop (Rtp.headerLength p))
  have htake : (p.take (Rtp.headerLength p)).length = Rtp.headerLength p :=
    List.length_take_of_le hle
  obtain ⟨⟨body, hbody⟩, hlen, hdecrypt⟩ :=
    Cipher.decryptRtpInPlace_protectPayload hc hout (htake.trans hsize.symm)
  refine ⟨out, ?_, hout, ?_, ?_⟩
  · rw [encryptRtp_fst hp hpeers, Cipher.encryptRtpInPlace_eq, if_neg (by omega), hsize, hout]
  · rw [hbody, List.take_left' htake]
  · -- the receiver parses the header it was sent
    have hsplit : p.take (Rtp.headerLength p) ++ p.drop (Rtp.headerLength p) = p :=
      List.take_append_drop _ _
    obtain ⟨rest', hrest⟩ : ∃ rest', Rtp.Header.unmarshal out = .ok (header, rest') := by
      rw [hbody]
      exact Rtp.unmarshal_append body (by rw [hsplit]; exact hp) (by rw [hsplit]; exact htake)
        (by rw [hsplit]; exact hsize)
    rw [decryptRtp_fst hrest hlen hpeers, hdecrypt, hsplit]

/-! ## Where the header is not of its declared length -/

/-- A list cut in two places with every byte after the cut changed was cut in the same place. -/
theorem cut_eq_of_map {f : Byte → Byte} (hf : ∀ x, f x ≠ x) {p : List Byte} {m n : Nat}
    (hm : m ≤ p.length) (hn : n ≤ p.length)
    (h : p.take m ++ (p.drop m).map f = p.take n ++ (p.drop n).map f) : m = n := by
  wlog hlt : m < n generalizing m n with hsymm
  · rcases Nat.lt_or_eq_of_le (Nat.le_of_not_lt hlt) with hgt | heq
    · exact (hsymm hn hm h.symm hgt).symm
    · exact heq.symm
  have hleft : (p.take m ++ (p.drop m).map f)[m]? = p[m]?.map f := by
    rw [List.getElem?_append_right (by rw [List.length_take_of_le hm]), List.length_take_of_le hm,
      List.getElem?_map, List.getElem?_drop, Nat.sub_self, Nat.add_zero]
  have hright : (p.take n ++ (p.drop n).map f)[m]? = p[m]? := by
    rw [List.getElem?_append_left (by rw [List.length_take_of_le hn]; exact hlt),
      List.getElem?_take_of_lt hlt]
  rw [h, hright, List.getElem?_eq_getElem (by omega), Option.map_some] at hleft
  exact absurd (Option.some.inj hleft).symm (hf _)

/-- The cipher of a profile that flips every byte. -/
def flippingCipher (profile : ProtectionProfile) : Cipher :=
  if h : profile.isAead = true then
    .aeadAesGcm (.ofOperations profile h (.constant 0xFF#8 fun _ => true))
  else
    .aesCmHmacSha1 (.ofOperations profile (Bool.not_eq_true _ ▸ h) (.constant 0#8)
      (.constant 0xFF#8))

theorem xor_xor_ones (x : Byte) : x ^^^ 0xFF#8 ^^^ 0xFF#8 = x := by
  rw [BitVec.xor_assoc, BitVec.xor_self, BitVec.xor_zero]

theorem map_flip_flip (data : List Byte) : (data.map (· ^^^ 0xFF#8)).map (· ^^^ 0xFF#8) = data := by
  rw [List.map_map]
  exact (List.map_congr_left fun x _ => xor_xor_ones x).trans (List.map_id data)

theorem profile_flippingCipher : (flippingCipher profile).profile = profile := by
  unfold flippingCipher
  split <;> rfl

theorem inverts_flippingCipher : (flippingCipher profile).Inverts := by
  unfold flippingCipher
  split
  · exact fun _ _ plaintext => ⟨_, rfl, congrArg Except.ok (map_flip_flip plaintext)⟩
  · exact ⟨fun _ data => ⟨_, rfl, congrArg Except.ok (map_flip_flip data)⟩, fun _ => ⟨_, rfl⟩⟩

/-- What the flipping cipher makes of a packet: its bytes, flipped from the payload on, and a tag that
    does not depend on them. -/
theorem protectPayload_flippingCipher :
    ∃ tag, ∀ header roc hdr payload, (flippingCipher profile).protectPayload header roc hdr payload =
      .ok (hdr ++ payload.map (· ^^^ 0xFF#8) ++ tag) := by
  unfold flippingCipher
  split
  · exact ⟨List.replicate 16 0#8, fun _ _ _ _ => rfl⟩
  · exact ⟨_, fun _ _ _ _ => rfl⟩

theorem peers_new (cipher : Cipher) (header : Rtp.Header) :
    Peers cipher header (new cipher none none) (new cipher none none) where
  senderCipher := rfl
  peerCipher := rfl
  index := rfl
  processed := rfl
  notRefused := by
    have hroc : ((new cipher none none).srtpSsrcState header.ssrc).localRoc ≠ maxRoc := by
      change BitVec.ofNat 32 (0 / 2 ^ 16) ≠ maxRoc
      decide
    exact decide_eq_false fun h => hroc h.2
  notReplayed := rfl

/-- A packet is protected exactly from the end of its header on, under every correct cipher of the
    profile and between every two peers, if and only if `marshal_size` of its parsed header is the
    length the header declares. -/
theorem protectsPayload_iff (profile : ProtectionProfile) (p : List Byte) (header : Rtp.Header)
    (rest : List Byte) (hp : Rtp.Header.unmarshal p = .ok (header, rest)) :
    (∀ cipher : Cipher, cipher.profile = profile → cipher.Inverts → ProtectsPayload cipher p) ↔
      header.marshalSize = Rtp.headerLength p := by
  constructor
  · intro hall
    obtain ⟨out, hencrypt, hprotect, -, -⟩ := hall (flippingCipher profile)
      (profile_flippingCipher profile) (inverts_flippingCipher profile) header rest _ _ hp
      (peers_new _ header)
    rw [encryptRtp_fst hp (peers_new _ header), Cipher.encryptRtpInPlace_eq] at hencrypt
    split at hencrypt
    · cases hencrypt
    · rename_i hlen
      -- both packets are flipped from their cut on, so the cuts are the same
      obtain ⟨tag, htag⟩ := protectPayload_flippingCipher profile
      rw [htag] at hencrypt hprotect
      have hbytes := Except.ok.inj (hencrypt.trans hprotect.symm)
      refine cut_eq_of_map (fun x hx => ?_) (by omega) (Rtp.headerLength_le hp)
        (List.append_cancel_right hbytes)
      have hself : x ^^^ 0xFF#8 ^^^ x = 0#8 := by rw [hx, BitVec.xor_self]
      rw [BitVec.xor_comm x, BitVec.xor_assoc, BitVec.xor_self, BitVec.xor_zero] at hself
      exact absurd hself (by decide)
  · intro hsize cipher _ hc
    exact protectsPayload_of_marshalSize_eq hc hp hsize

/-- A packet of SSRC 7 with the given one-byte extension block and payload. -/
def extendedRtp (block payload : List Byte) : List Byte :=
  [0x90#8, 96#8, 0#8, 1#8, 0#8, 0#8, 0#8, 0#8, 0#8, 0#8, 0#8, 7#8, 0xBE#8, 0xDE#8] ++
    toBe16 (BitVec.ofNat 16 (block.length / 4)) ++ block ++ payload

/-- A block of one element and padding. -/
theorem protectsPayload_padded_block :
    ∃ header rest, Rtp.Header.unmarshal (extendedRtp [0x10#8, 5#8, 0#8, 0#8] [1#8, 2#8]) =
        .ok (header, rest) ∧
      (flippingCipher .aeadAes128Gcm).Inverts ∧
      ProtectsPayload (flippingCipher .aeadAes128Gcm)
        (extendedRtp [0x10#8, 5#8, 0#8, 0#8] [1#8, 2#8]) := by
  refine ⟨_, _, rfl, inverts_flippingCipher _, ?_⟩
  exact (protectsPayload_iff .aeadAes128Gcm _ _ _ rfl).mpr (by decide +kernel) _ rfl
    (inverts_flippingCipher _)

/-- A reserved id at the start of the block: the block is encrypted with the payload, and the receiver
    parses another header. An element that runs past the block: the payload byte it covers is sent in
    the clear. -/
theorem extension_block_misplaces_payload :
    (let p := extendedRtp [0xF0#8, 1#8, 2#8, 3#8] [4#8, 5#8]
     let ctx := new (flippingCipher .aes128CmHmacSha1_80) none none
     ∃ out, (ctx.encryptRtp p).1 = .ok out ∧ Rtp.headerLength p = 20 ∧ out.take 20 ≠ p.take 20 ∧
       (ctx.decryptRtp out).1 ≠ .ok p) ∧
    (let p := extendedRtp [0x13#8, 1#8, 2#8, 3#8] [4#8, 5#8, 6#8, 7#8, 8#8]
     let ctx := new (flippingCipher .aes128CmHmacSha1_80) none none
     ∃ out, (ctx.encryptRtp p).1 = .ok out ∧ Rtp.headerLength p = 20 ∧
       (out.drop 20).take 4 = (p.drop 20).take 4) := by
  refine ⟨⟨_, rfl, rfl, ?_, ?_⟩, ⟨_, rfl, rfl, ?_⟩⟩
  · decide +kernel
  · decide +kernel
  · decide +kernel

end Context
end Rtc.Srtp
