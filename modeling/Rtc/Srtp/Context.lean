import Mathlib.Data.List.AList
import Rtc.Rtcp.Header
import Rtc.Rtp.Packet
import Rtc.Srtp.Cipher
import Rtc.Srtp.SsrcState

/-!
# The SRTP context

`Context` of `rtc-srtp/src/context/{mod,srtp,srtcp}.rs`: protection and unprotection of RTP and RTCP under per-SSRC
state. A call returns its result and the context after it. The keyed cipher is fixed.
-/

namespace Rtc.Srtp
open Bytes Shared

/-- `MAX_SEQUENCE_NUMBER` (`option.rs:11`). -/
def maxSequenceNumber : Nat := 65535

/-- `MAX_SRTCP_INDEX` (`option.rs:12`). -/
def maxSrtcpIndex : Nat := 0x7FFFFFFF

/-- `srtp_replay_protection` (`option.rs:15-22`): the detector the factory makes. -/
def srtpReplayProtection (windowSize : Nat) : ReplayDetector :=
  .wrapped (.new windowSize maxSequenceNumber)

/-- `srtcp_replay_protection` (`option.rs:25-32`). -/
def srtcpReplayProtection (windowSize : Nat) : ReplayDetector :=
  .wrapped (.new windowSize maxSrtcpIndex)

/-- `srtp_no_replay_protection` and `srtcp_no_replay_protection` (`option.rs:35-42`). -/
def noReplayProtection : ReplayDetector := .noOp

/-- A map from SSRC to state. -/
abbrev SsrcMap (σ : Type) := AList fun _ : BitVec 32 => σ

/-- `Context` (`context/mod.rs:96-104`). The two factories are represented by the detector they
    make. -/
structure Context where
  cipher : Cipher
  srtpSsrcStates : SsrcMap SrtpSsrcState
  srtcpSsrcStates : SsrcMap SrtcpSsrcState
  newSrtpReplayDetector : ReplayDetector
  newSrtcpReplayDetector : ReplayDetector

namespace Context

/-- The context `Context::new` returns once the cipher is keyed (`context/mod.rs:150-171`). -/
def new (cipher : Cipher) (srtpCtxOpt srtcpCtxOpt : Option ReplayDetector) : Context where
  cipher := cipher
  srtpSsrcStates := ∅
  srtcpSsrcStates := ∅
  newSrtpReplayDetector := srtpCtxOpt.getD noReplayProtection
  newSrtcpReplayDetector := srtcpCtxOpt.getD noReplayProtection

/-- The state an unknown SSRC starts from (`context/mod.rs:181-185`, `context/srtp.rs:25-29`). -/
def newSrtpSsrcState (ctx : Context) (ssrc : BitVec 32) : SrtpSsrcState :=
  ⟨ssrc, 0, false, some ctx.newSrtpReplayDetector⟩

/-- The state an unknown SSRC starts from (`context/mod.rs:192-196`, `context/srtcp.rs:36-40`). -/
def newSrtcpSsrcState (ctx : Context) (ssrc : BitVec 32) : SrtcpSsrcState :=
  ⟨0, ssrc, some ctx.newSrtcpReplayDetector⟩

/-- The state of `ssrc`, that of an unknown one if it has none. -/
def srtpSsrcState (ctx : Context) (ssrc : BitVec 32) : SrtpSsrcState :=
  (ctx.srtpSsrcStates.lookup ssrc).getD (ctx.newSrtpSsrcState ssrc)

/-- The state of `ssrc`, that of an unknown one if it has none. -/
def srtcpSsrcState (ctx : Context) (ssrc : BitVec 32) : SrtcpSsrcState :=
  (ctx.srtcpSsrcStates.lookup ssrc).getD (ctx.newSrtcpSsrcState ssrc)

/-- Store `state` for `ssrc`. -/
def setSrtpSsrcState (ctx : Context) (ssrc : BitVec 32) (state : SrtpSsrcState) : Context :=
  { ctx with srtpSsrcStates := ctx.srtpSsrcStates.insert ssrc state }

/-- Store `state` for `ssrc`. -/
def setSrtcpSsrcState (ctx : Context) (ssrc : BitVec 32) (state : SrtcpSsrcState) : Context :=
  { ctx with srtcpSsrcStates := ctx.srtcpSsrcStates.insert ssrc state }

/-- Store `state` for `ssrc` if the map has an entry for it: what a call that borrows the entry
    leaves behind before it authenticates. -/
def touchSrtpSsrcState (ctx : Context) (ssrc : BitVec 32) (state : SrtpSsrcState) : Context :=
  if (ctx.srtpSsrcStates.lookup ssrc).isSome then ctx.setSrtpSsrcState ssrc state else ctx

/-- Store `state` for `ssrc` if the map has an entry for it. -/
def touchSrtcpSsrcState (ctx : Context) (ssrc : BitVec 32) (state : SrtcpSsrcState) : Context :=
  if (ctx.srtcpSsrcStates.lookup ssrc).isSome then ctx.setSrtcpSsrcState ssrc state else ctx

/-- `set_roc` (`context/mod.rs:208-212`). -/
def setRoc (ctx : Context) (ssrc roc : BitVec 32) : Context :=
  ctx.setSrtpSsrcState ssrc
    { ctx.srtpSsrcState ssrc with index := roc.toNat * 2 ^ 16, rolloverHasProcessed := false }

/-- `set_index` (`context/mod.rs:220-222`). -/
def setIndex (ctx : Context) (ssrc : BitVec 32) (index : Nat) : Context :=
  ctx.setSrtcpSsrcState ssrc
    { ctx.srtcpSsrcState ssrc with srtcpIndex := index % (maxSrtcpIndex + 1) }

end Context

/-- Ask the replay detector, if there is one, about `seq`. -/
def checkReplay (detector : Option ReplayDetector) (seq : Nat) : Bool × Option ReplayDetector :=
  match detector with
  | none => (true, none)
  | some d => ((d.check seq).1, some (d.check seq).2)

namespace Context

/-! ## SRTP -/

/-- `decrypt_rtp_under_state` (`context/srtp.rs:17-51`). -/
def decryptRtpUnderState {α : Type} (ctx : Context) (header : Rtp.Header)
    (decrypt : Cipher → BitVec 32 → Except Error α) : Except Error α × Context :=
  let ssrc := header.ssrc
  let sequenceNumber := header.sequenceNumber
  let state := ctx.srtpSsrcState ssrc
  let (roc, diff, _) := state.nextRolloverCount sequenceNumber
  let (valid, detector) := checkReplay state.replayDetector sequenceNumber.toNat
  let state := { state with replayDetector := detector }
  if valid then
    match decrypt ctx.cipher roc with
    | .error e => (.error e, ctx.touchSrtpSsrcState ssrc state)
    | .ok decrypted =>
      let state := { state with replayDetector := state.replayDetector.map ReplayDetector.accept }
      let state := state.updateRolloverCount sequenceNumber diff
      (.ok decrypted, ctx.setSrtpSsrcState ssrc state)
  else (.error (.srtpSsrcDuplicated ssrc sequenceNumber), ctx.touchSrtpSsrcState ssrc state)

/-- `decrypt_rtp_with_header` (`context/srtp.rs:62-75`). -/
def decryptRtpWithHeader (ctx : Context) (encrypted : List Byte) (header : Rtp.Header) :
    Except Error (List Byte) × Context :=
  if encrypted.length < header.marshalSize + ctx.cipher.rtpAuthTagLen then
    (.error .errTooShortRtp, ctx)
  else
    ctx.decryptRtpUnderState header fun cipher roc => cipher.decryptRtpInPlace encrypted header roc

/-- `decrypt_rtp` (`context/srtp.rs:78-82`). -/
def decryptRtp (ctx : Context) (encrypted : List Byte) : Except Error (List Byte) × Context :=
  match Rtp.Header.unmarshal encrypted with
  | .error e => (.error e, ctx)
  | .ok (header, _) => ctx.decryptRtpWithHeader encrypted header

/-- What `decrypt_rtp_packet` makes of the decrypted bytes (`context/srtp.rs:111-127`). -/
def packetOfDecrypted (header : Rtp.Header) (payloadOffset : Nat) (decrypted : List Byte) :
    Except Error Rtp.Packet :=
  if decrypted.length < payloadOffset then .error .errShortPacket
  else
    (Rtp.Packet.removePadding header.padding (decrypted.drop payloadOffset)).map fun payload =>
      ⟨header, payload⟩

/-- `decrypt_rtp_packet` (`context/srtp.rs:95-128`). -/
def decryptRtpPacket (ctx : Context) (encrypted : List Byte) : Except Error Rtp.Packet × Context :=
  match Rtp.Header.unmarshal encrypted with
  | .error e => (.error e, ctx)
  | .ok (header, rest) =>
    let payloadOffset := encrypted.length - rest.length
    if encrypted.length < header.marshalSize + ctx.cipher.rtpAuthTagLen then
      (.error .errTooShortRtp, ctx)
    else
      match ctx.decryptRtpUnderState header fun cipher roc =>
        cipher.decryptRtpInPlace encrypted header roc with
      | (.error e, ctx) => (.error e, ctx)
      | (.ok decrypted, ctx) => (packetOfDecrypted header payloadOffset decrypted, ctx)

/-- `encrypt_rtp_under_state` (`context/srtp.rs:179-201`). The state is looked up, and made for an
    unknown SSRC, before anything is encrypted. -/
def encryptRtpUnderState {α : Type} (ctx : Context) (header : Rtp.Header)
    (encrypt : Cipher → BitVec 32 → Except Error α) : Except Error α × Context :=
  let state := ctx.srtpSsrcState header.ssrc
  let ctx := ctx.setSrtpSsrcState header.ssrc state
  let (roc, diff, ovf) := state.nextRolloverCount header.sequenceNumber
  if ovf then (.error .errExceededMaxPackets, ctx)
  else
    match encrypt ctx.cipher roc with
    | .error e => (.error e, ctx)
    | .ok encrypted =>
      (.ok encrypted, ctx.setSrtpSsrcState header.ssrc
        (state.updateRolloverCount header.sequenceNumber diff))

/-- `encrypt_rtp_with_header` (`context/srtp.rs:138-146`). -/
def encryptRtpWithHeader (ctx : Context) (plaintext : List Byte) (header : Rtp.Header) :
    Except Error (List Byte) × Context :=
  ctx.encryptRtpUnderState header fun cipher roc => cipher.encryptRtpInPlace plaintext header roc

/-- `encrypt_rtp` (`context/srtp.rs:205-209`). -/
def encryptRtp (ctx : Context) (plaintext : List Byte) : Except Error (List Byte) × Context :=
  match Rtp.Header.unmarshal plaintext with
  | .error e => (.error e, ctx)
  | .ok (header, _) => ctx.encryptRtpWithHeader plaintext header

/-- The buffer `encrypt_rtp_packet` encrypts: the packet as marshalled (`context/srtp.rs:160-170`). -/
def marshalled (packet : Rtp.Packet) : Except Error (List Byte) :=
  let len := packet.marshalSize
  match packet.marshalTo len with
  | .error e => .error e
  | .ok buf =>
    let written := buf.length
    if written ≠ len then .error (.other s!"marshal_to output size {written}, but expect {len}")
    else .ok buf

/-- `encrypt_rtp_packet` (`context/srtp.rs:159-176`). -/
def encryptRtpPacket (ctx : Context) (packet : Rtp.Packet) : Except Error (List Byte) × Context :=
  match marshalled packet with
  | .error e => (.error e, ctx)
  | .ok buf =>
    ctx.encryptRtpUnderState packet.header fun cipher roc =>
      cipher.encryptRtpInPlace buf packet.header roc

/-! ## SRTCP -/

/-- The smallest SRTCP packet of the profile (`context/srtcp.rs:17-20`). -/
def minRtcpLen (cipher : Cipher) : Nat :=
  8 + srtcpIndexSize + cipher.rtcpAuthTagLen + cipher.aeadAuthTagLen

/-- `decrypt_rtcp` (`context/srtcp.rs:9-59`). -/
def decryptRtcp (ctx : Context) (encrypted : List Byte) : Except Error (List Byte) × Context :=
  if encrypted.length < minRtcpLen ctx.cipher then (.error .errTooShortRtcp, ctx)
  else
    match Rtcp.Header.unmarshal encrypted with
    | .error e => (.error e, ctx)
    | .ok _ =>
      let index := ctx.cipher.getRtcpIndex encrypted
      let ssrc := readU32 encrypted 4
      let state := ctx.srtcpSsrcState ssrc
      let (valid, detector) := checkReplay state.replayDetector index
      let state := { state with replayDetector := detector }
      if valid then
        match ctx.cipher.decryptRtcp encrypted index ssrc with
        | .error e => (.error e, ctx.touchSrtcpSsrcState ssrc state)
        | .ok dst =>
          let state :=
            { state with replayDetector := state.replayDetector.map ReplayDetector.accept }
          (.ok dst, ctx.setSrtcpSsrcState ssrc state)
      else (.error (.srtcpSsrcDuplicated ssrc index), ctx.touchSrtcpSsrcState ssrc state)

/-- The index `encrypt_rtcp` moves on to (`context/srtcp.rs:76-79`). -/
def nextSrtcpIndex (index : Nat) : Nat := if maxSrtcpIndex < index + 1 then 0 else index + 1

/-- `encrypt_rtcp` (`context/srtcp.rs:63-83`) around the call of the cipher. The index moves on
    whether or not the cipher succeeds. -/
def encryptRtcpUnderState {α : Type} (ctx : Context) (decrypted : List Byte)
    (encrypt : Cipher → Nat → BitVec 32 → Except Error α) : Except Error α × Context :=
  if decrypted.length < 8 then (.error .errTooShortRtcp, ctx)
  else
    match Rtcp.Header.unmarshal decrypted with
    | .error e => (.error e, ctx)
    | .ok _ =>
      let ssrc := readU32 decrypted 4
      let state := ctx.srtcpSsrcState ssrc
      let index := nextSrtcpIndex state.srtcpIndex
      let ctx := ctx.setSrtcpSsrcState ssrc { state with srtcpIndex := index }
      (encrypt ctx.cipher index ssrc, ctx)

/-- `encrypt_rtcp` (`context/srtcp.rs:63-83`). -/
def encryptRtcp (ctx : Context) (decrypted : List Byte) : Except Error (List Byte) × Context :=
  ctx.encryptRtcpUnderState decrypted fun cipher index ssrc =>
    cipher.encryptRtcp decrypted index ssrc

end Context
end Rtc.Srtp
