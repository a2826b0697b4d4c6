import Rtc.Rtcp.Reports

/-!
# Feedback packets

The payload-specific feedback of `rtc-rtcp/src/payload_feedbacks/` (picture loss, slice loss, full intra
request, receiver estimated maximum bitrate) and, of `transport_feedbacks/`, the rapid
resynchronization request and the congestion control feedback of RFC 8888.
-/

namespace Rtc.Rtcp
open Bytes Shared

/-- `FORMAT_SLI` (`header.rs:44`). -/
def formatSli : Byte := 2#8

/-- `FORMAT_PLI` (`header.rs:46`). -/
def formatPli : Byte := 1#8

/-- `FORMAT_FIR` (`header.rs:48`). -/
def formatFir : Byte := 4#8

/-- `FORMAT_RRR` (`header.rs:52`). -/
def formatRrr : Byte := 5#8

/-- `FORMAT_REMB` (`header.rs:54`). -/
def formatRemb : Byte := 15#8

/-- `FORMAT_CCFB` (`header.rs:59`). -/
def formatCcfb : Byte := 11#8

/-! ## Requests without parameters -/

/-- The serialiser that the two requests without parameters share: two SSRCs after the header. -/
def marshalSsrcPair (format : Byte) (packetType : PacketType) (senderSsrc mediaSsrc : BitVec 32)
    (available : Nat) : Except Error (List Byte) :=
  if available < 12 then .error .bufferTooShort
  else (Header.ofSize format packetType 12).frame 12 available
    (.ok (toBe32 senderSsrc ++ toBe32 mediaSsrc))

/-- The decoder that they share; what is left of the buffer is skipped. -/
def unmarshalSsrcPair (format : Byte) (packetType : PacketType) (raw : List Byte) :
    Parse Error ((BitVec 32 × BitVec 32) × List Byte) :=
  if raw.length < 4 + 4 * 2 then Parse.fail .packetTooShort
  else
    match Header.unmarshal raw with
    | .error e => Parse.fail e
    | .ok h =>
      if h.packetType ≠ packetType ∨ h.count ≠ format then Parse.fail .wrongType
      else do
        let (senderSsrc, reader) ← Parse.getU32 (raw.drop 4)
        let (mediaSsrc, _) ← Parse.getU32 reader
        .ok ((senderSsrc, mediaSsrc), [])

/-- `PictureLossIndication` (`picture_loss_indication/mod.rs:18-23`). -/
structure PictureLossIndication where
  senderSsrc : BitVec 32
  mediaSsrc : BitVec 32
  deriving DecidableEq, Repr

namespace PictureLossIndication

/-- `marshal_size` (`mod.rs:69-73`). -/
def marshalSize (_ : PictureLossIndication) : Nat := 12

/-- `marshal_to` (`mod.rs:78-101`). -/
def marshalTo (p : PictureLossIndication) (available : Nat) : Except Error (List Byte) :=
  marshalSsrcPair formatPli .payloadSpecificFeedback p.senderSsrc p.mediaSsrc available

/-- `unmarshal` (`mod.rs:106-134`). -/
def unmarshal (raw : List Byte) : Parse Error (PictureLossIndication × List Byte) := do
  let ((senderSsrc, mediaSsrc), reader) ← unmarshalSsrcPair formatPli .payloadSpecificFeedback raw
  .ok (⟨senderSsrc, mediaSsrc⟩, reader)

end PictureLossIndication

/-- `RapidResynchronizationRequest` (`rapid_resynchronization_request/mod.rs:20-25`). -/
structure RapidResynchronizationRequest where
  senderSsrc : BitVec 32
  mediaSsrc : BitVec 32
  deriving DecidableEq, Repr

namespace RapidResynchronizationRequest

/-- `marshal_size` (`mod.rs:74-78`). -/
def marshalSize (_ : RapidResynchronizationRequest) : Nat := 12

/-- `marshal_to` (`mod.rs:83-106`). -/
def marshalTo (p : RapidResynchronizationRequest) (available : Nat) : Except Error (List Byte) :=
  marshalSsrcPair formatRrr .transportSpecificFeedback p.senderSsrc p.mediaSsrc available

/-- `unmarshal` (`mod.rs:111-140`). -/
def unmarshal (raw : List Byte) : Parse Error (RapidResynchronizationRequest × List Byte) := do
  let ((senderSsrc, mediaSsrc), reader) ← unmarshalSsrcPair formatRrr .transportSpecificFeedback raw
  .ok (⟨senderSsrc, mediaSsrc⟩, reader)

end RapidResynchronizationRequest

/-! ## Slice loss -/

/-- `SliEntry` (`slice_loss_indication/mod.rs:20-27`). -/
structure SliEntry where
  first : BitVec 16
  number : BitVec 16
  picture : Byte
  deriving DecidableEq, Repr

/-- The word of an entry (`mod.rs:110-112`). -/
def SliEntry.word (s : SliEntry) : BitVec 32 :=
  (s.first.setWidth 32 &&& 0x1FFF#32) <<< 19 ||| (s.number.setWidth 32 &&& 0x1FFF#32) <<< 6 |||
    (s.picture.setWidth 32 &&& 0x3F#32)

/-- The entry of a word (`mod.rs:153-158`). -/
def SliEntry.ofWord (sli : BitVec 32) : SliEntry where
  first := (sli >>> 19 &&& 0x1FFF#32).setWidth 16
  number := (sli >>> 6 &&& 0x1FFF#32).setWidth 16
  picture := (sli &&& 0x3F#32).setWidth 8

/-- `SliceLossIndication` (`mod.rs:31-39`). -/
structure SliceLossIndication where
  senderSsrc : BitVec 32
  mediaSsrc : BitVec 32
  sliEntries : List SliEntry
  deriving DecidableEq, Repr

namespace SliceLossIndication

/-- `raw_size` (`mod.rs:67-69`). -/
def rawSize (p : SliceLossIndication) : Nat := 4 + 8 + p.sliEntries.length * 4

/-- `marshal_size` (`mod.rs:85-89`). -/
def marshalSize (p : SliceLossIndication) : Nat := p.rawSize + getPaddingSize p.rawSize

/-- `header` (`mod.rs:53-60`): the type is that of the transport-specific feedback. -/
def header (p : SliceLossIndication) : Header :=
  .ofSize formatSli .transportSpecificFeedback p.rawSize

/-- `marshal_to` (`mod.rs:94-122`). The count is cut to eight bits before it is compared with the
    largest such number, so this check never fails. -/
def marshalTo (p : SliceLossIndication) (available : Nat) : Except Error (List Byte) :=
  if 255#8 < BitVec.ofNat 8 (p.sliEntries.length + 2) then .error .tooManyReports
  else if available < p.marshalSize then .error .bufferTooShort
  else p.header.frame p.rawSize available
    (.ok (toBe32 p.senderSsrc ++ (toBe32 p.mediaSsrc ++
      p.sliEntries.flatMap fun s => toBe32 s.word)))

/-- The next entry of a buffer. -/
def getEntry (reader : List Byte) : Parse Error (SliEntry × List Byte) := do
  let (sli, reader) ← Parse.getU32 reader
  .ok (SliEntry.ofWord sli, reader)

/-- `unmarshal` (`mod.rs:127-174`): one entry for each word after the second. -/
def unmarshal (raw : List Byte) : Parse Error (SliceLossIndication × List Byte) :=
  if raw.length < 4 + 8 then Parse.fail .packetTooShort
  else
    match Header.unmarshal raw with
    | .error e => Parse.fail e
    | .ok h =>
      if raw.length < 4 + 4 * h.length.toNat then Parse.fail .packetTooShort
      else if h.packetType ≠ .transportSpecificFeedback ∨ h.count ≠ formatSli then
        Parse.fail .wrongType
      else do
        let (senderSsrc, reader) ← Parse.getU32 (raw.drop 4)
        let (mediaSsrc, reader) ← Parse.getU32 reader
        let (sliEntries, _) ← Parse.getMany getEntry (h.length.toNat - 2) reader
        .ok (⟨senderSsrc, mediaSsrc, sliEntries⟩, [])

end SliceLossIndication

/-! ## Full intra request -/

/-- `FirEntry` (`full_intra_request/mod.rs:16-21`). -/
structure FirEntry where
  ssrc : BitVec 32
  sequenceNumber : Byte
  deriving DecidableEq, Repr

/-- The bytes of an entry (`mod.rs:107-110`). -/
def FirEntry.put (e : FirEntry) : List Byte := toBe32 e.ssrc ++ [e.sequenceNumber, 0#8, 0#8, 0#8]

/-- `FullIntraRequest` (`mod.rs:27-34`). -/
structure FullIntraRequest where
  senderSsrc : BitVec 32
  mediaSsrc : BitVec 32
  fir : List FirEntry
  deriving DecidableEq, Repr

namespace FullIntraRequest

/-- `raw_size` (`mod.rs:67-69`). -/
def rawSize (p : FullIntraRequest) : Nat := 4 + 8 + p.fir.length * 8

/-- `marshal_size` (`mod.rs:85-89`). -/
def marshalSize (p : FullIntraRequest) : Nat := p.rawSize + getPaddingSize p.rawSize

/-- `header` (`mod.rs:49-56`). -/
def header (p : FullIntraRequest) : Header := .ofSize formatFir .payloadSpecificFeedback p.rawSize

/-- `marshal_to` (`mod.rs:94-118`). -/
def marshalTo (p : FullIntraRequest) (available : Nat) : Except Error (List Byte) :=
  if available < p.marshalSize then .error .bufferTooShort
  else p.header.frame p.rawSize available
    (.ok (toBe32 p.senderSsrc ++ (toBe32 p.mediaSsrc ++ p.fir.flatMap FirEntry.put)))

/-- The loop over the entries up to the byte `stop` of the packet (`mod.rs:151-164`). A round that
    would be one too many for the fuel counts as a panic; there is none. -/
def getEntries : (fuel i stop : Nat) → List Byte → Parse Error (List FirEntry × List Byte)
  | 0, i, stop, reader => if stop ≤ i then .ok ([], reader) else .error .panicked
  | fuel + 1, i, stop, reader =>
    if stop ≤ i then .ok ([], reader)
    else if reader.length < 8 then Parse.fail .packetTooShort
    else do
      let (ssrc, reader) ← Parse.getU32 reader
      let (sequenceNumber, reader) ← Parse.getU8 reader
      let (_, reader) ← Parse.getU8 reader
      let (_, reader) ← Parse.getU16 reader
      let (fir, reader) ← getEntries fuel (i + 8) stop reader
      .ok (⟨ssrc, sequenceNumber⟩ :: fir, reader)

/-- `unmarshal` (`mod.rs:123-178`). The end of the loop is computed in 16 bits. -/
def unmarshal (raw : List Byte) : Parse Error (FullIntraRequest × List Byte) :=
  if raw.length < 20 then Parse.fail .packetTooShort
  else
    match Header.unmarshal raw with
    | .error e => Parse.fail e
    | .ok h =>
      if 4 + 4 * h.length.toNat < 20 then Parse.fail .invalidHeader
      else if raw.length < 4 + 4 * h.length.toNat then Parse.fail .packetTooShort
      else if h.packetType ≠ .payloadSpecificFeedback ∨ h.count ≠ formatFir then
        Parse.fail .wrongType
      else do
        let (senderSsrc, reader) ← Parse.getU32 (raw.drop 4)
        let (mediaSsrc, reader) ← Parse.getU32 reader
        if 2 ^ 16 ≤ h.length.toNat * 4 then .error .panicked
        else
          let (fir, _) ← getEntries raw.length 12 (4 + h.length.toNat * 4) reader
          .ok (⟨senderSsrc, mediaSsrc, fir⟩, [])

end FullIntraRequest

/-! ## Receiver estimated maximum bitrate -/

/-- `ReceiverEstimatedMaximumBitrate` (`receiver_estimated_maximum_bitrate/mod.rs:22-31`); the bitrate
    is the bit pattern of the single-precision number. -/
structure ReceiverEstimatedMaximumBitrate where
  senderSsrc : BitVec 32
  bitrate : BitVec 32
  ssrcs : List (BitVec 32)
  deriving DecidableEq, Repr

namespace ReceiverEstimatedMaximumBitrate

/-- The loop that moves the leading bit of the mantissa to bit 23 (`mod.rs:265-268`), with the checks
    that the subtraction and the doubling stay in range. -/
def normalise : (fuel exp mantissa : Nat) → Parse Error (Nat × Nat)
  | 0, exp, mantissa => if mantissa.testBit 23 then .ok (exp, mantissa) else .error .panicked
  | fuel + 1, exp, mantissa =>
    if mantissa.testBit 23 then .ok (exp, mantissa)
    else if exp < 1 ∨ 2 ^ 32 ≤ mantissa * 2 then .error .panicked
    else normalise fuel (exp - 1) (mantissa * 2)

/-- The bit pattern of the bitrate of the three bytes after the SSRC count (`mod.rs:253-272`). -/
def bitrateOf (b17 b18 b19 : Byte) : Parse Error (BitVec 32) := do
  let exp := b17.toNat / 4 + 127 + 23
  let mantissa := (b17.toNat % 4) * 2 ^ 16 + b18.toNat * 2 ^ 8 + b19.toNat
  let (exp, mantissa) ← if mantissa ≠ 0 then normalise 23 exp mantissa else .ok (exp, mantissa)
  .ok (BitVec.ofNat 32 exp <<< 23 ||| BitVec.ofNat 32 (mantissa % 2 ^ 23))

/-- `unmarshal` (`mod.rs:190-291`): what is left of the buffer is skipped. -/
def unmarshal (raw : List Byte) : Parse Error (ReceiverEstimatedMaximumBitrate × List Byte) :=
  if raw.length < 20 then Parse.fail .packetTooShort
  else
    match Header.unmarshal raw with
    | .error e => Parse.fail e
    | .ok header =>
      if header.packetType ≠ .payloadSpecificFeedback ∨ header.count ≠ formatRemb then
        Parse.fail .wrongType
      else do
        let (senderSsrc, reader) ← Parse.getU32 (raw.drop 4)
        let (mediaSsrc, reader) ← Parse.getU32 reader
        if mediaSsrc ≠ 0#32 then Parse.fail .ssrcMustBeZero
        else
          let (u0, reader) ← Parse.getU8 reader
          let (u1, reader) ← Parse.getU8 reader
          let (u2, reader) ← Parse.getU8 reader
          let (u3, reader) ← Parse.getU8 reader
          if u0 ≠ 0x52#8 ∨ u1 ≠ 0x45#8 ∨ u2 ≠ 0x4D#8 ∨ u3 ≠ 0x42#8 then
            Parse.fail .missingRembIdentifier
          else
            let (ssrcsLen, reader) ← Parse.getU8 reader
            if raw.length < 20 + ssrcsLen.toNat * 4 then Parse.fail .packetTooShort
            else
              let (b17, reader) ← Parse.getU8 reader
              let (b18, reader) ← Parse.getU8 reader
              let (b19, reader) ← Parse.getU8 reader
              let bitrate ← bitrateOf b17 b18 b19
              let (ssrcs, _) ← Parse.getMany Parse.getU32 ssrcsLen.toNat reader
              .ok (⟨senderSsrc, bitrate, ssrcs⟩, [])

end ReceiverEstimatedMaximumBitrate

/-! ## Congestion control feedback -/

/-- `Ecn` (`cc_feedback_report/mod.rs:73-83`). -/
inductive Ecn where
  | notEct
  | ect1
  | ect0
  | ce
  deriving DecidableEq, Repr

/-- `Ecn::from_bits` (`mod.rs:89-96`). -/
def Ecn.fromBits (value : Byte) : Ecn :=
  match (value &&& 0x03#8).toNat with
  | 0 => .notEct
  | 1 => .ect1
  | 2 => .ect0
  | _ => .ce

/-- `CcFeedbackMetricBlock` (`mod.rs:116-128`). -/
structure CcFeedbackMetricBlock where
  received : Bool
  ecn : Ecn
  arrivalTimeOffset : BitVec 16
  deriving DecidableEq, Repr

/-- `unmarshal_word` (`mod.rs:144-154`). -/
def CcFeedbackMetricBlock.unmarshalWord (word : BitVec 16) : CcFeedbackMetricBlock :=
  if word &&& 0x8000#16 = 0#16 then ⟨false, .notEct, 0#16⟩
  else ⟨true, Ecn.fromBits ((word >>> 13).setWidth 8), word &&& 0x1FFF#16⟩

/-- `CcFeedbackReportBlock` (`mod.rs:169-176`). -/
structure CcFeedbackReportBlock where
  mediaSsrc : BitVec 32
  beginSequence : BitVec 16
  metricBlocks : List CcFeedbackMetricBlock
  deriving DecidableEq, Repr

namespace CcFeedbackReportBlock

/-- The next metric block of a buffer. -/
def getMetric (reader : List Byte) : Parse Error (CcFeedbackMetricBlock × List Byte) := do
  let (word, reader) ← Parse.getU16 reader
  .ok (CcFeedbackMetricBlock.unmarshalWord word, reader)

/-- `unmarshal_from` (`mod.rs:226-275`): the block, the bytes it takes and the rest. The two paths for
    the metric words, in bulk and one by one, read the same words. -/
def unmarshalFrom (reader : List Byte) (budget : Nat) :
    Parse Error ((CcFeedbackReportBlock × Nat) × List Byte) :=
  if budget < 8 ∨ reader.length < 8 then Parse.fail .packetTooShort
  else do
    let (mediaSsrc, reader) ← Parse.getU32 reader
    let (beginSequence, reader) ← Parse.getU16 reader
    let (numReports, reader) ← Parse.getU16 reader
    let num := numReports.toNat
    let padded := if num % 2 = 0 then num else num + 1
    let consumed := 8 + 2 * padded
    if budget < consumed ∨ reader.length < 2 * padded then Parse.fail .packetTooShort
    else
      let (metricBlocks, reader) ← Parse.getMany getMetric num reader
      let reader ← if padded ≠ num then Parse.advance 2 reader else .ok reader
      .ok ((⟨mediaSsrc, beginSequence, metricBlocks⟩, consumed), reader)

end CcFeedbackReportBlock

/-- `CcFeedbackReport` (`mod.rs:322-330`). -/
structure CcFeedbackReport where
  senderSsrc : BitVec 32
  reportBlocks : List CcFeedbackReportBlock
  reportTimestamp : BitVec 32
  deriving DecidableEq, Repr

namespace CcFeedbackReport

/-- The loop over the report blocks (`mod.rs:445-450`); a block takes at least eight bytes. -/
def getBlocks : (fuel remainingBlocksLen : Nat) → List Byte →
    Parse Error (List CcFeedbackReportBlock × List Byte)
  | 0, remainingBlocksLen, reader =>
    if remainingBlocksLen = 0 then .ok ([], reader) else .error .panicked
  | fuel + 1, remainingBlocksLen, reader =>
    if remainingBlocksLen = 0 then .ok ([], reader)
    else do
      let ((block, consumed), reader) ← CcFeedbackReportBlock.unmarshalFrom reader remainingBlocksLen
      let (blocks, reader) ← getBlocks fuel (remainingBlocksLen - consumed) reader
      .ok (block :: blocks, reader)

/-- `unmarshal` (`mod.rs:418-459`). -/
def unmarshal (raw : List Byte) : Parse Error (CcFeedbackReport × List Byte) :=
  if raw.length < 8 + 4 then Parse.fail .packetTooShort
  else
    match Header.unmarshal raw with
    | .error e => Parse.fail e
    | .ok h =>
      if h.packetType ≠ .transportSpecificFeedback ∨ h.count ≠ formatCcfb then Parse.fail .wrongType
      else
        let packetLen := 4 * (h.length.toNat + 1)
        if raw.length < packetLen ∨ packetLen < 8 + 4 then Parse.fail .packetTooShort
        else do
          let (senderSsrc, reader) ← Parse.getU32 (raw.drop 4)
          let (reportBlocks, reader) ← getBlocks packetLen (packetLen - 8 - 4) reader
          let (reportTimestamp, reader) ← Parse.getU32 reader
          .ok (⟨senderSsrc, reportBlocks, reportTimestamp⟩, reader)

end CcFeedbackReport
end Rtc.Rtcp
