import Rtc.Rtcp.Reports

/-!
# Extended reports

The decoder of `ExtendedReport` of `rtc-rtcp/src/extended_report/` with its report blocks. Every block
starts with a header that gives its type and its length in words; the length in bytes is computed in 16
bits with a check.
-/

namespace Rtc.Rtcp
open Bytes Shared

/-- `BlockType` (`extended_report/mod.rs:44-62`). -/
inductive BlockType where
  | unknown
  | lossRle
  | duplicateRle
  | packetReceiptTimes
  | receiverReferenceTime
  | dlrr
  | statisticsSummary
  | voipMetrics
  deriving DecidableEq, Repr

/-- `BlockType::from` (`mod.rs:65-76`). -/
def BlockType.ofByte (v : Byte) : BlockType :=
  match v.toNat with
  | 1 => .lossRle
  | 2 => .duplicateRle
  | 3 => .packetReceiptTimes
  | 4 => .receiverReferenceTime
  | 5 => .dlrr
  | 6 => .statisticsSummary
  | 7 => .voipMetrics
  | _ => .unknown

/-- `XRHeader` (`mod.rs:108-115`). -/
structure XrHeader where
  blockType : BlockType
  typeSpecific : Byte
  blockLength : BitVec 16
  deriving DecidableEq, Repr

/-- `XRHeader::unmarshal` (`mod.rs:140-158`). -/
def XrHeader.unmarshal (reader : List Byte) : Parse Error (XrHeader × List Byte) :=
  if reader.length < 4 then Parse.fail .packetTooShort
  else do
    let (blockType, reader) ← Parse.getU8 reader
    let (typeSpecific, reader) ← Parse.getU8 reader
    let (blockLength, reader) ← Parse.getU16 reader
    .ok (⟨BlockType.ofByte blockType, typeSpecific, blockLength⟩, reader)

/-- How every block starts (`dlrr.rs:126-139`, and the same in its siblings): the header, the length in
    bytes, which has to fit 16 bits, and a check of that length against the kind of block and the
    buffer. -/
def blockStart (lengthOk : Nat → Bool) (reader : List Byte) :
    Parse Error ((XrHeader × Nat) × List Byte) :=
  if reader.length < 4 then Parse.fail .packetTooShort
  else do
    let (xrHeader, reader) ← XrHeader.unmarshal reader
    let blockLength := xrHeader.blockLength.toNat * 4
    if 2 ^ 16 ≤ blockLength then Parse.fail .invalidBlockSize
    else if !lengthOk blockLength ∨ reader.length < blockLength then Parse.fail .packetTooShort
    else .ok ((xrHeader, blockLength), reader)

/-- `DLRRReport` (`dlrr.rs:7-14`). -/
structure DlrrReport where
  ssrc : BitVec 32
  lastRr : BitVec 32
  dlrr : BitVec 32
  deriving DecidableEq, Repr

/-- `RLEReportBlock` (`rle.rs:116-132`); a chunk is its word. -/
structure RleReportBlock where
  isLossRle : Bool
  t : Byte
  ssrc : BitVec 32
  beginSeq : BitVec 16
  endSeq : BitVec 16
  chunks : List (BitVec 16)
  deriving DecidableEq, Repr

/-- `PacketReceiptTimesReportBlock` (`prt.rs:26-40`). -/
structure PacketReceiptTimesReportBlock where
  t : Byte
  ssrc : BitVec 32
  beginSeq : BitVec 16
  endSeq : BitVec 16
  receiptTime : List (BitVec 32)
  deriving DecidableEq, Repr

/-- `TTLorHopLimitType` (`ssr.rs:81-89`). -/
inductive TtlOrHopLimitType where
  | missing
  | ipv4
  | ipv6
  deriving DecidableEq, Repr

/-- `TTLorHopLimitType::from` (`ssr.rs:92-98`). -/
def TtlOrHopLimitType.ofByte (v : Byte) : TtlOrHopLimitType :=
  match v.toNat with
  | 1 => .ipv4
  | 2 => .ipv6
  | _ => .missing

/-- `StatisticsSummaryReportBlock` (`ssr.rs:32-70`). -/
structure StatisticsSummaryReportBlock where
  lossReports : Bool
  duplicateReports : Bool
  jitterReports : Bool
  ttlOrHopLimit : TtlOrHopLimitType
  ssrc : BitVec 32
  beginSeq : BitVec 16
  endSeq : BitVec 16
  lostPackets : BitVec 32
  dupPackets : BitVec 32
  minJitter : BitVec 32
  maxJitter : BitVec 32
  meanJitter : BitVec 32
  devJitter : BitVec 32
  minTtlOrHl : Byte
  maxTtlOrHl : Byte
  meanTtlOrHl : Byte
  devTtlOrHl : Byte
  deriving DecidableEq, Repr

/-- `VoIPMetricsReportBlock` (`vm.rs:30-75`). -/
structure VoipMetricsReportBlock where
  ssrc : BitVec 32
  lossRate : Byte
  discardRate : Byte
  burstDensity : Byte
  gapDensity : Byte
  burstDuration : BitVec 16
  gapDuration : BitVec 16
  roundTripDelay : BitVec 16
  endSystemDelay : BitVec 16
  signalLevel : Byte
  noiseLevel : Byte
  rerl : Byte
  gmin : Byte
  rfactor : Byte
  extRfactor : Byte
  mosLq : Byte
  mosCq : Byte
  rxConfig : Byte
  reserved : Byte
  jbNominal : BitVec 16
  jbMaximum : BitVec 16
  jbAbsMax : BitVec 16
  deriving DecidableEq, Repr

/-- A report block of an extended report. -/
inductive ReportBlock where
  | rle (block : RleReportBlock)
  | packetReceiptTimes (block : PacketReceiptTimesReportBlock)
  | receiverReferenceTime (ntpTimestamp : BitVec 64)
  | dlrr (reports : List DlrrReport)
  | statisticsSummary (block : StatisticsSummaryReportBlock)
  | voipMetrics (block : VoipMetricsReportBlock)
  | unknown (bytes : List Byte)
  deriving DecidableEq, Repr

/-- `marshal_size` of the blocks (`rle.rs:175-177`, `prt.rs:69-71`, `rrt.rs:50-52`, `dlrr.rs:77-79`,
    `ssr.rs:145-147`, `vm.rs:104-106`, `unknown.rs:38-40`). -/
def ReportBlock.marshalSize : ReportBlock → Nat
  | .rle block => 4 + 8 + block.chunks.length * 2
  | .packetReceiptTimes block => 4 + 8 + block.receiptTime.length * 4
  | .receiverReferenceTime _ => 4 + 8
  | .dlrr reports => 4 + reports.length * 4 * 3
  | .statisticsSummary _ => 4 + 36
  | .voipMetrics _ => 4 + 32
  | .unknown bytes => 4 + bytes.length

/-- `RLEReportBlock::unmarshal` (`rle.rs:220-262`). -/
def RleReportBlock.unmarshal (reader : List Byte) : Parse Error (RleReportBlock × List Byte) := do
  let ((xrHeader, blockLength), reader) ← blockStart (fun n => 8 ≤ n && (n - 8) % 2 == 0) reader
  let (ssrc, reader) ← Parse.getU32 reader
  let (beginSeq, reader) ← Parse.getU16 reader
  let (endSeq, reader) ← Parse.getU16 reader
  let (chunks, reader) ← Parse.getMany Parse.getU16 ((blockLength - 8) / 2) reader
  .ok (⟨xrHeader.blockType = .lossRle, xrHeader.typeSpecific &&& 0x0F#8, ssrc, beginSeq, endSeq,
    chunks⟩, reader)

/-- `PacketReceiptTimesReportBlock::unmarshal` (`prt.rs:117-158`). -/
def PacketReceiptTimesReportBlock.unmarshal (reader : List Byte) :
    Parse Error (PacketReceiptTimesReportBlock × List Byte) := do
  let ((xrHeader, blockLength), reader) ← blockStart (fun n => 8 ≤ n && (n - 8) % 4 == 0) reader
  let (ssrc, reader) ← Parse.getU32 reader
  let (beginSeq, reader) ← Parse.getU16 reader
  let (endSeq, reader) ← Parse.getU16 reader
  let (receiptTime, reader) ← Parse.getMany Parse.getU32 ((blockLength - 8) / 4) reader
  .ok (⟨xrHeader.typeSpecific &&& 0x0F#8, ssrc, beginSeq, endSeq, receiptTime⟩, reader)

/-- The next sub-block of a DLRR block (`dlrr.rs:143-150`). -/
def DlrrReport.get (reader : List Byte) : Parse Error (DlrrReport × List Byte) := do
  let (ssrc, reader) ← Parse.getU32 reader
  let (lastRr, reader) ← Parse.getU32 reader
  let (dlrr, reader) ← Parse.getU32 reader
  .ok (⟨ssrc, lastRr, dlrr⟩, reader)

/-- `DLRRReportBlock::unmarshal` (`dlrr.rs:121-155`). -/
def DlrrReport.unmarshalBlock (reader : List Byte) : Parse Error (List DlrrReport × List Byte) := do
  let ((_, blockLength), reader) ← blockStart (fun n => n % 12 == 0) reader
  Parse.getMany DlrrReport.get (blockLength / 12) reader

/-- `ReceiverReferenceTimeReportBlock::unmarshal` (`rrt.rs:93-115`). -/
def unmarshalReferenceTime (reader : List Byte) : Parse Error (BitVec 64 × List Byte) := do
  let (_, reader) ← blockStart (fun n => n == 8) reader
  Parse.getU64 reader

/-- `StatisticsSummaryReportBlock::unmarshal` (`ssr.rs:200-258`). -/
def StatisticsSummaryReportBlock.unmarshal (reader : List Byte) :
    Parse Error (StatisticsSummaryReportBlock × List Byte) := do
  let ((xrHeader, _), reader) ← blockStart (fun n => n == 36) reader
  let flags := xrHeader.typeSpecific
  let (ssrc, reader) ← Parse.getU32 reader
  let (beginSeq, reader) ← Parse.getU16 reader
  let (endSeq, reader) ← Parse.getU16 reader
  let (lostPackets, reader) ← Parse.getU32 reader
  let (dupPackets, reader) ← Parse.getU32 reader
  let (minJitter, reader) ← Parse.getU32 reader
  let (maxJitter, reader) ← Parse.getU32 reader
  let (meanJitter, reader) ← Parse.getU32 reader
  let (devJitter, reader) ← Parse.getU32 reader
  let (minTtlOrHl, reader) ← Parse.getU8 reader
  let (maxTtlOrHl, reader) ← Parse.getU8 reader
  let (meanTtlOrHl, reader) ← Parse.getU8 reader
  let (devTtlOrHl, reader) ← Parse.getU8 reader
  .ok ({
    lossReports := flags &&& 0x80#8 ≠ 0#8
    duplicateReports := flags &&& 0x40#8 ≠ 0#8
    jitterReports := flags &&& 0x20#8 ≠ 0#8
    ttlOrHopLimit := TtlOrHopLimitType.ofByte ((flags &&& 0x18#8) >>> 3)
    ssrc, beginSeq, endSeq, lostPackets, dupPackets, minJitter, maxJitter, meanJitter, devJitter,
    minTtlOrHl, maxTtlOrHl, meanTtlOrHl, devTtlOrHl }, reader)

/-- `VoIPMetricsReportBlock::unmarshal` (`vm.rs:165-231`). -/
def VoipMetricsReportBlock.unmarshal (reader : List Byte) :
    Parse Error (VoipMetricsReportBlock × List Byte) := do
  let (_, reader) ← blockStart (fun n => n == 32) reader
  let (ssrc, reader) ← Parse.getU32 reader
  let (lossRate, reader) ← Parse.getU8 reader
  let (discardRate, reader) ← Parse.getU8 reader
  let (burstDensity, reader) ← Parse.getU8 reader
  let (gapDensity, reader) ← Parse.getU8 reader
  let (burstDuration, reader) ← Parse.getU16 reader
  let (gapDuration, reader) ← Parse.getU16 reader
  let (roundTripDelay, reader) ← Parse.getU16 reader
  let (endSystemDelay, reader) ← Parse.getU16 reader
  let (signalLevel, reader) ← Parse.getU8 reader
  let (noiseLevel, reader) ← Parse.getU8 reader
  let (rerl, reader) ← Parse.getU8 reader
  let (gmin, reader) ← Parse.getU8 reader
  let (rfactor, reader) ← Parse.getU8 reader
  let (extRfactor, reader) ← Parse.getU8 reader
  let (mosLq, reader) ← Parse.getU8 reader
  let (mosCq, reader) ← Parse.getU8 reader
  let (rxConfig, reader) ← Parse.getU8 reader
  let (reserved, reader) ← Parse.getU8 reader
  let (jbNominal, reader) ← Parse.getU16 reader
  let (jbMaximum, reader) ← Parse.getU16 reader
  let (jbAbsMax, reader) ← Parse.getU16 reader
  .ok ({ ssrc, lossRate, discardRate, burstDensity, gapDensity, burstDuration, gapDuration,
         roundTripDelay, endSystemDelay, signalLevel, noiseLevel, rerl, gmin, rfactor, extRfactor,
         mosLq, mosCq, rxConfig, reserved, jbNominal, jbMaximum, jbAbsMax }, reader)

/-- `UnknownReportBlock::unmarshal` (`unknown.rs:78-99`). -/
def unmarshalUnknown (reader : List Byte) : Parse Error (List Byte × List Byte) := do
  let ((_, blockLength), reader) ← blockStart (fun _ => true) reader
  Parse.copyToBytes blockLength reader

/-- The decoder of the block with this type (`mod.rs:291-308`). -/
def ReportBlock.unmarshal (blockType : BlockType) (reader : List Byte) :
    Parse Error (ReportBlock × List Byte) :=
  match blockType with
  | .lossRle | .duplicateRle => do
    let (block, reader) ← RleReportBlock.unmarshal reader
    .ok (.rle block, reader)
  | .packetReceiptTimes => do
    let (block, reader) ← PacketReceiptTimesReportBlock.unmarshal reader
    .ok (.packetReceiptTimes block, reader)
  | .receiverReferenceTime => do
    let (ntpTimestamp, reader) ← unmarshalReferenceTime reader
    .ok (.receiverReferenceTime ntpTimestamp, reader)
  | .dlrr => do
    let (reports, reader) ← DlrrReport.unmarshalBlock reader
    .ok (.dlrr reports, reader)
  | .statisticsSummary => do
    let (block, reader) ← StatisticsSummaryReportBlock.unmarshal reader
    .ok (.statisticsSummary block, reader)
  | .voipMetrics => do
    let (block, reader) ← VoipMetricsReportBlock.unmarshal reader
    .ok (.voipMetrics block, reader)
  | .unknown => do
    let (bytes, reader) ← unmarshalUnknown reader
    .ok (.unknown bytes, reader)

/-- `ExtendedReport` (`mod.rs:176-181`). -/
structure ExtendedReport where
  senderSsrc : BitVec 32
  reports : List ReportBlock
  deriving DecidableEq, Repr

namespace ExtendedReport

/-- The loop over the blocks of a packet of `rawPacketLen` bytes (`mod.rs:285-312`). A round that would
    be one too many for the fuel counts as a panic; there is none, as every block takes bytes. -/
def getReports (rawPacketLen : Nat) : (fuel offset : Nat) → List Byte →
    Parse Error (List ReportBlock × List Byte)
  | 0, _, reader => if reader.length = 0 then .ok ([], reader) else .error .panicked
  | fuel + 1, offset, reader =>
    if reader.length = 0 then .ok ([], reader)
    else if rawPacketLen < offset + 4 then Parse.fail .packetTooShort
    else do
      let blockType ← Parse.index reader 0
      let (report, reader) ← ReportBlock.unmarshal (BlockType.ofByte blockType) reader
      let (reports, reader) ← getReports rawPacketLen fuel (offset + report.marshalSize) reader
      .ok (report :: reports, reader)

/-- `unmarshal` (`mod.rs:266-318`). -/
def unmarshal (raw : List Byte) : Parse Error (ExtendedReport × List Byte) :=
  if raw.length < 4 + 4 then Parse.fail .packetTooShort
  else
    match Header.unmarshal raw with
    | .error e => Parse.fail e
    | .ok header =>
      if header.packetType ≠ .extendedReport then Parse.fail .wrongType
      else do
        let (senderSsrc, reader) ← Parse.getU32 (raw.drop 4)
        let (reports, reader) ← getReports raw.length raw.length 8 reader
        .ok (⟨senderSsrc, reports⟩, reader)

end ExtendedReport
end Rtc.Rtcp
