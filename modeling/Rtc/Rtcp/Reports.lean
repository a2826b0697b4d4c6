import Rtc.Lib.Emit
import Rtc.Lib.Parse
import Rtc.Rtcp.Header

/-!
# Sender and receiver reports

`ReceptionReport` of `rtc-rtcp/src/reception_report.rs`, `SenderReport` of `sender_report/mod.rs` and
`ReceiverReport` of `receiver_report/mod.rs`, with their codecs. A decoder returns the packet and the
bytes of its buffer that it did not read.
-/

namespace Rtc.Rtcp
open Bytes Shared

/-- The header of a packet of `rawSize` bytes: the common shape of the `header` functions. -/
def Header.ofSize (count : Byte) (packetType : PacketType) (rawSize : Nat) : Header where
  padding := getPaddingSize rawSize != 0
  count := count
  packetType := packetType
  length := BitVec.ofNat 16 ((rawSize + getPaddingSize rawSize) / 4 - 1)

/-- What the `marshal_to` functions write once their checks have passed: the header, a body, and the
    padding if the header announces it. -/
def Header.frame (h : Header) (rawSize available : Nat) (body : Except Error (List Byte)) :
    Except Error (List Byte) := do
  let head ← h.marshalTo available
  let body ← body
  .ok (head ++ (body ++ if h.padding then putPadding rawSize else []))

/-- `ReceptionReport` (`reception_report.rs:22-49`). -/
structure ReceptionReport where
  ssrc : BitVec 32
  fractionLost : Byte
  totalLost : BitVec 32
  lastSequenceNumber : BitVec 32
  jitter : BitVec 32
  lastSenderReport : BitVec 32
  delay : BitVec 32
  deriving DecidableEq, Repr

namespace ReceptionReport

/-- The bytes of a report (`reception_report.rs:115-131`): 24 bits of the total are kept. -/
def put (r : ReceptionReport) : List Byte :=
  toBe32 r.ssrc ++ (r.fractionLost :: r.totalLost.extractLsb' 16 8 :: r.totalLost.extractLsb' 8 8 ::
    r.totalLost.extractLsb' 0 8 :: (toBe32 r.lastSequenceNumber ++ (toBe32 r.jitter ++
      (toBe32 r.lastSenderReport ++ toBe32 r.delay))))

/-- `ReceptionReport::marshal_to` (`reception_report.rs:93-136`). -/
def marshalTo (r : ReceptionReport) (available : Nat) : Except Error (List Byte) :=
  if available < 24 then .error .bufferTooShort
  else if 2 ^ 25 ≤ r.totalLost.toNat then .error .invalidTotalLost
  else .ok r.put

/-- `ReceptionReport::unmarshal` (`reception_report.rs:141-201`). -/
def unmarshal (reader : List Byte) : Parse Error (ReceptionReport × List Byte) :=
  if reader.length < 24 then Parse.fail .packetTooShort
  else do
    let (ssrc, reader) ← Parse.getU32 reader
    let (fractionLost, reader) ← Parse.getU8 reader
    let (t0, reader) ← Parse.getU8 reader
    let (t1, reader) ← Parse.getU8 reader
    let (t2, reader) ← Parse.getU8 reader
    let totalLost := t2.setWidth 32 ||| t1.setWidth 32 <<< 8 ||| t0.setWidth 32 <<< 16
    let (lastSequenceNumber, reader) ← Parse.getU32 reader
    let (jitter, reader) ← Parse.getU32 reader
    let (lastSenderReport, reader) ← Parse.getU32 reader
    let (delay, reader) ← Parse.getU32 reader
    .ok (⟨ssrc, fractionLost, totalLost, lastSequenceNumber, jitter, lastSenderReport, delay⟩, reader)

/-- The loop over the reports of a packet of `rawLen` bytes (`sender_report/mod.rs:267-274`,
    `receiver_report/mod.rs:202-209`). -/
def getMany (rawLen : Nat) : (n offset : Nat) → List Byte → Parse Error (List ReceptionReport × List Byte)
  | 0, _, reader => .ok ([], reader)
  | n + 1, offset, reader =>
    if rawLen < offset + 24 then Parse.fail .packetTooShort
    else do
      let (r, reader) ← unmarshal reader
      let (rs, reader) ← getMany rawLen n (offset + 24) reader
      .ok (r :: rs, reader)

end ReceptionReport

/-- `SenderReport` (`sender_report/mod.rs:29-61`). -/
structure SenderReport where
  ssrc : BitVec 32
  ntpTime : BitVec 64
  rtpTime : BitVec 32
  packetCount : BitVec 32
  octetCount : BitVec 32
  reports : List ReceptionReport
  profileExtensions : List Byte
  deriving DecidableEq, Repr

namespace SenderReport

/-- `raw_size` (`mod.rs:102-109`). -/
def rawSize (p : SenderReport) : Nat := 4 + 24 + p.reports.length * 24 + p.profileExtensions.length

/-- `marshal_size` (`mod.rs:125-129`). -/
def marshalSize (p : SenderReport) : Nat := p.rawSize + getPaddingSize p.rawSize

/-- `header` (`mod.rs:86-93`). -/
def header (p : SenderReport) : Header :=
  .ofSize (BitVec.ofNat 8 p.reports.length) .senderReport p.rawSize

/-- What stands between the header and the padding (`mod.rs:184-195`). -/
def body (p : SenderReport) (available : Nat) : Except Error (List Byte) := do
  let reports ← Emit.putAll ReceptionReport.marshalTo (available - 28) p.reports
  .ok (toBe32 p.ssrc ++ (toBe64 p.ntpTime ++ (toBe32 p.rtpTime ++ (toBe32 p.packetCount ++
    (toBe32 p.octetCount ++ (reports ++ p.profileExtensions))))))

/-- `marshal_to` into a buffer of `available` bytes (`mod.rs:134-202`): the bytes written. -/
def marshalTo (p : SenderReport) (available : Nat) : Except Error (List Byte) :=
  if 31 < p.reports.length then .error .tooManyReports
  else if available < p.marshalSize then .error .bufferTooShort
  else p.header.frame p.rawSize available (p.body available)

/-- `unmarshal` (`mod.rs:207-291`). -/
def unmarshal (raw : List Byte) : Parse Error (SenderReport × List Byte) :=
  if raw.length < 4 + 24 then Parse.fail .packetTooShort
  else
    match Header.unmarshal raw with
    | .error e => Parse.fail e
    | .ok header =>
      if header.packetType ≠ .senderReport then Parse.fail .wrongType
      else do
        let (ssrc, reader) ← Parse.getU32 (raw.drop 4)
        let (ntpTime, reader) ← Parse.getU64 reader
        let (rtpTime, reader) ← Parse.getU32 reader
        let (packetCount, reader) ← Parse.getU32 reader
        let (octetCount, reader) ← Parse.getU32 reader
        let (reports, reader) ← ReceptionReport.getMany raw.length header.count.toNat 28 reader
        .ok (⟨ssrc, ntpTime, rtpTime, packetCount, octetCount, reports, reader⟩, [])

end SenderReport

/-- `ReceiverReport` (`receiver_report/mod.rs:19-30`). -/
structure ReceiverReport where
  ssrc : BitVec 32
  reports : List ReceptionReport
  profileExtensions : List Byte
  deriving DecidableEq, Repr

namespace ReceiverReport

/-- `raw_size` (`mod.rs:65-72`). -/
def rawSize (p : ReceiverReport) : Nat := 4 + 4 + p.reports.length * 24 + p.profileExtensions.length

/-- `marshal_size` (`mod.rs:88-92`). -/
def marshalSize (p : ReceiverReport) : Nat := p.rawSize + getPaddingSize p.rawSize

/-- `header` (`mod.rs:51-58`). -/
def header (p : ReceiverReport) : Header :=
  .ofSize (BitVec.ofNat 8 p.reports.length) .receiverReport p.rawSize

/-- What stands between the header and the padding (`mod.rs:137-144`). -/
def body (p : ReceiverReport) (available : Nat) : Except Error (List Byte) := do
  let reports ← Emit.putAll ReceptionReport.marshalTo (available - 8) p.reports
  .ok (toBe32 p.ssrc ++ (reports ++ p.profileExtensions))

/-- `marshal_to` into a buffer of `available` bytes (`mod.rs:97-151`): the bytes written. -/
def marshalTo (p : ReceiverReport) (available : Nat) : Except Error (List Byte) :=
  if 31 < p.reports.length then .error .tooManyReports
  else if available < p.marshalSize then .error .bufferTooShort
  else p.header.frame p.rawSize available (p.body available)

/-- `unmarshal` (`mod.rs:156-222`). -/
def unmarshal (raw : List Byte) : Parse Error (ReceiverReport × List Byte) :=
  if raw.length < 4 + 4 then Parse.fail .packetTooShort
  else
    match Header.unmarshal raw with
    | .error e => Parse.fail e
    | .ok header =>
      if header.packetType ≠ .receiverReport then Parse.fail .wrongType
      else do
        let (ssrc, reader) ← Parse.getU32 (raw.drop 4)
        let (reports, reader) ← ReceptionReport.getMany raw.length header.count.toNat 8 reader
        .ok (⟨ssrc, reports, reader⟩, [])

end ReceiverReport
end Rtc.Rtcp
