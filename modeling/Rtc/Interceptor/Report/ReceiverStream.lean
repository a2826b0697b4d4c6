import Rtc.Interceptor.Basic
import Rtc.Interceptor.Bitmap
import Rtc.Rtcp.Reports

/-!
# Receiver report streams

`rtc-interceptor/src/report/receiver_stream.rs`: what is kept of one incoming RTP stream to fill the
reception report block of a receiver report. The floating-point quantities are rationals here, and a
cast to an unsigned type truncates and saturates.
-/

namespace Rtc.Interceptor

/-- `x as u8`, `x as u32` of a floating-point number. -/
def saturate (w : Nat) (x : ℚ) : BitVec w := BitVec.ofNat w (min (2 ^ w - 1) x.floor.toNat)

/-- `as_secs_f64`. -/
def asSecs (d : Duration) : ℚ := d / 1000000000

/-- `ReceiverStream` (`receiver_stream.rs:7-29`). -/
structure ReceiverStream where
  ssrc : Ssrc
  receiverSsrc : Ssrc
  clockRate : ℚ
  packets : List (BitVec 64)
  size : Nat
  indexMask : Nat
  seqNumCycles : BitVec 16
  lastSeqNum : Seq
  lastReportSeqNum : Seq
  lastRtpTimeRtp : BitVec 32
  lastRtpTimeTime : Option Instant
  jitter : ℚ
  lastSenderReport : BitVec 32
  lastSenderReportTime : Option Instant
  totalLost : BitVec 32

namespace ReceiverStream

/-- `ReceiverStream::new` (`receiver_stream.rs:32-52`), with the random `receiver_ssrc`. -/
def new (ssrc receiverSsrc : Ssrc) (clockRate : BitVec 32) : ReceiverStream where
  ssrc := ssrc
  receiverSsrc := receiverSsrc
  clockRate := clockRate.toNat
  packets := List.replicate 128 0#64
  size := 128
  indexMask := 128 * 64 - 1
  seqNumCycles := 0#16
  lastSeqNum := 0#16
  lastReportSeqNum := 0#16
  lastRtpTimeRtp := 0#32
  lastRtpTimeTime := none
  jitter := 0
  lastSenderReport := 0#32
  lastSenderReportTime := none
  totalLost := 0#32

/-- `set_received` (`receiver_stream.rs:54-57`). -/
def setReceived (s : ReceiverStream) (seq : Seq) : ReceiverStream :=
  let pos := seq.toNat &&& s.indexMask
  { s with packets :=
      s.packets.set (pos / 64) (s.packets.getD (pos / 64) 0#64 ||| 1#64 <<< (pos % 64)) }

/-- The order check of a following packet (`receiver_stream.rs:78-98`). -/
def advance (s : ReceiverStream) (seq : Seq) : ReceiverStream :=
  let diff := seq - s.lastSeqNum
  if 0#16 < diff ∧ diff < 1#16 <<< 15 then
    { s with
      seqNumCycles := if seq < s.lastSeqNum then s.seqNumCycles + 1#16 else s.seqNumCycles
      packets := Bitmap.clear s.packets (s.lastSeqNum + 1#16).toNat (diff - 1#16).toNat
      lastSeqNum := seq }
  else s

/-- The jitter after a packet with this timestamp (`receiver_stream.rs:100-104`). -/
def jitterAfter (s : ReceiverStream) (last now : Instant) (timestamp : BitVec 32) : ℚ :=
  let d := asSecs (now - last) * s.clockRate - ((timestamp.toNat : ℚ) - s.lastRtpTimeRtp.toNat)
  s.jitter + (|d| - s.jitter) / 16

/-- `process_rtp` (`receiver_stream.rs:71-114`). -/
def processRtp (s : ReceiverStream) (now : Instant) (pkt : Rtp.Packet) : ReceiverStream :=
  let seq := pkt.header.sequenceNumber
  let s :=
    match s.lastRtpTimeTime with
    | some last =>
      { (s.setReceived seq).advance seq with
        jitter := s.jitterAfter last now pkt.header.timestamp }
    | none =>
      { s.setReceived seq with lastSeqNum := seq, lastReportSeqNum := seq - 1#16 }
  { s with lastRtpTimeRtp := pkt.header.timestamp, lastRtpTimeTime := some now }

/-- `process_sender_report` (`receiver_stream.rs:116-123`). -/
def processSenderReport (s : ReceiverStream) (now : Instant) (sr : Rtcp.SenderReport) :
    ReceiverStream :=
  { s with
    lastSenderReport := (sr.ntpTime >>> 16).setWidth 32
    lastSenderReportTime := some now }

/-- The packets expected since the last report (`receiver_stream.rs:129`). -/
def totalSinceReport (s : ReceiverStream) : Seq := s.lastSeqNum - s.lastReportSeqNum

/-- The packets counted as lost since the last report (`receiver_stream.rs:135-143`). -/
def totalLostSinceReport (s : ReceiverStream) : BitVec 32 :=
  if s.totalSinceReport = 0#16 then 0#32
  else
    BitVec.ofNat 32 (Bitmap.countZeros s.packets (s.lastReportSeqNum + 1#16).toNat
      (s.totalSinceReport - 1#16).toNat)

/-- A count kept to 24 bits (`receiver_stream.rs:147-153`). -/
def clamp24 (n : BitVec 32) : BitVec 32 := if 0xFFFFFF#32 < n then 0xFFFFFF#32 else n

/-- `fraction_lost` of a report (`receiver_stream.rs:163-167`). -/
def fractionLost (s : ReceiverStream) : Byte :=
  if 0#16 < s.totalSinceReport then
    saturate 8 (((clamp24 s.totalLostSinceReport * 256#32).toNat : ℚ) / s.totalSinceReport.toNat)
  else 0#8

/-- `generate_report` (`receiver_stream.rs:125-187`): the report, and the stream after it. -/
def generateReport (s : ReceiverStream) (now : Instant) : Rtcp.ReceiverReport × ReceiverStream :=
  let totalLost := clamp24 (s.totalLost + s.totalLostSinceReport)
  let delay :=
    match s.lastSenderReportTime with
    | some srTime => saturate 32 (asSecs (now - srTime) * 65536)
    | none => 0#32
  ({ ssrc := s.receiverSsrc
     reports := [
       { ssrc := s.ssrc
         lastSequenceNumber := s.seqNumCycles.setWidth 32 <<< 16 |||
           (s.lastSeqNum.setWidth 32 &&& 0xFFFF#32)
         lastSenderReport := s.lastSenderReport
         fractionLost := s.fractionLost
         totalLost := totalLost
         delay := delay
         jitter := saturate 32 s.jitter }]
     profileExtensions := [] },
   { s with totalLost := totalLost, lastReportSeqNum := s.lastSeqNum })

end ReceiverStream

end Rtc.Interceptor
