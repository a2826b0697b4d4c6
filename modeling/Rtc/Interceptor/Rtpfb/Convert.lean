import Rtc.Interceptor.Basic
import Rtc.Lib.Table
import Rtc.Rtcp.Feedback
import Rtc.Rtcp.Proofs.StatusChunks

/-!
# Feedback as acknowledgements

`acknowledgement.rs` and `convert.rs` of `rtc-interceptor/src/rtpfb`: transport-wide feedback and RFC 8888 reports
both become one `Acknowledgement` for each packet they name.
-/

namespace Rtc.Interceptor.Rtpfb

open Rtcp (CcFeedbackMetricBlock CcFeedbackReport CcFeedbackReportBlock Ecn PacketStatusChunk SymbolTypeTcc
  TransportLayerCc)

/-- `Acknowledgement` (`acknowledgement.rs:17-29`). -/
structure Acknowledgement where
  sequenceNumber : Seq
  arrived : Bool
  arrival : Option Duration
  ecn : Ecn
  deriving DecidableEq

/-- `lost` (`acknowledgement.rs:32-39`). -/
def Acknowledgement.lost (sequenceNumber : Seq) : Acknowledgement := ⟨sequenceNumber, false, none, .notEct⟩

/-- `received` (`acknowledgement.rs:42-49`). -/
def Acknowledgement.received (sequenceNumber : Seq) (arrival : Option Duration) (ecn : Ecn) : Acknowledgement :=
  ⟨sequenceNumber, true, arrival, ecn⟩

/-- The loop variables of `convert_twcc`. -/
structure Conversion where
  arrival : Duration
  deltaIndex : Nat := 0
  offset : BitVec 16 := 0#16
  acknowledgements : List Acknowledgement := []

/-- `push` of `convert_twcc` (`convert.rs:42-87`). -/
def Conversion.push (feedback : TransportLayerCc) (s : Conversion) (symbol : SymbolTypeTcc) : Conversion :=
  let sequenceNumber := feedback.baseSequenceNumber + s.offset
  let s := { s with offset := s.offset + 1#16 }
  match symbol with
  | .packetNotReceived => { s with acknowledgements := s.acknowledgements ++ [.lost sequenceNumber] }
  | .packetReceivedWithoutDelta =>
    { s with acknowledgements := s.acknowledgements ++ [.received sequenceNumber none .notEct] }
  | .packetReceivedSmallDelta | .packetReceivedLargeDelta =>
    match feedback.recvDeltas[s.deltaIndex]? with
    | some delta =>
      let magnitude := 1000 * (delta.delta.natAbs % 2 ^ 32)
      let arrival := if delta.delta < 0 then s.arrival - magnitude else s.arrival + magnitude
      { s with
        arrival
        deltaIndex := s.deltaIndex + 1
        acknowledgements := s.acknowledgements ++ [.received sequenceNumber (some arrival) .notEct] }
    | none => { s with acknowledgements := s.acknowledgements ++ [.received sequenceNumber none .notEct] }

/-- `convert_twcc` (`convert.rs:32-116`). -/
def convertTwcc (feedback : TransportLayerCc) : List Acknowledgement :=
  ((feedback.packetChunks.flatMap PacketStatusChunk.symbols).foldl (Conversion.push feedback)
    { arrival := 64000000 * feedback.referenceTime.toNat }).acknowledgements

/-- `Duration::from_secs_f64` of a number of units of 1/1024 s: to the nearest nanosecond, of two the even one. -/
def ofUnits (units : BitVec 16) : Duration :=
  let twice := units.toNat * 1953125
  if twice % 4 = 3 then twice / 2 + 1 else twice / 2

/-- The acknowledgement of a metric, and the newest arrival after it (`convert.rs:133-160`). -/
def ofMetric (sequenceNumber : Seq) (metric : CcFeedbackMetricBlock) (newest : Option Duration) :
    Acknowledgement × Option Duration :=
  if !metric.received then (.lost sequenceNumber, newest)
  else if metric.arrivalTimeOffset = 0x1FFF#16 then (.received sequenceNumber none metric.ecn, newest)
  else
    let offset := ofUnits metric.arrivalTimeOffset
    (.received sequenceNumber (some offset) metric.ecn, some (newest.elim offset (min · offset)))

/-- The loop over the metrics of a block, from the one of `sequenceNumber` on. -/
def ofMetrics (sequenceNumber : Seq) : List CcFeedbackMetricBlock → Option Duration →
    List Acknowledgement × Option Duration
  | [], newest => ([], newest)
  | metric :: metrics, newest =>
    let (first, newest) := ofMetric sequenceNumber metric newest
    let (rest, newest) := ofMetrics (sequenceNumber + 1#16) metrics newest
    (first :: rest, newest)

/-- `convert_ccfb` (`convert.rs:124-167`). -/
def convertCcfb (feedback : CcFeedbackReport) : Duration × Table Ssrc (List Acknowledgement) :=
  let (newest, perStream) := feedback.reportBlocks.foldl (fun (newest, perStream) block =>
    let (acknowledgements, newest) := ofMetrics block.beginSequence block.metricBlocks newest
    (newest, perStream.insert block.mediaSsrc acknowledgements)) (none, ∅)
  (newest.getD 0, perStream)

end Rtc.Interceptor.Rtpfb
