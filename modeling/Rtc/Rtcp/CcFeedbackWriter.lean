import Rtc.Rtcp.Feedback
import Rtc.Rtcp.TransportLayerCc

/-!
# Writing congestion control feedback

The serialiser of `rtc-rtcp/src/transport_feedbacks/cc_feedback_report/mod.rs`.
-/

namespace Rtc.Rtcp
open Bytes Shared

/-- The codepoint of a marking (`mod.rs:74-83`). -/
def Ecn.toWord : Ecn → BitVec 16
  | .notEct => 0#16
  | .ect1 => 1#16
  | .ect0 => 2#16
  | .ce => 3#16

/-- `marshal_word` (`mod.rs:132-137`). -/
def CcFeedbackMetricBlock.marshalWord (m : CcFeedbackMetricBlock) : Except Error (BitVec 16) := do
  let word ← setNbitsOfUint16 0#16 1 0 (if m.received then 1#16 else 0#16)
  let word ← setNbitsOfUint16 word 2 1 m.ecn.toWord
  setNbitsOfUint16 word 13 3 m.arrivalTimeOffset

namespace CcFeedbackReportBlock

/-- `padded_metric_block_count` (`mod.rs:188-195`). -/
def paddedMetricBlockCount (b : CcFeedbackReportBlock) : Nat :=
  if b.metricBlocks.length % 2 = 0 then b.metricBlocks.length else b.metricBlocks.length + 1

/-- `raw_size` (`mod.rs:184-186`). -/
def rawSize (b : CcFeedbackReportBlock) : Nat := 8 + 2 * b.paddedMetricBlockCount

/-- `marshal_to` (`mod.rs:197-215`): the bytes written. -/
def marshalTo (b : CcFeedbackReportBlock) : Except Error (List Byte) :=
  if 16384 < b.metricBlocks.length then .error .tooManyReports
  else do
    let words ← b.metricBlocks.mapM CcFeedbackMetricBlock.marshalWord
    .ok (toBe32 b.mediaSsrc ++ (toBe16 b.beginSequence ++
      (toBe16 (BitVec.ofNat 16 b.metricBlocks.length) ++ (words.flatMap toBe16 ++
        (List.replicate (b.paddedMetricBlockCount - b.metricBlocks.length) 0#16).flatMap toBe16))))

end CcFeedbackReportBlock

namespace CcFeedbackReport

/-- `raw_size` (`mod.rs:367-370`). -/
def rawSize (p : CcFeedbackReport) : Nat :=
  8 + (p.reportBlocks.map CcFeedbackReportBlock.rawSize).sum + 4

/-- `marshal_size` (`mod.rs:386-390`). -/
def marshalSize (p : CcFeedbackReport) : Nat := p.rawSize + getPaddingSize p.rawSize

/-- `header` (`mod.rs:347-354`). -/
def header (p : CcFeedbackReport) : Header :=
  .ofSize formatCcfb .transportSpecificFeedback p.rawSize

/-- What stands between the header and the padding (`mod.rs:403-407`). -/
def body (p : CcFeedbackReport) : Except Error (List Byte) := do
  let blocks ← p.reportBlocks.mapM CcFeedbackReportBlock.marshalTo
  .ok (toBe32 p.senderSsrc ++ (blocks.flatten ++ toBe32 p.reportTimestamp))

/-- `marshal_to` into a buffer of `available` bytes (`mod.rs:394-414`): the bytes written. -/
def marshalTo (p : CcFeedbackReport) (available : Nat) : Except Error (List Byte) :=
  if available < p.marshalSize then .error .bufferTooShort
  else p.header.frame p.rawSize available p.body

end CcFeedbackReport

end Rtc.Rtcp
