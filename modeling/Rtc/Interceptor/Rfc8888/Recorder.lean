import Rtc.Interceptor.JitterBuffer.Sequence
import Rtc.Lib.Checked
import Rtc.Lib.Table
import Rtc.Rtcp.CcFeedbackWriter

/-!
# Recording arrivals for congestion control feedback

`StreamLog` of `rtc-interceptor/src/rfc8888/stream_log.rs` and `CcFeedbackRecorder` of `recorder.rs`. A result that 64
bits cannot hold stops the program: such a call gives no result. Fractions of a second are rationals.
-/

namespace Rtc.Interceptor
open Rtcp (Ecn CcFeedbackMetricBlock CcFeedbackReportBlock CcFeedbackReport)

/-- `PacketReport` (`stream_log.rs:24-27`). -/
structure PacketReport where
  arrival : Instant
  ecn : Ecn
  deriving DecidableEq, Repr

/-- `StreamLog` (`stream_log.rs:34-43`). -/
structure StreamLog where
  ssrc : Ssrc
  extender : SequenceExtender
  nextToReport : Nat
  highestReceived : Nat
  initialised : Bool
  log : Table Nat PacketReport

/-- `arrival_time_offset` (`stream_log.rs:159-168`). -/
def arrivalTimeOffset (reference arrival : Instant) : BitVec 16 :=
  if reference < arrival then 0x1FFF#16
  else
    let offset : ℚ := ((reference - arrival : Nat) : ℚ) / 1000000000 * 1024
    if 0x1FFD < offset then 0x1FFE#16
    else BitVec.ofNat 16 offset.floor.toNat

namespace StreamLog

/-- `StreamLog::new` (`stream_log.rs:46-55`). -/
def new (ssrc : Ssrc) : StreamLog where
  ssrc := ssrc
  extender := .new
  nextToReport := 0
  highestReceived := 0
  initialised := false
  log := ∅

/-- A number already extended is recorded unless it lies behind the window (`stream_log.rs:64-73`). -/
def record (s : StreamLog) (extended : Nat) (report : PacketReport) : StreamLog :=
  let s := if s.initialised then s else { s with initialised := true, nextToReport := extended }
  if extended < s.nextToReport then s
  else
    { s with
      log := s.log.insert extended report
      highestReceived := max s.highestReceived extended }

/-- `add` (`stream_log.rs:61-74`). -/
def add (s : StreamLog) (arrival : Instant) (sequenceNumber : Seq) (ecn : Ecn) : Option StreamLog :=
  match s.extender.extend sequenceNumber with
  | some (extended, extender) => some ({ s with extender := extender }.record extended ⟨arrival, ecn⟩)
  | none => none

/-- `is_empty` (`stream_log.rs:148-150`). -/
def isEmpty (s : StreamLog) : Bool := s.log.entries.isEmpty

/-- The oldest end of the window given up where a block cannot describe it (`stream_log.rs:96-103`): the
    packets left to describe. -/
def trim (s : StreamLog) (maxBlocks : Nat) : Option (Nat × StreamLog) := do
  let behind ← Checked.sub s.highestReceived s.nextToReport
  let count ← Checked.add 64 behind 1
  if maxBlocks < count then
    let past ← Checked.add 64 s.highestReceived 1
    let newNext ← Checked.sub past maxBlocks
    some (maxBlocks, { s with
      log := Table.retain (fun sequenceNumber _ => decide (newNext ≤ sequenceNumber)) s.log
      nextToReport := newNext })
  else some (count, s)

/-- The metric block of a packet (`stream_log.rs:125-132`). -/
def metric (reference : Instant) : Option PacketReport → CcFeedbackMetricBlock
  | some report => ⟨true, report.ecn, arrivalTimeOffset reference report.arrival⟩
  | none => ⟨false, .notEct, 0#16⟩

/-- One round of the loop over the window (`stream_log.rs:123-138`). -/
def reportPacket (reference : Instant) (state : StreamLog × List CcFeedbackMetricBlock)
    (extended : Nat) : Option (StreamLog × List CcFeedbackMetricBlock) :=
  let (s, metricBlocks) := state
  let report := s.log.lookup extended
  let metricBlocks := metricBlocks ++ [metric reference report]
  if report.isSome ∧ extended = s.nextToReport then
    match Checked.add 64 s.nextToReport 1 with
    | some next => some ({ s with log := s.log.erase extended, nextToReport := next }, metricBlocks)
    | none => none
  else some (s, metricBlocks)

/-- A block without packets. -/
def emptyBlock (s : StreamLog) : CcFeedbackReportBlock :=
  ⟨s.ssrc, BitVec.ofNat 16 s.nextToReport, []⟩

/-- `metrics_after` (`stream_log.rs:81-145`): the block, and the log after it. -/
def metricsAfter (s : StreamLog) (reference : Instant) (maxBlocks : Nat) :
    Option (CcFeedbackReportBlock × StreamLog) :=
  if s.isEmpty then some (s.emptyBlock, s)
  else do
    let (count, s) ← s.trim maxBlocks
    if count = 0 then some (s.emptyBlock, s)
    else
      let begin := s.nextToReport
      let (s', metricBlocks) ←
        (List.range' begin (s.highestReceived + 1 - begin)).foldlM (reportPacket reference) (s, [])
      some (⟨s.ssrc, BitVec.ofNat 16 begin, metricBlocks⟩, s')

end StreamLog

/-- `CcFeedbackRecorder` (`recorder.rs:19-21`). -/
structure CcFeedbackRecorder where
  streams : Table Ssrc StreamLog

namespace CcFeedbackRecorder

/-- `new` (`recorder.rs:25-27`). -/
def new : CcFeedbackRecorder := ⟨∅⟩

/-- `add_packet` (`recorder.rs:30-35`). -/
def addPacket (r : CcFeedbackRecorder) (arrival : Instant) (ssrc : Ssrc) (sequenceNumber : Seq)
    (ecn : Ecn) : Option CcFeedbackRecorder :=
  let stream := (r.streams.lookup ssrc).getD (.new ssrc)
  match stream.add arrival sequenceNumber ecn with
  | some stream => some ⟨r.streams.insert ssrc stream⟩
  | none => none

/-- The packets that each stream may describe (`recorder.rs:69-73`). -/
def perStream (r : CcFeedbackRecorder) (maxSize : Nat) : Nat :=
  let streamCount := r.streams.keys.length
  let budget := (maxSize - 12 - 8 * streamCount) / 2
  min (budget / streamCount) 16384

/-- The block of one stream (`recorder.rs:79-86`). -/
def reportStream (now : Instant) (perStream : Nat)
    (state : List CcFeedbackReportBlock × Table Ssrc StreamLog) (ssrc : Ssrc) :
    Option (List CcFeedbackReportBlock × Table Ssrc StreamLog) :=
  let (blocks, streams) := state
  match streams.lookup ssrc with
  | none => some (blocks, streams)
  | some stream =>
    match stream.metricsAfter now perStream with
    | some (block, stream) => some (blocks ++ [block], Table.adjust ssrc (fun _ => stream) streams)
    | none => none

/-- `build_report` (`recorder.rs:51-89`): the report, and the recorder after it. -/
def buildReport (r : CcFeedbackRecorder) (now : Instant) (senderSsrc : Ssrc)
    (reportTimestamp : BitVec 32) (maxSize : Nat) : Option (CcFeedbackReport × CcFeedbackRecorder) :=
  if r.streams.keys.length = 0 then some (⟨senderSsrc, [], reportTimestamp⟩, r)
  else do
    let ssrcs := r.streams.keys.insertionSort (· ≤ ·)
    let (blocks, streams) ← ssrcs.foldlM (reportStream now (r.perStream maxSize)) ([], r.streams)
    some (⟨senderSsrc, blocks, reportTimestamp⟩, ⟨streams⟩)

end CcFeedbackRecorder

end Rtc.Interceptor
