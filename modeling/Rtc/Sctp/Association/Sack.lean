import Rtc.Sctp.Association.Abandon

/-!
# SACK processing

What the sending side does with an inbound SACK: chunks at or below the cumulative TSN leave the in-flight queue,
chunks in gap ack blocks are marked and release their payload, and the congestion window, the timers and the miss
indications follow. Byte counts that are `i64` in the source are natural numbers.
-/

namespace Rtc.Sctp
open Shared Serial Loop

namespace Association

/-- What `process_selective_ack` counts: bytes per stream, bytes in total, and whether DATA that was
    sent has been acknowledged for the first time. -/
structure AckTally where
  bytesAckedPerStream : Table StreamId Nat := ∅
  totalBytesAcked : Nat := 0
  newlyAckedData : Bool := false

/-- A chunk acknowledged for the first time, with `n` bytes (`mod.rs:1720-1731`, `1785-1792`). -/
def AckTally.note (t : AckTally) (a : Association) (c : ChunkPayloadData) (n : Nat) : AckTally where
  bytesAckedPerStream :=
    if a.isCurrentStreamData c then addBytes c.streamIdentifier n t.bytesAckedPerStream
    else t.bytesAckedPerStream
  totalBytesAcked := t.totalBytesAcked + n
  newlyAckedData := t.newlyAckedData || decide (0 < c.nsent)

/-- The RTT measurement of a chunk (`mod.rs:1743-1756`, `1797-1810`). -/
def measureRtt (a : Association) (c : ChunkPayloadData) (now : Instant) : Association :=
  let a := { a with minTsn2measureRtt := a.myNextTsn }
  match c.since with
  | some since => { a with rtoMgr := a.rtoMgr.setNewRtt (asMillis (now - since)) }
  | none => a

/-! ## The cumulative TSN -/

/-- The state of the cumulative loop: the next TSN to pop, and the error that ended it. -/
structure CumAck where
  assoc : Association
  tally : AckTally := {}
  i : Tsn
  error : Option Error := none

/-- A popped chunk that was not acknowledged before (`mod.rs:1719-1757`). -/
def countPopped (s : CumAck) (c : ChunkPayloadData) (now : Instant) : CumAck :=
  if c.acknowledge.1 then
    { s with
      tally := s.tally.note s.assoc c c.userData.length
      assoc :=
        if !c.abandoned && c.nsent == 1 && sna32gte c.tsn s.assoc.minTsn2measureRtt then
          s.assoc.measureRtt c now
        else s.assoc }
  else s

/-- The end of fast recovery when its exit point is popped (`mod.rs:1760-1763`). -/
def leaveFastRecovery (a : Association) (tsn : Tsn) : Association :=
  if a.inFastRecovery && tsn == a.fastRecoverExitPoint then { a with inFastRecovery := false } else a

/-- What happens to a chunk popped by the cumulative loop (`mod.rs:1719-1763`). -/
def notePopped (s : CumAck) (c : ChunkPayloadData) (now : Instant) : CumAck :=
  let s := countPopped s c now
  { s with assoc := s.assoc.leaveFastRecovery c.tsn }

/-- One round of the cumulative loop (`mod.rs:1717-1770`). -/
def cumAckRound (d : ChunkSelectiveAck) (now : Instant) (s : CumAck) : ForInStep CumAck :=
  if sna32lte s.i d.cumulativeTsnAck then
    match s.assoc.inflightQueue.pop s.i with
    | (some c, q) =>
      let s := notePopped { s with assoc := { s.assoc with inflightQueue := q } } c now
      .yield { s with i := s.i + 1#32 }
    | (none, q) =>
      .done { s with
        assoc := { s.assoc with inflightQueue := q }
        error := some .errInflightQueueTsnPop }
  else .done s

/-- The cumulative loop. It ends when `i` passes the cumulative TSN of the SACK. -/
def cumAck (a : Association) (d : ChunkSelectiveAck) (now : Instant) : CumAck :=
  let i := a.cumulativeTsnAckPoint + 1#32
  loop (cumAckRound d now) (ahead i d.cumulativeTsnAck + 2) { assoc := a, i := i }

/-! ## Gap ack blocks -/

/-- The TSNs that the gap ack blocks of a SACK name, in the order of the loops
    (`mod.rs:1775-1777`). -/
def gapTsns (d : ChunkSelectiveAck) : List Tsn :=
  d.gapAckBlocks.flatMap fun g =>
    (List.range' g.start.toNat (g.end.toNat + 1 - g.start.toNat)).map fun i =>
      d.cumulativeTsnAck + BitVec.ofNat 32 i

/-- The state of the loop over the gap ack blocks. -/
structure GapAck where
  assoc : Association
  tally : AckTally
  htna : Tsn

/-- What happens to a chunk acknowledged for the first time by a gap ack block (`mod.rs:1784-1815`). -/
def noteGapAcked (s : GapAck) (c : ChunkPayloadData) (tsn : Tsn) (n : Nat) (now : Instant) : GapAck where
  assoc := if !c.abandoned && c.nsent == 1 then s.assoc.measureRtt c now else s.assoc
  tally := s.tally.note s.assoc c n
  htna := if sna32lt s.htna tsn then tsn else s.htna

/-- One TSN of a gap ack block (`mod.rs:1777-1819`); `none` where the source returns
    `ErrTsnRequestNotExist`, which it does without having changed anything. -/
def gapAckTsn (now : Instant) (s : GapAck) (tsn : Tsn) : Option GapAck :=
  match s.assoc.inflightQueue.get tsn with
  | none => none
  | some _ =>
    let (newly, q) := s.assoc.inflightQueue.acknowledge tsn
    if newly then
      let (n, q) := q.releasePayload tsn
      let s := { s with assoc := { s.assoc with inflightQueue := q } }
      match q.get tsn with
      | some c => some (noteGapAcked s c tsn n now)
      | none => none
    else some { s with assoc := { s.assoc with inflightQueue := q } }

/-- The loops over the gap ack blocks (`mod.rs:1775-1820`). -/
def gapAck (now : Instant) : List Tsn → GapAck → Except Error Unit × GapAck
  | [], s => (.ok (), s)
  | tsn :: rest, s =>
    match gapAckTsn now s tsn with
    | some s => gapAck now rest s
    | none => (.error .errTsnRequestNotExist, s)

/-! ## process_selective_ack -/

/-- The earliest TSN in flight that is neither acknowledged nor abandoned (`mod.rs:1705-1709`). -/
def earliestOutstanding (a : Association) : Option Tsn :=
  a.inflightQueue.sorted.find? fun tsn =>
    (a.inflightQueue.get tsn).any ChunkPayloadData.isOutstanding

/-- The timer updates that end `process_selective_ack` (`mod.rs:1826-1836`). -/
def restartT3 (a : Association) (earliest : Option Tsn) (d : ChunkSelectiveAck)
    (newlyAckedData : Bool) : Association :=
  let a := if newlyAckedData then { a with timers := a.timers.resetRetrans .t3Rtx } else a
  let acked := earliest.any fun tsn =>
    sna32lte tsn d.cumulativeTsnAck || (a.inflightQueue.get tsn).any fun c => c.acknowledged
  if acked then { a with timers := a.timers.set .t3Rtx none } else a

/-- `process_selective_ack` (`mod.rs:1695-1838`): the bytes acknowledged per stream and in total, and
    the highest TSN newly acknowledged. -/
def processSelectiveAck (a : Association) (d : ChunkSelectiveAck) (now : Instant) :
    Except Error (Table StreamId Nat × Nat × Tsn) × Association :=
  let earliest := a.earliestOutstanding
  let s := a.cumAck d now
  match s.error with
  | some e => (.error e, s.assoc)
  | none =>
    match gapAck now (gapTsns d) { assoc := s.assoc, tally := s.tally, htna := d.cumulativeTsnAck } with
    | (.error e, g) => (.error e, g.assoc)
    | (.ok (), g) =>
      (.ok (g.tally.bytesAckedPerStream, g.tally.totalBytesAcked, g.htna),
        g.assoc.restartT3 earliest d g.tally.newlyAckedData)

/-! ## handle_sack -/

/-- `on_cumulative_tsn_ack_point_advanced` (`mod.rs:1840-1911`). The windows are `u32`. -/
def onCumulativeTsnAckPointAdvanced (a : Association) (totalBytesAcked : Nat) (now : Instant) :
    Association :=
  let a := { a with timers :=
    if a.inflightQueue.isEmpty then a.timers.stop .t3Rtx
    else a.timers.startIfIdle .t3Rtx now a.rtoMgr.getRto }
  let acked := totalBytesAcked % 2 ^ 32
  if a.cwnd ≤ a.ssthresh then
    if !a.inFastRecovery && !a.pendingQueue.isEmpty then
      { a with cwnd := (a.cwnd + min acked a.cwnd) % 2 ^ 32 }
    else a
  else
    let a := { a with partialBytesAcked := (a.partialBytesAcked + acked) % 2 ^ 32 }
    if a.cwnd ≤ a.partialBytesAcked && !a.pendingQueue.isEmpty then
      { a with
        partialBytesAcked := a.partialBytesAcked - a.cwnd
        cwnd := (a.cwnd + a.mtu) % 2 ^ 32 }
    else a

/-- The state of the loop of `process_fast_retransmission`. -/
structure MissScan where
  assoc : Association
  tsn : Tsn
  error : Option Error := none

/-- The entry into fast recovery (`mod.rs:1944-1953`). -/
def enterFastRecovery (a : Association) (htna : Tsn) : Association :=
  let ssthresh := max (a.cwnd / 2) (4 * a.mtu % 2 ^ 32)
  { a with
    inFastRecovery := true
    fastRecoverExitPoint := htna
    ssthresh := ssthresh
    cwnd := ssthresh
    partialBytesAcked := 0
    willRetransmitFast := true }

/-- One round of the loop of `process_fast_retransmission` (`mod.rs:1934-1970`). -/
def missRound (htna maxTsn : Tsn) (s : MissScan) : ForInStep MissScan :=
  if sna32lt s.tsn maxTsn then
    match s.assoc.inflightQueue.get s.tsn with
    | some c =>
      let a :=
        if c.isOutstanding && decide (c.missIndicator < 3) then
          let a := { s.assoc with inflightQueue := s.assoc.inflightQueue.modify s.tsn fun c =>
            { c with missIndicator := c.missIndicator + 1 } }
          if c.missIndicator + 1 == 3 && !a.inFastRecovery then a.enterFastRecovery htna else a
        else s.assoc
      .yield { s with assoc := a, tsn := s.tsn + 1#32 }
    | none => .done { s with error := some .errTsnRequestNotExist }
  else .done s

/-- `process_fast_retransmission` (`mod.rs:1913-1975`). -/
def processFastRetransmission (a : Association) (cumTsnAckPoint htna : Tsn)
    (cumTsnAckPointAdvanced : Bool) : Except Error Unit × Association :=
  let s : MissScan :=
    if !a.inFastRecovery || cumTsnAckPointAdvanced then
      let maxTsn := if !a.inFastRecovery then htna
        else cumTsnAckPoint + BitVec.ofNat 32 (a.inflightQueue.len + 1)
      let tsn := cumTsnAckPoint + 1#32
      loop (missRound htna maxTsn) (ahead tsn maxTsn + 1) { assoc := a, tsn := tsn }
    else { assoc := a, tsn := cumTsnAckPoint }
  match s.error with
  | some e => (.error e, s.assoc)
  | none =>
    (.ok (), if s.assoc.inFastRecovery && cumTsnAckPointAdvanced then
      { s.assoc with willRetransmitFast := true } else s.assoc)

/-- `postprocess_sack` (`mod.rs:1979-2005`). -/
def postprocessSack (a : Association) (state : AssociationState) (now : Instant) : Association :=
  if !a.inflightQueue.isEmpty then
    { a with timers := a.timers.startIfIdle .t3Rtx now a.rtoMgr.getRto }
  else if state = .shutdownPending then { a with willSendShutdown := true, state := .shutdownSent }
  else if state = .shutdownReceived then
    { a with willSendShutdownAck := true, state := .shutdownAckSent }
  else a

/-- The new cumulative point of `handle_sack` (`mod.rs:1416-1427`), and whether it advanced. -/
def advanceCumulativeTsn (a : Association) (d : ChunkSelectiveAck) (totalBytesAcked : Nat)
    (now : Instant) : Bool × Association :=
  if sna32lt a.cumulativeTsnAckPoint d.cumulativeTsnAck then
    (true, { a with cumulativeTsnAckPoint := d.cumulativeTsnAck
      }.onCumulativeTsnAckPointAdvanced totalBytesAcked now)
  else (false, a)

/-- The new receiver window (`mod.rs:1438-1445`). -/
def updateRwnd (a : Association) (d : ChunkSelectiveAck) : Association :=
  { a with rwnd := d.advertisedReceiverWindowCredit - a.inflightQueue.getNumBytes % 2 ^ 32 }

/-- The FORWARD TSN part of `handle_sack` (`mod.rs:1449-1463`). -/
def advanceForwardTsn (a : Association) : Association :=
  if a.useForwardTsn then
    let a :=
      if sna32lt a.advancedPeerTsnAckPoint a.cumulativeTsnAckPoint then
        { a with advancedPeerTsnAckPoint := a.cumulativeTsnAckPoint, fwdTsnStreamMap := ∅ }
      else a
    a.advancePeerAckPoint
  else a

/-- `handle_sack` (`mod.rs:1378-1467`). -/
def handleSack (a : Association) (d : ChunkSelectiveAck) (now : Instant) :
    Except Error Unit × Association :=
  if a.state ≠ .established && a.state ≠ .shutdownPending && a.state ≠ .shutdownReceived then
    (.ok (), a)
  else if sna32gt a.cumulativeTsnAckPoint d.cumulativeTsnAck then (.ok (), a)
  else
    let state := a.state
    match a.processSelectiveAck d now with
    | (.error e, a) => (.error e, a)
    | (.ok (bytesAckedPerStream, totalBytesAcked, htna), a) =>
      let (advanced, a) := a.advanceCumulativeTsn d totalBytesAcked now
      let a := (a.releaseStreamBuffers bytesAckedPerStream).updateRwnd d
      match a.processFastRetransmission d.cumulativeTsnAck htna advanced with
      | (.error e, a) => (.error e, a)
      | (.ok (), a) => (.ok (), a.advanceForwardTsn.postprocessSack state now)

end Association
end Rtc.Sctp
