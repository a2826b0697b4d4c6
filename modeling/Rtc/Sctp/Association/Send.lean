import Rtc.Sctp.Association.Receive
import Rtc.Sctp.Association.Sack

/-!
# The sending side of the association

Writes by the application, and `gather_outbound`: retransmissions after a T3-rtx expiry, new data as far as the
windows allow, fast retransmissions, SACK, FORWARD TSN and SHUTDOWN packets. Packets are lists of chunks.
-/

namespace Rtc.Sctp
open Shared Loop

namespace Association

/-! ## Writes -/

/-- `set_reliability_params` (`stream.rs:354-372`). -/
def setReliabilityParams (a : Association) (id : StreamId) (unordered : Bool)
    (relType : ReliabilityType) (relVal : Nat) : Except Error Unit × Association :=
  match a.streams.lookup id with
  | some s =>
    let s := { s with
      unordered := unordered, reliabilityType := relType, reliabilityValue := relVal }
    (.ok (), { a with streams := Table.adjust id (fun _ => s) a.streams })
  | none => (.error .errStreamClosed, a)

/-- `send_payload_data` (`mod.rs:3291-3305`). -/
def sendPayloadData (a : Association) (chunks : List ChunkPayloadData) :
    Except Error Unit × Association :=
  if a.state ≠ .established then (.error .errPayloadDataStateNotExist, a)
  else (.ok (), { a with pendingQueue := chunks.foldl PendingQueue.push a.pendingQueue })

/-- `write_source` (`stream.rs:218-262`) for the message `raw`. -/
def writeSource (a : Association) (id : StreamId) (now : Instant) (raw : List Byte)
    (ppi : PayloadProtocolIdentifier) : Except Error Nat × Association :=
  match a.streams.lookup id with
  | some s =>
    if s.state ≠ .writable && s.state ≠ .readWritable then (.error .errStreamClosed, a)
    else if a.maxMessageSize < raw.length then (.error .errOutboundPacketTooLarge, a)
    else if a.state = .shutdownSent || a.state = .shutdownAckSent || a.state = .shutdownPending
        || a.state = .shutdownReceived then (.error .errStreamClosed, a)
    else
      let ((high, chunks), s) := s.packetize now raw ppi
      let a := { a with streams := Table.adjust id (fun _ => s) a.streams }
      let a := if high then a.pushEvent (.stream (.bufferedAmountHigh id)) else a
      match a.sendPayloadData chunks with
      | (.error e, a) => (.error e, a)
      | (.ok (), a) => (.ok raw.length, a)
  | none => (.error .errStreamClosed, a)

/-- `send_reset_request` (`mod.rs:3260-3286`): an empty chunk that marks the end of the stream. -/
def sendResetRequest (a : Association) (now : Instant) (id : StreamId) :
    Except Error Unit × Association :=
  if a.state ≠ .established then (.error .errResetPacketInStateNotExist, a)
  else
    let c : ChunkPayloadData :=
      { createdAt := some now, streamIdentifier := id, beginningFragment := true,
        endingFragment := true }
    (.ok (), { a with pendingQueue := a.pendingQueue.push c })

/-- `Stream::stop` (`stream.rs:287-304`). -/
def stop (a : Association) (id : StreamId) (now : Instant) : Except Error Unit × Association :=
  match a.streams.lookup id with
  | some s =>
    let a := { a with
      streams := Table.adjust id (fun s => { s with state := s.state.withoutRead }) a.streams }
    if s.state = .readable || s.state = .readWritable then a.sendResetRequest now id else (.ok (), a)
  | none => (.ok (), a)

/-! ## Packets of DATA -/

/-- `n.next_multiple_of(4)`. -/
def nextMultipleOf4 (n : Nat) : Nat := (n + 3) / 4 * 4

/-- The padded size of a DATA chunk. -/
def wireSize (c : ChunkPayloadData) : Nat :=
  nextMultipleOf4 (dataChunkHeaderSize + c.userData.length)

/-- The first pass of `bundle_data_chunks_into_packets` (`mod.rs:3090-3111`): the chunks of the bundle
    under way, its length, and the chunks to come. -/
def bundles (mtu : Nat) : List ChunkPayloadData → Nat → List ChunkPayloadData →
    List (List ChunkPayloadData)
  | bundle, _, [] => [bundle]
  | bundle, bundleLen, c :: rest =>
    if mtu < bundleLen + wireSize c && !bundle.isEmpty then
      bundle :: bundles mtu [c] (commonHeaderSize + wireSize c) rest
    else bundles mtu (bundle ++ [c]) (bundleLen + wireSize c) rest

/-- `bundle_data_chunks_into_packets` (`mod.rs:3053-3129`). -/
def bundleDataChunksIntoPackets (a : Association) (chunks : List ChunkPayloadData) : List Packet :=
  if chunks.isEmpty then []
  else (bundles a.mtu [] commonHeaderSize chunks).map fun b => b.map OutChunk.payloadData

/-! ## Retransmission after T3-rtx -/

/-- A bound on the chunks a walk over the window meets: those in flight, and those pending, which an
    abandonment may put in flight on the way. -/
def windowBound (a : Association) : Nat :=
  a.inflightQueue.len + a.pendingQueue.unorderedQueue.length + a.pendingQueue.orderedQueue.length + 1

/-- The chunks of a batch that are still in flight and not abandoned (`mod.rs:2409-2413`,
    `2594-2598`). -/
def retained (a : Association) (chunks : List ChunkPayloadData) : List ChunkPayloadData :=
  chunks.filter fun chunk => (a.inflightQueue.get chunk.tsn).any fun c => !c.abandoned

/-- The state of the walk of `get_data_packets_to_retransmit`. -/
structure T3Scan where
  assoc : Association
  i : Nat := 0
  chunks : List ChunkPayloadData := []
  bytesToSend : Nat := 0
  chunksRemaining : Bool := false
  error : Option Error := none

/-- A marked chunk that is not to be abandoned (`mod.rs:2603-2626`): it is taken into the batch if the
    window allows, or as a zero window probe. -/
def takeT3 (awnd : Nat) (s : T3Scan) (c : ChunkPayloadData) : ForInStep T3Scan :=
  let taken := { s with
    chunks := s.chunks ++ [c], bytesToSend := s.bytesToSend + c.userData.length, i := s.i + 1 }
  if s.i = 0 && s.assoc.rwnd < c.userData.length % 2 ^ 32 then
    .done { taken with chunksRemaining := true }
  else if awnd < s.bytesToSend + c.userData.length then .done { s with chunksRemaining := true }
  else .yield taken

/-- One round of the walk of `get_data_packets_to_retransmit` (`mod.rs:2579-2626`). -/
def t3Round (awnd : Nat) (now : Instant) (s : T3Scan) : ForInStep T3Scan :=
  let tsn := s.assoc.cumulativeTsnAckPoint + BitVec.ofNat 32 (s.i + 1)
  match s.assoc.inflightQueue.get tsn with
  | none => .done s
  | some c =>
    if !c.retransmit then .yield { s with i := s.i + 1 }
    else
      match s.assoc.abandonRetransmitCandidate tsn now with
      | (.error e, a) => .done { s with assoc := a, error := some e }
      | (.ok true, a) =>
        let chunks := a.retained s.chunks
        .yield { s with
          assoc := a
          chunks := chunks
          bytesToSend := (chunks.map fun c => c.userData.length).sum
          i := s.i + 1 }
      | (.ok false, a) =>
        match a.inflightQueue.get tsn with
        | none => .done { s with assoc := a }
        | some c => takeT3 awnd { s with assoc := a } c

/-- The chunk of a batch as it is sent once more: the attempt is counted in flight and in the batch
    (`mod.rs:2636-2646`, `2447-2457`). -/
def countAttempt (f : ChunkPayloadData → ChunkPayloadData)
    (s : List ChunkPayloadData × Association) (chunk : ChunkPayloadData) :
    List ChunkPayloadData × Association :=
  match s.2.inflightQueue.get chunk.tsn with
  | some c =>
    (s.1 ++ [{ chunk with nsent := c.nsent + 1 }],
      { s.2 with inflightQueue := s.2.inflightQueue.modify chunk.tsn fun c =>
        { f c with nsent := c.nsent + 1 } })
  | none => (s.1 ++ [chunk], s.2)

/-- `get_data_packets_to_retransmit` (`mod.rs:2560-2637`). -/
def getDataPacketsToRetransmit (a : Association) (now : Instant) :
    Except Error (List Packet) × Association :=
  let s := loop (t3Round (min a.cwnd a.rwnd) now) a.windowBound { assoc := a }
  match s.error with
  | some e => (.error e, s.assoc)
  | none =>
    let a := { s.assoc with t3RetransmitPending := s.chunksRemaining }
    let (chunks, a) := s.chunks.foldl (countAttempt fun c => { c with retransmit := false }) ([], a)
    (.ok (a.bundleDataChunksIntoPackets chunks), a)

/-- `gather_data_packets_to_retransmit` (`mod.rs:2268-2282`). -/
def gatherDataPacketsToRetransmit (a : Association) (packets : List Packet) (now : Instant) :
    List Packet × Association :=
  if a.t3RetransmitPending then
    match a.getDataPacketsToRetransmit now with
    | (.error _, a) => ([], a.failMessageQueue)
    | (.ok more, a) => (packets ++ more, a)
  else (packets, a)

/-! ## New data -/

/-- `move_pending_data_chunk_to_inflight_queue` (`mod.rs:3221-3255`). -/
def movePendingDataChunkToInflightQueue (a : Association) (beginningFragment unordered : Bool)
    (now : Instant) : Option ChunkPayloadData × Association :=
  match a.pendingQueue.pop beginningFragment unordered with
  | (some c, q) =>
    let (tsn, a) := { a with pendingQueue := q }.generateNextTsn
    let c := { c with tsn := tsn, since := some now, nsent := 1 }
    (some c, { a with inflightQueue := a.inflightQueue.pushNoCheck c })
  | (none, q) => (none, { a with pendingQueue := q })

/-- The state of the loop of `pop_pending_data_chunks_to_send`. -/
structure PendingScan where
  assoc : Association
  chunks : List ChunkPayloadData := []
  sisToReset : List StreamId := []
  failed : Bool := false

/-- The chunk at the front is moved into flight and joins the batch. -/
def movePending (s : PendingScan) (c : ChunkPayloadData) (now : Instant) : PendingScan :=
  match s.assoc.movePendingDataChunkToInflightQueue c.beginningFragment c.unordered now with
  | (some chunk, a) => { s with assoc := a, chunks := s.chunks ++ [chunk] }
  | (none, a) => { s with assoc := a }

/-- An expired message at the front is abandoned (`mod.rs:3002-3014`). -/
def abandonPendingMessage (s : PendingScan) (now : Instant) : ForInStep PendingScan :=
  match s.assoc.pendingMessageToAbandon with
  | .error _ => .done { s with assoc := s.assoc.failMessageQueue, failed := true }
  | .ok message =>
    match s.assoc.abandonMessage message with
    | (.error _, a) => .done { s with assoc := a.failMessageQueue, failed := true }
    | (.ok changed, a) => .yield { s with assoc := if changed then a.onMessagesAbandoned now else a }

/-- One round of the loop of `pop_pending_data_chunks_to_send` (`mod.rs:2973-3036`). -/
def pendingRound (now : Instant) (s : PendingScan) : ForInStep PendingScan :=
  match s.assoc.pendingQueue.peek with
  | none => .done s
  | some c =>
    if c.userData.length = 0 then
      .yield { s with
        sisToReset := s.sisToReset ++ [c.streamIdentifier]
        assoc := { s.assoc with
          pendingQueue := (s.assoc.pendingQueue.pop c.beginningFragment c.unordered).2 } }
    else if s.assoc.pendingMessageExpired c now then abandonPendingMessage s now
    else if s.assoc.cwnd < s.assoc.inflightQueue.getNumBytes + c.userData.length then .done s
    else if s.assoc.rwnd < c.userData.length then .done s
    else
      .yield (movePending
        { s with assoc := { s.assoc with rwnd := s.assoc.rwnd - c.userData.length } } c now)

/-- The zero window probe that ends `pop_pending_data_chunks_to_send` (`mod.rs:3038-3050`). -/
def probe (s : PendingScan) (now : Instant) : PendingScan :=
  if s.chunks.isEmpty && s.assoc.inflightQueue.isEmpty then
    match s.assoc.pendingQueue.peek with
    | some c => movePending s c now
    | none => s
  else s

/-- `pop_pending_data_chunks_to_send` (`mod.rs:2956-3048`). Every round takes chunks off the pending
    queue. -/
def popPendingDataChunksToSend (a : Association) (now : Instant) :
    (List ChunkPayloadData × List StreamId) × Association :=
  if a.pendingQueue.isEmpty then (([], []), a)
  else
    let s := loop (pendingRound now) a.windowBound { assoc := a }
    if s.failed then (([], []), s.assoc)
    else
      let s := probe s now
      ((s.chunks, s.sisToReset), s.assoc)

/-- The RECONFIG chunk that asks for a reset of `sisToReset` (`mod.rs:2324-2345`). -/
def requestReset (a : Association) (sisToReset : List StreamId) : List Packet × Association :=
  if sisToReset.isEmpty then ([], a)
  else
    let (rsn, a) := a.generateNextRsn
    let c : ChunkReconfig :=
      { paramA := some (.outgoingResetRequest
          { reconfigRequestSequenceNumber := rsn
            senderLastTsn := a.myNextTsn - 1#32
            streamIdentifiers := sisToReset }) }
    ([[.reconfig c]], { a with reconfigs := a.reconfigs.insert rsn c })

/-- The RECONFIG part of `gather_outbound_data_and_reconfig_packets` (`mod.rs:2304-2362`). -/
def gatherReconfig (a : Association) (sisToReset : List StreamId) (now : Instant) :
    List Packet × Association :=
  if sisToReset.isEmpty && !a.willRetransmitReconfig then ([], a)
  else
    let again : List Packet :=
      if a.willRetransmitReconfig then (Table.values a.reconfigs).map fun c => [.reconfig c] else []
    let (request, a) := { a with willRetransmitReconfig := false }.requestReset sisToReset
    (again ++ request,
      if a.reconfigs.entries.isEmpty then a
      else { a with timers := a.timers.start .reconfig now a.rtoMgr.getRto })

/-- `gather_outbound_data_and_reconfig_packets` (`mod.rs:2284-2365`). -/
def gatherOutboundDataAndReconfigPackets (a : Association) (packets : List Packet) (now : Instant) :
    List Packet × Association :=
  let ((chunks, sisToReset), a) := a.popPendingDataChunksToSend now
  if a.state = .closed then ([], a)
  else
    let (data, a) :=
      if chunks.isEmpty then (([] : List Packet), a)
      else (a.bundleDataChunksIntoPackets chunks,
        { a with timers := a.timers.startIfIdle .t3Rtx now a.rtoMgr.getRto })
    let (reconfig, a) := a.gatherReconfig sisToReset now
    (packets ++ data ++ reconfig, a)

/-! ## Fast retransmission -/

/-- The state of the walk of `gather_outbound_fast_retransmission_packets`. -/
structure FastScan where
  assoc : Association
  i : Nat := 0
  toFastRetrans : List ChunkPayloadData := []
  fastRetransSize : Nat := commonHeaderSize
  failed : Bool := false

/-- One round of the walk of `gather_outbound_fast_retransmission_packets` (`mod.rs:2379-2445`). -/
def fastRound (now : Instant) (s : FastScan) : ForInStep FastScan :=
  let tsn := s.assoc.cumulativeTsnAckPoint + BitVec.ofNat 32 (s.i + 1)
  match s.assoc.inflightQueue.get tsn with
  | none => .done s
  | some c =>
    if !c.isFastRetransmitCandidate then .yield { s with i := s.i + 1 }
    else
      match s.assoc.abandonRetransmitCandidate tsn now with
      | (.error _, a) => .done { s with assoc := a.failMessageQueue, failed := true }
      | (.ok true, a) =>
        let chunks := a.retained s.toFastRetrans
        .yield { s with
          assoc := a
          toFastRetrans := chunks
          fastRetransSize := commonHeaderSize + (chunks.map wireSize).sum
          i := s.i + 1 }
      | (.ok false, a) =>
        match a.inflightQueue.get tsn with
        | none => .done { s with assoc := a }
        | some c =>
          if a.mtu < s.fastRetransSize + wireSize c then .done { s with assoc := a }
          else
            .yield { s with
              assoc := a
              toFastRetrans := s.toFastRetrans ++ [c]
              fastRetransSize := s.fastRetransSize + wireSize c
              i := s.i + 1 }

/-- `gather_outbound_fast_retransmission_packets` (`mod.rs:2367-2462`). -/
def gatherOutboundFastRetransmissionPackets (a : Association) (packets : List Packet)
    (now : Instant) : List Packet × Association :=
  if a.willRetransmitFast then
    let s := loop (fastRound now) a.windowBound { assoc := { a with willRetransmitFast := false } }
    if s.failed then ([], s.assoc)
    else
      let (chunks, a) := s.toFastRetrans.foldl (countAttempt id) ([], s.assoc)
      (packets ++ a.bundleDataChunksIntoPackets chunks, a)
  else (packets, a)

/-! ## Control chunks -/

/-- `gather_outbound_sack_packets` (`mod.rs:2464-2477`). -/
def gatherOutboundSackPackets (a : Association) (packets : List Packet) : List Packet × Association :=
  if a.ackState = .immediate then
    let (sack, a) := { a with ackState := .idle }.createSelectiveAckChunk
    (packets ++ [[.selectiveAck sack]], a)
  else (packets, a)

/-- `create_forward_tsn` (`mod.rs:3190-3219`). -/
def createForwardTsn (a : Association) : ChunkForwardTsn where
  newCumulativeTsn := a.advancedPeerTsnAckPoint
  streams := a.fwdTsnStreamMap.entries.map fun e => (e.1, e.2)

/-- `gather_outbound_forward_tsn_packets` (`mod.rs:2479-2501`). -/
def gatherOutboundForwardTsnPackets (a : Association) (packets : List Packet) :
    List Packet × Association :=
  if a.willSendForwardTsn then
    let a := { a with willSendForwardTsn := false }
    if sna32gt a.advancedPeerTsnAckPoint a.cumulativeTsnAckPoint then
      (packets ++ [[.forwardTsn a.createForwardTsn]], a)
    else (packets, a)
  else (packets, a)

/-- `gather_outbound_shutdown_packets` (`mod.rs:2503-2556`). -/
def gatherOutboundShutdownPackets (a : Association) (packets : List Packet) (now : Instant) :
    (List Packet × Bool) × Association :=
  if a.willSendShutdown then
    ((packets ++ [[.shutdown a.cumulativeTsnAckPoint]], true),
      { a with
        willSendShutdown := false
        timers := a.timers.start .t2Shutdown now a.rtoMgr.getRto })
  else if a.willSendShutdownAck then
    ((packets ++ [[.shutdownAck]], true),
      { a with
        willSendShutdownAck := false
        timers := a.timers.start .t2Shutdown now a.rtoMgr.getRto })
  else if a.willSendShutdownComplete then
    ((packets ++ [[.shutdownComplete]], false), { a with willSendShutdownComplete := false })
  else ((packets, true), a)

/-! ## gather_outbound -/

/-- The part of `gather_outbound` for an established association (`mod.rs:2230-2245`). -/
def gatherEstablished (a : Association) (packets : List Packet) (now : Instant) :
    (List Packet × Bool) × Association :=
  let (packets, a) := a.gatherDataPacketsToRetransmit packets now
  if a.state = .closed then (([], false), a)
  else
    let (packets, a) := a.gatherOutboundDataAndReconfigPackets packets now
    if a.state = .closed then (([], false), a)
    else
      let (packets, a) := a.gatherOutboundFastRetransmissionPackets packets now
      if a.state = .closed then (([], false), a)
      else
        let (packets, a) := a.gatherOutboundSackPackets packets
        let (packets, a) := a.gatherOutboundForwardTsnPackets packets
        ((packets, true), a)

/-- The part of `gather_outbound` while a shutdown is under way (`mod.rs:2246-2260`): no new data. -/
def gatherShutdown (a : Association) (packets : List Packet) (now : Instant) :
    (List Packet × Bool) × Association :=
  let (packets, a) := a.gatherDataPacketsToRetransmit packets now
  if a.state = .closed then (([], false), a)
  else
    let (packets, a) := a.gatherOutboundFastRetransmissionPackets packets now
    if a.state = .closed then (([], false), a)
    else
      let (packets, a) := a.gatherOutboundSackPackets packets
      let (packets, a) := a.gatherOutboundForwardTsnPackets packets
      a.gatherOutboundShutdownPackets packets now

/-- `gather_outbound` (`mod.rs:2213-2266`). -/
def gatherOutbound (a : Association) (now : Instant) : (List Packet × Bool) × Association :=
  let packets := a.controlQueue
  let a := { a with controlQueue := [] }
  match a.state with
  | .established => a.gatherEstablished packets now
  | .shutdownPending | .shutdownSent | .shutdownReceived => a.gatherShutdown packets now
  | .shutdownAckSent => a.gatherOutboundShutdownPackets packets now
  | .closed | .cookieWait | .cookieEchoed => ((packets, true), a)

end Association
end Rtc.Sctp
