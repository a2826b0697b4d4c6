import Rtc.Sctp.Association.Basic

/-!
# The receiving side of the association

DATA, FORWARD TSN and RECONFIG chunks, the cumulative TSN they advance, reads by the application and the SACK.
`peer_last_tsn + 1` wraps, as it does where overflow checks are off.
-/

namespace Rtc.Sctp
open Shared Serial Loop

namespace Association

/-! ## Stream resets -/

/-- `streams_awaiting_drain` (`mod.rs:2013-2023`). -/
def streamsAwaitingDrain (a : Association) (p : ParamOutgoingResetRequest) : List StreamId :=
  p.streamIdentifiers.filter fun id =>
    (a.streams.lookup id).any fun s => s.reassemblyQueue.isReadable

/-- The loop of `reset_streams_if_any` (`mod.rs:2041-2052`): the streams reset are unregistered and,
    if the request is answered, collected. -/
def resetStreams (respond : Bool) (draining : List StreamId) :
    List StreamId → Association → List StreamId × Association
  | [], a => ([], a)
  | id :: ids, a =>
    if draining.contains id then resetStreams respond draining ids a
    else if (a.streams.lookup id).isSome then
      let (sis, a) := resetStreams respond draining ids (a.unregisterStream id .reset)
      (if respond then id :: sis else sis, a)
    else resetStreams respond draining ids a

/-- The performing part of `reset_streams_if_any` (`mod.rs:2034-2070`): the result and the streams that
    were reset in answer. -/
def performReset (a : Association) (p : ParamOutgoingResetRequest) (respond : Bool) :
    (ReconfigResult × List StreamId) × Association :=
  if sna32lte p.senderLastTsn a.peerLastTsn then
    let draining := a.streamsAwaitingDrain p
    let (sis, a) := resetStreams respond draining p.streamIdentifiers a
    if draining.isEmpty then
      ((.successPerformed, sis),
        { a with reconfigRequests := a.reconfigRequests.erase p.reconfigRequestSequenceNumber })
    else ((.inProgress, sis), a)
  else ((.inProgress, []), a)

/-- `reset_streams_if_any` (`mod.rs:2025-2107`): the packets it adds to the reply. -/
def resetStreamsIfAny (a : Association) (p : ParamOutgoingResetRequest) (respond : Bool) :
    List Packet × Association :=
  let ((result, sisToReset), a) := a.performReset p respond
  let response : Packet :=
    [.reconfig { paramA := some (.reconfigResponse p.reconfigRequestSequenceNumber result) }]
  if sisToReset.isEmpty then ([response], a)
  else
    let (rsn, a) := a.generateNextRsn
    let c : ChunkReconfig :=
      { paramA := some (.outgoingResetRequest
          { reconfigRequestSequenceNumber := rsn
            reconfigResponseSequenceNumber := p.reconfigRequestSequenceNumber
            senderLastTsn := a.myNextTsn - 1#32
            streamIdentifiers := sisToReset }) }
    ([[.reconfig c], response], { a with reconfigs := a.reconfigs.insert rsn c })

/-- `reset_streams_if_any` for each of `ps` in turn. -/
def resetAll (respond : Bool) : List ParamOutgoingResetRequest → Association → List Packet × Association
  | [], a => ([], a)
  | p :: ps, a =>
    let (reply, a) := a.resetStreamsIfAny p respond
    let (rest, a) := resetAll respond ps a
    (reply ++ rest, a)

/-- `retry_deferred_resets` (`mod.rs:825-846`). -/
def retryDeferredResets (a : Association) (id : StreamId) : Association :=
  let pending := (Table.values a.reconfigRequests).filter fun p => p.streamIdentifiers.contains id
  let (reply, a) := resetAll true pending a
  { a with controlQueue := a.controlQueue ++ reply }

/-- `handle_reconfig_param` (`mod.rs:1674-1693`), for a parameter that may be absent. -/
def handleReconfigParam (a : Association) :
    Option ReconfigParam → Except Error (List Packet) × Association
  | none => (.ok [], a)
  | some (.outgoingResetRequest p) =>
    let requests := a.reconfigRequests.insert p.reconfigRequestSequenceNumber p
    let (reply, a) := { a with reconfigRequests := requests }.resetStreamsIfAny p true
    (.ok reply, a)
  | some (.reconfigResponse rsn _) =>
    let a := { a with reconfigs := a.reconfigs.erase rsn }
    (.ok [], if a.reconfigs.entries.isEmpty then { a with timers := a.timers.stop .reconfig } else a)
  | some .other => (.error .errParameterType, a)

/-- `handle_reconfig` (`mod.rs:1469-1483`). -/
def handleReconfig (a : Association) (c : ChunkReconfig) : Except Error (List Packet) × Association :=
  match a.handleReconfigParam c.paramA with
  | (.error e, a) => (.error e, a)
  | (.ok replyA, a) =>
    match a.handleReconfigParam c.paramB with
    | (.error e, a) => (.error e, a)
    | (.ok replyB, a) => (.ok (replyA ++ replyB), a)

/-! ## The cumulative TSN -/

/-- One round of the advance of `peer_last_tsn` (`mod.rs:1636-1645`). -/
def advanceRound (s : List Packet × Association) : ForInStep (List Packet × Association) :=
  match s.2.payloadQueue.pop (s.2.peerLastTsn + 1#32) with
  | (some _, q) =>
    let a := { s.2 with payloadQueue := q, peerLastTsn := s.2.peerLastTsn + 1#32 }
    let (reply, a) := resetAll false (Table.values a.reconfigRequests) a
    .yield (s.1 ++ reply, a)
  | (none, q) => .done (s.1, { s.2 with payloadQueue := q })

/-- The loop that advances `peer_last_tsn` over the chunks received (`mod.rs:1636-1645`). Every round
    takes a TSN off the queue. -/
def advancePeerLastTsn (a : Association) : List Packet × Association :=
  loop advanceRound (a.payloadQueue.sorted.length + 1) ([], a)

/-- The acknowledgement part of `handle_peer_last_tsn_and_acknowledgement` (`mod.rs:1647-1669`). -/
def triggerAck (a : Association) (sackImmediately : Bool) : Association :=
  let hasPacketLoss := !a.payloadQueue.isEmpty
  if (a.ackState ≠ .immediate && !sackImmediately && !hasPacketLoss && a.ackMode = .normal)
      || a.ackMode = .alwaysDelay then
    if a.ackState = .idle then { a with delayedAckTriggered := true }
    else { a with immediateAckTriggered := true }
  else { a with immediateAckTriggered := true }

/-- `handle_peer_last_tsn_and_acknowledgement` (`mod.rs:1620-1671`). -/
def handlePeerLastTsnAndAcknowledgement (a : Association) (sackImmediately : Bool) :
    List Packet × Association :=
  let (reply, a) := a.advancePeerLastTsn
  (reply, a.triggerAck sackImmediately)

/-! ## DATA -/

/-- Whether `handle_data` takes a chunk that `can_push` admits (`mod.rs:1302-1348`), once its stream
    exists. -/
def admits (a : Association) (d : ChunkPayloadData) : Bool :=
  decide (0 < a.getMyReceiverWindowCredit)
    || a.payloadQueue.getLastTsnReceived.any (fun lastTsn => sna32lt d.tsn lastTsn)
    || (d.tsn == a.peerLastTsn + 1#32 && !a.hasReadableData)

/-- The delivery of an admitted chunk to its stream (`mod.rs:1366-1373`). -/
def deliver (a : Association) (d : ChunkPayloadData) : Association :=
  match a.streams.lookup d.streamIdentifier with
  | some s =>
    let (complete, s) := s.handleData d
    let a := { a with streams := Table.adjust d.streamIdentifier (fun _ => s) a.streams
      }.pushEvent .datagramReceived
    if complete && s.reassemblyQueue.isReadable then
      a.pushEvent (.stream (.readable s.streamIdentifier))
    else a
  | none => a

/-- `handle_data` (`mod.rs:1287-1376`). -/
def handleData (a : Association) (d : ChunkPayloadData) : List Packet × Association :=
  let a :=
    if a.payloadQueue.canPush d a.peerLastTsn then
      let a := a.getOrCreateStream d.streamIdentifier
      if a.admits d then
        { a with payloadQueue := (a.payloadQueue.push d a.peerLastTsn).2 }.deliver d
      else a
    else a
  a.handlePeerLastTsnAndAcknowledgement d.immediateSack

/-! ## FORWARD TSN -/

/-- The loop that moves `peer_last_tsn` to the new cumulative TSN (`mod.rs:1533-1536`). -/
def forwardPeerLastTsn (a : Association) (newCumulativeTsn : Tsn) : Association :=
  loop (fun a =>
      if sna32lt a.peerLastTsn newCumulativeTsn then
        .yield { a with
          payloadQueue := (a.payloadQueue.pop (a.peerLastTsn + 1#32)).2
          peerLastTsn := a.peerLastTsn + 1#32 }
      else .done a)
    (ahead a.peerLastTsn newCumulativeTsn + 1) a

/-- `Event::Stream(Readable)` if the stream has become readable. -/
def noteReadable (a : Association) (s : StreamState) : Association :=
  if s.reassemblyQueue.isReadable then a.pushEvent (.stream (.readable s.streamIdentifier)) else a

/-- The loop over the ordered streams a FORWARD TSN names (`mod.rs:1541-1550`). -/
def forwardOrdered (a : Association) (forwarded : StreamId × Ssn) : Association :=
  match a.streams.lookup forwarded.1 with
  | some s =>
    let s := s.handleForwardTsnForOrdered forwarded.2
    { a with streams := Table.adjust forwarded.1 (fun _ => s) a.streams }.noteReadable s
  | none => a

/-- The loop over all streams for their unordered chunks (`mod.rs:1556-1563`). -/
def forwardUnordered (a : Association) (newCumulativeTsn : Tsn) : Association :=
  let forward (_ : StreamId) (s : StreamState) := s.handleForwardTsnForUnordered newCumulativeTsn
  let a := { a with streams := Table.update forward a.streams }
  (Table.values a.streams).foldl noteReadable a

/-- `handle_forward_tsn` (`mod.rs:1485-1570`). -/
def handleForwardTsn (a : Association) (c : ChunkForwardTsn) : List Packet × Association :=
  if !a.useForwardTsn then ([[.error]], a)
  else if sna32lte c.newCumulativeTsn a.peerLastTsn then
    ([], { a with ackState := .immediate, timers := a.timers.stop .ack })
  else
    let a := a.forwardPeerLastTsn c.newCumulativeTsn
    let a := c.streams.foldl forwardOrdered a
    let a := a.forwardUnordered c.newCumulativeTsn
    a.handlePeerLastTsnAndAcknowledgement false

/-! ## Reads and SACKs -/

/-- `Stream::read_sctp` (`stream.rs:128-142`). -/
def readSctp (a : Association) (id : StreamId) : Except Error (Option Chunks) × Association :=
  match a.streams.lookup id with
  | some s =>
    if s.state = .readWritable || s.state = .readable then
      let (chunks, q) := s.reassemblyQueue.read
      let a := { a with streams := Table.adjust id (fun _ => { s with reassemblyQueue := q }) a.streams }
      (.ok chunks, if q.isReadable then a else a.retryDeferredResets id)
    else (.error .errStreamClosed, a)
  | none => (.error .errStreamClosed, a)

/-- `create_selective_ack_chunk` (`mod.rs:3144-3151`). -/
def createSelectiveAckChunk (a : Association) : ChunkSelectiveAck × Association :=
  let (duplicates, q) := a.payloadQueue.popDuplicates
  ({ cumulativeTsnAck := a.peerLastTsn
     advertisedReceiverWindowCredit := a.getMyReceiverWindowCredit
     gapAckBlocks := a.payloadQueue.getGapAckBlocks a.peerLastTsn
     duplicateTsn := duplicates },
    { a with payloadQueue := q })

end Association
end Rtc.Sctp
