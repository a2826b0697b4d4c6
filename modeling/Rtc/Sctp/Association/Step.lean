import Rtc.Lib.Runs
import Rtc.Sctp.Association.Send

/-!
# The association as a state machine

Inbound packets, timer expiries and the calls of the application, as one step function, without the handshake,
HEARTBEAT, ABORT and ERROR. An error while a packet is handled closes the association (`handle_event`).
-/

namespace Rtc.Sctp
open Shared

/-- The chunks of an inbound packet that `handle_chunk` distinguishes once the handshake is over. -/
inductive InChunk where
  | payloadData (c : ChunkPayloadData)
  | selectiveAck (c : ChunkSelectiveAck)
  | reconfig (c : ChunkReconfig)
  | forwardTsn (c : ChunkForwardTsn)
  | shutdown
  | shutdownAck
  | shutdownComplete

/-- What an association is driven by. -/
inductive Input where
  | openStream (id : StreamId)
  | setReliabilityParams (id : StreamId) (unordered : Bool) (relType : ReliabilityType) (relVal : Nat)
  | write (id : StreamId) (now : Instant) (raw : List Byte) (ppi : PayloadProtocolIdentifier)
  | read (id : StreamId)
  | stop (id : StreamId) (now : Instant)
  | inbound (chunks : List InChunk) (now : Instant)
  | gatherOutbound (now : Instant)
  | timeout (now : Instant)
  | shutdown

namespace Association

/-! ## Inbound packets -/

/-- `handle_shutdown` (`mod.rs:1572-1594`). -/
def handleShutdown (a : Association) : Association :=
  if a.state = .established then
    if !a.inflightQueue.isEmpty then { a with state := .shutdownReceived }
    else { a with willSendShutdownAck := true, state := .shutdownAckSent }
  else if a.state = .shutdownSent then { a with willSendShutdownAck := true, state := .shutdownAckSent }
  else a

/-- `handle_shutdown_ack` (`mod.rs:1596-1606`). -/
def handleShutdownAck (a : Association) : Association :=
  if a.state = .shutdownSent || a.state = .shutdownAckSent then
    { a with timers := a.timers.stop .t2Shutdown, willSendShutdownComplete := true }
  else a

/-- `handle_shutdown_complete` (`mod.rs:1608-1617`). -/
def handleShutdownComplete (a : Association) : Association :=
  if a.state = .shutdownAckSent then
    { a with timers := a.timers.stop .t2Shutdown }.close .associationClosed
  else a

/-- The dispatch of `handle_chunk` (`mod.rs:949-995`). -/
def dispatch (a : Association) (now : Instant) : InChunk → Except Error (List Packet) × Association
  | .payloadData c => let (packets, a) := a.handleData c; (.ok packets, a)
  | .selectiveAck c =>
    match a.handleSack c now with
    | (.ok (), a) => (.ok [], a)
    | (.error e, a) => (.error e, a)
  | .reconfig c => a.handleReconfig c
  | .forwardTsn c => let (packets, a) := a.handleForwardTsn c; (.ok packets, a)
  | .shutdown => (.ok [], a.handleShutdown)
  | .shutdownAck => (.ok [], a.handleShutdownAck)
  | .shutdownComplete => (.ok [], a.handleShutdownComplete)

/-- The loop of `handle_inbound` over the chunks of a packet (`mod.rs:922-924`), with the replies put in
    the control queue. -/
def handleChunks (now : Instant) : List InChunk → Association → Except Error Unit × Association
  | [], a => (.ok (), a)
  | c :: rest, a =>
    match a.dispatch now c with
    | (.error e, a) => (.error e, a)
    | (.ok packets, a) => handleChunks now rest { a with controlQueue := a.controlQueue ++ packets }

/-- `handle_chunk_end` (`mod.rs:936-946`). -/
def handleChunkEnd (a : Association) (now : Instant) : Association :=
  if a.immediateAckTriggered then { a with ackState := .immediate, timers := a.timers.stop .ack }
  else if a.delayedAckTriggered then
    { a with ackState := .delay, timers := a.timers.start .ack now ackInterval }
  else a

/-- `handle_event` (`mod.rs:545-582`) for a packet that parses, through `handle_inbound`. -/
def handleInbound (a : Association) (chunks : List InChunk) (now : Instant) : Association :=
  let a := { a with delayedAckTriggered := false, immediateAckTriggered := false }
  match handleChunks now chunks a with
  | (.ok (), a) => a.handleChunkEnd now
  | (.error _, a) => a.close .transportError

/-! ## Timers -/

/-- `on_retransmission_timeout` for T3-rtx (`mod.rs:3371-3419`). -/
def onT3Timeout (a : Association) (now : Instant) : Association :=
  match { a with rtoMgr := a.rtoMgr.backoff }.abandonUnretransmittableMessages now
      ChunkPayloadData.isOutstanding with
  | (.error _, a) => a.failMessageQueue
  | (.ok (), a) =>
    let a := { a with ssthresh := max (a.cwnd / 2) (4 * a.mtu % 2 ^ 32), cwnd := a.mtu }
    let a := if a.useForwardTsn then a.advancePeerAckPoint else a
    { a with inflightQueue := a.inflightQueue.markAllToRetransmit, t3RetransmitPending := true }

/-- `on_retransmission_timeout` (`mod.rs:3333-3427`). The timers of the handshake do nothing here. -/
def onRetransmissionTimeout (a : Association) (now : Instant) : Timer → Association
  | .t1Init | .t1Cookie | .ack => a
  | .t2Shutdown =>
    match a.state with
    | .shutdownSent => { a with willSendShutdown := true }
    | .shutdownAckSent => { a with willSendShutdownAck := true }
    | _ => a
  | .t3Rtx => a.onT3Timeout now
  | .reconfig => { a with willRetransmitReconfig := true }

/-- One timer of `handle_timeout` (`mod.rs:518-537`), and whether the loop goes on. `on_retransmission_failure`
    changes nothing here. -/
def expireTimer (a : Association) (now : Instant) (timer : Timer) : Bool × Association :=
  let ((expired, failure, _), timers) := a.timers.isExpired timer now
  let a := { a with timers := timers }
  if !expired then (true, a)
  else
    let a := { a with timers := a.timers.set timer none }
    if timer = .ack then (true, { a with ackState := .immediate })
    else if failure then (true, a)
    else
      let a := a.onRetransmissionTimeout now timer
      if a.state = .closed then (false, a)
      else (true, { a with timers := a.timers.start timer now a.rtoMgr.getRto })

/-- `handle_timeout` (`mod.rs:517-538`) over the timers still to look at. -/
def expireTimers (now : Instant) : List Timer → Association → Association
  | [], a => a
  | timer :: rest, a =>
    match a.expireTimer now timer with
    | (true, a) => expireTimers now rest a
    | (false, a) => a

/-- `handle_timeout` (`mod.rs:517-538`). -/
def handleTimeout (a : Association) (now : Instant) : Association := expireTimers now Timer.values a

/-! ## The step function -/

/-- `shutdown` (`mod.rs:674-696`). -/
def shutdown (a : Association) : Except Error Unit × Association :=
  if a.state ≠ .established then (.error .errShutdownNonEstablished, a)
  else
    let a := { a with state := .shutdownPending }
    let a := if a.inflightQueueLength = 0 then
        { a with willSendShutdown := true, state := .shutdownSent }
      else a
    (.ok (), { a with endpointEvents := a.endpointEvents ++ [.drained] })

/-- The association after one input. -/
def step (a : Association) : Input → Association
  | .openStream id => (a.openStream id).2
  | .setReliabilityParams id unordered relType relVal =>
    (a.setReliabilityParams id unordered relType relVal).2
  | .write id now raw ppi => (a.writeSource id now raw ppi).2
  | .read id => (a.readSctp id).2
  | .stop id now => (a.stop id now).2
  | .inbound chunks now => a.handleInbound chunks now
  | .gatherOutbound now => (a.gatherOutbound now).2
  | .timeout now => a.handleTimeout now
  | .shutdown => a.shutdown.2

end Association
end Rtc.Sctp
