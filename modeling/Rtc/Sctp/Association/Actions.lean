import Rtc.Sctp.Association.Handshake

/-!
# The association with its handshake, action by action

The calls of the application, the timers and the chunks of inbound packets, as one step function from
`Association::new` on. A packet is taken chunk by chunk: `handle_inbound` is a run of actions. Handshake packets stay
in their queue.
-/

namespace Rtc.Sctp
open Shared Wire

/-- What an association is driven by, from the start of its handshake. -/
inductive Action where
  | openStream (id : StreamId)
  | setReliabilityParams (id : StreamId) (unordered : Bool) (relType : ReliabilityType) (relVal : Nat)
  | write (id : StreamId) (now : Instant) (raw : List Byte) (ppi : PayloadProtocolIdentifier)
  | read (id : StreamId)
  | stop (id : StreamId) (now : Instant)
  | gatherOutbound (now : Instant)
  | timeout (now : Instant)
  | shutdown
  | close (reason : AssociationError)
  /-- the start of `handle_inbound` -/
  | packetStart
  | chunk (p : Wire.Packet) (now : Instant) (random : List Byte) (c : Chunk)
  | packetEnd (now : Instant)

namespace HandshakeAssociation

/-! ## Timers -/

/-- `on_retransmission_timeout` (`mod.rs:3333-3427`) with the timers of the handshake. -/
def onRetransmissionTimeout (a : HandshakeAssociation) (now : Instant) : Timer → HandshakeAssociation
  | .t1Init => a.sendInit.2
  | .t1Cookie => a.sendCookieEcho.2
  | timer => { a with toAssociation := a.toAssociation.onRetransmissionTimeout now timer }

/-- One timer of `handle_timeout` (`mod.rs:518-537`), and whether the loop goes on. -/
def expireTimer (a : HandshakeAssociation) (now : Instant) (timer : Timer) : Bool × HandshakeAssociation :=
  let ((expired, failure, _), timers) := a.timers.isExpired timer now
  let a := { a with timers := timers }
  if !expired then (true, a)
  else
    let a := { a with timers := a.timers.set timer none }
    if timer = .ack then (true, { a with ackState := .immediate })
    else if failure then (true, a)
    else
      let a := a.onRetransmissionTimeout now timer
      if a.state = .closed then (false, a)
      else (true, { a with timers := a.timers.start timer now a.rtoMgr.getRto })

/-- `handle_timeout` (`mod.rs:517-538`) over the timers still to look at. -/
def expireTimers (now : Instant) : List Timer → HandshakeAssociation → HandshakeAssociation
  | [], a => a
  | timer :: rest, a =>
    match a.expireTimer now timer with
    | (true, a) => expireTimers now rest a
    | (false, a) => a

/-- `handle_timeout` (`mod.rs:517-538`). -/
def handleTimeout (a : HandshakeAssociation) (now : Instant) : HandshakeAssociation :=
  expireTimers now Timer.values a

/-! ## Actions -/

/-- A call that the handshake has no part in. -/
def withAssociation (a : HandshakeAssociation) (b : Association) : HandshakeAssociation := { a with toAssociation := b }

/-- The association after one action. -/
def act (a : HandshakeAssociation) : Action → HandshakeAssociation
  | .openStream id => a.withAssociation (a.toAssociation.openStream id).2
  | .setReliabilityParams id unordered relType relVal =>
    a.withAssociation (a.toAssociation.setReliabilityParams id unordered relType relVal).2
  | .write id now raw ppi => a.withAssociation (a.toAssociation.writeSource id now raw ppi).2
  | .read id => a.withAssociation (a.toAssociation.readSctp id).2
  | .stop id now => a.withAssociation (a.toAssociation.stop id now).2
  | .gatherOutbound now => a.withAssociation (a.toAssociation.gatherOutbound now).2
  | .timeout now => a.handleTimeout now
  | .shutdown => a.withAssociation a.toAssociation.shutdown.2
  | .close reason => a.close reason
  | .packetStart => { a with delayedAckTriggered := false, immediateAckTriggered := false }
  | .chunk p now random c => (a.handleChunk p now random c).2
  | .packetEnd now => a.withAssociation (a.toAssociation.handleChunkEnd now)

/-- The actions of the chunks of a packet: an error ends them and closes the association. -/
def chunkActions (p : Wire.Packet) (now : Instant) (random : List Byte) :
    List Chunk → HandshakeAssociation → List Action
  | [], _ => [.packetEnd now]
  | c :: rest, a =>
    .chunk p now random c ::
      match a.handleChunk p now random c with
      | (.error _, _) => [.close .transportError]
      | (.ok (), a) => chunkActions p now random rest a

theorem run_chunkActions (p : Wire.Packet) (now : Instant) (random : List Byte) (chunks : List Chunk)
    (a : HandshakeAssociation) : Runs.run act a (chunkActions p now random chunks a) =
      match handleChunks p now random chunks a with
      | (.ok (), a) => { a with toAssociation := a.toAssociation.handleChunkEnd now }
      | (.error _, a) => a.close .transportError := by
  induction chunks generalizing a with
  | nil => rfl
  | cons c rest ih =>
    rw [chunkActions, handleChunks, Runs.run_cons]
    change Runs.run act (a.handleChunk p now random c).2 _ = _
    rcases a.handleChunk p now random c with ⟨_ | _, b⟩
    · rfl
    · exact ih b

/-! ## Errors

`act` leaves what is done about an error of a chunk to the next action. Here it is part of the action. -/

/-- The association after one action, closed if it was a chunk that fails (`mod.rs:571-574`). -/
def drive (a : HandshakeAssociation) : Action → HandshakeAssociation
  | .chunk p now random c =>
    match a.handleChunk p now random c with
    | (.ok (), a) => a
    | (.error _, a) => a.close .transportError
  | action => a.act action

end HandshakeAssociation
end Rtc.Sctp
