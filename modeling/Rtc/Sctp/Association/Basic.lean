import Rtc.Lib.Loop
import Rtc.Sctp.PayloadQueue
import Rtc.Sctp.PendingQueue
import Rtc.Sctp.Stream
import Rtc.Sctp.Timer

/-!
# The association: state and shared helpers

`Association` of `rtc-sctp/src/association/mod.rs` from the end of its handshake on, without the fields of the
handshake, addresses, statistics and logs. Quantities of bytes are natural numbers, cut to 32 bits where the source
casts or adds in `u32`. Hash maps are tables, iterated in the table's order.
-/

namespace Rtc.Sctp
open Shared

/-- `COMMON_HEADER_SIZE` (`config.rs:22`). -/
def commonHeaderSize : Nat := 12

/-- `DATA_CHUNK_HEADER_SIZE` (`config.rs:23`). -/
def dataChunkHeaderSize : Nat := 16

/-- `AssociationState` (`state.rs:5-15`). -/
inductive AssociationState where
  | closed
  | cookieWait
  | cookieEchoed
  | established
  | shutdownAckSent
  | shutdownPending
  | shutdownReceived
  | shutdownSent
  deriving DecidableEq, Repr

/-- `AckMode` (`state.rs:62-68`). -/
inductive AckMode where
  | normal
  | noDelay
  | alwaysDelay
  deriving DecidableEq, Repr

/-- `AckState` (`state.rs:82-88`). -/
inductive AckState where
  | idle
  | immediate
  | delay
  deriving DecidableEq, Repr

/-- The reasons of `AssociationError` that the modelled functions give (`mod.rs:63-91`). -/
inductive AssociationError where
  | transportError
  | associationClosed
  | reset
  deriving DecidableEq, Repr

/-- `StreamEvent` (`stream.rs`). -/
inductive StreamEvent where
  | opened (id : StreamId)
  | readable (id : StreamId)
  | bufferedAmountLow (id : StreamId)
  | bufferedAmountHigh (id : StreamId)
  | bufferedAmountReleased (id : StreamId) (nBytes : Nat)
  deriving DecidableEq

/-- The events of `Event` that the modelled functions emit (`mod.rs:93-121`). -/
inductive Event where
  | connected
  | associationLost (reason : AssociationError) (id : StreamId)
  | stream (e : StreamEvent)
  | datagramReceived
  deriving DecidableEq

/-- `EndpointEventInner`. -/
inductive EndpointEvent where
  | drained
  deriving DecidableEq

/-- `Association` (`mod.rs:150-253`). -/
structure Association where
  state : AssociationState := .closed
  maxMessageSize : Nat
  inflightQueueLength : Nat := 0
  willSendShutdown : Bool := false
  myNextTsn : Tsn
  peerLastTsn : Tsn := 0
  minTsn2measureRtt : Tsn
  willSendForwardTsn : Bool := false
  willRetransmitFast : Bool := false
  willRetransmitReconfig : Bool := false
  t3RetransmitPending : Bool := false
  willSendShutdownAck : Bool := false
  willSendShutdownComplete : Bool := false
  myNextRsn : BitVec 32
  reconfigs : Table (BitVec 32) ChunkReconfig := ∅
  reconfigRequests : Table (BitVec 32) ParamOutgoingResetRequest := ∅
  payloadQueue : PayloadQueue := .new
  inflightQueue : PayloadQueue := .new
  pendingQueue : PendingQueue := .new
  controlQueue : List Packet := []
  streamQueue : List StreamId := []
  mtu : Nat
  maxPayloadSize : Nat
  cumulativeTsnAckPoint : Tsn
  advancedPeerTsnAckPoint : Tsn
  useForwardTsn : Bool := false
  fwdTsnStreamMap : Table StreamId Ssn := ∅
  rtoMgr : RtoManager := {}
  timers : TimerTable
  maxReceiveBufferSize : Nat
  cwnd : Nat
  rwnd : Nat := 0
  ssthresh : Nat := 0
  partialBytesAcked : Nat := 0
  inFastRecovery : Bool := false
  fastRecoverExitPoint : Tsn := 0
  nextStreamGeneration : BitVec 64 := 0
  streams : Table StreamId StreamState := ∅
  events : List Event := []
  endpointEvents : List EndpointEvent := []
  delayedAckTriggered : Bool := false
  immediateAckTriggered : Bool := false
  ackState : AckState := .idle
  ackMode : AckMode := .normal

/-- The settings of `TransportConfig` and `TimerConfig` that `Association::new` reads. -/
structure AssociationConfig where
  maxReceiveBufferSize : Nat
  maxMessageSize : Nat
  maxPayloadSize : Nat
  maxRetrans : Timer → Nat

namespace Association

/-- `Association::new` (`mod.rs:352-435`) for the initial TSN `tsn`. -/
def new (config : AssociationConfig) (tsn : Tsn) : Association :=
  let mtu := min (config.maxPayloadSize + (commonHeaderSize + dataChunkHeaderSize)) (2 ^ 32 - 1)
  { maxReceiveBufferSize := config.maxReceiveBufferSize
    maxMessageSize := config.maxMessageSize
    maxPayloadSize := config.maxPayloadSize
    timers := { maxRetrans := config.maxRetrans }
    mtu := mtu
    cwnd := min (max (min (mtu * 2) (2 ^ 32 - 1)) 4380) (min (mtu * 4) (2 ^ 32 - 1))
    myNextTsn := tsn
    myNextRsn := tsn
    minTsn2measureRtt := tsn
    cumulativeTsnAckPoint := tsn - 1#32
    advancedPeerTsnAckPoint := tsn - 1#32 }

/-- What the handshake leaves (`mod.rs:1036-1066` and the like): the peer's initial TSN and window, and
    whether both sides know FORWARD TSN. -/
def establish (a : Association) (peerInitialTsn : Tsn) (peerRwnd : Nat) (forwardTsn : Bool) :
    Association :=
  { a with
    state := .established
    peerLastTsn := peerInitialTsn - 1#32
    rwnd := peerRwnd
    ssthresh := peerRwnd
    useForwardTsn := forwardTsn }

/-! ## Events and streams -/

/-- `self.events.push_back`. -/
def pushEvent (a : Association) (e : Event) : Association := { a with events := a.events ++ [e] }

/-- `create_stream` (`mod.rs:2143-2172`). -/
def createStream (a : Association) (id : StreamId) (accept : Bool) : Association :=
  let s := { StreamState.new id a.maxPayloadSize with generation := a.nextStreamGeneration }
  let a := { a with nextStreamGeneration := a.nextStreamGeneration + 1#64 }
  let a := if accept then { a with streamQueue := a.streamQueue ++ [id] }.pushEvent (.stream (.opened id))
    else a
  { a with streams := a.streams.insert id s }

/-- `get_or_create_stream` (`mod.rs:2175-2189`), for its effect; it always finds a stream. -/
def getOrCreateStream (a : Association) (id : StreamId) : Association :=
  if (a.streams.lookup id).isSome then a else a.createStream id true

/-- `open_stream` (`mod.rs:742-756`). -/
def openStream (a : Association) (id : StreamId) : Except Error Unit × Association :=
  if (a.streams.lookup id).isSome then (.error .errStreamAlreadyExist, a)
  else (.ok (), a.createStream id false)

/-- `unregister_stream` (`mod.rs:806-815`). -/
def unregisterStream (a : Association) (id : StreamId) (reason : AssociationError) : Association :=
  if (a.streams.lookup id).isSome then
    { a with streams := a.streams.erase id }.pushEvent (.associationLost reason id)
  else a

/-- `has_readable_data` (`mod.rs:2196-2200`). -/
def hasReadableData (a : Association) : Bool :=
  (Table.values a.streams).any fun s => s.reassemblyQueue.isReadable

/-- `get_my_receiver_window_credit` (`mod.rs:2202-2209`). The sum is taken in `u32`. -/
def getMyReceiverWindowCredit (a : Association) : Nat :=
  a.maxReceiveBufferSize - Table.total StreamState.getNumBytesInReassemblyQueue a.streams % 2 ^ 32

/-- `is_current_stream_data` (`mod.rs:2692-2696`). -/
def isCurrentStreamData (a : Association) (c : ChunkPayloadData) : Bool :=
  (a.streams.lookup c.streamIdentifier).any fun s => s.generation == c.streamGeneration

/-- `release_stream_buffers` (`mod.rs:2639-2661`). -/
def releaseStreamBuffers (a : Association) (bytesAckedPerStream : Table StreamId Nat) : Association :=
  bytesAckedPerStream.entries.foldl (fun a e =>
    let a := if 0 < e.2 then a.pushEvent (.stream (.bufferedAmountReleased e.1 e.2)) else a
    match a.streams.lookup e.1 with
    | some s =>
      let (low, s) := s.onBufferReleased e.2
      let a := { a with streams := Table.adjust e.1 (fun _ => s) a.streams }
      if low then a.pushEvent (.stream (.bufferedAmountLow e.1)) else a
    | none => a) a

/-! ## Sequence numbers -/

/-- `generate_next_tsn` (`mod.rs:3131-3135`). -/
def generateNextTsn (a : Association) : Tsn × Association :=
  (a.myNextTsn, { a with myNextTsn := a.myNextTsn + 1#32 })

/-- `generate_next_rsn` (`mod.rs:3138-3142`). -/
def generateNextRsn (a : Association) : BitVec 32 × Association :=
  (a.myNextRsn, { a with myNextRsn := a.myNextRsn + 1#32 })

/-! ## Closing -/

/-- `close_all_timers` (`mod.rs:3316-3321`). -/
def closeAllTimers (a : Association) : Association :=
  { a with timers := Timer.values.foldl TimerTable.stop a.timers }

/-- `close` (`mod.rs:698-739`). -/
def close (a : Association) (reason : AssociationError) : Association :=
  if a.state = .closed then a
  else
    let a := { a with state := .closed }.closeAllTimers
    a.streams.keys.foldl (fun a id => a.unregisterStream id reason) a

/-- `fail_message_queue` (`mod.rs:2882-2889`). -/
def failMessageQueue (a : Association) : Association :=
  let a := a.close .transportError
  { a with controlQueue := [], endpointEvents := a.endpointEvents ++ [.drained] }

end Association
end Rtc.Sctp
