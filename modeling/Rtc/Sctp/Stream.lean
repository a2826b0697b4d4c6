import Rtc.Sctp.ReassemblyQueue

/-!
# Streams

`StreamState` of `rtc-sctp/src/association/stream.rs`: the reassembly queue of the receiving side and
the sequence number, reliability and buffer accounting of the sending side.
-/

namespace Rtc.Sctp

/-- `RecvSendState` (`stream.rs:427-433`). -/
inductive RecvSendState where
  | closed
  | readable
  | writable
  | readWritable
  deriving DecidableEq, Repr

/-- The state without its reading half, `(state & 0x2).into()` (`stream.rs:293`). -/
def RecvSendState.withoutRead : RecvSendState → RecvSendState
  | .writable | .readWritable => .writable
  | .closed | .readable => .closed

/-- `ReliabilityType` (`stream.rs:80-88`). -/
inductive ReliabilityType where
  | reliable
  | rexmit
  | timed
  deriving DecidableEq, Repr

/-- `StreamState` (`stream.rs:448-465`). -/
structure StreamState where
  maxPayloadSize : Nat
  streamIdentifier : StreamId
  generation : BitVec 64 := 0
  reassemblyQueue : ReassemblyQueue
  sequenceNumber : Ssn := 0
  state : RecvSendState := .readWritable
  unordered : Bool := false
  reliabilityType : ReliabilityType := .reliable
  reliabilityValue : Nat := 0
  bufferedAmount : Nat := 0
  bufferedAmountLow : Nat := 0
  bufferedAmountHigh : Nat := 2 ^ 32 - 1
  deriving DecidableEq

namespace StreamState

/-- `StreamState::new` (`stream.rs:466-488`). -/
def new (streamIdentifier : StreamId) (maxPayloadSize : Nat) : StreamState where
  maxPayloadSize := maxPayloadSize
  streamIdentifier := streamIdentifier
  reassemblyQueue := ReassemblyQueue.new streamIdentifier

/-- `handle_data` (`stream.rs:490-492`). -/
def handleData (s : StreamState) (pd : ChunkPayloadData) : Bool × StreamState :=
  let (complete, q) := s.reassemblyQueue.push pd
  (complete, { s with reassemblyQueue := q })

/-- `handle_forward_tsn_for_ordered` (`stream.rs:494-502`). -/
def handleForwardTsnForOrdered (s : StreamState) (ssn : Ssn) : StreamState :=
  if s.unordered then s
  else { s with reassemblyQueue := s.reassemblyQueue.forwardTsnForOrdered ssn }

/-- `handle_forward_tsn_for_unordered` (`stream.rs:504-513`). -/
def handleForwardTsnForUnordered (s : StreamState) (newCumulativeTsn : Tsn) : StreamState :=
  if !s.unordered then s
  else { s with reassemblyQueue := s.reassemblyQueue.forwardTsnForUnordered newCumulativeTsn }

/-- The loop of `packetize` (`stream.rs:544-572`), at byte `i` with `rest` still to cut. The bound on
    its rounds is the length of the message: each takes at least one byte, unless the payload size is
    zero, where the source does not return. -/
def fragments (template : ChunkPayloadData) (maxPayloadSize : Nat) :
    Nat → Nat → List Byte → List ChunkPayloadData
  | 0, _, _ => []
  | n + 1, i, rest =>
    if rest.length = 0 then []
    else
      let fragmentSize := min maxPayloadSize rest.length
      { template with
        userData := rest.take fragmentSize
        beginningFragment := i == 0
        endingFragment := rest.length - fragmentSize == 0 }
        :: fragments template maxPayloadSize n (i + fragmentSize) (rest.drop fragmentSize)

/-- The reliability `packetize` gives to a message (`stream.rs:527-540`). -/
def messageReliability (s : StreamState) (now : Instant) (ppi : PayloadProtocolIdentifier) :
    MessageReliability :=
  if ppi = .dcep then .reliable
  else
    match s.reliabilityType with
    | .reliable => .reliable
    | .rexmit => .rexmit s.reliabilityValue
    | .timed => .timed (now + fromMillis s.reliabilityValue)

/-- `packetize` (`stream.rs:515-596`): whether the buffer passed its high mark, and the fragments. -/
def packetize (s : StreamState) (now : Instant) (raw : List Byte) (ppi : PayloadProtocolIdentifier) :
    (Bool × List ChunkPayloadData) × StreamState :=
  let unordered := ppi ≠ .dcep && s.unordered
  let template : ChunkPayloadData :=
    { createdAt := some now
      reliability := s.messageReliability now ppi
      streamGeneration := s.generation
      streamIdentifier := s.streamIdentifier
      unordered := unordered
      immediateSack := false
      payloadType := ppi
      streamSequenceNumber := s.sequenceNumber }
  let chunks := fragments template s.maxPayloadSize raw.length 0 raw
  let oldAmount := s.bufferedAmount
  let newAmount := oldAmount + raw.length
  let isBufferedAmountHigh :=
    decide (oldAmount < s.bufferedAmountHigh) && decide (s.bufferedAmountHigh ≤ newAmount)
  ((isBufferedAmountHigh, chunks),
    { s with
      sequenceNumber := if unordered then s.sequenceNumber else s.sequenceNumber + 1#16
      bufferedAmount := newAmount })

/-- `on_buffer_released` (`stream.rs:600-625`): whether the buffer fell to its low mark. -/
def onBufferReleased (s : StreamState) (nBytesReleased : Nat) : Bool × StreamState :=
  if nBytesReleased = 0 then (false, s)
  else
    let oldAmount := s.bufferedAmount
    let newAmount := oldAmount - nBytesReleased
    (decide (s.bufferedAmountLow < oldAmount) && decide (newAmount ≤ s.bufferedAmountLow),
      { s with bufferedAmount := newAmount })

/-- `get_num_bytes_in_reassembly_queue` (`stream.rs:627-630`). -/
def getNumBytesInReassemblyQueue (s : StreamState) : Nat := s.reassemblyQueue.getNumBytes

end StreamState
end Rtc.Sctp
