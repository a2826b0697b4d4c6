import Rtc.Lib.Bytes
import Rtc.Lib.Table
import Rtc.Shared.Error

/-!
# SCTP chunks

The chunks and parameters of `rtc-sctp/src/chunk` and `param` that an established association exchanges. A TSN is a
`BitVec 32`, a stream sequence number (SSN) a `BitVec 16`; an `Instant` is a natural number of nanoseconds.
-/

namespace Rtc.Sctp

abbrev Tsn := BitVec 32
abbrev Ssn := BitVec 16
abbrev StreamId := BitVec 16
abbrev Instant := Nat

/-- `Duration::from_millis`. -/
def fromMillis (ms : Nat) : Nat := ms * 1000000

/-- `Duration::as_millis`. -/
def asMillis (d : Nat) : Nat := d / 1000000

/-- `PayloadProtocolIdentifier` (`chunk_payload_data.rs:19-35`). -/
inductive PayloadProtocolIdentifier where
  | dcep
  | string
  | binary
  | stringEmpty
  | binaryEmpty
  | unknown
  deriving DecidableEq, Repr

/-- `MessageReliability` (`chunk_payload_data.rs:67-76`). -/
inductive MessageReliability where
  | reliable
  | rexmit (maxRetransmits : Nat)
  | timed (deadline : Instant)
  deriving DecidableEq, Repr

/-- `MessageReliability::deadline` (`chunk_payload_data.rs:79-84`). -/
def MessageReliability.deadline : MessageReliability → Option Instant
  | .timed deadline => some deadline
  | _ => none

/-- `ChunkPayloadData` (`chunk_payload_data.rs:122-163`) with the values of its `Default`. -/
structure ChunkPayloadData where
  unordered : Bool := false
  beginningFragment : Bool := false
  endingFragment : Bool := false
  immediateSack : Bool := false
  tsn : Tsn := 0
  streamIdentifier : StreamId := 0
  streamSequenceNumber : Ssn := 0
  payloadType : PayloadProtocolIdentifier := .unknown
  userData : List Byte := []
  acknowledged : Bool := false
  missIndicator : Nat := 0
  since : Option Instant := none
  createdAt : Option Instant := none
  reliability : MessageReliability := .reliable
  streamGeneration : BitVec 64 := 0
  nsent : Nat := 0
  abandoned : Bool := false
  retransmit : Bool := false
  deriving DecidableEq

namespace ChunkPayloadData

/-- `is_outstanding` (`chunk_payload_data.rs:305-307`). -/
def isOutstanding (c : ChunkPayloadData) : Bool := !c.acknowledged && !c.abandoned

/-- `is_fast_retransmit_candidate` (`chunk_payload_data.rs:309-311`). -/
def isFastRetransmitCandidate (c : ChunkPayloadData) : Bool :=
  c.isOutstanding && c.nsent == 1 && decide (3 ≤ c.missIndicator)

/-- `acknowledge` (`chunk_payload_data.rs:314-319`): the chunk, and whether it was not acknowledged
    before. -/
def acknowledge (c : ChunkPayloadData) : Bool × ChunkPayloadData :=
  (!c.acknowledged, { c with acknowledged := true, retransmit := false })

/-- `mark_abandoned` (`chunk_payload_data.rs:321-324`). -/
def markAbandoned (c : ChunkPayloadData) : ChunkPayloadData :=
  { c with abandoned := true, retransmit := false }

end ChunkPayloadData

/-- `GapAckBlock` (`chunk_selective_ack.rs:39-42`). -/
structure GapAckBlock where
  start : BitVec 16 := 0
  «end» : BitVec 16 := 0
  deriving DecidableEq

/-- `ChunkSelectiveAck` (`chunk_selective_ack.rs:52-57`). -/
structure ChunkSelectiveAck where
  cumulativeTsnAck : Tsn
  advertisedReceiverWindowCredit : Nat
  gapAckBlocks : List GapAckBlock
  duplicateTsn : List Tsn
  deriving DecidableEq

/-- `ChunkForwardTsn` (`chunk_forward_tsn.rs`): the new cumulative TSN and, for each ordered stream
    it skips, the last SSN skipped. -/
structure ChunkForwardTsn where
  newCumulativeTsn : Tsn
  streams : List (StreamId × Ssn)
  deriving DecidableEq

/-- `ParamOutgoingResetRequest`. -/
structure ParamOutgoingResetRequest where
  reconfigRequestSequenceNumber : BitVec 32 := 0
  reconfigResponseSequenceNumber : BitVec 32 := 0
  senderLastTsn : Tsn := 0
  streamIdentifiers : List StreamId := []
  deriving DecidableEq

/-- `ReconfigResult` (`param_reconfig_response.rs:8-18`). An association answers with `successPerformed`
    and `inProgress` only. -/
inductive ReconfigResult where
  | successNop
  | successPerformed
  | denied
  | errorWrongSsn
  | errorRequestAlreadyInProgress
  | errorBadSequenceNumber
  | inProgress
  | unknown
  deriving DecidableEq, Repr

/-- The parameters of a RECONFIG chunk that `handle_reconfig_param` distinguishes. -/
inductive ReconfigParam where
  | outgoingResetRequest (p : ParamOutgoingResetRequest)
  | reconfigResponse (reconfigResponseSequenceNumber : BitVec 32) (result : ReconfigResult)
  | other
  deriving DecidableEq

/-- `ChunkReconfig`. -/
structure ChunkReconfig where
  paramA : Option ReconfigParam
  paramB : Option ReconfigParam := none
  deriving DecidableEq

/-- The chunks an established association sends. -/
inductive OutChunk where
  | payloadData (c : ChunkPayloadData)
  | selectiveAck (c : ChunkSelectiveAck)
  | forwardTsn (c : ChunkForwardTsn)
  | reconfig (c : ChunkReconfig)
  | error
  | shutdown (cumulativeTsnAck : Tsn)
  | shutdownAck
  | shutdownComplete
  deriving DecidableEq

/-- A packet: the chunks it bundles. The common header (ports and verification tag) is left out. -/
abbrev Packet := List OutChunk

end Rtc.Sctp
