import Rtc.Interceptor.Basic
import Rtc.Lib.Serial
import Rtc.Rtcp.TransportLayerCc

/-!
# Building transport-wide feedback

`Feedback` of `rtc-interceptor/src/twcc/recorder.rs` and the `Chunk` in which it collects statuses. A chunk is
kept open as long as one of the three encodings can hold it with the next status.
-/

namespace Rtc.Interceptor.Twcc

open Rtcp (SymbolTypeTcc PacketStatusChunk RecvDelta TransportLayerCc)

/-- `Chunk` (`recorder.rs:317-321`). -/
structure Chunk where
  hasLargeDelta : Bool
  hasDifferentTypes : Bool
  deltas : List SymbolTypeTcc
  deriving DecidableEq, Repr

namespace Chunk

/-- `Chunk::new` (`recorder.rs:324-330`), and what `reset` (`recorder.rs:406-410`) leaves. -/
def new : Chunk := ⟨false, false, []⟩

/-- `can_add` (`recorder.rs:332-349`). -/
def canAdd (c : Chunk) (delta : SymbolTypeTcc) : Bool :=
  if c.deltas.length < 7 then true
  else if c.deltas.length < 14 ∧ !c.hasLargeDelta ∧ delta ≠ .packetReceivedLargeDelta then true
  else if c.deltas.length < 0x1fff ∧ !c.hasDifferentTypes ∧ c.deltas.head? = some delta then true
  else false

/-- `add` (`recorder.rs:351-358`). -/
def add (c : Chunk) (delta : SymbolTypeTcc) : Chunk where
  hasDifferentTypes := c.hasDifferentTypes || (!c.deltas.isEmpty && c.deltas.head? != some delta)
  hasLargeDelta := c.hasLargeDelta || delta = .packetReceivedLargeDelta
  deltas := c.deltas ++ [delta]

/-- The statuses that stay after a two-bit chunk, with their flags (`recorder.rs:387-401`). -/
def ofDeltas (deltas : List SymbolTypeTcc) : Chunk where
  hasDifferentTypes := deltas.any fun d => deltas.head? ≠ some d
  hasLargeDelta := deltas.any fun d => d = .packetReceivedLargeDelta
  deltas := deltas

/-- `encode` (`recorder.rs:360-404`). It is called on a chunk with a status only. -/
def encode (c : Chunk) : PacketStatusChunk × Chunk :=
  if !c.hasDifferentTypes then
    (.runLengthChunk ⟨.runLengthChunk, c.deltas.headD .packetNotReceived, BitVec.ofNat 16 c.deltas.length⟩, new)
  else if c.deltas.length = 14 then
    (.statusVectorChunk ⟨.statusVectorChunk, .oneBit, c.deltas⟩, new)
  else
    let minCap := min 7 c.deltas.length
    (.statusVectorChunk ⟨.statusVectorChunk, .twoBit, c.deltas.take minCap⟩, ofDeltas (c.deltas.drop minCap))

/-- The loop of `get_rtcp` (`recorder.rs:252-254`). -/
def flush : Nat → Chunk → List PacketStatusChunk
  | 0, _ => []
  | fuel + 1, c => if c.deltas = [] then [] else c.encode.1 :: flush fuel c.encode.2

end Chunk

/-- `Feedback` (`recorder.rs:210-223`). -/
structure Feedback where
  senderSsrc : Ssrc
  mediaSsrc : Ssrc
  fbPktCnt : Byte
  baseSequenceNumber : Seq
  refTimestamp64ms : Int
  lastTimestampUs : Int
  nextSequenceNumber : Seq
  sequenceNumberCount : BitVec 16
  len : Nat
  lastChunk : Chunk
  chunks : List PacketStatusChunk
  deltas : List RecvDelta

namespace Feedback

/-- `Feedback::new` (`recorder.rs:226-241`). -/
def new (senderSsrc mediaSsrc : Ssrc) (fbPktCnt : Byte) : Feedback :=
  ⟨senderSsrc, mediaSsrc, fbPktCnt, 0#16, 0, 0, 0#16, 0#16, 0, .new, [], []⟩

/-- `set_base` (`recorder.rs:243-248`). -/
def setBase (f : Feedback) (sequenceNumber : Seq) (timeUs : Int) : Feedback :=
  { f with
    baseSequenceNumber := sequenceNumber
    nextSequenceNumber := sequenceNumber
    refTimestamp64ms := timeUs.tdiv 64000
    lastTimestampUs := timeUs.tdiv 64000 * 64000 }

/-- One status of `add_received` (`recorder.rs:284-289`, `300-303`, `309-310`): the chunk is closed if it cannot
    hold it. -/
def addSymbol (f : Feedback) (symbol : SymbolTypeTcc) : Feedback :=
  let f := if f.lastChunk.canAdd symbol then f
    else { f with chunks := f.chunks ++ [f.lastChunk.encode.1], lastChunk := f.lastChunk.encode.2 }
  { f with
    lastChunk := f.lastChunk.add symbol
    sequenceNumberCount := f.sequenceNumberCount + 1#16
    nextSequenceNumber := f.nextSequenceNumber + 1#16 }

/-- The delta of a packet, rounded to units of 250 microseconds (`recorder.rs:269-274`). -/
def delta250us (f : Feedback) (timestampUs : Int) : Int :=
  let deltaUs := timestampUs - f.lastTimestampUs
  if 0 ≤ deltaUs then (deltaUs + 125).tdiv 250 else (deltaUs - 125).tdiv 250

/-- `add_received` (`recorder.rs:268-313`): whether the packet was added. -/
def addReceived (f : Feedback) (sequenceNumber : Seq) (timestampUs : Int) : Bool × Feedback :=
  let delta250us := f.delta250us timestampUs
  if delta250us < -32768 ∨ 32767 < delta250us then (false, f)
  else
    let missing := Serial.ahead f.nextSequenceNumber sequenceNumber
    let f := (List.replicate missing .packetNotReceived).foldl addSymbol f
    let small := 0 ≤ delta250us ∧ delta250us ≤ 0xff
    let recvDelta := if small then SymbolTypeTcc.packetReceivedSmallDelta else .packetReceivedLargeDelta
    let f := f.addSymbol recvDelta
    (true, { f with
      len := f.len + if small then 1 else 2
      deltas := f.deltas ++ [⟨recvDelta, delta250us * 250⟩]
      lastTimestampUs := f.lastTimestampUs + delta250us * 250 })

/-- `get_rtcp` (`recorder.rs:250-266`). -/
def getRtcp (f : Feedback) : TransportLayerCc where
  senderSsrc := f.senderSsrc
  mediaSsrc := f.mediaSsrc
  baseSequenceNumber := f.baseSequenceNumber
  packetStatusCount := f.sequenceNumberCount
  referenceTime := BitVec.ofInt 32 f.refTimestamp64ms
  fbPktCount := f.fbPktCnt
  packetChunks := f.chunks ++ f.lastChunk.flush f.lastChunk.deltas.length
  recvDeltas := f.deltas

end Feedback

end Rtc.Interceptor.Twcc
