import Rtc.Interceptor.Nack.ReceiveLog
import Rtc.Lib.Table

/-!
# The NACK generator

`NackGeneratorInterceptor` of `rtc-interceptor/src/nack/generator.rs`: a receive log for every remote
stream that negotiated NACK, and a timer that requests what the logs report missing, each number at
most `max_nacks_per_packet` times (0 is no limit).
-/

namespace Rtc.Interceptor

/-- `NackGeneratorInterceptor` (`generator.rs:105-128`). -/
structure NackGenerator where
  size : BitVec 16
  interval : Duration
  skipLastN : BitVec 16
  maxNacksPerPacket : BitVec 16
  nextTimeout : Option Instant
  senderSsrc : Ssrc
  receiveLogs : Table Ssrc ReceiveLog
  nackCounts : Table Ssrc (Table Seq (BitVec 16))
  writeQueue : List TaggedPacket
  readQueue : List TaggedPacket

namespace NackGenerator

/-- `new` (`generator.rs:131-144`), with the sender SSRC it draws. -/
def new (size : BitVec 16) (interval : Duration) (skipLastN maxNacksPerPacket : BitVec 16)
    (senderSsrc : Ssrc) : NackGenerator where
  size
  interval
  skipLastN
  maxNacksPerPacket
  nextTimeout := none
  senderSsrc
  receiveLogs := ∅
  nackCounts := ∅
  writeQueue := []
  readQueue := []

/-- The closure that filters the missing numbers (`generator.rs:172-180`): the counts, and the numbers
    kept. -/
def countNack (limit : BitVec 16) (state : Table Seq (BitVec 16) × List Seq) (seq : Seq) :
    Table Seq (BitVec 16) × List Seq :=
  let (nackCount, kept) := state
  let count := (nackCount.lookup seq).getD 0#16
  if count < limit then (nackCount.insert seq (count + 1#16), kept ++ [seq])
  else (nackCount.insert seq count, kept)

/-- The filter by `max_nacks_per_packet` (`generator.rs:158-181`): the counts of the stream, and the
    numbers kept. -/
def limitNacks (g : NackGenerator) (nackCount : Table Seq (BitVec 16)) (log : ReceiveLog) :
    Table Seq (BitVec 16) × List Seq :=
  (log.missingSeqNumbers g.skipLastN).foldl (countNack g.maxNacksPerPacket)
    (Table.retain (fun seq _ => log.isMissing seq g.skipLastN) nackCount, [])

/-- One round of the loop of `generate_nacks` (`generator.rs:149-183`): the counts, and the numbers to
    request of this stream. -/
def selectNacks (g : NackGenerator) (nackCounts : Table Ssrc (Table Seq (BitVec 16))) (ssrc : Ssrc)
    (log : ReceiveLog) : Table Ssrc (Table Seq (BitVec 16)) × List Seq :=
  let missing := log.missingSeqNumbers g.skipLastN
  if missing = [] then (nackCounts.erase ssrc, [])
  else if 0#16 < g.maxNacksPerPacket then
    let (nackCount, filtered) := g.limitNacks ((nackCounts.lookup ssrc).getD ∅) log
    (nackCounts.insert ssrc nackCount, filtered)
  else (nackCounts, missing)

/-- The packet for the numbers selected, if there are any (`generator.rs:185-196`). -/
def nackPacket (g : NackGenerator) (ssrc : Ssrc) (filtered : List Seq) :
    Option Rtcp.TransportLayerNack :=
  if filtered = [] then none
  else some {
    senderSsrc := g.senderSsrc
    mediaSsrc := ssrc
    nacks := Rtcp.nackPairsFromSequenceNumbers filtered }

/-- One stream of the loop of `generate_nacks`: the counts, and the packets so far. -/
def nackStream (g : NackGenerator)
    (state : Table Ssrc (Table Seq (BitVec 16)) × List Rtcp.TransportLayerNack)
    (stream : Σ _ : Ssrc, ReceiveLog) :
    Table Ssrc (Table Seq (BitVec 16)) × List Rtcp.TransportLayerNack :=
  let (nackCounts, filtered) := g.selectNacks state.1 stream.1 stream.2
  (nackCounts, state.2 ++ (g.nackPacket stream.1 filtered).toList)

/-- The loop of `generate_nacks`: the counts, and the packets in order. -/
def nackStreams (g : NackGenerator) (streams : List (Σ _ : Ssrc, ReceiveLog))
    (nackCounts : Table Ssrc (Table Seq (BitVec 16))) :
    Table Ssrc (Table Seq (BitVec 16)) × List Rtcp.TransportLayerNack :=
  streams.foldl g.nackStream (nackCounts, [])

/-- `generate_nacks` (`generator.rs:147-204`). -/
def generateNacks (g : NackGenerator) (now : Instant) : NackGenerator :=
  let (nackCounts, nacks) := g.nackStreams g.receiveLogs.entries g.nackCounts
  { g with
    nackCounts
    writeQueue := g.writeQueue ++ nacks.map fun nack => ⟨now, .rtcp [.transportLayerNack nack]⟩ }

/-- `handle_read` (`generator.rs:214-231`). -/
def handleRead (g : NackGenerator) (msg : TaggedPacket) : NackGenerator :=
  let g := match msg.message with
    | .rtp packet =>
      match g.receiveLogs.lookup packet.header.ssrc with
      | some _ =>
        { g with
          receiveLogs := Table.adjust packet.header.ssrc
            (fun log => log.add packet.header.sequenceNumber) g.receiveLogs
          nextTimeout := g.nextTimeout.or (some (msg.now + g.interval)) }
      | none => g
    | .rtcp _ => g
  { g with readQueue := g.readQueue ++ [msg] }

/-- Whether the NACK timer has run out (`generator.rs:251-253`). -/
def due (g : NackGenerator) (now : Instant) : Bool :=
  match g.nextTimeout with
  | some nextTimeout => nextTimeout ≤ now
  | none => false

/-- `handle_timeout` (`generator.rs:250-258`). -/
def handleTimeout (g : NackGenerator) (now : Instant) : NackGenerator :=
  if g.due now then { g with nextTimeout := some (now + g.interval) }.generateNacks now else g

/-- `stream_supports_nack` (`nack/mod.rs:21-25`). -/
def streamSupportsNack (info : StreamInfo) : Bool :=
  info.rtcpFeedback.any fun (typ, parameter) => typ = "nack" && parameter.isEmpty

/-- `bind_remote_stream` (`generator.rs:266-272`). -/
def bindRemoteStream (g : NackGenerator) (info : StreamInfo) : NackGenerator :=
  if streamSupportsNack info then
    match ReceiveLog.new g.size with
    | some log => { g with receiveLogs := g.receiveLogs.insert info.ssrc log }
    | none => g
  else g

/-- `unbind_remote_stream` (`generator.rs:274-277`). -/
def unbindRemoteStream (g : NackGenerator) (info : StreamInfo) : NackGenerator :=
  { g with
    receiveLogs := g.receiveLogs.erase info.ssrc
    nackCounts := g.nackCounts.erase info.ssrc }

/-- A call of the interceptor. -/
inductive Input where
  | handleRead (msg : TaggedPacket)
  | pollRead
  | handleWrite (msg : TaggedPacket)
  | pollWrite
  | handleTimeout (now : Instant)
  | bindRemoteStream (info : StreamInfo)
  | unbindRemoteStream (info : StreamInfo)

/-- The state after a call. -/
def step (g : NackGenerator) : Input → NackGenerator
  | .handleRead msg => g.handleRead msg
  | .pollRead => { g with readQueue := g.readQueue.drop 1 }
  | .handleWrite msg => { g with writeQueue := g.writeQueue ++ [msg] }
  | .pollWrite => { g with writeQueue := g.writeQueue.drop 1 }
  | .handleTimeout now => g.handleTimeout now
  | .bindRemoteStream info => g.bindRemoteStream info
  | .unbindRemoteStream info => g.unbindRemoteStream info

/-- The NACKs a call emits: those `generate_nacks` puts on the write queue. -/
def emitted (g : NackGenerator) : Input → List Rtcp.TransportLayerNack
  | .handleTimeout now =>
    if g.due now then (g.nackStreams g.receiveLogs.entries g.nackCounts).2 else []
  | _ => []

end NackGenerator

end Rtc.Interceptor
