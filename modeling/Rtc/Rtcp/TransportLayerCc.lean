import Rtc.Rtcp.Reports

/-!
# Transport-wide congestion control feedback

`TransportLayerCc` of `rtc-rtcp/src/transport_feedbacks/transport_layer_cc/mod.rs`: the status chunks,
the receive deltas and the codec. Decoding walks the chunks until the status count is reached and then
reads one delta for every status that has one.
-/

namespace Rtc.Rtcp
open Bytes Shared

/-- `FORMAT_TCC` (`header.rs:57`). -/
def formatTcc : Byte := 15#8

/-- `StatusChunkTypeTcc` (`mod.rs:58-64`). -/
inductive StatusChunkTypeTcc where
  | runLengthChunk
  | statusVectorChunk
  deriving DecidableEq, Repr

/-- `StatusChunkTypeTcc::from` (`mod.rs:103-108`). -/
def StatusChunkTypeTcc.ofWord (val : BitVec 16) : StatusChunkTypeTcc :=
  if val = 0#16 then .runLengthChunk else .statusVectorChunk

/-- `SymbolTypeTcc` (`mod.rs:69-80`). -/
inductive SymbolTypeTcc where
  | packetNotReceived
  | packetReceivedSmallDelta
  | packetReceivedLargeDelta
  | packetReceivedWithoutDelta
  deriving DecidableEq, Repr

namespace SymbolTypeTcc

/-- The discriminant of a symbol. -/
def toWord : SymbolTypeTcc → BitVec 16
  | packetNotReceived => 0#16
  | packetReceivedSmallDelta => 1#16
  | packetReceivedLargeDelta => 2#16
  | packetReceivedWithoutDelta => 3#16

/-- `SymbolTypeTcc::from` (`mod.rs:112-119`). -/
def ofWord (val : BitVec 16) : SymbolTypeTcc :=
  match val.toNat with
  | 0 => packetNotReceived
  | 1 => packetReceivedSmallDelta
  | 2 => packetReceivedLargeDelta
  | _ => packetReceivedWithoutDelta

/-- The packet has a receive delta. -/
def hasDelta : SymbolTypeTcc → Bool
  | packetReceivedSmallDelta => true
  | packetReceivedLargeDelta => true
  | _ => false

end SymbolTypeTcc

/-- `SymbolSizeTypeTcc` (`mod.rs:85-91`). -/
inductive SymbolSizeTypeTcc where
  | oneBit
  | twoBit
  deriving DecidableEq, Repr

namespace SymbolSizeTypeTcc

/-- The discriminant of a symbol size. -/
def toWord : SymbolSizeTypeTcc → BitVec 16
  | oneBit => 0#16
  | twoBit => 1#16

/-- `SymbolSizeTypeTcc::from` (`mod.rs:94-99`). -/
def ofWord (val : BitVec 16) : SymbolSizeTypeTcc := if val = 0#16 then oneBit else twoBit

/-- `NUM_OF_BITS_OF_SYMBOL_SIZE` (`mod.rs:442`). -/
def bits : SymbolSizeTypeTcc → Nat
  | oneBit => 1
  | twoBit => 2

end SymbolSizeTypeTcc

/-! ## Bit fields -/

/-- `set_nbits_of_uint16` (`util.rs:26-40`). -/
def setNbitsOfUint16 (src : BitVec 16) (size startIndex : Nat) (val : BitVec 16) :
    Except Error (BitVec 16) :=
  if 16 < startIndex + size then .error .invalidSizeOrStartIndex
  else .ok (src ||| (val &&& BitVec.ofNat 16 (2 ^ size - 1)) <<< (16 - size - startIndex))

/-- `get_nbits_from_byte` (`util.rs:48-52`). -/
def getNbitsFromByte (b : Byte) (begin n : Nat) : BitVec 16 :=
  let endShift := 8 - (begin + n)
  let mask := (0xFF#8 >>> begin) &&& (0xFF#8 <<< endShift)
  (b &&& mask).setWidth 16 >>> endShift

/-- `append_nbits_to_uint32` (`util.rs:43-45`). -/
def appendNbitsToUint32 (src : BitVec 32) (n : Nat) (val : BitVec 32) : BitVec 32 :=
  src <<< n ||| (val &&& (0xFFFFFFFF#32 >>> (32 - n)))

/-- `get_24bits_from_bytes` (`util.rs:55-57`). -/
def get24bitsFromBytes (a b c : Byte) : BitVec 32 :=
  (a.setWidth 32 <<< 16) + (b.setWidth 32 <<< 8) + c.setWidth 32

/-! ## Status chunks -/

/-- `RunLengthChunk` (`mod.rs:158-166`). -/
structure RunLengthChunk where
  typeTcc : StatusChunkTypeTcc
  packetStatusSymbol : SymbolTypeTcc
  runLength : BitVec 16
  deriving DecidableEq, Repr

namespace RunLengthChunk

/-- The word that `marshal_to` (`mod.rs:176-189`) writes. -/
def word (c : RunLengthChunk) : Except Error (BitVec 16) := do
  let dst ← setNbitsOfUint16 0#16 1 0 0#16
  let dst ← setNbitsOfUint16 dst 2 1 c.packetStatusSymbol.toWord
  setNbitsOfUint16 dst 13 3 c.runLength

/-- The chunk that `unmarshal` (`mod.rs:194-221`) reads from two bytes. -/
def ofBytes (b0 b1 : Byte) : RunLengthChunk where
  typeTcc := .runLengthChunk
  packetStatusSymbol := SymbolTypeTcc.ofWord (getNbitsFromByte b0 1 2)
  runLength := (getNbitsFromByte b0 3 5 <<< 8) + b1.setWidth 16

end RunLengthChunk

/-- `StatusVectorChunk` (`mod.rs:231-243`). -/
structure StatusVectorChunk where
  typeTcc : StatusChunkTypeTcc
  symbolSize : SymbolSizeTypeTcc
  symbolList : List SymbolTypeTcc
  deriving DecidableEq, Repr

namespace StatusVectorChunk

/-- The loop of `marshal_to` over the symbols from the `i`th on (`mod.rs:262-265`). -/
def putSymbols (numOfBits : Nat) : (i : Nat) → List SymbolTypeTcc → BitVec 16 →
    Except Error (BitVec 16)
  | _, [], dst => .ok dst
  | i, s :: rest, dst => do
    let dst ← setNbitsOfUint16 dst numOfBits (numOfBits * i + 2) s.toWord
    putSymbols numOfBits (i + 1) rest dst

/-- The word that `marshal_to` (`mod.rs:253-270`) writes. -/
def word (c : StatusVectorChunk) : Except Error (BitVec 16) := do
  let dst ← setNbitsOfUint16 0#16 1 0 1#16
  let dst ← setNbitsOfUint16 dst 1 1 c.symbolSize.toWord
  putSymbols c.symbolSize.bits 0 c.symbolList dst

/-- The symbols that `unmarshal` reads from two bytes (`mod.rs:292-313`). -/
def symbolsOf (size : SymbolSizeTypeTcc) (b0 b1 : Byte) : List SymbolTypeTcc :=
  match size with
  | .oneBit =>
    ((List.range 6).map fun i => SymbolTypeTcc.ofWord (getNbitsFromByte b0 (2 + i) 1)) ++
      (List.range 8).map fun i => SymbolTypeTcc.ofWord (getNbitsFromByte b1 i 1)
  | .twoBit =>
    ((List.range 3).map fun i => SymbolTypeTcc.ofWord (getNbitsFromByte b0 (2 + i * 2) 2)) ++
      (List.range 4).map fun i => SymbolTypeTcc.ofWord (getNbitsFromByte b1 (i * 2) 2)

/-- The chunk that `unmarshal` (`mod.rs:275-320`) reads from two bytes. -/
def ofBytes (b0 b1 : Byte) : StatusVectorChunk where
  typeTcc := .statusVectorChunk
  symbolSize := SymbolSizeTypeTcc.ofWord (getNbitsFromByte b0 1 1)
  symbolList := symbolsOf (SymbolSizeTypeTcc.ofWord (getNbitsFromByte b0 1 1)) b0 b1

end StatusVectorChunk

/-- `PacketStatusChunk` (`mod.rs:125-130`). -/
inductive PacketStatusChunk where
  | runLengthChunk (c : RunLengthChunk)
  | statusVectorChunk (c : StatusVectorChunk)
  deriving DecidableEq, Repr

namespace PacketStatusChunk

/-- `marshal_to` (`mod.rs:143-148`). -/
def marshalTo (c : PacketStatusChunk) (_available : Nat) : Except Error (List Byte) :=
  match c with
  | runLengthChunk c => c.word.map toBe16
  | statusVectorChunk c => c.word.map toBe16

/-- The chunk of two bytes, by the first bit (`mod.rs:631-635`, `661-662`). -/
def ofBytes (b0 b1 : Byte) : PacketStatusChunk :=
  match StatusChunkTypeTcc.ofWord (getNbitsFromByte b0 0 1) with
  | .runLengthChunk => runLengthChunk (RunLengthChunk.ofBytes b0 b1)
  | .statusVectorChunk => statusVectorChunk (StatusVectorChunk.ofBytes b0 b1)

/-- The deltas that the decoder expects for a chunk when `left` statuses are missing
    (`mod.rs:636-653`, `664-688`): a run is cut at the status count, a vector is not. -/
def expectedDeltas (left : Nat) : PacketStatusChunk → List SymbolTypeTcc
  | runLengthChunk c =>
    if c.packetStatusSymbol.hasDelta then
      List.replicate (min left c.runLength.toNat) c.packetStatusSymbol
    else []
  | statusVectorChunk c =>
    match c.symbolSize with
    | .oneBit => c.symbolList.filter fun s => s = .packetReceivedSmallDelta
    | .twoBit => c.symbolList.filter SymbolTypeTcc.hasDelta

/-- The statuses that the decoder counts for a chunk (`mod.rs:657-658`, `690-691`). -/
def processed (left : Nat) : PacketStatusChunk → Nat
  | runLengthChunk c => min left c.runLength.toNat
  | statusVectorChunk c => c.symbolList.length

end PacketStatusChunk

/-! ## Receive deltas -/

/-- `RecvDelta` (`mod.rs:328-333`), in microseconds. -/
structure RecvDelta where
  typeTccPacket : SymbolTypeTcc
  delta : Int
  deriving DecidableEq, Repr

namespace RecvDelta

/-- `marshal_to` (`mod.rs:361-386`): the division drops what is below 250 microseconds. -/
def marshalTo (d : RecvDelta) (available : Nat) : Except Error (List Byte) :=
  let delta := d.delta.tdiv 250
  if d.typeTccPacket = .packetReceivedSmallDelta ∧ 0 ≤ delta ∧ delta ≤ 255 ∧ 1 ≤ available then
    .ok [BitVec.ofInt 8 delta]
  else if d.typeTccPacket = .packetReceivedLargeDelta ∧ -32768 ≤ delta ∧ delta ≤ 32767 ∧
      2 ≤ available then .ok (toBe16 (BitVec.ofInt 16 delta))
  else .error .deltaExceedLimit

/-- `unmarshal` (`mod.rs:391-419`) from a reader of one or two bytes, which it reads to the end. -/
def unmarshal : List Byte → Parse Error RecvDelta
  | [a] => .ok ⟨.packetReceivedSmallDelta, 250 * a.toNat⟩
  | [a, b] => .ok ⟨.packetReceivedLargeDelta, 250 * (be16 a b).toInt⟩
  | _ => Parse.fail .deltaExceedLimit

end RecvDelta

/-! ## The packet -/

/-- `TransportLayerCc` (`mod.rs:450-467`). -/
structure TransportLayerCc where
  senderSsrc : BitVec 32
  mediaSsrc : BitVec 32
  baseSequenceNumber : BitVec 16
  packetStatusCount : BitVec 16
  referenceTime : BitVec 32
  fbPktCount : Byte
  packetChunks : List PacketStatusChunk
  recvDeltas : List RecvDelta
  deriving DecidableEq, Repr

namespace TransportLayerCc

/-- The bytes counted for a delta (`mod.rs:507-512`). -/
def deltaSize (d : RecvDelta) : Nat :=
  if d.typeTccPacket = .packetReceivedSmallDelta then 1 else 2

/-- `raw_size` (`mod.rs:504-515`). -/
def rawSize (p : TransportLayerCc) : Nat :=
  4 + 16 + p.packetChunks.length * 2 + (p.recvDeltas.map deltaSize).sum

/-- `marshal_size` (`mod.rs:531-535`). -/
def marshalSize (p : TransportLayerCc) : Nat := p.rawSize + getPaddingSize p.rawSize

/-- `header` (`mod.rs:490-497`). -/
def header (p : TransportLayerCc) : Header := .ofSize formatTcc .transportSpecificFeedback p.rawSize

/-- The word of the reference time and the feedback packet count (`mod.rs:553-555`). -/
def timeWord (p : TransportLayerCc) : BitVec 32 :=
  appendNbitsToUint32 (appendNbitsToUint32 0#32 24 p.referenceTime) 8 (p.fbPktCount.setWidth 32)

/-- What stands between the header and the padding (`mod.rs:548-567`). -/
def body (p : TransportLayerCc) (available : Nat) : Except Error (List Byte) := do
  let chunks ← Emit.putAll PacketStatusChunk.marshalTo (available - 20) p.packetChunks
  let deltas ← Emit.putAll RecvDelta.marshalTo (available - 20 - chunks.length) p.recvDeltas
  .ok (toBe32 p.senderSsrc ++ (toBe32 p.mediaSsrc ++ (toBe16 p.baseSequenceNumber ++
    (toBe16 p.packetStatusCount ++ (toBe32 p.timeWord ++ (chunks ++ deltas))))))

/-- `marshal_to` into a buffer of `available` bytes (`mod.rs:539-574`): the bytes written. -/
def marshalTo (p : TransportLayerCc) (available : Nat) : Except Error (List Byte) :=
  if available < p.marshalSize then .error .bufferTooShort
  else p.header.frame p.rawSize available (p.body available)

/-- `marshal` (`rtc-shared/src/marshal/mod.rs:32-44`). -/
def marshal (p : TransportLayerCc) : Except Error (List Byte) :=
  match p.marshalTo p.marshalSize with
  | .error e => .error e
  | .ok buf =>
    let n := buf.length
    let l := p.marshalSize
    if n ≠ l then .error (.other s!"marshal_to output size {n}, but expect {l}")
    else .ok buf

/-- The loop over the chunks (`mod.rs:623-698`): the chunks, the deltas to be read, and the position
    after the last chunk. A round that would be one too many for the fuel counts as a panic; there is
    none, as every chunk takes two bytes. -/
def getChunks (count totalLength : Nat) : (fuel pos processed : Nat) → List Byte →
    Parse Error ((List PacketStatusChunk × List SymbolTypeTcc × Nat) × List Byte)
  | 0, pos, processed, reader =>
    if count ≤ processed then .ok (([], [], pos), reader) else .error .panicked
  | fuel + 1, pos, processed, reader =>
    if count ≤ processed then .ok (([], [], pos), reader)
    else if totalLength ≤ pos + 2 then Parse.fail .packetTooShort
    else do
      let (part, reader) ← Parse.copyToBytes 2 reader
      let b0 ← Parse.index part 0
      let b1 ← Parse.index part 1
      let chunk := PacketStatusChunk.ofBytes b0 b1
      let left := count - processed
      let ((chunks, deltas, pos), reader) ←
        getChunks count totalLength fuel (pos + 2) (min (processed + chunk.processed left) 65535) reader
      .ok ((chunk :: chunks, chunk.expectedDeltas left ++ deltas, pos), reader)

/-- The loop over the deltas (`mod.rs:702-718`). A large delta of which one byte is left is read as a
    small one. -/
def getDeltas (totalLength : Nat) : (pos : Nat) → List SymbolTypeTcc → List Byte →
    Parse Error (List RecvDelta × List Byte)
  | _, [], reader => .ok ([], reader)
  | pos, kind :: kinds, reader =>
    if totalLength ≤ pos then Parse.fail .packetTooShort
    else do
      let width := if kind = .packetReceivedSmallDelta then 1 else 2
      let delta ← RecvDelta.unmarshal (reader.take width)
      let (deltas, reader) ← getDeltas totalLength (pos + width) kinds (reader.drop width)
      .ok (delta :: deltas, reader)

/-- `unmarshal` (`mod.rs:579-736`). The length in words is increased in 16 bits; what is left of the
    buffer is skipped. -/
def unmarshal (raw : List Byte) : Parse Error (TransportLayerCc × List Byte) :=
  if raw.length < 4 + 4 then Parse.fail .packetTooShort
  else
    match Header.unmarshal raw with
    | .error e => Parse.fail e
    | .ok h =>
      if 2 ^ 16 ≤ h.length.toNat + 1 then .error .panicked
      else
        let totalLength := 4 * (h.length.toNat + 1)
        if totalLength < 4 + 16 then Parse.fail .packetTooShort
        else if raw.length < totalLength then Parse.fail .packetTooShort
        else if h.packetType ≠ .transportSpecificFeedback ∨ h.count ≠ formatTcc then
          Parse.fail .wrongType
        else do
          let (senderSsrc, reader) ← Parse.getU32 (raw.drop 4)
          let (mediaSsrc, reader) ← Parse.getU32 reader
          let (baseSequenceNumber, reader) ← Parse.getU16 reader
          let (packetStatusCount, reader) ← Parse.getU16 reader
          let (t0, reader) ← Parse.getU8 reader
          let (t1, reader) ← Parse.getU8 reader
          let (t2, reader) ← Parse.getU8 reader
          let (fbPktCount, reader) ← Parse.getU8 reader
          let ((packetChunks, kinds, pos), reader) ←
            getChunks packetStatusCount.toNat totalLength totalLength 20 0 reader
          let (recvDeltas, _) ← getDeltas totalLength pos kinds reader
          .ok ({ senderSsrc, mediaSsrc, baseSequenceNumber, packetStatusCount
                 referenceTime := get24bitsFromBytes t0 t1 t2
                 fbPktCount, packetChunks, recvDeltas }, [])

end TransportLayerCc
end Rtc.Rtcp
