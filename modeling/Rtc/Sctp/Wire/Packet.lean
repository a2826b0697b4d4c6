import Rtc.Sctp.Wire.Chunk

/-!
# SCTP packets on the wire

`rtc-sctp/src/packet.rs`: `PartialDecode`, `Packet` and the checksum. CRC-32C is a parameter: any function
of the bytes. `crc32c_append(crc32c(a), b)` is the checksum of `a` followed by `b`.
-/

namespace Rtc.Sctp.Wire
open Shared Parse

variable (crc32c : List Byte → BitVec 32)

/-- `generate_packet_checksum` (`util.rs:101-105`). -/
def generatePacketChecksum (raw : List Byte) : BitVec 32 := crc32c (raw.take 8 ++ (zeros 4 ++ raw.drop 12))

/-- `CommonHeader` (`packet.rs:56-60`). -/
structure CommonHeader where
  sourcePort : BitVec 16
  destinationPort : BitVec 16
  verificationTag : BitVec 32
  deriving DecidableEq

/-- `Packet` (`packet.rs:179-182`). -/
structure Packet where
  commonHeader : CommonHeader
  chunks : List Chunk
  deriving DecidableEq

/-- `PartialDecode` (`packet.rs:60-68`). -/
structure PartialDecode where
  commonHeader : CommonHeader
  remaining : List Byte
  firstChunkType : Byte
  initiateTag : Option (BitVec 32)
  cookie : Option (List Byte)
  deriving DecidableEq

namespace PartialDecode

/-- The initiate tag and the cookie that a packet shows (`packet.rs:93-106`). -/
def peek (raw reader : List Byte) (header : ChunkHeader) :
    Parse Error (Option (BitVec 32) × Option (List Byte)) :=
  if header.typ = ctInit ∨ header.typ = ctInitAck then do
    let (tag, _) ← getU32 reader
    .ok (some tag, none)
  else if header.typ = ctCookieEcho then do
    let cookie ← slice raw (12 + 4) (12 + 4 + header.valueLength.toNat)
    .ok (none, some cookie)
  else .ok (none, none)

/-- `PartialDecode::unmarshal` (`packet.rs:72-122`). -/
def unmarshal (raw : List Byte) : Parse Error PartialDecode :=
  if raw.length < 12 then fail .errPacketRawTooSmall
  else do
    let (sourcePort, reader) ← getU16 raw
    let (destinationPort, reader) ← getU16 reader
    let (verificationTag, reader) ← getU32 reader
    let (theirChecksum, reader) ← getU32Le reader
    if theirChecksum ≠ generatePacketChecksum crc32c raw then fail .errChecksumMismatch
    else if reader.length < 4 then fail .errParseSctpChunkNotEnoughData
    else do
      let header ← ChunkHeader.unmarshal reader
      let (initiateTag, cookie) ← peek raw (reader.drop 4) header
      .ok ⟨⟨sourcePort, destinationPort, verificationTag⟩, raw.drop 12, header.typ, initiateTag, cookie⟩

/-- `slice_chunk` (`packet.rs:167-176`). -/
def sliceChunk (raw : List Byte) (offset : Nat) : Parse Error (List Byte) := do
  let high ← index raw (offset + 2)
  let low ← index raw (offset + 3)
  let chunkLength := (Bytes.be16 high low).toNat
  if chunkLength < 4 then fail .errChunkHeaderInvalidLength
  else if raw.length < offset + chunkLength then fail .errChunkHeaderNotEnoughSpace
  else slice raw offset (offset + chunkLength)

/-- The loop of `finish` (`packet.rs:124-157`), with a bound on its rounds. A loop that ran out of rounds
    would count as a panic. -/
def finishFrom (remaining : List Byte) : Nat → Nat → Parse Error (List Chunk)
  | 0, _ => .error .panicked
  | rounds + 1, offset =>
    if offset = remaining.length then .ok []
    else if remaining.length < offset + 4 then fail .errParseSctpChunkNotEnoughData
    else do
      let buf ← sliceChunk remaining offset
      let ct ← index remaining offset
      let c ← Chunk.unmarshal ct buf
      let chunks ← finishFrom remaining rounds (offset + (4 + c.valueLength + getPaddingSize c.valueLength))
      .ok (c :: chunks)

/-- `PartialDecode::finish` (`packet.rs:121-163`). -/
def finish (d : PartialDecode) : Parse Error Packet := do
  let chunks ← finishFrom d.remaining (d.remaining.length + 1) 0
  .ok ⟨d.commonHeader, chunks⟩

end PartialDecode

namespace Packet

/-- `marshaled_len` (`packet.rs:270-280`). -/
def marshaledLen (p : Packet) : Nat :=
  12 + (p.chunks.map fun c => 4 + c.valueLength + getPaddingSize (4 + c.valueLength)).sum

/-- The chunks of a packet, each padded to where a word ends (`packet.rs:331-338`). -/
def writeChunks : List Byte → List Chunk → Except Error (List Byte)
  | writer, [] => .ok writer
  | writer, c :: chunks => do
    let bytes ← c.marshal
    let writer := writer ++ bytes
    writeChunks (writer ++ zeros (getPaddingSize writer.length)) chunks

/-- `write_framed` (`packet.rs:311-353`) to an empty buffer, which is `marshal` (`packet.rs:291-300`). The
    checksum is written in little-endian order. -/
def marshal (p : Packet) : Except Error (List Byte) := do
  let ports := Bytes.toBe16 p.commonHeader.sourcePort ++ (Bytes.toBe16 p.commonHeader.destinationPort ++
    Bytes.toBe32 p.commonHeader.verificationTag)
  let chunks ← writeChunks [] p.chunks
  let checksum := crc32c (ports ++ (zeros 4 ++ chunks))
  .ok (ports ++ ((Bytes.toBe32 checksum).reverse ++ chunks))

/-- The loop of `check_packet` over the chunks (`packet.rs:377-394`). -/
def checkChunks (p : Packet) : List Chunk → Except Error Unit
  | [] => .ok ()
  | .init c :: rest =>
    if c.isAck then checkChunks p rest
    else if p.chunks.length ≠ 1 then .error .errInitChunkBundled
    else if p.commonHeader.verificationTag ≠ 0#32 then .error .errInitChunkVerifyTagNotZero
    else checkChunks p rest
  | _ :: rest => checkChunks p rest

/-- `check_packet` (`packet.rs:356-397`). -/
def checkPacket (p : Packet) : Except Error Unit :=
  if p.commonHeader.sourcePort = 0#16 then .error .errSctpPacketSourcePortZero
  else if p.commonHeader.destinationPort = 0#16 then .error .errSctpPacketDestinationPortZero
  else p.checkChunks p.chunks

end Packet
end Rtc.Sctp.Wire
