import Rtc.Sctp.Wire.Param

/-!
# SCTP chunks on the wire

`rtc-sctp/src/chunk`: how each chunk is written and read back. A reader gets the bytes of one chunk, cut out by
`slice_chunk`. The loops run for a number of rounds that the length of the chunk bounds.
-/

namespace Rtc.Sctp.Wire
open Shared Parse

/-! ## Chunk types (`chunk_type.rs:6-21`) -/

def ctPayloadData : Byte := 0
def ctInit : Byte := 1
def ctInitAck : Byte := 2
def ctSack : Byte := 3
def ctHeartbeat : Byte := 4
def ctAbort : Byte := 6
def ctShutdown : Byte := 7
def ctShutdownAck : Byte := 8
def ctError : Byte := 9
def ctCookieEcho : Byte := 10
def ctCookieAck : Byte := 11
def ctShutdownComplete : Byte := 14
def ctReconfig : Byte := 130
def ctForwardTsn : Byte := 192

/-- `PayloadProtocolIdentifier as u32` (`chunk_payload_data.rs:19-35`). -/
def ppiToU32 : PayloadProtocolIdentifier → BitVec 32
  | .dcep => 50
  | .string => 51
  | .binary => 53
  | .stringEmpty => 56
  | .binaryEmpty => 57
  | .unknown => 58

/-- `From<u32> for PayloadProtocolIdentifier` (`chunk_payload_data.rs:52-63`). -/
def ppiOfU32 (v : BitVec 32) : PayloadProtocolIdentifier :=
  if v = 50#32 then .dcep
  else if v = 51#32 then .string
  else if v = 53#32 then .binary
  else if v = 56#32 then .stringEmpty
  else if v = 57#32 then .binaryEmpty
  else .unknown

/-- `ChunkInit` (`chunk_init.rs:67-75`), an INIT or an INIT ACK. -/
structure ChunkInit where
  isAck : Bool := false
  initiateTag : BitVec 32 := 0
  advertisedReceiverWindowCredit : BitVec 32 := 0
  numOutboundStreams : BitVec 16 := 0
  numInboundStreams : BitVec 16 := 0
  initialTsn : Tsn := 0
  params : List Param := []
  deriving DecidableEq

/-- `ErrorCause` (`chunk/mod.rs:97-100`). -/
structure ErrorCause where
  code : BitVec 16
  raw : List Byte
  deriving DecidableEq

/-- `ChunkSelectiveAck` (`chunk_selective_ack.rs:52-57`). -/
structure ChunkSelectiveAck where
  cumulativeTsnAck : Tsn
  advertisedReceiverWindowCredit : BitVec 32
  gapAckBlocks : List GapAckBlock
  duplicateTsn : List Tsn
  deriving DecidableEq

/-- The implementations of the trait `Chunk` that `finish` makes. -/
inductive Chunk where
  | init (c : ChunkInit)
  | abort (errorCauses : List ErrorCause)
  | cookieEcho (cookie : List Byte)
  | cookieAck
  | heartbeat (params : List Param)
  | payloadData (c : ChunkPayloadData)
  | selectiveAck (c : ChunkSelectiveAck)
  | reconfig (paramA paramB : Option Param)
  | forwardTsn (c : ChunkForwardTsn)
  | error (errorCauses : List ErrorCause)
  | shutdown (cumulativeTsnAck : Tsn)
  | shutdownAck
  | shutdownComplete
  deriving DecidableEq

/-- `ChunkHeader` (`chunk_header.rs:22-26`). -/
structure ChunkHeader where
  typ : Byte
  flags : Byte
  valueLength : BitVec 16
  deriving DecidableEq

namespace ChunkHeader

/-- The loop over the bytes behind a chunk, last to first (`chunk_header.rs:68-73`). -/
def checkPadding (raw : List Byte) (length : Nat) : Nat → Parse Error Unit
  | 0 => .ok ()
  | i + 1 => do
    let b ← index raw (length + i)
    if b ≠ 0#8 then fail .errChunkHeaderPaddingNonZero else checkPadding raw length i

/-- `ChunkHeader::unmarshal` (`chunk_header.rs:42-85`). -/
def unmarshal (raw : List Byte) : Parse Error ChunkHeader :=
  if raw.length < 4 then fail .errChunkHeaderTooSmall
  else do
    let (typ, reader) ← getU8 raw
    let (flags, reader) ← getU8 reader
    let (length, _) ← getU16 reader
    if length.toNat < 4 then fail .errChunkHeaderInvalidLength
    else if raw.length < length.toNat then fail .errChunkHeaderNotEnoughSpace
    else do
      if raw.length - length.toNat < 4 then checkPadding raw length.toNat (raw.length - length.toNat)
      else .ok ()
      .ok ⟨typ, flags, length - 4#16⟩

/-- `ChunkHeader::marshal_to` (`chunk_header.rs:87-92`). -/
def marshal (h : ChunkHeader) : List Byte := h.typ :: h.flags :: Bytes.toBe16 (h.valueLength + 4#16)

end ChunkHeader

namespace ErrorCause

/-- `ErrorCause::length` (`chunk/mod.rs:170-172`). -/
def length (e : ErrorCause) : Nat := e.raw.length + 4

/-- `ErrorCause::marshal` (`chunk/mod.rs:156-168`). -/
def marshal (e : ErrorCause) : List Byte :=
  Bytes.toBe16 e.code ++ (Bytes.toBe16 (BitVec.ofNat 16 (e.raw.length + 4)) ++ e.raw)

/-- `ErrorCause::unmarshal` (`chunk/mod.rs:136-154`). -/
def unmarshal (buf : List Byte) : Parse Error ErrorCause :=
  if buf.length < 4 then fail .errErrorCauseTooSmall
  else do
    let (code, reader) ← getU16 buf
    let (len, _) ← getU16 reader
    if len.toNat < 4 then fail .errErrorCauseTooSmall
    else do
      let raw ← slice buf 4 (4 + (len.toNat - 4))
      .ok ⟨code, raw⟩

/-- The loop over the causes of an ABORT or an ERROR (`chunk_abort.rs:58-67`, `chunk_error.rs:60-69`). -/
def unmarshalAll (raw : List Byte) (stop : Nat) : Nat → Nat → Parse Error (List ErrorCause)
  | 0, _ => .error .panicked
  | rounds + 1, offset =>
    if offset + 4 ≤ raw.length then do
      let buf ← slice raw offset stop
      let e ← unmarshal buf
      let causes ← unmarshalAll raw stop rounds (offset + e.length)
      .ok (e :: causes)
    else .ok []

end ErrorCause

/-- `ChunkAbort::unmarshal` and `ChunkError::unmarshal`: the causes of a chunk of type `ct`. -/
def unmarshalCauses (ct : Byte) (mismatch : Error) (raw : List Byte) : Parse Error (List ErrorCause) := do
  let header ← ChunkHeader.unmarshal raw
  if header.typ ≠ ct then fail mismatch
  else ErrorCause.unmarshalAll raw (4 + header.valueLength.toNat) (raw.length + 1) 4

/-- The chunks without a value (`chunk_cookie_ack.rs:30-38` and the like). -/
def unmarshalEmpty (ct : Byte) (mismatch : Error) (c : Chunk) (raw : List Byte) : Parse Error Chunk := do
  let header ← ChunkHeader.unmarshal raw
  if header.typ ≠ ct then fail mismatch else .ok c

namespace ChunkInit

/-- The loop over the parameters (`chunk_init.rs:161-172`). Its `remaining` is always what follows
    `offset`. -/
def unmarshalParams (raw : List Byte) (stop : Nat) : Nat → Nat → Parse Error (List Param)
  | 0, _ => .error .panicked
  | rounds + 1, offset =>
    if offset + 4 < raw.length ∧ offset < stop then do
      let buf ← slice raw offset stop
      let p ← Param.build buf
      let len := 4 + p.valueLength
      let params ← unmarshalParams raw stop rounds (offset + (len + getPaddingSize len))
      .ok (p :: params)
    else .ok []

/-- `ChunkInit::unmarshal` (`chunk_init.rs:132-181`). -/
def unmarshal (raw : List Byte) : Parse Error ChunkInit := do
  let header ← ChunkHeader.unmarshal raw
  if ¬ (header.typ = ctInit ∨ header.typ = ctInitAck) then fail .errChunkTypeNotTypeInit
  else if raw.length < 4 + 16 then fail .errChunkValueNotLongEnough
  else if header.valueLength.toNat < 16 then fail .errChunkTypeInitUnmarshalFailed
  else if header.flags ≠ 0#8 then fail .errChunkTypeInitFlagZero
  else do
    let reader ← slice raw 4 (4 + header.valueLength.toNat)
    let (initiateTag, reader) ← getU32 reader
    let (advertisedReceiverWindowCredit, reader) ← getU32 reader
    let (numOutboundStreams, reader) ← getU16 reader
    let (numInboundStreams, reader) ← getU16 reader
    let (initialTsn, _) ← getU32 reader
    let params ← unmarshalParams raw (4 + header.valueLength.toNat) (raw.length + 1) (4 + 16)
    .ok ⟨header.typ == ctInitAck, initiateTag, advertisedReceiverWindowCredit, numOutboundStreams,
      numInboundStreams, initialTsn, params⟩

/-- `ChunkInit::check` (`chunk_init.rs:212-262`). -/
def check (c : ChunkInit) : Except Error Unit :=
  if c.initiateTag = 0#32 then .error .errChunkTypeInitInitiateTagZero
  else if c.numInboundStreams = 0#16 then .error .errInitInboundStreamRequestZero
  else if c.numOutboundStreams = 0#16 then .error .errInitOutboundStreamRequestZero
  else if c.advertisedReceiverWindowCredit.toNat < 1500 then .error .errInitAdvertisedReceiver1500
  else .ok ()

/-- `set_supported_extensions` (`chunk_init.rs:282-290`). -/
def setSupportedExtensions (c : ChunkInit) : ChunkInit :=
  { c with params := c.params ++ [.supportedExtensions [ctReconfig, ctForwardTsn]] }

end ChunkInit

namespace Chunk

/-- `ChunkCookieEcho::unmarshal` (`chunk_cookie_echo.rs:37-46`). -/
def unmarshalCookieEcho (raw : List Byte) : Parse Error Chunk := do
  let header ← ChunkHeader.unmarshal raw
  if header.typ ≠ ctCookieEcho then fail .errChunkTypeNotCookieEcho
  else .cookieEcho <$> slice raw 4 (4 + header.valueLength.toNat)

/-- `ChunkHeartbeat::unmarshal` (`chunk_heartbeat.rs:53-74`). -/
def unmarshalHeartbeat (raw : List Byte) : Parse Error Chunk := do
  let header ← ChunkHeader.unmarshal raw
  if header.typ ≠ ctHeartbeat then fail .errChunkTypeNotHeartbeat
  else if raw.length ≤ 4 then fail .errHeartbeatNotLongEnoughInfo
  else do
    let buf ← slice raw 4 (4 + header.valueLength.toNat)
    let p ← Param.build buf
    if p.typ ≠ paramHeartbeatInfo then fail .errHeartbeatParam else .ok (.heartbeat [p])

/-- `ChunkPayloadData::unmarshal` (`chunk_payload_data.rs:220-271`). -/
def unmarshalPayloadData (raw : List Byte) : Parse Error Chunk := do
  let header ← ChunkHeader.unmarshal raw
  if header.typ ≠ ctPayloadData then fail .errChunkTypeNotPayloadData
  else if raw.length < 4 + 12 then fail .errChunkPayloadSmall
  else if header.valueLength.toNat < 12 then fail .errChunkUnmarshalPayloadData
  else do
    let reader ← slice raw 4 (4 + header.valueLength.toNat)
    let (tsn, reader) ← getU32 reader
    let (streamIdentifier, reader) ← getU16 reader
    let (streamSequenceNumber, reader) ← getU16 reader
    let (payloadType, _) ← getU32 reader
    let userData ← slice raw (4 + 12) (4 + header.valueLength.toNat)
    .ok (.payloadData
      { unordered := header.flags &&& 4#8 != 0#8
        beginningFragment := header.flags &&& 2#8 != 0#8
        endingFragment := header.flags &&& 1#8 != 0#8
        immediateSack := header.flags &&& 8#8 != 0#8
        tsn, streamIdentifier, streamSequenceNumber, payloadType := ppiOfU32 payloadType, userData })

/-- Two words in a row. -/
def getPair (reader : List Byte) : Parse Error ((BitVec 16 × BitVec 16) × List Byte) := do
  let (a, reader) ← getU16 reader
  let (b, reader) ← getU16 reader
  .ok ((a, b), reader)

/-- `ChunkSelectiveAck::unmarshal` (`chunk_selective_ack.rs:86-142`). -/
def unmarshalSelectiveAck (raw : List Byte) : Parse Error Chunk := do
  let header ← ChunkHeader.unmarshal raw
  if header.typ ≠ ctSack then fail .errChunkTypeNotSack
  else if header.valueLength.toNat < 12 then fail .errChunkUnmarshalSack
  else if raw.length < 4 + 12 then fail .errSackSizeNotLargeEnoughInfo
  else do
    let reader ← slice raw 4 (4 + header.valueLength.toNat)
    let (cumulativeTsnAck, reader) ← getU32 reader
    let (advertisedReceiverWindowCredit, reader) ← getU32 reader
    let (gapAckBlocksLen, reader) ← getU16 reader
    let (duplicateTsnLen, reader) ← getU16 reader
    if header.valueLength.toNat < 12 + 4 * gapAckBlocksLen.toNat + 4 * duplicateTsnLen.toNat then
      fail .errChunkUnmarshalSack
    else if raw.length < 4 + 12 + (4 * gapAckBlocksLen.toNat + 4 * duplicateTsnLen.toNat) then
      fail .errSackSizeNotLargeEnoughInfo
    else do
      let (gapAckBlocks, reader) ← getMany getPair gapAckBlocksLen.toNat reader
      let (duplicateTsn, _) ← getMany getU32 duplicateTsnLen.toNat reader
      .ok (.selectiveAck ⟨cumulativeTsnAck, advertisedReceiverWindowCredit,
        gapAckBlocks.map fun g => ⟨g.1, g.2⟩, duplicateTsn⟩)

/-- `ChunkReconfig::unmarshal` (`chunk_reconfig.rs:61-86`). -/
def unmarshalReconfig (raw : List Byte) : Parse Error Chunk := do
  let header ← ChunkHeader.unmarshal raw
  if header.typ ≠ ctReconfig then fail .errChunkTypeNotReconfig
  else do
    let stop := 4 + header.valueLength.toNat
    let buf ← slice raw 4 stop
    let paramA ← Param.build buf
    let offset := 4 + 4 + paramA.valueLength + getPaddingSize (4 + paramA.valueLength)
    if offset < stop then do
      let buf ← slice raw offset stop
      let paramB ← Param.build buf
      .ok (.reconfig (some paramA) (some paramB))
    else .ok (.reconfig (some paramA) none)

/-- `ChunkForwardTsnStream::unmarshal` (`chunk_forward_tsn.rs:152-166`). -/
def unmarshalForwardTsnStream (buf : List Byte) : Parse Error (StreamId × Ssn) :=
  if buf.length < 4 then fail .errChunkTooShort
  else do
    let (stream, _) ← getPair buf
    .ok stream

/-- The loop over the skipped streams (`chunk_forward_tsn.rs:75-84`). -/
def unmarshalForwardTsnStreams (buf : List Byte) (stop : Nat) :
    Nat → Nat → Nat → Parse Error (List (StreamId × Ssn))
  | 0, _, _ => .error .panicked
  | rounds + 1, offset, remaining =>
    if 0 < remaining then do
      let part ← slice buf offset stop
      let s ← unmarshalForwardTsnStream part
      let streams ← unmarshalForwardTsnStreams buf stop rounds (offset + 4) (remaining - 4)
      .ok (s :: streams)
    else .ok []

/-- `ChunkForwardTsn::unmarshal` (`chunk_forward_tsn.rs:59-90`). -/
def unmarshalForwardTsn (buf : List Byte) : Parse Error Chunk := do
  let header ← ChunkHeader.unmarshal buf
  if header.typ ≠ ctForwardTsn then fail .errChunkTypeNotForwardTsn
  else if buf.length < 4 + 4 then fail .errChunkTooShort
  else do
    let stop := 4 + header.valueLength.toNat
    let reader ← slice buf 4 stop
    let (newCumulativeTsn, _) ← getU32 reader
    let streams ← unmarshalForwardTsnStreams buf stop (buf.length + 1) (4 + 4) (buf.length - (4 + 4))
    .ok (.forwardTsn ⟨newCumulativeTsn, streams⟩)

/-- `ChunkShutdown::unmarshal` (`chunk_shutdown.rs:38-63`). -/
def unmarshalShutdown (raw : List Byte) : Parse Error Chunk := do
  let header ← ChunkHeader.unmarshal raw
  if header.typ ≠ ctShutdown then fail .errChunkTypeNotShutdown
  else if header.valueLength.toNat + 4 ≠ 8 then fail .errChunkUnmarshalShutdown
  else if raw.length ≠ 4 + 4 then fail .errInvalidChunkSize
  else do
    let reader ← slice raw 4 (4 + header.valueLength.toNat)
    let (cumulativeTsnAck, _) ← getU32 reader
    .ok (.shutdown cumulativeTsnAck)

/-- The reader of each chunk type (`packet.rs:135-151`). -/
def unmarshal (ct : Byte) (raw : List Byte) : Parse Error Chunk :=
  if ct = ctInit then .init <$> ChunkInit.unmarshal raw
  else if ct = ctInitAck then .init <$> ChunkInit.unmarshal raw
  else if ct = ctAbort then .abort <$> unmarshalCauses ctAbort .errChunkTypeNotAbort raw
  else if ct = ctCookieEcho then unmarshalCookieEcho raw
  else if ct = ctCookieAck then unmarshalEmpty ctCookieAck .errChunkTypeNotCookieAck .cookieAck raw
  else if ct = ctHeartbeat then unmarshalHeartbeat raw
  else if ct = ctPayloadData then unmarshalPayloadData raw
  else if ct = ctSack then unmarshalSelectiveAck raw
  else if ct = ctReconfig then unmarshalReconfig raw
  else if ct = ctForwardTsn then unmarshalForwardTsn raw
  else if ct = ctError then .error <$> unmarshalCauses ctError .errChunkTypeNotCt raw
  else if ct = ctShutdown then unmarshalShutdown raw
  else if ct = ctShutdownAck then
    unmarshalEmpty ctShutdownAck .errChunkTypeNotShutdownAck .shutdownAck raw
  else if ct = ctShutdownComplete then
    unmarshalEmpty ctShutdownComplete .errChunkTypeNotShutdownComplete .shutdownComplete raw
  else fail .errUnmarshalUnknownChunkType

/-! ## Writing -/

/-- The type each implementation puts in its `header`. -/
def typ : Chunk → Byte
  | .init c => if c.isAck then ctInitAck else ctInit
  | .abort _ => ctAbort
  | .cookieEcho _ => ctCookieEcho
  | .cookieAck => ctCookieAck
  | .heartbeat _ => ctHeartbeat
  | .payloadData _ => ctPayloadData
  | .selectiveAck _ => ctSack
  | .reconfig _ _ => ctReconfig
  | .forwardTsn _ => ctForwardTsn
  | .error _ => ctError
  | .shutdown _ => ctShutdown
  | .shutdownAck => ctShutdownAck
  | .shutdownComplete => ctShutdownComplete

/-- The flags of a DATA chunk (`chunk_payload_data.rs:200-216`), no flags in any other. -/
def flags : Chunk → Byte
  | .payloadData c =>
    (if c.endingFragment then 1#8 else 0#8) ||| (if c.beginningFragment then 2#8 else 0#8) |||
      (if c.unordered then 4#8 else 0#8) ||| (if c.immediateSack then 8#8 else 0#8)
  | _ => 0

/-- `value_length` of each implementation. -/
def valueLength : Chunk → Nat
  | .init c => 16 + Param.lengthAll c.params
  | .abort causes => (causes.map ErrorCause.length).sum
  | .cookieEcho cookie => cookie.length
  | .cookieAck => 0
  | .heartbeat params => (params.map fun p => 4 + p.valueLength).sum
  | .payloadData c => 12 + c.userData.length
  | .selectiveAck c => 12 + c.gapAckBlocks.length * 4 + c.duplicateTsn.length * 4
  | .reconfig paramA paramB =>
    let lengthA := (paramA.map Param.valueLength).getD 0
    match paramB with
    | some b => 4 + lengthA + (4 + b.valueLength + getPaddingSize (4 + lengthA))
    | none => 4 + lengthA
  | .forwardTsn c => 4 + 4 * c.streams.length
  | .error causes => (causes.map ErrorCause.length).sum
  | .shutdown _ => 4
  | .shutdownAck => 0
  | .shutdownComplete => 0

/-- `header` of each implementation. -/
def header (c : Chunk) : ChunkHeader := ⟨c.typ, c.flags, BitVec.ofNat 16 c.valueLength⟩

/-- What `marshal_to` of each implementation writes after the header. -/
def value : Chunk → Except Error (List Byte)
  | .init c => .ok (Bytes.toBe32 c.initiateTag ++ (Bytes.toBe32 c.advertisedReceiverWindowCredit ++
      (Bytes.toBe16 c.numOutboundStreams ++ (Bytes.toBe16 c.numInboundStreams ++
        (Bytes.toBe32 c.initialTsn ++ Param.marshalAll c.params)))))
  | .abort causes => .ok (causes.flatMap ErrorCause.marshal)
  | .cookieEcho cookie => .ok cookie
  | .cookieAck => .ok []
  | .heartbeat params => .ok (params.flatMap Param.marshal)
  | .payloadData c => .ok (Bytes.toBe32 c.tsn ++ (Bytes.toBe16 c.streamIdentifier ++
      (Bytes.toBe16 c.streamSequenceNumber ++ (Bytes.toBe32 (ppiToU32 c.payloadType) ++ c.userData))))
  | .selectiveAck c => .ok (Bytes.toBe32 c.cumulativeTsnAck ++
      (Bytes.toBe32 c.advertisedReceiverWindowCredit ++
        (Bytes.toBe16 (BitVec.ofNat 16 c.gapAckBlocks.length) ++
          (Bytes.toBe16 (BitVec.ofNat 16 c.duplicateTsn.length) ++
            (c.gapAckBlocks.flatMap (fun g => Bytes.toBe16 g.start ++ Bytes.toBe16 g.end) ++
              c.duplicateTsn.flatMap Bytes.toBe32)))))
  | .reconfig none _ => .error .errChunkReconfigInvalidParamA
  | .reconfig (some a) none => .ok a.marshal
  | .reconfig (some a) (some b) =>
    .ok (a.marshal ++ (zeros (getPaddingSize (4 + a.valueLength)) ++ b.marshal))
  | .forwardTsn c => .ok (Bytes.toBe32 c.newCumulativeTsn ++
      c.streams.flatMap fun s => Bytes.toBe16 s.1 ++ Bytes.toBe16 s.2)
  | .error causes => .ok (causes.flatMap ErrorCause.marshal)
  | .shutdown cumulativeTsnAck => .ok (Bytes.toBe32 cumulativeTsnAck)
  | .shutdownAck => .ok []
  | .shutdownComplete => .ok []

/-- `marshal_to` of each implementation. -/
def marshal (c : Chunk) : Except Error (List Byte) := do
  let value ← c.value
  .ok (c.header.marshal ++ value)

end Chunk
end Rtc.Sctp.Wire
