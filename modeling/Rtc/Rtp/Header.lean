import Rtc.Lib.Bytes
import Rtc.Shared.Error

/-!
# The RTP header

`Header` of `rtc-rtp/src/header.rs` with its parser, its size and its serialiser. The extension
block is walked byte by byte against a declared end; an element may run past that end, and a
reserved id stops the walk before it.
-/

namespace Rtc.Rtp
open Bytes Shared

/-- `EXTENSION_PROFILE_ONE_BYTE` (`header.rs:39`). -/
def extensionProfileOneByte : BitVec 16 := 0xBEDE#16

/-- `EXTENSION_PROFILE_TWO_BYTE` (`header.rs:42`). -/
def extensionProfileTwoByte : BitVec 16 := 0x1000#16

/-- `EXTENSION_ID_RESERVED` (`header.rs:44`). -/
def extensionIdReserved : Byte := 0xF#8

/-- `Extension` (`header.rs:72-77`). -/
structure Extension where
  id : Byte
  payload : List Byte
  deriving DecidableEq, Repr

/-- `Header` (`header.rs:82-107`). -/
structure Header where
  version : Byte
  padding : Bool
  extension : Bool
  marker : Bool
  payloadType : Byte
  sequenceNumber : BitVec 16
  timestamp : BitVec 32
  ssrc : BitVec 32
  csrc : List (BitVec 32)
  extensionProfile : BitVec 16
  extensions : List Extension
  extensionsPadding : Nat
  deriving DecidableEq, Repr

/-- What a walk over the extension block leaves: the elements, the padding bytes counted, and the
    bytes not read. -/
structure ExtensionScan where
  extensions : List Extension
  extensionsPadding : Nat
  rest : List Byte
  deriving DecidableEq, Repr

namespace ExtensionScan

/-- A padding byte was read before the rest. -/
def pad (s : ExtensionScan) : ExtensionScan :=
  { s with extensionsPadding := s.extensionsPadding + 1 }

/-- An element was read before the rest. -/
def push (e : Extension) (s : ExtensionScan) : ExtensionScan :=
  { s with extensions := e :: s.extensions }

end ExtensionScan

/-- The one-byte walk (`header.rs:177-206`). `left` is `end - curr_offset`, zero once the offset
    has passed the end; every round reads at least one byte, so `left` rounds suffice. -/
def oneByteExtensions : (fuel left : Nat) → List Byte → Except Error ExtensionScan
  | 0, _, raw => .ok ⟨[], 0, raw⟩
  | fuel + 1, left, raw =>
    if left = 0 then .ok ⟨[], 0, raw⟩
    else
      let b := raw.headD 0#8
      let raw := raw.tail
      if b = 0#8 then (oneByteExtensions fuel (left - 1) raw).map ExtensionScan.pad
      else
        let extid := b >>> 4
        let len := ((b &&& 0x0F#8) + 1#8).toNat
        if extid = extensionIdReserved then .ok ⟨[], 0, raw⟩
        else if raw.length < len then .error .errHeaderSizeInsufficientForExtension
        else
          (oneByteExtensions fuel (left - 1 - len) (raw.drop len)).map
            (ExtensionScan.push ⟨extid, raw.take len⟩)

/-- The two-byte walk (`header.rs:208-239`). -/
def twoByteExtensions : (fuel left : Nat) → List Byte → Except Error ExtensionScan
  | 0, _, raw => .ok ⟨[], 0, raw⟩
  | fuel + 1, left, raw =>
    if left = 0 then .ok ⟨[], 0, raw⟩
    else
      let b := raw.headD 0#8
      let raw := raw.tail
      if b = 0#8 then (twoByteExtensions fuel (left - 1) raw).map ExtensionScan.pad
      else if left - 1 = 0 then .error .errHeaderSizeInsufficientForExtension
      else
        let len := (raw.headD 0#8).toNat
        let raw := raw.tail
        if raw.length < len then .error .errHeaderSizeInsufficientForExtension
        else
          (twoByteExtensions fuel (left - 2 - len) (raw.drop len)).map
            (ExtensionScan.push ⟨b, raw.take len⟩)

/-- The extension block of `extensionLength` bytes at the start of `raw`, by profile
    (`header.rs:174-251`). -/
def scanExtensions (profile : BitVec 16) (extensionLength : Nat) (raw : List Byte) :
    Except Error ExtensionScan :=
  if profile = extensionProfileOneByte then oneByteExtensions extensionLength extensionLength raw
  else if profile = extensionProfileTwoByte then
    twoByteExtensions extensionLength extensionLength raw
  else if raw.length < extensionLength then .error .errHeaderSizeInsufficientForExtension
  else .ok ⟨[⟨0#8, raw.take extensionLength⟩], 0, raw.drop extensionLength⟩

/-- The CSRC count in the first byte. -/
def csrcCount (raw : List Byte) : Nat := (raw.getD 0 0#8 &&& 0xF#8).toNat

/-- The extension bit in the first byte. -/
def extensionBit (raw : List Byte) : Bool := (raw.getD 0 0#8 >>> 4 &&& 0x1#8) ≠ 0#8

/-- The offset of the first byte after the CSRC list. -/
def csrcEnd (raw : List Byte) : Nat := 12 + csrcCount raw * 4

/-- The declared length of the extension block, in bytes. -/
def extensionLength (raw : List Byte) : Nat := (readU16 raw (csrcEnd raw + 2)).toNat * 4

/-- The header read from `raw`, given its extension block (`header.rs:135-158`, `257-270`). -/
def headerOf (raw : List Byte) (profile : BitVec 16) (scan : ExtensionScan) : Header where
  version := raw.getD 0 0#8 >>> 6 &&& 0x3#8
  padding := (raw.getD 0 0#8 >>> 5 &&& 0x1#8) ≠ 0#8
  extension := extensionBit raw
  marker := (raw.getD 1 0#8 >>> 7 &&& 0x1#8) ≠ 0#8
  payloadType := raw.getD 1 0#8 &&& 0x7F#8
  sequenceNumber := readU16 raw 2
  timestamp := readU32 raw 4
  ssrc := readU32 raw 8
  csrc := (List.range (csrcCount raw)).map fun i => readU32 raw (12 + 4 * i)
  extensionProfile := profile
  extensions := scan.extensions
  extensionsPadding := scan.extensionsPadding

/-- `Header::unmarshal` (`header.rs:112-271`), with the bytes it did not read. -/
def Header.unmarshal (raw : List Byte) : Except Error (Header × List Byte) :=
  if raw.length < 4 then .error .errHeaderSizeInsufficient
  else if raw.length < csrcEnd raw then .error .errHeaderSizeInsufficient
  else if extensionBit raw then
    if raw.length < csrcEnd raw + 4 then .error .errHeaderSizeInsufficientForExtension
    else if raw.length < csrcEnd raw + 4 + extensionLength raw then
      .error .errHeaderSizeInsufficientForExtension
    else
      let profile := readU16 raw (csrcEnd raw)
      (scanExtensions profile (extensionLength raw) (raw.drop (csrcEnd raw + 4))).map fun scan =>
        (headerOf raw profile scan, scan.rest)
  else .ok (headerOf raw 0#16 ⟨[], 0, raw.drop (csrcEnd raw)⟩, raw.drop (csrcEnd raw))

namespace Header

/-- Bytes an element takes besides its payload (`header.rs:423-428`). -/
def elementOverhead (profile : BitVec 16) : Nat :=
  if profile = extensionProfileOneByte then 1
  else if profile = extensionProfileTwoByte then 2
  else 0

/-- `Header::get_extension_payload_len` (`header.rs:416-431`). -/
def getExtensionPayloadLen (h : Header) : Nat :=
  (h.extensions.map fun e => e.payload.length).sum +
    h.extensions.length * elementOverhead h.extensionProfile

/-- `Header::marshal_size_for` (`header.rs:279-286`). -/
def marshalSizeFor (h : Header) (extensionPayloadLen : Nat) : Nat :=
  let headSize := 12 + h.csrc.length * 4
  if h.extension then
    let padded := extensionPayloadLen + h.extensionsPadding
    headSize + (4 + (padded + 3) / 4 * 4)
  else headSize

/-- `Header::marshal_size` (`header.rs:291-298`). -/
def marshalSize (h : Header) : Nat :=
  h.marshalSizeFor (if h.extension then h.getExtensionPayloadLen else 0)

/-- The first header byte (`header.rs:331-340`). -/
def firstByte (h : Header) : Byte :=
  (h.version <<< 6) ||| BitVec.ofNat 8 h.csrc.length |||
    (if h.padding then 1#8 <<< 5 else 0#8) ||| (if h.extension then 1#8 <<< 4 else 0#8)

/-- The second header byte (`header.rs:343-347`). -/
def secondByte (h : Header) : Byte := h.payloadType ||| if h.marker then 1#8 <<< 7 else 0#8

/-- An element of a one-byte block as written (`header.rs:374-377`). -/
def oneByteElement (e : Extension) : List Byte :=
  ((e.id <<< 4) ||| (BitVec.ofNat 8 e.payload.length - 1#8)) :: e.payload

/-- An element of a two-byte block as written (`header.rs:381-385`). -/
def twoByteElement (e : Extension) : List Byte :=
  e.id :: BitVec.ofNat 8 e.payload.length :: e.payload

/-- The elements of the extension block as written (`header.rs:371-401`). -/
def marshalExtensions (h : Header) : Except Error (List Byte) :=
  if h.extensionProfile = extensionProfileOneByte then
    .ok (h.extensions.flatMap oneByteElement)
  else if h.extensionProfile = extensionProfileTwoByte then
    .ok (h.extensions.flatMap twoByteElement)
  else
    match h.extensions with
    | [e] =>
      if e.payload.length % 4 ≠ 0 then .error .headerExtensionPayloadNot32BitWords
      else .ok e.payload
    | _ => .error .errRfc3550headerIdrange

/-- The extension block as written, with the profile, the length in words and the padding
    (`header.rs:357-407`). -/
def marshalExtensionBlock (h : Header) : Except Error (List Byte) :=
  let len := h.getExtensionPayloadLen
  if h.extensionProfile ≠ extensionProfileOneByte ∧ h.extensionProfile ≠ extensionProfileTwoByte ∧
      len % 4 ≠ 0 then .error .headerExtensionPayloadNot32BitWords
  else
    let size := (len % 2 ^ 16 + 3) / 4
    h.marshalExtensions.map fun elements =>
      toBe16 h.extensionProfile ++ toBe16 (BitVec.ofNat 16 size) ++ elements ++
        List.replicate (size * 4 - len) 0#8

/-- The fixed part of the header and the CSRC list as written (`header.rs:330-355`). -/
def marshalFixed (h : Header) : List Byte :=
  h.firstByte :: h.secondByte :: (toBe16 h.sequenceNumber ++ toBe32 h.timestamp ++ toBe32 h.ssrc ++
    h.csrc.flatMap toBe32)

/-- `Header::marshal_to` into a buffer of `bufLen` bytes (`header.rs:303-411`): the bytes written. -/
def marshalTo (h : Header) (bufLen : Nat) : Except Error (List Byte) :=
  if bufLen < h.marshalSize then .error .errBufferTooSmall
  else if h.extension then h.marshalExtensionBlock.map fun block => h.marshalFixed ++ block
  else .ok h.marshalFixed

/-- `Header::marshal` (`rtc-shared/src/marshal/mod.rs:32-44`): a buffer of `marshal_size` bytes, which
    `marshal_to` has to fill. -/
def marshal (h : Header) : Except Error (List Byte) :=
  let l := h.marshalSize
  match h.marshalTo l with
  | .error e => .error e
  | .ok buf =>
    let n := buf.length
    if n ≠ l then .error (.other s!"marshal_to output size {n}, but expect {l}")
    else .ok buf

/-! ## The extensions as a map -/

/-- The checks of an id and a payload length against the profile in use (`header.rs:437-462`). -/
def checkExtension (profile : BitVec 16) (id : Byte) (payloadLen : Nat) : Option Error :=
  if profile = extensionProfileOneByte then
    if ¬ (1#8 ≤ id ∧ id ≤ 14#8) then some .errRfc8285oneByteHeaderIdrange
    else if 16 < payloadLen then some .errRfc8285oneByteHeaderSize
    else none
  else if profile = extensionProfileTwoByte then
    if id < 1#8 then some .errRfc8285twoByteHeaderIdrange
    else if 255 < payloadLen then some .errRfc8285twoByteHeaderSize
    else none
  else if id ≠ 0#8 then some .errRfc3550headerIdrange
  else none

/-- The padding after `grown` more bytes (`header.rs:484-489`, `509-514`). -/
def takePadding (padding grown : Nat) : Nat :=
  if padding < grown % 4 then padding + 4 - grown % 4 else padding - grown % 4

/-- The padding after the block has changed by `delta` bytes (`header.rs:478-492`). -/
def shiftPadding (padding : Nat) (delta : Int) : Nat :=
  if delta < 0 then (((padding : Int) - delta) % 4).toNat
  else if 0 < delta then takePadding padding delta.toNat
  else padding

/-- The element with this id gets another payload: the first one only (`header.rs:466-473`). -/
def replacePayload (id : Byte) (payload : List Byte) : List Extension → List Extension
  | [] => []
  | e :: es =>
    if e.id = id then { e with payload := payload } :: es else e :: replacePayload id payload es

/-- The profile that the first extension selects (`header.rs:497-507`). -/
def selectProfile (profile : BitVec 16) (payloadLen : Nat) : BitVec 16 :=
  if payloadLen ≤ 16 then extensionProfileOneByte
  else if payloadLen ≤ 255 then extensionProfileTwoByte
  else profile

/-- The bytes beside the payload that the first extension is charged (`header.rs:496-507`). -/
def selectOverhead (payloadLen : Nat) : Nat :=
  if payloadLen ≤ 16 then 1 else if payloadLen ≤ 255 then 2 else 0

/-- `Header::set_extension` (`header.rs:434-518`). Without an extension block the id is not checked. -/
def setExtension (h : Header) (id : Byte) (payload : List Byte) : Except Error Header :=
  if h.extension then
    match checkExtension h.extensionProfile id payload.length with
    | some e => .error e
    | none =>
      match h.extensions.find? fun e => e.id = id with
      | some old =>
        .ok { h with
          extensions := replacePayload id payload h.extensions
          extensionsPadding := shiftPadding h.extensionsPadding
            ((payload.length : Int) - old.payload.length) }
      | none =>
        .ok { h with
          extensions := h.extensions ++ [⟨id, payload⟩]
          extensionsPadding := shiftPadding h.extensionsPadding
            (payload.length + elementOverhead h.extensionProfile) }
  else
    .ok { h with
      extension := true
      extensionProfile := selectProfile h.extensionProfile payload.length
      extensionsPadding :=
        takePadding h.extensionsPadding (payload.length + selectOverhead payload.length)
      extensions := h.extensions ++ [⟨id, payload⟩] }

/-- `Header::get_extension` (`header.rs:530-539`). -/
def getExtension (h : Header) (id : Byte) : Option (List Byte) :=
  if h.extension then (h.extensions.find? fun e => e.id = id).map Extension.payload else none

/-- `Header::del_extension` (`header.rs:542-567`). -/
def delExtension (h : Header) (id : Byte) : Except Error Header :=
  if h.extension then
    match h.extensions.find? fun e => e.id = id with
    | some old =>
      .ok { h with
        extensions := h.extensions.eraseP fun e => e.id = id
        extensionsPadding := (h.extensionsPadding +
          (old.payload.length + elementOverhead h.extensionProfile) % 4) % 4 }
    | none => .error .errHeaderExtensionNotFound
  else .error .errHeaderExtensionsNotEnabled

end Header
end Rtc.Rtp
