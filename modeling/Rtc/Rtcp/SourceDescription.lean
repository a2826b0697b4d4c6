import Rtc.Rtcp.Reports

/-!
# Source descriptions and goodbyes

`SourceDescription` of `rtc-rtcp/src/source_description/mod.rs` and `Goodbye` of `goodbye/mod.rs`,
with their codecs.
-/

namespace Rtc.Rtcp
open Bytes Shared

/-- `SdesType` (`source_description/mod.rs:27-50`). -/
inductive SdesType where
  | sdesEnd
  | sdesCname
  | sdesName
  | sdesEmail
  | sdesPhone
  | sdesLocation
  | sdesTool
  | sdesNote
  | sdesPrivate
  deriving DecidableEq, Repr

/-- The discriminant of an item type. -/
def SdesType.toByte : SdesType → Byte
  | .sdesEnd => 0#8
  | .sdesCname => 1#8
  | .sdesName => 2#8
  | .sdesEmail => 3#8
  | .sdesPhone => 4#8
  | .sdesLocation => 5#8
  | .sdesTool => 6#8
  | .sdesNote => 7#8
  | .sdesPrivate => 8#8

/-- `SdesType::from` (`mod.rs:70-82`): a type that is not known ends the list. -/
def SdesType.ofByte (b : Byte) : SdesType :=
  match b.toNat with
  | 1 => .sdesCname
  | 2 => .sdesName
  | 3 => .sdesEmail
  | 4 => .sdesPhone
  | 5 => .sdesLocation
  | 6 => .sdesTool
  | 7 => .sdesNote
  | 8 => .sdesPrivate
  | _ => .sdesEnd

@[simp] theorem SdesType.ofByte_toByte (t : SdesType) : ofByte t.toByte = t := by
  cases t <;> rfl

/-- `SourceDescriptionItem` (`mod.rs:190-197`). -/
structure SourceDescriptionItem where
  sdesType : SdesType
  text : List Byte
  deriving DecidableEq, Repr

namespace SourceDescriptionItem

/-- `marshal_size` (`mod.rs:200-209`). -/
def marshalSize (item : SourceDescriptionItem) : Nat := 1 + 1 + item.text.length

/-- The bytes of an item. -/
def put (item : SourceDescriptionItem) : List Byte :=
  item.sdesType.toByte :: BitVec.ofNat 8 item.text.length :: item.text

/-- `marshal_to` (`mod.rs:214-241`). -/
def marshalTo (item : SourceDescriptionItem) (available : Nat) : Except Error (List Byte) :=
  if item.sdesType = .sdesEnd then .error .sdesMissingType
  else if available < item.marshalSize then .error .bufferTooShort
  else if 255 < item.text.length then .error .sdesTextTooLong
  else .ok item.put

/-- `unmarshal` (`mod.rs:246-283`). -/
def unmarshal (reader : List Byte) : Parse Error (SourceDescriptionItem × List Byte) :=
  let rawPacketLen := reader.length
  if rawPacketLen < 1 then Parse.fail .packetTooShort
  else do
    let (typ, reader) ← Parse.getU8 reader
    let sdesType := SdesType.ofByte typ
    if sdesType = .sdesEnd then .ok (⟨sdesType, []⟩, reader)
    else if rawPacketLen < 2 then Parse.fail .packetTooShort
    else
      let (octetCount, reader) ← Parse.getU8 reader
      if rawPacketLen < 2 + octetCount.toNat then Parse.fail .packetTooShort
      else
        let (text, reader) ← Parse.copyToBytes octetCount.toNat reader
        .ok (⟨sdesType, text⟩, reader)

end SourceDescriptionItem

/-- `SourceDescriptionChunk` (`mod.rs:87-92`). -/
structure SourceDescriptionChunk where
  source : BitVec 32
  items : List SourceDescriptionItem
  deriving DecidableEq, Repr

namespace SourceDescriptionChunk

/-- The bytes of the items. -/
def itemsSize (items : List SourceDescriptionItem) : Nat :=
  (items.map SourceDescriptionItem.marshalSize).sum

/-- `raw_size` (`mod.rs:95-102`). -/
def rawSize (c : SourceDescriptionChunk) : Nat := 4 + itemsSize c.items + 1

/-- `marshal_size` (`mod.rs:106-110`). -/
def marshalSize (c : SourceDescriptionChunk) : Nat := c.rawSize + getPaddingSize c.rawSize

/-- `marshal_to` (`mod.rs:115-141`). -/
def marshalTo (c : SourceDescriptionChunk) (available : Nat) : Except Error (List Byte) :=
  if available < c.marshalSize then .error .bufferTooShort
  else do
    let items ← Emit.putAll SourceDescriptionItem.marshalTo (available - 4) c.items
    .ok (toBe32 c.source ++ (items ++ (SdesType.sdesEnd.toByte :: putPadding c.rawSize)))

/-- The loop over the items of a chunk in a buffer of `rawPacketLen` bytes (`mod.rs:168-184`). A round that
    would be one too many for the fuel counts as a panic; there is none, as every item moves the offset
    on. -/
def getItems (rawPacketLen : Nat) : (fuel offset : Nat) → List Byte →
    Parse Error (List SourceDescriptionItem × List Byte)
  | 0, offset, _ => if rawPacketLen ≤ offset then Parse.fail .packetTooShort else .error .panicked
  | fuel + 1, offset, reader =>
    if rawPacketLen ≤ offset then Parse.fail .packetTooShort
    else do
      let (item, reader) ← SourceDescriptionItem.unmarshal reader
      if item.sdesType = .sdesEnd then
        let paddingLen := getPaddingSize (offset + 1)
        if paddingLen ≤ reader.length then
          let reader ← Parse.advance paddingLen reader
          .ok ([], reader)
        else Parse.fail .packetTooShort
      else
        let (items, reader) ← getItems rawPacketLen fuel (offset + item.marshalSize) reader
        .ok (item :: items, reader)

/-- `unmarshal` (`mod.rs:146-185`). -/
def unmarshal (reader : List Byte) : Parse Error (SourceDescriptionChunk × List Byte) :=
  let rawPacketLen := reader.length
  if rawPacketLen < 4 + 1 then Parse.fail .packetTooShort
  else do
    let (source, reader) ← Parse.getU32 reader
    let (items, reader) ← getItems rawPacketLen rawPacketLen 4 reader
    .ok (⟨source, items⟩, reader)

end SourceDescriptionChunk

/-- `SourceDescription` (`mod.rs:288-291`). -/
structure SourceDescription where
  chunks : List SourceDescriptionChunk
  deriving DecidableEq, Repr

namespace SourceDescription

/-- The bytes of the chunks. -/
def chunksSize (chunks : List SourceDescriptionChunk) : Nat :=
  (chunks.map SourceDescriptionChunk.marshalSize).sum

/-- `raw_size` (`mod.rs:322-329`). -/
def rawSize (p : SourceDescription) : Nat := 4 + chunksSize p.chunks

/-- `marshal_size` (`mod.rs:345-349`). -/
def marshalSize (p : SourceDescription) : Nat := p.rawSize + getPaddingSize p.rawSize

/-- `header` (`mod.rs:308-315`). -/
def header (p : SourceDescription) : Header :=
  .ofSize (BitVec.ofNat 8 p.chunks.length) .sourceDescription p.rawSize

/-- `marshal_to` into a buffer of `available` bytes (`mod.rs:354-395`): the bytes written. -/
def marshalTo (p : SourceDescription) (available : Nat) : Except Error (List Byte) :=
  if 31 < p.chunks.length then .error .tooManyChunks
  else if available < p.marshalSize then .error .bufferTooShort
  else p.header.frame p.rawSize available
    (Emit.putAll SourceDescriptionChunk.marshalTo (available - 4) p.chunks)

/-- The loop over the chunks of a packet of `rawPacketLen` bytes (`mod.rs:431-435`). -/
def getChunks (rawPacketLen : Nat) : (fuel offset : Nat) → List Byte →
    Parse Error (List SourceDescriptionChunk × List Byte)
  | 0, offset, reader => if rawPacketLen ≤ offset then .ok ([], reader) else .error .panicked
  | fuel + 1, offset, reader =>
    if rawPacketLen ≤ offset then .ok ([], reader)
    else do
      let (chunk, reader) ← SourceDescriptionChunk.unmarshal reader
      let (chunks, reader) ← getChunks rawPacketLen fuel (offset + chunk.marshalSize) reader
      .ok (chunk :: chunks, reader)

/-- `unmarshal` (`mod.rs:400-448`): what is left of the buffer is skipped. -/
def unmarshal (raw : List Byte) : Parse Error (SourceDescription × List Byte) :=
  match Header.unmarshal raw with
  | .error e => Parse.fail e
  | .ok h =>
    if h.packetType ≠ .sourceDescription then Parse.fail .wrongType
    else do
      let (chunks, _) ← getChunks raw.length raw.length 4 (raw.drop 4)
      if chunks.length ≠ h.count.toNat then Parse.fail .invalidHeader
      else .ok (⟨chunks⟩, [])

end SourceDescription

/-- `Goodbye` (`goodbye/mod.rs:16-21`). -/
structure Goodbye where
  sources : List (BitVec 32)
  reason : List Byte
  deriving DecidableEq, Repr

namespace Goodbye

/-- `raw_size` (`mod.rs:51-56`). -/
def rawSize (p : Goodbye) : Nat := 4 + p.sources.length * 4 + (p.reason.length + 1)

/-- `marshal_size` (`mod.rs:72-76`). -/
def marshalSize (p : Goodbye) : Nat := p.rawSize + getPaddingSize p.rawSize

/-- `header` (`mod.rs:37-44`). -/
def header (p : Goodbye) : Header := .ofSize (BitVec.ofNat 8 p.sources.length) .goodbye p.rawSize

/-- What stands between the header and the padding (`mod.rs:112-119`). -/
def body (p : Goodbye) : List Byte :=
  p.sources.flatMap toBe32 ++ (BitVec.ofNat 8 p.reason.length :: p.reason)

/-- `marshal_to` into a buffer of `available` bytes (`mod.rs:81-126`): the bytes written. -/
def marshalTo (p : Goodbye) (available : Nat) : Except Error (List Byte) :=
  if 31 < p.sources.length then .error .tooManySources
  else if 255 < p.reason.length then .error .reasonTooLong
  else if available < p.marshalSize then .error .bufferTooShort
  else p.header.frame p.rawSize available (.ok p.body)

/-- The reason, if there is one (`mod.rs:170-181`). -/
def getReason (rawPacketLen reasonOffset : Nat) (reader : List Byte) :
    Parse Error (List Byte × List Byte) :=
  if reasonOffset < rawPacketLen then do
    let (reasonLen, reader) ← Parse.getU8 reader
    if rawPacketLen < reasonOffset + 1 + reasonLen.toNat then Parse.fail .packetTooShort
    else Parse.copyToBytes reasonLen.toNat reader
  else .ok ([], reader)

/-- `unmarshal` (`mod.rs:130-190`): what is left of the buffer is skipped. -/
def unmarshal (raw : List Byte) : Parse Error (Goodbye × List Byte) :=
  match Header.unmarshal raw with
  | .error e => Parse.fail e
  | .ok header =>
    if header.packetType ≠ .goodbye then Parse.fail .wrongType
    else if getPaddingSize raw.length ≠ 0 then Parse.fail .packetTooShort
    else
      let reasonOffset := 4 + header.count.toNat * 4
      if raw.length < reasonOffset then Parse.fail .packetTooShort
      else do
        let (sources, reader) ← Parse.getMany Parse.getU32 header.count.toNat (raw.drop 4)
        let (reason, _) ← getReason raw.length reasonOffset reader
        .ok (⟨sources, reason⟩, [])

end Goodbye
end Rtc.Rtcp
