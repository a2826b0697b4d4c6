import Rtc.Rtp.Header

/-!
# RTP packets

`Packet` of `rtc-rtp/src/packet/mod.rs`: a header, a payload, and the padding that the header's
padding bit announces.
-/

namespace Rtc.Rtp
open Shared

/-- `Packet` (`packet/mod.rs:16-21`). -/
structure Packet where
  header : Header
  payload : List Byte
  deriving DecidableEq, Repr

/-- `get_padding` (`packet/mod.rs:115-121`). -/
def getPadding (len : Nat) : Nat := if len % 4 = 0 then 0 else 4 - len % 4

namespace Packet

/-- The padding bytes the padding bit asks for (`packet/mod.rs:73-78`, `93-97`). -/
def paddingLen (p : Packet) : Nat :=
  if p.header.padding then
    let len := getPadding p.payload.length
    if len = 0 then 4 else len
  else 0

/-- `Packet::marshal_size` (`packet/mod.rs:71-80`). -/
def marshalSize (p : Packet) : Nat := p.header.marshalSize + p.payload.length + p.paddingLen

/-- The padding as written: zeros, then the count (`packet/mod.rs:98-104`). -/
def paddingBytes (p : Packet) : List Byte :=
  (List.range p.paddingLen).map fun i =>
    if i ≠ p.paddingLen - 1 then 0#8 else BitVec.ofNat 8 p.paddingLen

/-- `Packet::marshal_to` into a buffer of `bufLen` bytes (`packet/mod.rs:85-111`): the bytes
    written. -/
def marshalTo (p : Packet) (bufLen : Nat) : Except Error (List Byte) :=
  if bufLen < p.marshalSize then .error .errBufferTooSmall
  else (p.header.marshalTo bufLen).map fun head => head ++ p.payload ++ p.paddingBytes

/-- `Packet::marshal` (`rtc-shared/src/marshal/mod.rs:32-44`): a buffer of `marshal_size` bytes, which
    `marshal_to` has to fill. -/
def marshal (p : Packet) : Except Error (List Byte) :=
  let l := p.marshalSize
  match p.marshalTo l with
  | .error e => .error e
  | .ok buf =>
    let n := buf.length
    if n ≠ l then .error (.other s!"marshal_to output size {n}, but expect {l}")
    else .ok buf

/-- The payload left of the bytes after the header, once the padding is removed
    (`packet/mod.rs:48-65`). -/
def removePadding (padding : Bool) (body : List Byte) : Except Error (List Byte) :=
  if padding then
    match body.getLast? with
    | some last =>
      if last.toNat ≤ body.length then .ok (body.take (body.length - last.toNat))
      else .error .errShortPacket
    | none => .error .errShortPacket
  else .ok body

/-- `Packet::unmarshal` (`packet/mod.rs:41-66`). -/
def unmarshal (raw : List Byte) : Except Error Packet :=
  match Header.unmarshal raw with
  | .error e => .error e
  | .ok (header, body) =>
    (removePadding header.padding body).map fun payload => ⟨header, payload⟩

end Packet
end Rtc.Rtp
