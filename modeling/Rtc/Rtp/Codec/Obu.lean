import Rtc.Lib.Parse
import Rtc.Shared.Error

/-!
# AV1 OBUs

`parse_obus` of `rtc-rtp/src/codec/av1/obu.rs` and the LEB128 reader of `rtc-rtp/src/codec/av1/leb128.rs`. The
remaining counter of the loop is the number of bytes from its index on, so the loop walks over those bytes.
-/

namespace Rtc.Rtp
open Shared

/-- The loop of `decode_leb128` (`leb128.rs:3-13`); a `u64` has eight bytes. -/
def decodeLeb128Loop : (fuel b val : Nat) → Nat
  | 0, b, _ => b
  | fuel + 1, b, val =>
    let b := b ||| (val &&& 0x7F)
    let val := val >>> 8
    if val = 0 then b else decodeLeb128Loop fuel ((b <<< 7) % 2 ^ 64) val

/-- `decode_leb128` (`leb128.rs:3-13`). -/
def decodeLeb128 (val : Nat) : Nat := decodeLeb128Loop 8 0 val % 2 ^ 32

/-- The loop of `read_leb128` from the `i`th byte on (`leb128.rs:15-25`). -/
def readLeb128Loop : (encoded i : Nat) → List Byte → Nat × Nat
  | _, _, [] => (0, 0)
  | encoded, i, b :: bytes =>
    let encoded := encoded ||| b.toNat
    if b &&& 0x80#8 = 0#8 then (decodeLeb128 encoded, i + 1)
    else readLeb128Loop ((encoded <<< 8) % 2 ^ 64) (i + 1) bytes

/-- `read_leb128` (`leb128.rs:15-25`): the value and the bytes it takes, none if it does not end. -/
def readLeb128 (bytes : List Byte) : Nat × Nat := readLeb128Loop 0 0 bytes

/-- `Obu` (`obu.rs:23-29`). -/
structure Obu where
  header : Byte
  extensionHeader : Byte
  payload : List Byte
  size : Nat
  deriving DecidableEq, Repr

/-- The bytes of an OBU in the input. -/
structure ObuSpan where
  header : Byte
  extension : List Byte
  sizeField : List Byte
  payload : List Byte
  deriving DecidableEq, Repr

def obuHasExtension (header : Byte) : Bool := header &&& 0x04#8 ≠ 0#8

def obuHasSize (header : Byte) : Bool := header &&& 0x02#8 ≠ 0#8

def obuType (header : Byte) : Byte := (header &&& 0x78#8) >>> 3

/-- `should_ignore_obu_type` (`obu.rs:105-109`). -/
def shouldIgnoreObuType (obuType : Byte) : Bool := obuType = 2#8 ∨ obuType = 8#8 ∨ obuType = 15#8

/-- The OBU that a span is pushed as (`obu.rs:77-84`). -/
def ObuSpan.obu (s : ObuSpan) : Obu :=
  ⟨s.header, s.extension.headD 0#8, s.payload, (if obuHasExtension s.header then 2 else 1) + s.payload.length⟩

/-- The size field and the payload of an OBU, of the bytes after its header (`obu.rs:64-74`). -/
def obuPayload (hasSize : Bool) (rest : List Byte) : Parse Error (List Byte × List Byte) :=
  if !hasSize then .ok ([], rest)
  else if rest = [] then Parse.fail .errPayloadTooSmallForObuPayloadSize
  else
    let (size, leb128Size) := readLeb128 rest
    (Parse.slice rest leb128Size (leb128Size + size)).map fun payload => (rest.take leb128Size, payload)

/-- The loop of `parse_obus` (`obu.rs:44-88`), with every OBU it passes. A round that would be one too many for
    the fuel counts as a panic. -/
def obuSpans : (fuel : Nat) → List Byte → Parse Error (List ObuSpan)
  | _, [] => .ok []
  | 0, _ :: _ => .error .panicked
  | fuel + 1, header :: data =>
    if obuHasExtension header ∧ data = [] then Parse.fail .errPayloadTooSmallForObuExtensionHeader
    else do
      let extension := if obuHasExtension header then data.take 1 else []
      let rest := data.drop extension.length
      let (sizeField, payload) ← obuPayload (obuHasSize header) rest
      let spans ← obuSpans fuel (rest.drop (sizeField.length + payload.length))
      .ok (⟨header, extension, sizeField, payload⟩ :: spans)

/-- `parse_obus` (`obu.rs:39-91`). -/
def parseObus (payload : List Byte) : Parse Error (List Obu) :=
  (obuSpans payload.length payload).map fun spans =>
    (spans.filter fun s => !shouldIgnoreObuType (obuType s.header)).map ObuSpan.obu

end Rtc.Rtp
