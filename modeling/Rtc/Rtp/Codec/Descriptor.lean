import Rtc.Lib.Parse
import Rtc.Shared.Error

/-!
# VP8 and VP9 payload descriptors

`Vp8Packet` and `Vp9Packet` of `rtc-rtp/src/codec/vp8/mod.rs` and `vp9/mod.rs`. A call that fails comes with the
object as it is by then. The payload index of the source is the number of bytes the reader has given.
-/

namespace Rtc.Rtp
open Shared

/-- What a call on an object of type `σ` returns: the object and the bytes left, or a failure and the object. -/
abbrev Outcome (σ : Type) := Except (Failure Error × σ) (σ × List Byte)

namespace Outcome

variable {σ : Type}

def short (self : σ) : Outcome σ := .error (.err .errShortPacket, self)

/-- The object after the call. -/
def object : Outcome σ → σ
  | .ok (self, _) => self
  | .error (_, self) => self

/-- What the caller gets. -/
def result : Outcome σ → Parse Error (List Byte)
  | .ok (_, payload) => .ok payload
  | .error (e, _) => .error e

/-- The next step, if the call goes on. -/
def andThen (o : Outcome σ) (step : σ → List Byte → Outcome σ) : Outcome σ :=
  match o with
  | .ok (self, reader) => step self reader
  | .error e => .error e

/-- A step that reads a byte; the reader panics when it has none. -/
def withU8 (self : σ) (reader : List Byte) (step : Byte → List Byte → Outcome σ) : Outcome σ :=
  match reader with
  | b :: reader => step b reader
  | [] => .error (.panicked, self)

/-- A step that reads a byte, and returns an error when there is none. -/
def withByte (self : σ) (reader : List Byte) (step : Byte → List Byte → Outcome σ) : Outcome σ :=
  match reader with
  | b :: reader => step b reader
  | [] => short self

end Outcome

open Outcome

/-- `Vp8Packet` (`vp8/mod.rs:117-149`). -/
structure Vp8Packet where
  x : Byte := 0#8
  n : Byte := 0#8
  s : Byte := 0#8
  pid : Byte := 0#8
  i : Byte := 0#8
  l : Byte := 0#8
  t : Byte := 0#8
  k : Byte := 0#8
  pictureId : BitVec 16 := 0#16
  tl0PicIdx : Byte := 0#8
  tid : Byte := 0#8
  y : Byte := 0#8
  keyIdx : Byte := 0#8

namespace Vp8Packet

/-- The required byte (`vp8/mod.rs:176-182`). -/
def getRequired (self : Vp8Packet) (packet : List Byte) : Outcome Vp8Packet :=
  withU8 self packet fun b reader =>
    .ok ({ self with
      x := (b &&& 0x80#8) >>> 7, n := (b &&& 0x20#8) >>> 5, s := (b &&& 0x10#8) >>> 4, pid := b &&& 0x07#8 }, reader)

/-- The extended control bits (`vp8/mod.rs:184-191`). -/
def getControl (self : Vp8Packet) (reader : List Byte) : Outcome Vp8Packet :=
  if self.x = 1#8 then
    withU8 self reader fun b reader =>
      .ok ({ self with
        i := (b &&& 0x80#8) >>> 7, l := (b &&& 0x40#8) >>> 6, t := (b &&& 0x20#8) >>> 5,
        k := (b &&& 0x10#8) >>> 4 }, reader)
  else .ok (self, reader)

/-- The picture id (`vp8/mod.rs:193-204`). -/
def getPictureId (self : Vp8Packet) (reader : List Byte) : Outcome Vp8Packet :=
  if self.i = 1#8 then
    withU8 self reader fun b reader =>
      if 0#8 < b &&& 0x80#8 then
        withU8 self reader fun low reader => .ok ({ self with pictureId := (b &&& 0x7F#8) ++ low }, reader)
      else .ok ({ self with pictureId := b.setWidth 16 }, reader)
  else .ok (self, reader)

/-- `if payload_index >= payload_len`, three times in `depacketize`. -/
def checkLeft (self : Vp8Packet) (reader : List Byte) : Outcome Vp8Packet :=
  if reader = [] then short self else .ok (self, reader)

/-- The temporal level zero index (`vp8/mod.rs:210-213`). -/
def getTl0PicIdx (self : Vp8Packet) (reader : List Byte) : Outcome Vp8Packet :=
  if self.l = 1#8 then withU8 self reader fun b reader => .ok ({ self with tl0PicIdx := b }, reader)
  else .ok (self, reader)

/-- The temporal layer and the key frame index (`vp8/mod.rs:219-229`). -/
def getTidKeyIdx (self : Vp8Packet) (reader : List Byte) : Outcome Vp8Packet :=
  if self.t = 1#8 ∨ self.k = 1#8 then
    withU8 self reader fun b reader =>
      .ok ({ self with
        tid := if self.t = 1#8 then b >>> 6 else self.tid
        y := if self.t = 1#8 then b >>> 5 &&& 0x1#8 else self.y
        keyIdx := if self.k = 1#8 then b &&& 0x1F#8 else self.keyIdx }, reader)
  else .ok (self, reader)

/-- `depacketize` (`vp8/mod.rs:153-236`). -/
def depacketize (self : Vp8Packet) (packet : List Byte) : Outcome Vp8Packet :=
  if packet.length < 4 then short self
  else
    (self.getRequired packet).andThen getControl |>.andThen getPictureId |>.andThen checkLeft |>.andThen getTl0PicIdx
      |>.andThen checkLeft |>.andThen getTidKeyIdx |>.andThen checkLeft

end Vp8Packet

/-- `Vp9Packet` (`vp9/mod.rs:145-202`). -/
structure Vp9Packet where
  i : Bool := false
  p : Bool := false
  l : Bool := false
  f : Bool := false
  b : Bool := false
  e : Bool := false
  v : Bool := false
  z : Bool := false
  pictureId : BitVec 16 := 0#16
  tid : Byte := 0#8
  u : Bool := false
  sid : Byte := 0#8
  d : Bool := false
  pdiff : List Byte := []
  tl0picidx : Byte := 0#8
  ns : Byte := 0#8
  y : Bool := false
  g : Bool := false
  ng : Byte := 0#8
  width : List (BitVec 16) := []
  height : List (BitVec 16) := []
  pgtid : List Byte := []
  pgu : List Bool := []
  pgpdiff : List (List Byte) := []

namespace Vp9Packet

/-- The flags of the required byte (`vp9/mod.rs:211-223`). -/
def getRequired (self : Vp9Packet) (packet : List Byte) : Outcome Vp9Packet :=
  withByte self packet fun b reader =>
    .ok ({ self with
      i := b &&& 0x80#8 ≠ 0#8, p := b &&& 0x40#8 ≠ 0#8, l := b &&& 0x20#8 ≠ 0#8, f := b &&& 0x10#8 ≠ 0#8,
      b := b &&& 0x08#8 ≠ 0#8, e := b &&& 0x04#8 ≠ 0#8, v := b &&& 0x02#8 ≠ 0#8, z := b &&& 0x01#8 ≠ 0#8 }, reader)

/-- `parse_picture_id` (`vp9/mod.rs:267-290`). -/
def parsePictureId (self : Vp9Packet) (reader : List Byte) : Outcome Vp9Packet :=
  withByte self reader fun b reader =>
    if b &&& 0x80#8 ≠ 0#8 then
      withByte self reader fun low reader => .ok ({ self with pictureId := (b &&& 0x7F#8) ++ low }, reader)
    else .ok ({ self with pictureId := (b &&& 0x7F#8).setWidth 16 }, reader)

/-- `parse_layer_info` with its two parts (`vp9/mod.rs:292-354`). -/
def parseLayerInfo (self : Vp9Packet) (reader : List Byte) : Outcome Vp9Packet :=
  withByte self reader fun b reader =>
    let self := { self with
      tid := b >>> 5, u := b &&& 0x10#8 ≠ 0#8, sid := b >>> 1 &&& 0x7#8, d := b &&& 0x01#8 ≠ 0#8 }
    if 5#8 ≤ self.sid then .error (.err .errTooManySpatialLayers, self)
    else if self.f then .ok (self, reader)
    else withByte self reader fun b reader => .ok ({ self with tl0picidx := b }, reader)

/-- The loop of `parse_ref_indices` (`vp9/mod.rs:363-383`); a round reads the first byte of the reader. -/
def parseRefIndices (self : Vp9Packet) : List Byte → Outcome Vp9Packet
  | [] => short self
  | b :: reader =>
    let self := { self with pdiff := self.pdiff ++ [b >>> 1] }
    if 3 ≤ self.pdiff.length then .error (.err .errTooManyPDiff, self)
    else if b &&& 0x1#8 ≠ 0#8 then parseRefIndices self reader
    else .ok (self, reader)

/-- The frame sizes of the layers (`vp9/mod.rs:420-431`). -/
def getSizes (self : Vp9Packet) (reader : List Byte) : Outcome Vp9Packet :=
  let ns := self.ns.toNat + 1
  if self.y then
    if reader.length < 4 * ns then short self
    else
      .ok ({ self with
        width := (List.range ns).map fun i => Bytes.readU16 reader (4 * i)
        height := (List.range ns).map fun i => Bytes.readU16 reader (4 * i + 2) }, reader.drop (4 * ns))
  else .ok (self, reader)

/-- The number of pictures (`vp9/mod.rs:434-441`). -/
def getNg (self : Vp9Packet) (reader : List Byte) : Outcome Vp9Packet :=
  if self.g then withByte self reader fun b reader => .ok ({ self with ng := b }, reader) else .ok (self, reader)

/-- The pictures from the `i`th on (`vp9/mod.rs:443-465`). The indices of a picture go to the `i`th entry of
    `pgpdiff`, the one pushed last only if there was none before the call. -/
def getPictures : (n i : Nat) → Vp9Packet → List Byte → Outcome Vp9Packet
  | 0, _, self, reader => .ok (self, reader)
  | n + 1, i, self, reader =>
    withByte self reader fun b reader =>
      let self := { self with pgtid := self.pgtid ++ [b >>> 5], pgu := self.pgu ++ [decide (b &&& 0x10#8 ≠ 0#8)] }
      let r := (b >>> 2 &&& 0x3#8).toNat
      if reader.length < r then short self
      else
        getPictures n (i + 1) { self with pgpdiff := (self.pgpdiff ++ [[]]).modify i (· ++ reader.take r) }
          (reader.drop r)

/-- `parse_ssdata` (`vp9/mod.rs:405-468`). -/
def parseSsdata (self : Vp9Packet) (reader : List Byte) : Outcome Vp9Packet :=
  withByte self reader fun b reader =>
    let self := { self with ns := b >>> 5, y := b &&& 0x10#8 ≠ 0#8, g := b >>> 1 &&& 0x7#8 ≠ 0#8, ng := 0#8 }
    (self.getSizes reader).andThen getNg |>.andThen fun self reader => getPictures self.ng.toNat 0 self reader

/-- The required byte, the picture id and the layer information (`vp9/mod.rs:207-231`). -/
def getFields (self : Vp9Packet) (packet : List Byte) : Outcome Vp9Packet :=
  (self.getRequired packet).andThen (fun self reader => if self.i then self.parsePictureId reader else .ok (self, reader))
    |>.andThen fun self reader => if self.l then self.parseLayerInfo reader else .ok (self, reader)

/-- `depacketize` (`vp9/mod.rs:206-242`). -/
def depacketize (self : Vp9Packet) (packet : List Byte) : Outcome Vp9Packet :=
  (self.getFields packet).andThen (fun self reader =>
      if self.f && self.p then self.parseRefIndices reader else .ok (self, reader))
    |>.andThen fun self reader => if self.v then self.parseSsdata reader else .ok (self, reader)

end Vp9Packet
end Rtc.Rtp
