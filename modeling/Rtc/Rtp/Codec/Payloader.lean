import Rtc.Rtp.Codec.Descriptor

/-!
# VP8 and VP9 payloaders

`Vp8Payloader` and `Vp9Payloader` of `rtc-rtp/src/codec/vp8/mod.rs` and `rtc-rtp/src/codec/vp9/mod.rs`, which cut a
frame into fragments and put a descriptor in front of each.
-/

namespace Rtc.Rtp
open Shared

/-- The `while` loop of both payloaders (`vp8/mod.rs:70-102`, `vp9/mod.rs:105-130`): fragments of at most `size`
    bytes, with a descriptor that may depend on whether the fragment is the first and whether it is the last. -/
def emitFragments (size : Nat) (descriptor : (first last : Bool) → List Byte) :
    (fuel : Nat) → (first : Bool) → List Byte → List (List Byte)
  | 0, _, _ => []
  | fuel + 1, first, rest =>
    if rest = [] then []
    else
      (descriptor first (decide (rest.length ≤ size)) ++ rest.take size) ::
        emitFragments size descriptor fuel false (rest.drop size)

/-- The next picture id (`vp8/mod.rs:104-105`, `vp9/mod.rs:132-133`). -/
def nextPictureId (pictureId : BitVec 16) : BitVec 16 := (pictureId + 1#16) &&& 0x7FFF#16

theorem toNat_nextPictureId (pictureId : BitVec 16) : (nextPictureId pictureId).toNat = (pictureId.toNat + 1) % 2 ^ 15 := by
  rw [nextPictureId, BitVec.toNat_and, BitVec.toNat_add, show (0x7FFF#16).toNat = 2 ^ 15 - 1 from rfl,
    Nat.and_two_pow_sub_one_eq_mod]
  exact Nat.mod_mod_of_dvd _ (by decide)

/-- `Vp8Payloader` (`vp8/mod.rs:14-20`); the picture id is kept below `2 ^ 15`. -/
structure Vp8Payloader where
  enablePictureId : Bool
  pictureId : BitVec 16
  pictureId_lt : pictureId.toNat < 2 ^ 15

namespace Vp8Payloader

def new (enablePictureId : Bool) : Vp8Payloader := ⟨enablePictureId, 0#16, by decide⟩

def usingHeaderSize (self : Vp8Payloader) : Nat :=
  if self.enablePictureId then if self.pictureId = 0#16 ∨ self.pictureId < 128#16 then 3 else 4 else 1

/-- `buf` up to `using_header_size` (`vp8/mod.rs:74-92`). -/
def descriptor (self : Vp8Payloader) (first : Bool) : List Byte :=
  let start := if first then 0x10#8 else 0#8
  if self.enablePictureId then
    if self.usingHeaderSize = 3 then [start ||| 0x80#8, 0x80#8, (self.pictureId &&& 0x7F#16).setWidth 8]
    else
      [start ||| 0x80#8, 0x80#8, 0x80#8 ||| (self.pictureId >>> 8 &&& 0x7F#16).setWidth 8,
        (self.pictureId &&& 0xFF#16).setWidth 8]
  else [start]

/-- `payload` (`vp8/mod.rs:24-108`). -/
def payload (self : Vp8Payloader) (mtu : Nat) (payload : List Byte) : Vp8Payloader × List (List Byte) :=
  if payload = [] ∨ mtu = 0 then (self, [])
  else if min ((mtu : Int) - self.usingHeaderSize) payload.length ≤ 0 then (self, [])
  else
    ({ self with
        pictureId := nextPictureId self.pictureId
        pictureId_lt := by rw [toNat_nextPictureId]; exact Nat.mod_lt _ (by decide) },
      emitFragments (mtu - self.usingHeaderSize) (fun first _ => self.descriptor first) payload.length true payload)

end Vp8Payloader

/-- `Vp9Payloader` (`vp9/mod.rs:21-27`), with the number that the function for the first picture id returns. -/
structure Vp9Payloader where
  initialPictureId : BitVec 16
  pictureId : BitVec 16 := 0#16
  initialized : Bool := false

namespace Vp9Payloader

/-- `buf` (`vp9/mod.rs:109-118`). -/
def descriptor (pictureId : BitVec 16) (first last : Bool) : List Byte :=
  [0x90#8 ||| (if first then 0x08#8 else 0#8) ||| (if last then 0x04#8 else 0#8),
    (pictureId >>> 8).setWidth 8 ||| 0x80#8, (pictureId &&& 0xFF#16).setWidth 8]

/-- The picture id of the next frame (`vp9/mod.rs:83-94`). -/
def currentId (self : Vp9Payloader) : BitVec 16 := if self.initialized then self.pictureId else self.initialPictureId

/-- `payload` (`vp9/mod.rs:40-136`); the increment of the picture id overflows at `0xFFFF`. -/
def payload (self : Vp9Payloader) (mtu : Nat) (payload : List Byte) : Parse Error (Vp9Payloader × List (List Byte)) :=
  if payload = [] ∨ mtu = 0 then .ok (self, [])
  else
    let pictureId := self.currentId
    let self := { self with pictureId, initialized := true }
    if min ((mtu : Int) - 3) payload.length ≤ 0 then .ok (self, [])
    else if pictureId = 0xFFFF#16 then .error .panicked
    else
      .ok ({ self with pictureId := nextPictureId pictureId },
        emitFragments (mtu - 3) (descriptor pictureId) payload.length true payload)

end Vp9Payloader
end Rtc.Rtp
