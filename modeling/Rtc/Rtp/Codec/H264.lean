import Rtc.Lib.Parse
import Rtc.Shared.Error

/-!
# The H.264 depacketizer

`H264Packet` of `rtc-rtp/src/codec/h264/mod.rs`: single units, aggregates (STAP-A) and fragments (FU-A), of which
the pieces are collected across calls. A call returns its outcome and the object after it.
-/

namespace Rtc.Rtp
open Bytes Shared

/-- `STAPA_NALU_TYPE` (`h264/mod.rs:27`). -/
def stapaNaluType : Byte := 24#8

/-- `FUA_NALU_TYPE` (`h264/mod.rs:29`). -/
def fuaNaluType : Byte := 28#8

/-- `AUD_NALU_TYPE` (`h264/mod.rs:37`). -/
def audNaluType : Byte := 9#8

/-- `ANNEXB_NALUSTART_CODE` (`h264/mod.rs:61`). -/
def annexbNalustartCode : List Byte := [0#8, 0#8, 0#8, 1#8]

/-- `H264Packet` (`h264/mod.rs:243-247`). -/
structure H264Packet where
  isAvc : Bool
  fuaBuffer : Option (List Byte)

namespace H264Packet

/-- What stands before a unit of `size` bytes: its length or the start code. -/
def unitMark (isAvc : Bool) (size : Nat) : List Byte :=
  if isAvc then toBe32 (BitVec.ofNat 32 size) else annexbNalustartCode

/-- The loop over the units of an aggregate (`h264/mod.rs:279-300`). -/
def stapaUnits (isAvc : Bool) (packet : List Byte) : (fuel currOffset : Nat) → List Byte → Parse Error (List Byte)
  | 0, currOffset, payload => if packet.length ≤ currOffset then .ok payload else .error .panicked
  | fuel + 1, currOffset, payload =>
    if packet.length ≤ currOffset then .ok payload
    else do
      let high ← Parse.index packet currOffset
      let low ← Parse.index packet (currOffset + 1)
      let naluSize := (be16 high low).toNat
      let currOffset := currOffset + 2
      if packet.length < currOffset + naluSize then
        Parse.fail (.stapASizeLargerThanBuffer naluSize (packet.length - currOffset))
      else do
        let unit ← Parse.slice packet currOffset (currOffset + naluSize)
        stapaUnits isAvc packet fuel (currOffset + naluSize) (payload ++ unitMark isAvc naluSize ++ unit)

/-- `depacketize` (`h264/mod.rs:251-338`). -/
def depacketize (self : H264Packet) (packet : List Byte) : Parse Error (List Byte) × H264Packet :=
  match packet with
  | b0 :: b1 :: data =>
    let naluType := b0 &&& 0x1F#8
    -- an access unit delimiter may have two bytes
    if data = [] ∧ naluType ≠ audNaluType then (Parse.fail .errShortPacket, self)
    else if 1 ≤ naluType.toNat ∧ naluType.toNat ≤ 23 then
      (.ok (unitMark self.isAvc packet.length ++ packet), self)
    else if naluType = stapaNaluType then (stapaUnits self.isAvc packet packet.length 1 [], self)
    else if naluType = fuaNaluType then
      let fuaBuffer := self.fuaBuffer.getD [] ++ data
      if b1 &&& 0x40#8 ≠ 0#8 then
        (.ok (unitMark self.isAvc (fuaBuffer.length + 1) ++
          ((b0 &&& 0x60#8) ||| (b1 &&& 0x1F#8)) :: fuaBuffer), { self with fuaBuffer := none })
      else (.ok [], { self with fuaBuffer := some fuaBuffer })
    else (Parse.fail (.naluTypeIsNotHandled naluType), self)
  | _ => (Parse.fail .errShortPacket, self)

end H264Packet
end Rtc.Rtp
