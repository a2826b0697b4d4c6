import Rtc.Lib.Bytes
import Rtc.Shared.Error

/-!
# The RTCP header

`Header` of `rtc-rtcp/src/header.rs` with its parser and its serialiser, and the padding of
`rtc-rtcp/src/util.rs`.
-/

namespace Rtc.Rtcp
open Bytes Shared

/-- `PacketType` (`header.rs:21-43`). -/
inductive PacketType where
  | unsupported
  | senderReport
  | receiverReport
  | sourceDescription
  | goodbye
  | applicationDefined
  | transportSpecificFeedback
  | payloadSpecificFeedback
  | extendedReport
  deriving DecidableEq, Repr

/-- `PacketType::from` (`header.rs:78-92`). -/
def PacketType.ofByte (b : Byte) : PacketType :=
  match b.toNat with
  | 200 => .senderReport
  | 201 => .receiverReport
  | 202 => .sourceDescription
  | 203 => .goodbye
  | 204 => .applicationDefined
  | 205 => .transportSpecificFeedback
  | 206 => .payloadSpecificFeedback
  | 207 => .extendedReport
  | _ => .unsupported

/-- The discriminant of a packet type (`header.rs:21-43`). -/
def PacketType.toByte : PacketType → Byte
  | .unsupported => 0#8
  | .senderReport => 200#8
  | .receiverReport => 201#8
  | .sourceDescription => 202#8
  | .goodbye => 203#8
  | .applicationDefined => 204#8
  | .transportSpecificFeedback => 205#8
  | .payloadSpecificFeedback => 206#8
  | .extendedReport => 207#8

@[simp] theorem PacketType.ofByte_toByte (t : PacketType) : ofByte t.toByte = t := by
  cases t <;> rfl

/-- `Header` (`header.rs:131-143`). -/
structure Header where
  padding : Bool
  count : Byte
  packetType : PacketType
  length : BitVec 16
  deriving DecidableEq, Repr

/-- The version field of the first byte. -/
def version (raw : List Byte) : Byte := raw.getD 0 0#8 >>> 6 &&& 0x3#8

/-- `Header::unmarshal` (`header.rs:182-216`). -/
def Header.unmarshal (raw : List Byte) : Except Error Header :=
  if raw.length < 4 then .error .packetTooShort
  else if version raw ≠ 2#8 then .error .badVersion
  else
    .ok {
      padding := (raw.getD 0 0#8 >>> 5 &&& 0x1#8) ≠ 0#8
      count := raw.getD 0 0#8 &&& 0x1F#8
      packetType := PacketType.ofByte (raw.getD 1 0#8)
      length := readU16 raw 2 }

/-- `Header::marshal_to` into a buffer of `available` bytes (`header.rs:153-177`): the bytes written. -/
def Header.marshalTo (h : Header) (available : Nat) : Except Error (List Byte) :=
  if 31#8 < h.count then .error .invalidHeader
  else if available < 4 then .error .bufferTooShort
  else
    let b0 := 2#8 <<< 6 ||| (if h.padding then 1#8 else 0#8) <<< 5 ||| h.count
    .ok (b0 :: h.packetType.toByte :: toBe16 h.length)

theorem Header.unmarshal_of_marshalTo {h : Header} {available : Nat} {bytes : List Byte}
    (hm : h.marshalTo available = .ok bytes) (rest : List Byte) :
    bytes.length = 4 ∧ unmarshal (bytes ++ rest) = .ok h := by
  rw [marshalTo] at hm
  split at hm
  · cases hm
  case isFalse hcount =>
    split at hm
    · cases hm
    · cases hm
      obtain ⟨padding, count, packetType, length⟩ := h
      have hfields : ∀ count : Byte, ¬ 31#8 < count → ∀ p ∈ [0#8, 1#8],
          (2#8 <<< 6 ||| p <<< 5 ||| count) >>> 6 &&& 0x3#8 = 2#8 ∧
          (2#8 <<< 6 ||| p <<< 5 ||| count) >>> 5 &&& 0x1#8 = p ∧
          (2#8 <<< 6 ||| p <<< 5 ||| count) &&& 0x1F#8 = count := by
        decide +kernel
      obtain ⟨hversion, hpadding, hlow⟩ :=
        hfields count hcount (if padding then 1#8 else 0#8) (by cases padding <;> simp)
      refine ⟨rfl, ?_⟩
      rw [unmarshal, if_neg (by simp [toBe16])]
      simp only [List.cons_append, version, List.getD_cons_zero, List.getD_cons_succ, toBe16,
        List.nil_append, readU16, be16_toBe16, PacketType.ofByte_toByte, hversion, hpadding, hlow]
      cases padding <;> rfl

/-! ## Padding -/

/-- `get_padding_size` (`util.rs:6-12`). -/
def getPaddingSize (len : Nat) : Nat := if len % 4 = 0 then 0 else 4 - len % 4

/-- `put_padding` (`util.rs:14-23`): the bytes written. -/
def putPadding (len : Nat) : List Byte :=
  (List.range (getPaddingSize len)).map fun i =>
    if i = getPaddingSize len - 1 then BitVec.ofNat 8 (getPaddingSize len) else 0#8

end Rtc.Rtcp
