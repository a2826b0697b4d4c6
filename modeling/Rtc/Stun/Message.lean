import Rtc.Lib.Parse
import Rtc.Shared.Error

/-!
# STUN messages

`rtc-stun/src/message.rs` and `attributes.rs`. A message keeps its fields and attributes beside the bytes they were
read from or written to. Integers overflow with a panic. After an error the message is not modelled.
-/

namespace Rtc.Stun
open Bytes Shared

/-! ## Attributes -/

/-- `AttrType` (`attributes.rs:46`). -/
abbrev AttrType := BitVec 16

abbrev attrUsername : AttrType := 0x0006#16
abbrev attrMessageIntegrity : AttrType := 0x0008#16
abbrev attrXormappedAddress : AttrType := 0x0020#16
abbrev attrFingerprint : AttrType := 0x8028#16
/-- `Display for AttrType` (`attributes.rs:47-87`), which the errors of `decode` use. -/
def AttrType.display (t : AttrType) : String :=
  match t.toNat with
  | 0x0001 => "MAPPED-ADDRESS"
  | 0x0006 => "USERNAME"
  | 0x0009 => "ERROR-CODE"
  | 0x0008 => "MESSAGE-INTEGRITY"
  | 0x000A => "UNKNOWN-ATTRIBUTES"
  | 0x0014 => "REALM"
  | 0x0015 => "NONCE"
  | 0x0020 => "XOR-MAPPED-ADDRESS"
  | 0x8022 => "SOFTWARE"
  | 0x8023 => "ALTERNATE-SERVER"
  | 0x8028 => "FINGERPRINT"
  | 0x0024 => "PRIORITY"
  | 0x0025 => "USE-CANDIDATE"
  | 0x8029 => "ICE-CONTROLLED"
  | 0x802A => "ICE-CONTROLLING"
  | 0x000C => "CHANNEL-NUMBER"
  | 0x000D => "LIFETIME"
  | 0x0012 => "XOR-PEER-ADDRESS"
  | 0x0013 => "DATA"
  | 0x0016 => "XOR-RELAYED-ADDRESS"
  | 0x0018 => "EVEN-PORT"
  | 0x0019 => "REQUESTED-TRANSPORT"
  | 0x001A => "DONT-FRAGMENT"
  | 0x0022 => "RESERVATION-TOKEN"
  | 0x002a => "CONNECTION-ID"
  | 0x0017 => "REQUESTED-ADDRESS-FAMILY"
  | 0x001C => "MESSAGE-INTEGRITY-SHA256"
  | 0x001D => "PASSWORD-ALGORITHM"
  | 0x001E => "USERHASH"
  | 0x8002 => "PASSWORD-ALGORITHMS"
  | 0x8003 => "ALTERNATE-DOMAIN"
  | n => "0x" ++ String.ofList (Nat.toDigits 16 n)

/-- `RawAttribute` (`attributes.rs:218-225`). -/
structure RawAttribute where
  typ : AttrType
  length : BitVec 16
  value : List Byte
  deriving DecidableEq

/-- `PADDING` (`attributes.rs:242`). -/
abbrev padding : Nat := 4

/-- `nearest_padded_value_length` (`attributes.rs:250-256`). -/
def nearestPaddedValueLength (l : Nat) : Nat :=
  let n := padding * (l / padding)
  if n < l then n + padding else n

/-- `compat_attr_type` (`attributes.rs:261-268`): an old type is translated to the new one. -/
def compatAttrType (val : BitVec 16) : AttrType := if val = 0x8020#16 then attrXormappedAddress else val

/-! ## Message types -/

/-- `MessageClass` (`message.rs:525-535`): the field is private, and only these values are made. -/
inductive MessageClass
  | request
  | indication
  | successResponse
  | errorResponse
  deriving DecidableEq, Repr

def MessageClass.toU16 : MessageClass → BitVec 16
  | request => 0x00#16
  | indication => 0x01#16
  | successResponse => 0x02#16
  | errorResponse => 0x03#16

def MessageClass.ofU16 (v : BitVec 16) : MessageClass :=
  match v.toNat % 4 with
  | 0 => request
  | 1 => indication
  | 2 => successResponse
  | _ => errorResponse

/-- `Method` (`message.rs:554`): the field is private, and the values made have 12 bits. -/
abbrev Method := BitVec 12

abbrev methodBinding : Method := 0x001#12

/-- `MessageType` (`message.rs:605-610`). -/
structure MessageType where
  method : Method
  msgClass : MessageClass
  deriving DecidableEq

def bindingRequest : MessageType := ⟨methodBinding, .request⟩
def bindingSuccess : MessageType := ⟨methodBinding, .successResponse⟩
def bindingError : MessageType := ⟨methodBinding, .errorResponse⟩

abbrev methodABits : BitVec 16 := 0xf#16
abbrev methodBBits : BitVec 16 := 0x70#16
abbrev methodDBits : BitVec 16 := 0xf80#16
abbrev c0Bit : BitVec 16 := 0x1#16
abbrev c1Bit : BitVec 16 := 0x2#16

namespace MessageType

/-- `MessageType::value` (`message.rs:666-697`). -/
def value (t : MessageType) : BitVec 16 :=
  let method := t.method.setWidth 16
  let a := method &&& methodABits
  let b := method &&& methodBBits
  let d := method &&& methodDBits
  let method := a + (b <<< 1) + (d <<< 2)
  let c := t.msgClass.toU16
  let c0 := (c &&& c0Bit) <<< 4
  let c1 := (c &&& c1Bit) <<< 7
  method + (c0 + c1)

/-- `MessageType::read_value` (`message.rs:700-714`). -/
def readValue (value : BitVec 16) : MessageType :=
  let c0 := (value >>> 4) &&& c0Bit
  let c1 := (value >>> 7) &&& c1Bit
  let a := value &&& methodABits
  let b := (value >>> 1) &&& methodBBits
  let d := (value >>> 2) &&& methodDBits
  ⟨(a + b + d).setWidth 12, .ofU16 (c0 + c1)⟩

end MessageType

/-! ## Messages -/

/-- `MAGIC_COOKIE` (`message.rs:31`). -/
abbrev magicCookie : BitVec 32 := 0x2112A442#32

abbrev attributeHeaderSize : Nat := 4
abbrev messageHeaderSize : Nat := 20
abbrev transactionIdSize : Nat := 12

/-- `TransactionId` (`message.rs:43`). -/
abbrev TransactionId := Vector Byte transactionIdSize

/-- `Message` (`message.rs:114-125`). -/
structure Message where
  typ : MessageType
  length : Nat
  transactionId : TransactionId
  attributes : List RawAttribute
  raw : List Byte
  deriving DecidableEq

/-- `length += n` in 32 bits. -/
def addLength (length n : Nat) : Parse Error Nat :=
  if length + n < 2 ^ 32 then .ok (length + n) else .error .panicked

/-- `copy_from_slice` into a part of the buffer for which there is room. -/
def overwrite (raw : List Byte) (start : Nat) (bytes : List Byte) : List Byte :=
  raw.take start ++ bytes ++ raw.drop (start + bytes.length)

namespace Message

/-- `Message::new` (`message.rs:176-185`). -/
def new : Message := ⟨⟨0#12, .request⟩, 0, Vector.replicate 12 0#8, [], List.replicate messageHeaderSize 0#8⟩

/-- `Message::reset` (`message.rs:213-217`). -/
def reset (m : Message) : Message := { m with raw := [], length := 0, attributes := [] }

/-- `Message::grow` (`message.rs:220-228`), of the buffer. -/
def grow (raw : List Byte) (n : Nat) (resize : Bool) : List Byte :=
  if n ≤ raw.length then
    if resize then raw.take n else raw
  else raw ++ List.replicate (n - raw.length) 0#8

/-- `Message::write_length` (`message.rs:284-287`). -/
def writeLength (m : Message) : Message :=
  { m with raw := overwrite (grow m.raw 4 false) 2 (toBe16 (BitVec.ofNat 16 m.length)) }

/-- `Message::write_type` (`message.rs:316-319`). -/
def writeType (m : Message) : Message :=
  { m with raw := overwrite (grow m.raw 2 false) 0 (toBe16 m.typ.value) }

/-- `Message::set_type` (`message.rs:322-325`). -/
def setType (m : Message) (t : MessageType) : Message := writeType { m with typ := t }

/-- `Message::write_header` (`message.rs:290-298`). -/
def writeHeader (m : Message) : Message :=
  let m := writeLength (writeType { m with raw := grow m.raw messageHeaderSize false })
  { m with raw := overwrite (overwrite m.raw 4 (toBe32 magicCookie)) 8 m.transactionId.toList }

/-- `Message::write_transaction_id` (`message.rs:301-304`), which does not grow the buffer. -/
def writeTransactionId (m : Message) : Parse Error Message :=
  if messageHeaderSize ≤ m.raw.length then .ok { m with raw := overwrite m.raw 8 m.transactionId.toList }
  else .error .panicked

/-- `Message::add` (`message.rs:234-281`). -/
def add (m : Message) (t : AttrType) (v : List Byte) : Parse Error Message := do
  let allocSize := attributeHeaderSize + v.length
  let first := messageHeaderSize + m.length
  let last := first + allocSize
  let raw := grow m.raw last true
  let length ← addLength m.length (allocSize % 2 ^ 32)
  let raw := overwrite raw first (toBe16 t ++ toBe16 (BitVec.ofNat 16 v.length) ++ v)
  let attr : RawAttribute := ⟨t, BitVec.ofNat 16 v.length, v⟩
  if attr.length.toNat % padding ≠ 0 then do
    let bytesToAdd := nearestPaddedValueLength v.length - v.length
    let last := last + bytesToAdd
    let raw := overwrite (grow raw last true) (last - bytesToAdd) (List.replicate bytesToAdd 0#8)
    let length ← addLength length bytesToAdd
    .ok (writeLength { m with raw := raw, length := length, attributes := m.attributes ++ [attr] })
  else .ok (writeLength { m with raw := raw, length := length, attributes := m.attributes ++ [attr] })

/-- `add` for each attribute in a list. -/
def addAll (m : Message) : List RawAttribute → Parse Error Message
  | [] => .ok m
  | a :: attributes => do
    let m ← m.add a.typ a.value
    m.addAll attributes

/-- `Message::write_attributes` (`message.rs:307-313`). -/
def writeAttributes (m : Message) : Parse Error Message := do
  let attributes := m.attributes
  let m ← addAll { m with attributes := [] } attributes
  .ok { m with attributes := attributes }

/-- `Message::encode` (`message.rs:328-333`). -/
def encode (m : Message) : Parse Error Message :=
  writeAttributes { writeHeader { m with raw := [] } with length := 0 }

/-- The loop of `Message::decode` (`message.rs:372-406`), which adds to `attributes`. Each round takes at
    least four of the bytes `b` that are left. -/
def decodeAttributes (size : Nat) : (fuel offset : Nat) → (b : List Byte) → List RawAttribute →
    Parse Error (List RawAttribute)
  | 0, _, _, _ => .error .panicked
  | fuel + 1, offset, b, attributes =>
    if offset < size then
      if b.length < attributeHeaderSize then
        Parse.fail (.other s!"buffer length {b.length} is less than {attributeHeaderSize} (expected header size)")
      else do
        let b₀ ← Parse.index b 0
        let b₁ ← Parse.index b 1
        let b₂ ← Parse.index b 2
        let b₃ ← Parse.index b 3
        let typ := compatAttrType (be16 b₀ b₁)
        let length := be16 b₂ b₃
        let aBuffL := nearestPaddedValueLength length.toNat
        let b ← Parse.slice b attributeHeaderSize b.length
        if b.length < aBuffL then
          Parse.fail (.other s!"buffer length {b.length} is less than {aBuffL} (expected value size for {typ.display})")
        else do
          let value ← Parse.slice b 0 length.toNat
          let rest ← Parse.slice b aBuffL b.length
          decodeAttributes size fuel (offset + attributeHeaderSize + aBuffL) rest
            (attributes ++ [⟨typ, length, value⟩])
    else .ok attributes

/-- The transaction id in a buffer with a header. -/
def transactionIdAt (buf : List Byte) (h : messageHeaderSize ≤ buf.length) : TransactionId :=
  ⟨((buf.drop 8).take transactionIdSize).toArray, by
    rw [List.size_toArray, List.length_take, List.length_drop]
    simp only [messageHeaderSize, transactionIdSize] at h ⊢
    omega⟩

/-- `Message::decode` (`message.rs:336-409`). -/
def decode (m : Message) : Parse Error Message :=
  if h : messageHeaderSize ≤ m.raw.length then do
    let buf := m.raw
    let b₀ ← Parse.index buf 0
    let b₁ ← Parse.index buf 1
    let b₂ ← Parse.index buf 2
    let b₃ ← Parse.index buf 3
    let b₄ ← Parse.index buf 4
    let b₅ ← Parse.index buf 5
    let b₆ ← Parse.index buf 6
    let b₇ ← Parse.index buf 7
    let size := (be16 b₂ b₃).toNat
    let cookie := be32 b₄ b₅ b₆ b₇
    let fullSize := messageHeaderSize + size
    if cookie ≠ magicCookie then
      let found := String.ofList (Nat.toDigits 16 cookie.toNat)
      let expected := String.ofList (Nat.toDigits 16 magicCookie.toNat)
      Parse.fail (.other s!"{found} is invalid magic cookie (should be {expected})")
    else if buf.length < fullSize then
      Parse.fail (.other s!"buffer length {buf.length} is less than {fullSize} (expected message size)")
    else do
      let b ← Parse.slice buf messageHeaderSize fullSize
      let attributes ← decodeAttributes size (size + 1) 0 b []
      .ok { typ := .readValue (be16 b₀ b₁)
            length := size
            transactionId := transactionIdAt buf h
            attributes := attributes
            raw := buf }
  else Parse.fail .errUnexpectedHeaderEof

/-- `Message::unmarshal_binary` (`message.rs:195-200`). -/
def unmarshalBinary (m : Message) (data : List Byte) : Parse Error Message := decode { m with raw := data }

/-- `Message::contains` (`message.rs:449-456`). -/
def contains (m : Message) (t : AttrType) : Bool := m.attributes.any (·.typ = t)

/-- `Message::get` (`message.rs:461-468`), through `Attributes::get` (`attributes.rs:33-41`). -/
def get (m : Message) (t : AttrType) : Except Error (List Byte) :=
  match m.attributes.find? (·.typ = t) with
  | some a => .ok a.value
  | none => .error .errAttributeNotFound

end Message

/-! ## Building a message -/

/-- `Setter` (`message.rs:67-75`). -/
abbrev Setter := Message → Parse Error Message

/-- `Setter for MessageType` (`message.rs:651-657`). -/
def MessageType.addTo (t : MessageType) : Setter := fun m => .ok (m.setType t)

/-- `Setter for TransactionId` (`message.rs:57-63`). -/
def TransactionId.addTo (id : TransactionId) : Setter := fun m =>
  Message.writeTransactionId { m with transactionId := id }

/-- `Setter for RawAttribute` (`attributes.rs:233-240`). -/
def RawAttribute.addTo (a : RawAttribute) : Setter := fun m => m.add a.typ a.value

/-- The setters in order, up to the first error. -/
def applySetters (m : Message) : List Setter → Parse Error Message
  | [] => .ok m
  | s :: setters => do
    let m ← s m
    applySetters m setters

/-- `Message::build` (`message.rs:496-502`). -/
def Message.build (m : Message) (setters : List Setter) : Parse Error Message :=
  applySetters m.reset.writeHeader setters

end Rtc.Stun
