import Rtc.Stun.Proofs.MessageCodec

/-!
# Round trip of STUN messages

A message that was built holds its header and the attributes that were added. As long as their size fits the 16 bits
of the header, `decode` gives the message back, up to the type that is translated to a newer one.
-/

namespace Rtc.Stun
open Bytes Shared

/-! ## Writing into the buffer -/

theorem overwrite_grow (raw bytes : List Byte) :
    overwrite (Message.grow raw (raw.length + bytes.length) true) raw.length bytes = raw ++ bytes := by
  have hgrow : ∃ room : List Byte, Message.grow raw (raw.length + bytes.length) true = raw ++ room ∧
      room.length = bytes.length := by
    rw [Message.grow]
    split
    case isTrue h =>
      refine ⟨[], ?_, by simp only [List.length_nil]; omega⟩
      rw [if_pos rfl, List.take_of_length_le (Nat.le_add_right _ _), List.append_nil]
    case isFalse => exact ⟨_, rfl, by rw [List.length_replicate, Nat.add_sub_cancel_left]⟩
  obtain ⟨room, heq, hlen⟩ := hgrow
  rw [heq, overwrite, List.take_left, List.drop_of_length_le (by rw [List.length_append, hlen]),
    List.append_nil]

namespace Message

theorem grow_header {typ : BitVec 16} {length n : Nat} {id : TransactionId} {rest : List Byte} (hn : n ≤ 20) :
    grow (header typ length id ++ rest) n false = header typ length id ++ rest := by
  rw [grow, if_pos (by rw [List.length_append, length_header]; omega)]
  rfl

theorem overwrite_typ (typ typ' : BitVec 16) (length : Nat) (id : TransactionId) (rest : List Byte) :
    overwrite (header typ length id ++ rest) 0 (toBe16 typ') = header typ' length id ++ rest := rfl

theorem overwrite_length (typ : BitVec 16) (length length' : Nat) (id : TransactionId) (rest : List Byte) :
    overwrite (header typ length id ++ rest) 2 (toBe16 (BitVec.ofNat 16 length')) =
      header typ length' id ++ rest := rfl

theorem overwrite_id (typ : BitVec 16) (length : Nat) (id id' : TransactionId) (rest : List Byte) :
    overwrite (header typ length id ++ rest) 8 id'.toList = header typ length id' ++ rest := by
  have hdrop : (header typ length id ++ rest).drop 20 = rest := List.drop_left' (length_header typ length id)
  rw [overwrite, id'.length_toList, show 8 + transactionIdSize = 20 from rfl, hdrop]
  rfl

/-- The message holds its header and `body`, whose size is its length. -/
structure Holds (m : Message) (body : List Byte) : Prop where
  raw : m.raw = header m.typ.value m.length m.transactionId ++ body
  length : m.length = body.length

variable {m : Message} {body : List Byte} {attributes : List RawAttribute}

theorem holds_writeLength (length : Nat)
    (hraw : m.raw = header m.typ.value length m.transactionId ++ body) (hlength : m.length = body.length) :
    Holds m.writeLength body := by
  refine ⟨?_, hlength⟩
  simp only [writeLength, hraw]
  rw [grow_header (by decide), overwrite_length]

theorem holds_setType (h : Holds m body) (t : MessageType) : Holds (m.setType t) body := by
  refine ⟨?_, h.length⟩
  simp only [setType, writeType, h.raw]
  rw [grow_header (by decide), overwrite_typ]

theorem writeTransactionId_eq (h : Holds m body) (id : TransactionId) :
    ∃ m', writeTransactionId { m with transactionId := id } = .ok m' ∧ Holds m' body ∧ m'.typ = m.typ ∧
      m'.transactionId = id ∧ m'.attributes = m.attributes := by
  refine ⟨_, if_pos ?_, ⟨?_, h.length⟩, rfl, rfl, rfl⟩
  · simp only [h.raw, List.length_append, length_header, messageHeaderSize]
    omega
  · simp only [h.raw]
    exact overwrite_id _ _ _ _ _

theorem writeHeader_raw (m : Message) :
    (writeHeader { m with raw := [] }).raw = header m.typ.value m.length m.transactionId := by
  have hgrow : grow [] messageHeaderSize false = List.replicate 20 0#8 := rfl
  have hgrowTyp : grow (List.replicate 20 0#8) 2 false = List.replicate 20 0#8 := rfl
  have htyp : overwrite (List.replicate 20 0#8) 0 (toBe16 m.typ.value) =
      toBe16 m.typ.value ++ List.replicate 18 0#8 := rfl
  have hgrowLength : grow (toBe16 m.typ.value ++ List.replicate 18 0#8) 4 false =
      toBe16 m.typ.value ++ List.replicate 18 0#8 := rfl
  have hlength : overwrite (toBe16 m.typ.value ++ List.replicate 18 0#8) 2 (toBe16 (BitVec.ofNat 16 m.length)) =
      toBe16 m.typ.value ++ (toBe16 (BitVec.ofNat 16 m.length) ++ List.replicate 16 0#8) := rfl
  have hcookie : overwrite (toBe16 m.typ.value ++ (toBe16 (BitVec.ofNat 16 m.length) ++ List.replicate 16 0#8)) 4
      (toBe32 magicCookie) = header m.typ.value m.length (Vector.replicate 12 0#8) ++ [] := rfl
  simp only [writeHeader, writeLength, writeType]
  rw [hgrow, hgrowTyp, htyp, hgrowLength, hlength, hcookie, overwrite_id, List.append_nil]

theorem writeHeader_typ (m : Message) : m.writeHeader.typ = m.typ := by
  simp only [writeHeader, writeLength, writeType]

theorem writeHeader_transactionId (m : Message) : m.writeHeader.transactionId = m.transactionId := by
  simp only [writeHeader, writeLength, writeType]

theorem writeHeader_attributes (m : Message) : m.writeHeader.attributes = m.attributes := by
  simp only [writeHeader, writeLength, writeType]

/-! ## Adding attributes -/

/-- An attribute as `add` writes it. -/
def wire (t : AttrType) (v : List Byte) : List Byte :=
  toBe16 t ++ toBe16 (BitVec.ofNat 16 v.length) ++
    (v ++ List.replicate (nearestPaddedValueLength v.length - v.length) 0#8)

theorem length_wire (t : AttrType) (v : List Byte) :
    (wire t v).length = 4 + nearestPaddedValueLength v.length := by
  have := nearestPaddedValueLength_eq v.length
  simp only [wire, List.length_append, length_toBe16, List.length_replicate]
  omega

/-- `add` appends the attribute and writes the new length into the header, whatever was there. -/
theorem add_eq {old : Nat}
    (h : m.raw = header m.typ.value old m.transactionId ++ body) (hlength : m.length = body.length)
    (t : AttrType) (v : List Byte) (hroom : body.length + (wire t v).length < 2 ^ 32) :
    ∃ m', m.add t v = .ok m' ∧ Holds m' (body ++ wire t v) ∧ m'.typ = m.typ ∧
      m'.transactionId = m.transactionId ∧
      m'.attributes = m.attributes ++ [⟨t, BitVec.ofNat 16 v.length, v⟩] := by
  have hpadded := nearestPaddedValueLength_eq v.length
  have hwire := length_wire t v
  have hraw : m.raw.length = messageHeaderSize + m.length := by
    rw [h, List.length_append, length_header, hlength]
  have hbits : (BitVec.ofNat 16 v.length).toNat % padding = v.length % 4 := by
    rw [BitVec.toNat_ofNat]
    simp only [padding]
    omega
  have hadd : addLength m.length ((attributeHeaderSize + v.length) % 2 ^ 32) =
      .ok (m.length + (4 + v.length)) := by
    rw [addLength, Nat.mod_eq_of_lt (by simp only [attributeHeaderSize]; omega), if_pos]
    simp only [attributeHeaderSize]
    omega
  have htlv := overwrite_grow m.raw (toBe16 t ++ toBe16 (BitVec.ofNat 16 v.length) ++ v)
  have htlvLen : (m.raw ++ (toBe16 t ++ toBe16 (BitVec.ofNat 16 v.length) ++ v)).length =
      m.raw.length + (attributeHeaderSize + v.length) := by
    simp only [List.length_append, length_toBe16, attributeHeaderSize]
  rw [← List.length_append, htlvLen] at htlv
  simp only [add, hadd, Parse.ok_bind, ← hraw, htlv, hbits]
  split
  case isTrue hmod =>
    have hpad := overwrite_grow (m.raw ++ (toBe16 t ++ toBe16 (BitVec.ofNat 16 v.length) ++ v))
      (List.replicate (nearestPaddedValueLength v.length - v.length) 0#8)
    rw [htlvLen, List.length_replicate] at hpad
    rw [Nat.add_sub_cancel, hpad, addLength, if_pos (by omega), Parse.ok_bind]
    refine ⟨_, rfl, holds_writeLength old ?_ ?_, rfl, rfl, rfl⟩
    · simp only [h, wire, List.append_assoc]
    · rw [List.length_append, hwire]
      dsimp only
      omega
  case isFalse hmod =>
    have hpad : nearestPaddedValueLength v.length - v.length = 0 := by omega
    refine ⟨_, rfl, holds_writeLength old ?_ ?_, rfl, rfl, rfl⟩
    · simp only [h, wire, hpad, List.replicate_zero, List.append_nil, List.append_assoc]
    · rw [List.length_append, hwire]
      dsimp only
      omega

/-- The bytes of attributes that are added one after another. -/
def wireAll (attributes : List RawAttribute) : List Byte := attributes.flatMap fun a => wire a.typ a.value

/-- The size of attributes with their headers and padding. -/
def wireSize (attributes : List RawAttribute) : Nat :=
  (attributes.map fun a => attributeHeaderSize + nearestPaddedValueLength a.value.length).sum

theorem length_wireAll (attributes : List RawAttribute) : (wireAll attributes).length = wireSize attributes := by
  rw [wireAll, List.length_flatMap, wireSize]
  exact congrArg List.sum (List.map_congr_left fun a _ => length_wire a.typ a.value)

/-- An attribute with the length of its value, as `add` records it. -/
def sized (a : RawAttribute) : RawAttribute := ⟨a.typ, BitVec.ofNat 16 a.value.length, a.value⟩

theorem addAll_eq {old : Nat}
    (h : m.raw = header m.typ.value old m.transactionId ++ body) (hlength : m.length = body.length)
    (attributes : List RawAttribute) (hempty : attributes = [] → BitVec.ofNat 16 old = BitVec.ofNat 16 m.length)
    (hroom : body.length + wireSize attributes < 2 ^ 32) :
    ∃ m', m.addAll attributes = .ok m' ∧ Holds m' (body ++ wireAll attributes) ∧ m'.typ = m.typ ∧
      m'.transactionId = m.transactionId ∧ m'.attributes = m.attributes ++ attributes.map sized := by
  induction attributes generalizing m old body with
  | nil =>
    refine ⟨m, rfl, ?_, rfl, rfl, (List.append_nil _).symm⟩
    rw [wireAll, List.flatMap_nil, List.append_nil]
    rw [header, hempty rfl] at h
    exact ⟨h, hlength⟩
  | cons a attributes ih =>
    have hwire := length_wire a.typ a.value
    have hsize : wireSize (a :: attributes) = (wire a.typ a.value).length + wireSize attributes := by
      rw [hwire]
      rfl
    obtain ⟨m₁, hadd, hholds, htyp, hid, hattributes⟩ := add_eq h hlength a.typ a.value (by omega)
    obtain ⟨m', haddAll, hholds', htyp', hid', hattributes'⟩ :=
      ih hholds.raw hholds.length (fun _ => rfl) (by rw [List.length_append]; omega)
    refine ⟨m', ?_, ?_, htyp'.trans htyp, hid'.trans hid, ?_⟩
    · rw [addAll, hadd]
      exact haddAll
    · rwa [wireAll, List.flatMap_cons, ← List.append_assoc]
    · rw [hattributes', hattributes, List.append_assoc]
      rfl

/-- The wire form of an attribute whose value is not too long. -/
def tlv (t : AttrType) (v : List Byte) (h : v.length < 2 ^ 16) : Tlv where
  typ := t
  value := v
  pad := List.replicate (nearestPaddedValueLength v.length - v.length) 0#8
  value_lt := h
  pad_length := by
    have := nearestPaddedValueLength_eq v.length
    rw [List.length_replicate]
    omega

/-- An attribute as `decode` returns it when it was added. -/
def asDecoded (a : RawAttribute) : RawAttribute := { sized a with typ := compatAttrType a.typ }

theorem wireSize_cons (a : RawAttribute) (attributes : List RawAttribute) : wireSize (a :: attributes) =
    attributeHeaderSize + nearestPaddedValueLength a.value.length + wireSize attributes := rfl

theorem length_value_lt (hsize : wireSize attributes < 2 ^ 16) : ∀ a ∈ attributes, a.value.length < 2 ^ 16 := by
  induction attributes with
  | nil => nofun
  | cons a attributes ih =>
    rw [wireSize_cons] at hsize
    intro b hb
    rcases List.mem_cons.mp hb with rfl | hb
    · have := nearestPaddedValueLength_eq b.value.length
      omega
    · exact ih (by omega) b hb

theorem exists_tlvs (attributes : List RawAttribute) (hvalue : ∀ a ∈ attributes, a.value.length < 2 ^ 16) :
    ∃ xs : List Tlv, xs.flatMap Tlv.encode = wireAll attributes ∧
      xs.map Tlv.rawAttribute = attributes.map asDecoded := by
  induction attributes with
  | nil => exact ⟨[], rfl, rfl⟩
  | cons a attributes ih =>
    obtain ⟨xs, hencode, hmap⟩ := ih fun b hb => hvalue b (List.mem_cons_of_mem a hb)
    refine ⟨tlv a.typ a.value (hvalue a List.mem_cons_self) :: xs, ?_, ?_⟩
    · rw [List.flatMap_cons, hencode]
      rfl
    · rw [List.map_cons, hmap]
      rfl

/-- A message that holds attributes whose size fits the header is decoded again, up to the type that is
    translated. -/
theorem unmarshalBinary_of_holds
    (h : Holds m (wireAll attributes)) (hsize : wireSize attributes ≤ 65535) (m₁ : Message) :
    m₁.unmarshalBinary m.raw = .ok { m with attributes := attributes.map asDecoded } := by
  obtain ⟨xs, hencode, hmap⟩ := exists_tlvs attributes (length_value_lt (by omega))
  have hlength : m.length = (xs.flatMap Tlv.encode).length := by rw [h.length, hencode]
  have hraw : m.raw = header m.typ.value (xs.flatMap Tlv.encode).length m.transactionId ++
      (xs.flatMap Tlv.encode ++ []) := by
    rw [← hlength, List.append_nil, hencode]
    exact h.raw
  have hlt : (xs.flatMap Tlv.encode).length < 2 ^ 16 := by
    rw [hencode, length_wireAll]
    omega
  rw [unmarshalBinary, decode_header { m₁ with raw := m.raw } hlt hraw, MessageType.readValue_value, hmap, ← hlength]

theorem map_compat_eq (h : ∀ a ∈ attributes, a.typ ≠ 0x8020#16) :
    attributes.map asDecoded = attributes.map sized :=
  List.map_congr_left fun a ha => by rw [asDecoded, compatAttrType, if_neg (h a ha)]; rfl

/-! ## The codec -/

theorem holds_writeHeader (m : Message) : Holds m.reset.writeHeader [] := by
  refine ⟨?_, rfl⟩
  rw [List.append_nil]
  exact writeHeader_raw { m with length := 0, attributes := [] }

theorem applySetters_map_addTo (m : Message) (attributes : List RawAttribute) :
    applySetters m (attributes.map RawAttribute.addTo) = m.addAll attributes := by
  induction attributes generalizing m with
  | nil => rfl
  | cons a attributes ih =>
    rw [List.map_cons, applySetters, addAll]
    exact bind_congr fun m => ih m

theorem build_eq (m : Message) (typ : MessageType) (id : TransactionId) (attributes : List RawAttribute)
    (hsize : wireSize attributes < 2 ^ 32) :
    ∃ m', m.build (typ.addTo :: id.addTo :: attributes.map RawAttribute.addTo) = .ok m' ∧
      Holds m' (wireAll attributes) ∧ m'.typ = typ ∧ m'.transactionId = id ∧
      m'.attributes = attributes.map sized := by
  have htyp := holds_setType m.holds_writeHeader typ
  obtain ⟨m₁, hid, hholds, htyp₁, hid₁, hattributes₁⟩ := writeTransactionId_eq htyp id
  obtain ⟨m', hadd, hholds', htyp', hid', hattributes'⟩ :=
    addAll_eq hholds.raw hholds.length attributes (fun _ => rfl) (by simpa using hsize)
  refine ⟨m', ?_, hholds', htyp'.trans htyp₁, hid'.trans hid₁, hattributes'.trans ?_⟩
  · rw [build, applySetters, MessageType.addTo, Parse.ok_bind, applySetters, TransactionId.addTo, hid,
      Parse.ok_bind, applySetters_map_addTo, hadd]
  · rw [hattributes₁]
    rfl

/-- A message that is encoded again. The header is written with the old length, and with the new one at
    each attribute. -/
theorem encode_eq (m : Message) (hsize : wireSize m.attributes < 2 ^ 32)
    (hempty : m.attributes = [] → m.length % 2 ^ 16 = 0) :
    ∃ m', m.encode = .ok m' ∧ Holds m' (wireAll m.attributes) ∧ m'.typ = m.typ ∧
      m'.transactionId = m.transactionId ∧ m'.attributes = m.attributes := by
  have hraw := (writeHeader_raw m).trans (List.append_nil _).symm
  simp only [encode, writeAttributes, writeHeader_typ, writeHeader_transactionId, writeHeader_attributes]
  generalize (writeHeader { m with raw := [] }).raw = raw at hraw
  obtain ⟨m', hadd, hholds, htyp, hid, -⟩ := addAll_eq (m := ⟨m.typ, 0, m.transactionId, [], raw⟩) hraw rfl
    m.attributes (fun h => BitVec.eq_of_toNat_eq (by rw [BitVec.toNat_ofNat, hempty h]; rfl)) (by simpa using hsize)
  refine ⟨{ m' with attributes := m.attributes }, ?_, ⟨hholds.raw, hholds.length⟩, htyp, hid, rfl⟩
  rw [hadd]
  rfl

/-- The place of an attribute, after those before it with their padding. -/
def attributeStart (attributes : List RawAttribute) (i : Nat) : Nat :=
  messageHeaderSize +
    ((attributes.take i).map fun a => attributeHeaderSize + nearestPaddedValueLength a.length.toNat).sum

theorem attributeStart_eq (xs : List Tlv) (i : Nat) :
    attributeStart (xs.map Tlv.rawAttribute) i = 20 + ((xs.take i).flatMap Tlv.encode).length := by
  rw [attributeStart, List.length_flatMap, ← List.map_take, List.map_map]
  refine congrArg (20 + List.sum ·) (List.map_congr_left fun x _ => ?_)
  rw [x.length_encode, ← x.toNat_length]
  rfl

theorem attribute_slice {m' : Message} (h : decode m = .ok m') {i : Nat} {a : RawAttribute}
    (ha : m'.attributes[i]? = some a) :
    (∃ typ, (m.raw.drop (attributeStart m'.attributes i)).take attributeHeaderSize = toBe16 typ ++ toBe16 a.length ∧
      a.typ = compatAttrType typ) ∧
    a.value = (m.raw.drop (attributeStart m'.attributes i + attributeHeaderSize)).take a.length.toNat ∧
    a.value.length = a.length.toNat ∧
    attributeStart m'.attributes (i + 1) ≤ messageHeaderSize + m'.length ∧
    messageHeaderSize + m'.length ≤ m.raw.length := by
  obtain ⟨typ, id, xs, trailing, hlen, hraw, rfl⟩ := exists_of_decode h
  rw [List.getElem?_map, Option.map_eq_some_iff] at ha
  obtain ⟨x, hx, rfl⟩ := ha
  have hlt : i < xs.length := (List.getElem?_eq_some_iff.mp hx).1
  have hsplit : xs = xs.take i ++ x :: xs.drop (i + 1) := by
    rw [← (List.getElem?_eq_some_iff.mp hx).2, List.getElem_cons_drop, List.take_append_drop]
  have hbody : xs.flatMap Tlv.encode =
      (xs.take i).flatMap Tlv.encode ++ (x.encode ++ (xs.drop (i + 1)).flatMap Tlv.encode) := by
    conv_lhs => rw [hsplit, List.flatMap_append, List.flatMap_cons]
  have hheader := length_header typ (xs.flatMap Tlv.encode).length id
  have htotal : m.raw.length = 20 + ((xs.flatMap Tlv.encode).length + trailing.length) := by
    rw [hraw, List.length_append, List.length_append, hheader]
  have hstart := attributeStart_eq xs i
  have hdrop : m.raw.drop (attributeStart (xs.map Tlv.rawAttribute) i) =
      toBe16 x.typ ++ toBe16 (BitVec.ofNat 16 x.value.length) ++
        (x.value ++ (x.pad ++ ((xs.drop (i + 1)).flatMap Tlv.encode ++ trailing))) := by
    generalize header typ (xs.flatMap Tlv.encode).length id = front at hraw hheader
    rw [hraw, hbody, hstart, ← hheader, ← List.length_append, List.append_assoc, ← List.append_assoc front,
      List.drop_left, Tlv.encode]
    simp only [List.append_assoc]
  refine ⟨⟨x.typ, ?_, rfl⟩, ?_, x.toNat_length.symm, ?_, ?_⟩
  · rw [hdrop]
    rfl
  · rw [← List.drop_drop, hdrop]
    change x.value = (x.value ++ _).take (BitVec.ofNat 16 x.value.length).toNat
    rw [x.toNat_length, List.take_left]
  · have hlen' := congrArg List.length (congrArg (List.flatMap Tlv.encode) (List.take_append_drop (i + 1) xs))
    rw [List.flatMap_append, List.length_append] at hlen'
    rw [attributeStart_eq]
    simp only [messageHeaderSize]
    omega
  · simp only [messageHeaderSize]
    omega

/-- Messages round-trip. What is built from attributes whose size fits the header is decoded again; so is a
    message that is encoded again, if its attributes say their lengths and an empty list meets a length of
    zero; and a message that is decoded has its attributes where the lengths before them say. -/
theorem message_roundTrip :
    (∀ (m m₁ : Message) (typ : MessageType) (id : TransactionId) (attributes : List RawAttribute),
      wireSize attributes ≤ 65535 → (∀ a ∈ attributes, a.typ ≠ 0x8020#16) →
      ∃ m', m.build (typ.addTo :: id.addTo :: attributes.map RawAttribute.addTo) = .ok m' ∧
        m₁.unmarshalBinary m'.raw = .ok m' ∧ m'.typ = typ ∧ m'.transactionId = id ∧
        m'.attributes = attributes.map sized ∧ m'.raw.length = messageHeaderSize + m'.length) ∧
    (∀ m m₁ : Message, wireSize m.attributes ≤ 65535 →
      (∀ a ∈ m.attributes, a.typ ≠ 0x8020#16 ∧ a.length = BitVec.ofNat 16 a.value.length) →
      (m.attributes = [] → m.length % 2 ^ 16 = 0) →
      ∃ m', m.encode = .ok m' ∧ m₁.unmarshalBinary m'.raw = .ok m' ∧ m'.typ = m.typ ∧
        m'.transactionId = m.transactionId ∧ m'.attributes = m.attributes) ∧
    ∀ m : Message, Parse.Safe m.decode ∧
      ∀ m', m.decode = .ok m' → ∀ i a, m'.attributes[i]? = some a →
        (∃ typ, (m.raw.drop (attributeStart m'.attributes i)).take attributeHeaderSize =
            toBe16 typ ++ toBe16 a.length ∧ a.typ = compatAttrType typ) ∧
          a.value = (m.raw.drop (attributeStart m'.attributes i + attributeHeaderSize)).take a.length.toNat ∧
          a.value.length = a.length.toNat ∧
          attributeStart m'.attributes (i + 1) ≤ messageHeaderSize + m'.length ∧
          messageHeaderSize + m'.length ≤ m.raw.length := by
  refine ⟨fun m m₁ typ id attributes hsize htyp => ?_, fun m m₁ hsize hattributes hempty => ?_,
    fun m => ⟨safe_decode m, fun m' h i a ha => attribute_slice h ha⟩⟩
  · obtain ⟨m', hbuild, hholds, rfl, rfl, hattributes⟩ := build_eq m typ id attributes (by omega)
    have hdecode := unmarshalBinary_of_holds hholds hsize m₁
    rw [map_compat_eq htyp, ← hattributes] at hdecode
    refine ⟨m', hbuild, hdecode, rfl, rfl, hattributes, ?_⟩
    rw [hholds.raw, List.length_append, length_header, ← hholds.length]
  · obtain ⟨m', hencode, hholds, htyp, hid, heq⟩ := encode_eq m (by omega) hempty
    have hdecode := unmarshalBinary_of_holds hholds hsize m₁
    have hsized : m.attributes.map sized = m.attributes :=
      (List.map_congr_left fun a ha => by rw [sized, ← (hattributes a ha).2]; rfl).trans (List.map_id _)
    rw [map_compat_eq fun a ha => (hattributes a ha).1, hsized, ← heq] at hdecode
    exact ⟨m', hencode, hdecode, htyp, hid, heq⟩

def withAttribute (a : RawAttribute) : Message := ⟨bindingRequest, 8, Vector.replicate 12 0#8, [a], []⟩

/-- Three messages that are not read back. The old type of XOR-MAPPED-ADDRESS is translated; a length that
    is not that of the value is kept beside the one that is written; and a message whose attributes were
    taken away keeps the old length in its header. -/
theorem message_not_read_back :
    (∃ m', (withAttribute ⟨0x8020#16, 0#16, []⟩).encode = .ok m' ∧
      ∃ m, new.unmarshalBinary m'.raw = .ok m ∧ m.attributes ≠ m'.attributes) ∧
    (∃ m', (withAttribute ⟨attrUsername, 1#16, []⟩).encode = .ok m' ∧
      ∃ m, new.unmarshalBinary m'.raw = .ok m ∧ m.attributes ≠ m'.attributes) ∧
    ∃ m', { withAttribute ⟨attrUsername, 0#16, []⟩ with attributes := [] }.encode = .ok m' ∧
      ∀ m, new.unmarshalBinary m'.raw ≠ .ok m := by
  refine ⟨⟨_, rfl, _, rfl, by decide⟩, ⟨_, rfl, _, rfl, by decide⟩, ⟨_, rfl, nofun⟩⟩

end Message
end Rtc.Stun
