import Rtc.Stun.Proofs.Integrity

/-!
# Messages that are built with integrity and fingerprint

A message that is built from attributes, MESSAGE-INTEGRITY and FINGERPRINT passes both checks after it was decoded, as
long as it fits the length of the header and the attributes hold no other MESSAGE-INTEGRITY.
-/

namespace Rtc.Stun
open Bytes Shared Message

/-! ## What the setters leave -/

theorem eq_ok_of_addLength {length n sum : Nat} (h : addLength length n = .ok sum) :
    length + n < 2 ^ 32 ∧ sum = length + n := by
  rw [addLength] at h
  split at h
  case isTrue hlt =>
    cases h
    exact ⟨hlt, rfl⟩
  case isFalse => cases h

variable {m : Message} {body key : List Byte} {attributes : List RawAttribute} {crypto : Crypto}
  {crc : List Byte → BitVec 32} {typ : MessageType} {id : TransactionId} {a : RawAttribute} {tag : Vector Byte 20}

theorem room_of_add {m' : Message} {t : AttrType} {v : List Byte} (hv : v.length < 2 ^ 16)
    (h : m.add t v = .ok m') : m.length + (wire t v).length < 2 ^ 32 := by
  have hpadded := nearestPaddedValueLength_eq v.length
  obtain ⟨sum, hsum, hrest⟩ := Parse.exists_of_bind_eq_ok h
  obtain ⟨hlt, rfl⟩ := eq_ok_of_addLength hsum
  have halloc : (attributeHeaderSize + v.length) % 2 ^ 32 = 4 + v.length :=
    Nat.mod_eq_of_lt (by simp only [attributeHeaderSize]; omega)
  rw [halloc] at hlt hrest
  have hbits : (BitVec.ofNat 16 v.length).toNat % padding = v.length % 4 := by
    rw [BitVec.toNat_ofNat, Nat.mod_eq_of_lt hv]
  rw [length_wire]
  simp only [hbits] at hrest
  split at hrest
  case isTrue =>
    obtain ⟨_, hsum', -⟩ := Parse.exists_of_bind_eq_ok hrest
    obtain ⟨hlt', -⟩ := eq_ok_of_addLength hsum'
    omega
  case isFalse => omega

theorem room_of_addAll {m' : Message} (h : Holds m body)
    (hvalue : ∀ a ∈ attributes, a.value.length < 2 ^ 16) (hlt : body.length < 2 ^ 32)
    (hadd : m.addAll attributes = .ok m') : body.length + wireSize attributes < 2 ^ 32 := by
  induction attributes generalizing m body with
  | nil => exact hlt
  | cons a attributes ih =>
    obtain ⟨m₁, hfirst, hrest⟩ := Parse.exists_of_bind_eq_ok hadd
    have hroom := room_of_add (hvalue a List.mem_cons_self) hfirst
    rw [h.length] at hroom
    obtain ⟨m₁', hfirst', hholds, -, -, -⟩ := add_eq h.raw h.length a.typ a.value hroom
    obtain rfl : m₁ = m₁' := Except.ok.inj (hfirst.symm.trans hfirst')
    have hsum := ih hholds (fun b hb => hvalue b (List.mem_cons_of_mem a hb))
      (by rw [List.length_append]; exact hroom) hrest
    rw [List.length_append, length_wire] at hsum
    rw [wireSize_cons]
    simp only [attributeHeaderSize]
    omega

theorem integrity_addTo {m' : Message} (h : Holds m body) (hadd : MessageIntegrity.addTo crypto key m = .ok m') :
    (∀ a ∈ m.attributes, a.typ ≠ attrFingerprint) ∧
    ∃ mac tag, crypto.newHmac key = .ok mac ∧
      mac.sign (header m.typ.value (body.length + 24) m.transactionId ++ body) = .ok tag ∧
      Holds m' (body ++ wire attrMessageIntegrity tag.toList) ∧ m'.typ = m.typ ∧
      m'.transactionId = m.transactionId := by
  rw [MessageIntegrity.addTo] at hadd
  split at hadd
  case isTrue => cases hadd
  case isFalse hnone =>
    obtain ⟨longer, hlonger, hrest⟩ := Parse.exists_of_bind_eq_ok hadd
    obtain ⟨hlt, rfl⟩ := eq_ok_of_addLength hlonger
    refine ⟨fun a ha htyp => hnone (List.any_eq_true.mpr ⟨a, ha, by simpa using htyp⟩), ?_⟩
    obtain ⟨hlong, hback⟩ :=
      writeLength_and_back h.raw (m.length + (messageIntegritySize + attributeHeaderSize))
    simp only [hlong, hback] at hrest
    have hlength : m.length + (messageIntegritySize + attributeHeaderSize) = body.length + 24 := by
      rw [h.length]
      rfl
    rw [hlength] at hrest hlt
    cases hmac : crypto.newHmac key with
    | error message =>
      rw [hmac] at hrest
      cases hrest
    | ok mac =>
      cases hsign : mac.sign (header m.typ.value (body.length + 24) m.transactionId ++ body) with
      | error message =>
        simp only [hmac, hsign, bind, Except.bind] at hrest
        cases hrest
      | ok tag =>
        simp only [hmac, hsign, bind, Except.bind] at hrest
        have hwire : (wire attrMessageIntegrity tag.toList).length = 24 := by
          rw [length_wire, tag.length_toList]
          rfl
        obtain ⟨m₁, hadd₁, hholds, htyp, hid, -⟩ := add_eq h.raw h.length attrMessageIntegrity tag.toList
          (by rw [hwire]; exact hlt)
        obtain rfl : m' = m₁ := Except.ok.inj (hrest.symm.trans hadd₁)
        exact ⟨mac, tag, rfl, hsign, hholds, htyp, hid⟩

theorem fingerprint_addTo {m' : Message} (h : Holds m body) (hadd : FingerprintAttr.addTo crc m = .ok m') :
    Holds m' (body ++ wire attrFingerprint (toBe32 (FingerprintAttr.fingerprintValue crc
      (header m.typ.value (body.length + 8) m.transactionId ++ body)))) ∧
      m'.typ = m.typ ∧ m'.transactionId = m.transactionId := by
  obtain ⟨longer, hlonger, hrest⟩ := Parse.exists_of_bind_eq_ok hadd
  obtain ⟨hlt, rfl⟩ := eq_ok_of_addLength hlonger
  have hlength : m.length + (fingerprintSize + attributeHeaderSize) = body.length + 8 := by
    rw [h.length]
    rfl
  rw [hlength] at hrest hlt
  obtain ⟨hlong, -⟩ := writeLength_and_back h.raw (body.length + 8)
  simp only [hlong] at hrest
  obtain ⟨m₁, hadd₁, hholds, htyp, hid, -⟩ := add_eq
    (m := { m with raw := header m.typ.value (body.length + 8) m.transactionId ++ body }) rfl h.length attrFingerprint
    (toBe32 (FingerprintAttr.fingerprintValue crc (header m.typ.value (body.length + 8) m.transactionId ++ body)))
    (by rw [length_wire, length_toBe32]; exact hlt)
  obtain rfl : m' = m₁ := Except.ok.inj (hrest.symm.trans hadd₁)
  exact ⟨hholds, htyp, hid⟩

/-! ## Building -/

theorem applySetters_append (m : Message) (setters later : List Setter) :
    applySetters m (setters ++ later) = applySetters m setters >>= fun m => applySetters m later := by
  induction setters generalizing m with
  | nil => rfl
  | cons s setters ih =>
    rw [List.cons_append, applySetters, applySetters, bind_assoc]
    exact bind_congr fun m => ih m

/-- The fingerprint of a message with attributes and a tag. -/
def fingerprintOf (crc : List Byte → BitVec 32) (typ : MessageType) (id : TransactionId)
    (attributes : List RawAttribute) (tag : List Byte) : List Byte :=
  toBe32 (FingerprintAttr.fingerprintValue crc (header typ.value (wireSize attributes + 32) id ++
    (wireAll attributes ++ wire attrMessageIntegrity tag)))

/-- The attributes of a message with integrity and fingerprint, as they are written. -/
def protectedAttributes (crc : List Byte → BitVec 32) (typ : MessageType) (id : TransactionId)
    (attributes : List RawAttribute) (tag : List Byte) : List RawAttribute :=
  attributes ++ [⟨attrMessageIntegrity, 20#16, tag⟩,
    ⟨attrFingerprint, 4#16, fingerprintOf crc typ id attributes tag⟩]

theorem wireAll_protectedAttributes (crc : List Byte → BitVec 32) (typ : MessageType) (id : TransactionId)
    (attributes : List RawAttribute) (tag : List Byte) :
    wireAll (protectedAttributes crc typ id attributes tag) = wireAll attributes ++
      wire attrMessageIntegrity tag ++ wire attrFingerprint (fingerprintOf crc typ id attributes tag) := by
  rw [protectedAttributes, wireAll, List.flatMap_append, List.flatMap_cons, List.flatMap_singleton,
    ← List.append_assoc]
  rfl

theorem exists_of_build {m' : Message} (hvalue : ∀ a ∈ attributes, a.value.length < 2 ^ 16)
    (h : m.build (typ.addTo :: id.addTo :: (attributes.map RawAttribute.addTo ++
    [MessageIntegrity.addTo crypto key, FingerprintAttr.addTo crc])) = .ok m') :
    (∀ a ∈ attributes, a.typ ≠ attrFingerprint) ∧
    ∃ mac tag, crypto.newHmac key = .ok mac ∧
      mac.sign (header typ.value (wireSize attributes + 24) id ++ wireAll attributes) = .ok tag ∧
      Holds m' (wireAll (protectedAttributes crc typ id attributes tag.toList)) ∧ m'.typ = typ ∧
      m'.transactionId = id := by
  obtain ⟨m₁, ⟨⟩, h⟩ := Parse.exists_of_bind_eq_ok h
  obtain ⟨m₂, hid, h⟩ := Parse.exists_of_bind_eq_ok h
  rw [applySetters_append, applySetters_map_addTo] at h
  obtain ⟨m₃, hadd, h⟩ := Parse.exists_of_bind_eq_ok h
  obtain ⟨m₄, hintegrity, h⟩ := Parse.exists_of_bind_eq_ok h
  obtain ⟨m₅, hfingerprint, ⟨⟩⟩ := Parse.exists_of_bind_eq_ok h
  obtain ⟨m₂', hid', hholds₂, htyp₂, hid₂, hattributes₂⟩ := writeTransactionId_eq
    (holds_setType m.holds_writeHeader typ) id
  obtain rfl : m₂ = m₂' := Except.ok.inj (hid.symm.trans hid')
  have hroom := room_of_addAll hholds₂ hvalue (by decide) hadd
  obtain ⟨m₃', hadd', hholds₃, htyp₃, hid₃, hattributes₃⟩ :=
    addAll_eq hholds₂.raw hholds₂.length attributes (fun _ => rfl) hroom
  obtain rfl : m₃ = m₃' := Except.ok.inj (hadd.symm.trans hadd')
  rw [List.nil_append] at hholds₃
  obtain ⟨hnone, mac, tag, hmac, hsign, hholds₄, htyp₄, hid₄⟩ := integrity_addTo hholds₃ hintegrity
  obtain ⟨hholds₅, htyp₅, hid₅⟩ := fingerprint_addTo hholds₄ hfingerprint
  have htyp₃ : m₃.typ = typ := htyp₃.trans htyp₂
  have hid₃ : m₃.transactionId = id := hid₃.trans hid₂
  rw [htyp₃, hid₃, length_wireAll] at hsign
  rw [htyp₄, hid₄, htyp₃, hid₃, List.length_append, length_wireAll, length_wire, tag.length_toList] at hholds₅
  refine ⟨fun a ha htyp => ?_, mac, tag, hmac, hsign, ?_, htyp₅.trans (htyp₄.trans htyp₃),
    hid₅.trans (hid₄.trans hid₃)⟩
  · refine hnone (sized a) ?_ htyp
    rw [hattributes₃]
    exact List.mem_append_right _ (List.mem_map_of_mem ha)
  · rw [wireAll_protectedAttributes]
    exact hholds₅

/-! ## After decoding -/

theorem compatAttrType_eq_iff {t u : AttrType} (hold : u ≠ 0x8020#16) (hnew : u ≠ attrXormappedAddress) :
    compatAttrType t = u ↔ t = u := by
  rw [compatAttrType]
  split
  case isTrue h => exact iff_of_false (fun heq => hnew heq.symm) (fun heq => hold (heq.symm.trans h))
  case isFalse => exact Iff.rfl

theorem typ_asDecoded {u : AttrType} (hold : u ≠ 0x8020#16) (hnew : u ≠ attrXormappedAddress) :
    (asDecoded a).typ = u ↔ a.typ = u := compatAttrType_eq_iff hold hnew

theorem wireSize_append (attributes later : List RawAttribute) :
    wireSize (attributes ++ later) = wireSize attributes + wireSize later := by
  rw [wireSize, List.map_append, List.sum_append]
  rfl

theorem wireAll_append (attributes later : List RawAttribute) :
    wireAll (attributes ++ later) = wireAll attributes ++ wireAll later := List.flatMap_append

/-- The check of a message that was built and decoded verifies the first MESSAGE-INTEGRITY over the
    attributes that were added before it. -/
theorem check_of_holds {pre post : List RawAttribute}
    (h : Holds m (wireAll (pre ++ a :: post))) (hsize : wireSize (pre ++ a :: post) ≤ 65535)
    (hpre : ∀ b ∈ pre, b.typ ≠ attrMessageIntegrity) (ha : a.typ = attrMessageIntegrity)
    (crypto : Crypto) (key : List Byte) :
    (MessageIntegrity.check crypto { m with attributes := (pre ++ a :: post).map asDecoded } key).1 =
      MessageIntegrity.verdict crypto key
        (header m.typ.value (wireSize pre + 24) m.transactionId ++ wireAll pre) a.value := by
  have hvalue := length_value_lt (Nat.lt_succ_of_le hsize)
  obtain ⟨xs, hxs, hxsMap⟩ := exists_tlvs pre fun b hb => hvalue b (List.mem_append_left _ hb)
  obtain ⟨ys, hys, hysMap⟩ := exists_tlvs post fun b hb =>
    hvalue b (List.mem_append_right _ (List.mem_cons_of_mem a hb))
  let x := tlv a.typ a.value (hvalue a (List.mem_append_right _ List.mem_cons_self))
  have hbytes : (xs ++ x :: ys).flatMap Tlv.encode = wireAll (pre ++ a :: post) := by
    rw [List.flatMap_append, List.flatMap_cons, hxs, hys, wireAll_append]
    rfl
  have hdecodes : Decodes { m with attributes := (pre ++ a :: post).map asDecoded } m.typ.value (xs ++ x :: ys) [] := by
    refine ⟨?_, ?_, ?_, ?_⟩
    · rw [hbytes, length_wireAll]
      omega
    · rw [hbytes, ← h.length, List.append_nil]
      exact h.raw
    · rw [hbytes]
      exact h.length
    · rw [List.map_append, List.map_cons, List.map_append, List.map_cons, hxsMap, hysMap]
      rfl
  have hnot : ∀ y ∈ xs, ¬ y.IsIntegrity := by
    intro y hy hint
    have hmem := List.mem_map_of_mem (f := Tlv.rawAttribute) hy
    rw [hxsMap] at hmem
    obtain ⟨b, hb, heq⟩ := List.mem_map.mp hmem
    refine hpre b hb ((typ_asDecoded (by decide) (by decide)).mp ?_)
    rw [heq]
    exact hint
  have hx : x.IsIntegrity := (compatAttrType_eq_iff (by decide) (by decide)).mpr ha
  rw [MessageIntegrity.check_eq hdecodes hnot hx, MessageIntegrity.covered, hxs, length_wireAll]
  rfl

theorem get_of_append (pre post : List RawAttribute) (a : RawAttribute) {t : AttrType}
    (h : m.attributes = pre ++ a :: post) (hpre : ∀ b ∈ pre, b.typ ≠ t) (ha : a.typ = t) :
    m.get t = .ok a.value := by
  have hnone : pre.find? (·.typ = t) = none := by
    rw [List.find?_eq_none]
    exact fun b hb => by simpa using hpre b hb
  rw [Message.get, h, List.find?_append, hnone, List.find?_cons_of_pos (by simpa using ha)]
  rfl

theorem fingerprint_check_of_get {val : BitVec 32} {b : List Byte}
    (hget : m.get attrFingerprint = .ok (toBe32 val))
    (hroom : ¬ m.raw.length < fingerprintSize + attributeHeaderSize)
    (hcovered : Parse.slice m.raw 0 (m.raw.length - (fingerprintSize + attributeHeaderSize)) =
    (.ok b : Parse Error _)) :
    FingerprintAttr.check crc m =
      if val = FingerprintAttr.fingerprintValue crc b then .ok () else Parse.fail .errFingerprintMismatch := by
  rw [FingerprintAttr.check, hget]
  change (if m.raw.length < _ then _ else Parse.slice m.raw 0 _ >>= fun covered =>
    if be32 _ _ _ _ = FingerprintAttr.fingerprintValue crc covered then _ else _) = _
  rw [if_neg hroom, hcovered, Parse.ok_bind, Parse.be32_toBe32]

/-- The attributes before the fingerprint. -/
def beforeFingerprint (attributes : List RawAttribute) (tag : List Byte) : List RawAttribute :=
  attributes ++ [⟨attrMessageIntegrity, 20#16, tag⟩]

theorem protectedAttributes_eq (crc : List Byte → BitVec 32) (typ : MessageType) (id : TransactionId)
    (attributes : List RawAttribute) (tag : List Byte) :
    protectedAttributes crc typ id attributes tag = beforeFingerprint attributes tag ++
      [⟨attrFingerprint, 4#16, fingerprintOf crc typ id attributes tag⟩] := by
  rw [protectedAttributes, beforeFingerprint, List.append_assoc]
  rfl

theorem typ_beforeFingerprint {tag : List Byte} (hnone : ∀ a ∈ attributes, a.typ ≠ attrFingerprint) :
    ∀ a ∈ (beforeFingerprint attributes tag).map asDecoded, a.typ ≠ attrFingerprint := by
  intro b hb htyp
  obtain ⟨a, ha, rfl⟩ := List.mem_map.mp hb
  have htyp := (typ_asDecoded (by decide) (by decide)).mp htyp
  rcases List.mem_append.mp ha with ha | ha
  · exact hnone a ha htyp
  · obtain rfl := List.mem_singleton.mp ha
    exact absurd htyp (show attrMessageIntegrity ≠ attrFingerprint by decide)

theorem fingerprint_check_of_holds
    (h : Holds m (wireAll (protectedAttributes crc m.typ m.transactionId attributes tag.toList)))
    (hnone : ∀ a ∈ attributes, a.typ ≠ attrFingerprint) :
    FingerprintAttr.check crc { m with
      attributes := (protectedAttributes crc m.typ m.transactionId attributes tag.toList).map asDecoded } = .ok () := by
  have hget : Message.get { m with
      attributes := (protectedAttributes crc m.typ m.transactionId attributes tag.toList).map asDecoded }
      attrFingerprint = .ok (fingerprintOf crc m.typ m.transactionId attributes tag.toList) := by
    refine get_of_append ((beforeFingerprint attributes tag.toList).map asDecoded) []
      (asDecoded ⟨attrFingerprint, 4#16, fingerprintOf crc m.typ m.transactionId attributes tag.toList⟩) ?_
      (typ_beforeFingerprint hnone) rfl
    rw [protectedAttributes_eq, List.map_append]
    rfl
  have hfp : (fingerprintOf crc m.typ m.transactionId attributes tag.toList).length = fingerprintSize := rfl
  have hwire : (wire attrMessageIntegrity tag.toList).length = 24 := by
    rw [length_wire, tag.length_toList]
    rfl
  have hwireFp : (wire attrFingerprint (fingerprintOf crc m.typ m.transactionId attributes tag.toList)).length = 8 := by
    rw [length_wire, hfp]
    rfl
  have hlength := h.length
  have hraw := h.raw
  rw [wireAll_protectedAttributes, List.length_append, List.length_append, length_wireAll, hwire, hwireFp] at hlength
  rw [hlength, wireAll_protectedAttributes, ← List.append_assoc] at hraw
  have hcovered : Parse.slice m.raw 0 (m.raw.length - (fingerprintSize + attributeHeaderSize)) =
      (.ok (header m.typ.value (wireSize attributes + 32) m.transactionId ++
        (wireAll attributes ++ wire attrMessageIntegrity tag.toList)) : Parse Error _) := by
    rw [Parse.slice_eq (Nat.zero_le _) (Nat.sub_le _ _), hraw, List.length_append, hwireFp]
    exact congrArg Except.ok (List.take_left' (Nat.add_sub_cancel _ _).symm)
  have hroom : ¬ m.raw.length < fingerprintSize + attributeHeaderSize := by
    rw [hraw, List.length_append, hwireFp]
    simp only [fingerprintSize, attributeHeaderSize]
    omega
  exact (fingerprint_check_of_get hget hroom hcovered).trans (if_pos rfl)

namespace Tlv

theorem encode_append_inj {x y : Tlv} {rest rest' : List Byte} (h : x.encode ++ rest = y.encode ++ rest') :
    x = y ∧ rest = rest' := by
  have hword : ∀ {a b : BitVec 16}, toBe16 a = toBe16 b → a = b := by
    intro a b hab
    obtain ⟨hhigh, htail⟩ := List.cons.inj hab
    rw [← be16_toBe16 a, ← be16_toBe16 b, hhigh, (List.cons.inj htail).1]
  simp only [encode, List.append_assoc] at h
  obtain ⟨htyp, h⟩ := List.append_inj h rfl
  obtain ⟨hlen, h⟩ := List.append_inj h rfl
  have hlength : x.value.length = y.value.length := by
    rw [← x.toNat_length, ← y.toNat_length, hword hlen]
  have hpad : x.pad.length = y.pad.length := by
    have hx := x.pad_length
    have hy := y.pad_length
    rw [hlength] at hx
    omega
  obtain ⟨hvalue, h⟩ := List.append_inj h hlength
  obtain ⟨hpads, hrest⟩ := List.append_inj h hpad
  obtain ⟨_, _, _, _, _⟩ := x
  obtain ⟨_, _, _, _, _⟩ := y
  obtain rfl := hword htyp
  cases hvalue
  cases hpads
  exact ⟨rfl, hrest⟩

theorem exists_append_of_flatMap {xs ys : List Tlv} {rest : List Byte}
    (h : xs.flatMap encode ++ rest = ys.flatMap encode) : ∃ zs, ys = xs ++ zs := by
  induction xs generalizing ys with
  | nil => exact ⟨ys, rfl⟩
  | cons x xs ih =>
    cases ys with
    | nil =>
      have := congrArg List.length h
      rw [List.flatMap_cons, List.length_append, List.length_append, x.length_encode] at this
      simp at this
    | cons y ys =>
      rw [List.flatMap_cons, List.flatMap_cons, List.append_assoc] at h
      obtain ⟨rfl, hrest⟩ := encode_append_inj h
      obtain ⟨zs, rfl⟩ := ih hrest
      exact ⟨zs, rfl⟩

end Tlv

theorem wireSize_protectedAttributes (crc : List Byte → BitVec 32) (typ : MessageType) (id : TransactionId)
    (attributes : List RawAttribute) (tag : Vector Byte 20) :
    wireSize (protectedAttributes crc typ id attributes tag.toList) = wireSize attributes + 32 := by
  have hfp : (fingerprintOf crc typ id attributes tag.toList).length = 4 := rfl
  rw [protectedAttributes, wireSize_append, wireSize_cons, wireSize_cons, tag.length_toList, hfp]
  rfl

theorem length_value_protectedAttributes (hvalue : ∀ a ∈ attributes, a.value.length < 2 ^ 16) :
    ∀ a ∈ protectedAttributes crc typ id attributes tag.toList, a.value.length < 2 ^ 16 := by
  intro a ha
  rcases List.mem_append.mp ha with ha | ha
  · exact hvalue a ha
  · rcases List.mem_pair.mp ha with rfl | rfl
    · rw [tag.length_toList]
      decide
    · exact show 4 < 2 ^ 16 by decide

/-- A message that does not fit its header is cut off before the fingerprint when it is decoded. -/
theorem wireSize_le_of_fingerprint {m₁ m' : Message}
    (h : Holds m (wireAll (protectedAttributes crc typ id attributes tag.toList)))
    (hvalue : ∀ a ∈ attributes, a.value.length < 2 ^ 16) (hnone : ∀ a ∈ attributes, a.typ ≠ attrFingerprint)
    (hdecode : m₁.unmarshalBinary m.raw = .ok m') (hcheck : FingerprintAttr.check crc m' = .ok ()) :
    wireSize attributes + 32 ≤ 65535 := by
  by_contra hlong
  obtain ⟨typ', id', xs, trailing, hlt, hraw, rfl⟩ := exists_of_decode hdecode
  obtain ⟨ys, hencode, hmap⟩ := exists_tlvs _ (length_value_protectedAttributes hvalue)
  have hbody : xs.flatMap Tlv.encode ++ trailing = ys.flatMap Tlv.encode := by
    rw [hencode]
    exact (List.append_inj (hraw.symm.trans h.raw) (by rw [length_header, length_header])).2
  obtain ⟨zs, rfl⟩ := Tlv.exists_append_of_flatMap hbody
  -- the header has room for less than the message: something was cut off, the fingerprint at least
  rcases List.eq_nil_or_concat' zs with rfl | ⟨zs, z, rfl⟩
  · rw [List.append_nil] at hencode
    rw [hencode, length_wireAll, wireSize_protectedAttributes] at hlt
    omega
  · rw [protectedAttributes_eq, @List.map_append _ _ _ (beforeFingerprint _ _), ← List.append_assoc,
      List.map_append] at hmap
    have hfront := (List.append_inj' hmap rfl).1
    have hget : ∃ v, Message.get ⟨.readValue typ', (xs.flatMap Tlv.encode).length, id', xs.map Tlv.rawAttribute, m.raw⟩
        attrFingerprint = .ok v := by
      rw [FingerprintAttr.check] at hcheck
      split at hcheck
      case h_1 => cases hcheck
      case h_2 v hv => exact ⟨v, hv⟩
    obtain ⟨a, ha, htyp⟩ := MessageIntegrity.get_eq_ok_iff.mp hget
    have hmem : a ∈ (beforeFingerprint attributes tag.toList).map asDecoded := by
      rw [← hfront, List.map_append]
      exact List.mem_append_left _ ha
    exact typ_beforeFingerprint hnone a hmem htyp

/-- The first MESSAGE-INTEGRITY among the attributes, if there is one, has the tag of the message up to it. -/
def FirstTagRight (crypto : Crypto) (key : List Byte) (typ : MessageType) (id : TransactionId)
    (attributes : List RawAttribute) : Prop :=
  ∀ pre a post, attributes = pre ++ a :: post → a.typ = attrMessageIntegrity →
    (∀ b ∈ pre, b.typ ≠ attrMessageIntegrity) →
    ∃ mac tag, crypto.newHmac key = .ok mac ∧
      mac.sign (header typ.value (wireSize pre + 24) id ++ wireAll pre) = .ok tag ∧ a.value = tag.toList

/-- A message that was built with integrity and fingerprint passes both checks after it was decoded, if it
    fits its header and no wrong MESSAGE-INTEGRITY was added before. -/
theorem built_passes_iff {m₁ m' : Message} (hvalue : ∀ a ∈ attributes, a.value.length < 2 ^ 16)
    (h : m.build (typ.addTo :: id.addTo :: (attributes.map RawAttribute.addTo ++
    [MessageIntegrity.addTo crypto key, FingerprintAttr.addTo crc])) = .ok m') :
    (∃ m'', m₁.unmarshalBinary m'.raw = .ok m'' ∧ (MessageIntegrity.check crypto m'' key).1 = .ok () ∧
      FingerprintAttr.check crc m'' = .ok ()) ↔
    wireSize attributes + 32 ≤ 65535 ∧ FirstTagRight crypto key typ id attributes := by
  obtain ⟨hnone, mac, tag, hmac, hsign, hholds, rfl, rfl⟩ := exists_of_build hvalue h
  have hdecoded : wireSize attributes + 32 ≤ 65535 → m₁.unmarshalBinary m'.raw = .ok { m' with
      attributes := (protectedAttributes crc m'.typ m'.transactionId attributes tag.toList).map asDecoded } :=
    fun hsize => unmarshalBinary_of_holds hholds (by rwa [wireSize_protectedAttributes]) m₁
  have hverdict : wireSize attributes + 32 ≤ 65535 → ∀ pre a post,
      protectedAttributes crc m'.typ m'.transactionId attributes tag.toList = pre ++ a :: post →
      a.typ = attrMessageIntegrity → (∀ b ∈ pre, b.typ ≠ attrMessageIntegrity) →
      (MessageIntegrity.check crypto { m' with
        attributes := (protectedAttributes crc m'.typ m'.transactionId attributes tag.toList).map asDecoded } key).1 =
      MessageIntegrity.verdict crypto key
        (header m'.typ.value (wireSize pre + 24) m'.transactionId ++ wireAll pre) a.value := by
    intro hsize pre a post heq ha hpre
    rw [← wireSize_protectedAttributes crc m'.typ m'.transactionId attributes tag, heq] at hsize
    rw [heq] at hholds ⊢
    exact check_of_holds hholds hsize hpre ha crypto key
  constructor
  · rintro ⟨m'', hdecode, hintegrity, hfingerprint⟩
    have hsize := wireSize_le_of_fingerprint hholds hvalue hnone hdecode hfingerprint
    obtain rfl := Except.ok.inj (hdecode.symm.trans (hdecoded hsize))
    refine ⟨hsize, fun pre a post heq ha hpre => ?_⟩
    rw [hverdict hsize pre a (post ++ _) (by rw [protectedAttributes, heq, List.append_assoc]; rfl) ha hpre]
      at hintegrity
    exact MessageIntegrity.verdict_eq_ok_iff.mp hintegrity
  · rintro ⟨hsize, hright⟩
    refine ⟨_, hdecoded hsize, ?_, fingerprint_check_of_holds hholds hnone⟩
    -- the check finds one that was added before, or the own one
    cases hfind : attributes.find? (·.typ = attrMessageIntegrity) with
    | none =>
      have hfirst : ∀ b ∈ attributes, b.typ ≠ attrMessageIntegrity := fun b hb => by
        simpa using List.find?_eq_none.mp hfind b hb
      rw [hverdict hsize attributes ⟨attrMessageIntegrity, 20#16, tag.toList⟩ _ rfl rfl hfirst]
      exact MessageIntegrity.verdict_eq_ok_iff.mpr ⟨mac, tag, hmac, hsign, rfl⟩
    | some a =>
      obtain ⟨ha, pre, post, heq, hpre⟩ := List.find?_eq_some_iff_append.mp hfind
      have hfirst : ∀ b ∈ pre, b.typ ≠ attrMessageIntegrity := fun b hb => by simpa using hpre b hb
      have ha : a.typ = attrMessageIntegrity := by simpa using ha
      rw [hverdict hsize pre a (post ++ _) (by rw [protectedAttributes, heq, List.append_assoc]; rfl) ha hfirst]
      exact MessageIntegrity.verdict_eq_ok_iff.mpr (hright pre a post heq ha hfirst)

/-! ## The integrity of a message -/

/-- The check returns, leaves a message that was decoded as it was, and has verified the bytes before the tag
    that `get` returns; these hold everything that is read exactly if none comes late. A message that was built
    with integrity and fingerprint passes both checks exactly if it fits its header and no wrong
    MESSAGE-INTEGRITY was added before. -/
theorem integrity_iff (crypto : Crypto) (key : List Byte) (crc : List Byte → BitVec 32) :
    (∀ m m' : Message, m.decode = .ok m' →
      Parse.Safe (MessageIntegrity.check crypto m' key).1 ∧ (MessageIntegrity.check crypto m' key).2 = m' ∧
      ((MessageIntegrity.check crypto m' key).1 = .ok () →
        (∃ mac tag, crypto.newHmac key = .ok mac ∧ mac.sign (MessageIntegrity.authenticated m') = .ok tag ∧
          m'.get attrMessageIntegrity = .ok tag.toList) ∧
        (MessageIntegrity.Covered m' ↔ MessageIntegrity.NoneLate m'.attributes))) ∧
    ∀ (m m₁ m' : Message) (typ : MessageType) (id : TransactionId) (attributes : List RawAttribute),
      (∀ a ∈ attributes, a.value.length < 2 ^ 16) →
      m.build (typ.addTo :: id.addTo :: (attributes.map RawAttribute.addTo ++
        [MessageIntegrity.addTo crypto key, FingerprintAttr.addTo crc])) = .ok m' →
      ((∃ m'', m₁.unmarshalBinary m'.raw = .ok m'' ∧ (MessageIntegrity.check crypto m'' key).1 = .ok () ∧
          FingerprintAttr.check crc m'' = .ok ()) ↔
        wireSize attributes + 32 ≤ 65535 ∧ FirstTagRight crypto key typ id attributes) := by
  refine ⟨fun m m' hdecode => ?_, fun m m₁ m' typ id attributes hvalue h => built_passes_iff hvalue h⟩
  obtain ⟨hsafe, hsame⟩ := MessageIntegrity.check_safe hdecode crypto key
  exact ⟨hsafe, hsame, fun hcheck =>
    ⟨MessageIntegrity.exists_of_check hdecode hcheck, MessageIntegrity.covered_iff m'⟩⟩

def zeroTags : Crypto := ⟨fun _ => .ok ⟨fun _ => .ok (Vector.replicate 20 0#8)⟩⟩

/-- A binding request with MESSAGE-INTEGRITY and a USERNAME behind it. -/
def lateUsername : List Byte :=
  header bindingRequest.value 32 (Vector.replicate 12 0#8) ++
    (wire attrMessageIntegrity (List.replicate 20 0#8) ++ wire attrUsername [0x75#8, 0x73#8, 0x65#8, 0x72#8])

/-- The check of a message succeeds although its user name, which `get` returns, stands behind the tag; and a
    message with a MESSAGE-INTEGRITY among its attributes does not pass the check it was built for. -/
theorem integrity_not_covering :
    (∃ m, new.unmarshalBinary lateUsername = .ok m ∧ (MessageIntegrity.check zeroTags m []).1 = .ok () ∧
      m.get attrUsername = .ok [0x75#8, 0x73#8, 0x65#8, 0x72#8] ∧ ¬ MessageIntegrity.Covered m) ∧
    ∃ m, new.build [bindingRequest.addTo, TransactionId.addTo (Vector.replicate 12 0#8),
        RawAttribute.addTo ⟨attrMessageIntegrity, 0#16, []⟩, MessageIntegrity.addTo zeroTags [],
        FingerprintAttr.addTo fun _ => 0#32] = .ok m ∧
      ∃ m', new.unmarshalBinary m.raw = .ok m' ∧
        (MessageIntegrity.check zeroTags m' []).1 = Parse.fail .errIntegrityMismatch := by
  refine ⟨⟨_, rfl, rfl, rfl, ?_⟩, _, rfl, _, rfl, rfl⟩
  rw [MessageIntegrity.covered_iff]
  intro h
  obtain ⟨b, hb, -⟩ := h ⟨attrUsername, 4#16, [0x75#8, 0x73#8, 0x65#8, 0x72#8]⟩ (by decide) (by decide) (by decide)
  cases hb

end Rtc.Stun
