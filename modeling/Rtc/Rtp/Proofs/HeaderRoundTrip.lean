import Rtc.Lib.Parse
import Rtc.Rtp.Proofs.ExtensionBlock

/-!
# The headers that survive the wire

`marshal` followed by `unmarshal` gives back a header exactly if its fields fit their places, every element fits the
form of the profile, and the padding count is the one that the serialiser writes.
-/

namespace Rtc.Rtp
open Bytes Shared

namespace Header

variable {h : Header} {f : ElementForm} {out : List Byte} {es : List Extension}

/-! ## The fixed part -/

/-- The fields of the first two bytes fit their places. -/
structure FieldsFit (h : Header) : Prop where
  version : h.version < 4#8
  payloadType : h.payloadType < 128#8
  csrc : h.csrc.length ≤ 15

theorem length_marshalFixed (h : Header) : h.marshalFixed.length = 12 + h.csrc.length * 4 := by
  have hcsrc : ∀ csrc : List (BitVec 32), (csrc.flatMap toBe32).length = csrc.length * 4 := by
    intro csrc
    induction csrc with
    | nil => rfl
    | cons x csrc ih =>
      rw [List.flatMap_cons, List.length_append, length_toBe32, ih, List.length_cons]
      omega
  simp only [marshalFixed, List.length_cons, List.length_append, length_toBe16, length_toBe32, hcsrc]
  omega

theorem map_readU32_flatMap (csrc : List (BitVec 32)) (pre post : List Byte) :
    ((List.range csrc.length).map fun i =>
      readU32 (pre ++ (csrc.flatMap toBe32 ++ post)) (pre.length + 4 * i)) = csrc := by
  induction csrc generalizing pre with
  | nil => rfl
  | cons x csrc ih =>
    have hhead : readU32 (pre ++ ((x :: csrc).flatMap toBe32 ++ post)) (pre.length + 4 * 0) = x := by
      simp only [readU32, Nat.mul_zero, Nat.add_zero, List.getD_append_right _ _ _ _ (Nat.le_add_right _ _),
        List.getD_append_right _ _ _ _ (Nat.le_refl _), Nat.sub_self, Nat.add_sub_cancel_left]
      exact Parse.be32_toBe32 x
    rw [List.length_cons, List.range_succ_eq_map, List.map_cons, hhead, List.map_map]
    congr 1
    refine Eq.trans (List.map_congr_left fun i _ => ?_) (ih (pre ++ toBe32 x))
    simp only [Function.comp_apply, List.flatMap_cons, List.append_assoc, List.length_append,
      length_toBe32]
    congr 1
    omega

theorem firstByte_spec (hfit : h.FieldsFit) :
    h.firstByte >>> 6 &&& 0x3#8 = h.version ∧ ((h.firstByte >>> 5 &&& 0x1#8) ≠ 0#8 ↔ h.padding) ∧
      ((h.firstByte >>> 4 &&& 0x1#8) ≠ 0#8 ↔ h.extension) ∧
      (h.firstByte &&& 0xF#8).toNat = h.csrc.length := by
  have hall : ∀ version : Byte, version < 4#8 → ∀ count < 16, ∀ padding extension : Bool,
      let b := (version <<< 6) ||| BitVec.ofNat 8 count |||
        (if padding then 1#8 <<< 5 else 0#8) ||| (if extension then 1#8 <<< 4 else 0#8)
      b >>> 6 &&& 0x3#8 = version ∧ ((b >>> 5 &&& 0x1#8) ≠ 0#8 ↔ padding) ∧
        ((b >>> 4 &&& 0x1#8) ≠ 0#8 ↔ extension) ∧ (b &&& 0xF#8).toNat = count := by
    decide +kernel
  exact hall h.version hfit.version h.csrc.length (Nat.lt_succ_of_le hfit.csrc) h.padding h.extension

theorem secondByte_spec (hfit : h.FieldsFit) :
    ((h.secondByte >>> 7 &&& 0x1#8) ≠ 0#8 ↔ h.marker) ∧ h.secondByte &&& 0x7F#8 = h.payloadType := by
  have hall : ∀ payloadType : Byte, payloadType < 128#8 → ∀ marker : Bool,
      let b := payloadType ||| if marker then 1#8 <<< 7 else 0#8
      ((b >>> 7 &&& 0x1#8) ≠ 0#8 ↔ marker) ∧ b &&& 0x7F#8 = payloadType := by
    decide +kernel
  exact hall h.payloadType hfit.payloadType h.marker

/-- The header with the extension block of a scan. -/
def withScan (h : Header) (profile : BitVec 16) (scan : ExtensionScan) : Header :=
  { h with
    extensionProfile := profile
    extensions := scan.extensions
    extensionsPadding := scan.extensionsPadding }

section

variable (hfit : h.FieldsFit)
include hfit

theorem csrcEnd_marshalFixed (a : List Byte) : csrcEnd (h.marshalFixed ++ a) = h.marshalFixed.length := by
  obtain ⟨-, -, -, hcount⟩ := firstByte_spec hfit
  rw [length_marshalFixed, csrcEnd, csrcCount, marshalFixed, List.cons_append, List.getD_cons_zero,
    hcount]

theorem extensionBit_marshalFixed (a : List Byte) : extensionBit (h.marshalFixed ++ a) = h.extension := by
  obtain ⟨-, -, hext, -⟩ := firstByte_spec hfit
  simp only [extensionBit, marshalFixed, List.cons_append, List.getD_cons_zero, hext,
    Bool.decide_eq_true]

theorem headerOf_marshalFixed (a : List Byte) (profile : BitVec 16) (scan : ExtensionScan) :
    headerOf (h.marshalFixed ++ a) profile scan = h.withScan profile scan := by
  obtain ⟨hversion, hpadding, hext, hcount⟩ := firstByte_spec hfit
  obtain ⟨hmarker, htype⟩ := secondByte_spec hfit
  have hcsrc := map_readU32_flatMap h.csrc (h.firstByte :: h.secondByte ::
    (toBe16 h.sequenceNumber ++ toBe32 h.timestamp ++ toBe32 h.ssrc)) a
  have hfixed : h.marshalFixed ++ a = h.firstByte :: h.secondByte ::
      (toBe16 h.sequenceNumber ++ toBe32 h.timestamp ++ toBe32 h.ssrc) ++
        (h.csrc.flatMap toBe32 ++ a) := by
    simp [marshalFixed]
  have hlist : ((List.range h.csrc.length).map fun i =>
      readU32 (h.marshalFixed ++ a) (12 + 4 * i)) = h.csrc := by
    rw [hfixed]
    exact hcsrc
  have hfirst : (h.marshalFixed ++ a).getD 0 0#8 = h.firstByte := rfl
  have hsecond : (h.marshalFixed ++ a).getD 1 0#8 = h.secondByte := rfl
  have hseq : readU16 (h.marshalFixed ++ a) 2 = h.sequenceNumber := be16_toBe16 h.sequenceNumber
  have htimestamp : readU32 (h.marshalFixed ++ a) 4 = h.timestamp := Parse.be32_toBe32 h.timestamp
  have hssrc : readU32 (h.marshalFixed ++ a) 8 = h.ssrc := Parse.be32_toBe32 h.ssrc
  simp only [headerOf, withScan, csrcCount, extensionBit_marshalFixed hfit, hfirst, hsecond, hseq,
    htimestamp, hssrc, hversion, hpadding, hmarker, htype, hcount, hlist, Bool.decide_eq_true]

theorem unmarshal_marshalFixed (hext : h.extension = false) (rest : List Byte) :
    unmarshal (h.marshalFixed ++ rest) = .ok (h.withScan 0#16 ⟨[], 0, rest⟩, rest) := by
  have hlen := h.length_marshalFixed
  rw [unmarshal, csrcEnd_marshalFixed hfit, extensionBit_marshalFixed hfit, hext,
    if_neg (by rw [List.length_append]; omega), if_neg (by rw [List.length_append]; omega),
    if_neg Bool.false_ne_true, List.drop_left, headerOf_marshalFixed hfit]

theorem unmarshal_marshalFixed_block (hext : h.extension = true)
    (profile words : BitVec 16) (block : List Byte) (hblock : words.toNat * 4 ≤ block.length) :
    unmarshal (h.marshalFixed ++ (toBe16 profile ++ (toBe16 words ++ block))) =
      (scanExtensions profile (words.toNat * 4) block).map
        fun scan => (h.withScan profile scan, scan.rest) := by
  have hlen := h.length_marshalFixed
  have hread : ∀ (i : Nat) (word : BitVec 16) (pre post : List Byte), pre.length = i →
      readU16 (pre ++ (toBe16 word ++ post)) i = word := by
    rintro _ word pre post rfl
    rw [readU16, List.getD_append_right _ _ _ _ (Nat.le_refl _),
      List.getD_append_right _ _ _ _ (Nat.le_add_right _ 1), Nat.sub_self, Nat.add_sub_cancel_left]
    exact be16_toBe16 word
  have hwords := hread (h.marshalFixed.length + 2) words (h.marshalFixed ++ toBe16 profile) block
    (by rw [List.length_append, length_toBe16])
  rw [List.append_assoc] at hwords
  have hdrop : (h.marshalFixed ++ (toBe16 profile ++ (toBe16 words ++ block))).drop
      (h.marshalFixed.length + 4) = block := by
    rw [← List.drop_drop, List.drop_left]
    rfl
  have htotal : (h.marshalFixed ++ (toBe16 profile ++ (toBe16 words ++ block))).length =
      h.marshalFixed.length + 4 + block.length := by
    simp only [List.length_append, length_toBe16]
    omega
  rw [unmarshal, extensionLength, csrcEnd_marshalFixed hfit, extensionBit_marshalFixed hfit, hext,
    hwords, hdrop, hread _ profile _ _ rfl, htotal, if_neg (by omega), if_neg (by omega),
    if_pos rfl, if_neg (by omega), if_neg (by omega)]
  simp only [headerOf_marshalFixed hfit]

end

/-! ## The block as written -/

theorem marshalExtensions_form (hprofile : h.extensionProfile = f.profile) :
    h.marshalExtensions = .ok (h.extensions.flatMap f.bytes) := by
  rw [marshalExtensions, hprofile]
  cases f <;> rfl

theorem length_flatMap_form (f : ElementForm) (es : List Extension) :
    (es.flatMap f.bytes).length =
      (es.map fun e => e.payload.length).sum + es.length * f.overhead := by
  induction es with
  | nil => simp
  | cons e es ih =>
    rw [List.flatMap_cons, List.length_append, ElementForm.length_bytes, ih, List.map_cons,
      List.sum_cons, List.length_cons, Nat.add_mul, Nat.one_mul]
    omega

theorem length_elements (hprofile : h.extensionProfile = f.profile) :
    (h.extensions.flatMap f.bytes).length = h.getExtensionPayloadLen := by
  rw [length_flatMap_form, getExtensionPayloadLen, hprofile, elementOverhead_form]

/-- The length of the block in words, as written: the length in bytes is cut to 16 bits first. -/
def blockWords (h : Header) : Nat := (h.getExtensionPayloadLen % 2 ^ 16 + 3) / 4

/-- The block as written for these elements. -/
def blockBytes (h : Header) (elements : List Byte) : List Byte :=
  toBe16 h.extensionProfile ++ (toBe16 (BitVec.ofNat 16 h.blockWords) ++ (elements ++
    List.replicate (h.blockWords * 4 - h.getExtensionPayloadLen) 0#8))

theorem blockWords_lt (h : Header) : h.blockWords < 2 ^ 16 := by
  unfold blockWords
  omega

@[simp] theorem toNat_blockWords (h : Header) : (BitVec.ofNat 16 h.blockWords).toNat = h.blockWords := by
  rw [BitVec.toNat_ofNat, Nat.mod_eq_of_lt h.blockWords_lt]

theorem marshal_eq_ok_iff : h.marshal = .ok out ↔
    h.marshalTo h.marshalSize = .ok out ∧ out.length = h.marshalSize := by
  dsimp only [marshal]
  cases h.marshalTo h.marshalSize with
  | error e => exact ⟨nofun, fun hand => nomatch hand.1⟩
  | ok buf =>
    dsimp only
    split
    case isTrue hne =>
      refine ⟨nofun, ?_⟩
      rintro ⟨heq, hlen⟩
      exact absurd (Except.ok.inj heq ▸ hlen) hne
    case isFalse heq =>
      refine ⟨fun hok => ⟨hok, ?_⟩, And.left⟩
      rw [← Except.ok.inj hok]
      exact not_not.mp heq

/-- A header with an extension block is written exactly if its elements are and fill the size that
    counts the padding. -/
theorem marshal_block_iff (hext : h.extension = true) : h.marshal = .ok out ↔
    ∃ elements, h.marshalExtensions = .ok elements ∧ out = h.marshalFixed ++ h.blockBytes elements ∧
      ¬ (h.extensionProfile ≠ extensionProfileOneByte ∧ h.extensionProfile ≠ extensionProfileTwoByte ∧
        h.getExtensionPayloadLen % 4 ≠ 0) ∧
      elements.length + (h.blockWords * 4 - h.getExtensionPayloadLen) =
        (h.getExtensionPayloadLen + h.extensionsPadding + 3) / 4 * 4 := by
  have hsize : h.marshalSize = 12 + h.csrc.length * 4 +
      (4 + (h.getExtensionPayloadLen + h.extensionsPadding + 3) / 4 * 4) := by
    rw [marshalSize, marshalSizeFor, if_pos hext, if_pos hext]
  have hblock : ∀ elements : List Byte, (h.marshalFixed ++ h.blockBytes elements).length =
      12 + h.csrc.length * 4 + (4 + (elements.length +
        (h.blockWords * 4 - h.getExtensionPayloadLen))) := by
    intro elements
    simp only [blockBytes, List.length_append, length_toBe16, length_marshalFixed,
      List.length_replicate]
    omega
  rw [marshal_eq_ok_iff, marshalTo, if_neg (Nat.lt_irrefl _), if_pos hext, marshalExtensionBlock]
  dsimp only
  split
  case isTrue hbad =>
    refine ⟨fun hand => (nomatch hand.1), ?_⟩
    rintro ⟨elements, -, -, hgood, -⟩
    exact absurd hbad hgood
  case isFalse hgood =>
    constructor
    · rintro ⟨heq, hlen⟩
      obtain ⟨block, hmap, rfl⟩ := map_eq_ok heq
      obtain ⟨elements, helements, rfl⟩ := map_eq_ok hmap
      have hassoc : toBe16 h.extensionProfile ++ toBe16 (BitVec.ofNat 16
          ((h.getExtensionPayloadLen % 2 ^ 16 + 3) / 4)) ++ elements ++ List.replicate
            ((h.getExtensionPayloadLen % 2 ^ 16 + 3) / 4 * 4 - h.getExtensionPayloadLen) 0#8 =
          h.blockBytes elements := by
        simp only [blockBytes, blockWords, List.append_assoc]
      rw [hassoc] at hlen ⊢
      have := hblock elements
      exact ⟨elements, helements, rfl, hgood, by omega⟩
    · rintro ⟨elements, helements, rfl, -, hlen⟩
      have := hblock elements
      rw [helements]
      refine ⟨?_, by omega⟩
      simp only [Except.map, blockBytes, blockWords, List.append_assoc]

/-! ## Which headers are read back -/

/-- The block of an element form can be written and read back. -/
structure FormWritable (f : ElementForm) (h : Header) : Prop where
  fits : ∀ e ∈ h.extensions, f.Fits e
  aligned : (h.getExtensionPayloadLen + h.extensionsPadding) % 4 = 0
  padding : h.extensionsPadding < 4
  short : h.getExtensionPayloadLen < 2 ^ 16

/-- The block of another profile can be: one element with the id 0, in whole words. -/
structure PlainWritable (h : Header) : Prop where
  element : ∃ payload, h.extensions = [⟨0#8, payload⟩] ∧ payload.length % 4 = 0 ∧
    payload.length < 2 ^ 16
  padding : h.extensionsPadding = 0

/-- The extension block, or its absence, survives the wire. -/
def BlockWritable (h : Header) : Prop :=
  if h.extension then
    if h.extensionProfile = extensionProfileOneByte then FormWritable .oneByte h
    else if h.extensionProfile = extensionProfileTwoByte then FormWritable .twoByte h
    else PlainWritable h
  else h.extensionProfile = 0#16 ∧ h.extensions = [] ∧ h.extensionsPadding = 0

theorem blockWritable_form (hext : h.extension = true)
    (hprofile : h.extensionProfile = f.profile) : h.BlockWritable ↔ FormWritable f h := by
  rw [BlockWritable, if_pos hext, hprofile]
  cases f <;> rfl

theorem blockWritable_plain (hext : h.extension = true) (hone : h.extensionProfile ≠ extensionProfileOneByte)
    (htwo : h.extensionProfile ≠ extensionProfileTwoByte) : h.BlockWritable ↔ PlainWritable h := by
  rw [BlockWritable, if_pos hext, if_neg hone, if_neg htwo]

structure Writable (h : Header) : Prop where
  fields : h.FieldsFit
  block : h.BlockWritable

/-- The elements as pieces, with padding after them. -/
def piecesOf (es : List Extension) (padding : Nat) : List Piece :=
  es.map Piece.element ++ List.replicate padding .pad

theorem flatMap_piecesOf (f : ElementForm) (es : List Extension) (padding : Nat) :
    (piecesOf es padding).flatMap (Piece.bytes f) =
      es.flatMap f.bytes ++ List.replicate padding 0#8 := by
  have hpad : (List.replicate padding Piece.pad).flatMap (Piece.bytes f) =
      List.replicate padding 0#8 := by
    induction padding with
    | zero => rfl
    | succ padding ih =>
      rw [List.replicate_succ, List.flatMap_cons, ih]
      rfl
  rw [piecesOf, List.flatMap_append, hpad, List.flatMap_map]
  rfl

theorem scanOf_piecesOf (es : List Extension) (padding : Nat) (rest : List Byte) :
    scanOf (piecesOf es padding) rest = ⟨es, padding, rest⟩ := by
  induction es with
  | nil =>
    induction padding with
    | zero => rfl
    | succ padding ih =>
      rw [piecesOf, List.map_nil, List.nil_append] at ih ⊢
      rw [List.replicate_succ, scanOf_pad, ih]
      rfl
  | cons e es ih =>
    rw [piecesOf] at ih ⊢
    rw [List.map_cons, List.cons_append, scanOf_element, ih]
    rfl

theorem fits_piecesOf (hfits : ∀ e ∈ es, f.Fits e) (padding : Nat) : ∀ p ∈ piecesOf es padding, p.Fits f := by
  intro p hp
  rcases List.mem_append.mp hp with hp | hp
  · obtain ⟨e, he, rfl⟩ := List.mem_map.mp hp
    exact hfits e he
  · rw [List.eq_of_mem_replicate hp]
    trivial

theorem scanExtensions_elements (hfits : ∀ e ∈ es, f.Fits e) (padding : Nat) (rest : List Byte) :
    scanExtensions f.profile ((es.flatMap f.bytes).length + padding)
      (es.flatMap f.bytes ++ (List.replicate padding 0#8 ++ rest)) = .ok ⟨es, padding, rest⟩ := by
  have hscan := ElementForm.scan_pieces (fits_piecesOf hfits padding) rest (Nat.le_refl _)
  rw [flatMap_piecesOf, List.length_append, List.length_replicate, List.append_assoc,
    scanOf_piecesOf] at hscan
  rw [scanExtensions_form, hscan]

theorem withScan_self (h : Header) (rest : List Byte) :
    h.withScan h.extensionProfile ⟨h.extensions, h.extensionsPadding, rest⟩ = h := rfl

/-- The block of a form, as written when nothing is cut, is read back with the padding that fills the
    last word. -/
theorem unmarshal_block_form (hfit : h.FieldsFit) (hext : h.extension = true)
    (hprofile : h.extensionProfile = f.profile) (hfits : ∀ e ∈ h.extensions, f.Fits e)
    (hshort : h.getExtensionPayloadLen < 2 ^ 16) (rest : List Byte) :
    unmarshal (h.marshalFixed ++ h.blockBytes (h.extensions.flatMap f.bytes) ++ rest) =
      .ok (h.withScan f.profile ⟨h.extensions, h.blockWords * 4 - h.getExtensionPayloadLen, rest⟩,
        rest) := by
  have hlen := length_elements hprofile
  have hwords : h.blockWords * 4 = (h.extensions.flatMap f.bytes).length +
      (h.blockWords * 4 - h.getExtensionPayloadLen) := by
    rw [hlen, blockWords, Nat.mod_eq_of_lt hshort]
    omega
  have hscan := scanExtensions_elements hfits (h.blockWords * 4 - h.getExtensionPayloadLen) rest
  rw [← hwords] at hscan
  simp only [blockBytes, hprofile, List.append_assoc]
  rw [unmarshal_marshalFixed_block hfit hext, toNat_blockWords, hscan]
  · rfl
  · rw [toNat_blockWords, List.length_append, List.length_append, List.length_replicate]
    omega

theorem FormWritable.round_trip (hw : FormWritable f h) (hfit : h.FieldsFit)
    (hext : h.extension = true) (hprofile : h.extensionProfile = f.profile) :
    ∃ out, h.marshal = .ok out ∧ ∀ rest, unmarshal (out ++ rest) = .ok (h, rest) := by
  have hlen := length_elements hprofile
  have hwords : h.blockWords * 4 = h.getExtensionPayloadLen + h.extensionsPadding := by
    have := hw.aligned
    have := hw.padding
    rw [blockWords, Nat.mod_eq_of_lt hw.short]
    omega
  refine ⟨h.marshalFixed ++ h.blockBytes (h.extensions.flatMap f.bytes), ?_, fun rest => ?_⟩
  · refine (marshal_block_iff hext).mpr ⟨_, marshalExtensions_form hprofile, rfl, ?_, ?_⟩
    · rintro ⟨hone, htwo, -⟩
      cases f with
      | oneByte => exact hone hprofile
      | twoByte => exact htwo hprofile
    · have := hw.aligned
      omega
  · rw [unmarshal_block_form hfit hext hprofile hw.fits hw.short, hwords, Nat.add_sub_cancel_left,
      ← hprofile, withScan_self]

theorem PlainWritable.round_trip (hw : PlainWritable h) (hfit : h.FieldsFit)
    (hext : h.extension = true) (hone : h.extensionProfile ≠ extensionProfileOneByte)
    (htwo : h.extensionProfile ≠ extensionProfileTwoByte) :
    ∃ out, h.marshal = .ok out ∧ ∀ rest, unmarshal (out ++ rest) = .ok (h, rest) := by
  obtain ⟨payload, hes, haligned, hshort⟩ := hw.element
  have hlen : h.getExtensionPayloadLen = payload.length := by
    rw [getExtensionPayloadLen, hes, elementOverhead, if_neg hone, if_neg htwo]
    simp
  have hwords : h.blockWords * 4 = payload.length := by
    rw [blockWords, hlen, Nat.mod_eq_of_lt hshort]
    omega
  refine ⟨h.marshalFixed ++ h.blockBytes payload, ?_, fun rest => ?_⟩
  · refine (marshal_block_iff hext).mpr ⟨payload, ?_, rfl, ?_, ?_⟩
    · rw [marshalExtensions, if_neg hone, if_neg htwo, hes]
      exact if_neg (not_not.mpr haligned)
    · rw [hlen]
      exact fun hbad => hbad.2.2 haligned
    · rw [hlen, hw.padding]
      omega
  · simp only [blockBytes, hlen, hwords, Nat.sub_self, List.replicate_zero, List.append_nil,
      List.append_assoc]
    rw [unmarshal_marshalFixed_block hfit hext, toNat_blockWords, hwords, scanExtensions, if_neg hone,
      if_neg htwo, if_neg (by rw [List.length_append]; omega), List.take_left, List.drop_left, ← hes,
      ← hw.padding]
    · rfl
    · rw [toNat_blockWords, hwords, List.length_append]
      omega

theorem Writable.round_trip (hw : h.Writable) :
    ∃ out, h.marshal = .ok out ∧ ∀ rest, unmarshal (out ++ rest) = .ok (h, rest) := by
  obtain ⟨hfit, hblock⟩ := hw
  cases hext : h.extension with
  | false =>
    rw [BlockWritable, hext, if_neg Bool.false_ne_true] at hblock
    obtain ⟨hprofile, hes, hpad⟩ := hblock
    refine ⟨h.marshalFixed, ?_, fun rest => ?_⟩
    · refine marshal_eq_ok_iff.mpr ⟨?_, ?_⟩
      · rw [marshalTo, if_neg (Nat.lt_irrefl _), hext]
        rfl
      · rw [marshalSize, marshalSizeFor, hext, length_marshalFixed]
        rfl
    · rw [unmarshal_marshalFixed hfit hext, ← hprofile, ← hes, ← hpad, withScan_self]
  | true =>
    rcases profile_cases h.extensionProfile with ⟨f, hprofile⟩ | ⟨hone, htwo⟩
    · exact ((blockWritable_form hext hprofile).mp hblock).round_trip hfit hext hprofile
    · exact ((blockWritable_plain hext hone htwo).mp hblock).round_trip hfit hext hone htwo

/-! ## Only these headers are -/

theorem exists_headerOf {raw rest : List Byte} (hu : unmarshal raw = .ok (h, rest)) :
    ∃ profile scan, h = headerOf raw profile scan := by
  unfold unmarshal at hu
  split_ifs at hu with _ _ _ _ _
  · obtain ⟨scan, -, hpair⟩ := map_eq_ok hu
    exact ⟨_, scan, (Prod.mk.inj hpair).1.symm⟩
  · exact ⟨_, _, (Prod.mk.inj (Except.ok.inj hu)).1.symm⟩

theorem fieldsFit_of_unmarshal {raw rest : List Byte} (hu : unmarshal raw = .ok (h, rest)) : h.FieldsFit := by
  obtain ⟨profile, scan, rfl⟩ := exists_headerOf hu
  have hversion : ∀ b : Byte, b >>> 6 &&& 0x3#8 < 4#8 := by decide +kernel
  have htype : ∀ b : Byte, b &&& 0x7F#8 < 128#8 := by decide +kernel
  have hcount : ∀ b : Byte, (b &&& 0xF#8).toNat ≤ 15 := by decide +kernel
  refine ⟨hversion _, htype _, ?_⟩
  rw [headerOf, List.length_map, List.length_range]
  exact hcount _

theorem formWritable_of_round_trip (hext : h.extension = true)
    (hprofile : h.extensionProfile = f.profile) {rest rest' : List Byte}
    (hm : h.marshal = .ok out) (hu : unmarshal (out ++ rest) = .ok (h, rest')) : FormWritable f h := by
  have hfit := fieldsFit_of_unmarshal hu
  obtain ⟨elements, helements, rfl, -, hsize⟩ := (marshal_block_iff hext).mp hm
  rw [marshalExtensions_form hprofile] at helements
  obtain rfl := Except.ok.inj helements
  have hlen := length_elements hprofile
  have hwords : h.blockWords * 4 < h.getExtensionPayloadLen % 2 ^ 16 + 4 := by
    rw [blockWords]
    omega
  -- the walk that read the header back
  have hwalk : ∃ scan, ElementForm.Walk f (h.blockWords * 4) (h.extensions.flatMap f.bytes ++
      (List.replicate (h.blockWords * 4 - h.getExtensionPayloadLen) 0#8 ++ rest)) scan ∧
      scan.extensions = h.extensions ∧ scan.extensionsPadding = h.extensionsPadding := by
    have hroom : h.blockWords * 4 ≤ (h.extensions.flatMap f.bytes ++
        (List.replicate (h.blockWords * 4 - h.getExtensionPayloadLen) 0#8 ++ rest)).length := by
      rw [List.length_append, List.length_append, List.length_replicate]
      omega
    simp only [blockBytes, hprofile, List.append_assoc] at hu
    rw [unmarshal_marshalFixed_block hfit hext _ _ _ (by rwa [toNat_blockWords]), toNat_blockWords,
      scanExtensions_form] at hu
    obtain ⟨scan, hscan, hpair⟩ := map_eq_ok hu
    have heq := (Prod.mk.inj hpair).1
    exact ⟨scan, ElementForm.walk_of_scan (Nat.le_refl _) hroom hscan,
      congrArg Header.extensions heq, congrArg Header.extensionsPadding heq⟩
  obtain ⟨scan, hwalk, hes, hpadding⟩ := hwalk
  have hfits : ∀ e ∈ h.extensions, f.Fits e := hes ▸ hwalk.fits
  have hshort : h.getExtensionPayloadLen < 2 ^ 16 := by
    have hle := hwalk.blockSize_le
    rw [ElementForm.blockSize, ExtensionScan.blockSize, hes, hpadding, ← length_flatMap_form] at hle
    omega
  have hfilled : h.extensionsPadding = h.blockWords * 4 - h.getExtensionPayloadLen := by
    rw [unmarshal_block_form hfit hext hprofile hfits hshort] at hu
    exact (congrArg Header.extensionsPadding (Prod.mk.inj (Except.ok.inj hu)).1).symm
  have hwhole : h.blockWords * 4 = (h.getExtensionPayloadLen + 3) / 4 * 4 := by
    rw [blockWords, Nat.mod_eq_of_lt hshort]
  exact ⟨hfits, by omega, by omega, hshort⟩

theorem plainWritable_of_round_trip (hext : h.extension = true)
    (hone : h.extensionProfile ≠ extensionProfileOneByte)
    (htwo : h.extensionProfile ≠ extensionProfileTwoByte) {rest rest' : List Byte}
    (hm : h.marshal = .ok out) (hu : unmarshal (out ++ rest) = .ok (h, rest')) : PlainWritable h := by
  have hfit := fieldsFit_of_unmarshal hu
  obtain ⟨elements, helements, rfl, -, hsize⟩ := (marshal_block_iff hext).mp hm
  rw [marshalExtensions, if_neg hone, if_neg htwo] at helements
  split at helements
  case h_2 => cases helements
  case h_1 e hes =>
    split at helements
    case isTrue => cases helements
    case isFalse haligned =>
      obtain rfl := Except.ok.inj helements
      have hlen : h.getExtensionPayloadLen = e.payload.length := by
        rw [getExtensionPayloadLen, hes, elementOverhead, if_neg hone, if_neg htwo]
        simp
      have haligned : e.payload.length % 4 = 0 := not_not.mp haligned
      have hwords : h.blockWords * 4 = e.payload.length % 2 ^ 16 := by
        rw [blockWords, hlen]
        omega
      have hread : h.extensions = [⟨0#8, e.payload.take (e.payload.length % 2 ^ 16)⟩] := by
        simp only [blockBytes, List.append_assoc] at hu
        have hle := Nat.mod_le e.payload.length (2 ^ 16)
        rw [unmarshal_marshalFixed_block hfit hext _ _ _
            (by rw [toNat_blockWords, hwords, List.length_append]; omega),
          toNat_blockWords, hwords, scanExtensions, if_neg hone, if_neg htwo,
          if_neg (by rw [List.length_append]; omega), List.take_append_of_le_length hle] at hu
        exact (congrArg Header.extensions (Prod.mk.inj (Except.ok.inj hu)).1).symm
      have hself : e.payload = e.payload.take (e.payload.length % 2 ^ 16) := by
        have heq := hes.symm.trans hread
        exact congrArg Extension.payload (List.singleton_inj.mp heq)
      have hshort : e.payload.length < 2 ^ 16 := by
        have := congrArg List.length hself
        rw [List.length_take] at this
        omega
      rw [← hself] at hread
      exact ⟨⟨e.payload, hread, haligned, hshort⟩, by omega⟩

theorem writable_of_round_trip {rest rest' : List Byte} (hm : h.marshal = .ok out)
    (hu : unmarshal (out ++ rest) = .ok (h, rest')) : h.Writable := by
  have hfit := fieldsFit_of_unmarshal hu
  refine ⟨hfit, ?_⟩
  cases hext : h.extension with
  | false =>
    have hout : out = h.marshalFixed := by
      have := (marshal_eq_ok_iff.mp hm).1
      rw [marshalTo, if_neg (Nat.lt_irrefl _), hext, if_neg Bool.false_ne_true] at this
      exact (Except.ok.inj this).symm
    rw [hout, unmarshal_marshalFixed hfit hext] at hu
    have heq := (Prod.mk.inj (Except.ok.inj hu)).1
    rw [BlockWritable, hext, if_neg Bool.false_ne_true]
    exact ⟨(congrArg Header.extensionProfile heq).symm, (congrArg Header.extensions heq).symm,
      (congrArg Header.extensionsPadding heq).symm⟩
  | true =>
    rcases profile_cases h.extensionProfile with ⟨f, hprofile⟩ | ⟨hone, htwo⟩
    · exact (blockWritable_form hext hprofile).mpr (formWritable_of_round_trip hext hprofile hm hu)
    · exact (blockWritable_plain hext hone htwo).mpr
        (plainWritable_of_round_trip hext hone htwo hm hu)

end Header
end Rtc.Rtp
