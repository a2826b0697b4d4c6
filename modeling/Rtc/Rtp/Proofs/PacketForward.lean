import Rtc.Rtp.Packet
import Rtc.Rtp.Proofs.HeaderRoundTrip

/-!
# Forwarding a parsed packet

What happens to a packet that is parsed and written again. It survives, and the parser stays inside its header,
exactly if padding and elements of the profile fill the extension block, with less than a word of padding.
-/

namespace Rtc.Rtp
open Bytes Shared

/-! ## Writing a packet -/

namespace Packet

variable {p : Packet}

theorem length_paddingBytes (p : Packet) : p.paddingBytes.length = p.paddingLen := by
  rw [paddingBytes, List.length_map, List.length_range]

theorem marshal_eq_ok_iff {out : List Byte} : p.marshal = .ok out ↔
    ∃ head, p.header.marshal = .ok head ∧ out = head ++ (p.payload ++ p.paddingBytes) := by
  have hroom : p.header.marshalTo p.marshalSize = p.header.marshalTo p.header.marshalSize := by
    rw [Header.marshalTo, Header.marshalTo, if_neg (by rw [marshalSize]; omega),
      if_neg (Nat.lt_irrefl _)]
  have hlength : ∀ head : List Byte, (head ++ p.payload ++ p.paddingBytes).length = p.marshalSize ↔
      head.length = p.header.marshalSize := by
    intro head
    rw [List.length_append, List.length_append, length_paddingBytes, marshalSize]
    omega
  simp only [Header.marshal_eq_ok_iff]
  dsimp only [marshal, marshalTo]
  rw [if_neg (Nat.lt_irrefl _), hroom]
  cases hhead : p.header.marshalTo p.header.marshalSize with
  | error e =>
    refine ⟨fun hok => (by cases hok), ?_⟩
    rintro ⟨head, ⟨hne, -⟩, -⟩
    cases hne
  | ok head =>
    simp only [Except.map]
    constructor
    · intro hok
      split at hok
      case isTrue => cases hok
      case isFalse heq =>
        refine ⟨head, ⟨rfl, (hlength head).mp (not_not.mp heq)⟩, ?_⟩
        rw [← Except.ok.inj hok, List.append_assoc]
    · rintro ⟨_, ⟨heq, hlen⟩, rfl⟩
      obtain rfl := Except.ok.inj heq
      rw [if_neg (not_not.mpr ((hlength head).mpr hlen)), List.append_assoc]

theorem removePadding_paddingBytes (p : Packet) :
    removePadding p.header.padding (p.payload ++ p.paddingBytes) = .ok p.payload := by
  have hbytes := p.length_paddingBytes
  unfold removePadding
  cases hpad : p.header.padding with
  | false =>
    have hnone : p.paddingBytes = [] := by
      rw [← List.length_eq_zero_iff, hbytes, paddingLen, hpad]
      rfl
    rw [hnone, List.append_nil]
    rfl
  | true =>
    have hrange : 0 < p.paddingLen ∧ p.paddingLen ≤ 4 := by
      rw [paddingLen, if_pos hpad]
      unfold getPadding
      dsimp only
      split_ifs <;> omega
    obtain ⟨n, hn⟩ : ∃ n, p.paddingLen = n + 1 := ⟨p.paddingLen - 1, by omega⟩
    have hlast : (p.payload ++ p.paddingBytes).getLast? = some (BitVec.ofNat 8 p.paddingLen) := by
      rw [paddingBytes, hn, List.range_succ, List.map_append, ← List.append_assoc, List.map_singleton,
        List.getLast?_concat, if_neg (by omega)]
    rw [if_pos rfl, hlast]
    dsimp only
    rw [BitVec.toNat_ofNat, Nat.mod_eq_of_lt (by omega), List.length_append, hbytes,
      if_pos (Nat.le_add_left _ _), Nat.add_sub_cancel, List.take_left]

theorem survives_iff (p : Packet) :
    (∃ out, p.marshal = .ok out ∧ out.length = p.marshalSize ∧ unmarshal out = .ok p) ↔
      p.header.Writable := by
  constructor
  · rintro ⟨out, hm, -, hu⟩
    obtain ⟨head, hhead, rfl⟩ := marshal_eq_ok_iff.mp hm
    unfold unmarshal at hu
    split at hu
    · cases hu
    case h_2 header body hheader =>
      obtain ⟨payload, -, rfl⟩ := map_eq_ok hu
      exact Header.writable_of_round_trip hhead hheader
  · intro hw
    obtain ⟨head, hhead, hread⟩ := hw.round_trip
    refine ⟨head ++ (p.payload ++ p.paddingBytes), marshal_eq_ok_iff.mpr ⟨head, hhead, rfl⟩, ?_, ?_⟩
    · rw [List.length_append, List.length_append, length_paddingBytes,
        (Header.marshal_eq_ok_iff.mp hhead).2, marshalSize]
      omega
    · rw [unmarshal, hread]
      dsimp only
      rw [removePadding_paddingBytes]
      rfl

/-! ## What the parser has to do -/

/-- The padding that the last byte announces. -/
def paddingLength (raw : List Byte) : Nat :=
  if (raw.getD 0 0#8 >>> 5 &&& 0x1#8) ≠ 0#8 then (raw.getLastD 0#8).toNat else 0

/-- The header takes the bytes that it declares, the payload is what follows without the padding, and
    the packet can be written and read again. -/
structure Forwards (raw : List Byte) (p : Packet) : Prop where
  header : Header.unmarshal raw = .ok (p.header, raw.drop (headerLength raw))
  payload : p.payload = (raw.drop (headerLength raw)).take
    (raw.length - headerLength raw - paddingLength raw)
  output : ∃ out, p.marshal = .ok out ∧ out.length = p.marshalSize ∧ unmarshal out = .ok p

def extensionBlock (raw : List Byte) : List Byte :=
  (raw.drop (csrcEnd raw + 4)).take (extensionLength raw)

/-- Padding and elements of the form fill the block, with less than a word of padding, and the elements
    are short enough for a length in 16 bits. -/
def TidyForm (f : ElementForm) (block : List Byte) : Prop :=
  ∃ pieces : List Piece, (∀ p ∈ pieces, p.Fits f) ∧ pieces.flatMap (Piece.bytes f) = block ∧
    pieces.count .pad < 4 ∧ ((pieces.filterMap Piece.element?).flatMap f.bytes).length < 2 ^ 16

/-- The extension block, if there is one, is tidy. -/
def Tidy (raw : List Byte) : Prop :=
  extensionBit raw = true →
    if readU16 raw (csrcEnd raw) = extensionProfileOneByte then TidyForm .oneByte (extensionBlock raw)
    else if readU16 raw (csrcEnd raw) = extensionProfileTwoByte then
      TidyForm .twoByte (extensionBlock raw)
    else extensionLength raw < 2 ^ 16

/-- The padding that is removed is the one announced, if the header ends where it declares. -/
theorem payload_of_header {raw : List Byte} (hu : unmarshal raw = .ok p)
    (hheader : Header.unmarshal raw = .ok (p.header, raw.drop (headerLength raw))) :
    p.payload = (raw.drop (headerLength raw)).take
      (raw.length - headerLength raw - paddingLength raw) := by
  obtain ⟨profile, scan, hof⟩ := Header.exists_headerOf hheader
  have hbit : p.header.padding = decide ((raw.getD 0 0#8 >>> 5 &&& 0x1#8) ≠ 0#8) := by
    rw [hof]
    rfl
  rw [unmarshal, hheader] at hu
  dsimp only at hu
  obtain ⟨payload, hremove, heq⟩ := map_eq_ok hu
  rw [← congrArg Packet.payload heq]
  dsimp only
  rw [hbit] at hremove
  unfold removePadding at hremove
  unfold paddingLength
  by_cases hpad : (raw.getD 0 0#8 >>> 5 &&& 0x1#8) ≠ 0#8
  · rw [if_pos (decide_eq_true hpad)] at hremove
    rw [if_pos hpad]
    split at hremove
    case h_2 => cases hremove
    case h_1 last hlast =>
      split at hremove
      case isFalse => cases hremove
      case isTrue hle =>
        have hraw : raw.getLastD 0#8 = last := by
          rw [List.getLast?_drop] at hlast
          split at hlast
          · cases hlast
          · rw [List.getLastD_eq_getLast?, hlast]
            rfl
        rw [hraw, ← Except.ok.inj hremove, List.length_drop]
  · rw [if_neg (by simpa using hpad)] at hremove
    rw [if_neg hpad, Nat.sub_zero, ← List.length_drop, List.take_length]
    exact (Except.ok.inj hremove).symm

theorem forwards_iff_writable {raw : List Byte} (hu : unmarshal raw = .ok p) : Forwards raw p ↔
    Header.unmarshal raw = .ok (p.header, raw.drop (headerLength raw)) ∧ p.header.Writable := by
  rw [← survives_iff]
  constructor
  · intro hf
    exact ⟨hf.header, hf.output⟩
  · rintro ⟨hheader, hout⟩
    exact ⟨hheader, payload_of_header hu hheader, hout⟩

end Packet

/-! ## Tidy blocks -/

namespace Header

variable {h : Header} {raw rest : List Byte}

theorem drop_csrcEnd_four (hlen : csrcEnd raw + 4 + extensionLength raw ≤ raw.length)
    (hbit : extensionBit raw = true) :
    raw.drop (csrcEnd raw + 4) = Packet.extensionBlock raw ++ raw.drop (headerLength raw) ∧
      (Packet.extensionBlock raw).length = extensionLength raw := by
  constructor
  · have hrest : raw.drop (headerLength raw) =
        (raw.drop (csrcEnd raw + 4)).drop (extensionLength raw) := by
      rw [List.drop_drop, headerLength, if_pos hbit, Nat.add_assoc]
    rw [Packet.extensionBlock, hrest, List.take_append_drop]
  · rw [Packet.extensionBlock, List.length_take, List.length_drop]
    omega

theorem unmarshal_block (hu : unmarshal raw = .ok (h, rest)) (hbit : extensionBit raw = true) :
    csrcEnd raw + 4 + extensionLength raw ≤ raw.length ∧
      ∃ scan, scanExtensions (readU16 raw (csrcEnd raw)) (extensionLength raw)
          (raw.drop (csrcEnd raw + 4)) = .ok scan ∧
        h = headerOf raw (readU16 raw (csrcEnd raw)) scan ∧ rest = scan.rest := by
  unfold unmarshal at hu
  rw [if_pos hbit] at hu
  split_ifs at hu with _ _ _ hlen
  obtain ⟨scan, hscan, hpair⟩ := map_eq_ok hu
  obtain ⟨hh, hrest⟩ := Prod.mk.inj hpair
  exact ⟨by omega, scan, hscan, hh.symm, hrest.symm⟩

theorem tidyForm_iff {f : ElementForm} (hu : unmarshal raw = .ok (h, rest))
    (hbit : extensionBit raw = true) (hprofile : readU16 raw (csrcEnd raw) = f.profile) :
    rest = raw.drop (headerLength raw) ∧ FormWritable f h ↔
      Packet.TidyForm f (Packet.extensionBlock raw) := by
  obtain ⟨hlen, scan, hscan, rfl, rfl⟩ := unmarshal_block hu hbit
  obtain ⟨hsplit, hblock⟩ := drop_csrcEnd_four hlen hbit
  have hwords : extensionLength raw % 4 = 0 := Nat.mul_mod_left _ 4
  rw [hprofile, scanExtensions_form, hsplit] at hscan
  have hpayload : ∀ s : ExtensionScan,
      (headerOf raw f.profile s).getExtensionPayloadLen = (s.extensions.flatMap f.bytes).length := by
    intro s
    rw [length_flatMap_form, getExtensionPayloadLen, headerOf, elementOverhead_form]
  constructor
  · rintro ⟨hrest, hw⟩
    rw [hprofile] at hw
    have hwalk := ElementForm.walk_of_scan (Nat.le_refl _) (by rw [List.length_append]; omega) hscan
    obtain ⟨pieces, hfits, hs, hraw⟩ := hwalk.pieces
    have hsize := ElementForm.length_flatMap_bytes (f := f) pieces scan.rest
    have haligned := hw.aligned
    have hpad := hw.padding
    have hshort := hw.short
    rw [hpayload] at haligned hshort
    rw [← hs, ElementForm.blockSize, ExtensionScan.blockSize, ← length_flatMap_form] at hsize
    rw [hrest] at hraw
    rcases hraw with hraw | ⟨b, hraw⟩
    · refine ⟨pieces, hfits, (List.append_cancel_right hraw).symm, ?_, ?_⟩
      · have : scan.extensionsPadding = pieces.count .pad := congrArg ExtensionScan.extensionsPadding hs
        exact this ▸ hpad
      · have : scan.extensions = pieces.filterMap Piece.element? := congrArg ExtensionScan.extensions hs
        exact this ▸ hshort
    · -- the block would be one byte longer than a whole number of words
      have hbytes : Packet.extensionBlock raw = pieces.flatMap (Piece.bytes f) ++ [b] := by
        refine List.append_cancel_right (hraw.trans ?_)
        rw [List.append_assoc, List.singleton_append]
      have := congrArg List.length hbytes
      rw [List.length_append, List.length_singleton] at this
      have hpads : (headerOf raw f.profile scan).extensionsPadding = scan.extensionsPadding := rfl
      omega
  · rintro ⟨pieces, hfits, hbytes, hpad, hshort⟩
    have hsize := ElementForm.length_flatMap_bytes (f := f) pieces (raw.drop (headerLength raw))
    have hread := ElementForm.scan_pieces hfits (raw.drop (headerLength raw)) (Nat.le_refl _)
    rw [hbytes, hblock, hscan] at hread
    obtain rfl := Except.ok.inj hread
    rw [ElementForm.blockSize, ExtensionScan.blockSize, ← length_flatMap_form, hbytes, hblock] at hsize
    rw [hprofile]
    refine ⟨rfl, ?_, ?_, hpad, ?_⟩
    · intro e he
      obtain ⟨piece, hmem, heq⟩ := List.mem_filterMap.mp he
      have hfit := hfits piece hmem
      cases piece with
      | pad => cases heq
      | element x =>
        obtain rfl := Option.some.inj heq
        exact hfit
    · rw [hpayload]
      have hpads : (headerOf raw f.profile (scanOf pieces (raw.drop (headerLength raw)))
        ).extensionsPadding = (scanOf pieces (raw.drop (headerLength raw))).extensionsPadding := rfl
      omega
    · rw [hpayload]
      exact hshort

theorem plain_iff (hu : unmarshal raw = .ok (h, rest)) (hbit : extensionBit raw = true)
    (hone : readU16 raw (csrcEnd raw) ≠ extensionProfileOneByte)
    (htwo : readU16 raw (csrcEnd raw) ≠ extensionProfileTwoByte) :
    rest = raw.drop (headerLength raw) ∧ PlainWritable h ↔ extensionLength raw < 2 ^ 16 := by
  obtain ⟨hlen, scan, hscan, rfl, rfl⟩ := unmarshal_block hu hbit
  obtain ⟨hsplit, hblock⟩ := drop_csrcEnd_four hlen hbit
  have hwords : extensionLength raw % 4 = 0 := Nat.mul_mod_left _ 4
  rw [scanExtensions, if_neg hone, if_neg htwo, if_neg (by rw [List.length_drop]; omega), hsplit,
    ← hblock, List.take_left, List.drop_left] at hscan
  obtain rfl := Except.ok.inj hscan
  constructor
  · rintro ⟨-, ⟨payload, hes, -, hshort⟩, -⟩
    have hpayload : Packet.extensionBlock raw = payload :=
      congrArg Extension.payload (List.singleton_inj.mp hes)
    rwa [← hblock, hpayload]
  · intro hshort
    exact ⟨rfl, ⟨Packet.extensionBlock raw, rfl, by omega, by omega⟩, rfl⟩

end Header

/-! ## Forwarding -/

namespace Packet

variable {p : Packet} {raw : List Byte}

theorem tidy_iff {rest : List Byte} {h : Header} (hu : Header.unmarshal raw = .ok (h, rest)) :
    rest = raw.drop (headerLength raw) ∧ h.Writable ↔ Tidy raw := by
  have hfit := Header.fieldsFit_of_unmarshal hu
  have hext : h.extension = extensionBit raw := by
    obtain ⟨profile, scan, rfl⟩ := Header.exists_headerOf hu
    rfl
  have hwritable : h.Writable ↔ h.BlockWritable := ⟨Header.Writable.block, fun hb => ⟨hfit, hb⟩⟩
  rw [hwritable]
  unfold Tidy
  cases hbit : extensionBit raw with
  | false =>
    refine ⟨fun _ => nofun, fun _ => ?_⟩
    rw [Header.BlockWritable, hext, hbit, if_neg Bool.false_ne_true]
    unfold Header.unmarshal at hu
    rw [hbit, if_neg Bool.false_ne_true] at hu
    split_ifs at hu
    obtain ⟨rfl, rfl⟩ := Prod.mk.inj (Except.ok.inj hu)
    rw [headerLength, hbit, if_neg Bool.false_ne_true, Nat.add_zero]
    exact ⟨rfl, rfl, rfl, rfl⟩
  | true =>
    rw [hbit] at hext
    have hprofile : h.extensionProfile = readU16 raw (csrcEnd raw) := by
      obtain ⟨-, scan, -, rfl, -⟩ := Header.unmarshal_block hu hbit
      rfl
    rw [Header.BlockWritable, if_pos hext, hprofile]
    refine Iff.trans ?_ ⟨fun htidy _ => htidy, fun htidy => htidy rfl⟩
    by_cases hone : readU16 raw (csrcEnd raw) = extensionProfileOneByte
    · rw [if_pos hone, if_pos hone]
      exact Header.tidyForm_iff (f := .oneByte) hu hbit hone
    by_cases htwo : readU16 raw (csrcEnd raw) = extensionProfileTwoByte
    · rw [if_neg hone, if_neg hone, if_pos htwo, if_pos htwo]
      exact Header.tidyForm_iff (f := .twoByte) hu hbit htwo
    · rw [if_neg hone, if_neg hone, if_neg htwo, if_neg htwo]
      exact Header.plain_iff hu hbit hone htwo

/-- A packet that is accepted keeps to the header it declares, and can be written and read again,
    exactly if its extension block is tidy. -/
theorem forwards_iff_tidy (hu : unmarshal raw = .ok p) : Forwards raw p ↔ Tidy raw := by
  rw [forwards_iff_writable hu]
  cases hheader : Header.unmarshal raw with
  | error e =>
    rw [unmarshal, hheader] at hu
    cases hu
  | ok result =>
    obtain ⟨header, rest⟩ := result
    have heq : header = p.header := by
      rw [unmarshal, hheader] at hu
      obtain ⟨payload, -, rfl⟩ := map_eq_ok hu
      rfl
    subst heq
    rw [← tidy_iff hheader]
    constructor
    · rintro ⟨hok, hw⟩
      exact ⟨(Prod.mk.inj (Except.ok.inj hok)).2, hw⟩
    · rintro ⟨rfl, hw⟩
      exact ⟨rfl, hw⟩

/-- A packet with this block of one-byte elements before the payload `01 02`. -/
def packetWithBlock (words : Byte) (block : List Byte) : List Byte :=
  [0x90#8, 0x60#8, 0#8, 1#8, 0#8, 0#8, 0#8, 2#8, 0#8, 0#8, 0#8, 3#8, 0xBE#8, 0xDE#8, 0#8, words] ++
    block ++ [1#8, 2#8]

/-- One element and two bytes of padding. -/
theorem forwards_tidy : ∃ p, unmarshal (packetWithBlock 1#8 [0x10#8, 0xAA#8, 0#8, 0#8]) = .ok p ∧
    Forwards (packetWithBlock 1#8 [0x10#8, 0xAA#8, 0#8, 0#8]) p := by
  refine ⟨_, rfl, (forwards_iff_tidy rfl).mpr fun _ => ?_⟩
  rw [if_pos (by decide)]
  refine ⟨[.element ⟨1#8, [0xAA#8]⟩, .pad, .pad], ?_, by decide, by decide, by decide⟩
  intro piece hpiece
  rcases List.mem_cons.mp hpiece with rfl | hpiece
  · exact ⟨by decide, by decide, by decide⟩
  · have hpad : piece = .pad := by simpa using hpiece
    rw [hpad]
    trivial

/-- Accepted packets that are not forwarded: the reserved id leaves the rest of its block to the
    payload, an element runs into the payload, and the serialiser drops more than three bytes of
    padding. -/
theorem accepted_not_forwarded : [packetWithBlock 1#8 [0xF0#8, 0#8, 0#8, 0#8],
      packetWithBlock 1#8 [0x10#8, 0xAA#8, 0#8, 0x21#8],
      packetWithBlock 2#8 [0x10#8, 0xAA#8, 0#8, 0#8, 0#8, 0#8, 0#8, 0#8]].Forall fun raw =>
    ∃ p, unmarshal raw = .ok p ∧ ¬ Forwards raw p := by
  refine ⟨⟨_, rfl, fun hf => ?_⟩, ⟨_, rfl, fun hf => ?_⟩, ⟨_, rfl, fun hf => ?_⟩⟩
  · exact absurd hf.header (by decide)
  · exact absurd hf.header (by decide)
  · obtain ⟨out, hm, -, -⟩ := hf.output
    revert hm
    exact nofun

end Packet
end Rtc.Rtp
