import Rtc.Rtcp.Packet

/-!
# What the decoders make of written packets

`Framed` says that a header's length is that of what follows it; every decoder is run on what its serialiser wrote. A
sender or receiver report loses the bits of a loss total above the lowest 24 and takes its padding for a profile
extension.
-/

namespace Rtc.Rtcp
open Bytes Shared

/-! ## Padding -/

theorem getPaddingSize_mod (n : Nat) : (n + getPaddingSize n) % 4 = 0 := by
  rw [getPaddingSize]
  split
  · assumption
  · omega

theorem getPaddingSize_eq_zero_iff {n : Nat} : getPaddingSize n = 0 ↔ n % 4 = 0 := by
  rw [getPaddingSize]
  split
  · simp [*]
  · omega

@[simp] theorem length_putPadding (n : Nat) : (putPadding n).length = getPaddingSize n := by
  rw [putPadding, List.length_map, List.length_range]

theorem putPadding_eq_nil_iff {n : Nat} : putPadding n = [] ↔ n % 4 = 0 := by
  rw [← getPaddingSize_eq_zero_iff, ← List.length_eq_zero_iff, length_putPadding]

theorem Header.ofSize_putPadding (count : Byte) (packetType : PacketType) (n : Nat) :
    (if (ofSize count packetType n).padding then putPadding n else []) = putPadding n := by
  by_cases hzero : getPaddingSize n = 0
  · have hnil : putPadding n = [] := putPadding_eq_nil_iff.mpr (getPaddingSize_eq_zero_iff.mp hzero)
    rw [hnil, ite_self]
  · have hset : (ofSize count packetType n).padding = true := bne_iff_ne.mpr hzero
    rw [if_pos hset]

/-! ## Frames -/

/-- `bytes` are the header `h` and a content of the length that it announces. -/
def Framed (h : Header) (content bytes : List Byte) : Prop :=
  ∃ head, h.marshalTo 4 = .ok head ∧ bytes = head ++ content ∧ h.length.toNat * 4 = content.length

variable {available : Nat} {bytes : List Byte} {n : TransportLayerNack}

theorem Header.marshalTo_four {h : Header} {head : List Byte}
    (hm : h.marshalTo available = .ok head) : h.marshalTo 4 = .ok head := by
  rw [marshalTo] at hm ⊢
  split at hm
  · cases hm
  · rename_i hcount
    split at hm
    · cases hm
    · rw [if_neg hcount, if_neg (by omega), ← hm]

theorem Header.body_of_frame {h : Header} {rawSize : Nat} {body : Except Error (List Byte)}
    (hm : h.frame rawSize available body = .ok bytes) : ∃ content, body = .ok content := by
  cases body with
  | ok content => exact ⟨content, rfl⟩
  | error e =>
    rw [frame] at hm
    cases hhead : h.marshalTo available with
    | error e =>
      rw [hhead] at hm
      cases hm
    | ok head =>
      rw [hhead] at hm
      cases hm

/-- The size of a packet fits the length field of its header. -/
def SizeFits (n : Nat) : Prop := (n + getPaddingSize n) / 4 - 1 < 2 ^ 16

namespace Framed

variable {h : Header} {content bytes : List Byte}

section

variable (hf : Framed h content bytes)
include hf

theorem read : Header.unmarshal bytes = .ok h := by
  obtain ⟨head, hhead, rfl, -⟩ := hf
  exact (Header.unmarshal_of_marshalTo hhead content).2

theorem length : bytes.length = 4 + content.length := by
  obtain ⟨head, hhead, rfl, -⟩ := hf
  rw [List.length_append, (Header.unmarshal_of_marshalTo hhead content).1]

theorem drop : bytes.drop 4 = content := by
  obtain ⟨head, hhead, rfl, -⟩ := hf
  rw [← (Header.unmarshal_of_marshalTo hhead content).1, List.drop_left]

theorem length_mul : h.length.toNat * 4 = content.length := by
  obtain ⟨head, -, -, hlen⟩ := hf
  exact hlen

theorem unmarshaller_append (rest : List Byte) :
    unmarshaller (bytes ++ rest) =
      Packet.decode h bytes >>= fun r => .ok (r.1, r.2 ++ rest) := by
  obtain ⟨head, hhead, rfl, hlen⟩ := hf
  obtain ⟨hfour, hread⟩ := Header.unmarshal_of_marshalTo hhead (content ++ rest)
  have hdrop : (head ++ content ++ rest).drop 4 = content ++ rest := by
    rw [List.append_assoc, ← hfour, List.drop_left]
  rw [unmarshaller, List.append_assoc, hread]
  dsimp only
  rw [← List.append_assoc, hdrop, if_neg (by rw [List.length_append]; omega), hhead, hlen]
  rw [List.take_left, List.drop_left]

end

theorem of_frame {count : Byte} {packetType : PacketType} {n available : Nat} {content : List Byte}
    (hm : (Header.ofSize count packetType n).frame n available (.ok content) = .ok bytes)
    (hlen : content.length + 4 = n) (hfit : SizeFits n) :
    Framed (.ofSize count packetType n) (content ++ putPadding n) bytes := by
  rw [Header.frame, Header.ofSize_putPadding] at hm
  cases hhead : (Header.ofSize count packetType n).marshalTo available with
  | error e =>
    rw [hhead] at hm
    cases hm
  | ok head =>
    rw [hhead] at hm
    refine ⟨head, Header.marshalTo_four hhead, (Except.ok.inj hm).symm, ?_⟩
    have hmod := getPaddingSize_mod n
    have hlength : (Header.ofSize count packetType n).length.toNat =
        (n + getPaddingSize n) / 4 - 1 := by
      rw [Header.ofSize, BitVec.toNat_ofNat, Nat.mod_eq_of_lt hfit]
    rw [hlength, List.length_append, length_putPadding]
    omega

end Framed

/-! ## Reception reports -/

namespace ReceptionReport

/-- The report that its bytes give back: the total keeps its lowest 24 bits. -/
def cut (r : ReceptionReport) : ReceptionReport :=
  { r with totalLost := BitVec.ofNat 32 (r.totalLost.toNat % 2 ^ 24) }

theorem cut_eq_self_iff {r : ReceptionReport} : r.cut = r ↔ r.totalLost.toNat < 2 ^ 24 := by
  have hlt : r.totalLost.toNat % 2 ^ 24 < 2 ^ 32 :=
    (Nat.mod_lt _ (by decide)).trans (by decide)
  constructor
  · intro hcut
    have hlost : (BitVec.ofNat 32 (r.totalLost.toNat % 2 ^ 24)).toNat = r.totalLost.toNat :=
      congrArg (fun r => r.totalLost.toNat) hcut
    rw [BitVec.toNat_ofNat, Nat.mod_eq_of_lt hlt] at hlost
    omega
  · intro hsmall
    have hlost : BitVec.ofNat 32 (r.totalLost.toNat % 2 ^ 24) = r.totalLost := by
      rw [Nat.mod_eq_of_lt hsmall, BitVec.ofNat_toNat, BitVec.setWidth_eq]
    rw [cut, hlost]

variable {rs : List ReceptionReport}

theorem map_cut_eq_self_iff : rs.map cut = rs ↔ ∀ r ∈ rs, r.totalLost.toNat < 2 ^ 24 := by
  have hiff : rs.map cut = rs.map id ↔ ∀ r ∈ rs, r.cut = r := List.map_inj_left
  rw [List.map_id] at hiff
  simp only [hiff, cut_eq_self_iff]

theorem length_put (r : ReceptionReport) : r.put.length = 24 := by
  simp [put, length_toBe32]

theorem length_flatMap_put (rs : List ReceptionReport) : (rs.flatMap put).length = rs.length * 24 := by
  induction rs with
  | nil => rfl
  | cons r rs ih => rw [List.flatMap_cons, List.length_append, ih, length_put, List.length_cons]; omega

theorem totalLost_bytes (x : BitVec 32) :
    (x.extractLsb' 0 8).setWidth 32 ||| (x.extractLsb' 8 8).setWidth 32 <<< 8 |||
      (x.extractLsb' 16 8).setWidth 32 <<< 16 = BitVec.ofNat 32 (x.toNat % 2 ^ 24) := by
  have hcut : BitVec.ofNat 32 (x.toNat % 2 ^ 24) = (x.setWidth 24).setWidth 32 := by
    apply BitVec.eq_of_toNat_eq
    simp
  rw [hcut]
  ext i hi
  simp only [BitVec.getElem_or, BitVec.getElem_shiftLeft, BitVec.getElem_setWidth,
    BitVec.getLsbD_setWidth, BitVec.getLsbD_extractLsb']
  by_cases h8 : i < 8
  · have h16 : i < 16 := by omega
    have h24 : i < 24 := by omega
    simp [h8, h16, h24, hi]
  · by_cases h16 : i < 16
    · have h24 : i < 24 := by omega
      have hlow : i - 8 < 8 := by omega
      have hadd : 8 + (i - 8) = i := by omega
      simp [h8, h16, h24, hi, hlow, hadd]
    · by_cases h24 : i < 24
      · have hmid : ¬ i - 8 < 8 := by omega
        have hlow : i - 16 < 8 := by omega
        have hadd : 16 + (i - 16) = i := by omega
        simp [h8, h16, h24, hi, hlow, hmid, hadd]
      · have hmid : ¬ i - 8 < 8 := by omega
        have hlow : ¬ i - 16 < 8 := by omega
        simp [h8, h16, h24, hi, hlow, hmid]

theorem unmarshal_put (r : ReceptionReport) (rest : List Byte) :
    unmarshal (r.put ++ rest) = .ok (r.cut, rest) := by
  have hlen : ¬ (r.put ++ rest).length < 24 := by
    rw [List.length_append, length_put]
    omega
  rw [unmarshal, if_neg hlen, put]
  simp only [List.append_assoc, List.cons_append, Parse.getU32_toBe32, Parse.ok_bind, Parse.getU8,
    totalLost_bytes]
  rfl

theorem getMany_put {rawLen : Nat} (rs : List ReceptionReport) {offset : Nat} (rest : List Byte)
    (hroom : offset + rs.length * 24 ≤ rawLen) :
    getMany rawLen rs.length offset (rs.flatMap put ++ rest) = .ok (rs.map cut, rest) := by
  induction rs generalizing offset with
  | nil => rfl
  | cons r rs ih =>
    rw [List.length_cons] at hroom
    rw [List.length_cons, getMany, if_neg (by omega), List.flatMap_cons, List.append_assoc,
      unmarshal_put, Parse.ok_bind]
    dsimp only
    rw [ih (by omega), Parse.ok_bind]
    rfl

theorem putAll_eq {available : Nat} {bytes : List Byte}
    (hm : Emit.putAll marshalTo available rs = .ok bytes) : bytes = rs.flatMap put := by
  refine (Emit.putAll_eq_flatMap (P := fun _ => True) hm ?_).1
  intro r available bytes hr
  rw [marshalTo] at hr
  split at hr
  · cases hr
  · split at hr
    · cases hr
    · exact ⟨(Except.ok.inj hr).symm, trivial⟩

end ReceptionReport

theorem toNat_count {n : Nat} (h : ¬ 31 < n) : (BitVec.ofNat 8 n).toNat = n := by
  rw [BitVec.toNat_ofNat]
  omega

theorem ReceptionReport.body_eq {rs : List ReceptionReport}
    {build : List Byte → List Byte} {content : List Byte} (hm : (do
    let reports ← Emit.putAll ReceptionReport.marshalTo available rs
    .ok (build reports)) = Except.ok content) : content = build (rs.flatMap ReceptionReport.put) := by
  cases hreports : Emit.putAll ReceptionReport.marshalTo available rs with
  | error e =>
    rw [hreports] at hm
    cases hm
  | ok reports =>
    rw [hreports] at hm
    rw [← putAll_eq hreports]
    exact (Except.ok.inj hm).symm

namespace SenderReport

/-- The report that a written report is read back as. -/
def readBack (p : SenderReport) : SenderReport :=
  { p with
    reports := p.reports.map ReceptionReport.cut
    profileExtensions := p.profileExtensions ++ putPadding p.rawSize }

variable {p : SenderReport}

theorem readBack_eq_self_iff : p.readBack = p ↔
    (∀ r ∈ p.reports, r.totalLost.toNat < 2 ^ 24) ∧ p.profileExtensions.length % 4 = 0 := by
  have hpad : p.rawSize % 4 = 0 ↔ p.profileExtensions.length % 4 = 0 := by
    rw [rawSize]
    omega
  rw [← ReceptionReport.map_cut_eq_self_iff, ← hpad, ← putPadding_eq_nil_iff]
  constructor
  · intro heq
    exact ⟨congrArg SenderReport.reports heq,
      List.append_right_eq_self.mp (congrArg SenderReport.profileExtensions heq)⟩
  · rintro ⟨hreports, hnil⟩
    rw [readBack, hreports, hnil, List.append_nil]

theorem unmarshal_of_marshalTo {available : Nat} {bytes : List Byte}
    (hm : p.marshalTo available = .ok bytes) (hfit : SizeFits p.rawSize) :
    (∃ content, Framed p.header content bytes) ∧ unmarshal bytes = .ok (p.readBack, []) := by
  rw [marshalTo] at hm
  split at hm
  · cases hm
  rename_i hmany
  split at hm
  · cases hm
  obtain ⟨content, hbody⟩ := Header.body_of_frame hm
  rw [hbody] at hm
  obtain rfl := ReceptionReport.body_eq hbody
  have hframed := Framed.of_frame hm (by
    simp only [List.length_append, length_toBe32, length_toBe64,
      ReceptionReport.length_flatMap_put, rawSize]
    omega) hfit
  have hlen := hframed.length
  simp only [List.length_append, length_toBe32, length_toBe64,
    ReceptionReport.length_flatMap_put] at hlen
  have hcount : p.header.count.toNat = p.reports.length := toNat_count hmany
  have hread : Header.unmarshal bytes = .ok p.header := hframed.read
  refine ⟨⟨_, hframed⟩, ?_⟩
  rw [unmarshal, if_neg (by omega), hread]
  dsimp only
  rw [if_neg (by simp [header, Header.ofSize]), hframed.drop, hcount]
  simp only [List.append_assoc, Parse.getU32_toBe32, Parse.getU64_toBe64, Parse.ok_bind]
  rw [ReceptionReport.getMany_put p.reports _ (by omega), Parse.ok_bind]
  rfl

end SenderReport

namespace ReceiverReport

/-- The report that a written report is read back as. -/
def readBack (p : ReceiverReport) : ReceiverReport :=
  { p with
    reports := p.reports.map ReceptionReport.cut
    profileExtensions := p.profileExtensions ++ putPadding p.rawSize }

variable {p : ReceiverReport}

theorem readBack_eq_self_iff : p.readBack = p ↔
    (∀ r ∈ p.reports, r.totalLost.toNat < 2 ^ 24) ∧ p.profileExtensions.length % 4 = 0 := by
  have hpad : p.rawSize % 4 = 0 ↔ p.profileExtensions.length % 4 = 0 := by
    rw [rawSize]
    omega
  rw [← ReceptionReport.map_cut_eq_self_iff, ← hpad, ← putPadding_eq_nil_iff]
  constructor
  · intro heq
    exact ⟨congrArg ReceiverReport.reports heq,
      List.append_right_eq_self.mp (congrArg ReceiverReport.profileExtensions heq)⟩
  · rintro ⟨hreports, hnil⟩
    rw [readBack, hreports, hnil, List.append_nil]

theorem unmarshal_of_marshalTo {available : Nat} {bytes : List Byte}
    (hm : p.marshalTo available = .ok bytes) (hfit : SizeFits p.rawSize) :
    (∃ content, Framed p.header content bytes) ∧ unmarshal bytes = .ok (p.readBack, []) := by
  rw [marshalTo] at hm
  split at hm
  · cases hm
  rename_i hmany
  split at hm
  · cases hm
  obtain ⟨content, hbody⟩ := Header.body_of_frame hm
  rw [hbody] at hm
  obtain rfl := ReceptionReport.body_eq hbody
  have hframed := Framed.of_frame hm (by
    simp only [List.length_append, length_toBe32, ReceptionReport.length_flatMap_put, rawSize]
    omega) hfit
  have hlen := hframed.length
  simp only [List.length_append, length_toBe32, ReceptionReport.length_flatMap_put] at hlen
  have hcount : p.header.count.toNat = p.reports.length := toNat_count hmany
  have hread : Header.unmarshal bytes = .ok p.header := hframed.read
  refine ⟨⟨_, hframed⟩, ?_⟩
  rw [unmarshal, if_neg (by omega), hread]
  dsimp only
  rw [if_neg (by simp [header, Header.ofSize]), hframed.drop, hcount]
  simp only [List.append_assoc, Parse.getU32_toBe32, Parse.ok_bind]
  rw [ReceptionReport.getMany_put p.reports _ (by omega), Parse.ok_bind]
  rfl

end ReceiverReport

/-! ## Source descriptions -/

namespace SourceDescriptionItem

def Fits (item : SourceDescriptionItem) : Prop :=
  item.sdesType ≠ .sdesEnd ∧ item.text.length ≤ 255

theorem length_put (item : SourceDescriptionItem) : item.put.length = item.marshalSize := by
  rw [put, marshalSize, List.length_cons, List.length_cons]
  omega

variable {item : SourceDescriptionItem}

theorem marshalTo_eq_ok {available : Nat} {bytes : List Byte}
    (hm : item.marshalTo available = .ok bytes) : bytes = item.put ∧ item.Fits := by
  rw [marshalTo] at hm
  split at hm
  · cases hm
  rename_i htype
  split at hm
  · cases hm
  split at hm
  · cases hm
  rename_i htext
  exact ⟨(Except.ok.inj hm).symm, htype, Nat.le_of_not_lt htext⟩

theorem unmarshal_put (hfits : item.Fits) (rest : List Byte) :
    unmarshal (item.put ++ rest) = .ok (item, rest) := by
  obtain ⟨htype, htext⟩ := hfits
  have hcount : (BitVec.ofNat 8 item.text.length).toNat = item.text.length := by
    rw [BitVec.toNat_ofNat]
    omega
  have hlen : (item.put ++ rest).length = 2 + item.text.length + rest.length := by
    rw [List.length_append, length_put, marshalSize]
  rw [unmarshal]
  simp only [hlen]
  rw [if_neg (by omega), put]
  simp only [List.cons_append, Parse.getU8, Parse.ok_bind, SdesType.ofByte_toByte]
  rw [if_neg htype, if_neg (by omega), hcount, if_neg (by omega), Parse.copyToBytes_append,
    Parse.ok_bind]

end SourceDescriptionItem

namespace SourceDescriptionChunk

def put (c : SourceDescriptionChunk) : List Byte :=
  toBe32 c.source ++ (c.items.flatMap SourceDescriptionItem.put ++
    (SdesType.sdesEnd.toByte :: putPadding c.rawSize))

def Fits (c : SourceDescriptionChunk) : Prop := ∀ item ∈ c.items, item.Fits

theorem length_flatMap_put (items : List SourceDescriptionItem) :
    (items.flatMap SourceDescriptionItem.put).length = itemsSize items := by
  simp only [List.length_flatMap, SourceDescriptionItem.length_put, itemsSize]

theorem length_put (c : SourceDescriptionChunk) : c.put.length = c.marshalSize := by
  simp only [put, marshalSize, rawSize, List.length_append, List.length_cons, length_toBe32,
    length_flatMap_put, length_putPadding]
  omega

variable {c : SourceDescriptionChunk}

theorem marshalTo_eq_ok {available : Nat} {bytes : List Byte}
    (hm : c.marshalTo available = .ok bytes) : bytes = c.put ∧ c.Fits := by
  rw [marshalTo] at hm
  split at hm
  · cases hm
  cases hitems : Emit.putAll SourceDescriptionItem.marshalTo (available - 4) c.items with
  | error e =>
    rw [hitems] at hm
    cases hm
  | ok items =>
    rw [hitems] at hm
    obtain ⟨rfl, hfits⟩ := Emit.putAll_eq_flatMap hitems
      fun _ _ _ => SourceDescriptionItem.marshalTo_eq_ok
    exact ⟨(Except.ok.inj hm).symm, hfits⟩

/-- The items of a chunk, the end mark and the padding are read back; the induction keeps the offset of
    the reader, from which the padding is computed. -/
theorem getItems_put {rawPacketLen : Nat} {items : List SourceDescriptionItem}
    (hfits : ∀ item ∈ items, item.Fits) (rest : List Byte) {fuel offset : Nat}
    (hfuel : items.length < fuel) (hroom : offset + itemsSize items < rawPacketLen) :
    getItems rawPacketLen fuel offset (items.flatMap SourceDescriptionItem.put ++
      (SdesType.sdesEnd.toByte :: (putPadding (offset + itemsSize items + 1) ++ rest))) =
      .ok (items, rest) := by
  induction items generalizing fuel offset with
  | nil =>
    obtain ⟨fuel, rfl⟩ : ∃ n, fuel = n + 1 := ⟨fuel - 1, by simp at hfuel; omega⟩
    have hsize : itemsSize [] = 0 := rfl
    rw [hsize] at hroom
    rw [getItems, if_neg (by omega), List.flatMap_nil, List.nil_append, SourceDescriptionItem.unmarshal,
      hsize, Nat.add_zero]
    have hroom' : getPaddingSize (offset + 1) ≤ (putPadding (offset + 1) ++ rest).length := by
      rw [List.length_append, length_putPadding]
      omega
    have hadvance := Parse.advance_append (ε := Error) (putPadding (offset + 1)) rest
    rw [length_putPadding] at hadvance
    simp only [List.length_cons, Nat.lt_one_iff, Nat.add_eq_zero_iff, one_ne_zero,
      and_false, if_false, Parse.getU8, Parse.ok_bind, SdesType.ofByte_toByte, if_true, hroom',
      hadvance]
  | cons item items ih =>
    obtain ⟨fuel, rfl⟩ : ∃ n, fuel = n + 1 := ⟨fuel - 1, by simp at hfuel; omega⟩
    have hitem := hfits item List.mem_cons_self
    have hsize : itemsSize (item :: items) = item.marshalSize + itemsSize items := rfl
    rw [List.length_cons] at hfuel
    rw [hsize] at hroom
    rw [getItems, if_neg (by omega), List.flatMap_cons, List.append_assoc,
      SourceDescriptionItem.unmarshal_put hitem, Parse.ok_bind]
    dsimp only
    rw [if_neg hitem.1, hsize, ← Nat.add_assoc offset,
      ih (fun i hi => hfits i (List.mem_cons_of_mem _ hi)) (by omega) (by omega), Parse.ok_bind]

theorem length_le_itemsSize (items : List SourceDescriptionItem) : items.length ≤ itemsSize items := by
  induction items with
  | nil => exact Nat.le_refl 0
  | cons item items ih =>
    have hsize : itemsSize (item :: items) = item.marshalSize + itemsSize items := rfl
    rw [hsize, List.length_cons, SourceDescriptionItem.marshalSize]
    omega

theorem unmarshal_put (hfits : c.Fits) (rest : List Byte) : unmarshal (c.put ++ rest) = .ok (c, rest) := by
  have hlen : (c.put ++ rest).length = c.rawSize + getPaddingSize c.rawSize + rest.length := by
    rw [List.length_append, length_put, marshalSize]
  have hraw : c.rawSize = 4 + itemsSize c.items + 1 := rfl
  have hmany := length_le_itemsSize c.items
  rw [unmarshal]
  simp only [hlen]
  rw [if_neg (by omega), put]
  simp only [List.append_assoc, Parse.getU32_toBe32, Parse.ok_bind, List.cons_append]
  rw [hraw, getItems_put hfits rest (by omega) (by omega), Parse.ok_bind]

end SourceDescriptionChunk

namespace SourceDescription

variable (chunks : List SourceDescriptionChunk)

theorem length_flatMap_put : (chunks.flatMap SourceDescriptionChunk.put).length = chunksSize chunks := by
  simp only [List.length_flatMap, SourceDescriptionChunk.length_put, chunksSize]

theorem length_le_chunksSize : chunks.length ≤ chunksSize chunks := by
  induction chunks with
  | nil => exact Nat.le_refl 0
  | cons c chunks ih =>
    have hsize : chunksSize (c :: chunks) = c.marshalSize + chunksSize chunks := rfl
    rw [hsize, List.length_cons, SourceDescriptionChunk.marshalSize, SourceDescriptionChunk.rawSize]
    omega

theorem getChunks_put {rawPacketLen : Nat} {chunks : List SourceDescriptionChunk}
    (hfits : ∀ c ∈ chunks, c.Fits) {fuel offset : Nat} (rest : List Byte) (hfuel : chunks.length ≤ fuel)
    (hend : offset + chunksSize chunks = rawPacketLen) :
    getChunks rawPacketLen fuel offset (chunks.flatMap SourceDescriptionChunk.put ++ rest) =
      .ok (chunks, rest) := by
  induction chunks generalizing fuel offset with
  | nil =>
    have hle : rawPacketLen ≤ offset := Nat.le_of_eq hend.symm
    cases fuel <;> rw [getChunks, if_pos hle] <;> rfl
  | cons c chunks ih =>
    obtain ⟨fuel, rfl⟩ : ∃ n, fuel = n + 1 := ⟨fuel - 1, by simp at hfuel; omega⟩
    have hsize : chunksSize (c :: chunks) = c.marshalSize + chunksSize chunks := rfl
    have hpos : 0 < c.marshalSize := by
      rw [SourceDescriptionChunk.marshalSize, SourceDescriptionChunk.rawSize]
      omega
    rw [List.length_cons] at hfuel
    rw [getChunks, if_neg (by omega), List.flatMap_cons, List.append_assoc,
      SourceDescriptionChunk.unmarshal_put (hfits c List.mem_cons_self), Parse.ok_bind]
    dsimp only
    rw [ih (fun d hd => hfits d (List.mem_cons_of_mem _ hd)) (by omega) (by omega), Parse.ok_bind]

theorem chunksSize_mod : chunksSize chunks % 4 = 0 := by
  induction chunks with
  | nil => rfl
  | cons c chunks ih =>
    have hsize : chunksSize (c :: chunks) = c.marshalSize + chunksSize chunks := rfl
    have hmod : c.marshalSize % 4 = 0 := getPaddingSize_mod c.rawSize
    omega

theorem unmarshal_of_marshalTo {p : SourceDescription} {available : Nat} {bytes : List Byte}
    (hm : p.marshalTo available = .ok bytes) (hfit : SizeFits p.rawSize) :
    (∃ content, Framed p.header content bytes) ∧ unmarshal bytes = .ok (p, []) := by
  rw [marshalTo] at hm
  split at hm
  · cases hm
  rename_i hmany
  split at hm
  · cases hm
  obtain ⟨content, hbody⟩ := Header.body_of_frame hm
  rw [hbody] at hm
  obtain ⟨rfl, hfits⟩ := Emit.putAll_eq_flatMap hbody
    fun _ _ _ => SourceDescriptionChunk.marshalTo_eq_ok
  have hraw : p.rawSize = 4 + chunksSize p.chunks := rfl
  have hframed := Framed.of_frame hm (by rw [length_flatMap_put]; omega) hfit
  have hmod := chunksSize_mod p.chunks
  have hpad : putPadding p.rawSize = [] := putPadding_eq_nil_iff.mpr (by omega)
  rw [hpad] at hframed
  have hlen := hframed.length
  rw [List.append_nil, length_flatMap_put] at hlen
  have hmany' := length_le_chunksSize p.chunks
  have hcount : p.header.count.toNat = p.chunks.length := toNat_count hmany
  have hread : Header.unmarshal bytes = .ok p.header := hframed.read
  refine ⟨⟨_, hframed⟩, ?_⟩
  rw [unmarshal, hread]
  dsimp only
  rw [if_neg (by simp [header, Header.ofSize]), hframed.drop,
    getChunks_put hfits [] (by omega) (by omega), Parse.ok_bind]
  rw [if_neg (by rw [hcount]; exact fun h => h rfl)]

end SourceDescription

/-! ## Goodbyes -/

namespace Goodbye

theorem unmarshal_of_marshalTo {p : Goodbye} {available : Nat} {bytes : List Byte}
    (hm : p.marshalTo available = .ok bytes) (hfit : SizeFits p.rawSize) :
    (∃ content, Framed p.header content bytes) ∧ unmarshal bytes = .ok (p, []) := by
  rw [marshalTo] at hm
  split at hm
  · cases hm
  rename_i hmany
  split at hm
  · cases hm
  rename_i hreason
  split at hm
  · cases hm
  have hraw : p.rawSize = 4 + p.sources.length * 4 + (p.reason.length + 1) := rfl
  have hsources : (p.sources.flatMap toBe32).length = p.sources.length * 4 := by
    simp [List.length_flatMap, length_toBe32]
  have hbody : p.body.length + 4 = p.rawSize := by
    rw [body, List.length_append, hsources, List.length_cons]
    omega
  have hframed := Framed.of_frame hm hbody hfit
  have hlen := hframed.length
  rw [List.length_append, length_putPadding] at hlen
  have hpad := getPaddingSize_mod p.rawSize
  have hcount : p.header.count.toNat = p.sources.length := toNat_count hmany
  have hlong : (BitVec.ofNat 8 p.reason.length).toNat = p.reason.length := by
    rw [BitVec.toNat_ofNat]
    omega
  have hread : Header.unmarshal bytes = .ok p.header := hframed.read
  refine ⟨⟨_, hframed⟩, ?_⟩
  rw [unmarshal, hread]
  dsimp only
  rw [if_neg (by simp [header, Header.ofSize]),
    if_neg (by rw [ne_eq, not_not, getPaddingSize_eq_zero_iff]; omega), hcount,
    if_neg (by omega), hframed.drop, body, List.append_assoc,
    Parse.getMany_flatMap (fun x rest => Parse.getU32_toBe32 x rest), Parse.ok_bind]
  rw [getReason, if_pos (by omega)]
  simp only [List.cons_append, Parse.getU8, Parse.ok_bind, hlong]
  rw [if_neg (by omega), Parse.copyToBytes_append, Parse.ok_bind]

end Goodbye

/-! ## Feedback -/

theorem unmarshalSsrcPair_of_marshal {format : Byte} {packetType : PacketType} {senderSsrc mediaSsrc : BitVec 32}
    (hm : marshalSsrcPair format packetType senderSsrc mediaSsrc available = .ok bytes) :
    (∃ content, Framed (.ofSize format packetType 12) content bytes) ∧
      unmarshalSsrcPair format packetType bytes = .ok ((senderSsrc, mediaSsrc), []) := by
  rw [marshalSsrcPair] at hm
  split at hm
  · cases hm
  have hfit : SizeFits 12 := show (12 + getPaddingSize 12) / 4 - 1 < 2 ^ 16 by decide
  have hframed := Framed.of_frame hm rfl hfit
  have hlen := hframed.length
  simp only [List.length_append, length_toBe32, length_putPadding] at hlen
  refine ⟨⟨_, hframed⟩, ?_⟩
  rw [unmarshalSsrcPair, if_neg (by omega), hframed.read]
  dsimp only
  rw [if_neg (by simp [Header.ofSize]), hframed.drop]
  simp only [List.append_assoc, Parse.getU32_toBe32, Parse.ok_bind]

theorem TransportLayerNack.framed (hm : n.marshalTo available = .ok bytes) :
    (∃ content, Framed n.header content bytes) ∧ n.marshal = .ok bytes ∧
      bytes.length = 12 + n.nacks.length * 4 := by
  have hpad := n.getPaddingSize_rawSize
  have hraw : n.rawSize = 12 + n.nacks.length * 4 := by
    rw [rawSize]
  rw [marshalTo] at hm
  split at hm
  · cases hm
  rename_i hfew
  split at hm
  · cases hm
  cases hheader : n.header.marshalTo available with
  | error e =>
    rw [hheader] at hm
    cases hm
  | ok head =>
    have hput : (n.nacks.flatMap NackPair.put).length = n.nacks.length * 4 := by
      simp [List.length_flatMap, NackPair.put, length_toBe16]
    have hfour := Header.marshalTo_four hheader
    have hsize : n.header.marshalTo n.marshalSize = .ok head := by
      rw [Header.marshalTo] at hfour ⊢
      split at hfour
      · cases hfour
      · rename_i hcount
        have hge : ¬ n.marshalSize < 4 := by
          rw [marshalSize]
          omega
        rw [if_neg hcount, if_neg hge, ← hfour]
        rfl
    have hmarshal : n.marshal = .ok bytes := by
      rw [hheader] at hm
      rw [marshal, marshalTo, if_neg hfew, if_neg (Nat.lt_irrefl _), hsize]
      exact hm
    have hlength : n.header.length.toNat = 2 + n.nacks.length := by
      rw [header, marshalSize, hpad, BitVec.toNat_ofNat, Nat.mod_eq_of_lt (by omega)]
      omega
    have hnopad : n.header.padding = false := by
      rw [header, hpad]
      rfl
    rw [hheader, hnopad] at hm
    obtain rfl := Except.ok.inj hm
    refine ⟨⟨toBe32 n.senderSsrc ++ (toBe32 n.mediaSsrc ++ n.nacks.flatMap NackPair.put),
      head, hfour, by simp, ?_⟩, hmarshal, ?_⟩
    · simp only [List.length_append, length_toBe32, hput, hlength]
      omega
    · simp only [List.length_append, length_toBe32, hput,
        (Header.unmarshal_of_marshalTo hfour []).1, Bool.false_eq_true, if_false, List.length_nil]
      omega

theorem TransportLayerNack.unmarshal_of_marshalTo (hm : n.marshalTo available = .ok bytes) :
    unmarshal bytes = if n.nacks = [] then Parse.fail .packetTooShort else .ok n := by
  obtain ⟨-, hmarshal, hlen⟩ := framed hm
  split
  case isTrue hnil =>
    rw [hnil, List.length_nil] at hlen
    rw [unmarshal, if_pos (by omega)]
  case isFalse hne =>
    exact unmarshal_of_marshal hmarshal (List.length_pos_iff.mpr hne)

namespace FullIntraRequest

theorem length_flatMap_put (es : List FirEntry) : (es.flatMap FirEntry.put).length = es.length * 8 := by
  simp [List.length_flatMap, FirEntry.put, length_toBe32]

theorem getEntries_put {stop : Nat} (es : List FirEntry) {fuel i : Nat} (rest : List Byte)
    (hfuel : es.length ≤ fuel) (hend : i + es.length * 8 = stop) :
    getEntries fuel i stop (es.flatMap FirEntry.put ++ rest) = .ok (es, rest) := by
  induction es generalizing fuel i with
  | nil =>
    have hle : stop ≤ i := Nat.le_of_eq hend.symm
    cases fuel <;> rw [getEntries, if_pos hle] <;> rfl
  | cons e es ih =>
    obtain ⟨fuel, rfl⟩ : ∃ n, fuel = n + 1 := ⟨fuel - 1, by simp at hfuel; omega⟩
    rw [List.length_cons] at hfuel hend
    have hlen : ((e :: es).flatMap FirEntry.put ++ rest).length = (es.length + 1) * 8 + rest.length := by
      rw [List.length_append, length_flatMap_put, List.length_cons]
    rw [getEntries, if_neg (by omega), if_neg (by omega), List.flatMap_cons, FirEntry.put]
    simp only [List.append_assoc, Parse.getU32_toBe32, Parse.ok_bind, List.cons_append,
      List.nil_append, Parse.getU8, Parse.getU16]
    rw [ih (by omega) (by omega), Parse.ok_bind]

/-- The three outcomes of reading a written request: it needs an entry, and the end of its entries
    must be below 65536. -/
theorem unmarshal_of_marshalTo {p : FullIntraRequest} {available : Nat} {bytes : List Byte}
    (hm : p.marshalTo available = .ok bytes) (hfit : SizeFits p.rawSize) :
    (∃ content, Framed p.header content bytes) ∧ unmarshal bytes =
      if p.fir = [] then Parse.fail .packetTooShort
      else if 8190 < p.fir.length then .error .panicked
      else .ok (p, []) := by
  rw [marshalTo] at hm
  split at hm
  · cases hm
  have hraw : p.rawSize = 12 + p.fir.length * 8 := rfl
  have hframed := Framed.of_frame hm (by
    simp only [List.length_append, length_toBe32, length_flatMap_put]
    omega) hfit
  have hpad : putPadding p.rawSize = [] := putPadding_eq_nil_iff.mpr (by omega)
  rw [hpad] at hframed
  have hlen := hframed.length
  have hmul : p.header.length.toNat * 4 = _ := hframed.length_mul
  simp only [List.length_append, length_toBe32, length_flatMap_put, List.length_nil] at hlen hmul
  have hread : Header.unmarshal bytes = .ok p.header := hframed.read
  refine ⟨⟨_, hframed⟩, ?_⟩
  by_cases hnil : p.fir = []
  · rw [if_pos hnil]
    rw [hnil, List.length_nil] at hlen
    rw [unmarshal, if_pos (by omega)]
  have hpos : 0 < p.fir.length := List.length_pos_iff.mpr hnil
  rw [if_neg hnil, unmarshal, if_neg (by omega), hread]
  dsimp only
  rw [if_neg (by omega), if_neg (by omega), if_neg (by simp [header, Header.ofSize]), hframed.drop]
  simp only [List.append_assoc, Parse.getU32_toBe32, Parse.ok_bind]
  by_cases hbig : 8190 < p.fir.length
  · rw [if_pos hbig, if_pos (by omega)]
  · rw [if_neg hbig, if_neg (by omega), getEntries_put p.fir [] (by omega) (by omega), Parse.ok_bind]

end FullIntraRequest

theorem SliceLossIndication.framed {p : SliceLossIndication}
    (hm : p.marshalTo available = .ok bytes) (hfit : SizeFits p.rawSize) :
    ∃ content, Framed p.header content bytes := by
  rw [marshalTo] at hm
  split at hm
  · cases hm
  split at hm
  · cases hm
  have hraw : p.rawSize = 12 + p.sliEntries.length * 4 := rfl
  refine ⟨_, Framed.of_frame hm ?_ hfit⟩
  simp only [List.length_append, length_toBe32, List.length_flatMap, List.map_const',
    List.sum_replicate, smul_eq_mul]
  omega

end Rtc.Rtcp
