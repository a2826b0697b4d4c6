import Rtc.Rtcp.Packet

/-!
# The decoders stay inside their packet

Every decoder returns without a panic and leaves nothing of its packet unread (`Drains`), two of them only while their
16-bit computations with the length do not overflow.
-/

namespace Rtc.Rtcp
open Bytes Shared Parse

/-- The decoder returns, and nothing is left to read. -/
def Drains {α : Type} (p : Parse Error (α × List Byte)) : Prop := Returns p fun r => r.2 = []

def Total {α : Type} (p : Parse Error α) : Prop := Returns p fun _ => True

variable {α : Type} {raw reader : List Byte} {fuel : Nat} {h : Header}
  {f : (XrHeader × Nat) × List Byte → Parse Error (α × List Byte)} (rawPacketLen : Nat)

theorem returns_header {f : Header → Parse Error α} {R : α → Prop}
    (hf : ∀ h, (raw.drop 4).length = raw.length - 4 → Returns (f h) R) :
    Returns (match Header.unmarshal raw with | .error e => fail e | .ok h => f h) R := by
  cases Header.unmarshal raw with
  | error e => exact returns_fail e
  | ok h => exact hf h List.length_drop

/-! ## Sender and receiver reports -/

theorem ReceptionReport.takes_unmarshal : Takes 24 unmarshal := by
  intro reader hlen
  rw [unmarshal, if_neg (by omega)]
  revert reader
  exact takes_getU32.bind fun _ => takes_getU8.bind fun _ => takes_getU8.bind fun _ => takes_getU8.bind fun _ =>
    takes_getU8.bind fun _ => takes_getU32.bind fun _ => takes_getU32.bind fun _ => takes_getU32.bind fun _ =>
    takes_getU32.bind fun _ => takes_ok _

theorem ReceptionReport.total_unmarshal (reader : List Byte) : Total (unmarshal reader) := by
  by_cases hlen : reader.length < 24
  · rw [unmarshal, if_pos hlen]
    exact returns_fail _
  · exact (takes_unmarshal.returns (by omega)).mono fun _ _ => trivial

theorem ReceptionReport.total_getMany (rawLen n offset : Nat) (reader : List Byte) :
    Total (getMany rawLen n offset reader) := by
  induction n generalizing offset reader with
  | zero => exact returns_ok trivial
  | succ n ih =>
    refine Returns.guard fun _ => ?_
    refine (total_unmarshal reader).bind fun r _ => ?_
    refine (ih (offset + 24) r.2).bind fun rs _ => ?_
    exact returns_ok trivial

variable (raw)

theorem SenderReport.drains_unmarshal : Drains (unmarshal raw) := by
  refine Returns.guard fun hlen => ?_
  refine returns_header fun h hdrop => .guard fun _ => ?_
  refine takes_getU32.returns_bind (by omega) fun _ r1 h1 => ?_
  refine takes_getU64.returns_bind (by omega) fun _ r2 h2 => ?_
  refine takes_getU32.returns_bind (by omega) fun _ r3 h3 => ?_
  refine takes_getU32.returns_bind (by omega) fun _ r4 h4 => ?_
  refine takes_getU32.returns_bind (by omega) fun _ r5 h5 => ?_
  refine (ReceptionReport.total_getMany raw.length h.count.toNat 28 r5).bind fun rs _ => ?_
  exact returns_ok rfl

theorem ReceiverReport.drains_unmarshal : Drains (unmarshal raw) := by
  refine Returns.guard fun hlen => ?_
  refine returns_header fun h hdrop => .guard fun _ => ?_
  refine takes_getU32.returns_bind (by omega) fun _ r1 h1 => ?_
  refine (ReceptionReport.total_getMany raw.length h.count.toNat 8 r1).bind fun rs _ => ?_
  exact returns_ok rfl

/-! ## Source descriptions and goodbyes -/

/-- An item takes at least one byte, and as many as its size says unless it is the end mark. -/
theorem SourceDescriptionItem.returns_unmarshal (reader : List Byte) :
    Returns (unmarshal reader) fun r => r.2.length < reader.length ∧
      (r.1.sdesType ≠ .sdesEnd → r.2.length + r.1.marshalSize = reader.length) := by
  refine Returns.guard fun hlen => ?_
  refine takes_getU8.returns_bind (by omega) fun typ r1 h1 => ?_
  refine Returns.ite (fun hend => ?_) fun htype => ?_
  · exact returns_ok ⟨by dsimp only; omega, fun hne => absurd hend hne⟩
  refine Returns.guard fun htwo => ?_
  refine takes_getU8.returns_bind (by omega) fun octetCount r2 h2 => ?_
  refine Returns.guard fun hroom => ?_
  refine returns_copyToBytes_bind (by omega) fun text r3 htext h3 => ?_
  refine returns_ok ⟨by dsimp only; omega, fun _ => ?_⟩
  rw [marshalSize, htext]
  dsimp only
  omega

theorem SourceDescriptionChunk.total_getItems {offset : Nat}
    (hfuel : rawPacketLen ≤ offset + fuel) : Total (getItems rawPacketLen fuel offset reader) := by
  induction fuel generalizing offset reader with
  | zero =>
    rw [getItems, if_pos (by omega)]
    exact returns_fail _
  | succ fuel ih =>
    refine Returns.guard fun hin => ?_
    refine (SourceDescriptionItem.returns_unmarshal reader).bind ?_
    rintro ⟨item, rest⟩ ⟨hshort, -⟩
    refine Returns.ite (fun _ => ?_) fun _ => ?_
    · refine Returns.ite (fun hpad => ?_) fun _ => returns_fail _
      exact returns_advance_bind hpad fun _ _ => returns_ok trivial
    · have hsize : item.marshalSize = 1 + 1 + item.text.length := rfl
      refine (ih (by omega)).bind fun items _ => ?_
      exact returns_ok trivial

theorem SourceDescriptionChunk.total_unmarshal (reader : List Byte) : Total (unmarshal reader) := by
  refine Returns.guard fun hlen => ?_
  refine takes_getU32.returns_bind (by omega) fun _ r1 h1 => ?_
  refine (total_getItems reader.length (by omega)).bind fun items _ => ?_
  exact returns_ok trivial

theorem SourceDescription.total_getChunks {offset : Nat}
    (hfuel : rawPacketLen ≤ offset + fuel) : Total (getChunks rawPacketLen fuel offset reader) := by
  induction fuel generalizing offset reader with
  | zero =>
    rw [getChunks, if_pos (by omega)]
    exact returns_ok trivial
  | succ fuel ih =>
    refine Returns.ite (fun _ => returns_ok trivial) fun hin => ?_
    refine (SourceDescriptionChunk.total_unmarshal reader).bind ?_
    rintro ⟨chunk, rest⟩ -
    have hsize : 5 ≤ chunk.marshalSize := by
      rw [SourceDescriptionChunk.marshalSize, SourceDescriptionChunk.rawSize]
      omega
    refine (ih (by omega)).bind fun chunks _ => ?_
    exact returns_ok trivial

theorem SourceDescription.drains_unmarshal : Drains (unmarshal raw) := by
  rw [unmarshal]
  refine returns_header fun h _ => .guard fun _ => ?_
  refine (total_getChunks raw.length (by omega)).bind fun chunks _ => ?_
  exact Returns.ite (fun _ => returns_fail _) fun _ => returns_ok rfl

theorem Goodbye.drains_unmarshal : Drains (unmarshal raw) := by
  rw [unmarshal]
  refine returns_header fun h hdrop => .guard fun _ => ?_
  refine Returns.guard fun _ => ?_
  refine Returns.guard fun hroom => ?_
  refine (takes_getU32.getMany _).returns_bind (by omega) fun sources r1 h1 => ?_
  refine Returns.bind (R := fun _ => True) ?_ fun _ _ => returns_ok rfl
  refine Returns.ite (fun hreason => ?_) fun _ => returns_ok trivial
  refine takes_getU8.returns_bind (by omega) fun reasonLen r2 h2 => ?_
  refine Returns.guard fun hlong => ?_
  rw [copyToBytes, if_pos (by omega)]
  exact returns_ok trivial

/-! ## Feedback -/

theorem drains_unmarshalSsrcPair (format : Byte) (packetType : PacketType) (raw : List Byte) :
    Drains (unmarshalSsrcPair format packetType raw) := by
  refine Returns.guard fun hlen => ?_
  refine returns_header fun h hdrop => .guard fun _ => ?_
  refine takes_getU32.returns_bind (by omega) fun _ r1 h1 => ?_
  refine takes_getU32.returns_bind (by omega) fun _ r2 h2 => ?_
  exact returns_ok rfl

theorem PictureLossIndication.drains_unmarshal : Drains (unmarshal raw) :=
  (drains_unmarshalSsrcPair _ _ raw).bind fun _ hr => returns_ok hr

theorem RapidResynchronizationRequest.drains_unmarshal : Drains (unmarshal raw) :=
  (drains_unmarshalSsrcPair _ _ raw).bind fun _ hr => returns_ok hr

theorem NackPair.takes_get : Takes 4 get :=
  takes_getU16.bind fun _ => takes_getU16.bind fun _ => takes_ok _

theorem TransportLayerNack.total_unmarshal : Total (unmarshal raw) := by
  refine Returns.guard fun hlen => ?_
  refine returns_header fun h hdrop => .guard fun hroom => ?_
  refine Returns.guard fun _ => ?_
  refine takes_getU32.returns_bind (by omega) fun _ r1 h1 => ?_
  refine takes_getU32.returns_bind (by omega) fun _ r2 h2 => ?_
  exact (NackPair.takes_get.getMany _).returns_bind (by omega) fun nacks r3 h3 => returns_ok trivial

theorem SliceLossIndication.takes_getEntry : Takes 4 getEntry := takes_getU32.bind fun _ => takes_ok _

theorem SliceLossIndication.drains_unmarshal : Drains (unmarshal raw) := by
  refine Returns.guard fun hlen => ?_
  refine returns_header fun h hdrop => .guard fun hroom => ?_
  refine Returns.guard fun _ => ?_
  refine takes_getU32.returns_bind (by omega) fun _ r1 h1 => ?_
  refine takes_getU32.returns_bind (by omega) fun _ r2 h2 => ?_
  exact (takes_getEntry.getMany _).returns_bind (by omega) fun entries r3 h3 => returns_ok rfl

variable {raw}

theorem FullIntraRequest.total_getEntries {i stop : Nat}
    (hfuel : stop ≤ i + fuel) : Total (getEntries fuel i stop reader) := by
  induction fuel generalizing i reader with
  | zero =>
    rw [getEntries, if_pos (by omega)]
    exact returns_ok trivial
  | succ fuel ih =>
    refine Returns.ite (fun _ => returns_ok trivial) fun hin => ?_
    refine Returns.guard fun hlen => ?_
    refine takes_getU32.returns_bind (by omega) fun _ r1 h1 => ?_
    refine takes_getU8.returns_bind (by omega) fun _ r2 h2 => ?_
    refine takes_getU8.returns_bind (by omega) fun _ r3 h3 => ?_
    refine takes_getU16.returns_bind (by omega) fun _ r4 h4 => ?_
    refine (ih (by omega)).bind fun fir _ => ?_
    exact returns_ok trivial

theorem FullIntraRequest.drains_unmarshal
    (hread : Header.unmarshal raw = .ok h) (hsmall : h.length.toNat * 4 < 2 ^ 16) : Drains (unmarshal raw) := by
  refine Returns.guard fun hlen => ?_
  have hdrop : (raw.drop 4).length = raw.length - 4 := List.length_drop
  rw [hread]
  refine Returns.guard fun _ => ?_
  refine Returns.guard fun hroom => ?_
  refine Returns.guard fun _ => ?_
  refine takes_getU32.returns_bind (by omega) fun _ r1 h1 => ?_
  refine takes_getU32.returns_bind (by omega) fun _ r2 h2 => ?_
  dsimp only
  rw [if_neg (by omega)]
  refine (total_getEntries (by omega)).bind fun fir _ => ?_
  exact returns_ok rfl

/-- With enough rounds the loop ends: a nonzero mantissa of at least `2 ^ (23 - fuel)` reaches bit 23. -/
theorem ReceiverEstimatedMaximumBitrate.total_normalise {exp mantissa : Nat}
    (hlow : 2 ^ 23 ≤ mantissa * 2 ^ fuel) (hhigh : mantissa < 2 ^ 24) (hexp : fuel ≤ exp) :
    Total (normalise fuel exp mantissa) := by
  induction fuel generalizing exp mantissa with
  | zero =>
    have hbit : mantissa.testBit 23 = true := by
      rw [Nat.testBit_eq_decide_div_mod_eq, decide_eq_true_eq]
      omega
    rw [normalise, if_pos hbit]
    exact returns_ok trivial
  | succ fuel ih =>
    refine Returns.ite (fun _ => returns_ok trivial) fun hbit => ?_
    have hsmall : mantissa < 2 ^ 23 := by
      rw [Nat.testBit_eq_decide_div_mod_eq, decide_eq_true_eq] at hbit
      omega
    rw [if_neg (by omega)]
    refine ih ?_ (by omega) (by omega)
    rw [Nat.mul_assoc, ← Nat.pow_succ']
    exact hlow

theorem ReceiverEstimatedMaximumBitrate.total_bitrateOf (b17 b18 b19 : Byte) : Total (bitrateOf b17 b18 b19) := by
  have h17 := b17.isLt
  have h18 := b18.isLt
  have h19 := b19.isLt
  refine Returns.ite (fun hne => ?_) fun _ => ?_
  · refine (total_normalise ?_ ?_ ?_).bind fun _ _ => returns_ok trivial
    · omega
    · omega
    · omega
  · exact returns_ok trivial

theorem ReceiverEstimatedMaximumBitrate.drains_unmarshal (raw : List Byte) : Drains (unmarshal raw) := by
  refine Returns.guard fun hlen => ?_
  refine returns_header fun h hdrop => .guard fun _ => ?_
  refine takes_getU32.returns_bind (by omega) fun _ r1 h1 => ?_
  refine takes_getU32.returns_bind (by omega) fun _ r2 h2 => ?_
  refine Returns.guard fun _ => ?_
  refine takes_getU8.returns_bind (by omega) fun _ r3 h3 => ?_
  refine takes_getU8.returns_bind (by omega) fun _ r4 h4 => ?_
  refine takes_getU8.returns_bind (by omega) fun _ r5 h5 => ?_
  refine takes_getU8.returns_bind (by omega) fun _ r6 h6 => ?_
  refine Returns.guard fun _ => ?_
  refine takes_getU8.returns_bind (by omega) fun ssrcsLen r7 h7 => ?_
  refine Returns.guard fun hroom => ?_
  refine takes_getU8.returns_bind (by omega) fun b17 r8 h8 => ?_
  refine takes_getU8.returns_bind (by omega) fun b18 r9 h9 => ?_
  refine takes_getU8.returns_bind (by omega) fun b19 r10 h10 => ?_
  refine (total_bitrateOf b17 b18 b19).bind fun _ _ => ?_
  refine (takes_getU32.getMany _).returns_bind (by omega) fun ssrcs r11 h11 => ?_
  exact returns_ok rfl

/-! ## Congestion control feedback -/

theorem CcFeedbackReportBlock.returns_unmarshalFrom (reader : List Byte) (budget : Nat) :
    Returns (unmarshalFrom reader budget) fun r =>
      r.2.length + r.1.2 = reader.length ∧ 8 ≤ r.1.2 ∧ r.1.2 ≤ budget := by
  refine Returns.guard fun hlen => ?_
  refine takes_getU32.returns_bind (by omega) fun _ r1 h1 => ?_
  refine takes_getU16.returns_bind (by omega) fun _ r2 h2 => ?_
  refine takes_getU16.returns_bind (by omega) fun numReports r3 h3 => ?_
  refine Returns.guard fun hroom => ?_
  have hmetric : Takes 2 getMetric := takes_getU16.bind fun _ => takes_ok _
  have hpadded : numReports.toNat ≤
      (if numReports.toNat % 2 = 0 then numReports.toNat else numReports.toNat + 1) := by
    split <;> omega
  refine (hmetric.getMany _).returns_bind (by omega) fun metrics r4 h4 => ?_
  by_cases hodd : numReports.toNat % 2 = 0
  · rw [if_pos hodd] at hroom ⊢
    dsimp only
    rw [if_neg (by omega), ok_bind]
    exact returns_ok ⟨by dsimp only; omega, by dsimp only; omega, by dsimp only; omega⟩
  · rw [if_neg hodd] at hroom ⊢
    dsimp only
    rw [if_pos (by omega)]
    refine returns_advance_bind (by omega) fun r5 h5 => ?_
    exact returns_ok ⟨by dsimp only; omega, by dsimp only; omega, by dsimp only; omega⟩

theorem CcFeedbackReport.returns_getBlocks {len : Nat} (hfuel : len ≤ fuel) (hlen : len ≤ reader.length) :
    Returns (getBlocks fuel len reader) fun r => r.2.length + len = reader.length := by
  induction fuel generalizing len reader with
  | zero =>
    rw [getBlocks, if_pos (by omega)]
    exact returns_ok (by dsimp only; omega)
  | succ fuel ih =>
    refine Returns.ite (fun hzero => returns_ok (by dsimp only; omega)) fun hpos => ?_
    refine (CcFeedbackReportBlock.returns_unmarshalFrom reader len).bind ?_
    rintro ⟨⟨block, consumed⟩, rest⟩ ⟨hrest, hmin, hmax⟩
    dsimp only at hrest hmin hmax
    refine (ih (by omega) (by omega)).bind ?_
    rintro ⟨blocks, rest'⟩ hrest'
    exact returns_ok (by dsimp only at hrest' ⊢; omega)

theorem CcFeedbackReport.drains_unmarshal
    (hread : Header.unmarshal raw = .ok h) (hexact : raw.length = 4 * (h.length.toNat + 1)) :
    Drains (unmarshal raw) := by
  refine Returns.guard fun hlen => ?_
  have hdrop : (raw.drop 4).length = raw.length - 4 := List.length_drop
  rw [hread]
  refine Returns.guard fun _ => ?_
  refine Returns.guard fun hroom => ?_
  refine takes_getU32.returns_bind (by omega) fun _ r1 h1 => ?_
  refine (returns_getBlocks (by omega) (by omega)).bind ?_
  rintro ⟨blocks, r2⟩ h2
  dsimp only at h2
  refine takes_getU32.returns_bind (by omega) fun _ r3 h3 => ?_
  have hnil : r3 = [] := List.length_eq_zero_iff.mp (by omega)
  exact returns_ok hnil

/-! ## Transport-wide congestion control feedback -/

/-- The chunks are read inside the packet: the position counts what has been read, and it stays in
    front of the end. -/
theorem TransportLayerCc.returns_getChunks (count totalLength : Nat) {pos processed : Nat}
    (hin : pos ≤ totalLength) (hfuel : totalLength < pos + fuel) (hroom : totalLength ≤ pos + reader.length) :
    Returns (getChunks count totalLength fuel pos processed reader) fun r =>
      ∀ c ∈ r.1.1, ∃ b0 b1, c = PacketStatusChunk.ofBytes b0 b1 := by
  induction fuel generalizing pos processed reader with
  | zero => omega
  | succ fuel ih =>
    refine Returns.ite (fun _ => returns_ok nofun) fun _ => ?_
    refine Returns.guard fun hmore => ?_
    refine returns_copyToBytes_bind (by omega) fun part rest hpart hrest => ?_
    obtain ⟨b0, b1, rfl⟩ := List.length_eq_two.mp hpart
    refine (ih (by omega) (by omega) (by omega)).bind fun r hr => ?_
    refine returns_ok (List.forall_mem_cons.mpr ⟨⟨b0, b1, rfl⟩, hr⟩)

theorem RecvDelta.returns_unmarshal (part : List Byte) : Returns (unmarshal part) fun d => 250 ∣ d.delta := by
  match part with
  | [] => exact returns_fail _
  | [_] => exact returns_ok (Int.dvd_mul_right _ _)
  | [_, _] => exact returns_ok (Int.dvd_mul_right _ _)
  | _ :: _ :: _ :: _ => exact returns_fail _

theorem TransportLayerCc.returns_getDeltas (totalLength : Nat) (kinds : List SymbolTypeTcc) {pos : Nat}
    : Returns (getDeltas totalLength pos kinds reader) fun r =>
      r.1.length = kinds.length ∧ ∀ d ∈ r.1, 250 ∣ d.delta := by
  induction kinds generalizing pos reader with
  | nil => exact returns_ok ⟨rfl, nofun⟩
  | cons kind kinds ih =>
    refine Returns.guard fun _ => ?_
    refine (RecvDelta.returns_unmarshal _).bind fun delta hdelta => ?_
    refine ih.bind fun r hr => ?_
    exact returns_ok ⟨congrArg (· + 1) hr.1, List.forall_mem_cons.mpr ⟨hdelta, hr.2⟩⟩

theorem toNat_get24bitsFromBytes (a b c : Byte) :
    (get24bitsFromBytes a b c).toNat = a.toNat * 2 ^ 16 + b.toNat * 2 ^ 8 + c.toNat := by
  have ha := a.isLt
  have hb := b.isLt
  have hc := c.isLt
  simp only [get24bitsFromBytes, BitVec.toNat_add, BitVec.toNat_shiftLeft, BitVec.toNat_setWidth,
    Nat.shiftLeft_eq]
  omega

/-- A feedback that was read: its chunks come from two bytes each, its deltas are multiples of 250
    microseconds, and its reference time has 24 bits. -/
theorem TransportLayerCc.returns_unmarshal
    (hread : Header.unmarshal raw = .ok h) (hsmall : h.length.toNat + 1 < 2 ^ 16) :
    Returns (unmarshal raw) fun r => r.2 = [] ∧
      (∀ c ∈ r.1.packetChunks, ∃ b0 b1, c = PacketStatusChunk.ofBytes b0 b1) ∧
      (∀ d ∈ r.1.recvDeltas, 250 ∣ d.delta) ∧ r.1.referenceTime.toNat < 2 ^ 24 := by
  refine Returns.guard fun hlen => ?_
  have hdrop : (raw.drop 4).length = raw.length - 4 := List.length_drop
  rw [hread]
  refine Returns.ite (fun hbig => absurd hbig (by omega)) fun _ => ?_
  refine Returns.guard fun hmin => ?_
  refine Returns.guard fun hroom => ?_
  refine Returns.guard fun _ => ?_
  refine takes_getU32.returns_bind (by omega) fun _ r1 h1 => ?_
  refine takes_getU32.returns_bind (by omega) fun _ r2 h2 => ?_
  refine takes_getU16.returns_bind (by omega) fun _ r3 h3 => ?_
  refine takes_getU16.returns_bind (by omega) fun _ r4 h4 => ?_
  refine takes_getU8.returns_bind (by omega) fun t0 r5 h5 => ?_
  refine takes_getU8.returns_bind (by omega) fun t1 r6 h6 => ?_
  refine takes_getU8.returns_bind (by omega) fun t2 r7 h7 => ?_
  refine takes_getU8.returns_bind (by omega) fun _ r8 h8 => ?_
  refine (returns_getChunks _ _ (by omega) (by omega) (by omega)).bind fun chunks hchunks => ?_
  refine (returns_getDeltas _ _).bind fun deltas hdeltas => ?_
  refine returns_ok ⟨rfl, hchunks, hdeltas.2, ?_⟩
  have ht0 := t0.isLt
  have ht1 := t1.isLt
  have ht2 := t2.isLt
  rw [toNat_get24bitsFromBytes]
  omega

theorem TransportLayerCc.drains_unmarshal
    (hread : Header.unmarshal raw = .ok h) (hsmall : h.length.toNat + 1 < 2 ^ 16) :
    Drains (unmarshal raw) :=
  (returns_unmarshal hread hsmall).mono fun _ hr => hr.1

/-! ## Extended reports -/

theorem returns_blockStart (lengthOk : Nat → Bool) (reader : List Byte) :
    Returns (blockStart lengthOk reader) fun r =>
      r.2.length + 4 = reader.length ∧ lengthOk r.1.2 = true ∧ r.1.2 ≤ r.2.length := by
  refine Returns.guard fun hlen => ?_
  refine Returns.bind (R := fun r => r.2.length + 4 = reader.length) ?_ ?_
  · refine Returns.guard fun _ => ?_
    refine takes_getU8.returns_bind (by omega) fun _ r1 h1 => ?_
    refine takes_getU8.returns_bind (by omega) fun _ r2 h2 => ?_
    refine takes_getU16.returns_bind (by omega) fun _ r3 h3 => ?_
    exact returns_ok (by dsimp only; omega)
  · rintro ⟨h, rest⟩ hrest
    refine Returns.guard fun _ => ?_
    refine Returns.guard fun hok => ?_
    rw [not_or, Bool.not_eq_true', Bool.not_eq_false] at hok
    exact returns_ok ⟨hrest, hok.1, Nat.le_of_not_lt hok.2⟩

/-- The rest of a block after its start: the parser of the body sees a buffer with the block's bytes. -/
theorem returns_block {lengthOk : Nat → Bool}
    (hf : ∀ h n rest, rest.length + 4 = reader.length → lengthOk n = true → n ≤ rest.length →
    Returns (f ((h, n), rest)) fun r => r.2.length ≤ rest.length) :
    Returns (blockStart lengthOk reader >>= f) fun r => r.2.length + 4 ≤ reader.length := by
  refine (returns_blockStart lengthOk reader).bind ?_
  rintro ⟨⟨h, n⟩, rest⟩ ⟨hrest, hok, hn⟩
  exact (hf h n rest hrest hok hn).mono fun r hr => by
    dsimp only at hrest
    omega

theorem RleReportBlock.returns_unmarshal (reader : List Byte) :
    Returns (unmarshal reader) fun r => r.2.length + 4 ≤ reader.length := by
  refine returns_block fun h n rest hrest hok hn => ?_
  rw [Bool.and_eq_true, decide_eq_true_eq] at hok
  refine takes_getU32.returns_bind (by omega) fun _ r1 h1 => ?_
  refine takes_getU16.returns_bind (by omega) fun _ r2 h2 => ?_
  refine takes_getU16.returns_bind (by omega) fun _ r3 h3 => ?_
  refine (takes_getU16.getMany _).returns_bind (by omega) fun chunks r4 h4 => ?_
  exact returns_ok (by dsimp only; omega)

theorem PacketReceiptTimesReportBlock.returns_unmarshal (reader : List Byte) :
    Returns (unmarshal reader) fun r => r.2.length + 4 ≤ reader.length := by
  refine returns_block fun h n rest hrest hok hn => ?_
  rw [Bool.and_eq_true, decide_eq_true_eq] at hok
  refine takes_getU32.returns_bind (by omega) fun _ r1 h1 => ?_
  refine takes_getU16.returns_bind (by omega) fun _ r2 h2 => ?_
  refine takes_getU16.returns_bind (by omega) fun _ r3 h3 => ?_
  refine (takes_getU32.getMany _).returns_bind (by omega) fun times r4 h4 => ?_
  exact returns_ok (by dsimp only; omega)

theorem DlrrReport.takes_get : Takes 12 get :=
  takes_getU32.bind fun _ => takes_getU32.bind fun _ => takes_getU32.bind fun _ => takes_ok _

theorem DlrrReport.returns_unmarshalBlock (reader : List Byte) :
    Returns (unmarshalBlock reader) fun r => r.2.length + 4 ≤ reader.length := by
  refine returns_block fun h n rest hrest hok hn => ?_
  exact ((takes_get.getMany (n / 12)).returns (by omega)).mono fun _ _ => by omega

theorem returns_block_of_takes {width : Nat} (hf : ∀ h n, Takes width fun rest => f ((h, n), rest)) :
    Returns (blockStart (· == width) reader >>= f) fun r => r.2.length + 4 ≤ reader.length := by
  refine returns_block fun h n rest hrest hok hn => ?_
  rw [beq_iff_eq] at hok
  exact ((hf h n).returns (by omega)).mono fun a ha => by omega

theorem returns_unmarshalReferenceTime (reader : List Byte) :
    Returns (unmarshalReferenceTime reader) fun r => r.2.length + 4 ≤ reader.length :=
  returns_block_of_takes fun _ _ => takes_getU32.bind fun _ => takes_getU32.bind fun _ => takes_ok _

theorem StatisticsSummaryReportBlock.returns_unmarshal (reader : List Byte) :
    Returns (unmarshal reader) fun r => r.2.length + 4 ≤ reader.length :=
  returns_block_of_takes fun _ _ => takes_getU32.bind fun _ => takes_getU16.bind fun _ => takes_getU16.bind fun _ =>
    takes_getU32.bind fun _ => takes_getU32.bind fun _ => takes_getU32.bind fun _ => takes_getU32.bind fun _ =>
    takes_getU32.bind fun _ => takes_getU32.bind fun _ => takes_getU8.bind fun _ => takes_getU8.bind fun _ =>
    takes_getU8.bind fun _ => takes_getU8.bind fun _ => takes_ok _

theorem VoipMetricsReportBlock.returns_unmarshal (reader : List Byte) :
    Returns (unmarshal reader) fun r => r.2.length + 4 ≤ reader.length :=
  returns_block_of_takes fun _ _ => takes_getU32.bind fun _ => takes_getU8.bind fun _ => takes_getU8.bind fun _ =>
    takes_getU8.bind fun _ => takes_getU8.bind fun _ => takes_getU16.bind fun _ => takes_getU16.bind fun _ =>
    takes_getU16.bind fun _ => takes_getU16.bind fun _ => takes_getU8.bind fun _ => takes_getU8.bind fun _ =>
    takes_getU8.bind fun _ => takes_getU8.bind fun _ => takes_getU8.bind fun _ => takes_getU8.bind fun _ =>
    takes_getU8.bind fun _ => takes_getU8.bind fun _ => takes_getU8.bind fun _ => takes_getU8.bind fun _ =>
    takes_getU16.bind fun _ => takes_getU16.bind fun _ => takes_getU16.bind fun _ => takes_ok _

theorem returns_unmarshalUnknown (reader : List Byte) :
    Returns (unmarshalUnknown reader) fun r => r.2.length + 4 ≤ reader.length := by
  refine returns_block fun h n rest hrest hok hn => ?_
  dsimp only
  rw [copyToBytes, if_pos hn]
  exact returns_ok (by rw [List.length_drop]; omega)

theorem ReportBlock.returns_unmarshal (blockType : BlockType) (reader : List Byte) :
    Returns (unmarshal blockType reader) fun r => r.2.length + 4 ≤ reader.length := by
  cases blockType with
  | unknown => exact (returns_unmarshalUnknown reader).bind fun _ hr => returns_ok hr
  | lossRle => exact (RleReportBlock.returns_unmarshal reader).bind fun _ hr => returns_ok hr
  | duplicateRle => exact (RleReportBlock.returns_unmarshal reader).bind fun _ hr => returns_ok hr
  | packetReceiptTimes =>
    exact (PacketReceiptTimesReportBlock.returns_unmarshal reader).bind fun _ hr => returns_ok hr
  | receiverReferenceTime =>
    exact (returns_unmarshalReferenceTime reader).bind fun _ hr => returns_ok hr
  | dlrr => exact (DlrrReport.returns_unmarshalBlock reader).bind fun _ hr => returns_ok hr
  | statisticsSummary =>
    exact (StatisticsSummaryReportBlock.returns_unmarshal reader).bind fun _ hr => returns_ok hr
  | voipMetrics =>
    exact (VoipMetricsReportBlock.returns_unmarshal reader).bind fun _ hr => returns_ok hr

theorem ExtendedReport.drains_getReports {offset : Nat}
    (hfuel : reader.length ≤ fuel) : Drains (getReports rawPacketLen fuel offset reader) := by
  induction fuel generalizing offset reader with
  | zero =>
    have hnil : reader.length = 0 := Nat.le_zero.mp hfuel
    rw [getReports, if_pos hnil]
    exact returns_ok (List.length_eq_zero_iff.mp hnil)
  | succ fuel ih =>
    refine Returns.ite (fun hnil => returns_ok (List.length_eq_zero_iff.mp hnil)) fun hne => ?_
    refine Returns.guard fun _ => ?_
    obtain ⟨b, bs, rfl⟩ := List.exists_cons_of_length_pos (Nat.pos_of_ne_zero hne)
    refine (ReportBlock.returns_unmarshal (BlockType.ofByte b) (b :: bs)).bind ?_
    rintro ⟨report, rest⟩ hrest
    dsimp only at hrest
    exact (ih (by omega)).bind fun _ hr => returns_ok hr

theorem ExtendedReport.drains_unmarshal (raw : List Byte) : Drains (unmarshal raw) := by
  refine Returns.guard fun hlen => ?_
  refine returns_header fun h hdrop => .guard fun _ => ?_
  refine takes_getU32.returns_bind (by omega) fun _ r1 h1 => ?_
  exact (drains_getReports raw.length (by omega)).bind fun _ hr => returns_ok hr

theorem drains_unmarshalRawPacket (raw : List Byte) : Drains (unmarshalRawPacket raw) := by
  refine Returns.guard fun _ => ?_
  refine returns_header fun h _ => ?_
  cases h.marshalTo 4 with
  | error e => exact returns_fail e
  | ok head => exact returns_ok rfl

end Rtc.Rtcp
