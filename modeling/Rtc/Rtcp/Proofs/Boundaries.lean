import Rtc.Rtcp.Proofs.DecoderSafety

/-!
# Packet boundaries

A datagram that `unmarshal` accepts is a row of frames, each as long as its header declares, and each packet was
decoded from its own frame (`Splits`). `unmarshal` panics exactly if it reaches a full intra request or a
transport-wide feedback so long that the 16-bit computation in its decoder overflows.
-/

namespace Rtc.Rtcp
open Bytes Shared Parse

/-- A header for which the decoder's 16-bit arithmetic overflows. -/
def Header.Oversized (h : Header) : Prop :=
  (h.packetType = .payloadSpecificFeedback ∧ h.count = formatFir ∧ 16384 ≤ h.length.toNat) ∨
    (h.packetType = .transportSpecificFeedback ∧ h.count = formatTcc ∧ h.length.toNat = 65535)

/-- `frame` is a packet as long as its header declares, and `p` is what the decoder makes of it, with
    nothing left unread. The decoder sees the header as it is written again. -/
structure DecodesTo (frame : List Byte) (p : Packet) : Prop where
  exists_header : ∃ h head, Header.unmarshal frame = .ok h ∧ frame.length = 4 * (h.length.toNat + 1) ∧
    h.marshalTo 4 = .ok head ∧ Packet.decode h (head ++ frame.drop 4) = .ok (p, [])

/-- The bytes are the frames of the packets, one after another. -/
inductive Splits : List Byte → List Packet → Prop
  | nil : Splits [] []
  | cons {frame rest : List Byte} {p : Packet} {ps : List Packet} :
    DecodesTo frame p → Splits rest ps → Splits (frame ++ rest) (p :: ps)

/-- The bytes start with an oversized header, and the packet is there. -/
def StartsOversized (raw : List Byte) : Prop :=
  ∃ h, Header.unmarshal raw = .ok h ∧ 4 * (h.length.toNat + 1) ≤ raw.length ∧ h.Oversized

/-! ## Headers -/

variable {raw inPacket : List Byte} {h : Header}

theorem Header.unmarshal_take {n : Nat} (hn : 4 ≤ n) (hlen : 4 ≤ raw.length) :
    unmarshal (raw.take n) = unmarshal raw := by
  match raw, hlen with
  | a :: b :: c :: d :: rest, _ =>
    obtain ⟨n, rfl⟩ : ∃ m, n = m + 4 := ⟨n - 4, by omega⟩
    have hcut : ¬ ((a :: b :: c :: d :: rest).take (n + 4)).length < 4 := by simp
    have hall : ¬ (a :: b :: c :: d :: rest).length < 4 := by simp
    rw [unmarshal, unmarshal, if_neg hcut, if_neg hall]
    rfl

theorem Header.length_of_unmarshal (hread : unmarshal raw = .ok h) : 4 ≤ raw.length := by
  rw [unmarshal] at hread
  split at hread
  · cases hread
  · omega

theorem Header.exists_marshalTo (hread : unmarshal raw = .ok h) : ∃ head, h.marshalTo 4 = .ok head := by
  have hcount : ¬ 31#8 < h.count := by
    rw [unmarshal] at hread
    split at hread
    · cases hread
    split at hread
    · cases hread
    obtain rfl := Except.ok.inj hread
    have hmask : ∀ b : Byte, ¬ 31#8 < b &&& 0x1F#8 := by decide +kernel
    exact hmask _
  rw [marshalTo, if_neg hcount, if_neg (by omega)]
  exact ⟨_, rfl⟩

/-! ## One packet -/

theorem drains_boxed {α : Type} {box : α → Packet} {p : Parse Error (α × List Byte)}
    (hp : Drains p) : Drains (Packet.boxed box p) :=
  hp.bind fun _ hr => returns_ok hr

/-- On a buffer of the declared length, the selected decoder returns unless the header is oversized. -/
theorem drains_decode (hread : Header.unmarshal inPacket = .ok h)
    (hlen : inPacket.length = 4 * (h.length.toNat + 1)) (hsize : ¬ h.Oversized) :
    Drains (Packet.decode h inPacket) := by
  have hshort := h.length.isLt
  rw [Header.Oversized, not_or] at hsize
  rw [Packet.decode]
  cases htype : h.packetType with
  | senderReport => exact drains_boxed (SenderReport.drains_unmarshal inPacket)
  | receiverReport => exact drains_boxed (ReceiverReport.drains_unmarshal inPacket)
  | sourceDescription => exact drains_boxed (SourceDescription.drains_unmarshal inPacket)
  | goodbye => exact drains_boxed (Goodbye.drains_unmarshal inPacket)
  | transportSpecificFeedback =>
    refine Returns.ite (fun _ => ?_) fun _ => ?_
    · exact (TransportLayerNack.total_unmarshal inPacket).bind fun _ _ => returns_ok rfl
    refine Returns.ite (fun _ => ?_) fun _ => ?_
    · exact drains_boxed (RapidResynchronizationRequest.drains_unmarshal inPacket)
    refine Returns.ite (fun htcc => ?_) fun _ => ?_
    · refine drains_boxed (TransportLayerCc.drains_unmarshal hread ?_)
      have hne : h.length.toNat ≠ 65535 := fun hmax => hsize.2 ⟨htype, htcc, hmax⟩
      omega
    refine Returns.ite (fun _ => ?_) fun _ => ?_
    · exact drains_boxed (CcFeedbackReport.drains_unmarshal hread hlen)
    · exact drains_boxed (drains_unmarshalRawPacket inPacket)
  | payloadSpecificFeedback =>
    refine Returns.ite (fun _ => ?_) fun _ => ?_
    · exact drains_boxed (PictureLossIndication.drains_unmarshal inPacket)
    refine Returns.ite (fun _ => ?_) fun _ => ?_
    · exact drains_boxed (SliceLossIndication.drains_unmarshal inPacket)
    refine Returns.ite (fun _ => ?_) fun _ => ?_
    · exact drains_boxed (ReceiverEstimatedMaximumBitrate.drains_unmarshal inPacket)
    refine Returns.ite (fun hfir => ?_) fun _ => ?_
    · refine drains_boxed (FullIntraRequest.drains_unmarshal hread ?_)
      have hlt : ¬ 16384 ≤ h.length.toNat := fun hbig => hsize.1 ⟨htype, hfir, hbig⟩
      omega
    · exact drains_boxed (drains_unmarshalRawPacket inPacket)
  | extendedReport => exact drains_boxed (ExtendedReport.drains_unmarshal inPacket)
  | unsupported => exact drains_boxed (drains_unmarshalRawPacket inPacket)
  | applicationDefined => exact drains_boxed (drains_unmarshalRawPacket inPacket)

theorem decode_of_oversized (hread : Header.unmarshal inPacket = .ok h)
    (hlen : inPacket.length = 4 * (h.length.toNat + 1)) (hsize : h.Oversized) :
    Packet.decode h inPacket = .error .panicked := by
  have hdrop : (inPacket.drop 4).length = inPacket.length - 4 := List.length_drop
  rw [Packet.decode]
  rcases hsize with ⟨htype, hcount, hbig⟩ | ⟨htype, hcount, hmax⟩
  · have hpanic : FullIntraRequest.unmarshal inPacket = .error .panicked := by
      obtain ⟨_, r1, hr1, hlen1⟩ := @takes_getU32 Error (inPacket.drop 4) (by omega)
      obtain ⟨_, r2, hr2, -⟩ := @takes_getU32 Error r1 (by omega)
      rw [FullIntraRequest.unmarshal, if_neg (by omega), hread]
      dsimp only
      rw [if_neg (by omega), if_neg (by omega), if_neg (by simp [htype, hcount]), hr1, ok_bind]
      rw [hr2, ok_bind, if_pos (by omega)]
    rw [htype, hcount]
    rw [if_neg (by decide), if_neg (by decide), if_neg (by decide), if_pos rfl, hpanic]
    rfl
  · have hpanic : TransportLayerCc.unmarshal inPacket = .error .panicked := by
      rw [TransportLayerCc.unmarshal, if_neg (by omega), hread]
      dsimp only
      rw [if_pos (by omega)]
    rw [htype, hcount]
    rw [if_neg (by decide), if_neg (by decide), if_pos rfl, hpanic]
    rfl

theorem inPacket_spec {head body : List Byte} (hhead : h.marshalTo 4 = .ok head)
    (hbody : body.length = h.length.toNat * 4) :
    Header.unmarshal (head ++ body) = .ok h ∧
      (head ++ body).length = 4 * (h.length.toNat + 1) := by
  obtain ⟨hfour, hread⟩ := Header.unmarshal_of_marshalTo hhead body
  refine ⟨hread, ?_⟩
  rw [List.length_append, hfour, hbody]
  omega

/-- Unless the bytes start with an oversized packet, `unmarshaller` returns, and takes the frame of its
    packet and nothing else. -/
theorem returns_unmarshaller (hsize : ¬ StartsOversized raw) :
    Returns (unmarshaller raw) fun r => ∃ frame, raw = frame ++ r.2 ∧ 4 ≤ frame.length ∧
      DecodesTo frame r.1 := by
  rw [unmarshaller]
  cases hread : Header.unmarshal raw with
  | error e => exact returns_fail e
  | ok h =>
    have hdrop : (raw.drop 4).length = raw.length - 4 := List.length_drop
    have hfour := Header.length_of_unmarshal hread
    obtain ⟨head, hhead⟩ := Header.exists_marshalTo hread
    refine Returns.ite (fun _ => returns_fail _) fun hroom => ?_
    rw [hhead]
    dsimp only
    have hbody : ((raw.drop 4).take (h.length.toNat * 4)).length = h.length.toNat * 4 := by
      rw [List.length_take]
      omega
    obtain ⟨hread', hlen'⟩ := inPacket_spec hhead hbody
    have hnot : ¬ h.Oversized := fun hover => hsize ⟨h, hread, by omega, hover⟩
    cases hdecode : Packet.decode h (head ++ (raw.drop 4).take (h.length.toNat * 4)) with
    | error e =>
      have hsafe := drains_decode hread' hlen' hnot
      rw [hdecode] at hsafe
      cases e with
      | err e => exact returns_fail e
      | panicked => exact hsafe.elim
    | ok r =>
      have hunread : r.2 = [] := (drains_decode hread' hlen' hnot).of_eq_ok hdecode
      obtain ⟨p, unread⟩ := r
      obtain rfl : unread = [] := hunread
      have hframe : raw.take (4 * (h.length.toNat + 1)) ++ (raw.drop 4).drop (h.length.toNat * 4) =
          raw := by
        rw [List.drop_drop, show 4 + h.length.toNat * 4 = 4 * (h.length.toNat + 1) by omega,
          List.take_append_drop]
      have hcut : (raw.take (4 * (h.length.toNat + 1))).length = 4 * (h.length.toNat + 1) := by
        rw [List.length_take]
        omega
      refine returns_ok ⟨raw.take (4 * (h.length.toNat + 1)), hframe.symm, by omega, h, head, ?_, hcut,
        hhead, ?_⟩
      · rw [Header.unmarshal_take (by omega) hfour, hread]
      · rw [List.drop_take, show 4 * (h.length.toNat + 1) - 4 = h.length.toNat * 4 by omega]
        exact hdecode

theorem unmarshaller_of_oversized (hsize : StartsOversized raw) : unmarshaller raw = .error .panicked := by
  obtain ⟨h, hread, hlen, hover⟩ := hsize
  obtain ⟨head, hhead⟩ := Header.exists_marshalTo hread
  have hdrop : (raw.drop 4).length = raw.length - 4 := List.length_drop
  have hbody : ((raw.drop 4).take (h.length.toNat * 4)).length = h.length.toNat * 4 := by
    rw [List.length_take]
    omega
  obtain ⟨hread', hlen'⟩ := inPacket_spec hhead hbody
  rw [unmarshaller, hread]
  dsimp only
  rw [if_neg (by omega), hhead]
  dsimp only
  rw [decode_of_oversized hread' hlen' hover]
  rfl

theorem unmarshaller_append {frame : List Byte} {p : Packet} (hframe : DecodesTo frame p)
    (rest : List Byte) : unmarshaller (frame ++ rest) = .ok (p, rest) := by
  obtain ⟨h, head, hread, hlen, hhead, hdecode⟩ := hframe
  have hread' : Header.unmarshal (frame ++ rest) = .ok h := by
    rw [← Header.unmarshal_take (n := frame.length) (by omega) (by rw [List.length_append]; omega),
      List.take_left, hread]
  have hdrop : (frame ++ rest).drop 4 = frame.drop 4 ++ rest :=
    List.drop_append_of_le_length (by omega)
  have hbody : (frame.drop 4).length = h.length.toNat * 4 := by
    rw [List.length_drop]
    omega
  rw [unmarshaller, hread']
  dsimp only
  rw [hdrop, if_neg (by rw [List.length_append]; omega), hhead, ← hbody]
  dsimp only
  rw [List.take_left, List.drop_left, hdecode, ok_bind]
  rfl

/-! ## The datagram -/

/-- No packet that the loop reaches is oversized. -/
def Moderate (raw : List Byte) : Prop :=
  ∀ front ps tail, raw = front ++ tail → Splits front ps → ¬ StartsOversized tail

theorem Moderate.tail {frame rest : List Byte} {p : Packet} (hraw : Moderate (frame ++ rest))
    (hframe : DecodesTo frame p) : Moderate rest := by
  intro front ps tail hrest hsplits
  refine hraw (frame ++ front) (p :: ps) tail ?_ (.cons hframe hsplits)
  rw [hrest, List.append_assoc]

theorem returns_getPackets {fuel : Nat} (hfuel : raw.length ≤ fuel)
    (hraw : Moderate raw) : Returns (getPackets fuel raw) fun ps => Splits raw ps := by
  induction fuel generalizing raw with
  | zero =>
    obtain rfl : raw = [] := List.length_eq_zero_iff.mp (Nat.le_zero.mp hfuel)
    exact returns_ok .nil
  | succ fuel ih =>
    cases raw with
    | nil => exact returns_ok .nil
    | cons b bs =>
      rw [getPackets]
      refine (returns_unmarshaller (hraw [] [] (b :: bs) rfl .nil)).bind ?_
      rintro ⟨p, rest⟩ ⟨frame, hcut, hlen, hframe⟩
      dsimp only at hcut hframe ⊢
      have hshort : rest.length ≤ fuel := by
        have htotal := congrArg List.length hcut
        rw [List.length_append] at htotal
        omega
      rw [hcut] at hraw ⊢
      refine (ih hshort (hraw.tail hframe)).bind fun ps hps => ?_
      exact returns_ok (.cons hframe hps)

/-- An oversized packet that the loop reaches makes it panic; the induction is on the packets before
    it. -/
theorem getPackets_of_oversized {fuel : Nat} {front tail : List Byte} {ps : List Packet}
    (hsplits : Splits front ps) (htail : StartsOversized tail) (hfuel : (front ++ tail).length ≤ fuel) :
    getPackets fuel (front ++ tail) = .error .panicked := by
  induction hsplits generalizing fuel with
  | nil =>
    obtain ⟨h, hread, hlen, -⟩ := id htail
    obtain ⟨b, bs, rfl⟩ := List.exists_cons_of_length_pos (show 0 < tail.length by omega)
    rw [List.nil_append] at hfuel ⊢
    cases fuel with
    | zero => exact absurd hfuel (by simp)
    | succ fuel =>
      rw [getPackets, unmarshaller_of_oversized htail]
      rfl
  | @cons frame rest p ps hframe hrest ih =>
    have hlen : 4 ≤ frame.length := by
      obtain ⟨h, head, hread, -⟩ := hframe
      exact Header.length_of_unmarshal hread
    rw [List.append_assoc] at hfuel ⊢
    rw [List.length_append] at hfuel
    obtain ⟨b, bs, hcons⟩ : ∃ b bs, frame ++ (rest ++ tail) = b :: bs :=
      List.exists_cons_of_length_pos (by rw [List.length_append]; omega)
    obtain ⟨fuel, rfl⟩ : ∃ n, fuel = n + 1 := ⟨fuel - 1, by omega⟩
    rw [hcons, getPackets, ← hcons, unmarshaller_append hframe, ok_bind]
    dsimp only
    rw [ih (by omega)]
    rfl

/-- Parsing returns, and on success every packet was decoded from its own frame, exactly if no packet
    that the parser reaches is oversized. -/
theorem unmarshal_splits_iff (raw : List Byte) :
    (Safe (unmarshal raw) ∧ ∀ ps, unmarshal raw = .ok ps → Splits raw ps) ↔ Moderate raw := by
  constructor
  · rintro ⟨hsafe, -⟩ front ps tail rfl hsplits htail
    apply hsafe
    rw [unmarshal, getPackets_of_oversized hsplits htail (Nat.le_refl _)]
    rfl
  · intro hraw
    have hreturns : Returns (unmarshal raw) fun ps => Splits raw ps := by
      refine (returns_getPackets (Nat.le_refl _) hraw).bind fun ps hps => ?_
      cases ps with
      | nil => exact returns_fail _
      | cons p ps => exact returns_ok hps
    exact ⟨hreturns.safe, fun ps hps => hreturns.of_eq_ok hps⟩

/-- A full intra request of 16384 words after its header. -/
def longRequest : List Byte := [0x84#8, 206#8, 0x40#8, 0#8] ++ List.replicate 65536 0#8

/-- The end of its entries does not fit 16 bits. -/
theorem unmarshal_longRequest : unmarshal longRequest = .error .panicked := by
  have hlen : longRequest.length = 65540 := by
    rw [longRequest, List.length_append, List.length_replicate]
    rfl
  have hread : Header.unmarshal longRequest =
      .ok ⟨false, formatFir, .payloadSpecificFeedback, 0x4000#16⟩ := by
    rw [Header.unmarshal, if_neg (by omega)]
    rfl
  have hstarts : StartsOversized longRequest := by
    refine ⟨_, hread, ?_, Or.inl ⟨rfl, rfl, by decide⟩⟩
    rw [hlen]
    decide
  rw [unmarshal, ← List.nil_append longRequest,
    getPackets_of_oversized .nil hstarts (Nat.le_refl _)]
  rfl

end Rtc.Rtcp
