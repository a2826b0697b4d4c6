import Rtc.Rtcp.Proofs.ReportRoundTrip

/-!
# Compound datagrams of reports and feedback

`unmarshal` gives the packets of a datagram back exactly if each of them survives on its own (`Survives`): no loss
total above 24 bits, no profile extension that needs padding, no empty NACK, a full intra request with 1 to 8190
entries, and no slice loss indication, which is written under another packet type.
-/

namespace Rtc.Rtcp
open Bytes Shared

inductive Report where
  | senderReport (p : SenderReport)
  | receiverReport (p : ReceiverReport)
  | sourceDescription (p : SourceDescription)
  | goodbye (p : Goodbye)
  | transportLayerNack (p : TransportLayerNack)
  | rapidResynchronizationRequest (p : RapidResynchronizationRequest)
  | pictureLossIndication (p : PictureLossIndication)
  | sliceLossIndication (p : SliceLossIndication)
  | fullIntraRequest (p : FullIntraRequest)
  deriving DecidableEq, Repr

namespace Report

def toPacket : Report → Packet
  | senderReport p => .senderReport p
  | receiverReport p => .receiverReport p
  | sourceDescription p => .sourceDescription p
  | goodbye p => .goodbye p
  | transportLayerNack p => .transportLayerNack p
  | rapidResynchronizationRequest p => .rapidResynchronizationRequest p
  | pictureLossIndication p => .pictureLossIndication p
  | sliceLossIndication p => .sliceLossIndication p
  | fullIntraRequest p => .fullIntraRequest p

/-- The `raw_size` of a packet. -/
def rawSize : Report → Nat
  | senderReport p => p.rawSize
  | receiverReport p => p.rawSize
  | sourceDescription p => p.rawSize
  | goodbye p => p.rawSize
  | transportLayerNack p => p.rawSize
  | rapidResynchronizationRequest _ => 12
  | pictureLossIndication _ => 12
  | sliceLossIndication p => p.rawSize
  | fullIntraRequest p => p.rawSize

/-- The `header` of a packet. -/
def header : Report → Header
  | senderReport p => p.header
  | receiverReport p => p.header
  | sourceDescription p => p.header
  | goodbye p => p.header
  | transportLayerNack p => p.header
  | rapidResynchronizationRequest _ => .ofSize formatRrr .transportSpecificFeedback 12
  | pictureLossIndication _ => .ofSize formatPli .payloadSpecificFeedback 12
  | sliceLossIndication p => p.header
  | fullIntraRequest p => p.header

instance : Marshal Report where
  marshalSize p := p.rawSize + getPaddingSize p.rawSize
  marshalTo
    | senderReport p => p.marshalTo
    | receiverReport p => p.marshalTo
    | sourceDescription p => p.marshalTo
    | goodbye p => p.marshalTo
    | transportLayerNack p => p.marshalTo
    | rapidResynchronizationRequest p => p.marshalTo
    | pictureLossIndication p => p.marshalTo
    | sliceLossIndication p => p.marshalTo
    | fullIntraRequest p => p.marshalTo

/-- What it takes for a packet to come back from the dispatcher. -/
def Survives : Report → Prop
  | senderReport p =>
    (∀ r ∈ p.reports, r.totalLost.toNat < 2 ^ 24) ∧ p.profileExtensions.length % 4 = 0
  | receiverReport p =>
    (∀ r ∈ p.reports, r.totalLost.toNat < 2 ^ 24) ∧ p.profileExtensions.length % 4 = 0
  | transportLayerNack p => p.nacks ≠ []
  | sliceLossIndication _ => False
  | fullIntraRequest p => 1 ≤ p.fir.length ∧ p.fir.length ≤ 8190
  | _ => True

/-- The dispatcher's outcome on one written packet: the frame it is in, and whether the packet comes
    back. -/
theorem decode_of_marshalTo {p : Report} {available : Nat} {bytes : List Byte}
    (hm : Marshal.marshalTo p available = .ok bytes) (hfit : SizeFits p.rawSize) :
    (∃ content, Framed p.header content bytes) ∧
      (p.Survives → Packet.decode p.header bytes = .ok (p.toPacket, [])) ∧
      ((∃ unread, Packet.decode p.header bytes = .ok (p.toPacket, unread)) → p.Survives) := by
  cases p with
  | senderReport p =>
    obtain ⟨hframed, hread⟩ := SenderReport.unmarshal_of_marshalTo hm hfit
    have hdecode : Packet.decode p.header bytes = .ok (.senderReport p.readBack, []) := by
      change Packet.boxed .senderReport (SenderReport.unmarshal bytes) = _
      rw [hread]
      rfl
    refine ⟨hframed, fun hs => ?_, ?_⟩
    · rw [header, hdecode, SenderReport.readBack_eq_self_iff.mpr hs]
      rfl
    · rintro ⟨unread, hback⟩
      rw [header, hdecode] at hback
      exact SenderReport.readBack_eq_self_iff.mp
        (Packet.senderReport.inj (congrArg Prod.fst (Except.ok.inj hback)))
  | receiverReport p =>
    obtain ⟨hframed, hread⟩ := ReceiverReport.unmarshal_of_marshalTo hm hfit
    have hdecode : Packet.decode p.header bytes = .ok (.receiverReport p.readBack, []) := by
      change Packet.boxed .receiverReport (ReceiverReport.unmarshal bytes) = _
      rw [hread]
      rfl
    refine ⟨hframed, fun hs => ?_, ?_⟩
    · rw [header, hdecode, ReceiverReport.readBack_eq_self_iff.mpr hs]
      rfl
    · rintro ⟨unread, hback⟩
      rw [header, hdecode] at hback
      exact ReceiverReport.readBack_eq_self_iff.mp
        (Packet.receiverReport.inj (congrArg Prod.fst (Except.ok.inj hback)))
  | sourceDescription p =>
    obtain ⟨hframed, hread⟩ := SourceDescription.unmarshal_of_marshalTo hm hfit
    refine ⟨hframed, fun _ => ?_, fun _ => trivial⟩
    change Packet.boxed .sourceDescription (SourceDescription.unmarshal bytes) = _
    rw [hread]
    rfl
  | goodbye p =>
    obtain ⟨hframed, hread⟩ := Goodbye.unmarshal_of_marshalTo hm hfit
    refine ⟨hframed, fun _ => ?_, fun _ => trivial⟩
    change Packet.boxed .goodbye (Goodbye.unmarshal bytes) = _
    rw [hread]
    rfl
  | transportLayerNack p =>
    have hread := TransportLayerNack.unmarshal_of_marshalTo hm
    have hdecode : Packet.decode p.header bytes =
        TransportLayerNack.unmarshal bytes >>= fun p => .ok (.transportLayerNack p, []) := rfl
    refine ⟨(TransportLayerNack.framed hm).1, fun hs => ?_, ?_⟩
    · rw [header, hdecode, hread, if_neg hs]
      rfl
    · rintro ⟨unread, hback⟩ hnil
      rw [header, hdecode, hread, if_pos hnil] at hback
      cases hback
  | rapidResynchronizationRequest p =>
    obtain ⟨hframed, hread⟩ := unmarshalSsrcPair_of_marshal hm
    refine ⟨hframed, fun _ => ?_, fun _ => trivial⟩
    change Packet.boxed .rapidResynchronizationRequest
      (RapidResynchronizationRequest.unmarshal bytes) = _
    rw [RapidResynchronizationRequest.unmarshal, hread]
    rfl
  | pictureLossIndication p =>
    obtain ⟨hframed, hread⟩ := unmarshalSsrcPair_of_marshal hm
    refine ⟨hframed, fun _ => ?_, fun _ => trivial⟩
    change Packet.boxed .pictureLossIndication (PictureLossIndication.unmarshal bytes) = _
    rw [PictureLossIndication.unmarshal, hread]
    rfl
  | sliceLossIndication p =>
    refine ⟨SliceLossIndication.framed hm hfit, False.elim, ?_⟩
    rintro ⟨unread, hback⟩
    change Packet.boxed .rawPacket (unmarshalRawPacket bytes) = _ at hback
    cases hraw : unmarshalRawPacket bytes with
    | error e =>
      rw [hraw] at hback
      cases hback
    | ok r =>
      rw [hraw] at hback
      cases hback
  | fullIntraRequest p =>
    obtain ⟨hframed, hread⟩ := FullIntraRequest.unmarshal_of_marshalTo hm hfit
    have hdecode : Packet.decode p.header bytes =
        Packet.boxed .fullIntraRequest (FullIntraRequest.unmarshal bytes) := rfl
    refine ⟨hframed, fun hs => ?_, ?_⟩
    · have hne : p.fir ≠ [] := List.length_pos_iff.mp hs.1
      rw [header, hdecode, hread, if_neg hne, if_neg (Nat.not_lt.mpr hs.2)]
      rfl
    · rintro ⟨unread, hback⟩
      rw [header, hdecode, hread] at hback
      split at hback
      · cases hback
      rename_i hne
      split at hback
      · cases hback
      rename_i hbig
      exact ⟨List.length_pos_iff.mpr hne, Nat.not_lt.mp hbig⟩

theorem length_of_framed {p : Report} {content bytes : List Byte} (hfit : SizeFits p.rawSize)
    (hf : Framed p.header content bytes) : bytes.length = p.rawSize + getPaddingSize p.rawSize := by
  have hsize : ∀ n : Nat, 4 ≤ n → SizeFits n → ∀ length : BitVec 16,
      length = BitVec.ofNat 16 ((n + getPaddingSize n) / 4 - 1) →
      4 + length.toNat * 4 = n + getPaddingSize n := by
    intro n hn hfit length hlength
    have hmod := getPaddingSize_mod n
    rw [hlength, BitVec.toNat_ofNat, Nat.mod_eq_of_lt hfit]
    omega
  have hlen : 4 + p.header.length.toNat * 4 = p.rawSize + getPaddingSize p.rawSize := by
    refine hsize p.rawSize ?_ hfit _ ?_
    · cases p <;> simp only [rawSize, SenderReport.rawSize, ReceiverReport.rawSize,
        SourceDescription.rawSize, Goodbye.rawSize, TransportLayerNack.rawSize,
        SliceLossIndication.rawSize, FullIntraRequest.rawSize] <;> omega
    · cases p <;> rfl
  rw [hf.length, ← hf.length_mul, hlen]

end Report

/-! ## The datagram -/

/-- The packets written in a row, read by the loop of `unmarshal`. The induction is on the packets;
    the fuel is any number of rounds that suffices. -/
theorem getPackets_putAll_iff {packets : List Report} {available : Nat} {bytes : List Byte}
    (hm : Emit.putAll Marshal.marshalTo available packets = .ok bytes)
    (hfit : ∀ p ∈ packets, SizeFits p.rawSize) {fuel : Nat} (hfuel : bytes.length ≤ fuel) :
    getPackets fuel bytes = .ok (packets.map Report.toPacket) ↔ ∀ p ∈ packets, p.Survives := by
  induction packets generalizing available bytes fuel with
  | nil =>
    obtain rfl := Except.ok.inj hm
    rw [getPackets]
    exact ⟨fun _ => nofun, fun _ => rfl⟩
  | cons p packets ih =>
    obtain ⟨first, rest, hfirst, hrest, rfl⟩ := Emit.putAll_cons_eq_ok_iff.mp hm
    obtain ⟨⟨content, hframed⟩, hback, hsurvives⟩ :=
      Report.decode_of_marshalTo hfirst (hfit p List.mem_cons_self)
    have hlen := hframed.length
    have hfit' : ∀ q ∈ packets, SizeFits q.rawSize := fun q hq => hfit q (List.mem_cons_of_mem p hq)
    rw [List.length_append] at hfuel
    obtain ⟨b, bs, hcons⟩ : ∃ b bs, first ++ rest = b :: bs :=
      List.exists_cons_of_length_pos (by rw [List.length_append]; omega)
    obtain ⟨fuel, rfl⟩ : ∃ n, fuel = n + 1 := ⟨fuel - 1, by omega⟩
    rw [hcons, getPackets, ← hcons, hframed.unmarshaller_append rest, List.forall_mem_cons]
    constructor
    · intro hall
      cases hdecode : Packet.decode p.header first with
      | error e =>
        rw [hdecode] at hall
        cases hall
      | ok r =>
        obtain ⟨q, unread⟩ := r
        rw [hdecode, Parse.ok_bind, Parse.ok_bind] at hall
        dsimp only at hall
        cases hmore : getPackets fuel (unread ++ rest) with
        | error e =>
          rw [hmore] at hall
          cases hall
        | ok qs =>
          rw [hmore, Parse.ok_bind, List.map_cons] at hall
          obtain ⟨rfl, rfl⟩ := List.cons.inj (Except.ok.inj hall)
          have hs := hsurvives ⟨unread, hdecode⟩
          have hnil : unread = [] := by
            rw [hback hs] at hdecode
            exact (congrArg Prod.snd (Except.ok.inj hdecode)).symm
          rw [hnil, List.nil_append] at hmore
          exact ⟨hs, (ih hrest hfit' (by omega)).mp hmore⟩
    · rintro ⟨hs, htail⟩
      rw [hback hs, Parse.ok_bind, Parse.ok_bind]
      dsimp only
      rw [List.nil_append, (ih hrest hfit' (by omega)).mpr htail]
      rfl

theorem length_putAll {packets : List Report} {available : Nat} {bytes : List Byte}
    (hm : Emit.putAll Marshal.marshalTo available packets = .ok bytes)
    (hfit : ∀ p ∈ packets, SizeFits p.rawSize) : bytes.length = (packets.map Marshal.marshalSize).sum := by
  induction packets generalizing available bytes with
  | nil =>
    obtain rfl := Except.ok.inj hm
    rfl
  | cons p packets ih =>
    obtain ⟨first, rest, hfirst, hrest, rfl⟩ := Emit.putAll_cons_eq_ok_iff.mp hm
    have hp := hfit p List.mem_cons_self
    obtain ⟨⟨content, hframed⟩, -⟩ := Report.decode_of_marshalTo hfirst hp
    rw [List.length_append, Report.length_of_framed hp hframed,
      ih hrest fun q hq => hfit q (List.mem_cons_of_mem p hq), List.map_cons, List.sum_cons]
    rfl

/-- A datagram that `marshal` wrote is read back as the same packets exactly if each of them
    survives. -/
theorem unmarshal_marshal_iff {packets : List Report} {bytes : List Byte} (hne : packets ≠ [])
    (hm : marshal packets = .ok bytes) (hfit : ∀ p ∈ packets, SizeFits p.rawSize) :
    unmarshal bytes = .ok (packets.map Report.toPacket) ↔ ∀ p ∈ packets, p.Survives := by
  rw [marshal] at hm
  cases hput : Emit.putAll Marshal.marshalTo (packets.map Marshal.marshalSize).sum packets with
  | error e =>
    rw [hput] at hm
    cases hm
  | ok out =>
    rw [hput] at hm
    obtain rfl : out = bytes := by
      have hfull := Except.ok.inj hm
      rw [length_putAll hput hfit, Nat.sub_self, List.replicate_zero, List.append_nil] at hfull
      exact hfull
    rw [← getPackets_putAll_iff hput hfit (Nat.le_refl _), unmarshal]
    cases hget : getPackets out.length out with
    | error e => exact Iff.rfl
    | ok packets' =>
      rw [Parse.ok_bind]
      cases packets' with
      | nil =>
        constructor
        · intro hok
          cases hok
        · intro hok
          have hlen := congrArg List.length (Except.ok.inj hok)
          rw [List.length_map, List.length_nil] at hlen
          exact absurd (List.length_eq_zero_iff.mp hlen.symm) hne
      | cons q qs => exact Iff.rfl

/-- A receiver report with a loss total of 2^24 and a slice loss indication. -/
def lossyReports : List Report :=
  [.receiverReport ⟨1#32, [⟨2#32, 0#8, 0x1000000#32, 0#32, 0#32, 0#32, 0#32⟩], []⟩,
    .sliceLossIndication ⟨1#32, 2#32, []⟩]

/-- The total comes back as 0 and the indication as a raw packet. -/
theorem unmarshal_marshal_lossyReports :
    (marshal lossyReports).toOption.map unmarshal = some (.ok
      [.receiverReport ⟨1#32, [⟨2#32, 0#8, 0#32, 0#32, 0#32, 0#32, 0#32⟩], []⟩,
        .rawPacket [0x82#8, 205#8, 0#8, 2#8, 0#8, 0#8, 0#8, 1#8, 0#8, 0#8, 0#8, 2#8]]) := by
  decide +kernel

/-- A receiver report and a picture loss indication in one datagram. -/
theorem unmarshal_marshal_reportAndPli : unmarshal
    [0x81#8, 201#8, 0#8, 7#8, 0#8, 0#8, 0#8, 1#8, 0#8, 0#8, 0#8, 2#8, 3#8, 0#8, 0#8, 4#8,
      0#8, 0#8, 0#8, 5#8, 0#8, 0#8, 0#8, 6#8, 0#8, 0#8, 0#8, 7#8, 0#8, 0#8, 0#8, 8#8,
      0x81#8, 206#8, 0#8, 2#8, 0#8, 0#8, 0#8, 1#8, 0#8, 0#8, 0#8, 2#8] =
    .ok [.receiverReport ⟨1#32, [⟨2#32, 3#8, 4#32, 5#32, 6#32, 7#32, 8#32⟩], []⟩,
      .pictureLossIndication ⟨1#32, 2#32⟩] := by
  change unmarshal _ = .ok (List.map Report.toPacket
    [.receiverReport ⟨1#32, [⟨2#32, 3#8, 4#32, 5#32, 6#32, 7#32, 8#32⟩], []⟩,
      .pictureLossIndication ⟨1#32, 2#32⟩])
  refine (unmarshal_marshal_iff (by simp) (by decide +kernel) ?_).mpr ?_
  · simp only [List.forall_mem_cons, SizeFits, Report.rawSize, ReceiverReport.rawSize]
    decide
  · simp [Report.Survives]

end Rtc.Rtcp
