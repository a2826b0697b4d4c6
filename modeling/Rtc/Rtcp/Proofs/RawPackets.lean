import Rtc.Rtcp.Proofs.Boundaries

/-!
# Packets of unknown types

A packet that no decoder is selected for comes back as a raw packet. A type octet that the crate has no name for is
written as 0: the raw packet holds its frame exactly if the octet is 0 or a known type.
-/

namespace Rtc.Rtcp
open Bytes Shared Parse

/-- `RawPacket` (`raw_packet.rs:15`). -/
structure RawPacket where
  raw : List Byte

/-- `marshal_size` and `marshal_to` (`raw_packet.rs:51-70`); the caller gives room for `marshal_size` bytes. -/
instance : Marshal RawPacket where
  marshalSize p := p.raw.length + getPaddingSize p.raw.length
  marshalTo p _ := do
    let h ← Header.unmarshal p.raw
    .ok (p.raw ++ if h.padding then putPadding p.raw.length else [])

/-- The frames of a datagram, as long as the headers in them declare. -/
def frames : (fuel : Nat) → List Byte → List (List Byte)
  | 0, _ => []
  | fuel + 1, raw =>
    if raw = [] then []
    else
      let size := 4 * ((readU16 raw 2).toNat + 1)
      raw.take size :: frames fuel (raw.drop size)

/-- The packet is written again as it stood in the datagram. -/
def Carried (frame : List Byte) (p : Packet) : Prop :=
  ∀ raw, p = .rawPacket raw →
    raw = frame ∧ Marshal.marshalSize (RawPacket.mk raw) = frame.length ∧
      ∀ available, Marshal.marshalTo (RawPacket.mk raw) available = .ok frame

/-- A type octet that `PacketType` has a number for. -/
def HasNumber (octet : Byte) : Prop := octet = 0#8 ∨ (200#8 ≤ octet ∧ octet ≤ 207#8)

instance (octet : Byte) : Decidable (HasNumber octet) := inferInstanceAs (Decidable (_ ∨ _))

theorem toByte_ofByte_iff (octet : Byte) : (PacketType.ofByte octet).toByte = octet ↔ HasNumber octet := by
  have hall : ∀ octet : Byte, (PacketType.ofByte octet).toByte = octet ↔ HasNumber octet := by decide +kernel
  exact hall octet

/-! ## One packet -/

variable {raw rest frame : List Byte} {h : Header} {p : Packet} {ps : List Packet}

theorem Header.length_eq (hread : unmarshal raw = .ok h) :
    h.length = readU16 raw 2 ∧ (h.packetType = PacketType.ofByte (raw.getD 1 0#8)) := by
  rw [unmarshal] at hread
  split at hread
  · cases hread
  split at hread
  · cases hread
  obtain rfl := Except.ok.inj hread
  exact ⟨rfl, rfl⟩

theorem Header.marshalTo_of_unmarshal {a b c d : Byte} (hread : unmarshal (a :: b :: c :: d :: rest) = .ok h) :
    h.marshalTo 4 = .ok [a, (PacketType.ofByte b).toByte, c, d] := by
  have hfirst : ∀ a : Byte, a >>> 6 &&& 0x3#8 = 2#8 → ¬ 31#8 < a &&& 0x1F#8 ∧
      2#8 <<< 6 ||| (if a >>> 5 &&& 0x1#8 ≠ 0#8 then 1#8 else 0#8) <<< 5 ||| a &&& 0x1F#8 = a := by
    decide +kernel
  rw [unmarshal] at hread
  split at hread
  · cases hread
  split at hread
  · cases hread
  case isFalse hversion =>
    obtain rfl := Except.ok.inj hread
    obtain ⟨hcount, hbyte⟩ := hfirst a (by simpa [version] using hversion)
    rw [marshalTo, if_neg (by simpa using hcount), if_neg (by omega)]
    simp only [List.getD_cons_zero, List.getD_cons_succ, readU16, toBe16_be16, decide_eq_true_eq]
    rw [hbyte]

theorem of_boxed {α : Type} {box : α → Packet} {parsed : Parse Error (α × List Byte)}
    (h : Packet.boxed box parsed = .ok (p, rest)) : ∃ a, parsed = .ok (a, rest) ∧ box a = p := by
  obtain ⟨⟨a, rest'⟩, hparsed, hbox⟩ := exists_of_bind_eq_ok h
  cases hbox
  exact ⟨a, hparsed, rfl⟩

/-- Only the decoder of raw packets returns one, and not for a type that has a decoder of its own. -/
theorem unmarshalRawPacket_of_decode {inPacket : List Byte}
    (hdecode : Packet.decode h inPacket = .ok (.rawPacket raw, [])) :
    unmarshalRawPacket inPacket = .ok (raw, []) := by
  have hraw : ∀ {parsed : Parse Error (List Byte × List Byte)},
      Packet.boxed .rawPacket parsed = .ok (.rawPacket raw, []) → parsed = .ok (raw, []) := by
    intro parsed hboxed
    obtain ⟨a, hparsed, hbox⟩ := of_boxed hboxed
    cases hbox
    exact hparsed
  have hother : ∀ {α : Type} {box : α → Packet} {parsed : Parse Error (α × List Byte)},
      (∀ a, box a ≠ .rawPacket raw) → Packet.boxed box parsed ≠ .ok (.rawPacket raw, []) := by
    intro α box parsed hbox hboxed
    obtain ⟨a, -, ha⟩ := of_boxed hboxed
    exact hbox a ha
  rw [Packet.decode] at hdecode
  cases htype : h.packetType <;> rw [htype] at hdecode <;> dsimp only at hdecode
  all_goals try exact hraw hdecode
  all_goals try exact absurd hdecode (hother (fun a => by simp))
  all_goals
    split_ifs at hdecode
    all_goals first
      | exact hraw hdecode
      | exact absurd hdecode (hother (fun a => by simp))
      | (obtain ⟨a, -, ha⟩ := exists_of_bind_eq_ok hdecode; cases ha)

theorem raw_of_decodesTo (hframe : DecodesTo frame (.rawPacket raw)) :
    ∃ a b c d rest, frame = a :: b :: c :: d :: rest ∧
      raw = a :: (PacketType.ofByte b).toByte :: c :: d :: rest ∧ (frame.length % 4 = 0) ∧
      ∃ h, Header.unmarshal frame = .ok h := by
  obtain ⟨h, head, hread, hlen, hhead, hdecode⟩ := hframe
  have hfour := Header.length_of_unmarshal hread
  match frame, hfour with
  | a :: b :: c :: d :: rest, _ =>
    obtain rfl := Except.ok.inj ((Header.marshalTo_of_unmarshal hread).symm.trans hhead)
    have hraw := unmarshalRawPacket_of_decode hdecode
    have hagain := (Header.unmarshal_of_marshalTo hhead rest).2
    rw [unmarshalRawPacket, if_neg (by simp)] at hraw
    simp only [List.drop_succ_cons, List.drop_zero] at hraw hdecode
    rw [hagain] at hraw
    dsimp only at hraw
    rw [hhead] at hraw
    obtain rfl := (Prod.mk.inj (Except.ok.inj hraw)).1
    refine ⟨a, b, c, d, rest, rfl, rfl, by omega, h, hread⟩

theorem hasNumber_of_ne_raw (hframe : DecodesTo frame p)
    (hp : ∀ raw, p ≠ .rawPacket raw) : HasNumber (frame.getD 1 0#8) := by
  have hall : ∀ octet : Byte, PacketType.ofByte octet ≠ .unsupported → HasNumber octet := by decide +kernel
  apply hall
  intro htype
  obtain ⟨h, head, hread, -, -, hdecode⟩ := hframe
  rw [← (Header.length_eq hread).2] at htype
  rw [Packet.decode, htype] at hdecode
  obtain ⟨raw, -, hraw⟩ := of_boxed hdecode
  exact hp raw hraw.symm

theorem carried_iff (hframe : DecodesTo frame p) : Carried frame p ↔ HasNumber (frame.getD 1 0#8) := by
  by_cases hp : ∃ raw, p = .rawPacket raw
  · obtain ⟨raw, rfl⟩ := hp
    obtain ⟨a, b, c, d, rest, rfl, rfl, hlen, h, hread⟩ := raw_of_decodesTo hframe
    simp only [List.getD_cons_zero, List.getD_cons_succ]
    constructor
    · intro hcarried
      have heq := (hcarried _ rfl).1
      simp only [List.cons.injEq, and_true, true_and] at heq
      exact (toByte_ofByte_iff b).mp heq
    · rintro hnumber raw hraw
      obtain rfl := Packet.rawPacket.inj hraw
      rw [(toByte_ofByte_iff b).mpr hnumber]
      have hpad : getPaddingSize (a :: b :: c :: d :: rest).length = 0 := if_pos hlen
      refine ⟨rfl, ?_, fun available => ?_⟩
      · simp only [Marshal.marshalSize, hpad, Nat.add_zero]
      · simp only [Marshal.marshalTo, hread]
        change Except.ok _ = _
        simp only [putPadding, hpad, List.range_zero, List.map_nil, ite_self, List.append_nil]
  · have hne : ∀ raw, p ≠ .rawPacket raw := fun raw hraw => hp ⟨raw, hraw⟩
    exact iff_of_true (fun raw hraw => absurd hraw (hne raw)) (hasNumber_of_ne_raw hframe hne)

/-! ## The datagram -/

theorem splits_of_getPackets {fuel : Nat} (h : getPackets fuel raw = .ok ps) : Splits raw ps := by
  induction fuel generalizing raw ps with
  | zero =>
    cases raw with
    | nil => cases h; exact .nil
    | cons b bs => cases h
  | succ fuel ih =>
    cases raw with
    | nil => cases h; exact .nil
    | cons b bs =>
      obtain ⟨⟨p, rest⟩, hp, h⟩ := exists_of_bind_eq_ok h
      obtain ⟨qs, hqs, h⟩ := exists_of_bind_eq_ok h
      cases h
      have hsize : ¬ StartsOversized (b :: bs) := by
        intro hover
        rw [unmarshaller_of_oversized hover] at hp
        cases hp
      obtain ⟨frame, hcut, -, hframe⟩ := (returns_unmarshaller hsize).of_eq_ok hp
      rw [hcut]
      exact .cons hframe (ih hqs)

theorem forall₂_frames (h : Splits raw ps) {fuel : Nat}
    (hfuel : raw.length ≤ fuel) : List.Forall₂ DecodesTo (frames fuel raw) ps := by
  induction h generalizing fuel with
  | nil => cases fuel <;> exact .nil
  | @cons frame rest p ps hframe hrest ih =>
    obtain ⟨h, head, hread, hlen, -⟩ := id hframe.exists_header
    obtain ⟨fuel, rfl⟩ : ∃ n, fuel = n + 1 := ⟨fuel - 1, by rw [List.length_append] at hfuel; omega⟩
    have hne : frame ++ rest ≠ [] := by
      intro hnil
      rw [(List.append_eq_nil_iff.mp hnil).1, List.length_nil] at hlen
      omega
    have hsize : 4 * ((readU16 (frame ++ rest) 2).toNat + 1) = frame.length := by
      have hsame : readU16 (frame ++ rest) 2 = readU16 frame 2 := by
        simp only [readU16, List.getD_eq_getElem?_getD]
        rw [List.getElem?_append_left (by omega), List.getElem?_append_left (by omega)]
      rw [hsame, ← (Header.length_eq hread).1, hlen]
    rw [frames, if_neg hne]
    dsimp only
    rw [hsize, List.take_left, List.drop_left]
    exact .cons hframe (ih (by rw [List.length_append] at hfuel; omega))

/-- An application-defined packet between two picture loss indications. -/
def appDatagram : List Byte :=
  [0x81#8, 206#8, 0#8, 2#8, 0#8, 0#8, 0#8, 1#8, 0#8, 0#8, 0#8, 2#8, 0xA3#8, 204#8, 0#8, 1#8, 9#8, 9#8, 9#8, 4#8]

end Rtc.Rtcp
