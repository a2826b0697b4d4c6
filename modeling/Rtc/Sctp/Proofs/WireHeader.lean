import Rtc.Sctp.Wire.Packet

/-!
# The headers of a packet and of its chunks

When `ChunkHeader::unmarshal` accepts the bytes it is given and what it reads from them, and what is left of
`PartialDecode::unmarshal` once the checksum is right.
-/

namespace Rtc.Sctp.Wire
open Shared Parse

/-- The length field of the chunk that starts a buffer. -/
def lengthField (raw : List Byte) : Nat := (Bytes.readU16 raw 2).toNat

/-- The chunk that starts a buffer lies within it, and what follows it is zero if it is too short to be
    another chunk. -/
structure HeaderFits (raw : List Byte) : Prop where
  four_le : 4 ≤ raw.length
  four_le_field : 4 ≤ lengthField raw
  field_le : lengthField raw ≤ raw.length
  padding : raw.length < lengthField raw + 4 → ∀ b ∈ raw.drop (lengthField raw), b = 0#8

def headerOf (raw : List Byte) : ChunkHeader :=
  ⟨raw.getD 0 0#8, raw.getD 1 0#8, Bytes.readU16 raw 2 - 4#16⟩

namespace ChunkHeader

variable {raw : List Byte} {length : Nat}

theorem safe_checkPadding {i : Nat} (h : length + i ≤ raw.length) : Safe (checkPadding raw length i) := by
  induction i with
  | zero => exact safe_ok ()
  | succ i ih =>
    refine (safe_index (by omega)).bind fun b _ => ?_
    split
    · exact safe_fail _
    · exact ih (by omega)

theorem checkPadding_eq_ok {i : Nat} (h : length + i = raw.length) :
    checkPadding raw length i = .ok () ↔ ∀ b ∈ raw.drop length, b = 0#8 := by
  have haux : ∀ n, length + n ≤ raw.length →
      (checkPadding raw length n = .ok () ↔ ∀ j < n, raw[length + j]? = some 0#8) := by
    intro n
    induction n with
    | zero => exact fun _ => ⟨fun _ j hj => absurd hj (Nat.not_lt_zero j), fun _ => rfl⟩
    | succ n ih =>
      intro hn
      have hlt : length + n < raw.length := by omega
      have hget : raw[length + n]? = some raw[length + n] := List.getElem?_eq_getElem hlt
      simp only [checkPadding, index, hget, ok_bind]
      split
      case isTrue hne =>
        refine ⟨fun hok => (by cases hok), fun hall => absurd ?_ hne⟩
        have hlast := hall n (Nat.lt_succ_self n)
        rw [hget] at hlast
        exact Option.some_inj.mp hlast
      case isFalse heq =>
        rw [ih (by omega)]
        refine ⟨fun hall j hj => ?_, fun hall j hj => hall j (by omega)⟩
        rcases Nat.lt_succ_iff_lt_or_eq.mp hj with hlt | rfl
        · exact hall j hlt
        · rw [hget, not_ne_iff.mp heq]
  rw [haux i (by omega)]
  constructor
  · intro hall b hb
    obtain ⟨j, hj, rfl⟩ := List.mem_iff_getElem.mp hb
    have hlen : j < i := by
      rw [List.length_drop] at hj
      omega
    have hat := hall j hlen
    rw [List.getElem_drop]
    exact Option.some_inj.mp ((List.getElem?_eq_getElem _).symm.trans hat)
  · intro hall j hj
    have hlt : length + j < raw.length := by omega
    rw [List.getElem?_eq_getElem hlt, hall raw[length + j]]
    refine List.mem_iff_getElem.mpr ⟨j, ?_, ?_⟩
    · rw [List.length_drop]
      omega
    · exact List.getElem_drop

theorem unmarshal_of_length (h : 4 ≤ raw.length) : unmarshal raw =
    if lengthField raw < 4 then fail .errChunkHeaderInvalidLength
    else if raw.length < lengthField raw then fail .errChunkHeaderNotEnoughSpace
    else (do
      if raw.length - lengthField raw < 4 then
        checkPadding raw (lengthField raw) (raw.length - lengthField raw)
      else .ok ()
      .ok (headerOf raw)) := by
  match raw, h with
  | t :: f :: a :: b :: rest, _ => rfl

theorem safe_unmarshal (raw : List Byte) : Safe (unmarshal raw) := by
  by_cases h : raw.length < 4
  · rw [unmarshal, if_pos h]
    exact safe_fail _
  · rw [unmarshal_of_length (not_lt.mp h)]
    split
    · exact safe_fail _
    · split
      · exact safe_fail _
      · dsimp only
        split
        · exact (safe_checkPadding (by omega)).bind fun _ _ => safe_ok _
        · exact safe_ok _

theorem unmarshal_eq_ok (raw : List Byte) (header : ChunkHeader) :
    unmarshal raw = .ok header ↔ HeaderFits raw ∧ header = headerOf raw := by
  by_cases h : raw.length < 4
  · rw [unmarshal, if_pos h]
    exact ⟨nofun, fun hfits => absurd hfits.1.four_le (by omega)⟩
  · rw [unmarshal_of_length (not_lt.mp h)]
    split
    case isTrue hlt => exact ⟨nofun, fun hfits => absurd hfits.1.four_le_field (by omega)⟩
    case isFalse hfour =>
      split
      case isTrue hlt => exact ⟨nofun, fun hfits => absurd hfits.1.field_le (by omega)⟩
      case isFalse hle =>
        split
        case isTrue hclose =>
          have hcheck := @checkPadding_eq_ok raw (lengthField raw) (raw.length - lengthField raw)
            (by omega)
          constructor
          · intro hok
            cases hp : checkPadding raw (lengthField raw) (raw.length - lengthField raw) with
            | ok u =>
              rw [hp] at hok hcheck
              cases hok
              exact ⟨⟨by omega, by omega, by omega, fun _ => hcheck.mp rfl⟩, rfl⟩
            | error e =>
              rw [hp] at hok
              cases hok
          · rintro ⟨hfits, rfl⟩
            rw [hcheck.mpr (hfits.padding (by omega))]
            rfl
        case isFalse hfar =>
          constructor
          · intro hok
            cases hok
            exact ⟨⟨by omega, by omega, by omega, fun hlt => absurd hlt (by omega)⟩, rfl⟩
          · rintro ⟨_, rfl⟩
            rfl

end ChunkHeader

theorem toNat_sub_four {x : BitVec 16} (h : 4 ≤ x.toNat) : (x - 4#16).toNat = x.toNat - 4 := by
  have hx := x.isLt
  rw [BitVec.toNat_sub]
  change (2 ^ 16 - 4 + x.toNat) % 2 ^ 16 = x.toNat - 4
  omega

theorem HeaderFits.valueLength {raw : List Byte} (h : HeaderFits raw) :
    4 + (headerOf raw).valueLength.toNat = lengthField raw := by
  have hfour := h.four_le_field
  have hsub : (headerOf raw).valueLength.toNat = lengthField raw - 4 := toNat_sub_four hfour
  omega

/-! ## The header of a packet -/

variable (crc32c : List Byte → BitVec 32)

/-- The checksum field of a packet holds its checksum. -/
def CorrectChecksum (raw : List Byte) : Prop :=
  Bytes.be32 (raw.getD 11 0#8) (raw.getD 10 0#8) (raw.getD 9 0#8) (raw.getD 8 0#8) =
    generatePacketChecksum crc32c raw

def commonHeaderOf (raw : List Byte) : CommonHeader :=
  ⟨Bytes.readU16 raw 0, Bytes.readU16 raw 2, Bytes.readU32 raw 4⟩

theorem PartialDecode.unmarshal_eq {raw : List Byte} (hlen : 12 ≤ raw.length)
    (hsum : CorrectChecksum crc32c raw) : PartialDecode.unmarshal crc32c raw =
      if (raw.drop 12).length < 4 then fail .errParseSctpChunkNotEnoughData
      else (do
        let header ← ChunkHeader.unmarshal (raw.drop 12)
        let (initiateTag, cookie) ← PartialDecode.peek raw (raw.drop 16) header
        .ok ⟨commonHeaderOf raw, raw.drop 12, header.typ, initiateTag, cookie⟩) := by
  match raw, hlen with
  | a0 :: a1 :: a2 :: a3 :: a4 :: a5 :: a6 :: a7 :: a8 :: a9 :: a10 :: a11 :: rest, _ =>
    have heq : Bytes.be32 a11 a10 a9 a8 = generatePacketChecksum crc32c
        (a0 :: a1 :: a2 :: a3 :: a4 :: a5 :: a6 :: a7 :: a8 :: a9 :: a10 :: a11 :: rest) := hsum
    rw [PartialDecode.unmarshal, if_neg (by simp)]
    simp only [getU16, getU32, getU32Le, ok_bind, heq, ne_eq, not_true, if_false]
    rfl

/-- A packet with the given header and chunk bytes, its checksum filled in. -/
def framed (h : CommonHeader) (chunks : List Byte) : List Byte :=
  let ports := Bytes.toBe16 h.sourcePort ++ (Bytes.toBe16 h.destinationPort ++
    Bytes.toBe32 h.verificationTag)
  ports ++ ((Bytes.toBe32 (crc32c (ports ++ (zeros 4 ++ chunks)))).reverse ++ chunks)

theorem length_framed (h : CommonHeader) (chunks : List Byte) :
    (framed crc32c h chunks).length = 12 + chunks.length := by
  simp only [framed, List.length_append, List.length_reverse, Bytes.length_toBe16, Bytes.length_toBe32]
  omega

theorem correctChecksum_framed (h : CommonHeader) (chunks : List Byte) :
    CorrectChecksum crc32c (framed crc32c h chunks) := be32_toBe32 _

theorem commonHeaderOf_framed (h : CommonHeader) (chunks : List Byte) :
    commonHeaderOf (framed crc32c h chunks) = h := by
  have hsource : Bytes.readU16 (framed crc32c h chunks) 0 = h.sourcePort := Bytes.be16_toBe16 _
  have hdestination : Bytes.readU16 (framed crc32c h chunks) 2 = h.destinationPort :=
    Bytes.be16_toBe16 _
  have htag : Bytes.readU32 (framed crc32c h chunks) 4 = h.verificationTag := be32_toBe32 _
  rw [commonHeaderOf, hsource, hdestination, htag]

theorem PartialDecode.unmarshal_framed (h : CommonHeader) (chunks : List Byte) :
    PartialDecode.unmarshal crc32c (framed crc32c h chunks) =
      if chunks.length < 4 then fail .errParseSctpChunkNotEnoughData
      else (do
        let header ← ChunkHeader.unmarshal chunks
        let (initiateTag, cookie) ←
          PartialDecode.peek (framed crc32c h chunks) (chunks.drop 4) header
        .ok ⟨h, chunks, header.typ, initiateTag, cookie⟩) := by
  have hlen : 12 ≤ (framed crc32c h chunks).length := by
    rw [length_framed]
    omega
  rw [unmarshal_eq crc32c hlen (correctChecksum_framed crc32c h chunks), commonHeaderOf_framed]
  rfl

end Rtc.Sctp.Wire
