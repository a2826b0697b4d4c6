import Rtc.Lib.BitScan
import Rtc.Lib.Parse
import Rtc.Lib.Serial
import Rtc.Rtcp.Header

/-!
# Generic NACK

`TransportLayerNack` of `rtc-rtcp/src/transport_feedbacks/transport_layer_nack/mod.rs`: the pairs of
a lost sequence number and a bitmask of the 16 after it, the packing of a list of lost numbers into
pairs, and the codec.
-/

namespace Rtc.Rtcp
open Bytes Shared

/-- `NackPair` (`mod.rs:21-26`). -/
structure NackPair where
  packetId : BitVec 16
  lostPackets : BitVec 16
  deriving DecidableEq, Repr

namespace NackPair

/-- `NackPair::new` (`mod.rs:67-72`). -/
def new (seq : BitVec 16) : NackPair := ⟨seq, 0#16⟩

/-- `packet_list` (`mod.rs:75-77`): what `NackIterator` (`mod.rs:39-57`) yields, first the packet id
    and then a number for every set bit, lowest first. -/
def packetList (pair : NackPair) : List (BitVec 16) :=
  pair.packetId ::
    (BitScan.ones pair.lostPackets).map fun i => pair.packetId + BitVec.ofNat 16 (i + 1)

/-- The wire form of a pair. -/
def put (pair : NackPair) : List Byte := toBe16 pair.packetId ++ toBe16 pair.lostPackets

/-- The next pair of a buffer. -/
def get (reader : List Byte) : Parse Error (NackPair × List Byte) := do
  let (packetId, reader) ← Parse.getU16 reader
  let (lostPackets, reader) ← Parse.getU16 reader
  .ok (⟨packetId, lostPackets⟩, reader)

theorem get_put (pair : NackPair) (rest : List Byte) : get (pair.put ++ rest) = .ok (pair, rest) := by
  rw [get, put, List.append_assoc, Parse.getU16_toBe16, Parse.ok_bind]
  dsimp only
  rw [Parse.getU16_toBe16]
  rfl

/-- `packet_id.saturating_add(16)`. -/
def reach (pair : NackPair) : Nat := min (pair.packetId.toNat + 16) 65535

end NackPair

/-- One round of the loop of `nack_pairs_from_sequence_numbers` (`mod.rs:276-288`): the current pair
    and the pairs before it. -/
def packSeq (state : NackPair × List NackPair) (seq : BitVec 16) : NackPair × List NackPair :=
  let (pair, pairs) := state
  if seq = pair.packetId then state
  else if seq ≤ pair.packetId ∨ pair.reach < seq.toNat then (NackPair.new seq, pairs ++ [pair])
  else ({ pair with lostPackets :=
      pair.lostPackets ||| 1#16 <<< (seq - pair.packetId - 1#16).toNat }, pairs)

/-- `nack_pairs_from_sequence_numbers` (`mod.rs:268-293`). -/
def nackPairsFromSequenceNumbers : List (BitVec 16) → List NackPair
  | [] => []
  | seq :: rest =>
    let (pair, pairs) := rest.foldl packSeq (NackPair.new seq, [])
    pairs ++ [pair]

/-! ## Packing loses and adds nothing -/

theorem packetList_new (seq : BitVec 16) : (NackPair.new seq).packetList = [seq] := by
  rw [NackPair.packetList, NackPair.new, BitScan.ones_eq_filter]
  simp

/-- The numbers packed so far. -/
def packed (state : NackPair × List NackPair) : List (BitVec 16) :=
  state.2.flatMap NackPair.packetList ++ state.1.packetList

variable {seq : BitVec 16} {state : NackPair × List NackPair} {seqs : List (BitVec 16)}

/-- A number serially after all of a pair's, within its reach, adds one bit above the others. -/
theorem packetList_setBit {pair : NackPair}
    (hafter : ∀ s ∈ pair.packetList, Serial.Lt s seq) (hgt : pair.packetId < seq)
    (hreach : seq.toNat ≤ pair.reach) :
    ({ pair with lostPackets :=
        pair.lostPackets ||| 1#16 <<< (seq - pair.packetId - 1#16).toNat }).packetList =
      pair.packetList ++ [seq] := by
  have hgt : pair.packetId.toNat < seq.toNat := hgt
  have hdist : (seq - pair.packetId).toNat = seq.toNat - pair.packetId.toNat :=
    BitVec.toNat_sub_of_le (Nat.le_of_lt hgt)
  have hbit : (seq - pair.packetId - 1#16).toNat = seq.toNat - pair.packetId.toNat - 1 := by
    rw [BitVec.toNat_sub_of_le (by rw [BitVec.le_def, hdist]; exact Nat.sub_pos_of_lt hgt), hdist]
    rfl
  have hreach : seq.toNat ≤ pair.packetId.toNat + 16 := hreach.trans (Nat.min_le_left _ _)
  have hlow : ∀ i, pair.lostPackets.getLsbD i = true → i < seq.toNat - pair.packetId.toNat - 1 := by
    intro i hi
    have hi16 : i < 16 := by
      by_contra hge
      rw [BitVec.getLsbD_of_ge _ _ (by omega)] at hi
      cases hi
    have hmem : pair.packetId + BitVec.ofNat 16 (i + 1) ∈ pair.packetList := by
      rw [NackPair.packetList, BitScan.ones_eq_filter]
      refine List.mem_cons_of_mem _ (List.mem_map.mpr ⟨i, ?_, rfl⟩)
      exact List.mem_filter.mpr ⟨List.mem_range.mpr hi16, hi⟩
    -- both numbers are close after the packet id, so serial order is the order of the distances
    have hlt := hafter _ hmem
    rw [Serial.lt_iff_of_near pair.packetId] at hlt
    · rw [Serial.ahead_add _ (by omega), Serial.ahead, hdist] at hlt
      omega
    · rw [Serial.ahead, hdist]
      omega
    · rw [Serial.ahead_add _ (by omega)]
      omega
  have hseq : pair.packetId + BitVec.ofNat 16 (seq.toNat - pair.packetId.toNat - 1 + 1) = seq := by
    rw [Nat.sub_add_cancel (by omega), ← hdist]
    exact Serial.add_ahead pair.packetId seq
  rw [NackPair.packetList, NackPair.packetList, hbit,
    BitScan.ones_or_of_lt (by omega) hlow, List.map_append, List.map_cons, List.map_nil, hseq]
  rfl

theorem packed_packSeq (hafter : ∀ s ∈ packed state, Serial.Lt s seq) :
    packed (packSeq state seq) = packed state ++ [seq] := by
  obtain ⟨pair, pairs⟩ := state
  have hpair : ∀ s ∈ pair.packetList, Serial.Lt s seq := fun s hs =>
    hafter s (List.mem_append_right _ hs)
  have hid : Serial.Lt pair.packetId seq := hpair _ List.mem_cons_self
  have hne : seq ≠ pair.packetId := by
    rintro rfl
    exact Serial.not_lt_self _ hid
  rw [packSeq, if_neg hne]
  split
  case isTrue =>
    rw [packed, packed, packetList_new, List.flatMap_append, List.flatMap_cons, List.flatMap_nil,
      List.append_nil]
  case isFalse hnear =>
    rw [not_or] at hnear
    rw [packed, packed, packetList_setBit hpair (BitVec.not_le.mp hnear.1) (by omega),
      List.append_assoc]

theorem packed_foldl (hordered : (packed state ++ seqs).Pairwise Serial.Lt) :
    packed (seqs.foldl packSeq state) = packed state ++ seqs := by
  induction seqs generalizing state with
  | nil => rw [List.foldl_nil, List.append_nil]
  | cons seq seqs ih =>
    have hafter : ∀ s ∈ packed state, Serial.Lt s seq := fun s hs =>
      (List.pairwise_append.mp hordered).2.2 s hs seq List.mem_cons_self
    have hstep := packed_packSeq hafter
    rw [List.foldl_cons, ih (by rw [hstep, List.append_assoc]; exact hordered), hstep,
      List.append_assoc]
    rfl

theorem flatMap_packetList_nackPairs (h : seqs.Pairwise Serial.Lt) :
    (nackPairsFromSequenceNumbers seqs).flatMap NackPair.packetList = seqs := by
  cases seqs with
  | nil => rfl
  | cons seq rest =>
    have hnew : packed (NackPair.new seq, []) = [seq] := by
      rw [packed, packetList_new]
      rfl
    have hpacked := @packed_foldl (NackPair.new seq, []) rest (by rw [hnew]; exact h)
    rw [hnew] at hpacked
    rw [nackPairsFromSequenceNumbers, List.flatMap_append, List.flatMap_cons, List.flatMap_nil,
      List.append_nil]
    exact hpacked

/-! ## The packet -/

/-- `TransportLayerNack` (`mod.rs:125-133`). -/
structure TransportLayerNack where
  senderSsrc : BitVec 32
  mediaSsrc : BitVec 32
  nacks : List NackPair
  deriving DecidableEq, Repr

namespace TransportLayerNack

/-- `FORMAT_TLN` (`header.rs:51`). -/
def formatTln : Byte := 1#8

/-- `raw_size` (`mod.rs:163-165`). -/
def rawSize (n : TransportLayerNack) : Nat := 4 + 8 + n.nacks.length * 4

/-- `marshal_size` (`mod.rs:181-185`). -/
def marshalSize (n : TransportLayerNack) : Nat := n.rawSize + getPaddingSize n.rawSize

/-- `header` (`mod.rs:149-156`). -/
def header (n : TransportLayerNack) : Header where
  padding := getPaddingSize n.rawSize != 0
  count := formatTln
  packetType := .transportSpecificFeedback
  length := BitVec.ofNat 16 (n.marshalSize / 4 - 1)

/-- `marshal_to` into a buffer of `available` bytes (`mod.rs:190-215`): the bytes written. -/
def marshalTo (n : TransportLayerNack) (available : Nat) : Except Error (List Byte) :=
  if 255 < n.nacks.length + 2 then .error .tooManyReports
  else if available < n.marshalSize then .error .bufferTooShort
  else do
    let header ← n.header.marshalTo available
    .ok (header ++ toBe32 n.senderSsrc ++ toBe32 n.mediaSsrc ++ n.nacks.flatMap NackPair.put ++
      if n.header.padding then putPadding n.rawSize else [])

/-- `marshal` (`rtc-shared/src/marshal/mod.rs:32-44`). -/
def marshal (n : TransportLayerNack) : Except Error (List Byte) := n.marshalTo n.marshalSize

/-- `unmarshal` (`mod.rs:220-262`). -/
def unmarshal (raw : List Byte) : Parse Error TransportLayerNack :=
  if raw.length < 4 + 12 then Parse.fail .packetTooShort
  else
    match Header.unmarshal raw with
    | .error e => Parse.fail e
    | .ok h =>
      if raw.length < 4 + 4 * h.length.toNat then Parse.fail .packetTooShort
      else if h.packetType ≠ .transportSpecificFeedback ∨ h.count ≠ formatTln then
        Parse.fail .wrongType
      else do
        let (senderSsrc, reader) ← Parse.getU32 (raw.drop 4)
        let (mediaSsrc, reader) ← Parse.getU32 reader
        let (nacks, _) ← Parse.getMany NackPair.get (h.length.toNat - 2) reader
        .ok ⟨senderSsrc, mediaSsrc, nacks⟩

/-- The numbers a packet names. -/
def packetList (n : TransportLayerNack) : List (BitVec 16) := n.nacks.flatMap NackPair.packetList

theorem getPaddingSize_rawSize (n : TransportLayerNack) : getPaddingSize n.rawSize = 0 := by
  rw [getPaddingSize, rawSize, if_pos (by omega)]

theorem marshal_eq_ok_iff (n : TransportLayerNack) : (∃ bytes, n.marshal = .ok bytes) ↔ n.nacks.length ≤ 253 := by
  have hsize : ¬ n.marshalSize < 4 := by
    rw [marshalSize, rawSize]
    omega
  have hheader : ∃ bytes, n.header.marshalTo n.marshalSize = .ok bytes := by
    have hcount : ¬ 31#8 < n.header.count := show ¬ 31#8 < formatTln by decide
    rw [Header.marshalTo, if_neg hcount, if_neg hsize]
    exact ⟨_, rfl⟩
  obtain ⟨header, hheader⟩ := hheader
  rw [marshal, marshalTo, if_neg (Nat.lt_irrefl _), hheader]
  split
  case isTrue hmany =>
    refine ⟨?_, fun hle => by omega⟩
    rintro ⟨bytes, hbytes⟩
    cases hbytes
  case isFalse hfew => exact ⟨fun _ => by omega, fun _ => ⟨_, rfl⟩⟩

theorem unmarshal_of_marshal {n : TransportLayerNack} {bytes : List Byte}
    (hm : n.marshal = .ok bytes) (hpos : 0 < n.nacks.length) : unmarshal bytes = .ok n := by
  have hfew := (marshal_eq_ok_iff n).mp ⟨bytes, hm⟩
  have hpad := n.getPaddingSize_rawSize
  have hraw : n.rawSize = 12 + n.nacks.length * 4 := by
    rw [rawSize]
  have hlength : n.header.length.toNat = 2 + n.nacks.length := by
    rw [header, marshalSize, hpad, BitVec.toNat_ofNat, Nat.mod_eq_of_lt (by omega)]
    omega
  rw [marshal, marshalTo, if_neg (by omega), if_neg (Nat.lt_irrefl _)] at hm
  cases hheader : n.header.marshalTo n.marshalSize with
  | error e =>
    rw [hheader] at hm
    cases hm
  | ok h =>
    have hput : ∀ pairs : List NackPair, (pairs.flatMap NackPair.put).length = pairs.length * 4 := by
      intro pairs
      induction pairs with
      | nil => rfl
      | cons pair pairs ih =>
        rw [List.flatMap_cons, List.length_append, ih, List.length_cons, NackPair.put,
          List.length_append, length_toBe16, length_toBe16]
        omega
    have hbytes : bytes = h ++ (toBe32 n.senderSsrc ++ (toBe32 n.mediaSsrc ++
        (n.nacks.flatMap NackPair.put ++ []))) := by
      have hnopad : n.header.padding = false := by
        rw [header, hpad]
        rfl
      rw [hheader, hnopad] at hm
      simpa using (Except.ok.inj hm).symm
    obtain ⟨hlen, hread⟩ := Header.unmarshal_of_marshalTo hheader (toBe32 n.senderSsrc ++
      (toBe32 n.mediaSsrc ++ (n.nacks.flatMap NackPair.put ++ [])))
    rw [← hbytes] at hread
    have htotal : bytes.length = 12 + n.nacks.length * 4 := by
      rw [hbytes]
      simp only [List.length_append, hlen, length_toBe32, hput, List.length_nil]
      omega
    have hdrop : bytes.drop 4 = toBe32 n.senderSsrc ++ (toBe32 n.mediaSsrc ++
        (n.nacks.flatMap NackPair.put ++ [])) := by
      rw [hbytes, ← hlen, List.drop_left]
    rw [unmarshal, if_neg (by omega), hread]
    dsimp only
    rw [if_neg (by omega), if_neg (by simp [header]), hdrop, Parse.getU32_toBe32, Parse.ok_bind]
    dsimp only
    rw [Parse.getU32_toBe32, Parse.ok_bind]
    dsimp only
    rw [hlength, Nat.add_sub_cancel_left, Parse.getMany_flatMap NackPair.get_put, Parse.ok_bind]

end TransportLayerNack

end Rtc.Rtcp
