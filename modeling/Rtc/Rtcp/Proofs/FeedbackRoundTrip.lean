import Rtc.Rtcp.Proofs.DecoderSafety
import Rtc.Rtcp.Proofs.ReportRoundTrip
import Rtc.Rtcp.Proofs.StatusChunks

/-!
# Transport-wide feedback on the wire

The decoder walks the chunks up to the status count and then reads one delta for every status that has one. What is not
read back: a last vector whose symbols beyond the count have deltas, and feedback without deltas whose chunks end the
packet.
-/

namespace Rtc.Rtcp
open Bytes Shared Parse

/-! ## Statuses and deltas -/

/-- The counted statuses end in the last chunk. -/
def EndsWithin : List PacketStatusChunk → Nat → Prop
  | [], count => count = 0
  | [c], count => 0 < count ∧ count ≤ c.symbols.length
  | c :: d :: cs, count => c.symbols.length < count ∧ EndsWithin (d :: cs) (count - c.symbols.length)

/-- The deltas that the decoder expects for a row of chunks. -/
def expectedDeltas : List PacketStatusChunk → Nat → List SymbolTypeTcc
  | [], _ => []
  | c :: cs, left => c.expectedDeltas left ++ expectedDeltas cs (left - c.processed left)

/-- The symbols with a delta that stand beyond the count in a last vector. -/
def spill (cs : List PacketStatusChunk) (count : Nat) : List SymbolTypeTcc :=
  match cs.getLast? with
  | some (.statusVectorChunk _) =>
    ((cs.flatMap PacketStatusChunk.symbols).drop count).filter SymbolTypeTcc.hasDelta
  | _ => []

namespace PacketStatusChunk

variable {c : PacketStatusChunk} {left : Nat}

theorem expectedDeltas_of_le (hfits : c.Fits) (hle : c.symbols.length ≤ left) :
    c.expectedDeltas left = c.symbols.filter SymbolTypeTcc.hasDelta ∧
      c.processed left = c.symbols.length := by
  cases c with
  | runLengthChunk c =>
    have hrun : c.runLength.toNat ≤ left := by
      rw [symbols, List.length_replicate] at hle
      exact hle
    rw [expectedDeltas, processed, symbols, List.length_replicate, List.filter_replicate,
      Nat.min_eq_right hrun]
    exact ⟨rfl, rfl⟩
  | statusVectorChunk c =>
    refine ⟨?_, rfl⟩
    obtain ⟨typeTcc, symbolSize, symbolList⟩ := c
    cases symbolSize with
    | twoBit => rfl
    | oneBit =>
      apply List.filter_congr
      intro s hs
      rcases hfits.2.2 s hs with rfl | rfl <;> rfl

theorem expectedDeltas_last (hfits : c.Fits) (hle : left ≤ c.symbols.length) :
    c.expectedDeltas left =
      (c.symbols.take left).filter SymbolTypeTcc.hasDelta ++ spill [c] left := by
  cases c with
  | runLengthChunk c =>
    rw [symbols, List.length_replicate] at hle
    rw [expectedDeltas, symbols, List.take_replicate, List.filter_replicate, Nat.min_eq_left hle]
    exact (List.append_nil _).symm
  | statusVectorChunk c =>
    have hall := (expectedDeltas_of_le hfits (Nat.le_refl _)).1
    change (statusVectorChunk c).expectedDeltas (statusVectorChunk c).symbols.length = _
    rw [hall, spill]
    change _ = _ ++ List.filter _ (List.drop left (List.flatMap symbols [statusVectorChunk c]))
    rw [List.flatMap_singleton, ← List.filter_append, List.take_append_drop]

theorem le_processed (hle : left ≤ c.symbols.length) : left ≤ c.processed left := by
  cases c with
  | runLengthChunk c =>
    rw [symbols, List.length_replicate] at hle
    rw [processed]
    omega
  | statusVectorChunk c => exact hle

end PacketStatusChunk

variable {cs : List PacketStatusChunk}

theorem EndsWithin.tail {c : PacketStatusChunk} {left : Nat}
    (hfits : c.Fits) (hends : EndsWithin (c :: cs) left) :
    0 < left ∧ EndsWithin cs (left - c.processed left) := by
  cases cs with
  | nil =>
    have hdone := PacketStatusChunk.le_processed hends.2
    refine ⟨hends.1, ?_⟩
    rw [EndsWithin]
    omega
  | cons d cs =>
    obtain ⟨hlt, hrest⟩ := hends
    rw [(PacketStatusChunk.expectedDeltas_of_le hfits (Nat.le_of_lt hlt)).2]
    exact ⟨by omega, hrest⟩

theorem spill_cons (c d : PacketStatusChunk) (cs : List PacketStatusChunk) {count : Nat}
    (hlt : c.symbols.length ≤ count) :
    spill (c :: d :: cs) count = spill (d :: cs) (count - c.symbols.length) := by
  rw [spill, spill, List.getLast?_cons_cons, List.flatMap_cons, List.drop_append,
    List.drop_eq_nil_of_le hlt, List.nil_append]

/-- The decoder expects the deltas of the statuses that the count reports, and those of the spilled
    symbols. -/
theorem expectedDeltas_eq (hfits : ∀ c ∈ cs, c.Fits) {count : Nat} (hends : EndsWithin cs count) :
    expectedDeltas cs count =
      ((cs.flatMap PacketStatusChunk.symbols).take count).filter SymbolTypeTcc.hasDelta ++
        spill cs count := by
  induction cs generalizing count with
  | nil =>
    obtain rfl : count = 0 := hends
    rfl
  | cons c cs ih =>
    have hc := hfits c List.mem_cons_self
    cases cs with
    | nil =>
      rw [expectedDeltas, expectedDeltas, List.append_nil, List.flatMap_singleton]
      exact PacketStatusChunk.expectedDeltas_last hc hends.2
    | cons d cs =>
      obtain ⟨hlt, hrest⟩ := hends
      obtain ⟨hdeltas, hprocessed⟩ := PacketStatusChunk.expectedDeltas_of_le hc (Nat.le_of_lt hlt)
      rw [expectedDeltas, hdeltas, hprocessed, ih (fun e he => hfits e (List.mem_cons_of_mem c he)) hrest,
        spill_cons c d cs (Nat.le_of_lt hlt), List.flatMap_cons (x := c), List.take_append,
        List.take_of_length_le (Nat.le_of_lt hlt), List.filter_append, List.append_assoc]

/-! ## The loops of the decoder -/

namespace TransportLayerCc

variable {cs : List PacketStatusChunk}

theorem length_flatMap_put (hfits : ∀ c ∈ cs, c.Fits) :
    (cs.flatMap PacketStatusChunk.put).length = 2 * cs.length := by
  induction cs with
  | nil => rfl
  | cons c cs ih =>
    obtain ⟨b0, b1, hput, -⟩ := PacketStatusChunk.ofBytes_put (hfits c List.mem_cons_self)
    rw [List.flatMap_cons, List.length_append, ih fun d hd => hfits d (List.mem_cons_of_mem c hd),
      hput, List.length_cons, List.length_cons, List.length_cons, List.length_nil]
    omega

/-- The chunks that were written are read back, unless the last one ends at or behind the end of the
    packet. -/
theorem getChunks_put {count totalLength : Nat} (hcount : count < 2 ^ 16)
    (hfits : ∀ c ∈ cs, c.Fits) {fuel pos processed : Nat}
    (rest : List Byte) (hends : EndsWithin cs (count - processed)) (hfuel : cs.length ≤ fuel) :
    getChunks count totalLength fuel pos processed (cs.flatMap PacketStatusChunk.put ++ rest) =
      if cs = [] ∨ pos + 2 * cs.length < totalLength then
        .ok ((cs, expectedDeltas cs (count - processed), pos + 2 * cs.length), rest)
      else Parse.fail .packetTooShort := by
  induction cs generalizing fuel pos processed with
  | nil =>
    have hdone : count ≤ processed := by
      change count - processed = 0 at hends
      omega
    rw [if_pos (Or.inl rfl)]
    cases fuel <;> rw [getChunks, if_pos hdone] <;> rfl
  | cons c cs ih =>
    obtain ⟨fuel, rfl⟩ : ∃ n, fuel = n + 1 := ⟨fuel - 1, by simp at hfuel; omega⟩
    have hc := hfits c List.mem_cons_self
    obtain ⟨hmore, hrest⟩ := hends.tail hc
    obtain ⟨b0, b1, hput, -, hback⟩ := PacketStatusChunk.ofBytes_put hc
    have hleft : count - min (processed + c.processed (count - processed)) 65535 =
        count - processed - c.processed (count - processed) := by
      omega
    rw [List.length_cons] at hfuel
    rw [getChunks, if_neg (by omega), List.flatMap_cons, List.append_assoc, hput]
    by_cases hfull : totalLength ≤ pos + 2
    · rw [if_pos hfull, if_neg]
      rw [List.length_cons]
      rintro (hnil | hroom)
      · cases hnil
      · omega
    rw [if_neg hfull]
    change (getChunks count totalLength fuel (pos + 2)
      (min (processed + (PacketStatusChunk.ofBytes b0 b1).processed (count - processed)) 65535)
      (cs.flatMap PacketStatusChunk.put ++ rest) >>= _) = _
    rw [hback, ih (fun d hd => hfits d (List.mem_cons_of_mem c hd)) (by rw [hleft]; exact hrest)
      (by omega), hleft, List.length_cons]
    by_cases hroom : cs = [] ∨ pos + 2 + 2 * cs.length < totalLength
    · have hroom' : pos + 2 * (cs.length + 1) < totalLength := by
        rcases hroom with rfl | hroom
        · rw [List.length_nil]
          omega
        · omega
      rw [if_pos hroom, if_pos (Or.inr hroom'), Parse.ok_bind,
        show pos + 2 * (cs.length + 1) = pos + 2 + 2 * cs.length by omega]
      rfl
    · rw [if_neg hroom, if_neg, Parse.fail_bind]
      rintro (hnil | hroom')
      · cases hnil
      · exact hroom (Or.inr (by omega))

end TransportLayerCc

namespace RecvDelta

/-- The delta is in the range of its size class, in microseconds. -/
def InRange (d : RecvDelta) : Prop :=
  match d.typeTccPacket with
  | .packetReceivedSmallDelta => 0 ≤ d.delta ∧ d.delta ≤ 63750
  | .packetReceivedLargeDelta => -8192000 ≤ d.delta ∧ d.delta ≤ 8191750
  | _ => False

def put (d : RecvDelta) : List Byte := (d.marshalTo 2).toOption.getD []

/-- The delta as its bytes give it back: in steps of 250 microseconds. -/
def steps (d : RecvDelta) : RecvDelta := { d with delta := 250 * d.delta.tdiv 250 }

theorem steps_eq_self {d : RecvDelta} (h : 250 ∣ d.delta) : d.steps = d := by
  rw [steps, Int.mul_tdiv_cancel' h]

theorem tdiv_bounds (delta : Int) :
    (0 ≤ delta → 0 ≤ delta.tdiv 250 ∧ 250 * delta.tdiv 250 ≤ delta) ∧
      (delta ≤ 0 → delta.tdiv 250 ≤ 0 ∧ delta ≤ 250 * delta.tdiv 250) := by
  constructor
  · intro hpos
    rw [Int.tdiv_eq_ediv_of_nonneg hpos]
    omega
  · intro hneg
    have hflip : delta.tdiv 250 = -((-delta) / 250) := by
      rw [← Int.tdiv_eq_ediv_of_nonneg (by omega), Int.neg_tdiv, Int.neg_neg]
    omega

theorem unmarshal_put {d : RecvDelta} (hd : d.InRange) :
    d.put.length = TransportLayerCc.deltaSize d ∧ unmarshal d.put = .ok d.steps ∧
      ∀ available, d.put.length ≤ available → d.marshalTo available = .ok d.put := by
  obtain ⟨kind, delta⟩ := d
  obtain ⟨hpos, hneg⟩ := tdiv_bounds delta
  cases kind with
  | packetNotReceived => exact hd.elim
  | packetReceivedWithoutDelta => exact hd.elim
  | packetReceivedSmallDelta =>
    obtain ⟨hlow, hhigh⟩ : 0 ≤ delta ∧ delta ≤ 63750 := hd
    obtain ⟨hq, hle⟩ := hpos hlow
    have hmax : delta.tdiv 250 ≤ 255 := by omega
    have hmarshal : ∀ available, 1 ≤ available →
        marshalTo ⟨.packetReceivedSmallDelta, delta⟩ available =
          .ok [BitVec.ofInt 8 (delta.tdiv 250)] := fun available h =>
      if_pos ⟨rfl, hq, hmax, h⟩
    have hput : put ⟨.packetReceivedSmallDelta, delta⟩ = [BitVec.ofInt 8 (delta.tdiv 250)] := by
      rw [put, hmarshal 2 (by decide)]
      rfl
    have hval : ((BitVec.ofInt 8 (delta.tdiv 250)).toNat : Int) = delta.tdiv 250 := by
      rw [BitVec.toNat_ofInt]
      omega
    rw [hput]
    refine ⟨rfl, ?_, hmarshal⟩
    rw [unmarshal, hval, steps]
  | packetReceivedLargeDelta =>
    obtain ⟨hlow, hhigh⟩ : -8192000 ≤ delta ∧ delta ≤ 8191750 := hd
    have hmin : -32768 ≤ delta.tdiv 250 := by
      rcases Int.le_total 0 delta with h | h
      · exact Int.le_trans (by decide) (hpos h).1
      · have hn := hneg h
        omega
    have hmax : delta.tdiv 250 ≤ 32767 := by
      rcases Int.le_total 0 delta with h | h
      · have hp := hpos h
        omega
      · exact Int.le_trans (hneg h).1 (by decide)
    have hmarshal : ∀ available, 2 ≤ available →
        marshalTo ⟨.packetReceivedLargeDelta, delta⟩ available =
          .ok (toBe16 (BitVec.ofInt 16 (delta.tdiv 250))) := fun available h => by
      rw [marshalTo]
      dsimp only
      rw [if_neg (by simp), if_pos ⟨rfl, hmin, hmax, h⟩]
    have hput : put ⟨.packetReceivedLargeDelta, delta⟩ =
        toBe16 (BitVec.ofInt 16 (delta.tdiv 250)) := by
      rw [put, hmarshal 2 (by decide)]
      rfl
    have hval : (BitVec.ofInt 16 (delta.tdiv 250)).toInt = delta.tdiv 250 := by
      rw [BitVec.toInt_ofInt]
      exact Int.bmod_eq_of_le (by omega) (by omega)
    rw [hput]
    refine ⟨rfl, ?_, hmarshal⟩
    rw [toBe16, unmarshal, be16_toBe16, hval, steps]

end RecvDelta

namespace TransportLayerCc

theorem deltaSize_pos (d : RecvDelta) : 0 < deltaSize d := by
  rw [deltaSize]
  split <;> decide

variable {ds : List RecvDelta}

theorem length_flatMap_deltas (hds : ∀ d ∈ ds, d.InRange) :
    (ds.flatMap RecvDelta.put).length = (ds.map deltaSize).sum := by
  induction ds with
  | nil => rfl
  | cons d ds ih =>
    rw [List.flatMap_cons, List.length_append, ih fun e he => hds e (List.mem_cons_of_mem d he),
      (RecvDelta.unmarshal_put (hds d List.mem_cons_self)).1, List.map_cons, List.sum_cons]

theorem getDeltas_put {totalLength : Nat} (hds : ∀ d ∈ ds, d.InRange)
    {pos : Nat} (rest : List Byte) (hroom : pos + (ds.map deltaSize).sum ≤ totalLength) :
    getDeltas totalLength pos (ds.map RecvDelta.typeTccPacket) (ds.flatMap RecvDelta.put ++ rest) =
      .ok (ds.map RecvDelta.steps, rest) := by
  induction ds generalizing pos with
  | nil => rfl
  | cons d ds ih =>
    obtain ⟨hlen, hback, -⟩ := RecvDelta.unmarshal_put (hds d List.mem_cons_self)
    have hpos := deltaSize_pos d
    have hsize : (if d.typeTccPacket = .packetReceivedSmallDelta then 1 else 2) = d.put.length :=
      hlen.symm
    rw [List.map_cons, List.sum_cons] at hroom
    rw [List.map_cons, getDeltas, if_neg (by omega), List.flatMap_cons, List.append_assoc]
    dsimp only
    rw [hsize, List.take_left, List.drop_left, hback, Parse.ok_bind,
      ih (fun e he => hds e (List.mem_cons_of_mem d he)) (by omega), Parse.ok_bind]
    rfl

/-! ## The packet -/

def reported (p : TransportLayerCc) : List SymbolTypeTcc :=
  (p.packetChunks.flatMap PacketStatusChunk.symbols).take p.packetStatusCount.toNat

/-- The count ends in the last chunk, and the deltas are those of the received packets. -/
structure Consistent (p : TransportLayerCc) : Prop where
  ends : EndsWithin p.packetChunks p.packetStatusCount.toNat
  kinds : p.recvDeltas.map RecvDelta.typeTccPacket = p.reported.filter SymbolTypeTcc.hasDelta
  range : ∀ d ∈ p.recvDeltas, d.InRange

/-- The packet comes back, and the length in its header is that of the bytes. -/
def RoundTrips (p : TransportLayerCc) : Prop :=
  ∃ bytes h, p.marshal = .ok bytes ∧ unmarshal bytes = .ok (p, []) ∧
    Header.unmarshal bytes = .ok h ∧ 4 * (h.length.toNat + 1) = bytes.length

/-- What the wire format and the decoder can carry. -/
structure Representable (p : TransportLayerCc) : Prop where
  chunks : ∀ c ∈ p.packetChunks, c.Fits
  time : p.referenceTime.toNat < 2 ^ 24
  steps : ∀ d ∈ p.recvDeltas, 250 ∣ d.delta
  size : p.marshalSize ≤ 4 * 65535
  room : p.recvDeltas ≠ [] ∨ p.packetChunks = [] ∨ p.packetChunks.length % 2 = 1
  noSpill : spill p.packetChunks p.packetStatusCount.toNat = []

/-- The last chunk ends in front of the end of the packet exactly if there are deltas or the chunks
    need padding. -/
theorem room_iff (p : TransportLayerCc) :
    (p.packetChunks = [] ∨ 20 + 2 * p.packetChunks.length < p.marshalSize) ↔
      (p.recvDeltas ≠ [] ∨ p.packetChunks = [] ∨ p.packetChunks.length % 2 = 1) := by
  have hraw : p.rawSize = 20 + p.packetChunks.length * 2 + (p.recvDeltas.map deltaSize).sum := rfl
  have hsize : p.marshalSize = p.rawSize + getPaddingSize p.rawSize := rfl
  have hmod := getPaddingSize_mod p.rawSize
  have hpad : getPaddingSize p.rawSize < 4 := by
    rw [getPaddingSize]
    split <;> omega
  cases hdeltas : p.recvDeltas with
  | nil =>
    have hzero : (p.recvDeltas.map deltaSize).sum = 0 := by
      rw [hdeltas]
      rfl
    have hiff : 20 + 2 * p.packetChunks.length < p.marshalSize ↔ p.packetChunks.length % 2 = 1 := by
      omega
    rw [hiff]
    simp
  | cons d ds =>
    have hpos := deltaSize_pos d
    have hsum : (p.recvDeltas.map deltaSize).sum = deltaSize d + (ds.map deltaSize).sum := by
      rw [hdeltas]
      rfl
    have hlt : 20 + 2 * p.packetChunks.length < p.marshalSize := by
      omega
    simp [hlt]

theorem toNat_appendNbitsToUint32 (src val : BitVec 32) {n : Nat}
    (hmask : (0xFFFFFFFF#32 >>> (32 - n)).toNat = 2 ^ n - 1) (hsrc : src.toNat * 2 ^ n < 2 ^ 32) :
    (appendNbitsToUint32 src n val).toNat = src.toNat * 2 ^ n + val.toNat % 2 ^ n := by
  rw [appendNbitsToUint32, BitVec.toNat_or, BitVec.toNat_shiftLeft, BitVec.toNat_and, hmask,
    Nat.and_two_pow_sub_one_eq_mod, Nat.shiftLeft_eq, Nat.mod_eq_of_lt hsrc, Nat.mul_comm,
    ← Nat.two_pow_add_eq_or_of_lt (Nat.mod_lt _ (Nat.two_pow_pos n))]

theorem toBe32_timeWord (p : TransportLayerCc) :
    ∃ t0 t1 t2, toBe32 p.timeWord = [t0, t1, t2, p.fbPktCount] ∧
      (get24bitsFromBytes t0 t1 t2).toNat = p.referenceTime.toNat % 2 ^ 24 := by
  have hcount := p.fbPktCount.isLt
  have htime : (appendNbitsToUint32 0#32 24 p.referenceTime).toNat = p.referenceTime.toNat % 2 ^ 24 := by
    rw [toNat_appendNbitsToUint32 _ _ rfl (by decide)]
    exact Nat.zero_add _
  have hword : p.timeWord.toNat = p.referenceTime.toNat % 2 ^ 24 * 2 ^ 8 + p.fbPktCount.toNat := by
    rw [timeWord, toNat_appendNbitsToUint32 _ _ rfl (by rw [htime]; omega), htime,
      BitVec.toNat_setWidth]
    omega
  have hlow : p.timeWord.extractLsb' 0 8 = p.fbPktCount := by
    apply BitVec.eq_of_toNat_eq
    rw [BitVec.extractLsb'_toNat, Nat.shiftRight_eq_div_pow, hword]
    omega
  refine ⟨p.timeWord.extractLsb' 24 8, p.timeWord.extractLsb' 16 8, p.timeWord.extractLsb' 8 8, ?_, ?_⟩
  · rw [toBe32, hlow]
  · rw [toNat_get24bitsFromBytes]
    simp only [BitVec.extractLsb'_toNat, Nat.shiftRight_eq_div_pow, hword]
    omega

/-- The bytes between the header and the padding. -/
def content (p : TransportLayerCc) : List Byte :=
  toBe32 p.senderSsrc ++ (toBe32 p.mediaSsrc ++ (toBe16 p.baseSequenceNumber ++
    (toBe16 p.packetStatusCount ++ (toBe32 p.timeWord ++
      (p.packetChunks.flatMap PacketStatusChunk.put ++ p.recvDeltas.flatMap RecvDelta.put)))))

section

variable {p : TransportLayerCc} (hfits : ∀ c ∈ p.packetChunks, c.Fits)
  (hrange : ∀ d ∈ p.recvDeltas, d.InRange)

include hfits hrange

theorem length_content : p.content.length + 4 = p.rawSize := by
  have hraw : p.rawSize = 20 + p.packetChunks.length * 2 + (p.recvDeltas.map deltaSize).sum := rfl
  simp only [content, List.length_append, length_toBe32, length_toBe16, length_flatMap_put hfits,
    length_flatMap_deltas hrange]
  omega

theorem marshal_eq_ok :
    ∃ head, p.header.marshalTo 4 = .ok head ∧
      p.marshal = .ok (head ++ (p.content ++ putPadding p.rawSize)) := by
  have hraw : p.rawSize = 20 + p.packetChunks.length * 2 + (p.recvDeltas.map deltaSize).sum := rfl
  have hsize : p.marshalSize = p.rawSize + getPaddingSize p.rawSize := rfl
  have hlen := length_content hfits hrange
  have hhead : ∀ available, 4 ≤ available → ∃ head, p.header.marshalTo available = .ok head := by
    intro available havailable
    have hcount : ¬ 31#8 < p.header.count := show ¬ 31#8 < formatTcc by decide
    rw [Header.marshalTo, if_neg hcount, if_neg (by omega)]
    exact ⟨_, rfl⟩
  obtain ⟨head, hhead⟩ := hhead p.marshalSize (by omega)
  have hfour := Header.marshalTo_four hhead
  have hchunks : Emit.putAll PacketStatusChunk.marshalTo (p.marshalSize - 20) p.packetChunks =
      .ok (p.packetChunks.flatMap PacketStatusChunk.put) := by
    refine Emit.putAll_of_room ?_ (by rw [length_flatMap_put hfits]; omega)
    intro c hc available _
    obtain ⟨b0, b1, hput, hmarshal, -⟩ := PacketStatusChunk.ofBytes_put (hfits c hc)
    rw [hmarshal, hput]
  have hdeltas : Emit.putAll RecvDelta.marshalTo
      (p.marshalSize - 20 - (p.packetChunks.flatMap PacketStatusChunk.put).length) p.recvDeltas =
      .ok (p.recvDeltas.flatMap RecvDelta.put) := by
    refine Emit.putAll_of_room ?_ ?_
    · intro d hd
      exact (RecvDelta.unmarshal_put (hrange d hd)).2.2
    · rw [length_flatMap_deltas hrange, length_flatMap_put hfits]
      omega
  have hbody : p.body p.marshalSize = .ok p.content := by
    simp only [body, bind, Except.bind, hchunks, hdeltas, content]
  have hmarshal : p.marshalTo p.marshalSize = .ok (head ++ (p.content ++ putPadding p.rawSize)) := by
    rw [marshalTo, if_neg (Nat.lt_irrefl _), hbody, Header.frame, hhead]
    have hpad := Header.ofSize_putPadding formatTcc .transportSpecificFeedback p.rawSize
    change (Except.ok (head ++ (p.content ++ if p.header.padding then putPadding p.rawSize else [])) :
      Except Error _) = _
    rw [header, hpad]
  refine ⟨head, hfour, ?_⟩
  rw [marshal, hmarshal]
  dsimp only
  rw [if_neg]
  rw [List.length_append, List.length_append, length_putPadding,
    (Header.unmarshal_of_marshalTo hfour []).1]
  omega

theorem unmarshal_of_marshal {bytes : List Byte} (hm : p.marshal = .ok bytes) (hsize : p.marshalSize ≤ 4 * 65535)
    (hends : EndsWithin p.packetChunks p.packetStatusCount.toNat) :
    Header.unmarshal bytes = .ok p.header ∧ bytes.length = 4 * (p.header.length.toNat + 1) ∧
    ∃ time : BitVec 32, time.toNat = p.referenceTime.toNat % 2 ^ 24 ∧ unmarshal bytes =
      if p.packetChunks = [] ∨ 20 + 2 * p.packetChunks.length < p.marshalSize then
        getDeltas p.marshalSize (20 + 2 * p.packetChunks.length)
          (expectedDeltas p.packetChunks p.packetStatusCount.toNat)
          (p.recvDeltas.flatMap RecvDelta.put ++ putPadding p.rawSize) >>= fun r =>
            .ok ({ p with referenceTime := time, recvDeltas := r.1 }, [])
      else Parse.fail .packetTooShort := by
  obtain ⟨head, hhead, hbytes⟩ := marshal_eq_ok hfits hrange
  have hlen := length_content hfits hrange
  have hraw : p.rawSize = 20 + p.packetChunks.length * 2 + (p.recvDeltas.map deltaSize).sum := rfl
  have htotal : p.marshalSize = p.rawSize + getPaddingSize p.rawSize := rfl
  have hmod := getPaddingSize_mod p.rawSize
  have hlength : p.header.length.toNat = p.marshalSize / 4 - 1 := by
    rw [header, Header.ofSize, BitVec.toNat_ofNat, ← htotal]
    omega
  obtain rfl : head ++ (p.content ++ putPadding p.rawSize) = bytes := by
    rw [hbytes] at hm
    exact Except.ok.inj hm
  have hframed : Framed p.header (p.content ++ putPadding p.rawSize)
      (head ++ (p.content ++ putPadding p.rawSize)) := by
    refine ⟨head, hhead, rfl, ?_⟩
    rw [List.length_append, length_putPadding, hlength]
    omega
  have hbody : (p.content ++ putPadding p.rawSize).length =
      p.content.length + getPaddingSize p.rawSize := by
    rw [List.length_append, length_putPadding]
  have hfull := hframed.length
  rw [hbody] at hfull
  obtain ⟨t0, t1, t2, hword, htime⟩ := toBe32_timeWord p
  refine ⟨hframed.read, by omega, get24bitsFromBytes t0 t1 t2, htime, ?_⟩
  rw [unmarshal, if_neg (by omega), hframed.read]
  dsimp only
  rw [if_neg (by omega), if_neg (by omega), if_neg (by omega), if_neg (by simp [header, Header.ofSize]),
    hframed.drop, content]
  simp only [List.append_assoc, Parse.getU32_toBe32, Parse.getU16_toBe16, Parse.ok_bind]
  rw [hword]
  simp only [List.cons_append, List.nil_append, Parse.getU8_cons, Parse.ok_bind]
  rw [show 4 * (p.header.length.toNat + 1) = p.marshalSize by omega,
    getChunks_put p.packetStatusCount.isLt hfits _ hends (by omega)]
  split
  · rw [Parse.ok_bind]
    rfl
  · rfl

end

/-- A packet that comes back has chunks that fit, deltas in steps and a time of 24 bits, and it is not
    as large as the length field can say. -/
theorem RoundTrips.decoded {p : TransportLayerCc} (hp : p.RoundTrips) :
    (∀ c ∈ p.packetChunks, c.Fits) ∧ (∀ d ∈ p.recvDeltas, 250 ∣ d.delta) ∧
      p.referenceTime.toNat < 2 ^ 24 ∧
      ∃ bytes h, p.marshal = .ok bytes ∧ unmarshal bytes = .ok (p, []) ∧
        Header.unmarshal bytes = .ok h ∧ 4 * (h.length.toNat + 1) = bytes.length ∧
        h.length.toNat + 1 < 2 ^ 16 := by
  obtain ⟨bytes, h, hm, hback, hread, hlen⟩ := hp
  have hsmall : h.length.toNat + 1 < 2 ^ 16 := by
    by_contra hbig
    rw [unmarshal, if_neg (by omega), hread] at hback
    dsimp only at hback
    rw [if_pos (by omega)] at hback
    cases hback
  obtain ⟨-, hchunks, hdeltas, htime⟩ := (returns_unmarshal hread hsmall).of_eq_ok hback
  refine ⟨?_, hdeltas, htime, bytes, h, hm, hback, hread, hlen, hsmall⟩
  intro c hc
  obtain ⟨b0, b1, rfl⟩ := hchunks c hc
  exact PacketStatusChunk.fits_ofBytes b0 b1

/-- A consistent feedback comes back, with the right length in its header, exactly if it is
    representable. -/
theorem roundTrips_iff {p : TransportLayerCc} (hp : p.Consistent) :
    p.RoundTrips ↔ p.Representable := by
  have htotal : p.marshalSize = p.rawSize + getPaddingSize p.rawSize := rfl
  constructor
  · intro htrip
    obtain ⟨hfits, hsteps, htime, bytes, h, hm, hback, hread, hlen, hsmall⟩ := htrip.decoded
    have hsize : p.marshalSize ≤ 4 * 65535 := by
      obtain ⟨head, hhead, hbytes⟩ := marshal_eq_ok hfits hp.range
      have hcontent := length_content hfits hp.range
      rw [hm] at hbytes
      have hfull := congrArg List.length (Except.ok.inj hbytes)
      rw [List.length_append, List.length_append, length_putPadding,
        (Header.unmarshal_of_marshalTo hhead []).1] at hfull
      omega
    obtain ⟨-, -, time, -, hout⟩ := unmarshal_of_marshal hfits hp.range hm hsize hp.ends
    rw [hback] at hout
    split at hout
    case isFalse => cases hout
    case isTrue hroom =>
      refine ⟨hfits, htime, hsteps, hsize, (room_iff p).mp hroom, ?_⟩
      cases hget : getDeltas p.marshalSize (20 + 2 * p.packetChunks.length)
          (expectedDeltas p.packetChunks p.packetStatusCount.toNat)
          (p.recvDeltas.flatMap RecvDelta.put ++ putPadding p.rawSize) with
      | error e =>
        rw [hget] at hout
        cases hout
      | ok r =>
        rw [hget, Parse.ok_bind] at hout
        have hdeltas : p.recvDeltas = r.1 :=
          congrArg (fun q => q.1.recvDeltas) (Except.ok.inj hout)
        have hcount := ((returns_getDeltas _ _).of_eq_ok hget).1
        rw [← hdeltas, expectedDeltas_eq hfits hp.ends, List.length_append] at hcount
        have hkinds := congrArg List.length hp.kinds
        rw [List.length_map, reported] at hkinds
        exact List.length_eq_zero_iff.mp (by omega)
  · intro hrep
    obtain ⟨head, hhead, hm⟩ := marshal_eq_ok hrep.chunks hp.range
    obtain ⟨hread, hlen, time, htime, hout⟩ :=
      unmarshal_of_marshal hrep.chunks hp.range hm hrep.size hp.ends
    refine ⟨_, p.header, hm, ?_, hread, hlen.symm⟩
    have hkinds : expectedDeltas p.packetChunks p.packetStatusCount.toNat =
        p.recvDeltas.map RecvDelta.typeTccPacket := by
      rw [expectedDeltas_eq hrep.chunks hp.ends, hrep.noSpill, List.append_nil, hp.kinds, reported]
    have hraw : p.rawSize = 20 + p.packetChunks.length * 2 + (p.recvDeltas.map deltaSize).sum := rfl
    have hsteps : p.recvDeltas.map RecvDelta.steps = p.recvDeltas := by
      have hself : p.recvDeltas.map RecvDelta.steps = p.recvDeltas.map id :=
        List.map_congr_left fun d hd => RecvDelta.steps_eq_self (hrep.steps d hd)
      rw [hself, List.map_id]
    have htime' : time = p.referenceTime := by
      apply BitVec.eq_of_toNat_eq
      rw [htime, Nat.mod_eq_of_lt hrep.time]
    rw [hout, if_pos ((room_iff p).mpr hrep.room), hkinds, getDeltas_put hp.range _ (by omega),
      Parse.ok_bind, hsteps, htime']

/-- Five packets, of which three were received: a run of one, and a vector. -/
def fiveStatuses : TransportLayerCc where
  senderSsrc := 1#32
  mediaSsrc := 2#32
  baseSequenceNumber := 3#16
  packetStatusCount := 5#16
  referenceTime := 4#32
  fbPktCount := 5#8
  packetChunks :=
    [.runLengthChunk ⟨.runLengthChunk, .packetReceivedSmallDelta, 1#16⟩,
      .statusVectorChunk ⟨.statusVectorChunk, .twoBit, [.packetNotReceived, .packetReceivedLargeDelta,
        .packetNotReceived, .packetReceivedSmallDelta, .packetNotReceived, .packetNotReceived,
        .packetNotReceived]⟩]
  recvDeltas := [⟨.packetReceivedSmallDelta, 250⟩, ⟨.packetReceivedLargeDelta, -500⟩,
    ⟨.packetReceivedSmallDelta, 63750⟩]

theorem roundTrips_fiveStatuses : fiveStatuses.RoundTrips := by
  refine (roundTrips_iff ⟨?_, ?_, ?_⟩).mpr ⟨?_, ?_, ?_, ?_, ?_, ?_⟩
  · exact ⟨by decide, by decide, by decide⟩
  · decide
  · simp [fiveStatuses, RecvDelta.InRange]
  · simp [fiveStatuses, PacketStatusChunk.Fits]
  · decide
  · simp [fiveStatuses]
  · decide
  · decide
  · decide

/-- Two packets that were not received, in two chunks. -/
def noneReceived : TransportLayerCc where
  senderSsrc := 1#32
  mediaSsrc := 2#32
  baseSequenceNumber := 3#16
  packetStatusCount := 2#16
  referenceTime := 4#32
  fbPktCount := 5#8
  packetChunks :=
    [.runLengthChunk ⟨.runLengthChunk, .packetNotReceived, 1#16⟩,
      .runLengthChunk ⟨.runLengthChunk, .packetNotReceived, 1#16⟩]
  recvDeltas := []

/-- The decoder rejects what was written: the second chunk ends where the packet does. -/
theorem noneReceived_rejected : noneReceived.Consistent ∧
    noneReceived.marshal.toOption.map unmarshal = some (Parse.fail .packetTooShort) := by
  refine ⟨⟨⟨by decide, by decide, by decide⟩, by decide, nofun⟩, by decide +kernel⟩

end TransportLayerCc
end Rtc.Rtcp
