import Rtc.Interceptor.Proofs.StatusBuilder
import Rtc.Interceptor.Rtpfb.Convert

/-!
# The arrival times of transport-wide feedback

`Feedback` writes the time of a packet as the difference from the time of the one before it, in units of 250
microseconds, and `convert_twcc` adds the differences up again. The builder takes each difference from the time that
the reader will have, so the rounding of one packet is not carried to the next.
-/

namespace Rtc.Interceptor.Twcc.Feedback

open Rtcp (SymbolTypeTcc PacketStatusChunk TransportLayerCc RecvDelta)
open Rtpfb

variable {f f' : Feedback} {symbols : List SymbolTypeTcc} {p : TransportLayerCc} {s : Conversion}
  {packets : List (Seq × Int)} {acks : List Acknowledgement} {seq : Seq} {t : Int}

/-! ## One packet -/

theorem foldl_addSymbol (symbols : List SymbolTypeTcc) (f : Feedback) :
    ∃ chunks lastChunk count, symbols.foldl addSymbol f = { f with
      chunks, lastChunk, sequenceNumberCount := count
      nextSequenceNumber := f.nextSequenceNumber + BitVec.ofNat 16 symbols.length } := by
  induction symbols generalizing f with
  | nil => exact ⟨_, _, _, by simp; rfl⟩
  | cons symbol symbols ih =>
    obtain ⟨chunks, lastChunk, count, hrest⟩ := ih (f.addSymbol symbol)
    refine ⟨chunks, lastChunk, count, ?_⟩
    rw [List.foldl_cons, hrest, List.length_cons, Nat.add_comm, BitVec.ofNat_add, ← BitVec.add_assoc]
    simp only [addSymbol]
    split <;> rfl

theorem addReceived_fields (h : f.addReceived seq t = (true, f')) :
    |t - f'.lastTimestampUs| ≤ 125 ∧ ∃ d s, -32768 ≤ d ∧ d ≤ 32767 ∧ f'.lastTimestampUs = f.lastTimestampUs + d * 250 ∧
      f'.deltas = f.deltas ++ [⟨s, d * 250⟩] ∧ f'.nextSequenceNumber = seq + 1#16 ∧
      f'.baseSequenceNumber = f.baseSequenceNumber ∧ f'.refTimestamp64ms = f.refTimestamp64ms := by
  have hround : |t - (f.lastTimestampUs + f.delta250us t * 250)| ≤ 125 := by
    rw [abs_le]
    simp only [delta250us, Int.tdiv_eq_ediv, show Int.sign 250 = 1 from rfl]
    split_ifs <;> omega
  unfold addReceived at h
  dsimp only at h
  split at h
  · cases h
  · obtain ⟨chunks, lastChunk, count, hadded⟩ := foldl_addSymbol (List.replicate
      (Serial.ahead f.nextSequenceNumber seq) .packetNotReceived ++ [if 0 ≤ f.delta250us t ∧ f.delta250us t ≤ 0xff then
        SymbolTypeTcc.packetReceivedSmallDelta else .packetReceivedLargeDelta]) f
    rw [List.foldl_concat, List.length_append, List.length_replicate, BitVec.ofNat_add, ← BitVec.add_assoc,
      Serial.add_ahead] at hadded
    rw [hadded] at h
    obtain rfl := (Prod.mk.inj h).2
    exact ⟨hround, _, _, by omega, by omega, rfl, rfl, rfl, rfl, rfl⟩

theorem foldl_push_lost (n : Nat) : (List.replicate n SymbolTypeTcc.packetNotReceived).foldl (Conversion.push p) s =
    { s with
      offset := s.offset + BitVec.ofNat 16 n
      acknowledgements := s.acknowledgements ++
        (List.range n).map fun i => .lost (p.baseSequenceNumber + (s.offset + BitVec.ofNat 16 i)) } := by
  induction n with
  | zero => simp
  | succ n ih =>
    rw [List.replicate_succ', List.foldl_append, ih, List.range_succ, List.map_append, BitVec.ofNat_add]
    simp [Conversion.push, BitVec.add_assoc]

/-- A packet is offered to a feedback; the packets it took are listed. -/
def offer (s : Feedback × List (Seq × Int)) (packet : Seq × Int) : Feedback × List (Seq × Int) :=
  match s.1.addReceived packet.1 packet.2 with
  | (true, f) => (f, s.2 ++ [packet])
  | (false, f) => (f, s.2)

/-- The acknowledgement is the packet's, with its time to 125 microseconds. -/
def Near (a : Acknowledgement) (packet : Seq × Int) : Prop :=
  a.sequenceNumber = packet.1 ∧ ∃ arrival, a.arrival = some arrival ∧ |(arrival : Int) - 1000 * packet.2| ≤ 125000

/-- What a feedback tells so far, read by `convert_twcc`: one acknowledgement for each number from the base on, of
    which `packets` are the ones received. The reader's time is then the builder's. -/
structure Tells (base : Seq) (reference : Int) (f : Feedback) (packets : List (Seq × Int))
    (symbols : List SymbolTypeTcc) (acks : List Acknowledgement) : Prop where
  holds : f.Holds symbols
  valid : ∀ d ∈ symbols, d ≠ .packetReceivedWithoutDelta
  base_eq : f.baseSequenceNumber = base
  reference_eq : f.refTimestamp64ms = reference
  read : ∀ p : TransportLayerCc, p.baseSequenceNumber = base → f.deltas <+: p.recvDeltas →
    symbols.foldl (Conversion.push p) { arrival := 64000000 * reference.toNat } =
      ⟨1000 * f.lastTimestampUs.toNat, f.deltas.length, BitVec.ofNat 16 acks.length, acks⟩
  next : f.nextSequenceNumber = base + BitVec.ofNat 16 acks.length
  time : 0 ≤ f.lastTimestampUs ∧ 250 ∣ f.lastTimestampUs
  numbers : acks.map (·.sequenceNumber) = Serial.interval base acks.length
  near : List.Forall₂ Near (acks.filter (·.arrived)) packets

namespace Tells

variable {base : Seq} {reference : Int} (h : Tells base reference f packets symbols acks)
include h

theorem addReceived (ht : 0 ≤ t) (hadd : f.addReceived seq t = (true, f')) :
    ∃ symbols acks, Tells base reference f' (packets ++ [(seq, t)]) symbols acks := by
  obtain ⟨hnear, d, kind, hlow, hhigh, hlast, hdeltas, hnext, hbase, hreference⟩ := addReceived_fields hadd
  obtain ⟨s, hs, hholds⟩ := h.holds.addReceived h.valid (by rw [hadd])
  rw [hadd] at hholds
  generalize hmissing : Serial.ahead f.nextSequenceNumber seq = missing at hholds
  obtain ⟨htime, hunit⟩ := h.time
  rw [abs_le] at hnear
  have hseq : base + BitVec.ofNat 16 (acks.length + missing) = seq := by
    rw [BitVec.ofNat_add, ← BitVec.add_assoc, ← h.next, ← hmissing, Serial.add_ahead]
  refine ⟨_, acks ++ ((List.range missing).map fun i => .lost (base + BitVec.ofNat 16 (acks.length + i)))
    ++ [.received seq (some (1000 * f'.lastTimestampUs.toNat)) .notEct], hholds, ?_, hbase.trans h.base_eq,
    hreference.trans h.reference_eq, ?_, ?_, by omega, ?_, ?_⟩
  · intro x hx
    rcases List.mem_append.mp hx with hx | hx
    · exact h.valid x hx
    · rcases hs with rfl | rfl <;> simp at hx <;> rcases hx with ⟨-, rfl⟩ | rfl <;> decide
  · rintro p hp ⟨later, hlater⟩
    rw [hdeltas] at hlater
    have hdelta : p.recvDeltas[f.deltas.length]? = some ⟨kind, d * 250⟩ := by simp [← hlater]
    have harrival : (if d * 250 < 0 then 1000 * f.lastTimestampUs.toNat - 1000 * ((d * 250).natAbs % 2 ^ 32)
        else 1000 * f.lastTimestampUs.toNat + 1000 * ((d * 250).natAbs % 2 ^ 32)) =
          1000 * f'.lastTimestampUs.toNat := by
      split <;> omega
    rw [List.foldl_append, h.read p hp ⟨_, (List.append_assoc _ _ _).symm.trans hlater⟩, List.foldl_concat,
      foldl_push_lost]
    rcases hs with rfl | rfl <;>
      simp only [Conversion.push, hdelta, harrival, hp, ← BitVec.ofNat_add, hseq] <;>
      simp [hdeltas, Nat.add_assoc]
  · rw [hnext, ← hseq]
    simp [BitVec.ofNat_add, BitVec.add_assoc]
  · simp [h.numbers, Serial.interval, List.range_add, Function.comp_def, Acknowledgement.lost,
      Acknowledgement.received, hseq]
  · rw [List.filter_append, List.filter_append, @List.filter_eq_nil_iff _ _ (List.map _ _) |>.mpr
      (by simp [Acknowledgement.lost]), List.append_nil]
    refine List.rel_append h.near (.cons ⟨rfl, _, rfl, ?_⟩ .nil)
    rw [abs_le]
    omega

/-- The packet that is made is read as what was told. The padding of its last chunk is read as lost packets. -/
theorem convert (hreference : 0 ≤ reference ∧ reference < 2 ^ 32) : convertTwcc f.getRtcp = acks ∧
    ∃ n ≤ 6, ∃ read, List.Forall₂ Reads f.getRtcp.packetChunks read ∧
      convertTwcc { f.getRtcp with packetChunks := read } =
        acks ++ (List.range n).map fun i => .lost (base + BitVec.ofNat 16 (acks.length + i)) := by
  have htime : f.getRtcp.referenceTime.toNat = reference.toNat := by
    simp only [getRtcp, BitVec.toNat_ofInt, h.reference_eq]
    omega
  obtain ⟨hexpand, ⟨n, hn, read, hread, hpadded⟩, -⟩ := h.holds.getRtcp h.valid
  refine ⟨?_, n, hn, read, hread, ?_⟩
  · rw [convertTwcc, hexpand, htime, h.read _ h.base_eq List.prefix_rfl]
  · rw [convertTwcc, hpadded, htime, List.foldl_append, h.read _ h.base_eq List.prefix_rfl, foldl_push_lost]
    simp [getRtcp, h.base_eq, BitVec.ofNat_add]

theorem offer (packet : Seq × Int) (ht : 0 ≤ packet.2) :
    ∃ symbols acks, Tells base reference (Feedback.offer (f, packets) packet).1
      (Feedback.offer (f, packets) packet).2 symbols acks := by
  unfold Feedback.offer
  split
  case h_1 f' hadd => exact h.addReceived ht hadd
  case h_2 f' hadd =>
    unfold Feedback.addReceived at hadd
    dsimp only at hadd
    split at hadd
    · obtain rfl := (Prod.mk.inj hadd).2
      exact ⟨_, _, h⟩
    · cases hadd

theorem run {offered : List (Seq × Int)} (htimes : ∀ packet ∈ offered, 0 ≤ packet.2) :
    ∃ symbols acks, Tells base reference (Runs.run Feedback.offer (f, packets) offered).1
      (Runs.run Feedback.offer (f, packets) offered).2 symbols acks := by
  induction offered generalizing f packets symbols acks with
  | nil => exact ⟨_, _, h⟩
  | cons packet offered ih =>
    obtain ⟨ht, htimes⟩ := List.forall_mem_cons.mp htimes
    obtain ⟨symbols', acks', h'⟩ := h.offer packet ht
    exact ih h' htimes

end Tells

theorem tells_setBase (senderSsrc mediaSsrc : Ssrc) (fbPktCnt : Byte) (base : Seq) {first : Int} (hfirst : 0 ≤ first) :
    Tells base (first / 64000) ((new senderSsrc mediaSsrc fbPktCnt).setBase base first) [] [] [] := by
  have hdiv := Int.tdiv_eq_ediv_of_nonneg (b := 64000) hfirst
  refine ⟨(holds_new senderSsrc mediaSsrc fbPktCnt).congr rfl rfl, List.forall_mem_nil _, rfl, hdiv, fun p hp _ => ?_,
    ?_, ?_, rfl, .nil⟩
  · have htime : 64000000 * (first / 64000).toNat = 1000 * (first / 64000 * 64000).toNat := by omega
    simp only [setBase, hdiv, List.foldl_nil, htime]
    rfl
  · simp [setBase]
  · simp only [setBase, hdiv]
    omega

/-- Whatever packets are offered to a feedback, `convert_twcc` makes of it one acknowledgement for each number from the
    base on, of which those that arrived are the packets taken, in their order, each with its time to 125 microseconds.
    From the chunks as they are read from the wire it makes up to six more, of lost packets. -/
theorem convertTwcc_getRtcp (senderSsrc mediaSsrc : Ssrc) (fbPktCnt : Byte) (base : Seq) (first : Int)
    (offered : List (Seq × Int)) (hfirst : 0 ≤ first) (hreference : first < 64000 * 2 ^ 32)
    (htimes : ∀ packet ∈ offered, 0 ≤ packet.2) :
    let s := Runs.run offer ((new senderSsrc mediaSsrc fbPktCnt).setBase base first, []) offered
    let acks := convertTwcc s.1.getRtcp
    acks.map (·.sequenceNumber) = Serial.interval base acks.length ∧
    List.Forall₂ Near (acks.filter (·.arrived)) s.2 ∧
    ∃ n ≤ 6, ∃ read, List.Forall₂ Reads s.1.getRtcp.packetChunks read ∧
      convertTwcc { s.1.getRtcp with packetChunks := read } =
        acks ++ (List.range n).map fun i => .lost (base + BitVec.ofNat 16 (acks.length + i)) := by
  obtain ⟨symbols, acks, h⟩ := (tells_setBase senderSsrc mediaSsrc fbPktCnt base hfirst).run htimes
  obtain ⟨hacks, hpadded⟩ := h.convert ⟨by omega, by omega⟩
  dsimp only
  rw [hacks]
  exact ⟨h.numbers, h.near, hpadded⟩

theorem convertTwcc_getRtcp_reordered :
    let s := Runs.run offer ((new 1#32 2#32 0#8).setBase 65534#16 1000100, [])
      [(65534, 1000100), (1, 1000030), (2, 1000400)]
    List.Forall₂ Near ((convertTwcc s.1.getRtcp).filter (·.arrived)) s.2 :=
  (convertTwcc_getRtcp 1#32 2#32 0#8 65534#16 1000100 [(65534, 1000100), (1, 1000030), (2, 1000400)] (by decide)
    (by decide) (by decide)).2.1

end Rtc.Interceptor.Twcc.Feedback
