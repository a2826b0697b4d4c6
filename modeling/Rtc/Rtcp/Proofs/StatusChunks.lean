import Rtc.Rtcp.TransportLayerCc

/-!
# Status chunks on the wire

The bit fields of a chunk as numbers: `setNbitsOfUint16` appends a digit and `getNbitsFromByte` cuts one out. A chunk
whose fields fit is read back from its two bytes, and whatever two bytes give fits.
-/

namespace Rtc.Rtcp
open Bytes Shared

/-! ## Bit fields as digits -/

theorem setNbitsOfUint16_eq_ok (dst val : BitVec 16) (size start high : Nat)
    (hroom : start + size ≤ 16) (hdst : dst.toNat = high * 2 ^ (16 - start)) (hval : val.toNat < 2 ^ size) :
    ∃ word, setNbitsOfUint16 dst size start val = .ok word ∧
      word.toNat = (high * 2 ^ size + val.toNat) * 2 ^ (16 - start - size) := by
  refine ⟨_, if_neg (by omega), ?_⟩
  obtain ⟨k, hk⟩ : ∃ k, 16 = start + size + k := ⟨16 - (start + size), by omega⟩
  have hsize : 2 ^ size ≤ 2 ^ 16 := Nat.pow_le_pow_right (by decide) (by omega)
  have hmask : val &&& BitVec.ofNat 16 (2 ^ size - 1) = val := by
    apply BitVec.eq_of_toNat_eq
    rw [BitVec.toNat_and, BitVec.toNat_ofNat, Nat.mod_eq_of_lt (by omega),
      Nat.and_two_pow_sub_one_eq_mod, Nat.mod_eq_of_lt hval]
  have hfield : val.toNat * 2 ^ k < 2 ^ (size + k) := by
    rw [Nat.pow_add]
    exact Nat.mul_lt_mul_of_pos_right hval (Nat.two_pow_pos k)
  have hpow : 2 ^ (size + k) ≤ 2 ^ 16 := Nat.pow_le_pow_right (by decide) (by omega)
  have hshift : (val <<< k).toNat = val.toNat * 2 ^ k := by
    rw [BitVec.toNat_shiftLeft, Nat.shiftLeft_eq, Nat.mod_eq_of_lt (by omega)]
  rw [hmask, show 16 - size - start = k by omega, show 16 - start - size = k by omega,
    BitVec.toNat_or, hshift, hdst, show 16 - start = size + k by omega, Nat.mul_comm high,
    ← Nat.two_pow_add_eq_or_of_lt hfield, Nat.pow_add, Nat.add_mul]
  congr 1
  rw [Nat.mul_comm, Nat.mul_assoc]

theorem toNat_getNbitsFromByte (b : Byte) {begin n : Nat} (h : begin + n ≤ 8) :
    (getNbitsFromByte b begin n).toNat = b.toNat / 2 ^ (8 - (begin + n)) % 2 ^ n := by
  have hb := b.isLt
  have hall : (255#8).toNat = 2 ^ 8 - 1 := rfl
  simp only [getNbitsFromByte, BitVec.toNat_ushiftRight, BitVec.toNat_setWidth, BitVec.toNat_and,
    BitVec.toNat_shiftLeft, hall]
  apply Nat.eq_of_testBit_eq
  intro i
  simp only [Nat.testBit_shiftRight, Nat.testBit_mod_two_pow, Nat.testBit_and, Nat.testBit_shiftLeft,
    Nat.testBit_two_pow_sub_one, Nat.testBit_div_two_pow]
  by_cases hi : i < n
  · have h16 : 8 - (begin + n) + i < 16 := by omega
    have hin : begin + (8 - (begin + n) + i) < 8 := by omega
    have h8 : 8 - (begin + n) + i < 8 := by omega
    have hi8 : i < 8 := by omega
    simp [hi, h16, hin, h8, hi8, Nat.add_comm i]
  · have hout : ¬ begin + (8 - (begin + n) + i) < 8 := by omega
    simp [hi, hout]

theorem SymbolTypeTcc.ofWord_eq {val : BitVec 16} {s : SymbolTypeTcc}
    (h : val.toNat = s.toWord.toNat) : ofWord val = s := by
  rw [ofWord, h]
  cases s <;> rfl

theorem toNat_extractLsb'_high (w : BitVec 16) : (w.extractLsb' 8 8).toNat = w.toNat / 256 := by
  have hw := w.isLt
  rw [BitVec.extractLsb'_toNat, Nat.shiftRight_eq_div_pow]
  omega

theorem toNat_extractLsb'_low (w : BitVec 16) : (w.extractLsb' 0 8).toNat = w.toNat % 256 := by
  rw [BitVec.extractLsb'_toNat, Nat.shiftRight_eq_div_pow]
  omega

/-! ## Chunks -/

namespace PacketStatusChunk

def symbols : PacketStatusChunk → List SymbolTypeTcc
  | runLengthChunk c => List.replicate c.runLength.toNat c.packetStatusSymbol
  | statusVectorChunk c => c.symbolList

/-- The chunk fits its two bytes: a run of 13 bits, 14 symbols of one bit, or 7 of two bits, and the
    type that belongs to it. -/
def Fits : PacketStatusChunk → Prop
  | runLengthChunk c => c.typeTcc = .runLengthChunk ∧ c.runLength.toNat < 2 ^ 13
  | statusVectorChunk c => c.typeTcc = .statusVectorChunk ∧
    match c.symbolSize with
    | .oneBit => c.symbolList.length = 14 ∧
      ∀ s ∈ c.symbolList, s = .packetNotReceived ∨ s = .packetReceivedSmallDelta
    | .twoBit => c.symbolList.length = 7

def put (c : PacketStatusChunk) : List Byte := (c.marshalTo 2).toOption.getD []

end PacketStatusChunk

theorem RunLengthChunk.ofBytes_word {c : RunLengthChunk} (htype : c.typeTcc = .runLengthChunk)
    (hrun : c.runLength.toNat < 2 ^ 13) :
    ∃ w, c.word = .ok w ∧
      PacketStatusChunk.ofBytes (w.extractLsb' 8 8) (w.extractLsb' 0 8) = .runLengthChunk c := by
  have hsym : c.packetStatusSymbol.toWord.toNat < 2 ^ 2 := by
    cases c.packetStatusSymbol <;> decide
  obtain ⟨w1, hw1, hv1⟩ := setNbitsOfUint16_eq_ok 0#16 0#16 1 0 0 (by decide) rfl (by decide)
  obtain ⟨w2, hw2, hv2⟩ := setNbitsOfUint16_eq_ok w1 c.packetStatusSymbol.toWord 2 1 0 (by decide)
    (by rw [hv1]; rfl) hsym
  obtain ⟨w3, hw3, hv3⟩ := setNbitsOfUint16_eq_ok w2 c.runLength 13 3
    c.packetStatusSymbol.toWord.toNat (by decide) (by rw [hv2]; omega) hrun
  have hhigh := toNat_extractLsb'_high w3
  have hlow := toNat_extractLsb'_low w3
  refine ⟨w3, ?_, ?_⟩
  · simp only [word, bind, Except.bind, hw1, hw2, hw3]
  · have hkind : getNbitsFromByte (w3.extractLsb' 8 8) 0 1 = 0#16 := by
      apply BitVec.eq_of_toNat_eq
      rw [toNat_getNbitsFromByte _ (by decide), hhigh, hv3]
      change _ = 0
      omega
    have hsymbol : SymbolTypeTcc.ofWord (getNbitsFromByte (w3.extractLsb' 8 8) 1 2) =
        c.packetStatusSymbol := by
      apply SymbolTypeTcc.ofWord_eq
      rw [toNat_getNbitsFromByte _ (by decide), hhigh, hv3]
      omega
    have hlength : (getNbitsFromByte (w3.extractLsb' 8 8) 3 5 <<< 8) +
        (w3.extractLsb' 0 8).setWidth 16 = c.runLength := by
      apply BitVec.eq_of_toNat_eq
      rw [BitVec.toNat_add, BitVec.toNat_shiftLeft, BitVec.toNat_setWidth, Nat.shiftLeft_eq,
        toNat_getNbitsFromByte _ (by decide), hhigh, hlow, hv3]
      omega
    rw [PacketStatusChunk.ofBytes, hkind]
    change PacketStatusChunk.runLengthChunk (RunLengthChunk.ofBytes _ _) = _
    rw [RunLengthChunk.ofBytes, hsymbol, hlength, ← htype]

variable {symbols : List SymbolTypeTcc} {c : StatusVectorChunk} {w : BitVec 16}

theorem StatusVectorChunk.putSymbols_eq_ok {bits : Nat} {i high : Nat}
    {dst : BitVec 16} (hsymbols : ∀ s ∈ symbols, s.toWord.toNat < 2 ^ bits)
    (hroom : bits * (i + symbols.length) ≤ 14) (hdst : dst.toNat = high * 2 ^ (14 - bits * i)) :
    ∃ w, putSymbols bits i symbols dst = .ok w ∧
      w.toNat = symbols.foldl (fun d s => d * 2 ^ bits + s.toWord.toNat) high *
        2 ^ (14 - bits * (i + symbols.length)) := by
  induction symbols generalizing i high dst with
  | nil => exact ⟨dst, rfl, hdst⟩
  | cons s symbols ih =>
    have hnext : i + (s :: symbols).length = i + 1 + symbols.length := by
      rw [List.length_cons]
      omega
    have hle : bits * (i + 1) ≤ bits * (i + (s :: symbols).length) :=
      Nat.mul_le_mul_left bits (by omega)
    have hmul : bits * (i + 1) = bits * i + bits := Nat.mul_succ bits i
    obtain ⟨w, hw, hv⟩ := setNbitsOfUint16_eq_ok dst s.toWord bits (bits * i + 2) high (by omega)
      (by rw [hdst, show 16 - (bits * i + 2) = 14 - bits * i by omega])
      (hsymbols s List.mem_cons_self)
    rw [show 16 - (bits * i + 2) - bits = 14 - bits * (i + 1) by omega] at hv
    rw [hnext] at hroom
    obtain ⟨w', hw', hv'⟩ := ih (fun t ht => hsymbols t (List.mem_cons_of_mem s ht)) hroom hv
    refine ⟨w', ?_, ?_⟩
    · rw [putSymbols, hw]
      exact hw'
    · rw [hnext]
      exact hv'

theorem StatusVectorChunk.word_eq_ok (hsymbols : ∀ s ∈ c.symbolList, s.toWord.toNat < 2 ^ c.symbolSize.bits)
    (hlen : c.symbolSize.bits * c.symbolList.length = 14) :
    ∃ w, c.word = .ok w ∧
      w.toNat = c.symbolList.foldl (fun d s => d * 2 ^ c.symbolSize.bits + s.toWord.toNat)
        (2 + c.symbolSize.toWord.toNat) := by
  have hsize : c.symbolSize.toWord.toNat < 2 ^ 1 := by
    cases c.symbolSize <;> decide
  obtain ⟨w1, hw1, hv1⟩ := setNbitsOfUint16_eq_ok 0#16 1#16 1 0 0 (by decide) rfl (by decide)
  obtain ⟨w2, hw2, hv2⟩ := setNbitsOfUint16_eq_ok w1 c.symbolSize.toWord 1 1 1 (by decide)
    (by rw [hv1]; rfl) hsize
  have htop : w2.toNat = (2 + c.symbolSize.toWord.toNat) * 2 ^ (14 - c.symbolSize.bits * 0) := by
    rw [hv2, Nat.mul_zero]
    omega
  obtain ⟨w3, hw3, hv3⟩ := putSymbols_eq_ok (i := 0) hsymbols (by rw [Nat.zero_add, hlen]) htop
  refine ⟨w3, ?_, ?_⟩
  · simp only [word, bind, Except.bind, hw1, hw2, hw3]
  · rw [hv3, Nat.zero_add, hlen, Nat.sub_self, Nat.pow_zero, Nat.mul_one]

theorem StatusVectorChunk.kind_of_word (hw : 2 ^ 15 ≤ w.toNat) :
    StatusChunkTypeTcc.ofWord (getNbitsFromByte (w.extractLsb' 8 8) 0 1) = .statusVectorChunk := by
  have hlt := w.isLt
  have hbit : (getNbitsFromByte (w.extractLsb' 8 8) 0 1).toNat = 1 := by
    rw [toNat_getNbitsFromByte _ (by decide), toNat_extractLsb'_high]
    omega
  rw [StatusChunkTypeTcc.ofWord, if_neg]
  intro hzero
  rw [hzero] at hbit
  cases hbit

theorem StatusVectorChunk.symbolsOf_oneBit
    (hlen : symbols.length = 14) (hsymbols : ∀ s ∈ symbols, s.toWord.toNat < 2)
    (hw : w.toNat = symbols.foldl (fun d s => d * 2 + s.toWord.toNat) 2) :
    symbolsOf .oneBit (w.extractLsb' 8 8) (w.extractLsb' 0 8) = symbols ∧
      getNbitsFromByte (w.extractLsb' 8 8) 1 1 = 0#16 ∧ 2 ^ 15 ≤ w.toNat := by
  match symbols, hlen with
  | [s0, s1, s2, s3, s4, s5, s6, s7, s8, s9, s10, s11, s12, s13], _ =>
    simp only [List.forall_mem_cons] at hsymbols
    simp only [List.foldl_cons, List.foldl_nil] at hw
    refine ⟨?_, ?_, by omega⟩
    · simp only [symbolsOf, List.range, List.range.loop, List.map_cons, List.map_nil,
        List.cons_append, List.nil_append, List.cons.injEq, and_true]
      refine ⟨?_, ?_, ?_, ?_, ?_, ?_, ?_, ?_, ?_, ?_, ?_, ?_, ?_, ?_⟩ <;>
        apply SymbolTypeTcc.ofWord_eq <;> rw [toNat_getNbitsFromByte _ (by decide)] <;>
        simp only [toNat_extractLsb'_high, toNat_extractLsb'_low] <;> omega
    · apply BitVec.eq_of_toNat_eq
      rw [toNat_getNbitsFromByte _ (by decide), toNat_extractLsb'_high]
      change _ = 0
      omega

theorem StatusVectorChunk.symbolsOf_twoBit
    (hlen : symbols.length = 7) (hsymbols : ∀ s ∈ symbols, s.toWord.toNat < 4)
    (hw : w.toNat = symbols.foldl (fun d s => d * 4 + s.toWord.toNat) 3) :
    symbolsOf .twoBit (w.extractLsb' 8 8) (w.extractLsb' 0 8) = symbols ∧
      getNbitsFromByte (w.extractLsb' 8 8) 1 1 = 1#16 ∧ 2 ^ 15 ≤ w.toNat := by
  match symbols, hlen with
  | [s0, s1, s2, s3, s4, s5, s6], _ =>
    simp only [List.forall_mem_cons] at hsymbols
    simp only [List.foldl_cons, List.foldl_nil] at hw
    refine ⟨?_, ?_, by omega⟩
    · simp only [symbolsOf, List.range, List.range.loop, List.map_cons, List.map_nil,
        List.cons_append, List.nil_append, List.cons.injEq, and_true]
      refine ⟨?_, ?_, ?_, ?_, ?_, ?_, ?_⟩ <;>
        apply SymbolTypeTcc.ofWord_eq <;> rw [toNat_getNbitsFromByte _ (by decide)] <;>
        simp only [toNat_extractLsb'_high, toNat_extractLsb'_low] <;> omega
    · apply BitVec.eq_of_toNat_eq
      rw [toNat_getNbitsFromByte _ (by decide), toNat_extractLsb'_high]
      change _ = 1
      omega

theorem StatusVectorChunk.ofBytes_word (hfits : (PacketStatusChunk.statusVectorChunk c).Fits) :
    ∃ w, c.word = .ok w ∧
      PacketStatusChunk.ofBytes (w.extractLsb' 8 8) (w.extractLsb' 0 8) = .statusVectorChunk c := by
  obtain ⟨typeTcc, symbolSize, symbolList⟩ := c
  obtain ⟨htype, hsymbols⟩ := hfits
  obtain rfl : typeTcc = .statusVectorChunk := htype
  cases symbolSize with
  | oneBit =>
    obtain ⟨hlen, hone⟩ := hsymbols
    have hsmall : ∀ s ∈ symbolList, s.toWord.toNat < 2 := by
      intro s hs
      rcases hone s hs with rfl | rfl <;> decide
    obtain ⟨w, hw, hv⟩ := word_eq_ok (c := ⟨.statusVectorChunk, .oneBit, symbolList⟩) hsmall
      (by rw [SymbolSizeTypeTcc.bits, hlen])
    obtain ⟨hback, hsize, hbig⟩ := symbolsOf_oneBit hlen hsmall hv
    refine ⟨w, hw, ?_⟩
    rw [PacketStatusChunk.ofBytes, kind_of_word hbig]
    change PacketStatusChunk.statusVectorChunk (StatusVectorChunk.ofBytes _ _) = _
    rw [StatusVectorChunk.ofBytes, hsize]
    change PacketStatusChunk.statusVectorChunk ⟨_, _, symbolsOf .oneBit _ _⟩ = _
    rw [hback]
    rfl
  | twoBit =>
    have hlen : symbolList.length = 7 := hsymbols
    have hsmall : ∀ s ∈ symbolList, s.toWord.toNat < 4 := by
      intro s _
      cases s <;> decide
    obtain ⟨w, hw, hv⟩ := word_eq_ok (c := ⟨.statusVectorChunk, .twoBit, symbolList⟩) hsmall
      (by rw [SymbolSizeTypeTcc.bits, hlen])
    obtain ⟨hback, hsize, hbig⟩ := symbolsOf_twoBit hlen hsmall hv
    refine ⟨w, hw, ?_⟩
    rw [PacketStatusChunk.ofBytes, kind_of_word hbig]
    change PacketStatusChunk.statusVectorChunk (StatusVectorChunk.ofBytes _ _) = _
    rw [StatusVectorChunk.ofBytes, hsize]
    change PacketStatusChunk.statusVectorChunk ⟨_, _, symbolsOf .twoBit _ _⟩ = _
    rw [hback]
    rfl

namespace PacketStatusChunk

theorem ofBytes_put {c : PacketStatusChunk} (hfits : c.Fits) :
    ∃ b0 b1, c.put = [b0, b1] ∧ (∀ available, c.marshalTo available = .ok [b0, b1]) ∧
      ofBytes b0 b1 = c := by
  cases c with
  | runLengthChunk c =>
    obtain ⟨w, hw, hback⟩ := RunLengthChunk.ofBytes_word hfits.1 hfits.2
    have hmarshal : ∀ available, (runLengthChunk c).marshalTo available =
        .ok [w.extractLsb' 8 8, w.extractLsb' 0 8] := by
      intro available
      rw [marshalTo, hw]
      rfl
    refine ⟨_, _, ?_, hmarshal, hback⟩
    rw [put, hmarshal]
    rfl
  | statusVectorChunk c =>
    obtain ⟨w, hw, hback⟩ := StatusVectorChunk.ofBytes_word hfits
    have hmarshal : ∀ available, (statusVectorChunk c).marshalTo available =
        .ok [w.extractLsb' 8 8, w.extractLsb' 0 8] := by
      intro available
      rw [marshalTo, hw]
      rfl
    refine ⟨_, _, ?_, hmarshal, hback⟩
    rw [put, hmarshal]
    rfl

theorem fits_ofBytes (b0 b1 : Byte) : (ofBytes b0 b1).Fits := by
  have hbit : ∀ (b : Byte) (begin : Nat), begin + 1 ≤ 8 →
      SymbolTypeTcc.ofWord (getNbitsFromByte b begin 1) = .packetNotReceived ∨
        SymbolTypeTcc.ofWord (getNbitsFromByte b begin 1) = .packetReceivedSmallDelta := by
    intro b begin hbegin
    have hval := toNat_getNbitsFromByte b hbegin
    rw [Nat.pow_one] at hval
    rcases Nat.mod_two_eq_zero_or_one (b.toNat / 2 ^ (8 - (begin + 1))) with hzero | hone
    · exact Or.inl (SymbolTypeTcc.ofWord_eq (by rw [hval, hzero]; rfl))
    · exact Or.inr (SymbolTypeTcc.ofWord_eq (by rw [hval, hone]; rfl))
  rw [ofBytes]
  cases StatusChunkTypeTcc.ofWord (getNbitsFromByte b0 0 1) with
  | runLengthChunk =>
    refine ⟨rfl, ?_⟩
    have hb1 := b1.isLt
    change ((getNbitsFromByte b0 3 5 <<< 8) + b1.setWidth 16).toNat < 2 ^ 13
    rw [BitVec.toNat_add, BitVec.toNat_shiftLeft, BitVec.toNat_setWidth, Nat.shiftLeft_eq,
      toNat_getNbitsFromByte _ (by decide)]
    omega
  | statusVectorChunk =>
    refine ⟨rfl, ?_⟩
    dsimp only [StatusVectorChunk.ofBytes]
    cases SymbolSizeTypeTcc.ofWord (getNbitsFromByte b0 1 1) with
    | oneBit =>
      refine ⟨rfl, ?_⟩
      intro s hs
      rw [StatusVectorChunk.symbolsOf, List.mem_append, List.mem_map, List.mem_map] at hs
      rcases hs with ⟨i, hi, rfl⟩ | ⟨i, hi, rfl⟩
      · rw [List.mem_range] at hi
        exact hbit b0 (2 + i) (by omega)
      · rw [List.mem_range] at hi
        exact hbit b1 i (by omega)
    | twoBit => rfl

end PacketStatusChunk
end Rtc.Rtcp
