import Rtc.Interceptor.Twcc.Feedback
import Rtc.Lib.Runs
import Rtc.Rtcp.Proofs.StatusChunks

/-!
# The statuses of transport-wide feedback

The chunk builder of `Feedback` loses no status: the emitted chunks with the open chunk hold the sequence that was
added.
-/

namespace Rtc.Interceptor.Twcc

open Rtcp (SymbolTypeTcc PacketStatusChunk StatusVectorChunk)

namespace Chunk

variable {c : Chunk} {s : SymbolTypeTcc}

/-- The flags say what the statuses are, and some encoding holds them all. -/
structure Sound (c : Chunk) : Prop where
  different_iff : c.hasDifferentTypes = true ↔ ∃ d ∈ c.deltas, c.deltas.head? ≠ some d
  large_iff : c.hasLargeDelta = true ↔ .packetReceivedLargeDelta ∈ c.deltas
  length_le : c.deltas.length ≤ 0x1fff
  mixed_le : c.hasDifferentTypes = true → c.deltas.length ≤ 14
  large_le : c.hasDifferentTypes = true → c.hasLargeDelta = true → c.deltas.length ≤ 7

theorem sound_new : new.Sound :=
  ⟨by simp [new], by simp [new], by decide, nofun, nofun⟩

theorem sound_ofDeltas {deltas : List SymbolTypeTcc} (h : deltas.length ≤ 7) : (ofDeltas deltas).Sound where
  different_iff := by simp [ofDeltas]
  large_iff := by simp [ofDeltas]
  length_le := h.trans (by decide)
  mixed_le _ := h.trans (by decide)
  large_le _ _ := h

theorem canAdd_iff : c.canAdd s = true ↔ c.deltas.length < 7 ∨
    (c.deltas.length < 14 ∧ c.hasLargeDelta = false ∧ s ≠ .packetReceivedLargeDelta) ∨
    (c.deltas.length < 0x1fff ∧ c.hasDifferentTypes = false ∧ c.deltas.head? = some s) := by
  unfold canAdd
  split_ifs with hseven hfourteen hrun
  · simp [hseven]
  · simpa [hseven] using Or.inl hfourteen
  · simpa [hseven] using Or.inr hrun
  · simp only [false_iff]
    rintro (h | h | h)
    · exact hseven h
    · exact hfourteen (by simpa using h)
    · exact hrun (by simpa using h)

theorem Sound.add (h : c.Sound) (hadd : c.canAdd s = true) : (c.add s).Sound := by
  have hlen : (c.add s).deltas.length = c.deltas.length + 1 := List.length_append
  have hdifferent : (c.add s).hasDifferentTypes = true ↔
      c.hasDifferentTypes = true ∨ (c.deltas ≠ [] ∧ c.deltas.head? ≠ some s) := by
    simp [Chunk.add]
  have hlarge : (c.add s).hasLargeDelta = true ↔ c.hasLargeDelta = true ∨ s = .packetReceivedLargeDelta := by
    simp [Chunk.add]
  rw [canAdd_iff] at hadd
  refine ⟨?_, ?_, ?_, ?_, ?_⟩
  · rw [hdifferent, h.different_iff]
    change _ ↔ ∃ d ∈ c.deltas ++ [s], (c.deltas ++ [s]).head? ≠ some d
    cases c.deltas with
    | nil => simp
    | cons first rest =>
      simp only [List.head?_cons, List.cons_append, List.mem_cons, List.mem_append, List.not_mem_nil, or_false,
        ne_eq, not_false_eq_true, true_and, reduceCtorEq]
      constructor
      · rintro (⟨d, hd, hne⟩ | hne)
        · exact ⟨d, hd.imp_right .inl, hne⟩
        · exact ⟨s, .inr (.inr rfl), hne⟩
      · rintro ⟨d, rfl | hd | rfl, hne⟩
        · exact absurd rfl hne
        · exact .inl ⟨d, .inr hd, hne⟩
        · exact .inr hne
  · rw [hlarge, h.large_iff]
    change _ ↔ _ ∈ c.deltas ++ [s]
    simp [eq_comm]
  · rw [hlen]
    omega
  · intro hmixed
    rw [hlen]
    rcases hadd with hadd | hadd | ⟨-, hsame, hhead⟩
    · omega
    · omega
    · rcases hdifferent.mp hmixed with hdiff | ⟨-, hdiff⟩
      · rw [hsame] at hdiff
        cases hdiff
      · exact absurd hhead hdiff
  · intro hmixed hlarge'
    rw [hlen]
    rcases hadd with hadd | ⟨-, hnone, hs⟩ | ⟨-, hsame, hhead⟩
    · omega
    · rcases hlarge.mp hlarge' with hl | hl
      · rw [hnone] at hl
        cases hl
      · exact absurd hl hs
    · rcases hdifferent.mp hmixed with hdiff | ⟨-, hdiff⟩
      · rw [hsame] at hdiff
        cases hdiff
      · exact absurd hhead hdiff

/-- A chunk of two-bit symbols that are not all there, the last of a packet. -/
def Short (e : PacketStatusChunk) : Prop :=
  ∃ symbols : List SymbolTypeTcc, 0 < symbols.length ∧ symbols.length < 7 ∧
    e = .statusVectorChunk ⟨.statusVectorChunk, .twoBit, symbols⟩

/-- What `encode` does: it emits the first statuses, leaves less than seven of them, and emits a chunk that is
    not full only as the last one. -/
theorem Sound.encode (h : c.Sound) (hne : c.deltas ≠ [])
    (hvalid : ∀ d ∈ c.deltas, d ≠ .packetReceivedWithoutDelta) :
    c.encode.1.symbols ++ c.encode.2.deltas = c.deltas ∧ c.encode.2.deltas.length < c.deltas.length ∧
      c.encode.2.deltas.length < 7 ∧ c.encode.2.Sound ∧
      (c.encode.1.Fits ∨ (Short c.encode.1 ∧ c.encode.2.deltas = [] ∧ c.deltas.length < 7)) := by
  have hpos : 0 < c.deltas.length := List.length_pos_iff.mpr hne
  have hle := h.length_le
  unfold Chunk.encode
  split_ifs with hsame hfull
  · -- a run
    have hcount : (BitVec.ofNat 16 c.deltas.length).toNat = c.deltas.length := by
      rw [BitVec.toNat_ofNat]
      omega
    have hrun : List.replicate c.deltas.length (c.deltas.headD .packetNotReceived) = c.deltas := by
      rw [eq_comm, List.eq_replicate_iff]
      refine ⟨rfl, fun d hd => ?_⟩
      have hhead : c.deltas.head? = some d := by
        by_contra hdiff
        rw [h.different_iff.mpr ⟨d, hd, hdiff⟩] at hsame
        cases hsame
      rw [List.headD_eq_head?_getD, hhead, Option.getD_some]
    refine ⟨?_, hpos, Nat.succ_pos 6, sound_new, .inl ⟨rfl, ?_⟩⟩
    · rw [PacketStatusChunk.symbols, hcount, hrun]
      exact List.append_nil _
    · dsimp only
      rw [hcount]
      omega
  · -- one-bit symbols
    have hdiff : c.hasDifferentTypes = true := by simpa using hsame
    refine ⟨List.append_nil _, hpos, Nat.succ_pos 6, sound_new, .inl ⟨rfl, hfull, fun d hd => ?_⟩⟩
    have hnone : d ≠ .packetReceivedLargeDelta := by
      rintro rfl
      have := h.large_le hdiff (h.large_iff.mpr hd)
      omega
    have hother := hvalid d hd
    cases d <;> simp_all
  · -- two-bit symbols
    have hmixed := h.mixed_le (by simpa using hsame)
    have hdrop : (c.deltas.drop (min 7 c.deltas.length)).length = c.deltas.length - min 7 c.deltas.length :=
      List.length_drop
    have htake : (c.deltas.take (min 7 c.deltas.length)).length = min 7 c.deltas.length := by
      rw [List.length_take]
      omega
    refine ⟨List.take_append_drop _ _, ?_, ?_, sound_ofDeltas ?_, ?_⟩
    · exact hdrop.trans_lt (by omega)
    · exact hdrop.trans_lt (by omega)
    · omega
    · by_cases hseven : c.deltas.length < 7
      · exact .inr ⟨⟨_, by omega, by omega, rfl⟩, List.drop_eq_nil_of_le (by omega), hseven⟩
      · exact .inl ⟨rfl, htake.trans (by omega)⟩

theorem canAdd_of_lt (h : c.deltas.length < 7) : c.canAdd s = true := canAdd_iff.mpr (.inl h)

theorem length_of_not_canAdd (h : c.canAdd s = false) : 7 ≤ c.deltas.length := by
  by_contra hlt
  rw [canAdd_of_lt (by omega)] at h
  cases h

theorem Sound.flush {fuel : Nat} (h : c.Sound) (hvalid : ∀ d ∈ c.deltas, d ≠ .packetReceivedWithoutDelta)
    (hfuel : c.deltas.length ≤ fuel) :
    (c.flush fuel).flatMap PacketStatusChunk.symbols = c.deltas ∧
      ∃ full last, c.flush fuel = full ++ last ∧ (∀ e ∈ full, e.Fits) ∧ (last = [] ∨ ∃ e, last = [e] ∧ Short e) := by
  induction fuel generalizing c with
  | zero =>
    have hnil : c.deltas = [] := List.length_eq_zero_iff.mp (Nat.le_zero.mp hfuel)
    exact ⟨by rw [hnil]; rfl, [], [], rfl, nofun, .inl rfl⟩
  | succ fuel ih =>
    rw [Chunk.flush]
    by_cases hnil : c.deltas = []
    · rw [if_pos hnil, hnil]
      exact ⟨rfl, [], [], rfl, nofun, .inl rfl⟩
    · obtain ⟨hsplit, hless, -, hsound, hemit⟩ := h.encode hnil hvalid
      rw [if_neg hnil]
      have hvalid' : ∀ d ∈ c.encode.2.deltas, d ≠ .packetReceivedWithoutDelta := by
        intro d hd
        apply hvalid
        rw [← hsplit]
        exact List.mem_append_right _ hd
      obtain ⟨hrest, full, last, heq, hfits, hlast⟩ := ih hsound hvalid' (by omega)
      refine ⟨by rw [List.flatMap_cons, hrest, hsplit], ?_⟩
      rcases hemit with hfit | ⟨hshort, hempty, -⟩
      · refine ⟨c.encode.1 :: full, last, by rw [heq, List.cons_append], ?_, hlast⟩
        exact List.forall_mem_cons.mpr ⟨hfit, hfits⟩
      · -- a chunk that is not full takes everything
        refine ⟨[], [c.encode.1], ?_, nofun, .inr ⟨_, rfl, hshort⟩⟩
        cases fuel with
        | zero => rfl
        | succ fuel => rw [Chunk.flush, if_pos hempty, List.nil_append]

end Chunk

/-! ## On the wire -/

/-- The chunk `e` is written in two bytes, from which `r` is read. -/
def Reads (e r : PacketStatusChunk) : Prop :=
  ∃ b0 b1, (∀ available, e.marshalTo available = .ok [b0, b1]) ∧ PacketStatusChunk.ofBytes b0 b1 = r

theorem reads_of_fits {e : PacketStatusChunk} (h : e.Fits) : Reads e e := by
  obtain ⟨b0, b1, -, hmarshal, hread⟩ := PacketStatusChunk.ofBytes_put h
  exact ⟨b0, b1, hmarshal, hread⟩

theorem foldl_replicate_notReceived (n high : Nat) :
    (List.replicate n SymbolTypeTcc.packetNotReceived).foldl (fun d s => d * 2 ^ 2 + s.toWord.toNat) high =
      high * 2 ^ (2 * n) := by
  induction n generalizing high with
  | zero => simp
  | succ n ih =>
    rw [List.replicate_succ, List.foldl_cons, ih, Nat.mul_succ, Nat.pow_add, Nat.mul_comm (2 ^ (2 * n)), ← Nat.mul_assoc]
    rfl

theorem reads_of_short {symbols : List SymbolTypeTcc} (h : symbols.length < 7) :
    Reads (.statusVectorChunk ⟨.statusVectorChunk, .twoBit, symbols⟩)
      (.statusVectorChunk ⟨.statusVectorChunk, .twoBit,
        symbols ++ List.replicate (7 - symbols.length) .packetNotReceived⟩) := by
  have hsmall : ∀ {symbols : List SymbolTypeTcc}, ∀ s ∈ symbols, s.toWord.toNat < 2 ^ 2 := by
    intro symbols s _
    cases s <;> decide
  obtain ⟨w, hw, hv⟩ := @StatusVectorChunk.putSymbols_eq_ok symbols 2 0 3 0xC000#16 hsmall (by omega) rfl
  obtain ⟨w', hw', hread⟩ := @StatusVectorChunk.ofBytes_word ⟨.statusVectorChunk, .twoBit,
    symbols ++ List.replicate (7 - symbols.length) .packetNotReceived⟩ ⟨rfl, by simp; omega⟩
  obtain ⟨w'', hw'', hv''⟩ := @StatusVectorChunk.word_eq_ok ⟨.statusVectorChunk, .twoBit,
    symbols ++ List.replicate (7 - symbols.length) .packetNotReceived⟩ hsmall (by simp [Rtcp.SymbolSizeTypeTcc.bits]; omega)
  have hsame : w' = w'' := Except.ok.inj (hw'.symm.trans hw'')
  have hpadded : w = w' := by
    apply BitVec.eq_of_toNat_eq
    rw [hsame, hv'', hv, List.foldl_append]
    change _ = (List.replicate _ _).foldl (fun d (s : SymbolTypeTcc) => d * 2 ^ 2 + s.toWord.toNat) _
    rw [foldl_replicate_notReceived, Nat.zero_add]
    congr 2
    omega
  refine ⟨_, _, fun available => ?_, hread⟩
  have hword : StatusVectorChunk.word ⟨.statusVectorChunk, .twoBit, symbols⟩ = .ok w' := by
    have hkind : Rtcp.setNbitsOfUint16 0#16 1 0 1#16 = .ok 0x8000#16 := rfl
    have hsize : Rtcp.setNbitsOfUint16 0x8000#16 1 1 1#16 = .ok 0xC000#16 := rfl
    simp only [StatusVectorChunk.word, Rtcp.SymbolSizeTypeTcc.toWord, Rtcp.SymbolSizeTypeTcc.bits, bind, Except.bind,
      hkind, hsize, hw, hpadded]
  rw [PacketStatusChunk.marshalTo, hword]
  rfl

/-! ## The builder -/

namespace Feedback

variable {f : Feedback} {symbols : List SymbolTypeTcc} {s : SymbolTypeTcc}

/-- The chunks of `f` and its open chunk hold `symbols`. -/
structure Holds (f : Feedback) (symbols : List SymbolTypeTcc) : Prop where
  expand : f.chunks.flatMap PacketStatusChunk.symbols ++ f.lastChunk.deltas = symbols
  fits : ∀ e ∈ f.chunks, e.Fits
  sound : f.lastChunk.Sound

theorem Holds.congr {f' : Feedback} (h : f.Holds symbols) (hchunks : f'.chunks = f.chunks)
    (hlast : f'.lastChunk = f.lastChunk) : f'.Holds symbols :=
  ⟨by rw [hchunks, hlast, h.expand], hchunks ▸ h.fits, hlast ▸ h.sound⟩

theorem holds_new (senderSsrc mediaSsrc : Ssrc) (fbPktCnt : Byte) : (new senderSsrc mediaSsrc fbPktCnt).Holds [] :=
  ⟨rfl, nofun, Chunk.sound_new⟩

section

variable (h : f.Holds symbols)
include h

variable (hvalid : ∀ d ∈ symbols, d ≠ .packetReceivedWithoutDelta)
include hvalid

theorem Holds.valid : ∀ d ∈ f.lastChunk.deltas, d ≠ .packetReceivedWithoutDelta := by
  intro d hd
  apply hvalid
  rw [← h.expand]
  exact List.mem_append_right _ hd

theorem Holds.addSymbol (s : SymbolTypeTcc) : (f.addSymbol s).Holds (symbols ++ [s]) := by
  unfold Feedback.addSymbol
  cases hadd : f.lastChunk.canAdd s with
  | true =>
    refine ⟨?_, h.fits, h.sound.add hadd⟩
    rw [← h.expand, List.append_assoc]
    rfl
  | false =>
    have hseven := Chunk.length_of_not_canAdd hadd
    have hne : f.lastChunk.deltas ≠ [] := List.ne_nil_of_length_pos (by omega)
    obtain ⟨hsplit, -, hroom, hsound, hemit⟩ := h.sound.encode hne (h.valid hvalid)
    have hfit : f.lastChunk.encode.1.Fits := hemit.resolve_right fun hshort => by omega
    refine ⟨?_, ?_, hsound.add (Chunk.canAdd_of_lt hroom)⟩
    · change (f.chunks ++ [f.lastChunk.encode.1]).flatMap _ ++ (f.lastChunk.encode.2.deltas ++ [s]) = _
      rw [List.flatMap_append, List.flatMap_singleton, ← h.expand, ← hsplit]
      simp only [List.append_assoc]
    · intro e he
      rcases List.mem_append.mp he with he | he
      · exact h.fits e he
      · rw [List.mem_singleton.mp he]
        exact hfit

theorem Holds.run {more : List SymbolTypeTcc} (hmore : ∀ d ∈ more, d ≠ .packetReceivedWithoutDelta) :
    (Runs.run Feedback.addSymbol f more).Holds (symbols ++ more) := by
  induction more generalizing f symbols with
  | nil =>
    rw [List.append_nil]
    exact h
  | cons s more ih =>
    obtain ⟨hs, hmore⟩ := List.forall_mem_cons.mp hmore
    have hnext : ∀ d ∈ symbols ++ [s], d ≠ .packetReceivedWithoutDelta := by
      intro d hd
      rcases List.mem_append.mp hd with hd | hd
      · exact hvalid d hd
      · rw [List.mem_singleton.mp hd]
        exact hs
    have hrest := ih (h.addSymbol hvalid s) hnext hmore
    rwa [List.append_assoc, List.singleton_append] at hrest

/-- A packet that is added adds its status, after those of the packets missing before it. -/
theorem Holds.addReceived
    {sequenceNumber : Seq} {timestampUs : Int} (hadd : (f.addReceived sequenceNumber timestampUs).1 = true) :
    ∃ s, (s = .packetReceivedSmallDelta ∨ s = .packetReceivedLargeDelta) ∧
      (f.addReceived sequenceNumber timestampUs).2.Holds (symbols ++
        (List.replicate (Serial.ahead f.nextSequenceNumber sequenceNumber) .packetNotReceived ++ [s])) := by
  have hmissing : ∀ d ∈ List.replicate (Serial.ahead f.nextSequenceNumber sequenceNumber)
      SymbolTypeTcc.packetNotReceived, d ≠ .packetReceivedWithoutDelta := by
    intro d hd
    rw [List.eq_of_mem_replicate hd]
    decide
  have hgap := h.run hvalid hmissing
  have hvalid' : ∀ d ∈ symbols ++ List.replicate (Serial.ahead f.nextSequenceNumber sequenceNumber)
      SymbolTypeTcc.packetNotReceived, d ≠ .packetReceivedWithoutDelta :=
    fun d hd => (List.mem_append.mp hd).elim (hvalid d) (hmissing d)
  unfold Feedback.addReceived at hadd ⊢
  dsimp only at hadd ⊢
  by_cases hfits : f.delta250us timestampUs < -32768 ∨ 32767 < f.delta250us timestampUs
  · rw [if_pos hfits] at hadd
    cases hadd
  · rw [if_neg hfits]
    refine ⟨if 0 ≤ f.delta250us timestampUs ∧ f.delta250us timestampUs ≤ 0xff then
      .packetReceivedSmallDelta else .packetReceivedLargeDelta, by split <;> simp, ?_⟩
    have hlast := hgap.addSymbol hvalid' (if 0 ≤ f.delta250us timestampUs ∧ f.delta250us timestampUs ≤ 0xff then
      .packetReceivedSmallDelta else .packetReceivedLargeDelta)
    rw [← List.append_assoc]
    exact hlast.congr rfl rfl

/-- The chunks of a packet are read back as its statuses, with at most six statuses "not received" after them. -/
theorem Holds.getRtcp :
    f.getRtcp.packetChunks.flatMap PacketStatusChunk.symbols = symbols ∧
      (∃ n ≤ 6, ∃ read, List.Forall₂ Reads f.getRtcp.packetChunks read ∧
        read.flatMap PacketStatusChunk.symbols = symbols ++ List.replicate n .packetNotReceived) ∧
      ∀ v, PacketStatusChunk.statusVectorChunk v ∈ f.getRtcp.packetChunks → v.symbolSize = .oneBit →
        .packetReceivedLargeDelta ∉ v.symbolList := by
  obtain ⟨hexpand, full, last, heq, hfits, hlast⟩ := h.sound.flush (h.valid hvalid) (Nat.le_refl _)
  have hchunks : f.getRtcp.packetChunks = (f.chunks ++ full) ++ last := by
    rw [Feedback.getRtcp, heq, List.append_assoc]
  have hall : ∀ e ∈ f.chunks ++ full, e.Fits := fun e he => (List.mem_append.mp he).elim (h.fits e) (hfits e)
  have hread : List.Forall₂ Reads (f.chunks ++ full) (f.chunks ++ full) :=
    List.forall₂_same.mpr fun e he => reads_of_fits (hall e he)
  have hsymbols : f.getRtcp.packetChunks.flatMap PacketStatusChunk.symbols = symbols := by
    rw [Feedback.getRtcp, List.flatMap_append, hexpand, h.expand]
  refine ⟨hsymbols, ?_, ?_⟩
  · rcases hlast with rfl | ⟨e, rfl, short, hpos, hshort, rfl⟩
    · rw [List.append_nil] at hchunks
      rw [hchunks] at hsymbols ⊢
      exact ⟨0, by omega, _, hread, by rw [hsymbols, List.replicate_zero, List.append_nil]⟩
    · refine ⟨7 - short.length, by omega, f.chunks ++ full ++ [.statusVectorChunk ⟨.statusVectorChunk, .twoBit,
        short ++ List.replicate (7 - short.length) .packetNotReceived⟩], ?_, ?_⟩
      · rw [hchunks]
        exact List.rel_append hread (.cons (reads_of_short hshort) .nil)
      · rw [← hsymbols, hchunks]
        simp [PacketStatusChunk.symbols]
  · intro v hv hone hlarge
    rw [hchunks] at hv
    rcases List.mem_append.mp hv with hv | hv
    · have hfit := (hall _ hv).2
      rw [hone] at hfit
      rcases hfit.2 _ hlarge with heq | heq <;> cases heq
    · rcases hlast with rfl | ⟨e, rfl, short, -, -, rfl⟩
      · cases hv
      · obtain rfl := (PacketStatusChunk.statusVectorChunk.injEq ..).mp (List.mem_singleton.mp hv)
        cases hone

end

/-- Whatever statuses are added, the chunks of the packet hold them in order, on the wire with at most six statuses "not
    received" after them; no one-bit chunk has a large delta; and after each `encode` the next status can be added. -/
theorem statusChunks_lossless (senderSsrc mediaSsrc : Ssrc) (fbPktCnt : Byte) (symbols : List SymbolTypeTcc)
    (hvalid : ∀ s ∈ symbols, s ≠ .packetReceivedWithoutDelta) :
    let f := Runs.run addSymbol (new senderSsrc mediaSsrc fbPktCnt) symbols
    f.getRtcp.packetChunks.flatMap PacketStatusChunk.symbols = symbols ∧
    (∃ n ≤ 6, ∃ read, List.Forall₂ Reads f.getRtcp.packetChunks read ∧
      read.flatMap PacketStatusChunk.symbols = symbols ++ List.replicate n .packetNotReceived) ∧
    (∀ v, PacketStatusChunk.statusVectorChunk v ∈ f.getRtcp.packetChunks → v.symbolSize = .oneBit →
      .packetReceivedLargeDelta ∉ v.symbolList) ∧
    (f.lastChunk.deltas ≠ [] → f.lastChunk.encode.2.deltas.length < f.lastChunk.deltas.length) ∧
    ∀ s, f.lastChunk.canAdd s = false → f.lastChunk.deltas ≠ [] ∧ f.lastChunk.encode.2.canAdd s = true := by
  intro f
  have h : f.Holds symbols := (holds_new senderSsrc mediaSsrc fbPktCnt).run nofun hvalid
  obtain ⟨hexpand, hread, hone⟩ := h.getRtcp hvalid
  refine ⟨hexpand, hread, hone, fun hne => (h.sound.encode hne (h.valid hvalid)).2.1, fun s hadd => ?_⟩
  have hseven := Chunk.length_of_not_canAdd hadd
  have hne : f.lastChunk.deltas ≠ [] := List.ne_nil_of_length_pos (by omega)
  exact ⟨hne, Chunk.canAdd_of_lt (h.sound.encode hne (h.valid hvalid)).2.2.1⟩

/-- Eight mixed statuses and a large delta. -/
def mixedStatuses : List SymbolTypeTcc :=
  .packetNotReceived :: (List.replicate 7 .packetReceivedSmallDelta ++ [.packetReceivedLargeDelta])

theorem statusChunks_mixedStatuses :
    (Runs.run addSymbol (new 1#32 2#32 0#8) mixedStatuses).getRtcp.packetChunks.flatMap PacketStatusChunk.symbols =
      mixedStatuses := by
  have hvalid : ∀ s ∈ mixedStatuses, s ≠ .packetReceivedWithoutDelta := by decide
  exact (statusChunks_lossless 1#32 2#32 0#8 mixedStatuses hvalid).1

end Feedback

end Rtc.Interceptor.Twcc
