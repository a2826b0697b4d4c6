import Rtc.Rtcp.Proofs.CcFeedbackSize
import Rtc.Rtcp.Proofs.ReportRoundTrip

/-!
# Writing and reading congestion control feedback

A report with at most 16384 metric blocks in each of its blocks is read back from what it wrote. The decoder does not
check that number. Its bulk path and its path word by word read the same blocks.
-/

namespace Rtc.Rtcp
open Bytes Shared Parse

/-! ## Metric words -/

namespace CcFeedbackMetricBlock

/-- The offset has 13 bits, and a packet that was not received carries no information. -/
def Canonical (m : CcFeedbackMetricBlock) : Prop :=
  (m.received = true → m.arrivalTimeOffset.toNat < 2 ^ 13) ∧
    (m.received = false → m.ecn = .notEct ∧ m.arrivalTimeOffset = 0#16)

instance (m : CcFeedbackMetricBlock) : Decidable m.Canonical := inferInstanceAs (Decidable (_ ∧ _))

theorem unmarshalWord_word {m : CcFeedbackMetricBlock} (h : m.Canonical) : unmarshalWord m.word = m := by
  obtain ⟨received, ecn, offset⟩ := m
  cases received with
  | false =>
    obtain ⟨rfl, rfl⟩ := h.2 rfl
    rfl
  | true =>
    have h := h.1 rfl
    have hoffset : offset &&& 0x1FFF#16 = offset := by
      apply BitVec.eq_of_toNat_eq
      rw [BitVec.toNat_and]
      exact Nat.and_two_pow_sub_one_of_lt_two_pow h
    have hhigh : offset >>> 13 = 0#16 := by
      apply BitVec.eq_of_toNat_eq
      rw [BitVec.toNat_ushiftRight, Nat.shiftRight_eq_div_pow]
      exact Nat.div_eq_of_lt h
    have hlow : ∀ c : BitVec 16, c &&& 0x1FFF#16 = 0#16 → c &&& 0x8000#16 = 0x8000#16 →
        unmarshalWord (c ||| offset) = ⟨true, Ecn.fromBits ((c >>> 13).setWidth 8), offset⟩ := by
      intro c hc hset
      have hbit : (c ||| offset) &&& 0x8000#16 ≠ 0#16 := by
        intro hzero
        rw [BitVec.and_or_distrib_right, hset] at hzero
        exact absurd (BitVec.or_eq_zero_iff.mp hzero).1 (by decide)
      rw [unmarshalWord, if_neg hbit, BitVec.ushiftRight_or_distrib, hhigh, BitVec.or_zero,
        BitVec.and_or_distrib_right, hc, BitVec.zero_or, hoffset]
    cases ecn <;> simp only [word, hoffset, if_true] <;> exact hlow _ (by decide) (by decide)

theorem canonical_unmarshalWord (w : BitVec 16) : (unmarshalWord w).Canonical := by
  rw [unmarshalWord]
  split
  · exact ⟨nofun, fun _ => ⟨rfl, rfl⟩⟩
  · refine ⟨fun _ => ?_, nofun⟩
    change (w &&& 0x1FFF#16).toNat < 2 ^ 13
    rw [BitVec.toNat_and]
    exact Nat.and_lt_two_pow _ (by decide)

end CcFeedbackMetricBlock

open CcFeedbackMetricBlock (unmarshalWord Canonical)

/-- `decode_metric_words` (`mod.rs:292-300`). -/
def decodeMetricWords : List Byte → List CcFeedbackMetricBlock
  | a :: b :: rest => unmarshalWord (be16 a b) :: decodeMetricWords rest
  | _ => []

theorem decodeMetricWords_flatMap (words : List (BitVec 16)) :
    decodeMetricWords (words.flatMap toBe16) = words.map unmarshalWord := by
  induction words with
  | nil => rfl
  | cons w words ih =>
    rw [List.flatMap_cons, toBe16, List.cons_append, List.cons_append, List.nil_append, decodeMetricWords, ih,
      be16_toBe16, List.map_cons]

theorem canonical_of_mem_decode {bytes : List Byte} {m : CcFeedbackMetricBlock} (h : m ∈ decodeMetricWords bytes) :
    m.Canonical := by
  fun_induction decodeMetricWords bytes with
  | case1 a b rest ih =>
    rcases List.mem_cons.mp h with rfl | h
    · exact CcFeedbackMetricBlock.canonical_unmarshalWord _
    · exact ih h
  | case2 => cases h

namespace CcFeedbackReportBlock

theorem getMany_getMetric {n : Nat} {reader : List Byte} (h : 2 * n ≤ reader.length) :
    getMany getMetric n reader = .ok (decodeMetricWords (reader.take (2 * n)), reader.drop (2 * n)) := by
  induction n generalizing reader with
  | zero => rfl
  | succ n ih =>
    match reader, h with
    | a :: b :: rest, h =>
      have hrest : 2 * n ≤ rest.length := by
        simp only [List.length_cons] at h
        omega
      rw [getMany, getMetric, getU16, ok_bind]
      simp only [ok_bind, ih hrest, Nat.mul_succ, List.take_succ_cons, List.drop_succ_cons, decodeMetricWords]

/-! ## Chunked buffers -/

/-- `unmarshal_from` (`mod.rs:226-275`) on a buffer whose current chunk ends after `chunk n` bytes, or with the
    buffer, when `n` bytes are left. -/
def unmarshalFromChunks (chunk : Nat → Nat) (reader : List Byte) (budget : Nat) :
    Parse Error ((CcFeedbackReportBlock × Nat) × List Byte) :=
  if budget < 8 ∨ reader.length < 8 then Parse.fail .packetTooShort
  else do
    let (mediaSsrc, reader) ← Parse.getU32 reader
    let (beginSequence, reader) ← Parse.getU16 reader
    let (numReports, reader) ← Parse.getU16 reader
    let num := numReports.toNat
    let padded := if num % 2 = 0 then num else num + 1
    let consumed := 8 + 2 * padded
    if budget < consumed ∨ reader.length < 2 * padded then Parse.fail .packetTooShort
    else
      let current := reader.take (chunk reader.length)
      let (metricBlocks, reader) ←
        if 2 * num ≤ current.length then do
          -- every metric word is in the current chunk
          let reader ← Parse.advance (2 * padded) reader
          .ok (decodeMetricWords (current.take (2 * num)), reader)
        else do
          let (metricBlocks, reader) ← Parse.getMany getMetric num reader
          let reader ← if padded ≠ num then Parse.advance 2 reader else .ok reader
          .ok (metricBlocks, reader)
      .ok ((⟨mediaSsrc, beginSequence, metricBlocks⟩, consumed), reader)

/-- The number of words that `num` metric blocks take with their padding. -/
def paddedTo (num : Nat) : Nat := if num % 2 = 0 then num else num + 1

def blockAt (reader : List Byte) : CcFeedbackReportBlock :=
  ⟨readU32 reader 0, readU16 reader 4, decodeMetricWords ((reader.drop 8).take (2 * (readU16 reader 6).toNat))⟩

theorem unmarshalFrom_eq (reader : List Byte) (budget : Nat) :
    unmarshalFrom reader budget =
      if budget < 8 ∨ reader.length < 8 then Parse.fail .packetTooShort
      else if budget < 8 + 2 * paddedTo (readU16 reader 6).toNat ∨
          reader.length < 8 + 2 * paddedTo (readU16 reader 6).toNat then Parse.fail .packetTooShort
      else .ok ((blockAt reader, 8 + 2 * paddedTo (readU16 reader 6).toNat),
        reader.drop (8 + 2 * paddedTo (readU16 reader 6).toNat)) := by
  rw [unmarshalFrom]
  split
  · rfl
  case isFalse hlen =>
    have hlen : 8 ≤ reader.length := by omega
    match reader, hlen with
    | a :: b :: c :: d :: e :: f :: g :: h :: rest, _ =>
      have hnum : readU16 (a :: b :: c :: d :: e :: f :: g :: h :: rest) 6 = be16 g h := rfl
      have hroom : ∀ n, (a :: b :: c :: d :: e :: f :: g :: h :: rest).length < 8 + n ↔ rest.length < n := by
        intro n
        simp only [List.length_cons]
        omega
      have hdrop : ∀ n, (a :: b :: c :: d :: e :: f :: g :: h :: rest).drop (8 + n) = rest.drop n := by
        intro n
        rw [← List.drop_drop]
        rfl
      simp only [Parse.getU32, Parse.getU16, ok_bind, hnum, hroom, hdrop, paddedTo]
      by_cases heven : (be16 g h).toNat % 2 = 0
      · simp only [heven, if_true]
        split
        · rfl
        · rw [getMany_getMetric (by omega), ok_bind, if_neg (not_not.mpr rfl)]
          rfl
      · simp only [heven, if_false]
        split
        · rfl
        · rw [getMany_getMetric (by omega), ok_bind, if_pos (by omega), Parse.advance,
            if_pos (by rw [List.length_drop]; omega), ok_bind, List.drop_drop]
          rfl

theorem unmarshalFromChunks_eq (chunk : Nat → Nat) (reader : List Byte) (budget : Nat) :
    unmarshalFromChunks chunk reader budget = unmarshalFrom reader budget := by
  rw [unmarshalFromChunks, unmarshalFrom]
  split
  · rfl
  refine bind_congr fun ssrc => bind_congr fun sequence => bind_congr fun reports => ?_
  by_cases hbulk : 2 * reports.1.toNat ≤ (reports.2.take (chunk reports.2.length)).length
  · simp only [if_pos hbulk]
    rw [List.length_take] at hbulk
    rw [List.take_take, Nat.min_eq_left (by omega)]
    by_cases heven : reports.1.toNat % 2 = 0
    · simp only [heven, if_true]
      split
      · rfl
      · rw [Parse.advance, if_pos (by omega), ok_bind, ok_bind, getMany_getMetric (by omega), ok_bind,
          if_neg (not_not.mpr rfl)]
        rfl
    · simp only [heven, if_false]
      split
      · rfl
      · rw [Parse.advance, if_pos (by omega), ok_bind, ok_bind, getMany_getMetric (by omega), ok_bind,
          if_pos (by omega), Parse.advance, if_pos (by rw [List.length_drop]; omega), ok_bind, List.drop_drop]
        rfl
  · simp only [if_neg hbulk]
    rfl

/-! ## Blocks -/

theorem exists_of_mapM {α β ε : Type} {f : α → Except ε β} {xs : List α} {ys : List β}
    (h : xs.mapM f = .ok ys) : ∀ x ∈ xs, ∃ y, f x = .ok y := by
  induction xs generalizing ys with
  | nil => exact nofun
  | cons x xs ih =>
    rw [List.mapM_cons] at h
    cases hx : f x with
    | error e =>
      rw [hx] at h
      cases h
    | ok y =>
      cases hxs : xs.mapM f with
      | error e =>
        rw [hx, hxs] at h
        cases h
      | ok rest => exact List.forall_mem_cons.mpr ⟨⟨y, hx⟩, ih hxs⟩

/-- The decoder's view of a block: its metric blocks carry no stale bits. -/
def Canonical (b : CcFeedbackReportBlock) : Prop := ∀ m ∈ b.metricBlocks, m.Canonical

variable {b : CcFeedbackReportBlock}

theorem unmarshalFrom_put (hb : b.Canonical) (hnum : b.metricBlocks.length < 2 ^ 16)
    {budget : Nat} (hbudget : b.rawSize ≤ budget) (rest : List Byte) :
    unmarshalFrom (b.put ++ rest) budget = .ok ((b, b.rawSize), rest) := by
  have hcount : (BitVec.ofNat 16 b.metricBlocks.length).toNat = b.metricBlocks.length := by
    rw [BitVec.toNat_ofNat]
    exact Nat.mod_eq_of_lt hnum
  have hlen : (b.put ++ rest).length = b.rawSize + rest.length := by rw [List.length_append, length_put]
  have hread : readU16 (b.put ++ rest) 6 = BitVec.ofNat 16 b.metricBlocks.length := be16_toBe16 _
  have hsize : 8 + 2 * paddedTo (readU16 (b.put ++ rest) 6).toNat = b.rawSize := by
    rw [hread, hcount]
    rfl
  have hwords : ((b.put ++ rest).drop 8).take (2 * b.metricBlocks.length) =
      (b.metricBlocks.map CcFeedbackMetricBlock.word).flatMap toBe16 := by
    have htake : 2 * b.metricBlocks.length =
        ((b.metricBlocks.map CcFeedbackMetricBlock.word).flatMap toBe16).length := by
      rw [length_flatMap_toBe16, List.length_map]
    rw [htake]
    change ((_ ++ _) ++ rest).take _ = _
    rw [List.append_assoc, List.nil_append, List.append_assoc, List.take_left]
  have hmetrics : decodeMetricWords (((b.put ++ rest).drop 8).take (2 * b.metricBlocks.length)) = b.metricBlocks := by
    rw [hwords, decodeMetricWords_flatMap, List.map_map]
    exact (List.map_congr_left fun m hm => CcFeedbackMetricBlock.unmarshalWord_word (hb m hm)).trans (List.map_id _)
  have hblock : blockAt (b.put ++ rest) = b := by
    rw [blockAt, hread, hcount, hmetrics]
    have hssrc : readU32 (b.put ++ rest) 0 = b.mediaSsrc := be32_toBe32 _
    have hsequence : readU16 (b.put ++ rest) 4 = b.beginSequence := be16_toBe16 _
    rw [hssrc, hsequence]
  rw [unmarshalFrom_eq, hsize, hblock, hlen, if_neg (by rw [rawSize]; rw [rawSize] at hbudget; omega),
    if_neg (by omega), ← length_put, List.drop_left]

theorem of_unmarshalFrom {reader rest : List Byte} {budget size : Nat}
    (h : unmarshalFrom reader budget = .ok ((b, size), rest)) :
    b.Canonical ∧ b.metricBlocks.length = (readU16 reader 6).toNat ∧ b.rawSize = size ∧ size ≤ budget ∧
      rest = reader.drop size := by
  rw [unmarshalFrom_eq] at h
  split at h
  · cases h
  split at h
  · cases h
  case isFalse hroom =>
    cases h
    have hle : (readU16 reader 6).toNat ≤ paddedTo (readU16 reader 6).toNat := by
      rw [paddedTo]
      split <;> omega
    have hlength : (blockAt reader).metricBlocks.length = (readU16 reader 6).toNat :=
      length_getMany (getMany_getMetric (by rw [List.length_drop]; omega))
    refine ⟨fun m hm => canonical_of_mem_decode hm, hlength, ?_, by omega, rfl⟩
    rw [rawSize, paddedMetricBlockCount, hlength]
    rfl

end CcFeedbackReportBlock

/-! ## Reports -/

namespace CcFeedbackReport

open CcFeedbackReportBlock (paddedTo unmarshalFrom unmarshalFrom_put of_unmarshalFrom)

/-- `marshal` (`rtc-shared/src/marshal/mod.rs:32-44`). -/
def marshal (p : CcFeedbackReport) : Except Error (List Byte) := p.marshalTo p.marshalSize

/-- Every block has at most 16384 metric blocks, which carry no stale bits, and the report fits the length
    field. -/
structure Encodable (p : CcFeedbackReport) : Prop where
  canonical : ∀ b ∈ p.reportBlocks, b.Canonical
  count_le : ∀ b ∈ p.reportBlocks, b.metricBlocks.length ≤ 16384
  size_fits : SizeFits p.rawSize

variable {blocks : List CcFeedbackReportBlock} {p : CcFeedbackReport}

theorem getBlocks_put (hcanonical : ∀ b ∈ blocks, b.Canonical)
    (hcount : ∀ b ∈ blocks, b.metricBlocks.length < 2 ^ 16) {fuel : Nat}
    (hfuel : (blocks.map CcFeedbackReportBlock.rawSize).sum ≤ fuel) (rest : List Byte) :
    getBlocks fuel (blocks.map CcFeedbackReportBlock.rawSize).sum
      ((blocks.map CcFeedbackReportBlock.put).flatten ++ rest) = .ok (blocks, rest) := by
  induction blocks generalizing fuel with
  | nil => cases fuel <;> rfl
  | cons b blocks ih =>
    have hpos : 8 ≤ b.rawSize := Nat.le_add_right _ _
    simp only [List.map_cons, List.sum_cons, List.flatten_cons, List.append_assoc] at hfuel ⊢
    cases fuel with
    | zero => omega
    | succ fuel =>
      rw [getBlocks, if_neg (by omega),
        unmarshalFrom_put (hcanonical b List.mem_cons_self) (hcount b List.mem_cons_self) (by omega), ok_bind]
      dsimp only
      rw [Nat.add_sub_cancel_left, ih (fun c hc => hcanonical c (List.mem_cons_of_mem b hc))
        (fun c hc => hcount c (List.mem_cons_of_mem b hc)) (by omega), ok_bind]

theorem unmarshal_of_framed (hcanonical : ∀ b ∈ p.reportBlocks, b.Canonical)
    (hcount : ∀ b ∈ p.reportBlocks, b.metricBlocks.length < 2 ^ 16) {bytes : List Byte}
    (hframed : Framed p.header p.content bytes) : unmarshal bytes = .ok (p, []) := by
  have hlen := hframed.length
  have hmul := hframed.length_mul
  have hcontent := p.length_content
  have hraw : p.rawSize = 8 + (p.reportBlocks.map CcFeedbackReportBlock.rawSize).sum + 4 := rfl
  have hblocks : 4 * (p.header.length.toNat + 1) - 8 - 4 =
      (p.reportBlocks.map CcFeedbackReportBlock.rawSize).sum := by
    omega
  rw [unmarshal, if_neg (by omega), hframed.read]
  dsimp only
  rw [if_neg (by simp [header, Header.ofSize]), if_neg (by omega), hframed.drop, content, getU32_toBe32, ok_bind]
  dsimp only
  rw [hblocks, getBlocks_put hcanonical hcount (by omega), ok_bind]
  dsimp only
  rw [← List.append_nil (toBe32 p.reportTimestamp), getU32_toBe32, ok_bind]

theorem unmarshal_marshal (hp : p.Encodable) :
    ∃ bytes, p.marshal = .ok bytes ∧ unmarshal bytes = .ok (p, []) := by
  obtain ⟨bytes, hbytes, -⟩ := marshalTo_ok hp.count_le
  refine ⟨bytes, hbytes, ?_⟩
  rw [marshalTo, if_neg (lt_irrefl _), body_eq hp.count_le] at hbytes
  have hframed := Framed.of_frame hbytes p.length_content hp.size_fits
  rw [putPadding_eq_nil_iff.mpr p.rawSize_mod_four, List.append_nil] at hframed
  exact unmarshal_of_framed hp.canonical (fun b hb => Nat.lt_of_le_of_lt (hp.count_le b hb) (by decide)) hframed

/-! ## What the decoder accepts -/

/-- The `num_reports` fields of the blocks in `len` bytes. -/
def numReports : (fuel len : Nat) → List Byte → List Nat
  | 0, _, _ => []
  | fuel + 1, len, reader =>
    if len = 0 then []
    else
      let num := (readU16 reader 6).toNat
      num :: numReports fuel (len - (8 + 2 * paddedTo num)) (reader.drop (8 + 2 * paddedTo num))

/-- The `num_reports` fields of a packet. -/
def announced (raw : List Byte) : List Nat :=
  let packetLen := 4 * ((readU16 raw 2).toNat + 1)
  numReports packetLen (packetLen - 12) (raw.drop 8)

theorem of_getBlocks {fuel len : Nat} {reader rest : List Byte}
    (h : getBlocks fuel len reader = .ok (blocks, rest)) :
    (∀ b ∈ blocks, b.Canonical) ∧ (blocks.map CcFeedbackReportBlock.rawSize).sum = len ∧
      blocks.map (·.metricBlocks.length) = numReports fuel len reader := by
  induction fuel generalizing len reader blocks with
  | zero =>
    rw [getBlocks] at h
    split at h
    case isTrue hzero =>
      cases h
      exact ⟨nofun, hzero.symm, rfl⟩
    case isFalse => cases h
  | succ fuel ih =>
    rw [getBlocks] at h
    rw [numReports]
    split at h
    case isTrue hzero =>
      cases h
      rw [if_pos hzero]
      exact ⟨nofun, hzero.symm, rfl⟩
    case isFalse hpos =>
      obtain ⟨⟨⟨b, size⟩, reader'⟩, hblock, h⟩ := exists_of_bind_eq_ok h
      obtain ⟨⟨blocks', rest'⟩, hblocks, h⟩ := exists_of_bind_eq_ok h
      cases h
      obtain ⟨hcanonical, hcount, hsize, hle, rfl⟩ := of_unmarshalFrom hblock
      obtain ⟨hcanonical', hsum, hcounts⟩ := ih hblocks
      have hsize' : size = 8 + 2 * paddedTo (readU16 reader 6).toNat := by
        rw [← hsize, ← hcount]
        rfl
      rw [if_neg hpos, List.map_cons, List.map_cons, List.sum_cons, hsum, hcounts, hcount, hsize]
      dsimp only
      rw [← hsize']
      exact ⟨List.forall_mem_cons.mpr ⟨hcanonical, hcanonical'⟩, by omega, rfl⟩

theorem of_unmarshal {raw rest : List Byte} (h : unmarshal raw = .ok (p, rest)) :
    (∀ b ∈ p.reportBlocks, b.Canonical) ∧ SizeFits p.rawSize ∧
      p.reportBlocks.map (·.metricBlocks.length) = announced raw := by
  rw [unmarshal] at h
  split at h
  · cases h
  cases hread : Header.unmarshal raw with
  | error e =>
    rw [hread] at h
    cases h
  | ok head =>
    rw [hread] at h
    dsimp only at h
    split at h
    · cases h
    split at h
    · cases h
    case isFalse hlen =>
      obtain ⟨⟨ssrc, reader⟩, hssrc, h⟩ := exists_of_bind_eq_ok h
      obtain ⟨⟨blocks, reader'⟩, hblocks, h⟩ := exists_of_bind_eq_ok h
      obtain ⟨⟨timestamp, reader''⟩, -, h⟩ := exists_of_bind_eq_ok h
      cases h
      obtain ⟨hcanonical, hsum, hcounts⟩ := of_getBlocks hblocks
      have hreader : reader = raw.drop 8 := by
        have hdrop : raw.drop 8 = (raw.drop 4).drop 4 := by rw [List.drop_drop]
        rw [hdrop]
        generalize raw.drop 4 = front at hssrc ⊢
        match front, hssrc with
        | a :: b :: c :: d :: rest, hssrc =>
          cases hssrc
          rfl
      have hhead : head.length = readU16 raw 2 := by
        rw [Header.unmarshal] at hread
        split at hread
        · cases hread
        split at hread
        · cases hread
        · cases hread
          rfl
      have hraw : rawSize ⟨ssrc, blocks, timestamp⟩ = 4 * (head.length.toNat + 1) := by
        rw [rawSize, hsum]
        omega
      refine ⟨hcanonical, ?_, ?_⟩
      · have hlt := head.length.isLt
        rw [SizeFits, hraw, getPaddingSize, if_pos (by omega)]
        omega
      · rw [hcounts, announced, ← hhead, ← hreader]
        rfl

theorem marshal_eq_ok_iff :
    (∃ bytes, p.marshal = .ok bytes) ↔ ∀ b ∈ p.reportBlocks, b.metricBlocks.length ≤ 16384 := by
  refine ⟨?_, fun h => (marshalTo_ok h).imp fun bytes hbytes => hbytes.1⟩
  rintro ⟨bytes, hbytes⟩
  rw [marshal, marshalTo, if_neg (lt_irrefl _)] at hbytes
  obtain ⟨content, hbody⟩ := Header.body_of_frame hbytes
  intro b hb
  cases hblocks : p.reportBlocks.mapM CcFeedbackReportBlock.marshalTo with
  | error e =>
    rw [body, hblocks] at hbody
    cases hbody
  | ok parts =>
    obtain ⟨part, hpart⟩ := CcFeedbackReportBlock.exists_of_mapM hblocks b hb
    rw [b.marshalTo_eq] at hpart
    split at hpart
    · cases hpart
    · omega

/-! ## The decoder on a buffer in chunks -/

/-- The loop over the report blocks (`mod.rs:445-450`), on a buffer in chunks. -/
def getBlocksChunks (chunk : Nat → Nat) : (fuel remainingBlocksLen : Nat) → List Byte →
    Parse Error (List CcFeedbackReportBlock × List Byte)
  | 0, remainingBlocksLen, reader =>
    if remainingBlocksLen = 0 then .ok ([], reader) else .error .panicked
  | fuel + 1, remainingBlocksLen, reader =>
    if remainingBlocksLen = 0 then .ok ([], reader)
    else do
      let ((block, consumed), reader) ←
        CcFeedbackReportBlock.unmarshalFromChunks chunk reader remainingBlocksLen
      let (blocks, reader) ← getBlocksChunks chunk fuel (remainingBlocksLen - consumed) reader
      .ok (block :: blocks, reader)

/-- `unmarshal` (`mod.rs:418-459`), on a buffer in chunks. -/
def unmarshalChunks (chunk : Nat → Nat) (raw : List Byte) : Parse Error (CcFeedbackReport × List Byte) :=
  if raw.length < 8 + 4 then Parse.fail .packetTooShort
  else
    match Header.unmarshal raw with
    | .error e => Parse.fail e
    | .ok h =>
      if h.packetType ≠ .transportSpecificFeedback ∨ h.count ≠ formatCcfb then Parse.fail .wrongType
      else
        let packetLen := 4 * (h.length.toNat + 1)
        if raw.length < packetLen ∨ packetLen < 8 + 4 then Parse.fail .packetTooShort
        else do
          let (senderSsrc, reader) ← Parse.getU32 (raw.drop 4)
          let (reportBlocks, reader) ← getBlocksChunks chunk packetLen (packetLen - 8 - 4) reader
          let (reportTimestamp, reader) ← Parse.getU32 reader
          .ok (⟨senderSsrc, reportBlocks, reportTimestamp⟩, reader)

theorem getBlocksChunks_eq (chunk : Nat → Nat) (fuel len : Nat) (reader : List Byte) :
    getBlocksChunks chunk fuel len reader = getBlocks fuel len reader := by
  induction fuel generalizing len reader with
  | zero => rfl
  | succ fuel ih => simp only [getBlocksChunks, getBlocks, CcFeedbackReportBlock.unmarshalFromChunks_eq, ih]

theorem unmarshalChunks_eq (chunk : Nat → Nat) (raw : List Byte) : unmarshalChunks chunk raw = unmarshal raw := by
  simp only [unmarshalChunks, getBlocksChunks_eq]
  rfl

/-! ## The codec -/

/-- A report of one stream, of which the second packet was lost. -/
def oneLost : CcFeedbackReport :=
  ⟨1#32, [⟨2#32, 65535#16, [⟨true, .ect1, 8191#16⟩, ⟨false, .notEct, 0#16⟩, ⟨true, .ce, 0#16⟩]⟩], 3#32⟩

def manyLost : CcFeedbackReport :=
  ⟨1#32, [⟨2#32, 0#16, List.replicate 16385 ⟨false, .notEct, 0#16⟩⟩], 3#32⟩

end CcFeedbackReport

end Rtc.Rtcp
