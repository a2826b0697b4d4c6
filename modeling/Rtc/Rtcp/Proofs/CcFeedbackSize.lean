import Rtc.Rtcp.CcFeedbackWriter

/-!
# The size of congestion control feedback

A report whose blocks describe at most 16384 packets each is written, in `marshal_size` bytes.
-/

namespace Rtc.Rtcp
open Bytes Shared

namespace CcFeedbackMetricBlock

def word (m : CcFeedbackMetricBlock) : BitVec 16 :=
  (if m.received then 0x8000#16 else 0#16) ||| m.ecn.toWord <<< 13 ||| m.arrivalTimeOffset &&& 0x1FFF#16

theorem marshalWord_eq (m : CcFeedbackMetricBlock) : m.marshalWord = .ok m.word := by
  have hwritten : m.marshalWord = .ok (0#16 ||| ((if m.received then 1#16 else 0#16) &&& 1#16) <<< 15 |||
      (m.ecn.toWord &&& 3#16) <<< 13 ||| (m.arrivalTimeOffset &&& 0x1FFF#16) <<< 0) := rfl
  have hreceived : 0#16 ||| ((if m.received then 1#16 else 0#16) &&& 1#16) <<< 15 =
      if m.received then 0x8000#16 else 0#16 := by
    cases m.received <;> rfl
  have hecn : m.ecn.toWord &&& 3#16 = m.ecn.toWord := by
    cases m.ecn <;> rfl
  rw [hwritten, word, BitVec.shiftLeft_zero, hreceived, hecn]

end CcFeedbackMetricBlock

theorem mapM_eq_ok {α β ε : Type} {f : α → Except ε β} {g : α → β} {xs : List α}
    (h : ∀ x ∈ xs, f x = .ok (g x)) : xs.mapM f = .ok (xs.map g) := by
  induction xs with
  | nil => rfl
  | cons x xs ih =>
    rw [List.mapM_cons, h x List.mem_cons_self, ih fun y hy => h y (List.mem_cons_of_mem x hy)]
    rfl

theorem length_flatMap_toBe16 (words : List (BitVec 16)) : (words.flatMap toBe16).length = 2 * words.length := by
  induction words with
  | nil => rfl
  | cons word words ih =>
    rw [List.flatMap_cons, List.length_append, ih, List.length_cons, length_toBe16]
    omega

namespace CcFeedbackReportBlock

variable (b : CcFeedbackReportBlock)

theorem length_le_padded : b.metricBlocks.length ≤ b.paddedMetricBlockCount := by
  rw [paddedMetricBlockCount]
  split <;> omega

theorem padded_even : b.paddedMetricBlockCount % 2 = 0 := by
  rw [paddedMetricBlockCount]
  split <;> omega

def put (b : CcFeedbackReportBlock) : List Byte :=
  toBe32 b.mediaSsrc ++ (toBe16 b.beginSequence ++ (toBe16 (BitVec.ofNat 16 b.metricBlocks.length) ++
    ((b.metricBlocks.map CcFeedbackMetricBlock.word).flatMap toBe16 ++
      (List.replicate (b.paddedMetricBlockCount - b.metricBlocks.length) 0#16).flatMap toBe16)))

theorem marshalTo_eq :
    b.marshalTo = if 16384 < b.metricBlocks.length then .error .tooManyReports else .ok b.put := by
  rw [marshalTo, mapM_eq_ok fun m _ => m.marshalWord_eq]
  rfl

theorem length_put : b.put.length = b.rawSize := by
  have hpadded := b.length_le_padded
  simp only [put, List.length_append, length_toBe32, length_toBe16, length_flatMap_toBe16, List.length_map,
    List.length_replicate, rawSize]
  omega

end CcFeedbackReportBlock

namespace CcFeedbackReport

variable {p : CcFeedbackReport}

theorem rawSize_mod_four (p : CcFeedbackReport) : p.rawSize % 4 = 0 := by
  have hsum : ∀ blocks : List CcFeedbackReportBlock,
      (blocks.map CcFeedbackReportBlock.rawSize).sum % 4 = 0 := by
    intro blocks
    induction blocks with
    | nil => rfl
    | cons b blocks ih =>
      have heven := b.padded_even
      rw [List.map_cons, List.sum_cons, CcFeedbackReportBlock.rawSize]
      omega
  have hblocks := hsum p.reportBlocks
  rw [rawSize]
  omega

theorem marshalSize_eq (p : CcFeedbackReport) : p.marshalSize = p.rawSize := by
  rw [marshalSize, getPaddingSize, if_pos p.rawSize_mod_four, Nat.add_zero]

/-- What a report writes after its header. -/
def content (p : CcFeedbackReport) : List Byte :=
  toBe32 p.senderSsrc ++ ((p.reportBlocks.map CcFeedbackReportBlock.put).flatten ++ toBe32 p.reportTimestamp)

theorem body_eq (h : ∀ b ∈ p.reportBlocks, b.metricBlocks.length ≤ 16384) : p.body = .ok p.content := by
  have hblocks : ∀ b ∈ p.reportBlocks, b.marshalTo = .ok b.put := by
    intro b hb
    rw [b.marshalTo_eq, if_neg (not_lt.mpr (h b hb))]
  rw [body, mapM_eq_ok hblocks]
  rfl

theorem length_content (p : CcFeedbackReport) : p.content.length + 4 = p.rawSize := by
  have hblocks : (p.reportBlocks.map CcFeedbackReportBlock.put).flatten.length =
      (p.reportBlocks.map CcFeedbackReportBlock.rawSize).sum := by
    rw [List.length_flatten, List.map_map]
    exact congrArg List.sum (List.map_congr_left fun b _ => b.length_put)
  rw [content, List.length_append, List.length_append, hblocks, length_toBe32, length_toBe32, rawSize]
  omega

theorem marshalTo_ok (h : ∀ b ∈ p.reportBlocks, b.metricBlocks.length ≤ 16384) :
    ∃ bytes, p.marshalTo p.marshalSize = .ok bytes ∧ bytes.length = p.marshalSize := by
  have hroom : ¬ p.marshalSize < 4 := by
    rw [p.marshalSize_eq, rawSize]
    omega
  have hpadding : p.header.padding = false := by
    rw [header, Header.ofSize, getPaddingSize, if_pos p.rawSize_mod_four]
    rfl
  have hcount : ¬ 31#8 < p.header.count := show ¬ 31#8 < 11#8 by decide
  rw [marshalTo, if_neg (lt_irrefl _), Header.frame, Header.marshalTo, if_neg hcount, if_neg hroom,
    body_eq h, hpadding]
  refine ⟨_, rfl, ?_⟩
  have hcontent := p.length_content
  simp only [List.length_append, List.length_cons, length_toBe16, Bool.false_eq_true, if_false, List.length_nil,
    p.marshalSize_eq]
  omega

end CcFeedbackReport

end Rtc.Rtcp
