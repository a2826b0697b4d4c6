import Rtc.Interceptor.Proofs.CcFeedbackLog
import Rtc.Lib.Runs
import Rtc.Rtcp.Proofs.CcFeedbackSize

/-!
# What congestion control feedback says

A run of the recorder beside what has been heard of each stream. Unless a packet in the window is heard again at
another time, every report says of each number whether and when its packet first arrived.
-/

namespace Rtc.Interceptor
open Rtcp (Ecn CcFeedbackMetricBlock CcFeedbackReportBlock CcFeedbackReport)

/-! ## All streams -/

/-- Every stream's log holds what has been heard of it, and a stream without a log has not been heard. -/
def StreamsTrack (streams : Table Ssrc StreamLog) (heard : Ssrc → Heard) : Prop :=
  ∀ ssrc,
    match streams.lookup ssrc with
    | none => heard ssrc = []
    | some log => log.ssrc = ssrc ∧ log.Tracks (heard ssrc)

variable {streams : Table Ssrc StreamLog} {heard : Ssrc → Heard}

theorem StreamsTrack.of_lookup (h : StreamsTrack streams heard) {ssrc : Ssrc} {log : StreamLog}
    (hlog : streams.lookup ssrc = some log) : log.ssrc = ssrc ∧ log.Tracks (heard ssrc) := by
  have hssrc := h ssrc
  rw [hlog] at hssrc
  exact hssrc

theorem StreamsTrack.of_lookup_none
    (h : StreamsTrack streams heard) {ssrc : Ssrc} (hlog : streams.lookup ssrc = none) : heard ssrc = [] := by
  have hssrc := h ssrc
  rw [hlog] at hssrc
  exact hssrc

namespace CcFeedbackRecorder

variable {heard : Ssrc → Heard} {now : Instant} {perStream : Nat} {ssrcs : List Ssrc}
  {streams' : Table Ssrc StreamLog}

/-- The block of stream `ssrc` between two states of the streams. -/
def BlockOf (now : Instant) (perStream : Nat) (heard : Ssrc → Heard)
    (streams streams' : Table Ssrc StreamLog) (ssrc : Ssrc) (block : CcFeedbackReportBlock) : Prop :=
  ∃ log log', streams.lookup ssrc = some log ∧ streams'.lookup ssrc = some log' ∧
    log.Reported now perStream (heard ssrc) block log'

theorem exists_of_mem_right {α β : Type} {R : α → β → Prop} {xs : List α} {ys : List β}
    (h : List.Forall₂ R xs ys) {y : β} (hy : y ∈ ys) : ∃ x ∈ xs, R x y := by
  induction h with
  | nil => cases hy
  | cons hxy _ ih =>
    rcases List.mem_cons.mp hy with rfl | hy
    · exact ⟨_, List.mem_cons_self, hxy⟩
    · obtain ⟨x, hx, hR⟩ := ih hy
      exact ⟨x, List.mem_cons_of_mem _ hx, hR⟩

theorem foldlM_reportStream (now : Instant) (perStream : Nat) (hnodup : ssrcs.Nodup) :
    ∀ (blocks : List CcFeedbackReportBlock) {streams : Table Ssrc StreamLog},
      StreamsTrack streams heard → (∀ ssrc ∈ ssrcs, ssrc ∈ streams) →
      ∃ blocks' streams',
        ssrcs.foldlM (reportStream now perStream) (blocks, streams) =
          some (blocks ++ blocks', streams') ∧
        StreamsTrack streams' heard ∧ (∀ ssrc ∉ ssrcs, streams'.lookup ssrc = streams.lookup ssrc) ∧
        List.Forall₂ (BlockOf now perStream heard streams streams') ssrcs blocks' := by
  induction ssrcs with
  | nil =>
    intro blocks streams h _
    exact ⟨[], streams, by rw [List.append_nil]; rfl, h, fun _ _ => rfl, .nil⟩
  | cons ssrc ssrcs ih =>
    intro blocks streams h hmem
    obtain ⟨hout, hnodup⟩ := List.nodup_cons.mp hnodup
    obtain ⟨log, hlog⟩ := Table.mem_iff_lookup.mp (hmem ssrc List.mem_cons_self)
    obtain ⟨hssrc, htracks⟩ := h.of_lookup hlog
    obtain ⟨block, log', hblock, hreported⟩ := htracks.metricsAfter now perStream
    have hnext : ∀ other, (Table.adjust ssrc (fun _ => log') streams).lookup other =
        if other = ssrc then some log' else streams.lookup other := by
      intro other
      rw [Table.lookup_adjust]
      split
      case isTrue heq => rw [heq, hlog]; rfl
      case isFalse => rfl
    have htrack' : StreamsTrack (Table.adjust ssrc (fun _ => log') streams) heard := by
      intro other
      rw [hnext]
      by_cases heq : other = ssrc
      · rw [if_pos heq, heq]
        exact ⟨hreported.ssrc_eq.trans hssrc, hreported.tracks⟩
      · rw [if_neg heq]
        exact h other
    obtain ⟨blocks', streams', hfold, htrack'', hsame, hblocks⟩ :=
      ih hnodup (blocks ++ [block]) htrack' fun other hother =>
        Table.mem_adjust.mpr (hmem other (List.mem_cons_of_mem ssrc hother))
    refine ⟨block :: blocks', streams', ?_, htrack'', ?_, .cons ?_ ?_⟩
    · rw [List.foldlM_cons, reportStream, hlog]
      dsimp only
      rw [hblock]
      dsimp only [Option.bind_eq_bind, Option.bind_some]
      rw [hfold, List.append_assoc]
      rfl
    · intro other hother
      have hne : other ≠ ssrc := fun heq => hother (heq ▸ List.mem_cons_self)
      rw [hsame other fun hin => hother (List.mem_cons_of_mem ssrc hin), hnext, if_neg hne]
    · refine ⟨log, log', hlog, ?_, hreported⟩
      rw [hsame ssrc hout, hnext, if_pos rfl]
    · -- the streams still to come are as they were
      have hin := (List.forall₂_and_left ssrcs blocks').mpr ⟨fun _ hmem => hmem, hblocks⟩
      refine hin.imp fun other block hother => ?_
      obtain ⟨hother, log₁, log₂, hlookup, hrest⟩ := hother
      have hne : other ≠ ssrc := fun heq => hout (heq ▸ hother)
      rw [hnext, if_neg hne] at hlookup
      exact ⟨log₁, log₂, hlookup, hrest⟩

variable {r : CcFeedbackRecorder}

/-- A report never stops the program, and has one block for each stream, in the order of the SSRCs. -/
theorem buildReport_eq (h : StreamsTrack r.streams heard) (now : Instant) (senderSsrc : Ssrc)
    (reportTimestamp : BitVec 32) (maxSize : Nat) :
    ∃ blocks streams',
      r.buildReport now senderSsrc reportTimestamp maxSize =
        some (⟨senderSsrc, blocks, reportTimestamp⟩, ⟨streams'⟩) ∧
      StreamsTrack streams' heard ∧
      (∀ ssrc ∉ r.streams, streams'.lookup ssrc = r.streams.lookup ssrc) ∧
      List.Forall₂ (BlockOf now (r.perStream maxSize) heard r.streams streams')
        (r.streams.keys.insertionSort (· ≤ ·)) blocks := by
  have hperm := List.perm_insertionSort (· ≤ ·) r.streams.keys
  rw [buildReport]
  by_cases hnone : r.streams.keys.length = 0
  · rw [if_pos hnone, List.eq_nil_of_length_eq_zero hnone]
    exact ⟨[], r.streams, rfl, h, fun _ _ => rfl, .nil⟩
  · obtain ⟨blocks, streams', hfold, htrack, hsame, hblocks⟩ :=
      foldlM_reportStream now (r.perStream maxSize) (hperm.nodup_iff.mpr r.streams.keys_nodup)
        [] h fun ssrc hmem => hperm.mem_iff.mp hmem
    rw [if_neg hnone]
    dsimp only
    rw [hfold]
    exact ⟨blocks, streams', rfl, htrack, fun ssrc hout => hsame ssrc fun hin =>
      hout (hperm.mem_iff.mp hin), hblocks⟩

/-! ## The size of a report -/

/-- A stream with at least `perStream` packets to describe. -/
def isFull (r : CcFeedbackRecorder) (perStream : Nat) (ssrc : Ssrc) : Bool :=
  (r.streams.lookup ssrc).any fun log => decide (perStream ≤ log.pending)

/-- No block has to be padded at the expense of the budget: each stream's share is even, or the rest of the budget
    holds the padding. -/
def PaddingFits (r : CcFeedbackRecorder) (maxSize : Nat) : Prop :=
  r.perStream maxSize % 2 = 0 ∨
    2 * (r.streams.keys.length * r.perStream maxSize +
      r.streams.keys.countP (r.isFull (r.perStream maxSize))) ≤
        maxSize - 12 - 8 * r.streams.keys.length

theorem rawSize_le {block : CcFeedbackReportBlock} {ssrc : Ssrc}
    (h : BlockOf now perStream heard r.streams streams' ssrc block) :
    block.rawSize ≤ 8 + 2 * (perStream + if r.isFull perStream ssrc then 1 else 0) ∧
      (perStream % 2 = 0 → block.rawSize ≤ 8 + 2 * perStream) := by
  obtain ⟨log, log', hlog, -, hreported⟩ := h
  have hlength := hreported.length_eq
  have hfull : r.isFull perStream ssrc = decide (perStream ≤ log.pending) := by
    rw [isFull, hlog]
    rfl
  rw [CcFeedbackReportBlock.rawSize, CcFeedbackReportBlock.paddedMetricBlockCount, hlength, hfull]
  by_cases hle : perStream ≤ log.pending
  · rw [min_eq_left hle, if_pos (decide_eq_true hle)]
    constructor
    · split <;> omega
    · intro heven
      rw [if_pos heven]
  · have hnot : ¬ decide (perStream ≤ log.pending) = true := by simpa using hle
    rw [min_eq_right (by omega), if_neg hnot]
    constructor
    · split <;> omega
    · intro heven
      split <;> omega

theorem sum_rawSize_le {blocks : List CcFeedbackReportBlock}
    (h : List.Forall₂ (BlockOf now perStream heard r.streams streams') ssrcs blocks) :
    (blocks.map CcFeedbackReportBlock.rawSize).sum ≤
        8 * ssrcs.length + 2 * (ssrcs.length * perStream + ssrcs.countP (r.isFull perStream)) ∧
      (perStream % 2 = 0 → (blocks.map CcFeedbackReportBlock.rawSize).sum ≤
        8 * ssrcs.length + 2 * (ssrcs.length * perStream)) := by
  induction h with
  | nil => simp
  | cons hblock _ ih =>
    obtain ⟨hle, heven⟩ := rawSize_le hblock
    rw [List.map_cons, List.sum_cons, List.length_cons, List.countP_cons, Nat.add_mul, Nat.one_mul]
    constructor
    · omega
    · intro hpar
      have hle' := heven hpar
      have ih' := ih.2 hpar
      omega

theorem marshal_le (h : StreamsTrack r.streams heard) {senderSsrc : Ssrc}
    {reportTimestamp : BitVec 32} {maxSize : Nat} {report : CcFeedbackReport} {r' : CcFeedbackRecorder}
    (hreport : r.buildReport now senderSsrc reportTimestamp maxSize = some (report, r'))
    (hroom : 12 + 8 * r.streams.keys.length ≤ maxSize) (hfits : r.PaddingFits maxSize) :
    ∃ bytes, report.marshalTo report.marshalSize = .ok bytes ∧ bytes.length ≤ maxSize := by
  obtain ⟨blocks, streams', hbuild, -, -, hblocks⟩ :=
    buildReport_eq h now senderSsrc reportTimestamp maxSize
  rw [hbuild] at hreport
  obtain ⟨rfl, -⟩ := Prod.mk.inj (Option.some.inj hreport)
  have hperm := List.perm_insertionSort (· ≤ ·) r.streams.keys
  obtain ⟨hsum, hsumEven⟩ := sum_rawSize_le hblocks
  rw [hperm.length_eq, hperm.countP_eq] at hsum
  rw [hperm.length_eq] at hsumEven
  have hshort : ∀ b ∈ blocks, b.metricBlocks.length ≤ 16384 := by
    intro b hb
    obtain ⟨ssrc, -, log, log', -, -, hreported⟩ := exists_of_mem_right hblocks hb
    have hshare : r.perStream maxSize ≤ 16384 := min_le_right _ _
    rw [hreported.length_eq]
    exact (min_le_left _ _).trans hshare
  obtain ⟨bytes, hbytes, hlength⟩ := CcFeedbackReport.marshalTo_ok
    (p := ⟨senderSsrc, blocks, reportTimestamp⟩) hshort
  refine ⟨bytes, hbytes, ?_⟩
  rw [hlength, CcFeedbackReport.marshalSize_eq, CcFeedbackReport.rawSize]
  dsimp only
  rcases hfits with heven | hle
  · have hshare : r.streams.keys.length * r.perStream maxSize ≤
        (maxSize - 12 - 8 * r.streams.keys.length) / 2 := by
      have hmin : r.perStream maxSize ≤
          (maxSize - 12 - 8 * r.streams.keys.length) / 2 / r.streams.keys.length := min_le_left _ _
      exact (Nat.mul_le_mul_left _ hmin).trans (Nat.mul_div_le _ _)
    have hsum' := hsumEven heven
    omega
  · omega

end CcFeedbackRecorder

/-! ## Runs -/

/-- A packet, by its true number, or a call of `build_report`. -/
inductive FeedbackEvent where
  | packet (arrival : Instant) (ssrc : Ssrc) (n : Int) (ecn : Ecn)
  | report (now : Instant) (senderSsrc : Ssrc) (reportTimestamp : BitVec 32) (maxSize : Nat)

/-- The recorder, unless an overflow has stopped it, with what has been heard of each stream and how far its window has
    moved. -/
structure FeedbackRun where
  recorder : Option CcFeedbackRecorder
  heard : Ssrc → Heard
  covered : Ssrc → Nat

namespace FeedbackRun

def start : FeedbackRun := ⟨some .new, fun _ => [], fun _ => 0⟩

/-- The window of a stream opens at its first packet. -/
def opened (s : FeedbackRun) (ssrc : Ssrc) (n : Int) : Nat :=
  if s.heard ssrc = [] then n.toNat else s.covered ssrc

/-- The window of a stream after a report. -/
def coveredAfter (s : FeedbackRun) (r' : CcFeedbackRecorder) (ssrc : Ssrc) : Nat :=
  (r'.streams.lookup ssrc).elim (s.covered ssrc) StreamLog.nextToReport

def step (s : FeedbackRun) : FeedbackEvent → FeedbackRun
  | .packet arrival ssrc n ecn =>
    { recorder := s.recorder.bind fun r => r.addPacket arrival ssrc (BitVec.ofInt 16 n) ecn
      heard := Function.update s.heard ssrc (s.heard ssrc ++ [(n, arrival)])
      covered := Function.update s.covered ssrc (s.opened ssrc n) }
  | .report now senderSsrc reportTimestamp maxSize =>
    match s.recorder.bind fun r => r.buildReport now senderSsrc reportTimestamp maxSize with
    | some (_, r') => { s with recorder := some r', covered := s.coveredAfter r' }
    | none => { s with recorder := none }

/-- The first number of a stream is in the first cycle, every other within `2 ^ 15 - 1` of the highest. -/
def InRange (s : FeedbackRun) : FeedbackEvent → Prop
  | .packet _ ssrc n _ =>
    match (s.heard ssrc).highest with
    | none => 0 ≤ n ∧ n < 65536
    | some highest => |n - highest| ≤ 32767
  | .report .. => True

/-- The packet has not been heard before at another time, unless the window has passed it, and its number fits. A
    packet below the origin is taken for number 0. -/
def Single (s : FeedbackRun) : FeedbackEvent → Prop
  | .packet arrival ssrc n _ =>
    n < 2 ^ 63 ∧ ∀ t, (max n 0, t) ∈ s.heard ssrc → s.covered ssrc ≤ (max n 0).toNat → t = arrival
  | .report .. => True

/-- The block starts no earlier than the window of its stream has moved, and says of each number from
    there on whether and when its packet first arrived. -/
def TruthfulBlock (s : FeedbackRun) (now : Instant) (r' : CcFeedbackRecorder)
    (block : CcFeedbackReportBlock) : Prop :=
  ∃ begin, s.covered block.mediaSsrc ≤ begin ∧ begin ≤ s.coveredAfter r' block.mediaSsrc ∧
    block.beginSequence = BitVec.ofNat 16 begin ∧
    ∀ i metric, block.metricBlocks[i]? = some metric →
      StreamLog.Tells now metric ((s.heard block.mediaSsrc).firstArrival ((begin + i : Nat) : Int))

/-- No overflow has stopped the recorder, and none stops a report made now; its blocks tell the truth,
    and its bytes keep to a budget that holds the overheads and the padding. -/
def Faithful (s : FeedbackRun) : Prop :=
  ∃ r, s.recorder = some r ∧
    ∀ now senderSsrc reportTimestamp maxSize, ∃ report r',
      r.buildReport now senderSsrc reportTimestamp maxSize = some (report, r') ∧
      (∀ block ∈ report.reportBlocks, s.TruthfulBlock now r' block) ∧
      (12 + 8 * r.streams.keys.length ≤ maxSize → r.PaddingFits maxSize →
        ∃ bytes, report.marshalTo report.marshalSize = .ok bytes ∧ bytes.length ≤ maxSize)

/-- The recorder goes with what has been heard. -/
def Consistent (s : FeedbackRun) : Prop :=
  ∃ r, s.recorder = some r ∧ StreamsTrack r.streams s.heard ∧
    ∀ ssrc log, r.streams.lookup ssrc = some log → log.nextToReport = s.covered ssrc

variable {s : FeedbackRun}

theorem Consistent.faithful (h : s.Consistent) : s.Faithful := by
  obtain ⟨r, hr, htrack, hcovered⟩ := h
  refine ⟨r, hr, fun now senderSsrc reportTimestamp maxSize => ?_⟩
  obtain ⟨blocks, streams', hbuild, -, -, hblocks⟩ :=
    CcFeedbackRecorder.buildReport_eq htrack now senderSsrc reportTimestamp maxSize
  refine ⟨_, _, hbuild, ?_, fun hroom hfits =>
    CcFeedbackRecorder.marshal_le htrack hbuild hroom hfits⟩
  intro block hblock
  obtain ⟨ssrc, -, log, log', hlog, hlog', hreported⟩ :=
    CcFeedbackRecorder.exists_of_mem_right hblocks hblock
  have hssrc : block.mediaSsrc = ssrc := hreported.mediaSsrc_eq.trans (htrack.of_lookup hlog).1
  obtain ⟨begin, hlow, hhigh, hseq, htells⟩ := hreported.tells
  refine ⟨begin, ?_, ?_, hseq, ?_⟩
  · rw [hssrc, ← hcovered ssrc log hlog]
    exact hlow
  · rw [hssrc, coveredAfter, hlog']
    exact hhigh
  · rw [hssrc]
    exact htells

theorem Consistent.add {r : CcFeedbackRecorder} (htrack : StreamsTrack r.streams s.heard)
    (hcovered : ∀ ssrc log, r.streams.lookup ssrc = some log → log.nextToReport = s.covered ssrc)
    {arrival : Instant} {ssrc : Ssrc} {n : Int} {ecn : Ecn}
    (hin : s.InRange (.packet arrival ssrc n ecn)) (hok : s.Single (.packet arrival ssrc n ecn)) :
    ∃ log', ((r.streams.lookup ssrc).getD (.new ssrc)).add arrival (BitVec.ofInt 16 n) ecn = some log' ∧
      log'.Tracks (s.heard ssrc ++ [(n, arrival)]) ∧ log'.nextToReport = s.opened ssrc n ∧
      log'.ssrc = ssrc := by
  simp only [InRange] at hin
  cases hlog : r.streams.lookup ssrc with
  | none =>
    have hnil := htrack.of_lookup_none hlog
    rw [hnil] at hin
    obtain ⟨log', hadd, htracks, hnext, hssrc⟩ := StreamLog.add_new ssrc hin.1 hin.2
    refine ⟨log', hadd, ?_, ?_, hssrc⟩
    · rw [hnil]
      exact htracks
    · rw [opened, if_pos hnil]
      exact hnext
  | some log =>
    obtain ⟨hssrc, htracks⟩ := htrack.of_lookup hlog
    rw [htracks.highest_heard] at hin
    have hsingle : log.Single (s.heard ssrc) n arrival := by
      intro t hmem hle
      rw [hcovered ssrc log hlog] at hle
      exact hok.2 t hmem hle
    have hne : s.heard ssrc ≠ [] := by
      intro hnil
      have hmem := htracks.highest_mem
      rw [hnil] at hmem
      cases hmem
    obtain ⟨log', hadd, htracks', hnext, hssrc'⟩ := htracks.add hin hok.1 hsingle
    refine ⟨log', hadd, htracks', ?_, hssrc'.trans hssrc⟩
    rw [opened, if_neg hne, hnext]
    exact hcovered ssrc log hlog

theorem Consistent.step (h : s.Consistent) {e : FeedbackEvent}
    (hin : s.InRange e) (hok : s.Single e) : (s.step e).Consistent := by
  obtain ⟨r, hr, htrack, hcovered⟩ := h
  cases e with
  | packet arrival ssrc n ecn =>
    obtain ⟨log', hadd, htracks, hnext, hssrc⟩ := Consistent.add htrack hcovered hin hok
    have hrecorder : (s.step (.packet arrival ssrc n ecn)).recorder =
        some ⟨r.streams.insert ssrc log'⟩ := by
      simp only [FeedbackRun.step, hr, Option.bind_some, CcFeedbackRecorder.addPacket, hadd]
    refine ⟨_, hrecorder, fun other => ?_, fun other log hlog => ?_⟩
    · by_cases heq : other = ssrc
      · subst heq
        rw [AList.lookup_insert]
        refine ⟨hssrc, ?_⟩
        simp only [FeedbackRun.step, Function.update_self]
        exact htracks
      · rw [AList.lookup_insert_ne heq]
        simp only [FeedbackRun.step, Function.update_of_ne heq]
        exact htrack other
    · by_cases heq : other = ssrc
      · subst heq
        rw [AList.lookup_insert] at hlog
        rw [← Option.some.inj hlog, hnext]
        simp only [FeedbackRun.step, Function.update_self]
      · rw [AList.lookup_insert_ne heq] at hlog
        simp only [FeedbackRun.step, Function.update_of_ne heq]
        exact hcovered other log hlog
  | report now senderSsrc reportTimestamp maxSize =>
    obtain ⟨blocks, streams', hbuild, htrack', hsame, hblocks⟩ :=
      CcFeedbackRecorder.buildReport_eq htrack now senderSsrc reportTimestamp maxSize
    have hstep : s.step (.report now senderSsrc reportTimestamp maxSize) =
        { s with recorder := some ⟨streams'⟩, covered := s.coveredAfter ⟨streams'⟩ } := by
      simp only [FeedbackRun.step, hr, Option.bind_some, hbuild]
    rw [hstep]
    refine ⟨_, rfl, htrack', fun ssrc log hlog => ?_⟩
    show log.nextToReport = s.coveredAfter ⟨streams'⟩ ssrc
    rw [coveredAfter, hlog]
    rfl

theorem consistent_start : start.Consistent :=
  ⟨.new, rfl, fun _ => rfl, fun _ _ hlog => by cases hlog⟩

/-- In every run in which no packet of a window is heard again at another time, the feedback is
    faithful throughout. -/
theorem faithful_run {events : List FeedbackEvent} (hin : Runs.Meets step InRange start events)
    (hok : Runs.Meets step Single start events) : (Runs.run step start events).Faithful := by
  have hrun := Runs.inv_run (I := Consistent) step
    (fun _ _ h hstep => Consistent.step h hstep.1 hstep.2) consistent_start (hin.and hok)
  exact hrun.faithful

instance (s : FeedbackRun) : (e : FeedbackEvent) → Decidable (s.InRange e)
  | .packet _ ssrc n _ =>
    match h : (s.heard ssrc).highest with
    | none => decidable_of_iff (0 ≤ n ∧ n < 65536) (by simp only [InRange, h])
    | some highest => decidable_of_iff (|n - highest| ≤ 32767) (by simp only [InRange, h])
  | .report .. => inferInstanceAs (Decidable True)

instance (s : FeedbackRun) : (e : FeedbackEvent) → Decidable (s.Single e)
  | .packet arrival ssrc n _ =>
    decidable_of_iff
      (n < 2 ^ 63 ∧ ∀ a ∈ s.heard ssrc, a.1 = max n 0 → s.covered ssrc ≤ (max n 0).toNat →
        a.2 = arrival)
      ⟨fun h => ⟨h.1, fun t ht => h.2 _ ht rfl⟩,
        fun h => ⟨h.1, fun a ha heq => h.2 a.2 (by rw [← heq]; exact ha)⟩⟩
  | .report .. => inferInstanceAs (Decidable True)

/-- Packets of one stream across the wrap, one late and one missing, and a report in between. -/
theorem faithful_across_wrap :
    (Runs.run step start
      [.packet 0 1#32 65534 .notEct, .packet 5 1#32 65537 .notEct, .report 10 9#32 0#32 1200,
        .packet 20 1#32 65535 .notEct]).Faithful :=
  faithful_run (by decide +kernel) (by decide +kernel)

def heardTwice : List FeedbackEvent :=
  [.packet 0 1#32 100 .notEct, .packet 500000000 1#32 100 .notEct]

theorem report_heardTwice :
    (((Runs.run step start heardTwice).recorder.bind fun r =>
        r.buildReport 1000000000 9#32 0#32 1200).map fun p =>
      (p.1.reportBlocks, (Runs.run step start heardTwice).coveredAfter p.2 1#32)) =
      some ([⟨1#32, 100#16, [⟨true, .notEct, 512#16⟩]⟩], 101) := by
  decide +kernel

/-- A packet heard again before it is reported gets the time of its last copy, and a report of one
    packet takes 24 bytes of a budget of 22. -/
theorem duplicate_and_padding :
    (Runs.Meets step InRange start heardTwice ∧ ¬ (Runs.run step start heardTwice).Faithful) ∧
    ((Runs.run step start [.packet 0 1#32 100 .notEct]).recorder.bind fun r =>
        (r.buildReport 0 9#32 0#32 22).map fun p =>
          (12 + 8 * r.streams.keys.length, p.1.marshalSize)) = some (20, 24) := by
  refine ⟨⟨by decide +kernel, ?_⟩, by decide +kernel⟩
  rintro ⟨r, hr, hfaithful⟩
  obtain ⟨report, r', hbuild, htruthful, -⟩ := hfaithful 1000000000 9#32 0#32 1200
  have hreport := report_heardTwice
  rw [hr, Option.bind_some, hbuild, Option.map_some, Option.some.injEq, Prod.mk.injEq] at hreport
  obtain ⟨hblocks, hafter⟩ := hreport
  obtain ⟨begin, hlow, hhigh, hseq, htells⟩ :=
    htruthful _ (by rw [hblocks]; exact List.mem_singleton_self _)
  rw [hafter] at hhigh
  have hcovered : (Runs.run step start heardTwice).covered 1#32 = 100 := by decide +kernel
  have hbegin : begin = 100 := by
    rcases Nat.lt_or_ge begin 101 with hlt | hge
    · dsimp only at hlow
      omega
    · rw [show begin = 101 by omega] at hseq
      exact absurd hseq (by decide)
  subst hbegin
  have hfirst : ((Runs.run step start heardTwice).heard 1#32).firstArrival 100 = some 0 := by
    decide +kernel
  have hmetric := htells 0 _ rfl
  rw [show (((100 + 0 : Nat)) : Int) = 100 from rfl, hfirst] at hmetric
  exact absurd hmetric.2 (by decide +kernel)

end FeedbackRun

end Rtc.Interceptor
