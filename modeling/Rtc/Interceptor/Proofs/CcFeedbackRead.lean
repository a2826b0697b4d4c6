import Rtc.Interceptor.Proofs.CcFeedback
import Rtc.Interceptor.Rtpfb.Convert
import Rtc.Lib.Loop
import Rtc.Rtcp.Proofs.CcFeedbackCodec

/-!
# Congestion control feedback at the sender

The bytes of a report are read by the sender of the media, and `convert_ccfb` makes acknowledgements of them.
-/

namespace Rtc.Interceptor
open Rtcp (Ecn CcFeedbackMetricBlock CcFeedbackReportBlock CcFeedbackReport)
open Rtpfb

/-! ## The reports that are made can be read -/

theorem arrivalTimeOffset_add (t : Instant) (age : Nat) : arrivalTimeOffset (t + age) t =
    if 8189 * 1000000000 < age * 1024 then 0x1FFE#16 else BitVec.ofNat 16 (age * 1024 / 1000000000) := by
  have hoffset : ((age : ℚ) / 1000000000 * 1024) = ((age * 1024 : Nat) : ℚ) / ((1000000000 : Nat) : ℚ) := by
    push_cast
    ring
  have hlt : (0x1FFD : ℚ) < ((age * 1024 : Nat) : ℚ) / ((1000000000 : Nat) : ℚ) ↔ 8189 * 1000000000 < age * 1024 := by
    rw [lt_div_iff₀ (by norm_num)]
    exact_mod_cast Iff.rfl
  rw [arrivalTimeOffset, if_neg (Nat.not_lt.mpr (Nat.le_add_right t age)), Nat.add_sub_cancel_left]
  have hfloor : (((age * 1024 : Nat) : ℚ) / ((1000000000 : Nat) : ℚ)).floor = ((age * 1024 / 1000000000 : Nat) : Int) :=
    Rat.floor_intCast_div_natCast (age * 1024 : Nat) 1000000000
  simp only [hoffset, hlt, hfloor, Int.toNat_natCast]

theorem canonical_metric (now : Instant) (report : Option PacketReport) :
    (StreamLog.metric now report).Canonical := by
  cases report with
  | none => exact ⟨by simp [StreamLog.metric], fun _ => ⟨rfl, rfl⟩⟩
  | some report =>
    refine ⟨fun _ => ?_, by simp [StreamLog.metric]⟩
    simp only [StreamLog.metric]
    rcases Nat.lt_or_ge now report.arrival with hlt | hle
    · rw [arrivalTimeOffset, if_pos hlt]
      decide
    · obtain ⟨age, rfl⟩ := Nat.exists_eq_add_of_le hle
      rw [arrivalTimeOffset_add]
      split
      · decide
      · rw [BitVec.toNat_ofNat]
        exact (Nat.mod_le _ _).trans_lt (by omega)

theorem StreamLog.canonical_metricsAfter {s s' : StreamLog} {now : Instant} {maxBlocks : Nat}
    {block : CcFeedbackReportBlock} (h : s.metricsAfter now maxBlocks = some (block, s')) : block.Canonical := by
  unfold metricsAfter at h
  split at h
  · cases h
    exact List.forall_mem_nil _
  · obtain ⟨⟨count, trimmed⟩, -, h⟩ := Option.bind_eq_some_iff.mp h
    dsimp only at h
    split at h
    · cases h
      exact List.forall_mem_nil _
    · obtain ⟨⟨rest, metrics⟩, hfold, h⟩ := Option.bind_eq_some_iff.mp h
      cases h
      refine Loop.foldlM_inv (I := fun x => ∀ m ∈ x.2, m.Canonical) ?_ (List.forall_mem_nil _) hfold
      rintro ⟨s, ms⟩ n ⟨s', ms'⟩ hms hround
      have hadded : ms' = ms ++ [metric now (s.log.lookup n)] := by
        grind [reportPacket]
      rintro m hm
      rcases List.mem_append.mp (hadded ▸ hm) with hm | hm
      · exact hms m hm
      · exact List.mem_singleton.mp hm ▸ canonical_metric _ _

theorem CcFeedbackRecorder.canonical_buildReport {r r' : CcFeedbackRecorder} {now : Instant} {senderSsrc : Ssrc}
    {reportTimestamp : BitVec 32} {maxSize : Nat} {report : CcFeedbackReport}
    (h : r.buildReport now senderSsrc reportTimestamp maxSize = some (report, r')) :
    ∀ block ∈ report.reportBlocks, block.Canonical := by
  unfold buildReport at h
  split at h
  · cases h
    exact List.forall_mem_nil _
  · obtain ⟨⟨blocks, streams⟩, hfold, h⟩ := Option.bind_eq_some_iff.mp h
    cases h
    refine Loop.foldlM_inv (I := fun x => ∀ b ∈ x.1, b.Canonical) ?_ (List.forall_mem_nil _) hfold
    rintro ⟨bs, streams⟩ ssrc ⟨bs', streams'⟩ hbs hround
    unfold reportStream at hround
    dsimp only at hround
    split at hround
    · cases hround
      exact hbs
    · split at hround
      · rename_i block stream hblock
        cases hround
        exact List.forall_mem_append.mpr ⟨hbs, List.forall_mem_singleton.mpr (StreamLog.canonical_metricsAfter hblock)⟩
      · cases hround

/-! ## What the acknowledgements say -/

theorem getElem?_ofMetrics (metrics : List CcFeedbackMetricBlock) (seq : Seq) (newest : Option Duration) (i : Nat) :
    (ofMetrics seq metrics newest).1[i]? =
      metrics[i]?.map fun m => (ofMetric (seq + BitVec.ofNat 16 i) m none).1 := by
  induction metrics generalizing seq newest i with
  | nil => rfl
  | cons m metrics ih =>
    cases i with
    | zero =>
      have hfirst : (ofMetric seq m newest).1 = (ofMetric seq m none).1 := by
        unfold ofMetric
        split_ifs <;> rfl
      simp [ofMetrics, hfirst]
    | succ i =>
      simp only [ofMetrics, List.getElem?_cons_succ, ih]
      rw [BitVec.ofNat_add, BitVec.add_assoc, BitVec.add_comm 1#16]

theorem length_ofMetrics (metrics : List CcFeedbackMetricBlock) (seq : Seq) (newest : Option Duration) :
    (ofMetrics seq metrics newest).1.length = metrics.length := by
  induction metrics generalizing seq newest with
  | nil => rfl
  | cons m metrics ih => simp [ofMetrics, ih]

theorem lookup_convertCcfb {report : CcFeedbackReport} {block : CcFeedbackReportBlock}
    (hblock : block ∈ report.reportBlocks) (hnodup : (report.reportBlocks.map (·.mediaSsrc)).Nodup) :
    ∃ newest, (convertCcfb report).2.lookup block.mediaSsrc =
      some (ofMetrics block.beginSequence block.metricBlocks newest).1 := by
  simp only [convertCcfb]
  generalize report.reportBlocks = blocks at hblock hnodup
  induction blocks using List.reverseRecOn with
  | nil => cases hblock
  | append_singleton blocks b ih =>
    rw [List.map_append, List.map_singleton, List.nodup_append] at hnodup
    rw [List.foldl_concat]
    rcases List.mem_append.mp hblock with hmem | hmem
    · have hne : block.mediaSsrc ≠ b.mediaSsrc :=
        hnodup.2.2 _ (List.mem_map_of_mem hmem) _ (List.mem_singleton_self _)
      simp only [Table.lookup_insert, if_neg hne]
      exact ih hmem hnodup.1
    · rw [List.mem_singleton.mp hmem]
      exact ⟨_, AList.lookup_insert _⟩

theorem ofUnits_bounds (units : BitVec 16) : ∃ told : Nat, ofUnits units = told ∧
    units.toNat * 1953125 ≤ 2 * told + 1 ∧ 2 * told ≤ units.toNat * 1953125 + 1 := by
  refine ⟨_, rfl, ?_⟩
  unfold ofUnits
  generalize units.toNat * 1953125 = twice
  dsimp only
  split <;> omega

theorem ofMetric_of_ne {m : CcFeedbackMetricBlock} (hreceived : m.received = true)
    (hne : m.arrivalTimeOffset ≠ 0x1FFF#16) (seq : Seq) :
    (ofMetric seq m none).1.arrival = some (ofUnits m.arrivalTimeOffset) := by
  simp only [ofMetric, hreceived, hne, Bool.not_true, Bool.false_eq_true, if_false]
  rfl

/-- The arrival given for a packet heard at `t`: how long before the report, to a unit of 1/1024 s, unless it was too
    long. -/
def Dated (now t : Instant) (arrival : Option Duration) : Prop :=
  (now < t → arrival = none) ∧ ∀ age : Nat, now = t + age → age ≤ 7997070312 →
    ∃ told : Nat, arrival = some told ∧ told ≤ age ∧ age < told + 976563

theorem dated_ofMetric {now t : Instant} {m : CcFeedbackMetricBlock} (h : StreamLog.Tells now m (some t)) (seq : Seq) :
    (ofMetric seq m none).1.arrived = true ∧ Dated now t (ofMetric seq m none).1.arrival := by
  obtain ⟨hreceived, hoffset⟩ := h
  refine ⟨?_, fun hlt => ?_, ?_⟩
  · simp only [ofMetric, hreceived, Bool.not_true, Bool.false_eq_true, if_false]
    split <;> rfl
  · rw [arrivalTimeOffset, if_pos hlt] at hoffset
    simp only [ofMetric, hreceived, hoffset, Bool.not_true, Bool.false_eq_true, if_false, if_true]
    rfl
  · rintro age rfl hage
    rw [arrivalTimeOffset_add, if_neg (by omega)] at hoffset
    have hunits : m.arrivalTimeOffset.toNat = age * 1024 / 1000000000 := by
      rw [hoffset, BitVec.toNat_ofNat]
      exact Nat.mod_eq_of_lt (by omega)
    have hne : m.arrivalTimeOffset ≠ 0x1FFF#16 := by
      intro heq
      rw [heq] at hunits
      simp at hunits
      omega
    obtain ⟨told, htold, hlow, hhigh⟩ := ofUnits_bounds m.arrivalTimeOffset
    refine ⟨told, ?_, ?_⟩
    · rw [ofMetric_of_ne hreceived hne, htold]
    · rw [hunits] at hlow hhigh
      omega

namespace FeedbackRun

variable {s : FeedbackRun} {now : Instant}

/-- The acknowledgements follow the numbers of a stream from its window on, and each says whether and when its packet
    first arrived. -/
def Acknowledged (s : FeedbackRun) (now : Instant) (ssrc : Ssrc) (acks : List Acknowledgement) : Prop :=
  ∃ begin, s.covered ssrc ≤ begin ∧ ∀ i ack, acks[i]? = some ack →
    ack.sequenceNumber = BitVec.ofNat 16 (begin + i) ∧
    match (s.heard ssrc).firstArrival ((begin + i : Nat) : Int) with
    | none => ack.arrived = false
    | some t => ack.arrived = true ∧ Dated now t ack.arrival

theorem TruthfulBlock.acknowledged {r' : CcFeedbackRecorder} {block : CcFeedbackReportBlock}
    (h : s.TruthfulBlock now r' block) (newest : Option Duration) :
    s.Acknowledged now block.mediaSsrc (ofMetrics block.beginSequence block.metricBlocks newest).1 := by
  obtain ⟨begin, hlow, -, hseq, htells⟩ := h
  refine ⟨begin, hlow, fun i ack hack => ?_⟩
  rw [getElem?_ofMetrics, hseq, ← BitVec.ofNat_add] at hack
  obtain ⟨m, hm, rfl⟩ := Option.map_eq_some_iff.mp hack
  have htell := htells i m hm
  constructor
  · unfold ofMetric
    split_ifs <;> rfl
  · cases hfirst : (s.heard block.mediaSsrc).firstArrival ((begin + i : Nat) : Int) with
    | none =>
      rw [hfirst] at htell
      simp [ofMetric, show m.received = false from htell, Acknowledgement.lost]
    | some t =>
      rw [hfirst] at htell
      exact dated_ofMetric htell _

/-- The report of a budget is read by the sender of the media as it was made, and acknowledges the pending packets of
    every stream, as many as the budget allows. -/
def Delivers (s : FeedbackRun) (now : Instant) (senderSsrc : Ssrc) (reportTimestamp : BitVec 32) (maxSize : Nat) :
    Prop :=
  ∃ r, s.recorder = some r ∧ (12 + 8 * r.streams.keys.length ≤ maxSize → r.PaddingFits maxSize →
    ∃ report r' bytes, r.buildReport now senderSsrc reportTimestamp maxSize = some (report, r') ∧
      report.marshal = .ok bytes ∧ bytes.length ≤ maxSize ∧ CcFeedbackReport.unmarshal bytes = .ok (report, []) ∧
      ∀ ssrc log, r.streams.lookup ssrc = some log → ∃ acks, (convertCcfb report).2.lookup ssrc = some acks ∧
        acks.length = min (r.perStream maxSize) log.pending ∧ s.Acknowledged now ssrc acks)

theorem Consistent.delivers (h : s.Consistent) (now : Instant) (senderSsrc : Ssrc) (reportTimestamp : BitVec 32)
    {maxSize : Nat} (hsize : maxSize ≤ 2 ^ 18) : s.Delivers now senderSsrc reportTimestamp maxSize := by
  obtain ⟨r, hr, htruthful⟩ := h.faithful
  obtain ⟨_, hr', htrack, -⟩ := h
  cases hr.symm.trans hr'
  refine ⟨r, hr, fun hroom hfits => ?_⟩
  obtain ⟨report, r', hbuild, htruth, hbytes⟩ := htruthful now senderSsrc reportTimestamp maxSize
  obtain ⟨blocks, streams', hbuild', -, -, hblocks⟩ :=
    CcFeedbackRecorder.buildReport_eq htrack now senderSsrc reportTimestamp maxSize
  cases hbuild.symm.trans hbuild'
  obtain ⟨bytes, hmarshal, hlength⟩ := hbytes hroom hfits
  have hperm := List.perm_insertionSort (· ≤ ·) r.streams.keys
  have hssrcs : List.Forall₂ Eq (r.streams.keys.insertionSort (· ≤ ·)) (blocks.map (·.mediaSsrc)) := by
    refine List.forall₂_map_right_iff.mpr (hblocks.imp ?_)
    rintro ssrc block ⟨log, log', hlog, -, hreported⟩
    exact (hreported.mediaSsrc_eq.trans (htrack.of_lookup hlog).1).symm
  rw [List.forall₂_eq_eq_eq] at hssrcs
  have hcount := CcFeedbackReport.marshal_eq_ok_iff.mp ⟨bytes, hmarshal⟩
  obtain ⟨bytes', hmarshal', hlength'⟩ := CcFeedbackReport.marshalTo_ok hcount
  cases hmarshal.symm.trans hmarshal'
  rw [CcFeedbackReport.marshalSize_eq] at hlength'
  have hfit : Rtcp.SizeFits (CcFeedbackReport.rawSize ⟨senderSsrc, blocks, reportTimestamp⟩) := by
    rw [Rtcp.SizeFits, Rtcp.getPaddingSize, if_pos (CcFeedbackReport.rawSize_mod_four _)]
    omega
  obtain ⟨_, hmarshal', hread⟩ :=
    CcFeedbackReport.unmarshal_marshal ⟨CcFeedbackRecorder.canonical_buildReport hbuild, hcount, hfit⟩
  cases hmarshal.symm.trans hmarshal'
  refine ⟨_, _, bytes, hbuild, hmarshal, hlength, hread, fun ssrc log hlog => ?_⟩
  have hperm := List.perm_insertionSort (· ≤ ·) r.streams.keys
  obtain ⟨block, hblock, _, log', hlog', -, hreported⟩ := CcFeedbackRecorder.exists_of_mem_right hblocks.flip
    (hperm.mem_iff.mpr (Table.mem_iff_lookup.mpr ⟨log, hlog⟩))
  cases hlog.symm.trans hlog'
  obtain ⟨newest, hacks⟩ := @lookup_convertCcfb ⟨senderSsrc, blocks, reportTimestamp⟩ block hblock
    (hssrcs ▸ hperm.nodup_iff.mpr r.streams.keys_nodup)
  have hssrc : block.mediaSsrc = ssrc := hreported.mediaSsrc_eq.trans (htrack.of_lookup hlog).1
  rw [← hssrc]
  exact ⟨_, hacks, by rw [length_ofMetrics, hreported.length_eq], (htruth block hblock).acknowledged newest⟩

/-- In every run without a packet of a window heard again at another time, every report is read by the sender as what
    the receiver has heard. -/
theorem delivers_run {events : List FeedbackEvent} (hin : Runs.Meets step InRange start events)
    (hok : Runs.Meets step Single start events) (now : Instant) (senderSsrc : Ssrc) (reportTimestamp : BitVec 32)
    {maxSize : Nat} (hsize : maxSize ≤ 2 ^ 18) :
    (Runs.run step start events).Delivers now senderSsrc reportTimestamp maxSize :=
  Consistent.delivers (Runs.inv_run (I := Consistent) step (fun _ _ h hstep => Consistent.step h hstep.1 hstep.2)
    consistent_start (hin.and hok)) now senderSsrc reportTimestamp hsize

theorem delivers_across_wrap :
    (Runs.run step start [.packet 0 1#32 65534 .notEct, .packet 5 1#32 65537 .notEct, .report 10 9#32 0#32 1200,
      .packet 20 1#32 65535 .notEct]).Delivers 30 9#32 0#32 1200 :=
  delivers_run (by decide +kernel) (by decide +kernel) 30 9#32 0#32 (by decide)

end FeedbackRun

end Rtc.Interceptor
