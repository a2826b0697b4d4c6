import Rtc.Interceptor.Rfc8888.Recorder
import Rtc.Lib.Unwrapped

/-!
# The arrival log of a stream

`Heard` is what has arrived of one stream, by true numbers, oldest first. By `StreamLog.Tracks` the log holds, from
`next_to_report` on, the time at which each packet first arrived.
-/

namespace Rtc.Interceptor
open Rtcp (Ecn CcFeedbackMetricBlock CcFeedbackReportBlock)
open Rtc.Unwrapped

/-- The packets of a stream that have arrived, by true number, with their times of arrival. -/
abbrev Heard := List (Int × Instant)

namespace Heard

/-- When packet `n` first arrived. -/
def firstArrival (heard : Heard) (n : Int) : Option Instant :=
  (heard.find? fun a => a.1 = n).map Prod.snd

def highest (heard : Heard) : Option Int := (heard.map Prod.fst).max?

variable {heard : Heard} {n m : Int} {t : Instant}

theorem firstArrival_append_of_ne (h : m ≠ n) : firstArrival (heard ++ [(n, t)]) m = firstArrival heard m := by
  rw [firstArrival, List.find?_append, List.find?_singleton, if_neg (by simpa using h.symm),
    Option.or_none, firstArrival]

theorem firstArrival_append_self : firstArrival (heard ++ [(n, t)]) n = some ((firstArrival heard n).getD t) := by
  rw [firstArrival, List.find?_append, List.find?_singleton, if_pos (by simp), firstArrival]
  cases heard.find? fun a => a.1 = n with
  | none => rfl
  | some a => rfl

theorem firstArrival_eq_some_of_mem (h : n ∈ heard.map Prod.fst) :
    ∃ t, firstArrival heard n = some t ∧ (n, t) ∈ heard := by
  obtain ⟨a, ha, rfl⟩ := List.mem_map.mp h
  cases hfind : heard.find? fun b => b.1 = a.1 with
  | none =>
    have hnone := List.find?_eq_none.mp hfind a ha
    exact absurd (decide_eq_true rfl) hnone
  | some b =>
    have hnum : b.1 = a.1 := by simpa using List.find?_some hfind
    refine ⟨b.2, by rw [firstArrival, hfind]; rfl, ?_⟩
    rw [← hnum]
    exact List.mem_of_find?_eq_some hfind

theorem mem_of_firstArrival (h : firstArrival heard n = some t) : (n, t) ∈ heard := by
  obtain ⟨a, hfind, rfl⟩ := Option.map_eq_some_iff.mp h
  have hnum : a.1 = n := by simpa using List.find?_some hfind
  rw [← hnum]
  exact List.mem_of_find?_eq_some hfind

end Heard

/-! ## Extending a number -/

theorem SequenceExtender.extend_near {x : SequenceExtender} {highest : Nat} {n : Int}
    (hx : x.highest = some highest) (hhighest : highest < 2 ^ 63) (hnear : |n - highest| ≤ 32767)
    (hn : n < 2 ^ 63) :
    x.extend (BitVec.ofInt 16 n) =
      some ((max n 0).toNat, ⟨some (max highest (max n 0).toNat)⟩) := by
  have habs := abs_le.mp hnear
  have hdistance : (BitVec.ofInt 16 n - BitVec.ofNat 16 highest).toInt = n - highest := by
    rw [← BitVec.ofInt_natCast, ofInt_sub_ofInt]
    exact BitVec.toInt_ofInt_eq_self (by decide) (by omega) (by omega)
  have htoNat : (BitVec.ofNat 64 highest).toNat = highest := by
    rw [BitVec.toNat_ofNat]
    exact Nat.mod_eq_of_lt (by omega)
  have hcast : (BitVec.ofNat 64 highest).toInt = highest := by
    rw [BitVec.toInt_eq_toNat_of_lt (by omega), htoNat]
  have hsum : (highest : Int) + (n - highest) = n := by omega
  unfold extend
  rw [hx]
  dsimp only
  rw [hdistance, hcast, hsum, if_pos ⟨by omega, hn⟩]
  congr 2
  split
  case isTrue hlt => rw [max_eq_right hlt.le]
  case isFalse hge => rw [max_eq_left (not_lt.mp hge), ← hx]

namespace StreamLog

variable {s : StreamLog} {heard : Heard} {n : Int} {now arrival : Instant} {ecn : Ecn}

/-- The log holds what has been heard since `next_to_report`, with the times of first arrival. -/
structure Tracks (s : StreamLog) (heard : Heard) : Prop where
  initialised_eq : s.initialised = true
  highest_eq : s.extender.highest = some s.highestReceived
  highest_lt : s.highestReceived < 2 ^ 63
  le_highest : ∀ a ∈ heard, a.1 ≤ s.highestReceived
  highest_mem : (s.highestReceived : Int) ∈ heard.map Prod.fst
  next_le : s.nextToReport ≤ s.highestReceived + 1
  zero_heard : s.nextToReport = 0 → (0 : Int) ∈ heard.map Prod.fst
  within : ∀ k report, s.log.lookup k = some report → s.nextToReport ≤ k ∧ k ≤ s.highestReceived
  arrival_eq : ∀ k : Nat, s.nextToReport ≤ k →
    (s.log.lookup k).map PacketReport.arrival = heard.firstArrival k

theorem Tracks.highest_heard (h : s.Tracks heard) : heard.highest = some (s.highestReceived : Int) := by
  apply List.max?_eq_some_iff.mpr
  refine ⟨h.highest_mem, fun m hm => ?_⟩
  obtain ⟨a, ha, rfl⟩ := List.mem_map.mp hm
  exact h.le_highest a ha

/-! ## A packet -/

theorem add_new (ssrc : Ssrc) (hlow : 0 ≤ n) (hhigh : n < 65536) :
    ∃ s', (new ssrc).add arrival (BitVec.ofInt 16 n) ecn = some s' ∧ s'.Tracks [(n, arrival)] ∧
      s'.nextToReport = n.toNat ∧ s'.ssrc = ssrc := by
  have hseq : ((BitVec.ofInt 16 n).toNat : Int) = n := toNat_ofInt_of_lt hlow (by omega)
  have hnat : (BitVec.ofInt 16 n).toNat = n.toNat := by omega
  refine ⟨_, rfl, ?_, ?_, ?_⟩
  · have hrecord : ({ new ssrc with extender := ⟨some (BitVec.ofInt 16 n).toNat⟩ }.record
        (BitVec.ofInt 16 n).toNat ⟨arrival, ecn⟩) =
          { ssrc := ssrc, extender := ⟨some n.toNat⟩, nextToReport := n.toNat,
            highestReceived := n.toNat, initialised := true,
            log := (∅ : Table Nat PacketReport).insert n.toNat ⟨arrival, ecn⟩ } := by
      simp [record, new, hnat]
    rw [hrecord]
    have hself : ((n.toNat : Nat) : Int) = n := Int.toNat_of_nonneg hlow
    constructor
    case initialised_eq => rfl
    case highest_eq => rfl
    case highest_lt =>
      show n.toNat < 2 ^ 63
      omega
    case le_highest =>
      intro a ha
      rw [List.mem_singleton.mp ha]
      exact hself.ge
    case highest_mem => exact List.mem_singleton.mpr hself
    case next_le => exact Nat.le_succ _
    case zero_heard =>
      intro hzero
      have hzero' : n.toNat = 0 := hzero
      exact List.mem_singleton.mpr (by omega)
    case within =>
      intro k report hk
      by_cases hkn : k = n.toNat
      · rw [hkn]
        exact ⟨le_refl _, le_refl _⟩
      · rw [AList.lookup_insert_ne hkn] at hk
        cases hk
    case arrival_eq =>
      intro k _
      by_cases hkn : k = n.toNat
      · rw [hkn, AList.lookup_insert, hself, Heard.firstArrival, List.find?_singleton,
          if_pos (decide_eq_true rfl)]
        rfl
      · rw [AList.lookup_insert_ne hkn, Heard.firstArrival, List.find?_singleton,
          if_neg (by simp; omega)]
        rfl
  · simp [record, new, hnat]
  · simp [record, new]

/-- The packet has not been heard before at another time, unless the window has passed it. A packet
    below the origin is recorded under number 0. -/
def Single (s : StreamLog) (heard : Heard) (n : Int) (arrival : Instant) : Prop :=
  ∀ t, (max n 0, t) ∈ heard → s.nextToReport ≤ (max n 0).toNat → t = arrival

theorem record_of_lt {k : Nat} {report : PacketReport} (hs : s.initialised = true)
    (h : k < s.nextToReport) : s.record k report = s := by
  simp [record, hs, h]

theorem record_of_le {k : Nat} {report : PacketReport} (hs : s.initialised = true) (h : s.nextToReport ≤ k) :
    s.record k report =
      { s with log := s.log.insert k report, highestReceived := max s.highestReceived k } := by
  simp [record, hs, not_lt.mpr h]

theorem Tracks.firstArrival_append (h : s.Tracks heard) (hsingle : s.Single heard n arrival)
    (hle : s.nextToReport ≤ (max n 0).toNat) :
    Heard.firstArrival (heard ++ [(n, arrival)]) (max n 0) = some arrival := by
  by_cases hneg : n < 0
  · -- the window starts at 0, which has been heard
    rw [max_eq_right hneg.le] at hle ⊢
    obtain ⟨t, hfirst, hmem⟩ :=
      Heard.firstArrival_eq_some_of_mem (h.zero_heard (Nat.le_zero.mp hle))
    rw [Heard.firstArrival_append_of_ne hneg.ne', hfirst]
    have hsame := hsingle t
    rw [max_eq_right hneg.le] at hsame
    rw [hsame hmem hle]
  · have hmax : max n 0 = n := max_eq_left (not_lt.mp hneg)
    rw [hmax] at hle ⊢
    rw [Heard.firstArrival_append_self]
    cases hfirst : Heard.firstArrival heard n with
    | none => rfl
    | some t =>
      have hsame := hsingle t
      rw [hmax] at hsame
      rw [Option.getD_some, hsame (Heard.mem_of_firstArrival hfirst) hle]

theorem Tracks.add (h : s.Tracks heard) (hnear : |n - s.highestReceived| ≤ 32767) (hn : n < 2 ^ 63)
    (hsingle : s.Single heard n arrival) :
    ∃ s', s.add arrival (BitVec.ofInt 16 n) ecn = some s' ∧
      s'.Tracks (heard ++ [(n, arrival)]) ∧ s'.nextToReport = s.nextToReport ∧ s'.ssrc = s.ssrc := by
  have hnext := h.next_le
  have hlt := h.highest_lt
  have hadd := SequenceExtender.extend_near h.highest_eq h.highest_lt hnear hn
  have hmem : ∀ m : Int, m ∈ heard.map Prod.fst → m ∈ (heard ++ [(n, arrival)]).map Prod.fst := by
    intro m hm
    rw [List.map_append]
    exact List.mem_append_left _ hm
  unfold StreamLog.add
  rw [hadd]
  by_cases hbehind : (max n 0).toNat < s.nextToReport
  · have hmax : max s.highestReceived (max n 0).toNat = s.highestReceived := by omega
    refine ⟨_, congrArg some (record_of_lt h.initialised_eq hbehind), ?_, rfl, rfl⟩
    constructor
    case initialised_eq => exact h.initialised_eq
    case highest_eq => exact congrArg some hmax
    case highest_lt => exact hlt
    case le_highest =>
      intro a ha
      rcases List.mem_append.mp ha with ha | ha
      · exact h.le_highest a ha
      · rw [List.mem_singleton.mp ha]
        dsimp only
        omega
    case highest_mem => exact hmem _ h.highest_mem
    case next_le => exact hnext
    case zero_heard => exact fun hzero => hmem _ (h.zero_heard hzero)
    case within => exact h.within
    case arrival_eq =>
      intro k hk
      rw [Heard.firstArrival_append_of_ne]
      · exact h.arrival_eq k hk
      · have hk' : s.nextToReport ≤ k := hk
        omega
  · have hle := not_lt.mp hbehind
    refine ⟨_, congrArg some (record_of_le h.initialised_eq hle), ?_, rfl, rfl⟩
    constructor
    case initialised_eq => exact h.initialised_eq
    case highest_eq => rfl
    case highest_lt =>
      dsimp only
      omega
    case le_highest =>
      intro a ha
      dsimp only
      rcases List.mem_append.mp ha with ha | ha
      · have hle := h.le_highest a ha
        omega
      · rw [List.mem_singleton.mp ha]
        omega
    case highest_mem =>
      by_cases hgt : s.highestReceived < (max n 0).toNat
      · rw [max_eq_right hgt.le, List.map_append]
        apply List.mem_append_right
        exact List.mem_singleton.mpr (by dsimp only; omega)
      · rw [max_eq_left (not_lt.mp hgt)]
        exact hmem _ h.highest_mem
    case next_le =>
      dsimp only
      omega
    case zero_heard => exact fun hzero => hmem _ (h.zero_heard hzero)
    case within =>
      intro k report hk
      dsimp only at hk ⊢
      by_cases hkn : k = (max n 0).toNat
      · omega
      · rw [AList.lookup_insert_ne hkn] at hk
        have hin := h.within k report hk
        omega
    case arrival_eq =>
      intro k hk
      have hself : (((max n 0).toNat : Nat) : Int) = max n 0 := Int.toNat_of_nonneg (le_max_right n 0)
      by_cases hkn : k = (max n 0).toNat
      · rw [hkn, AList.lookup_insert, hself, h.firstArrival_append hsingle hle]
        rfl
      · rw [AList.lookup_insert_ne hkn, Heard.firstArrival_append_of_ne (by omega)]
        exact h.arrival_eq k hk

/-! ## A report block -/

/-- The packets from `next_to_report` up to the highest, if any of them has arrived. -/
def pending (s : StreamLog) : Nat :=
  if s.isEmpty then 0 else s.highestReceived + 1 - s.nextToReport

theorem exists_lookup_of_not_isEmpty (h : ¬ s.isEmpty = true) : ∃ k report, s.log.lookup k = some report := by
  rw [isEmpty, List.isEmpty_iff] at h
  obtain ⟨⟨k, report⟩, hmem⟩ := List.exists_mem_of_ne_nil _ h
  exact ⟨k, report, AList.mem_lookup_iff.mpr hmem⟩

/-- A window that is not empty has no number below its start, so nothing underflows in `trim`. -/
theorem Tracks.next_le_highest (h : s.Tracks heard) (hne : ¬ s.isEmpty = true) :
    s.nextToReport ≤ s.highestReceived := by
  obtain ⟨k, report, hk⟩ := exists_lookup_of_not_isEmpty hne
  have hin := h.within k report hk
  omega

theorem Tracks.trim (h : s.Tracks heard) (hle : s.nextToReport ≤ s.highestReceived) (maxBlocks : Nat) :
    ∃ s', s.trim maxBlocks = some (min maxBlocks (s.highestReceived + 1 - s.nextToReport), s') ∧
      s'.Tracks heard ∧ s.nextToReport ≤ s'.nextToReport ∧ s'.ssrc = s.ssrc ∧
      s'.highestReceived + 1 - s'.nextToReport =
        min maxBlocks (s.highestReceived + 1 - s.nextToReport) := by
  have hlt := h.highest_lt
  have hcount : s.highestReceived - s.nextToReport + 1 = s.highestReceived + 1 - s.nextToReport := by
    omega
  unfold StreamLog.trim
  rw [Checked.sub_of_le hle, Option.bind_eq_bind, Option.bind_some,
    Checked.add_of_lt (by omega), Option.bind_some, hcount]
  by_cases hmax : maxBlocks < s.highestReceived + 1 - s.nextToReport
  · rw [if_pos hmax, Checked.add_of_lt (by omega), Option.bind_some,
      Checked.sub_of_le (by omega), Option.bind_some, min_eq_left hmax.le]
    refine ⟨_, rfl, ?_, ?_, rfl, ?_⟩
    · constructor
      case initialised_eq => exact h.initialised_eq
      case highest_eq => exact h.highest_eq
      case highest_lt => exact hlt
      case le_highest => exact h.le_highest
      case highest_mem => exact h.highest_mem
      case next_le => exact Nat.sub_le _ _
      case zero_heard =>
        intro hzero
        dsimp only at hzero
        omega
      case within =>
        intro k report hk
        rw [Table.lookup_retain, Option.filter_eq_some_iff, decide_eq_true_eq] at hk
        exact ⟨hk.2, (h.within k report hk.1).2⟩
      case arrival_eq =>
        intro k hk
        dsimp only at hk ⊢
        rw [Table.lookup_retain, ← h.arrival_eq k (by omega)]
        cases s.log.lookup k with
        | none => rfl
        | some report => rw [Option.filter_some, if_pos (decide_eq_true hk)]
    · dsimp only
      omega
    · dsimp only
      omega
  · rw [if_neg hmax, min_eq_right (not_lt.mp hmax)]
    exact ⟨s, rfl, h, le_refl _, rfl, rfl⟩

/-- What a metric block says of a packet: whether and when it first arrived. -/
def Tells (now : Instant) (metric : CcFeedbackMetricBlock) : Option Instant → Prop
  | some t => metric.received = true ∧ metric.arrivalTimeOffset = arrivalTimeOffset now t
  | none => metric.received = false

theorem tells_metric (now : Instant) (report : Option PacketReport) :
    Tells now (metric now report) (report.map PacketReport.arrival) := by
  cases report with
  | none => rfl
  | some report => exact ⟨rfl, rfl⟩

theorem Tracks.advance (h : s.Tracks heard) {report : PacketReport}
    (hreport : s.log.lookup s.nextToReport = some report) :
    Tracks { s with log := s.log.erase s.nextToReport, nextToReport := s.nextToReport + 1 } heard where
  initialised_eq := h.initialised_eq
  highest_eq := h.highest_eq
  highest_lt := h.highest_lt
  le_highest := h.le_highest
  highest_mem := h.highest_mem
  next_le := Nat.succ_le_succ (h.within _ _ hreport).2
  zero_heard := fun hzero => absurd hzero (Nat.succ_ne_zero _)
  within := by
    intro k report' hk
    dsimp only at hk ⊢
    by_cases hkn : k = s.nextToReport
    · rw [hkn, AList.lookup_erase] at hk
      cases hk
    · rw [AList.lookup_erase_ne hkn] at hk
      have hin := h.within k report' hk
      omega
  arrival_eq := by
    intro k hk
    dsimp only at hk ⊢
    rw [AList.lookup_erase_ne (by omega)]
    exact h.arrival_eq k (by omega)

/-- The window after the loop has described the numbers up to `stop`. -/
structure Described (s : StreamLog) (now : Instant) (heard : Heard) (begin stop : Nat)
    (s' : StreamLog) (metricBlocks : List CcFeedbackMetricBlock) : Prop where
  tracks : s'.Tracks heard
  highest_eq : s'.highestReceived = s.highestReceived
  ssrc_eq : s'.ssrc = s.ssrc
  begin_le : begin ≤ s'.nextToReport
  next_le : s'.nextToReport ≤ stop
  length_eq : metricBlocks.length = stop - begin
  tells : ∀ i metric, metricBlocks[i]? = some metric →
    Tells now metric (heard.firstArrival ((begin + i : Nat) : Int))

theorem Described.reportPacket {begin stop : Nat} {s' : StreamLog}
    {metricBlocks : List CcFeedbackMetricBlock} (h : Described s now heard begin stop s' metricBlocks) :
    ∃ s'' metricBlocks', reportPacket now (s', metricBlocks) stop = some (s'', metricBlocks') ∧
      Described s now heard begin (stop + 1) s'' metricBlocks' := by
  have hbegin := h.begin_le
  have hnext := h.next_le
  have hlength := h.length_eq
  have harrival := h.tracks.arrival_eq stop hnext
  have htells : ∀ i m, (metricBlocks ++ [metric now (s'.log.lookup stop)])[i]? = some m →
      Tells now m (heard.firstArrival ((begin + i : Nat) : Int)) := by
    intro i m hi
    rcases Nat.lt_trichotomy i metricBlocks.length with hlt | heq | hgt
    · rw [List.getElem?_append_left hlt] at hi
      exact h.tells i m hi
    · rw [heq, List.getElem?_concat_length] at hi
      rw [← Option.some.inj hi, heq, hlength, show begin + (stop - begin) = stop by omega, ← harrival]
      exact tells_metric now _
    · rw [List.getElem?_eq_none (by simp; omega)] at hi
      cases hi
  unfold StreamLog.reportPacket
  dsimp only
  split
  case isTrue hadvance =>
    obtain ⟨hsome, hstop⟩ := hadvance
    obtain ⟨report, hreport⟩ := Option.isSome_iff_exists.mp hsome
    rw [hstop] at hreport
    have hin := h.tracks.within _ _ hreport
    have hlt := h.tracks.highest_lt
    rw [Checked.add_of_lt (by omega)]
    subst hstop
    refine ⟨_, _, rfl, h.tracks.advance hreport, h.highest_eq, h.ssrc_eq, ?_, le_refl _, ?_, htells⟩
    · exact hbegin.trans (Nat.le_succ _)
    · rw [List.length_append, hlength, List.length_singleton]
      omega
  case isFalse hstay =>
    refine ⟨_, _, rfl, h.tracks, h.highest_eq, h.ssrc_eq, hbegin, by omega, ?_, htells⟩
    rw [List.length_append, hlength, List.length_singleton]
    omega

theorem Described.foldlM_reportPacket {begin : Nat} (k : Nat) :
    ∀ {stop : Nat} {s' : StreamLog} {metricBlocks : List CcFeedbackMetricBlock},
      Described s now heard begin stop s' metricBlocks →
      ∃ s'' metricBlocks',
        (List.range' stop k).foldlM (StreamLog.reportPacket now) (s', metricBlocks) =
          some (s'', metricBlocks') ∧
        Described s now heard begin (stop + k) s'' metricBlocks' := by
  induction k with
  | zero =>
    intro stop s' metricBlocks h
    exact ⟨s', metricBlocks, rfl, h⟩
  | succ k ih =>
    intro stop s' metricBlocks h
    obtain ⟨s₁, metricBlocks₁, hstep, h₁⟩ := h.reportPacket
    obtain ⟨s₂, metricBlocks₂, hrest, h₂⟩ := ih h₁
    refine ⟨s₂, metricBlocks₂, ?_, ?_⟩
    · rw [List.range'_succ, List.foldlM_cons, hstep]
      exact hrest
    · rw [show stop + (k + 1) = stop + 1 + k by omega]
      exact h₂

/-- What a report block says, and what is left of the log. -/
structure Reported (s : StreamLog) (now : Instant) (maxBlocks : Nat) (heard : Heard)
    (block : CcFeedbackReportBlock) (s' : StreamLog) : Prop where
  mediaSsrc_eq : block.mediaSsrc = s.ssrc
  tracks : s'.Tracks heard
  ssrc_eq : s'.ssrc = s.ssrc
  length_eq : block.metricBlocks.length = min maxBlocks s.pending
  tells : ∃ begin, s.nextToReport ≤ begin ∧ begin ≤ s'.nextToReport ∧
    block.beginSequence = BitVec.ofNat 16 begin ∧
    ∀ i metric, block.metricBlocks[i]? = some metric →
      Tells now metric (heard.firstArrival ((begin + i : Nat) : Int))

theorem Tracks.metricsAfter (h : s.Tracks heard) (now : Instant) (maxBlocks : Nat) :
    ∃ block s', s.metricsAfter now maxBlocks = some (block, s') ∧
      Reported s now maxBlocks heard block s' := by
  unfold StreamLog.metricsAfter
  by_cases hempty : s.isEmpty = true
  · rw [if_pos hempty]
    refine ⟨_, _, rfl, rfl, h, rfl, ?_, s.nextToReport, le_refl _, le_refl _, rfl, nofun⟩
    rw [pending, if_pos hempty, Nat.min_zero]
    rfl
  · have hpending : s.pending = s.highestReceived + 1 - s.nextToReport := if_neg hempty
    obtain ⟨s₁, htrim, h₁, hnext, hssrc, hcount⟩ :=
      h.trim (h.next_le_highest hempty) maxBlocks
    rw [← hpending] at htrim hcount
    rw [if_neg hempty, htrim, Option.bind_eq_bind, Option.bind_some]
    dsimp only
    by_cases hzero : min maxBlocks s.pending = 0
    · rw [if_pos hzero]
      refine ⟨_, _, rfl, hssrc, h₁, hssrc, hzero.symm, s₁.nextToReport, hnext, le_refl _, rfl, nofun⟩
    · have hstart : Described s₁ now heard s₁.nextToReport s₁.nextToReport s₁ [] :=
        ⟨h₁, rfl, rfl, le_refl _, le_refl _, (Nat.sub_self _).symm, nofun⟩
      obtain ⟨s₂, metricBlocks, hfold, h₂⟩ :=
        hstart.foldlM_reportPacket (s₁.highestReceived + 1 - s₁.nextToReport)
      rw [if_neg hzero, hfold]
      refine ⟨_, _, rfl, hssrc, h₂.tracks, h₂.ssrc_eq.trans hssrc, ?_, s₁.nextToReport, hnext,
        h₂.begin_le, rfl, h₂.tells⟩
      exact h₂.length_eq.trans (by omega)

end StreamLog

end Rtc.Interceptor
