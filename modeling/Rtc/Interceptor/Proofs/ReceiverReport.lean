import Rtc.Interceptor.Report.ReceiverStream
import Rtc.Lib.Runs
import Rtc.Lib.Unwrapped

/-!
# What receiver reports say about loss

`Reception` is the account RFC 3550 asks for. `Tracks` relates a receiver stream to it: since the latest report, the bit
of a number says whether its packet has arrived.
-/

namespace Rtc.Interceptor

open Rtc.WordBits (testBit)
open Rtc.Unwrapped

/-! ## The account of a stream -/

/-- What is known of the packets of a stream, by their true numbers. -/
structure Reception where
  first : Int
  highest : Int
  arrived : Finset Int
  expectedPrior : Int
  receivedPrior : Int

namespace Reception

def start (n : Int) : Reception := ⟨n, n, {n}, 0, 0⟩

def arrive (r : Reception) (n : Int) : Reception :=
  { r with highest := max r.highest n, arrived := insert n r.arrived }

def expected (r : Reception) : Int := r.highest - r.first + 1

def received (r : Reception) : Int := r.arrived.card

def report (r : Reception) : Reception :=
  { r with expectedPrior := r.expected, receivedPrior := r.received }

/-- The cumulative number of packets lost. -/
def lost (r : Reception) : Int := r.expected - r.received

def expectedInterval (r : Reception) : Int := r.expected - r.expectedPrior

def receivedInterval (r : Reception) : Int := r.received - r.receivedPrior

def lostInterval (r : Reception) : Int := r.expectedInterval - r.receivedInterval

/-- The highest number at the latest report. -/
def reported (r : Reception) : Int := r.first - 1 + r.expectedPrior

@[simp] theorem reported_report (r : Reception) : r.report.reported = r.highest := by
  simp only [reported, report, expected]
  omega

theorem expectedInterval_eq (r : Reception) : r.expectedInterval = r.highest - r.reported := by
  simp only [expectedInterval, expected, reported]
  omega

/-- A report block says what the account says. -/
structure ToldBy (r : Reception) (block : Rtcp.ReceptionReport) : Prop where
  lastSequenceNumber : block.lastSequenceNumber = BitVec.ofInt 32 r.highest
  totalLost : block.totalLost.toNat = min 0xFFFFFF r.lost.toNat
  fractionLost : block.fractionLost.toNat = min 255 (256 * r.lostInterval / r.expectedInterval).toNat

/-- The bitmap can tell the packet with number `n`: its interval is not reported yet unless it has arrived before, it is at
    most a bitmap ahead of the highest, and the numbers since the latest report that share a bit agree once it is in. -/
structure Countable (r : Reception) (n : Int) : Prop where
  counted : n ≤ r.reported → n ∈ r.arrived
  step_le : n ≤ r.highest + 8192
  interval_lt : n < r.reported + 65536
  shared : ∀ m ∈ Finset.Ioc r.reported (max r.highest n),
    ∀ m' ∈ insert n (Finset.Ioc r.reported (max r.highest n)), m % 8192 = m' % 8192 →
      (m ∈ insert n r.arrived ↔ m' ∈ insert n r.arrived)

noncomputable instance (r : Reception) (n : Int) : Decidable (r.Countable n) :=
  decidable_of_iff
    ((n ≤ r.reported → n ∈ r.arrived) ∧ n ≤ r.highest + 8192 ∧ n < r.reported + 65536 ∧
      ∀ m ∈ Finset.Ioc r.reported (max r.highest n),
        ∀ m' ∈ insert n (Finset.Ioc r.reported (max r.highest n)), m % 8192 = m' % 8192 →
          (m ∈ insert n r.arrived ↔ m' ∈ insert n r.arrived))
    ⟨fun h => ⟨h.1, h.2.1, h.2.2.1, h.2.2.2⟩, fun h => ⟨h.counted, h.step_le, h.interval_lt, h.shared⟩⟩

theorem Countable.filter_insert {r : Reception} {n : Int} (hc : r.Countable n) :
    (insert n r.arrived).filter (· ≤ r.reported) = r.arrived.filter (· ≤ r.reported) := by
  by_cases hle : n ≤ r.reported
  · rw [Finset.insert_eq_of_mem (hc.counted hle)]
  · rw [Finset.filter_insert, if_neg hle]

end Reception

/-! ## A stream and its account -/

namespace ReceiverStream

variable {s : ReceiverStream} {r : Reception} {n : Int}

/-- The stream holds what the account `r` says: the highest number, that of the latest report, the packets lost up to it,
    and which packets since then have arrived. -/
structure Tracks (s : ReceiverStream) (r : Reception) : Prop where
  length_packets : s.packets.length = 128
  indexMask_eq : s.indexMask = 8191
  lastSeqNum_eq : s.lastSeqNum = BitVec.ofInt 16 r.highest
  seqNumCycles_eq : s.seqNumCycles = BitVec.ofInt 16 (r.highest / 65536)
  lastReportSeqNum_eq : s.lastReportSeqNum = BitVec.ofInt 16 r.reported
  reported_le : r.reported ≤ r.highest
  highest_lt : r.highest < r.reported + 65536
  bits : ∀ m, r.reported < m → m ≤ r.highest →
    (testBit s.packets (slot 8192 m) = true ↔ m ∈ r.arrived)
  le_highest : ∀ m ∈ r.arrived, m ≤ r.highest
  highest_mem : r.highest ∈ r.arrived
  receivedPrior_eq : r.receivedPrior = ((r.arrived.filter (· ≤ r.reported)).card : Int)
  prior_le : r.receivedPrior ≤ r.expectedPrior
  totalLost_eq : s.totalLost.toNat = min 0xFFFFFF (r.expectedPrior - r.receivedPrior).toNat

theorem capacity_eq (hlength : s.packets.length = 128) : s.packets.length * 64 = 2 ^ 13 := by
  rw [hlength]
  rfl

theorem pos_eq (hmask : s.indexMask = 8191) (n : Int) :
    (BitVec.ofInt 16 n).toNat &&& s.indexMask = slot 8192 n := by
  rw [hmask, show 8191 = 2 ^ 13 - 1 from rfl, Nat.and_two_pow_sub_one_eq_mod]
  exact toNat_ofInt_mod (by decide) n

theorem testBit_setReceived (hlength : s.packets.length = 128) (hmask : s.indexMask = 8191) (n m : Int) :
    testBit (s.setReceived (BitVec.ofInt 16 n)).packets (slot 8192 m) = true ↔
      testBit s.packets (slot 8192 m) = true ∨ m % 8192 = n % 8192 := by
  have hlt : slot 8192 n < 8192 := slot_lt (by decide) n
  rw [setReceived]
  dsimp only
  rw [pos_eq hmask, WordBits.testBit_set_or (by omega), Bool.or_eq_true, decide_eq_true_eq,
    slot_eq_slot_iff (by decide)]
  rfl

@[simp] theorem length_setReceived (s : ReceiverStream) (seq : Seq) :
    (s.setReceived seq).packets.length = s.packets.length := List.length_set

/-- Clearing the numbers skipped on the way from `a` to `b` clears every bit that one of them has. -/
theorem testBit_clear_skipped {packets : List (BitVec 64)} (hlength : packets.length = 128)
    {a b : Int} (hab : a < b) (hnear : b - a < 32768) (m : Int) :
    testBit (Bitmap.clear packets (BitVec.ofInt 16 a + 1#16).toNat
        (BitVec.ofInt 16 b - BitVec.ofInt 16 a - 1#16).toNat) (slot 8192 m) = true ↔
      testBit packets (slot 8192 m) = true ∧ ∀ m', a < m' → m' < b → m % 8192 ≠ m' % 8192 := by
  have hcap : packets.length * 64 = 2 ^ 13 := by
    rw [hlength]
    rfl
  have hlen : ((BitVec.ofInt 16 b - BitVec.ofInt 16 a - 1#16).toNat : Int) = b - a - 1 := by
    rw [ofInt_sub_ofInt, ofInt_sub_one]
    exact toNat_ofInt_of_lt (by omega) (by omega)
  have hslot : ∀ i : Nat, ((BitVec.ofInt 16 (a + 1)).toNat + i) % 2 ^ 13 = slot 8192 (a + 1 + i) :=
    fun i => toNat_ofInt_add_mod (by decide) _ i
  rw [Bitmap.testBit_clear hcap _ _ (by rw [hcap]; exact slot_lt (by decide) m), ofInt_add_one,
    Bool.and_eq_true, decide_eq_true_eq, hcap]
  simp only [hslot, ne_eq, slot_eq_slot_iff (show 0 < 8192 by decide)]
  apply and_congr_right
  intro _
  constructor
  · intro hall m' ham hmb heq
    have hi : ((m' - a - 1).toNat : Int) = m' - a - 1 := Int.toNat_of_nonneg (by omega)
    apply hall (m' - a - 1).toNat (by omega)
    rw [hi, show a + 1 + (m' - a - 1) = m' by omega]
    exact heq.symm
  · intro hnone i hi heq
    exact hnone (a + 1 + i) (by omega) (by omega) heq.symm

/-! ## A packet -/

theorem diff_iff (hnear : |n - r.highest| ≤ 32767) :
    (0#16 < BitVec.ofInt 16 n - BitVec.ofInt 16 r.highest ∧
      BitVec.ofInt 16 n - BitVec.ofInt 16 r.highest < 1#16 <<< 15) ↔ r.highest < n := by
  rw [ofInt_sub_ofInt, BitVec.lt_def, BitVec.lt_def, BitVec.toNat_ofInt]
  have habs := abs_le.mp hnear
  have hhalf : (1#16 <<< 15).toNat = 32768 := by decide
  rw [hhalf, BitVec.toNat_ofNat]
  omega

theorem cycles_after {a b : Int} (hab : a < b) (hnear : b - a ≤ 32767) :
    (if BitVec.ofInt 16 b < BitVec.ofInt 16 a then BitVec.ofInt 16 (a / 65536) + 1#16
      else BitVec.ofInt 16 (a / 65536)) = BitVec.ofInt 16 (b / 65536) := by
  have hwrap : BitVec.ofInt 16 b < BitVec.ofInt 16 a ↔ b / 65536 = a / 65536 + 1 := by
    rw [BitVec.lt_def, BitVec.toNat_ofInt, BitVec.toNat_ofInt]
    omega
  split
  case isTrue hlt => rw [ofInt_add_one, hwrap.mp hlt]
  case isFalse hge =>
    have hne : ¬ b / 65536 = a / 65536 + 1 := fun heq => hge (hwrap.mpr heq)
    congr 1
    omega

theorem Tracks.bits_ahead (h : Tracks s r) (hlt : r.highest < n) (hnear : n - r.highest < 32768)
    (hc : r.Countable n) {m : Int} (hlow : r.reported < m) (hhigh : m ≤ n) :
    testBit (Bitmap.clear (s.setReceived (BitVec.ofInt 16 n)).packets
        (BitVec.ofInt 16 r.highest + 1#16).toNat
        (BitVec.ofInt 16 n - BitVec.ofInt 16 r.highest - 1#16).toNat) (slot 8192 m) = true ↔
      m ∈ insert n r.arrived := by
  have hstep := hc.step_le
  have hmem : ∀ m', r.reported < m' → m' ≤ n →
      m' ∈ Finset.Ioc r.reported (max r.highest n) := by
    intro m' hlow' hhigh'
    rw [Finset.mem_Ioc, max_eq_right hlt.le]
    exact ⟨hlow', hhigh'⟩
  have hnew : ∀ m', r.highest < m' → m' < n → m' ∉ insert n r.arrived := by
    intro m' hgt hlt' hin
    rcases Finset.mem_insert.mp hin with rfl | hin
    · exact absurd hlt' (lt_irrefl m')
    · exact absurd (h.le_highest m' hin) (not_le.mpr hgt)
  rw [testBit_clear_skipped (by rw [length_setReceived]; exact h.length_packets) hlt hnear,
    testBit_setReceived h.length_packets h.indexMask_eq]
  constructor
  · rintro ⟨hbit, hskip⟩
    rcases hbit with hbit | heq
    · by_cases hle : m ≤ r.highest
      · exact Finset.mem_insert_of_mem ((h.bits m hlow hle).mp hbit)
      · -- a number brought up by the packet is skipped unless it is the packet's own
        by_cases hmn : m = n
        · rw [hmn]
          exact Finset.mem_insert_self n _
        · exact absurd rfl (hskip m (by omega) (by omega))
    · exact (hc.shared m (hmem m hlow hhigh) n (Finset.mem_insert_self n _) heq).mpr
        (Finset.mem_insert_self n _)
  · intro hin
    constructor
    · rcases Finset.mem_insert.mp hin with rfl | hin
      · exact Or.inr rfl
      · exact Or.inl ((h.bits m hlow (h.le_highest m hin)).mpr hin)
    · intro m' hgt hlt' heq
      have hm' := hmem m' (lt_of_le_of_lt h.reported_le hgt) hlt'.le
      exact hnew m' hgt hlt' ((hc.shared m (hmem m hlow hhigh) m'
        (Finset.mem_insert_of_mem hm') heq).mp hin)

theorem Tracks.bits_behind (h : Tracks s r) (hle : n ≤ r.highest) (hc : r.Countable n) {m : Int}
    (hlow : r.reported < m) (hhigh : m ≤ r.highest) :
    testBit (s.setReceived (BitVec.ofInt 16 n)).packets (slot 8192 m) = true ↔
      m ∈ insert n r.arrived := by
  have hmem : m ∈ Finset.Ioc r.reported (max r.highest n) := by
    rw [Finset.mem_Ioc, max_eq_left hle]
    exact ⟨hlow, hhigh⟩
  rw [testBit_setReceived h.length_packets h.indexMask_eq, h.bits m hlow hhigh, Finset.mem_insert]
  constructor
  · rintro (hin | heq)
    · exact Or.inr hin
    · exact Finset.mem_insert.mp ((hc.shared m hmem n (Finset.mem_insert_self n _) heq).mpr
        (Finset.mem_insert_self n _))
  · rintro (rfl | hin)
    · exact Or.inr rfl
    · exact Or.inl hin

/-- What a packet changes in the account, given the stream's numbers and bits after it. -/
theorem Tracks.arrive_of (h : Tracks s r) (hc : r.Countable n) {s' : ReceiverStream}
    (hlength : s'.packets.length = s.packets.length) (hmask : s'.indexMask = s.indexMask)
    (hlast : s'.lastSeqNum = BitVec.ofInt 16 (max r.highest n))
    (hcycles : s'.seqNumCycles = BitVec.ofInt 16 (max r.highest n / 65536))
    (hreport : s'.lastReportSeqNum = s.lastReportSeqNum) (hlost : s'.totalLost = s.totalLost)
    (hbits : ∀ m, r.reported < m → m ≤ max r.highest n →
    (testBit s'.packets (slot 8192 m) = true ↔ m ∈ insert n r.arrived)) :
    Tracks s' (r.arrive n) where
  length_packets := hlength.trans h.length_packets
  indexMask_eq := hmask.trans h.indexMask_eq
  lastSeqNum_eq := hlast
  seqNumCycles_eq := hcycles
  lastReportSeqNum_eq := hreport.trans h.lastReportSeqNum_eq
  reported_le := h.reported_le.trans (le_max_left _ _)
  highest_lt := max_lt h.highest_lt hc.interval_lt
  bits := hbits
  le_highest := by
    intro m hin
    rcases Finset.mem_insert.mp hin with rfl | hin
    · exact le_max_right _ _
    · exact (h.le_highest m hin).trans (le_max_left _ _)
  highest_mem := by
    show max r.highest n ∈ insert n r.arrived
    rcases max_choice r.highest n with heq | heq
    · rw [heq]
      exact Finset.mem_insert_of_mem h.highest_mem
    · rw [heq]
      exact Finset.mem_insert_self n _
  receivedPrior_eq := by
    have hcard := congrArg (fun t : Finset Int => (t.card : Int)) hc.filter_insert
    exact h.receivedPrior_eq.trans hcard.symm
  prior_le := h.prior_le
  totalLost_eq := (congrArg BitVec.toNat hlost).trans h.totalLost_eq

theorem Tracks.arrive (h : Tracks s r) (hnear : |n - r.highest| ≤ 32767) (hc : r.Countable n) :
    Tracks ((s.setReceived (BitVec.ofInt 16 n)).advance (BitVec.ofInt 16 n)) (r.arrive n) := by
  have hdiff := diff_iff hnear
  have habs := abs_le.mp hnear
  have hlast : (s.setReceived (BitVec.ofInt 16 n)).lastSeqNum = BitVec.ofInt 16 r.highest :=
    h.lastSeqNum_eq
  unfold advance
  rw [hlast]
  by_cases hlt : r.highest < n
  · rw [if_pos (hdiff.mpr hlt)]
    have hmax : max r.highest n = n := max_eq_right hlt.le
    apply h.arrive_of hc
    case hlength => exact (Bitmap.length_clear _ _ _).trans (length_setReceived s _)
    case hmask => rfl
    case hlast => rw [hmax]
    case hcycles =>
      show (if _ then s.seqNumCycles + 1#16 else s.seqNumCycles) = _
      rw [h.seqNumCycles_eq, hmax]
      exact cycles_after hlt (by omega)
    case hreport => rfl
    case hlost => rfl
    case hbits =>
      intro m hlow hhigh
      exact h.bits_ahead hlt (by omega) hc hlow (hhigh.trans hmax.le)
  · rw [if_neg fun hd => hlt (hdiff.mp hd)]
    have hmax : max r.highest n = r.highest := max_eq_left (not_lt.mp hlt)
    apply h.arrive_of hc
    case hlength => exact length_setReceived s _
    case hmask => rfl
    case hlast => rw [hmax, hlast]
    case hcycles =>
      rw [hmax]
      exact h.seqNumCycles_eq
    case hreport => rfl
    case hlost => rfl
    case hbits =>
      intro m hlow hhigh
      exact h.bits_behind (not_lt.mp hlt) hc hlow (hhigh.trans hmax.le)

/-! ## A report -/

/-- Among the numbers since the latest report, those that have not arrived. -/
noncomputable def missing (r : Reception) : Finset Int :=
  (Finset.Ioc r.reported r.highest).filter (· ∉ r.arrived)

theorem Tracks.receivedInterval_eq (h : Tracks s r) :
    r.receivedInterval = (((Finset.Ioc r.reported r.highest).filter (· ∈ r.arrived)).card : Int) := by
  have hsplit := Finset.card_filter_add_card_filter_not (s := r.arrived) (· ≤ r.reported)
  have hsame : r.arrived.filter (¬ · ≤ r.reported) =
      (Finset.Ioc r.reported r.highest).filter (· ∈ r.arrived) := by
    ext m
    simp only [Finset.mem_filter, Finset.mem_Ioc, not_le]
    constructor
    · rintro ⟨hin, hlow⟩
      exact ⟨⟨hlow, h.le_highest m hin⟩, hin⟩
    · rintro ⟨⟨hlow, -⟩, hin⟩
      exact ⟨hin, hlow⟩
  rw [Reception.receivedInterval, Reception.received, h.receivedPrior_eq, ← hsame, ← hsplit]
  push_cast
  omega

theorem Tracks.lostInterval_eq (h : Tracks s r) : r.lostInterval = ((missing r).card : Int) := by
  have hsplit := Finset.card_filter_add_card_filter_not
    (s := Finset.Ioc r.reported r.highest) (· ∈ r.arrived)
  have hle := h.reported_le
  rw [Int.card_Ioc] at hsplit
  rw [Reception.lostInterval, Reception.expectedInterval_eq, h.receivedInterval_eq, missing]
  omega

theorem countP_range_eq_card (p : Int → Bool) (a : Int) (k : Nat) :
    (List.range k).countP (fun i : Nat => p (a + 1 + i)) =
      ((Finset.Ioc a (a + k)).filter (p · = true)).card := by
  induction k with
  | zero => simp
  | succ k ih =>
    have hioc : Finset.Ioc a (a + (k + 1 : Nat)) = insert (a + 1 + k) (Finset.Ioc a (a + k)) := by
      ext m
      simp only [Finset.mem_insert, Finset.mem_Ioc]
      omega
    have hnot : a + 1 + k ∉ (Finset.Ioc a (a + k)).filter (p · = true) := by
      simp only [Finset.mem_filter, Finset.mem_Ioc]
      omega
    rw [List.range_succ, List.countP_append, ih, hioc, Finset.filter_insert]
    by_cases hp : p (a + 1 + k) = true
    · rw [if_pos hp, Finset.card_insert_of_notMem hnot, List.countP_singleton, if_pos hp]
    · rw [if_neg hp, List.countP_singleton, if_neg hp, Nat.add_zero]

theorem Tracks.countZeros_eq (h : Tracks s r) (hlt : r.reported < r.highest) :
    Bitmap.countZeros s.packets (s.lastReportSeqNum + 1#16).toNat
      (s.totalSinceReport - 1#16).toNat = (missing r).card := by
  have hhighest := h.highest_lt
  have hlen : ((s.totalSinceReport - 1#16).toNat : Int) = r.highest - r.reported - 1 := by
    rw [totalSinceReport, h.lastSeqNum_eq, h.lastReportSeqNum_eq, ofInt_sub_ofInt, ofInt_sub_one]
    exact toNat_ofInt_of_lt (by omega) (by omega)
  have hslot : ∀ i : Nat,
      ((BitVec.ofInt 16 (r.reported + 1)).toNat + i) % 2 ^ 13 = slot 8192 (r.reported + 1 + i) :=
    fun i => toNat_ofInt_add_mod (by decide) _ i
  rw [Bitmap.countZeros_eq_countP (capacity_eq h.length_packets), capacity_eq h.length_packets,
    h.lastReportSeqNum_eq, ofInt_add_one]
  simp only [hslot]
  rw [countP_range_eq_card (fun m => !testBit s.packets (slot 8192 m)), hlen]
  congr 1
  ext m
  simp only [missing, Finset.mem_filter, Finset.mem_Ioc, Bool.not_eq_true', ← Bool.not_eq_true]
  constructor
  · rintro ⟨⟨hlow, hhigh⟩, hclear⟩
    exact ⟨⟨hlow, by omega⟩, fun hin => hclear ((h.bits m hlow (by omega)).mpr hin)⟩
  · rintro ⟨⟨hlow, hhigh⟩, hout⟩
    -- the highest number itself has arrived
    have hne : m ≠ r.highest := fun heq => hout (heq ▸ h.highest_mem)
    exact ⟨⟨hlow, by omega⟩, fun hset => hout ((h.bits m hlow hhigh).mp hset)⟩

theorem Tracks.toNat_totalSinceReport (h : Tracks s r) :
    (s.totalSinceReport.toNat : Int) = r.expectedInterval := by
  have hle := h.reported_le
  have hlt := h.highest_lt
  rw [totalSinceReport, h.lastSeqNum_eq, h.lastReportSeqNum_eq, ofInt_sub_ofInt,
    r.expectedInterval_eq]
  exact toNat_ofInt_of_lt (by omega) (by omega)

theorem Tracks.card_missing_le (h : Tracks s r) : (missing r).card ≤ 65535 := by
  have hle : (missing r).card ≤ _ := Finset.card_filter_le _ _
  have hlt := h.highest_lt
  rw [Int.card_Ioc] at hle
  omega

theorem Tracks.toNat_totalLostSinceReport (h : Tracks s r) : s.totalLostSinceReport.toNat = (missing r).card := by
  have htotal := h.toNat_totalSinceReport
  have hle := h.card_missing_le
  have hreported := h.reported_le
  rw [r.expectedInterval_eq] at htotal
  rw [totalLostSinceReport]
  split
  case isTrue hzero =>
    rw [hzero, BitVec.toNat_ofNat] at htotal
    have hempty : missing r = ∅ := by
      rw [missing, show r.highest = r.reported by omega, Finset.Ioc_self, Finset.filter_empty]
    rw [hempty]
    rfl
  case isFalse hne =>
    have hpos : r.reported ≠ r.highest := by
      intro heq
      apply hne
      apply BitVec.eq_of_toNat_eq
      rw [BitVec.toNat_ofNat]
      omega
    rw [h.countZeros_eq (by omega), BitVec.toNat_ofNat, Nat.mod_eq_of_lt (by omega)]

theorem toNat_clamp24 (x : BitVec 32) : (clamp24 x).toNat = min 0xFFFFFF x.toNat := by
  rw [clamp24]
  split
  case isTrue hlt =>
    rw [BitVec.lt_def] at hlt
    exact (min_eq_left hlt.le).symm
  case isFalse hge =>
    rw [BitVec.lt_def, not_lt] at hge
    exact (min_eq_right hge).symm

theorem Tracks.toNat_totalLost (h : Tracks s r) :
    (clamp24 (s.totalLost + s.totalLostSinceReport)).toNat = min 0xFFFFFF r.lost.toNat := by
  have hlost : r.lost = r.expectedPrior - r.receivedPrior + r.lostInterval := by
    simp only [Reception.lost, Reception.lostInterval, Reception.expectedInterval,
      Reception.receivedInterval]
    omega
  have hprior := h.prior_le
  have htotal := h.totalLost_eq
  have hle := h.card_missing_le
  rw [toNat_clamp24, BitVec.toNat_add, h.toNat_totalLostSinceReport, hlost, h.lostInterval_eq]
  omega

theorem toNat_saturate_div (a b : Nat) : (saturate 8 ((a : ℚ) / b)).toNat = min 255 (a / b) := by
  have hfloor : ((a : ℚ) / b).floor = ((a / b : Nat) : Int) := by
    have hdiv := Rat.floor_intCast_div_natCast a b
    rw [Int.cast_natCast] at hdiv
    exact hdiv
  rw [saturate, hfloor, Int.toNat_natCast, BitVec.toNat_ofNat]
  exact Nat.mod_eq_of_lt (by omega)

theorem Tracks.toNat_fractionLost (h : Tracks s r) :
    s.fractionLost.toNat = min 255 (256 * r.lostInterval / r.expectedInterval).toNat := by
  have hle := h.card_missing_le
  have hlost : (clamp24 s.totalLostSinceReport * 256#32).toNat = 256 * (missing r).card := by
    rw [BitVec.toNat_mul, toNat_clamp24, h.toNat_totalLostSinceReport, BitVec.toNat_ofNat]
    omega
  rw [← h.toNat_totalSinceReport, h.lostInterval_eq, fractionLost, hlost]
  split
  case isTrue =>
    rw [toNat_saturate_div]
    congr 1
  case isFalse hzero =>
    rw [BitVec.lt_def, BitVec.toNat_ofNat] at hzero
    rw [show s.totalSinceReport.toNat = 0 by omega]
    simp

theorem extended_eq (n : Int) :
    (BitVec.ofInt 16 (n / 65536)).setWidth 32 <<< 16 |||
      ((BitVec.ofInt 16 n).setWidth 32 &&& 0xFFFF#32) = BitVec.ofInt 32 n := by
  apply BitVec.eq_of_toNat_eq
  have hlow : ((BitVec.ofInt 16 n).setWidth 32 &&& 0xFFFF#32).toNat = (n % 65536).toNat := by
    rw [BitVec.toNat_and, BitVec.toNat_setWidth, BitVec.toNat_ofInt, BitVec.toNat_ofNat,
      show 65535 % 2 ^ 32 = 2 ^ 16 - 1 from rfl, Nat.and_two_pow_sub_one_eq_mod]
    omega
  rw [BitVec.toNat_or, hlow, BitVec.toNat_shiftLeft, BitVec.toNat_setWidth, BitVec.toNat_ofInt,
    BitVec.toNat_ofInt, Nat.shiftLeft_eq, Nat.mod_eq_of_lt, ← Nat.shiftLeft_eq,
    ← Nat.shiftLeft_add_eq_or_of_lt, Nat.shiftLeft_eq] 
  all_goals omega

theorem Tracks.toldBy (h : Tracks s r) {now : Instant} {block : Rtcp.ReceptionReport}
    (hblock : block ∈ (s.generateReport now).1.reports) : r.ToldBy block := by
  rw [List.mem_singleton.mp hblock]
  constructor
  case lastSequenceNumber =>
    show s.seqNumCycles.setWidth 32 <<< 16 ||| (s.lastSeqNum.setWidth 32 &&& 0xFFFF#32) = _
    rw [h.seqNumCycles_eq, h.lastSeqNum_eq]
    exact extended_eq r.highest
  case totalLost => exact h.toNat_totalLost
  case fractionLost => exact h.toNat_fractionLost

theorem Tracks.report (h : Tracks s r) (now : Instant) : Tracks (s.generateReport now).2 r.report where
  length_packets := h.length_packets
  indexMask_eq := h.indexMask_eq
  lastSeqNum_eq := h.lastSeqNum_eq
  seqNumCycles_eq := h.seqNumCycles_eq
  lastReportSeqNum_eq := by
    rw [Reception.reported_report]
    exact h.lastSeqNum_eq
  reported_le := le_of_eq r.reported_report
  highest_lt := by
    rw [Reception.reported_report]
    exact Int.lt_add_of_pos_right _ (by decide)
  bits := by
    intro m hlow hhigh
    rw [Reception.reported_report] at hlow
    exact absurd hhigh (not_le.mpr hlow)
  le_highest := h.le_highest
  highest_mem := h.highest_mem
  receivedPrior_eq := by
    rw [Reception.reported_report]
    have hall : r.arrived.filter (· ≤ r.highest) = r.arrived := Finset.filter_true_of_mem h.le_highest
    exact congrArg (fun t : Finset Int => (t.card : Int)) hall.symm
  prior_le := by
    have hprior := h.prior_le
    have hlost := h.lostInterval_eq
    simp only [Reception.lostInterval, Reception.expectedInterval, Reception.receivedInterval] at hlost
    show r.received ≤ r.expected
    omega
  totalLost_eq := h.toNat_totalLost

theorem tracks_first (hlength : s.packets.length = 128) (hmask : s.indexMask = 8191)
    (hcycles : s.seqNumCycles = 0#16) (hlost : s.totalLost = 0#32) (hlow : 0 ≤ n) (hhigh : n < 65536) :
    Tracks { s.setReceived (BitVec.ofInt 16 n) with
      lastSeqNum := BitVec.ofInt 16 n, lastReportSeqNum := BitVec.ofInt 16 n - 1#16 }
      (.start n) := by
  have hreported : (Reception.start n).reported = n - 1 := Int.add_zero _
  constructor
  case length_packets => exact (length_setReceived s _).trans hlength
  case indexMask_eq => exact hmask
  case lastSeqNum_eq => rfl
  case seqNumCycles_eq =>
    show s.seqNumCycles = BitVec.ofInt 16 (n / 65536)
    rw [hcycles, Int.ediv_eq_zero_of_lt hlow hhigh]
    rfl
  case lastReportSeqNum_eq =>
    rw [hreported]
    exact ofInt_sub_one n
  case reported_le =>
    rw [hreported]
    exact Int.sub_le_self n (by decide)
  case highest_lt =>
    rw [hreported]
    show n < _
    omega
  case bits =>
    intro m hgt hle
    rw [hreported] at hgt
    have heq : m = n := le_antisymm hle (by omega)
    rw [heq]
    refine iff_of_true ?_ (Finset.mem_singleton_self n)
    exact (testBit_setReceived hlength hmask n n).mpr (Or.inr rfl)
  case le_highest => exact fun m hm => le_of_eq (Finset.mem_singleton.mp hm)
  case highest_mem => exact Finset.mem_singleton_self n
  case receivedPrior_eq =>
    have hnone : ({n} : Finset Int).filter (· ≤ n - 1) = ∅ := by
      rw [Finset.filter_singleton, if_neg (by omega)]
    rw [hreported]
    exact congrArg (fun t : Finset Int => (t.card : Int)) hnone.symm
  case prior_le => exact le_refl 0
  case totalLost_eq =>
    show s.totalLost.toNat = _
    rw [hlost]
    rfl

end ReceiverStream

/-! ## Runs -/

/-- What a receiver stream meets: a packet, with its true number, a sender report, or the time for a
    report of its own. -/
inductive ReceptionEvent where
  | rtp (now : Instant) (pkt : Rtp.Packet) (n : Int)
  | senderReport (now : Instant) (sr : Rtcp.SenderReport)
  | report (now : Instant)

/-- A receiver stream beside the account of its packets, once there is one. -/
structure ReceptionRun where
  stream : ReceiverStream
  reception : Option Reception

namespace ReceptionRun

def start (ssrc receiverSsrc : Ssrc) (clockRate : BitVec 32) : ReceptionRun where
  stream := .new ssrc receiverSsrc clockRate
  reception := none

def step (s : ReceptionRun) : ReceptionEvent → ReceptionRun
  | .rtp now pkt n => ⟨s.stream.processRtp now pkt, some (s.reception.elim (.start n) (·.arrive n))⟩
  | .senderReport now sr => { s with stream := s.stream.processSenderReport now sr }
  | .report now => ⟨(s.stream.generateReport now).2, s.reception.map Reception.report⟩

/-- The packet shows its true number, which is in the first cycle for the first packet and within
    `2 ^ 15 - 1` of the highest for every other. -/
def InRange (s : ReceptionRun) : ReceptionEvent → Prop
  | .rtp _ pkt n =>
    pkt.header.sequenceNumber = BitVec.ofInt 16 n ∧
      match s.reception with
      | none => 0 ≤ n ∧ n < 65536
      | some r => |n - r.highest| ≤ 32767
  | _ => True

/-- Every packet after the first is one the bitmap can tell. -/
def Countable (s : ReceptionRun) : ReceptionEvent → Prop
  | .rtp _ _ n => ∀ r ∈ s.reception, r.Countable n
  | _ => True

instance (s : ReceptionRun) : (e : ReceptionEvent) → Decidable (s.InRange e)
  | .rtp _ _ _ =>
    match s with
    | ⟨_, none⟩ => inferInstanceAs (Decidable (_ ∧ _ ∧ _))
    | ⟨_, some _⟩ => inferInstanceAs (Decidable (_ ∧ _))
  | .senderReport _ _ => inferInstanceAs (Decidable True)
  | .report _ => inferInstanceAs (Decidable True)

noncomputable instance (s : ReceptionRun) : (e : ReceptionEvent) → Decidable (s.Countable e)
  | .rtp _ _ n => inferInstanceAs (Decidable (∀ r ∈ s.reception, r.Countable n))
  | .senderReport _ _ => inferInstanceAs (Decidable True)
  | .report _ => inferInstanceAs (Decidable True)

/-- A report made now says what the account says, and before the first packet that nothing is lost. -/
def ReportsTruth (s : ReceptionRun) (now : Instant) : Prop :=
  ∀ block ∈ (s.stream.generateReport now).1.reports,
    match s.reception with
    | none => block.totalLost = 0#32 ∧ block.fractionLost = 0#8
    | some r => r.ToldBy block

structure Idle (s : ReceiverStream) : Prop where
  length_packets : s.packets.length = 128
  indexMask_eq : s.indexMask = 8191
  seqNumCycles_eq : s.seqNumCycles = 0#16
  totalLost_eq : s.totalLost = 0#32
  sameSeqNum : s.lastSeqNum = s.lastReportSeqNum
  noTime : s.lastRtpTimeTime = none

def Consistent (s : ReceptionRun) : Prop :=
  match s.reception with
  | none => Idle s.stream
  | some r => s.stream.Tracks r ∧ s.stream.lastRtpTimeTime.isSome = true

theorem Idle.totalLostSinceReport {s : ReceiverStream} (h : Idle s) : s.totalLostSinceReport = 0#32 := by
  rw [ReceiverStream.totalLostSinceReport, ReceiverStream.totalSinceReport, h.sameSeqNum,
    BitVec.sub_self, if_pos rfl]

theorem Idle.report {s : ReceiverStream} (h : Idle s) (now : Instant) :
    Idle (s.generateReport now).2 where
  length_packets := h.length_packets
  indexMask_eq := h.indexMask_eq
  seqNumCycles_eq := h.seqNumCycles_eq
  totalLost_eq := by
    show ReceiverStream.clamp24 (s.totalLost + s.totalLostSinceReport) = 0#32
    rw [h.totalLost_eq, h.totalLostSinceReport]
    rfl
  sameSeqNum := rfl
  noTime := h.noTime

theorem Consistent.step {s : ReceptionRun} (h : s.Consistent) {e : ReceptionEvent}
    (hin : s.InRange e) (hok : s.Countable e) : (s.step e).Consistent := by
  obtain ⟨stream, reception⟩ := s
  cases reception with
  | none =>
    cases e with
    | rtp now pkt n =>
      obtain ⟨hseq, hlow, hhigh⟩ := hin
      refine ⟨?_, rfl⟩
      show (ReceiverStream.processRtp stream now pkt).Tracks _
      unfold ReceiverStream.processRtp
      rw [show stream.lastRtpTimeTime = none from h.noTime, hseq]
      exact { ReceiverStream.tracks_first h.length_packets h.indexMask_eq h.seqNumCycles_eq
        h.totalLost_eq hlow hhigh with }
    | senderReport now sr => exact { h with }
    | report now => exact Idle.report h now
  | some r =>
    cases e with
    | rtp now pkt n =>
      obtain ⟨hseq, hnear⟩ := hin
      obtain ⟨last, hlast⟩ := Option.isSome_iff_exists.mp h.2
      refine ⟨?_, rfl⟩
      show (ReceiverStream.processRtp stream now pkt).Tracks _
      unfold ReceiverStream.processRtp
      rw [show stream.lastRtpTimeTime = some last from hlast, hseq]
      exact { h.1.arrive hnear (hok r rfl) with }
    | senderReport now sr => exact ⟨{ h.1 with }, h.2⟩
    | report now => exact ⟨h.1.report now, h.2⟩

theorem Consistent.reportsTruth {s : ReceptionRun} (h : s.Consistent) (now : Instant) : s.ReportsTruth now := by
  obtain ⟨stream, reception⟩ := s
  intro block hblock
  cases reception with
  | none =>
    have hidle : Idle stream := h
    rw [List.mem_singleton.mp hblock]
    constructor
    · exact (hidle.report now).totalLost_eq
    · show stream.fractionLost = 0#8
      rw [ReceiverStream.fractionLost, ReceiverStream.totalSinceReport, hidle.sameSeqNum,
        BitVec.sub_self, if_neg (by decide)]
  | some r => exact h.1.toldBy hblock

/-- In every run in which the bitmap can tell each packet, every report tells the truth. -/
theorem reportsTruth_run (ssrc receiverSsrc : Ssrc) (clockRate : BitVec 32)
    {events : List ReceptionEvent}
    (hin : Runs.Meets step InRange (start ssrc receiverSsrc clockRate) events)
    (hok : Runs.Meets step Countable (start ssrc receiverSsrc clockRate) events) (now : Instant) :
    (Runs.run step (start ssrc receiverSsrc clockRate) events).ReportsTruth now := by
  have hstart : (start ssrc receiverSsrc clockRate).Consistent :=
    ⟨List.length_replicate, rfl, rfl, rfl, rfl, rfl⟩
  have hrun := Runs.inv_run (I := Consistent) step
    (fun _ _ h hstep => Consistent.step h hstep.1 hstep.2) hstart (hin.and hok)
  exact hrun.reportsTruth now

def numbered (n : Int) : Rtp.Packet where
  header :=
    { version := 2#8, padding := false, extension := false, marker := false, payloadType := 96#8
      sequenceNumber := BitVec.ofInt 16 n, timestamp := 0#32, ssrc := 1#32, csrc := []
      extensionProfile := 0#16, extensions := [], extensionsPadding := 0 }
  payload := []

def arrival (n : Int) : ReceptionEvent := .rtp 0 (numbered n) n

/-- A packet is lost across the wrap, a reordered one is not. -/
theorem reportsTruth_across_wrap :
    (Runs.run step (start 1#32 2#32 90000#32)
      [arrival 65534, arrival 65537, arrival 65536, .report 0, arrival 65538]).ReportsTruth 0 :=
  reportsTruth_run 1#32 2#32 90000#32 (by decide +kernel) (by decide +kernel) 0

/-- A jump of more than the bitmap clears the bit of the packet that made it, which is then counted as
    lost. -/
theorem jump_loses_own_packet :
    let events := [arrival 0, arrival 10000, arrival 10001]
    Runs.Meets step InRange (start 1#32 2#32 90000#32) events ∧
      ¬ (Runs.run step (start 1#32 2#32 90000#32) events).ReportsTruth 0 := by
  refine ⟨by decide +kernel, fun htruth => ?_⟩
  have htotal := (htruth _ (List.mem_singleton_self _)).totalLost
  revert htotal
  decide +kernel

end ReceptionRun

end Rtc.Interceptor
