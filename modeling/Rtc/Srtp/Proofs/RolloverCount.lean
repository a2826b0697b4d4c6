import Rtc.Srtp.SsrcState

/-!
# The rollover-counter estimate

The guess of `next_rollover_count` for packets with known 48-bit indices. It is right for every packet less than half
the sequence space away from the stored index, which is the highest so far only while the packets arrive in order.
-/

namespace Rtc.Srtp.SrtpSsrcState

variable {s : SrtpSsrcState} {i m : Nat} {roc : BitVec 32} {seq : BitVec 16} {a : Nat}

/-- The sequence number of the packet with index `i`. -/
def seqOf (i : Nat) : BitVec 16 := BitVec.ofNat 16 i

@[simp] theorem toNat_seqOf (i : Nat) : (seqOf i).toNat = i % 2 ^ 16 := BitVec.toNat_ofNat i 16

/-- The state after an authentic packet with sequence number `seq`
    (`context/srtp.rs:34`, `context/srtp.rs:46`). -/
def receive (s : SrtpSsrcState) (seq : BitVec 16) : SrtpSsrcState :=
  s.updateRolloverCount seq (s.nextRolloverCount seq).2.1

section

variable (hproc : s.rolloverHasProcessed = true)
include hproc

/-- A packet less than half the sequence space away from the stored index is placed exactly. -/
theorem guess_of_near (hs : s.index < 2 ^ 48)
    (hi : i < 2 ^ 48) (hlow : s.index < i + 2 ^ 15) (hhigh : i < s.index + 2 ^ 15) :
    s.guess (seqOf i) = (BitVec.ofNat 32 (i / 2 ^ 16), (i : Int) - s.index) := by
  have hmedian : seqNumMedian = 32768 := rfl
  unfold guess localSeq localRoc
  rw [if_pos hproc, toNat_seqOf, hmedian]
  have hdown : s.index / 2 ^ 16 = i / 2 ^ 16 + 1 →
      BitVec.ofNat 32 (s.index / 2 ^ 16) - 1#32 = BitVec.ofNat 32 (i / 2 ^ 16) := by
    intro heq
    rw [heq]
    bv_omega
  have hup : s.index / 2 ^ 16 + 1 = i / 2 ^ 16 →
      BitVec.ofNat 32 (s.index / 2 ^ 16) + 1#32 = BitVec.ofNat 32 (i / 2 ^ 16) := by
    intro heq
    rw [← heq]
    bv_omega
  have hsame : s.index / 2 ^ 16 = i / 2 ^ 16 →
      BitVec.ofNat 32 (s.index / 2 ^ 16) = BitVec.ofNat 32 (i / 2 ^ 16) := fun heq => by rw [heq]
  dsimp only
  by_cases hmed : 32768 < s.index
  · rw [if_pos hmed]
    by_cases hseq : s.index % 2 ^ 16 < 32768
    · rw [if_pos hseq]
      by_cases hback : ((32768 : Nat) : Int) < ((i % 2 ^ 16 : Nat) : Int) - (s.index % 2 ^ 16 : Nat)
      · rw [if_pos hback, Prod.mk.injEq]
        exact ⟨hdown (by omega), by omega⟩
      · rw [if_neg hback, Prod.mk.injEq]
        exact ⟨hsame (by omega), by omega⟩
    · rw [if_neg hseq]
      by_cases hwrap : i % 2 ^ 16 < s.index % 2 ^ 16 - 32768
      · rw [if_pos hwrap, Prod.mk.injEq]
        exact ⟨hup (by omega), by omega⟩
      · rw [if_neg hwrap, Prod.mk.injEq]
        exact ⟨hsame (by omega), by omega⟩
  · -- close to index zero no wrap is considered, and none is possible
    rw [if_neg hmed, Prod.mk.injEq]
    exact ⟨hsame (by omega), by omega⟩

theorem nextRolloverCount_of_near (hs : s.index < 2 ^ 48)
    (hi : i < 2 ^ 48) (hlow : s.index < i + 2 ^ 15) (hhigh : i < s.index + 2 ^ 15) :
    (s.nextRolloverCount (seqOf i)).1.toNat = i / 2 ^ 16 := by
  simp only [nextRolloverCount, guess_of_near hproc hs hi hlow hhigh, BitVec.toNat_ofNat]
  omega

theorem receive_of_near (hs : s.index < 2 ^ 48)
    (hi : i < 2 ^ 48) (hlow : s.index < i + 2 ^ 15) (hhigh : i < s.index + 2 ^ 15) :
    s.receive (seqOf i) = { s with index := i } := by
  have hsum : (((s.index : Int) + ((i : Int) - s.index)) % 2 ^ 64).toNat = i := by omega
  simp only [receive, nextRolloverCount, guess_of_near hproc hs hi hlow hhigh, updateRolloverCount,
    hproc, if_true, hsum]

end

theorem nextRolloverCount_of_first (hproc : s.rolloverHasProcessed = false)
    (hs : s.index = roc.toNat * 2 ^ 16) (seq : BitVec 16) : s.nextRolloverCount seq =
      (roc, 0, decide (roc = 0#32 ∧ roc = maxRoc)) := by
  have hroc : s.localRoc = roc := by
    unfold localRoc
    rw [hs, Nat.mul_div_cancel _ (by decide)]
    simp
  simp only [nextRolloverCount, guess, hproc, hroc]
  rfl

theorem receive_of_first (hproc : s.rolloverHasProcessed = false)
    (hs : s.index = roc.toNat * 2 ^ 16) (hi : i / 2 ^ 16 = roc.toNat) :
    s.receive (seqOf i) = { s with index := i, rolloverHasProcessed := true } := by
  have hor : s.index ||| i % 2 ^ 16 = i := by
    rw [hs, ← hi, Nat.mul_comm, ← Nat.two_pow_add_eq_or_of_lt (Nat.mod_lt i (by decide))]
    exact Nat.div_add_mod i (2 ^ 16)
  simp only [receive, updateRolloverCount, hproc, toNat_seqOf, hor]
  rfl

/-! ## Sequence numbers ahead of the stored index -/

/-- How far `b` lies ahead of `a`, modulo `2 ^ 16`. -/
def advance (a b : BitVec 16) : Nat := (b - a).toNat

theorem seq_eq_of_advance (ha : advance (seqOf m) seq = a) : seq = seqOf (m + a) := by
  have hseq := seq.isLt
  apply BitVec.eq_of_toNat_eq
  rw [toNat_seqOf, ← ha]
  simp only [advance, BitVec.toNat_sub, toNat_seqOf]
  omega

section

variable (hproc : s.rolloverHasProcessed = true)
include hproc

theorem nextRolloverCount_of_ahead (ha : advance (seqOf s.index) seq = a) (hlow : 1 ≤ a) (hhigh : a < 2 ^ 15)
    (hs : s.index + a < 2 ^ 48) : s.nextRolloverCount seq =
      (BitVec.ofNat 32 ((s.index + a) / 2 ^ 16), (a : Int), false) := by
  rw [seq_eq_of_advance ha]
  have hguess := guess_of_near (i := s.index + a) hproc (by omega) hs (by omega) (by omega)
  have hovf : ¬ (BitVec.ofNat 32 ((s.index + a) / 2 ^ 16) = 0#32 ∧ s.localRoc = maxRoc) := by
    rintro ⟨hzero, hmax⟩
    have hzero := congrArg BitVec.toNat hzero
    have hmax := congrArg BitVec.toNat hmax
    simp only [localRoc, maxRoc, BitVec.toNat_ofNat] at hzero hmax
    omega
  have hdiff : ((s.index + a : Nat) : Int) - s.index = a := by omega
  simp only [nextRolloverCount, hguess, hovf, decide_false, hdiff]

theorem nextRolloverCount_of_exhausted (hs : s.index < 2 ^ 48) (ha : advance (seqOf s.index) seq = a)
    (hhigh : a < 2 ^ 15) (hover : 2 ^ 48 ≤ s.index + a) : (s.nextRolloverCount seq).2.2 = true := by
  have hmedian : seqNumMedian = 32768 := rfl
  have hseq : seq.toNat = (s.index + a) % 2 ^ 16 := by rw [seq_eq_of_advance ha, toNat_seqOf]
  have hroc : s.localRoc = maxRoc := by
    apply BitVec.eq_of_toNat_eq
    simp only [localRoc, maxRoc, BitVec.toNat_ofNat]
    omega
  have hguess : (s.guess seq).1 = 0#32 := by
    unfold guess
    rw [if_pos hproc, hmedian]
    dsimp only
    rw [if_pos (by omega), if_neg (by unfold localSeq; omega), if_pos (by unfold localSeq; omega),
      hroc]
    rfl
  simp only [nextRolloverCount, hguess, hroc, and_self, decide_true]

theorem update_of_ahead (seq : BitVec 16)
    (hs : s.index + a < 2 ^ 48) : s.updateRolloverCount seq a = { s with index := s.index + a } := by
  have hsum : (((s.index : Int) + a) % 2 ^ 64).toNat = s.index + a := by omega
  simp only [updateRolloverCount, hproc, if_true, hsum]

end

/-- What every state of an SSRC satisfies: the index fits 48 bits, and until the first packet it is
    the configured rollover counter alone. -/
structure Valid (s : SrtpSsrcState) : Prop where
  index_lt : s.index < 2 ^ 48
  configured : s.rolloverHasProcessed = false → ∃ roc : BitVec 32, s.index = roc.toNat * 2 ^ 16

theorem receive_first (hproc : s.rolloverHasProcessed = false) (hs : s.Valid) (seq : BitVec 16) :
    (s.receive seq).rolloverHasProcessed = true ∧
    (s.receive seq).index = (s.nextRolloverCount seq).1.toNat * 2 ^ 16 + seq.toNat := by
  obtain ⟨roc, hroc⟩ := hs.configured hproc
  have hlt := roc.isLt
  have hseq : seq = seqOf (roc.toNat * 2 ^ 16 + seq.toNat) := by
    apply BitVec.eq_of_toNat_eq
    rw [toNat_seqOf]
    omega
  have hreceive := receive_of_first (i := roc.toNat * 2 ^ 16 + seq.toNat) hproc hroc (by omega)
  rw [← hseq] at hreceive
  rw [hreceive, nextRolloverCount_of_first hproc hroc]
  exact ⟨rfl, rfl⟩

/-- A packet that is not refused and lies ahead moves the index to the place its rollover counter
    and sequence number give it. -/
theorem receive_ahead (hproc : s.rolloverHasProcessed = true) (hs : s.Valid)
    (hlow : 1 ≤ advance (seqOf s.index) seq) (hhigh : advance (seqOf s.index) seq < 2 ^ 15)
    (hovf : (s.nextRolloverCount seq).2.2 = false) :
    (s.receive seq).rolloverHasProcessed = true ∧ s.index < (s.receive seq).index ∧
    (s.receive seq).index = (s.nextRolloverCount seq).1.toNat * 2 ^ 16 + seq.toNat := by
  obtain ⟨a, ha⟩ : ∃ a, advance (seqOf s.index) seq = a := ⟨_, rfl⟩
  rw [ha] at hlow hhigh
  have hroom : s.index + a < 2 ^ 48 := by
    by_contra hover
    have hexhausted := nextRolloverCount_of_exhausted hproc hs.index_lt ha hhigh (by omega)
    rw [hexhausted] at hovf
    cases hovf
  have hnext := nextRolloverCount_of_ahead hproc ha hlow hhigh hroom
  have hreceive : s.receive seq = { s with index := s.index + a } := by
    rw [receive, hnext]
    exact update_of_ahead hproc seq hroom
  have hseq : seq.toNat = (s.index + a) % 2 ^ 16 := by rw [seq_eq_of_advance ha, toNat_seqOf]
  rw [hreceive, hnext]
  refine ⟨hproc, by dsimp only; omega, ?_⟩
  simp only [BitVec.toNat_ofNat, hseq]
  omega

theorem Valid.receive (hs : s.Valid) (hovf : (s.nextRolloverCount seq).2.2 = false) : (s.receive seq).Valid := by
  have hindex := hs.index_lt
  have hseq := seq.isLt
  cases hproc : s.rolloverHasProcessed with
  | false =>
    obtain ⟨hdone, hreceive⟩ := receive_first hproc hs seq
    have hroc := (s.nextRolloverCount seq).1.isLt
    refine ⟨by omega, fun hnot => ?_⟩
    rw [hdone] at hnot
    cases hnot
  | true =>
    have hmedian : seqNumMedian = 32768 := rfl
    have hdone : (s.receive seq).rolloverHasProcessed = true := by
      simp only [SrtpSsrcState.receive, updateRolloverCount, hproc, if_true]
    have hreceive : (s.receive seq).index =
        (((s.index : Int) + (s.guess seq).2) % 2 ^ 64).toNat := by
      simp only [SrtpSsrcState.receive, nextRolloverCount, updateRolloverCount, hproc, if_true]
    have hguess : ¬ ((s.guess seq).1 = 0#32 ∧ s.localRoc = maxRoc) := by
      simpa only [nextRolloverCount, decide_eq_false_iff_not] using hovf
    refine ⟨?_, fun hnot => by rw [hdone] at hnot; cases hnot⟩
    rw [hreceive]
    revert hguess
    unfold guess
    rw [if_pos hproc, hmedian]
    dsimp only
    unfold localSeq
    split_ifs with hmed hlow hback hwrap
    · intro _; omega
    · intro _; omega
    · -- one rollover ahead: the last rollover counter would have been refused
      intro hguess
      have hroc : s.index / 2 ^ 16 ≠ 2 ^ 32 - 1 := by
        intro hmax
        have hlocal : s.localRoc = maxRoc := by
          rw [localRoc, hmax]
          rfl
        refine hguess ⟨?_, hlocal⟩
        rw [hlocal]
        rfl
      omega
    · intro _; omega
    · intro _; omega

/-! ## Arrivals -/

/-- Packets with 48-bit indices, each within `2 ^ 15 - 1` of the highest index so far, `m`. -/
def Follows (m : Nat) : List Nat → Prop
  | [] => True
  | i :: is => i < 2 ^ 48 ∧ i < m + 2 ^ 15 ∧ m < i + 2 ^ 15 ∧ Follows (max m i) is

/-- Packets of which the first has the rollover counter `roc`, and each later one is near the
    highest index before it. -/
def Arrivals (roc : BitVec 32) : List Nat → Prop
  | [] => True
  | i :: is => i / 2 ^ 16 = roc.toNat ∧ Follows i is

/-- Each packet's rollover counter is guessed, and the stored index after it is the highest index
    so far, `m` being the highest before. -/
def Estimates (s : SrtpSsrcState) (m : Nat) : List Nat → Prop
  | [] => True
  | i :: is => (s.nextRolloverCount (seqOf i)).1.toNat = i / 2 ^ 16 ∧
      (s.receive (seqOf i)).index = max m i ∧ Estimates (s.receive (seqOf i)) (max m i) is

/-- While the stored index is the highest one, the estimate stays right exactly as long as the
    indices do not decrease. -/
theorem estimates_iff_of_processed {is : List Nat} (hproc : s.rolloverHasProcessed = true)
    (hindex : s.index = m) (hm : m < 2 ^ 48) (his : Follows m is) :
    Estimates s m is ↔ (m :: is).IsChain (· ≤ ·) := by
  induction is generalizing s m with
  | nil => simp [Estimates]
  | cons i is ih =>
    obtain ⟨hi, hhigh, hlow, hrest⟩ := his
    rw [← hindex] at hhigh hlow hm
    have hguess := nextRolloverCount_of_near hproc hm hi hlow hhigh
    have hrecv := receive_of_near hproc hm hi hlow hhigh
    simp only [Estimates, hguess, hrecv, true_and]
    rw [List.isChain_cons_cons]
    by_cases hle : m ≤ i
    · rw [Nat.max_eq_right hle] at hrest ⊢
      rw [ih (s := { s with index := i }) hproc rfl hi hrest]
      exact ⟨fun h => ⟨hle, h.2⟩, fun h => ⟨rfl, h.2⟩⟩
    · -- an older packet replaces the stored index
      rw [Nat.max_eq_left (by omega)]
      exact iff_of_false (fun h => hle (by omega)) fun h => hle h.1

/-- For every sequence of authentic packets near the highest index so far, the rollover counter is
    guessed and the stored index is the running maximum throughout if and only if no packet is
    older than one before it. -/
theorem estimates_iff_monotone (s : SrtpSsrcState) (roc : BitVec 32)
    (hs : s.index = roc.toNat * 2 ^ 16) (hproc : s.rolloverHasProcessed = false) (is : List Nat)
    (his : Arrivals roc is) : Estimates s 0 is ↔ is.Pairwise (· ≤ ·) := by
  rw [← List.isChain_iff_pairwise]
  cases is with
  | nil => simp [Estimates]
  | cons i is =>
    obtain ⟨hi, hrest⟩ := his
    have hfirst := nextRolloverCount_of_first hproc hs (seqOf i)
    have hrecv := receive_of_first hproc hs hi
    have hbound : i < 2 ^ 48 := by
      have := roc.isLt
      omega
    simp only [Estimates, hfirst, hrecv, hi, Nat.zero_max, true_and]
    exact estimates_iff_of_processed rfl rfl hbound hrest

/-- Three packets in order, across a rollover. -/
theorem estimates_iff_monotone_rollover :
    Arrivals 7#32 [7 * 2 ^ 16 + 65000, 7 * 2 ^ 16 + 65535, 8 * 2 ^ 16 + 100] ∧
    Estimates ⟨1#32, 7 * 2 ^ 16, false, none⟩ 0
      [7 * 2 ^ 16 + 65000, 7 * 2 ^ 16 + 65535, 8 * 2 ^ 16 + 100] := by
  have harr : Arrivals 7#32 [7 * 2 ^ 16 + 65000, 7 * 2 ^ 16 + 65535, 8 * 2 ^ 16 + 100] := by
    simp [Arrivals, Follows]
  exact ⟨harr, (estimates_iff_monotone ⟨1#32, 7 * 2 ^ 16, false, none⟩ 7#32 rfl rfl _ harr).mpr
    (by decide)⟩

/-- A packet from the middle of the first cycle moves the stored index back, and the next packet,
    in the second cycle, is guessed into the first. -/
theorem estimate_after_reordering :
    Arrivals 0#32 [65535, 33535, 97535] ∧
    (let s := (⟨1#32, 0, false, none⟩ : SrtpSsrcState).receive (seqOf 65535)
     let s' := s.receive (seqOf 33535)
     s.index = 65535 ∧ s'.index = 33535 ∧ 97535 / 2 ^ 16 = 1 ∧
       (s'.nextRolloverCount (seqOf 97535)).1 = 0#32) := by
  refine ⟨by simp [Arrivals, Follows], by decide⟩

end Rtc.Srtp.SrtpSsrcState
