import Rtc.Shared.Proofs.ReplayWindow

/-!
# The wrapped replay window

`WrappedSlidingWindowDetector` over the positions of `SeenWindow.unwrap`: `wrapDiff` is the distance
from a number up to the head of the window, modulo `max + 1`, or its negative complement.
-/

namespace Rtc.Shared
open Runs SeenWindow

namespace WrappedSlidingWindowDetector

variable {w max : Nat} {latest s : Nat} {d : WrappedSlidingWindowDetector} {t : Trial WrappedSlidingWindowDetector}

/-- How far `s` lies below `latest`, modulo `max + 1`. -/
def back (max latest s : Nat) : ℤ := ((latest : ℤ) - s) % (max + 1)

theorem back_eq {max : Nat} (hlatest : latest ≤ max) (hs : s ≤ max) :
    back max latest s = if s ≤ latest then (latest : ℤ) - s else (latest : ℤ) - s + (max + 1) := by
  unfold back
  split
  · exact Int.emod_eq_of_lt (by omega) (by omega)
  · rw [← Int.add_emod_right]
    exact Int.emod_eq_of_lt (by omega) (by omega)

theorem i64_of_lt {x : ℤ} (hlow : -2 ^ 63 ≤ x) (hhigh : x < 2 ^ 63) : i64 x = x := by
  exact Int.bmod_eq_of_le (by omega) (by omega)

theorem wrapDiff_eq (hmax : max + 1 ≤ 2 ^ 63) (hlatest : latest ≤ max) (hs : s ≤ max) :
    wrapDiff max latest s =
      if (max : ℤ) / 2 < (latest : ℤ) - s then (latest : ℤ) - s - (max + 1)
      else if (latest : ℤ) - s ≤ -((max : ℤ) / 2) then (latest : ℤ) - s + (max + 1)
      else (latest : ℤ) - s := by
  have hmod : u64 (max + 1) = max + 1 := Nat.mod_eq_of_lt (by omega)
  have hhalf : (max : ℤ).tdiv 2 = max / 2 := Int.tdiv_eq_ediv_of_nonneg (by omega)
  simp only [wrapDiff]
  rw [hmod, i64_of_lt (x := (max : ℤ)) (by omega) (by omega),
    i64_of_lt (x := (latest : ℤ)) (by omega) (by omega),
    i64_of_lt (x := (s : ℤ)) (by omega) (by omega),
    i64_of_lt (x := (latest : ℤ) - s) (by omega) (by omega), hhalf]
  -- `max + 1` itself may be cast to a negative number
  have hsub : ∀ x : ℤ, i64 (x - i64 (max + 1 : Nat)) = i64 (x - (max + 1)) := fun x => by
    rw [i64, i64, i64, Int.sub_bmod_bmod, Nat.cast_add_one]
  have hadd : ∀ x : ℤ, i64 (x + i64 (max + 1 : Nat)) = i64 (x + (max + 1)) := fun x => by
    rw [i64, i64, i64, Int.add_bmod_bmod, Nat.cast_add_one]
  rw [hsub, hadd]
  split
  · exact i64_of_lt (by omega) (by omega)
  · split
    · exact i64_of_lt (by omega) (by omega)
    · rfl

theorem wrapDiff_of_le_half (hmax : max + 1 < 2 ^ 63) (hlatest : latest ≤ max)
    (hs : s ≤ max) (htwo : 2 ≤ max) (hback : back max latest s ≤ (max : ℤ) / 2) :
    wrapDiff max latest s = back max latest s := by
  rw [back_eq hlatest hs] at hback ⊢
  rw [wrapDiff_eq hmax.le hlatest hs]
  split at hback <;> split_ifs <;> omega

theorem wrapDiff_of_ahead (hmax : max + 1 < 2 ^ 63) (hlatest : latest ≤ max)
    (hs : s ≤ max) (hback : (max : ℤ) + 1 - back max latest s < (max : ℤ) / 2) :
    wrapDiff max latest s = back max latest s - (max + 1) := by
  rw [back_eq hlatest hs] at hback ⊢
  rw [wrapDiff_eq hmax.le hlatest hs]
  split at hback <;> split_ifs <;> omega

theorem wrapDiff_cases (hmax : max + 1 < 2 ^ 63) (hlatest : latest ≤ max) (hs : s ≤ max) (htwo : 2 ≤ max) :
    wrapDiff max latest s = back max latest s ∨
      (wrapDiff max latest s = back max latest s - (max + 1) ∧
        (max : ℤ) / 2 < back max latest s) := by
  rw [wrapDiff_eq hmax.le hlatest hs, back_eq hlatest hs]
  split_ifs <;> omega

theorem back_nonneg (max latest s : Nat) : 0 ≤ back max latest s :=
  Int.emod_nonneg _ (by omega)

theorem back_lt (max latest s : Nat) : back max latest s < max + 1 :=
  Int.emod_lt_of_pos _ (by omega)

/-! ## Calls -/

/-- The calls on a `WrappedSlidingWindowDetector` of window `w` up to `max`. -/
def step (w max : Nat) :
    Trial WrappedSlidingWindowDetector → Call → Trial WrappedSlidingWindowDetector :=
  Trial.step check accept (unwrap w (max + 1))

/-- Within `w - 1` of the highest position accepted, exactly the positions not accepted are
    reported valid. -/
def Exact (w max : Nat) (t : Trial WrappedSlidingWindowDetector) : Prop :=
  ∀ h, t.history = some h → ∀ p : ℤ, |p - h.head| < w →
    ((t.det.check (p % (max + 1)).toNat).1 = true ↔ p ∉ h.seen)

/-- The first number accepted is not one of the `w - 1` numbers below the head that the first
    `check` set up. -/
def StartsAtHead (w max : Nat) (t : Trial WrappedSlidingWindowDetector) : Call → Prop
  | .check _ => True
  | .accept => t.history = none → ∀ s, t.pending = some s →
      back max t.det.latestSeq s = 0 ∨ w ≤ back max t.det.latestSeq s

/-- The detector `check` compares with: initialised, with no number pending. -/
def ready (d : WrappedSlidingWindowDetector) (s : Nat) : WrappedSlidingWindowDetector :=
  { d with accepted := false }.start s

@[simp] theorem ready_fields (d : WrappedSlidingWindowDetector) (s : Nat) :
    (d.ready s).windowSize = d.windowSize ∧ (d.ready s).maxSeq = d.maxSeq ∧ (d.ready s).mask = d.mask ∧
      (d.ready s).accepted = false := by
  unfold ready start
  split <;> exact ⟨rfl, rfl, rfl, rfl⟩

@[simp] theorem ready_init (d : WrappedSlidingWindowDetector) (s : Nat) : (d.ready s).init = true := by
  unfold ready start
  split
  · assumption
  · rfl

theorem ready_latestSeq_of_init (hinit : d.init = true) (s : Nat) : (d.ready s).latestSeq = d.latestSeq := by
  simp [ready, start, hinit]

theorem ready_latestSeq_le (hle : d.latestSeq ≤ d.maxSeq)
    (hs : s ≤ d.maxSeq) : (d.ready s).latestSeq ≤ d.maxSeq := by
  unfold ready start
  split
  · exact hle
  · simp only
    split <;> omega

theorem check_fst_iff (d : WrappedSlidingWindowDetector) (s : Nat) :
    (d.check s).1 = true ↔ s ≤ d.maxSeq ∧
      wrapDiff d.maxSeq (d.ready s).latestSeq s < i64 d.windowSize ∧
      (0 ≤ wrapDiff d.maxSeq (d.ready s).latestSeq s →
        d.mask.bit (wrapDiff d.maxSeq (d.ready s).latestSeq s).toNat = 0) := by
  obtain ⟨hsize, hmax, hmask, -⟩ := ready_fields d s
  unfold ready at hmax hsize hmask ⊢
  simp only [check, hmax, hsize, hmask]
  split
  · simp; omega
  · split
    · simp; omega
    · split
      · simp; omega
      · simp; omega

theorem check_fst_of_far (hinit : d.init = true)
    (hfar : i64 d.windowSize ≤ wrapDiff d.maxSeq d.latestSeq s) : (d.check s).1 = false := by
  rw [Bool.eq_false_iff, ne_eq, check_fst_iff, ready_latestSeq_of_init hinit]
  rintro ⟨-, hlt, -⟩
  exact absurd hfar (Int.not_le.mpr hlt)

/-- After a `check` in range the detector is initialised, and `accepted` is the result. -/
theorem check_snd (d : WrappedSlidingWindowDetector) (s : Nat) :
    (d.check s).2 = if d.maxSeq < s then { d with accepted := false }
      else if (d.check s).1 then { d.ready s with accepted := true, seq := s }
      else d.ready s := by
  simp only [check]
  split
  · rfl
  · split
    · rfl
    · split <;> rfl

/-- What relates a detector of window `w` up to `max` to the calls made on it. -/
structure Inv (w max : Nat) (t : Trial WrappedSlidingWindowDetector) : Prop where
  windowSize : t.det.windowSize = w
  maxSeq : t.det.maxSeq = max
  latest_le : t.det.latestSeq ≤ max
  idle : t.pending = none → t.det.accepted = false
  pending : ∀ s, t.pending = some s → t.det.accepted = true ∧ t.det.seq = s ∧ s ≤ max ∧
    t.det.init = true ∧ wrapDiff max t.det.latestSeq s < w
  fresh : t.history = none → ∀ i, t.det.mask.test i = false
  tracks : ∀ h, t.history = some h → t.det.init = true ∧
    h.head % (max + 1) = t.det.latestSeq ∧ Tracks w t.det.mask.test h.head h.seen

theorem inv_start (w max : Nat) : Inv w max (Trial.start (new w max)) where
  windowSize := rfl
  maxSeq := rfl
  latest_le := Nat.zero_le _
  idle := fun _ => rfl
  pending := by simp [Trial.start]
  fresh := fun _ i => FixedBigInt.test_new w i
  tracks := by simp [Trial.start]

/-- A position reads as the same distance below the head as below the number of the head. -/
theorem back_of_position {head p : ℤ} (hhead : head % (max + 1) = latest) :
    back max latest (p % (max + 1)).toNat = (head - p) % (max + 1) := by
  have hnn : 0 ≤ p % ((max : ℤ) + 1) := Int.emod_nonneg _ (by omega)
  unfold back
  rw [Int.toNat_of_nonneg hnn, ← hhead, ← Int.sub_emod]

theorem position_le (max : Nat) (p : ℤ) : (p % ((max : ℤ) + 1)).toNat ≤ max := by
  have hnn : 0 ≤ p % ((max : ℤ) + 1) := Int.emod_nonneg _ (by omega)
  have hlt : p % ((max : ℤ) + 1) < max + 1 := Int.emod_lt_of_pos _ (by omega)
  omega

theorem Inv.exact (hmax2 : 2 * w ≤ max) (hmax : max + 1 < 2 ^ 63) (hinv : Inv w max t) : Exact w max t := by
  intro h hh p hnear
  obtain ⟨hinit, hhead, htr⟩ := hinv.tracks h hh
  obtain ⟨hlow, hhigh⟩ := abs_lt.mp hnear
  have hs := position_le max p
  have hback := back_of_position (p := p) hhead
  rw [check_fst_iff, hinv.maxSeq, hinv.windowSize, ready_latestSeq_of_init hinit,
    i64_of_lt (by omega) (by omega)]
  by_cases hle : p ≤ h.head
  · have hemod : (h.head - p) % ((max : ℤ) + 1) = h.head - p :=
      Int.emod_eq_of_lt (by omega) (by omega)
    rw [hemod] at hback
    rw [wrapDiff_of_le_half hmax hinv.latest_le hs (by omega) (by omega), hback]
    have hbit := htr.bit_iff (h.head - p).toNat (by omega)
    have hzero := t.det.mask.bit_ne_zero_iff (h.head - p).toNat
    rw [Int.toNat_of_nonneg (by omega), sub_sub_cancel] at hbit
    rw [t.det.mask_n, hinv.windowSize, hbit] at hzero
    constructor
    · rintro ⟨-, -, hvalid⟩ hseen
      exact hzero.mpr ⟨by omega, hseen⟩ (hvalid (by omega))
    · intro hseen
      refine ⟨hs, by omega, fun _ => ?_⟩
      by_contra hne
      exact hseen (hzero.mp hne).2
  · have hemod : (h.head - p) % ((max : ℤ) + 1) = h.head - p + (max + 1) := by
      rw [← Int.add_emod_right]
      exact Int.emod_eq_of_lt (by omega) (by omega)
    rw [hemod] at hback
    have hnot : p ∉ h.seen := by
      intro hseen
      have := htr.le_head _ hseen
      omega
    rw [wrapDiff_of_ahead hmax hinv.latest_le hs (by omega), hback]
    refine iff_of_true ⟨hs, by omega, fun hnn => ?_⟩ hnot
    omega

theorem inv_check (hmax2 : 2 * w ≤ max) (hmax : max + 1 < 2 ^ 63) (hinv : Inv w max t) (s : Nat) :
    Inv w max (step w max t (.check s)) := by
  have hsnd := check_snd t.det s
  have hfst := check_fst_iff t.det s
  rw [hinv.maxSeq, hinv.windowSize, i64_of_lt (by omega) (by omega)] at hfst
  -- the head moves only in the first check, when nothing has been accepted
  have hkeep : ∀ h, t.history = some h → (t.det.ready s).latestSeq = t.det.latestSeq :=
    fun h hh => ready_latestSeq_of_init (hinv.tracks h hh).1 s
  unfold step Trial.step
  by_cases hrange : max < s
  · have hno : (t.det.check s).1 = false := by
      rw [Bool.eq_false_iff]
      intro hok
      have := (hfst.mp hok).1
      omega
    rw [if_pos (by rw [hinv.maxSeq]; exact hrange)] at hsnd
    simp only [hsnd, hno]
    exact { hinv with idle := by simp, pending := by simp }
  · have hlatest : (t.det.ready s).latestSeq ≤ max := by
      have := ready_latestSeq_le (d := t.det) (s := s) (by rw [hinv.maxSeq]; exact hinv.latest_le)
        (by rw [hinv.maxSeq]; omega)
      rwa [hinv.maxSeq] at this
    rw [if_neg (by rw [hinv.maxSeq]; exact hrange)] at hsnd
    by_cases hok : (t.det.check s).1 = true
    · rw [if_pos hok] at hsnd
      simp only [hsnd, hok, if_true]
      refine ⟨by simp [hinv.windowSize], by simp [hinv.maxSeq], hlatest, by simp, ?_,
        by simpa using hinv.fresh, ?_⟩
      · rintro s' hs'
        obtain rfl := Option.some.inj hs'
        obtain ⟨hs, hdiff, -⟩ := hfst.mp hok
        exact ⟨rfl, rfl, hs, by simp, hdiff⟩
      · intro h hh
        obtain ⟨-, hhead, htr⟩ := hinv.tracks h hh
        exact ⟨by simp, by simp only [hkeep h hh, hhead], by simpa using htr⟩
    · rw [if_neg hok] at hsnd
      simp only [hsnd, hok]
      refine ⟨by simp [hinv.windowSize], by simp [hinv.maxSeq], hlatest, by simp, by simp,
        by simpa using hinv.fresh, ?_⟩
      intro h hh
      obtain ⟨-, hhead, htr⟩ := hinv.tracks h hh
      exact ⟨by simp, by simp only [hkeep h hh, hhead], by simpa using htr⟩

theorem accept_eq (hacc : d.accepted = true) :
    (wrapDiff d.maxSeq d.latestSeq d.seq < 0 ∧ d.accept = { d with
        mask := (d.mask.lsh (-wrapDiff d.maxSeq d.latestSeq d.seq).toNat).setBit 0
        mask_n := by rw [FixedBigInt.n_setBit, FixedBigInt.n_lsh, d.mask_n]
        latestSeq := d.seq }) ∨
    (0 ≤ wrapDiff d.maxSeq d.latestSeq d.seq ∧ d.accept = { d with
        mask := d.mask.setBit (wrapDiff d.maxSeq d.latestSeq d.seq).toNat
        mask_n := by rw [FixedBigInt.n_setBit, d.mask_n] }) := by
  by_cases hneg : wrapDiff d.maxSeq d.latestSeq d.seq < 0
  · left
    simp [accept, hacc, hneg]
  · right
    simp [accept, hacc, hneg, Int.not_lt.mp hneg]

theorem Inv.accepted (hinv : Inv w max t) (hpend : t.pending = some s)
    (hd : d.windowSize = w ∧ d.maxSeq = max ∧ d.latestSeq ≤ max ∧ d.accepted = true ∧ d.seq = s ∧
    d.init = true) {h : SeenWindow} (hdiff : wrapDiff max d.latestSeq s < w)
    (hhead : h.head % (max + 1) = d.latestSeq) (htr : Tracks w d.mask.test h.head h.seen) :
    Inv w max ⟨d, some s, some h⟩ := by
  obtain ⟨hsize, hmaxSeq, hlatest, hacc, hseq, hinit⟩ := hd
  refine ⟨hsize, hmaxSeq, hlatest, by simp, ?_, by simp, ?_⟩
  · rintro s' hs'
    obtain rfl := Option.some.inj hs'
    exact ⟨hacc, hseq, (hinv.pending s hpend).2.2.1, hinit, hdiff⟩
  · rintro h' hh'
    obtain rfl := Option.some.inj hh'
    exact ⟨hinit, hhead, htr⟩

theorem wrapDiff_self (hmax : max + 1 < 2 ^ 63) (hs : s ≤ max) (htwo : 2 ≤ max) : wrapDiff max s s = 0 := by
  rw [wrapDiff_eq hmax.le hs hs]
  split_ifs <;> omega

theorem back_of_head {head : ℤ} (hhead : head % (max + 1) = latest) :
    back max latest s = (head - s) % (max + 1) := by
  unfold back
  rw [← hhead, Int.emod_sub_emod]

theorem Inv.record_above (hinv : Inv w max t) {k : Nat} (hs : s ≤ max) (hback : w ≤ back max t.det.latestSeq s)
    (hk : (k : ℤ) = max + 1 - back max t.det.latestSeq s) :
    ∃ base, Tracks w t.det.mask.test base (positions t.history) ∧
      record (unwrap w (max + 1)) t.history s = ⟨base + k, (base + k) :: positions t.history⟩ ∧
      (base + k) % (max + 1) = s := by
  have hsmod : (s : ℤ) % (max + 1) = s := Int.emod_eq_of_lt (by omega) (by omega)
  cases hh : t.history with
  | none =>
    refine ⟨s - k, Tracks.empty (fun i _ => hinv.fresh hh i) _, ?_, ?_⟩
    · simp [record, positions]
    · rwa [sub_add_cancel]
  | some h =>
    obtain ⟨-, hhead, htr⟩ := hinv.tracks h hh
    rw [back_of_head hhead] at hback hk
    have hplace := unwrap_of_le hback
    have hpos : h.head - (h.head - s) % (max + 1) + (max + 1) = h.head + k := by omega
    rw [hpos] at hplace
    refine ⟨h.head, htr, ?_, ?_⟩
    · simp [record, positions, hplace]
    · rw [← hplace]
      exact unwrap_emod (by omega) (by omega)

theorem Inv.record_below (hinv : Inv w max t) {d : Nat}
    (hs : s ≤ max) (hd : (d : ℤ) = back max t.det.latestSeq s) (hdw : d < w) (hstart : t.history = none → d = 0) :
    ∃ base, Tracks w t.det.mask.test base (positions t.history) ∧
      record (unwrap w (max + 1)) t.history s = ⟨base, (base - d) :: positions t.history⟩ ∧
      base % (max + 1) = t.det.latestSeq := by
  have hsmod : (s : ℤ) % (max + 1) = s := Int.emod_eq_of_lt (by omega) (by omega)
  cases hh : t.history with
  | none =>
    have hzero := hstart hh
    have hlatest := hinv.latest_le
    have hsame : s = t.det.latestSeq := by
      rw [hzero, back_eq hlatest hs] at hd
      split at hd <;> omega
    refine ⟨s, Tracks.empty (fun i _ => hinv.fresh hh i) _, ?_, ?_⟩
    · simp [record, positions, hzero]
    · rw [hsmod, hsame]
  | some h =>
    obtain ⟨-, hhead, htr⟩ := hinv.tracks h hh
    rw [back_of_head hhead] at hd
    have hplace : unwrap w ((max : ℤ) + 1) h.head s = h.head - (h.head - s) % ((max : ℤ) + 1) :=
      unwrap_of_lt (by omega)
    rw [← hd] at hplace
    refine ⟨h.head, htr, ?_, hhead⟩
    simp [record, positions, hplace]

theorem inv_accept (hw : 1 ≤ w) (hmax2 : 2 * w ≤ max)
    (hmax : max + 1 < 2 ^ 63) (hcov : FixedBigInt.MaskCovers w) (hinv : Inv w max t)
    (hstart : StartsAtHead w max t .accept) : Inv w max (step w max t .accept) := by
  cases hpend : t.pending with
  | none => rwa [step, Trial.step_accept_of_idle (by simp [accept, hinv.idle hpend]) hpend]
  | some s =>
    obtain ⟨hacc, rfl, hs, hinit, hdiff⟩ := hinv.pending s hpend
    have hn : t.det.mask.n = w := by rw [t.det.mask_n, hinv.windowSize]
    have hcases := wrapDiff_cases hmax hinv.latest_le hs (by omega)
    have hlo := back_nonneg max t.det.latestSeq t.det.seq
    have hhi := back_lt max t.det.latestSeq t.det.seq
    have heq := accept_eq hacc
    have hself := wrapDiff_self hmax hs (by omega)
    rw [hinv.maxSeq] at heq
    rw [step, Trial.step_accept_of_pending hpend]
    rcases heq with ⟨hneg, heq⟩ | ⟨hnn, heq⟩
    · -- above the head: the window moves up by the distance
      obtain ⟨base, htr, hrec, hmod⟩ := hinv.record_above hs
        (k := (-wrapDiff max t.det.latestSeq t.det.seq).toNat)
        (by rcases hcases with h | ⟨h, hhalf⟩ <;> rw [h] at hneg <;> omega)
        (by rcases hcases with h | ⟨h, hhalf⟩ <;> rw [h] at hneg ⊢ <;> omega)
      have hpos : 0 < (-wrapDiff max t.det.latestSeq t.det.seq).toNat := by
        rw [Int.lt_toNat]
        simpa using hneg
      generalize (-wrapDiff max t.det.latestSeq t.det.seq).toNat = k at heq hrec hmod hpos
      rw [← hn] at htr
      have hadv := FixedBigInt.tracks_lsh (by rwa [hn]) (by omega) htr hpos
      rw [hn] at hadv
      rw [hrec, heq]
      refine hinv.accepted hpend ?_ ?_ ?_ ?_
      · exact ⟨hinv.windowSize, rfl, hs, hacc, rfl, hinit⟩
      · simp only [hself]
        omega
      · exact hmod
      · exact hadv
    · obtain ⟨base, htr, hrec, hmod⟩ := hinv.record_below hs
        (d := (wrapDiff max t.det.latestSeq t.det.seq).toNat)
        (by rcases hcases with h | ⟨h, hhalf⟩ <;> rw [h] at hnn ⊢ <;> omega)
        ((Int.toNat_lt hnn).mpr hdiff)
        (fun hh => by
          have hzero := hstart hh _ hpend
          rcases hcases with h | ⟨h, hhalf⟩ <;> rw [h] at hnn hdiff ⊢ <;> omega)
      rw [← hn] at htr
      have hmark := FixedBigInt.tracks_setBit htr
        (d := (wrapDiff max t.det.latestSeq t.det.seq).toNat)
        (by rw [hn]; exact (Int.toNat_lt hnn).mpr hdiff)
      rw [hn] at hmark
      rw [hrec, heq]
      refine hinv.accepted hpend ?_ hdiff hmod hmark
      exact ⟨hinv.windowSize, rfl, hinv.latest_le, hacc, rfl, hinit⟩

/-- A first acceptance below the head leaves the window out of step: the number `w` below the old
    head is reported invalid although it lies within `w - 1` of the number accepted. -/
theorem not_exact_of_not_startsAtHead
    (hmax2 : 2 * w ≤ max) (hmax : max + 1 < 2 ^ 63) (hinv : Inv w max t) {c : Call}
    (hstart : ¬ StartsAtHead w max t c) : ¬ Exact w max (step w max t c) := by
  cases c with
  | check s => exact absurd trivial hstart
  | accept =>
    simp only [StartsAtHead, not_forall, not_or, not_le] at hstart
    obtain ⟨hh, s, hpend, hne, hlt⟩ := hstart
    obtain ⟨hacc, rfl, hs, hinit, -⟩ := hinv.pending s hpend
    have hlo := back_nonneg max t.det.latestSeq t.det.seq
    have hlatest := hinv.latest_le
    have hdiff := wrapDiff_of_le_half hmax hlatest hs (by omega) (by omega)
    have heq := accept_eq hacc
    rw [hinv.maxSeq, hdiff] at heq
    rcases heq with ⟨hneg, -⟩ | ⟨-, heq⟩
    · omega
    rw [step, Trial.step_accept_of_pending hpend, heq, hh]
    intro hexact
    -- the position `w` below the head the first check set up
    have hold := hexact _ rfl (t.det.seq - (w - back max t.det.latestSeq t.det.seq)) (by
      simp only [record]
      rw [abs_lt]
      omega)
    have hmod : (t.det.seq + back max t.det.latestSeq t.det.seq) % (max + 1) =
        t.det.latestSeq := by
      unfold back
      rw [Int.add_emod_emod, add_sub_cancel]
      exact Int.emod_eq_of_lt (by omega) (by omega)
    have hback := back_of_position (p := t.det.seq - (w - back max t.det.latestSeq t.det.seq)) hmod
    have hdist : (t.det.seq + back max t.det.latestSeq t.det.seq -
        (t.det.seq - (w - back max t.det.latestSeq t.det.seq))) % ((max : ℤ) + 1) = w := by
      have hsum : (t.det.seq : ℤ) + back max t.det.latestSeq t.det.seq -
          (t.det.seq - (w - back max t.det.latestSeq t.det.seq)) = w := by ring
      rw [hsum]
      exact Int.emod_eq_of_lt (by omega) (by omega)
    rw [hdist] at hback
    have hfar := wrapDiff_of_le_half hmax hlatest (position_le max
      (t.det.seq - (w - back max t.det.latestSeq t.det.seq))) (by omega) (by rw [hback]; omega)
    rw [hback] at hfar
    refine Bool.eq_false_iff.mp (check_fst_of_far ?_ ?_) (hold.mpr (by simp [record]; omega))
    · exact hinit
    · simp only [hinv.windowSize, hfar]
      rw [i64_of_lt (by omega) (by omega)]

theorem run_accept_above (w max : Nat) {k : Nat}
    (hs : s ≤ t.det.maxSeq) (hsize : 0 ≤ i64 t.det.windowSize) (hk : 0 < k)
    (hdiff : wrapDiff t.det.maxSeq (t.det.ready s).latestSeq s = -k) :
    run (step w max) t [.check s, .accept] =
      ⟨{ t.det.ready s with
          accepted := true
          seq := s
          latestSeq := s
          mask := ((t.det.ready s).mask.lsh k).setBit 0
          mask_n := by rw [FixedBigInt.n_setBit, FixedBigInt.n_lsh, (t.det.ready s).mask_n] },
        some s, some (record (unwrap w (max + 1)) t.history s)⟩ := by
  have hok : (t.det.check s).1 = true := by
    rw [check_fst_iff, hdiff]
    exact ⟨hs, by omega, fun hnn => by omega⟩
  have hsnd := check_snd t.det s
  rw [if_neg (by omega), if_pos hok] at hsnd
  rw [run_cons, run_cons, run_nil, step, Trial.step_accept_of_pending (s := s) (by simp [Trial.step, hok])]
  simp only [Trial.step, hsnd]
  simp [accept, hdiff, hk]

theorem run_accept_one (w max : Nat) (hmax2 : 4 ≤ max) (hmax : max + 1 < 2 ^ 63) (hw : w ≤ max) :
    run (step w max) (Trial.start (new w max)) [.check 1, .accept] =
      ⟨{ new w max with
          accepted := true
          seq := 1
          latestSeq := 1
          mask := ((new w max).mask.lsh 1).setBit 0
          mask_n := by rw [FixedBigInt.n_setBit, FixedBigInt.n_lsh, (new w max).mask_n]
          init := true },
        some 1, some (record (unwrap w (max + 1)) none 1)⟩ := by
  have hsize : i64 w = w := i64_of_lt (by omega) (by omega)
  exact run_accept_above w max (t := Trial.start (new w max)) (s := 1)
    (k := 1) (by change 1 ≤ max; omega) (by change 0 ≤ i64 w; omega) (by omega) (by
      change wrapDiff max 0 1 = -1
      rw [wrapDiff_eq hmax.le (by omega) (by omega)]
      split_ifs <;> omega)

/-- A window whose size the mask cuts forgets its lowest position: `1` is accepted, then `w`, then
    `1` is reported valid again. Both acceptances are at the head. -/
theorem not_exact_of_not_maskCovers (hmax2 : 2 * w ≤ max) (hmax : max + 1 < 2 ^ 63)
    (hcov : ¬ FixedBigInt.MaskCovers w) :
    ¬ Exact w max (run (step w max) (Trial.start (new w max))
      [.check 1, .accept, .check w, .accept]) := by
  have hw : 32 < w := by
    unfold FixedBigInt.MaskCovers at hcov
    omega
  have hsize : i64 w = w := i64_of_lt (by omega) (by omega)
  have hone := run_accept_one w max (by omega) hmax (by omega)
  have htwo := run_accept_above w max
    (t := run (step w max) (Trial.start (new w max)) [.check 1, .accept])
    (s := w) (k := w - 1) (by rw [hone]; change w ≤ max; omega)
    (by rw [hone]; change 0 ≤ i64 w; omega) (by omega) (by
      rw [hone]
      change wrapDiff max 1 w = -((w - 1 : Nat) : ℤ)
      rw [wrapDiff_eq hmax.le (by omega) (by omega)]
      split_ifs <;> omega)
  rw [← run_append, hone] at htwo
  have hplace : unwrap w (max + 1) 1 w = w := by
    have hemod : (1 - (w : ℤ)) % (max + 1) = 1 - w + (max + 1) := by
      rw [← Int.add_emod_right]
      exact Int.emod_eq_of_lt (by omega) (by omega)
    rw [unwrap_of_le (by omega), hemod]
    omega
  have hone_mod : ((1 : ℤ) % (max + 1)).toNat = 1 := by
    rw [Int.emod_eq_of_lt (by omega) (by omega)]
    rfl
  intro hexact
  have hvalid := hexact _ (congrArg Trial.history htwo) 1 (by
    simp only [record, hplace]
    rw [abs_lt]
    omega)
  rw [hone_mod, show [Call.check 1, .accept, .check w, .accept] =
    [.check 1, .accept] ++ [.check w, .accept] from rfl, htwo] at hvalid
  refine absurd (hvalid.mp ?_) (by simp [record])
  rw [check_fst_iff]
  have hdiff : wrapDiff max w 1 = w - 1 := by
    rw [wrapDiff_eq hmax.le (by omega) (by omega)]
    split_ifs <;> omega
  refine ⟨?_, ?_, fun _ => ?_⟩
  · change 1 ≤ max
    omega
  · change wrapDiff max w 1 < i64 w
    omega
  · change FixedBigInt.bit (((((new w max).mask.lsh 1).setBit 0).lsh (w - 1)).setBit 0)
      (wrapDiff max w 1).toNat = 0
    have hlast : ((w : ℤ) - 1).toNat = w - 1 := by omega
    rw [hdiff, hlast]
    exact FixedBigInt.bit_of_not_maskCovers hcov

/-- The window sizes for which the wrapped window is exact in every run that starts at the head. -/
theorem exact_iff_maskCovers (hw : 1 ≤ w) (hmax2 : 2 * w ≤ max) (hmax : max + 1 < 2 ^ 63) :
    (∀ calls, Meets (step w max) (StartsAtHead w max) (Trial.start (new w max)) calls →
        Exact w max (run (step w max) (Trial.start (new w max)) calls)) ↔
      FixedBigInt.MaskCovers w := by
  constructor
  · intro hexact
    by_contra hcov
    have hone := run_accept_one w max (by
      unfold FixedBigInt.MaskCovers at hcov
      omega) hmax (by omega)
    refine not_exact_of_not_maskCovers hmax2 hmax hcov (hexact _ ?_)
    refine ⟨trivial, ?_, trivial, ?_, trivial⟩
    · -- the first check puts the head at `0`, so `1` is `max` below it
      rintro - s hs
      have hsnd := check_snd (new w max) 1
      have hlatest : ((new w max).check 1).2.latestSeq = 0 := by
        rw [hsnd]
        split_ifs <;> rfl
      have hs1 : 1 = s := by
        change (if ((new w max).check 1).1 then some 1 else none) = some s at hs
        split_ifs at hs
        exact Option.some.inj hs
      right
      change (w : ℤ) ≤ back max ((new w max).check 1).2.latestSeq s
      rw [hlatest, ← hs1, back_eq (by omega) (by omega)]
      simp
      omega
    · intro hh
      have hsome : (run (step w max) (Trial.start (new w max)) [.check 1, .accept]).history ≠
          none := by
        rw [hone]
        simp
      exact absurd hh hsome
  · intro hcov calls hcalls
    refine (inv_run (step w max) (fun t c hinv hok => ?_) (inv_start w max) hcalls).exact
      hmax2 hmax
    cases c with
    | check s => exact inv_check hmax2 hmax hinv s
    | accept => exact inv_accept hw hmax2 hmax hcov hinv hok

/-- Under a covering mask the runs in which the wrapped window is exact throughout are those that
    start at the head. -/
theorem exact_iff_startsAtHead (hw : 1 ≤ w) (hmax2 : 2 * w ≤ max) (hmax : max + 1 < 2 ^ 63)
    (hcov : FixedBigInt.MaskCovers w) (calls : List Call) :
    (∀ pre, pre <+: calls → Exact w max (run (step w max) (Trial.start (new w max)) pre)) ↔
      Meets (step w max) (StartsAtHead w max) (Trial.start (new w max)) calls := by
  refine forall_good_iff_meets (step w max) (fun t (hinv : Inv w max t) => hinv.exact hmax2 hmax)
    ?_ ?_ (inv_start w max) calls
  · rintro t (s | _) hinv hok
    · exact inv_check hmax2 hmax hinv s
    · exact inv_accept hw hmax2 hmax hcov hinv hok
  · exact fun t c hinv hbad => not_exact_of_not_startsAtHead hmax2 hmax hinv hbad

end WrappedSlidingWindowDetector

/-! ## Both detectors -/

/-- When the replay windows are exact: every number within `w - 1` of the highest accepted one is valid if and only
    if it has not been accepted. For `SlidingWindowDetector` this holds in every run exactly for the window
    sizes whose mask covers the window and the bounds whose sum with `w` stays in `u64`; for
    `WrappedSlidingWindowDetector`, below the `i64` range, in all runs that start at the head exactly for the
    same sizes, and for those in no other run. -/
theorem replayWindows_exact_iff (w max : Nat) (hw : 1 ≤ w) (hmax : 2 * w ≤ max) :
    (max < 2 ^ 64 →
      ((∀ calls, SlidingWindowDetector.Exact w max
          (run SlidingWindowDetector.step (Trial.start (.new w max)) calls)) ↔
        FixedBigInt.MaskCovers w ∧ max + w ≤ 2 ^ 64)) ∧
    (max + 1 < 2 ^ 63 →
      ((∀ calls,
          Meets (WrappedSlidingWindowDetector.step w max)
            (WrappedSlidingWindowDetector.StartsAtHead w max) (Trial.start (.new w max)) calls →
          WrappedSlidingWindowDetector.Exact w max
            (run (WrappedSlidingWindowDetector.step w max) (Trial.start (.new w max)) calls)) ↔
        FixedBigInt.MaskCovers w) ∧
      (FixedBigInt.MaskCovers w → ∀ calls,
        ((∀ pre, pre <+: calls → WrappedSlidingWindowDetector.Exact w max
            (run (WrappedSlidingWindowDetector.step w max) (Trial.start (.new w max)) pre)) ↔
          Meets (WrappedSlidingWindowDetector.step w max)
            (WrappedSlidingWindowDetector.StartsAtHead w max) (Trial.start (.new w max))
            calls))) := by
  refine ⟨fun h64 => SlidingWindowDetector.exact_iff hw hmax h64, fun h63 => ⟨?_, ?_⟩⟩
  · exact WrappedSlidingWindowDetector.exact_iff_maskCovers hw hmax h63
  · exact fun hcov calls =>
      WrappedSlidingWindowDetector.exact_iff_startsAtHead hw hmax h63 hcov calls

/-- A window of 64 over 16-bit sequence numbers. -/
theorem replayWindows_exact_srtp :
    (1 ≤ 64 ∧ 2 * 64 ≤ 65535) ∧
    (∀ calls, SlidingWindowDetector.Exact 64 65535
      (run SlidingWindowDetector.step (Trial.start (.new 64 65535)) calls)) ∧
    (∀ calls,
      Meets (WrappedSlidingWindowDetector.step 64 65535)
        (WrappedSlidingWindowDetector.StartsAtHead 64 65535) (Trial.start (.new 64 65535)) calls →
      WrappedSlidingWindowDetector.Exact 64 65535
        (run (WrappedSlidingWindowDetector.step 64 65535) (Trial.start (.new 64 65535)) calls)) := by
  have hexact := replayWindows_exact_iff 64 65535 (by decide) (by decide)
  refine ⟨by decide, (hexact.1 (by decide)).mpr (by decide), ?_⟩
  exact (hexact.2 (by decide)).1.mpr (by decide)

/-- A window of 48: `0` is accepted, then `20`, and `0` is reported valid again, by either
    detector. -/
theorem replayWindow_48_accepts_duplicate :
    (let d := (SlidingWindowDetector.new 48 96).check 0
     let e := d.2.accept.check 20
     d.1 = true ∧ e.1 = true ∧ (e.2.accept.check 0).1 = true) ∧
    (let d := (WrappedSlidingWindowDetector.new 48 65535).check 0
     let e := d.2.accept.check 20
     d.1 = true ∧ e.1 = true ∧ (e.2.accept.check 0).1 = true) := by
  decide

end Rtc.Shared
