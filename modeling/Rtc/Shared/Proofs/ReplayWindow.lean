import Rtc.Lib.Runs
import Rtc.Lib.SeenWindow
import Rtc.Shared.ReplayDetector

/-!
# The replay detectors as windows over the numbers accepted

A run of `check` and `accept` calls is paired with the numbers it accepted (`Trial`), and each detector is compared
with the window over them. `SlidingWindowDetector` takes a number as its position, `WrappedSlidingWindowDetector`
places it by `SeenWindow.unwrap`.
-/

namespace Rtc.Shared
open Runs SeenWindow

/-- A call of the `ReplayDetector` interface. -/
inductive Call where
  | check (seq : Nat)
  | accept
  deriving DecidableEq

/-- A detector with the number its last `check` reported valid, if it did, and the numbers
    accepted so far. -/
structure Trial (D : Type) where
  det : D
  pending : Option Nat
  history : Option SeenWindow

namespace Trial

variable {D : Type} (check : D → Nat → Bool × D) (accept : D → D) (place : ℤ → ℤ → ℤ)

/-- One call. An `accept` that follows no successful `check` accepts nothing. -/
def step (t : Trial D) : Call → Trial D
  | .check s =>
    { t with
      det := (check t.det s).2
      pending := if (check t.det s).1 then some s else none }
  | .accept =>
    { t with
      det := accept t.det
      history := match t.pending with
        | some s => some (record place t.history s)
        | none => t.history }

def start (d : D) : Trial D := ⟨d, none, none⟩

variable {check accept place} {t : Trial D}

theorem step_accept_of_idle (hdet : accept t.det = t.det) (hpend : t.pending = none) :
    t.step check accept place .accept = t := by
  cases t
  simp_all [step]

theorem step_accept_of_pending {s : Nat} (hpend : t.pending = some s) :
    t.step check accept place .accept = ⟨accept t.det, some s, some (record place t.history s)⟩ := by
  simp [step, hpend]

end Trial

namespace FixedBigInt

variable {b : FixedBigInt}

theorem tracks_lsh (hcov : MaskCovers b.n) (hn : 1 ≤ b.n)
    {head : ℤ} {seen : List ℤ} (htr : Tracks b.n b.test head seen) {k : Nat} (hk : 0 < k) :
    Tracks b.n ((b.lsh k).setBit 0).test (head + k) ((head + k) :: seen) :=
  htr.advance hk fun i hi => by
    rw [test_setBit _ (by rw [n_lsh]; omega),
      test_lsh_of_maskCovers _ hcov (by omega) hi]

theorem tracks_setBit {head : ℤ} {seen : List ℤ} (htr : Tracks b.n b.test head seen) {d : Nat} (hd : d < b.n) :
    Tracks b.n (b.setBit d).test head ((head - d) :: seen) :=
  htr.mark hd fun i _ => test_setBit b hd i

/-- A mask that cuts the window forgets its lowest position as soon as the head reaches the other end. -/
theorem bit_of_not_maskCovers {w : Nat} (hcov : ¬ MaskCovers w) :
    (((((new w).lsh 1).setBit 0).lsh (w - 1)).setBit 0).bit (w - 1) = 0 := by
  have hw : 32 < w := by
    unfold MaskCovers at hcov
    omega
  have hcut := test_lsh_of_not_maskCovers (((new w).lsh 1).setBit 0) (by simpa using hcov) (k := w - 1) (by omega)
  by_contra hbit
  have htest := ((bit_ne_zero_iff _ _).mp hbit).2
  rw [test_setBit _ (by simp; omega)] at htest
  simp only [n_setBit, n_lsh, n_new] at hcut
  simp [hcut] at htest
  omega

end FixedBigInt

/-! ## `SlidingWindowDetector` -/

namespace SlidingWindowDetector

variable {w max : Nat} {t : Trial SlidingWindowDetector}

/-- The calls on a `SlidingWindowDetector`: a number is its own position. -/
def step : Trial SlidingWindowDetector → Call → Trial SlidingWindowDetector :=
  Trial.step check accept fun _ s => s

/-- Within `w - 1` of the highest number accepted, exactly the numbers not accepted are reported
    valid. -/
def Exact (w max : Nat) (t : Trial SlidingWindowDetector) : Prop :=
  ∀ h, t.history = some h → ∀ s : Nat, s ≤ max → |(s : ℤ) - h.head| < w →
    ((t.det.check s).1 = true ↔ (s : ℤ) ∉ h.seen)

theorem check_fst_iff (d : SlidingWindowDetector) (s : Nat) :
    (d.check s).1 = true ↔ s ≤ d.maxSeq ∧ (s ≤ d.latestSeq →
      d.latestSeq < u64 (d.windowSize + s) ∧ d.mask.bit (d.latestSeq - s) = 0) := by
  simp only [check]
  split
  · simp; omega
  · split
    · simp; omega
    · split
      · simp; omega
      · simp; omega

theorem check_snd (d : SlidingWindowDetector) (s : Nat) :
    (d.check s).2 = if (d.check s).1 then { d with accepted := true, seq := s }
      else { d with accepted := false } := by
  simp only [check]
  split
  · rfl
  · split
    · rfl
    · split <;> rfl

/-- What relates a detector of window `w` up to `max` to the calls made on it. -/
structure Inv (w max : Nat) (t : Trial SlidingWindowDetector) : Prop where
  windowSize : t.det.windowSize = w
  maxSeq : t.det.maxSeq = max
  latest_le : t.det.latestSeq ≤ max
  idle : t.pending = none → t.det.accepted = false
  pending : ∀ s, t.pending = some s → t.det.accepted = true ∧ t.det.seq = s ∧ s ≤ max ∧
    t.det.latestSeq < s + w
  fresh : t.history = none → t.det.latestSeq = 0 ∧ ∀ i, t.det.mask.test i = false
  tracks : ∀ h, t.history = some h → h.head = t.det.latestSeq ∧ h.head ∈ h.seen ∧
    Tracks w t.det.mask.test h.head h.seen

theorem inv_start (w max : Nat) : Inv w max (Trial.start (new w max)) where
  windowSize := rfl
  maxSeq := rfl
  latest_le := Nat.zero_le _
  idle := fun _ => rfl
  pending := by simp [Trial.start]
  fresh := fun _ => ⟨rfl, fun i => FixedBigInt.test_new w i⟩
  tracks := by simp [Trial.start]

theorem lt_u64_add_iff (hmax : max + w ≤ 2 ^ 64) {latest s : Nat} (hs : s ≤ latest) (hlatest : latest ≤ max) :
    latest < u64 (w + s) ↔ latest < w + s ∧ w + s < 2 ^ 64 := by
  unfold u64
  rcases Nat.lt_or_ge (w + s) (2 ^ 64) with hlt | hge
  · rw [Nat.mod_eq_of_lt hlt]
    omega
  · have heq : w + s = 2 ^ 64 := by omega
    rw [heq]
    simp

theorem Inv.exact (hmax : max + w ≤ 2 ^ 64) (hinv : Inv w max t) : Exact w max t := by
  intro h hh s hs hnear
  obtain ⟨hhead, hmem, htr⟩ := hinv.tracks h hh
  obtain ⟨hlow, hhigh⟩ := abs_lt.mp hnear
  rw [check_fst_iff, hinv.maxSeq, hinv.windowSize]
  by_cases hle : s ≤ t.det.latestSeq
  · have hpos : h.head - ((t.det.latestSeq - s : Nat) : ℤ) = s := by omega
    have hbit := htr.bit_iff (t.det.latestSeq - s) (by omega)
    have hzero := t.det.mask.bit_ne_zero_iff (t.det.latestSeq - s)
    rw [hpos] at hbit
    rw [t.det.mask_n, hinv.windowSize, hbit] at hzero
    rw [lt_u64_add_iff hmax hle hinv.latest_le]
    constructor
    · rintro ⟨-, hvalid⟩ hseen
      exact hzero.mpr ⟨by omega, hseen⟩ (hvalid hle).2
    · intro hseen
      refine ⟨hs, fun _ => ⟨⟨by omega, ?_⟩, ?_⟩⟩
      · -- the sum reaches `2 ^ 64` at the head only, and the head has been accepted
        by_contra hwrap
        have hlatest := hinv.latest_le
        have : (s : ℤ) = h.head := by omega
        exact hseen (this ▸ hmem)
      · by_contra hne
        exact hseen (hzero.mp hne).2
  · have hnot : (s : ℤ) ∉ h.seen := by
      intro hseen
      have := htr.le_head _ hseen
      omega
    exact iff_of_true ⟨hs, fun hle' => absurd hle' hle⟩ hnot

theorem inv_check (hmax : max + w ≤ 2 ^ 64) (hinv : Inv w max t) (s : Nat) : Inv w max (step t (.check s)) := by
  have hsnd := check_snd t.det s
  have hfst := check_fst_iff t.det s
  rw [hinv.maxSeq, hinv.windowSize] at hfst
  unfold step Trial.step
  by_cases hok : (t.det.check s).1 = true
  · obtain ⟨hs, hvalid⟩ := hfst.mp hok
    rw [if_pos hok] at hsnd
    have hwin : t.det.latestSeq < s + w := by
      by_cases hle : s ≤ t.det.latestSeq
      · have := ((lt_u64_add_iff hmax hle hinv.latest_le).mp (hvalid hle).1).1
        omega
      · omega
    simp only [hsnd, hok, if_true]
    refine { hinv with idle := by simp, pending := ?_ }
    rintro s' hs'
    obtain rfl := Option.some.inj hs'
    exact ⟨rfl, rfl, hs, hwin⟩
  · rw [if_neg hok] at hsnd
    simp only [hsnd, hok]
    exact { hinv with idle := by simp, pending := by simp }

theorem accept_eq {d : SlidingWindowDetector} (hacc : d.accepted = true)
    (hdiff : d.latestSeq - d.seq < d.maxSeq) :
    (d.latestSeq < d.seq ∧ d.accept = { d with
        mask := (d.mask.lsh (d.seq - d.latestSeq)).setBit 0
        mask_n := by rw [FixedBigInt.n_setBit, FixedBigInt.n_lsh, d.mask_n]
        latestSeq := d.seq }) ∨
    (d.seq ≤ d.latestSeq ∧ d.accept = { d with
        mask := d.mask.setBit (d.latestSeq - d.seq)
        mask_n := by rw [FixedBigInt.n_setBit, d.mask_n] }) := by
  by_cases hlt : d.latestSeq < d.seq
  · left
    simp [accept, advance, hacc, hlt]
  · right
    simp [accept, advance, hacc, hlt, Nat.mod_eq_of_lt hdiff, Nat.le_of_not_lt hlt]

theorem Inv.tracks_positions (hinv : Inv w max t) :
    Tracks t.det.mask.n t.det.mask.test t.det.latestSeq (positions t.history) := by
  rw [t.det.mask_n, hinv.windowSize]
  cases hh : t.history with
  | none => exact Tracks.empty (fun i _ => (hinv.fresh hh).2 i) _
  | some h =>
    obtain ⟨hhead, -, htr⟩ := hinv.tracks h hh
    rwa [hhead] at htr

theorem Inv.record_eq (hinv : Inv w max t) (s : Nat) :
    record (fun _ s => s) t.history s =
      ⟨((Max.max t.det.latestSeq s : Nat) : ℤ), (s : ℤ) :: positions t.history⟩ := by
  cases hh : t.history with
  | none => simp [record, positions, (hinv.fresh hh).1]
  | some h => simp [record, positions, (hinv.tracks h hh).1]

theorem inv_accept (hw : 1 ≤ w) (hmax2 : 2 * w ≤ max)
    (hcov : FixedBigInt.MaskCovers w) (hinv : Inv w max t) : Inv w max (step t .accept) := by
  cases hpend : t.pending with
  | none => rwa [step, Trial.step_accept_of_idle (by simp [accept, hinv.idle hpend]) hpend]
  | some s =>
    obtain ⟨hacc, rfl, hs, hwin⟩ := hinv.pending s hpend
    have hlatest := hinv.latest_le
    have hmaxSeq := hinv.maxSeq
    have hsize := hinv.windowSize
    have hn : t.det.mask.n = w := by rw [t.det.mask_n, hsize]
    have htr := hinv.tracks_positions
    rw [step, Trial.step_accept_of_pending hpend, hinv.record_eq]
    rcases accept_eq hacc (by omega) with ⟨hlt, heq⟩ | ⟨hle, heq⟩
    · have hadv := FixedBigInt.tracks_lsh (by rwa [hn]) (by omega) htr
        (k := t.det.seq - t.det.latestSeq) (by omega)
      have hpos : (t.det.latestSeq : ℤ) + ((t.det.seq - t.det.latestSeq : Nat) : ℤ) = t.det.seq := by
        omega
      rw [hpos, hn] at hadv
      rw [heq, Nat.max_eq_right (Nat.le_of_lt hlt)]
      refine ⟨hsize, hmaxSeq, hs, by simp, ?_, by simp, ?_⟩
      · rintro s' hs'
        obtain rfl := Option.some.inj hs'
        exact ⟨hacc, rfl, hs, by simp only; omega⟩
      · rintro h hh
        obtain rfl := Option.some.inj hh
        exact ⟨rfl, List.mem_cons_self, hadv⟩
    · have hpos : (t.det.latestSeq : ℤ) - ((t.det.latestSeq - t.det.seq : Nat) : ℤ) = t.det.seq := by
        omega
      have hmark := FixedBigInt.tracks_setBit htr (d := t.det.latestSeq - t.det.seq) (by omega)
      rw [hpos, hn] at hmark
      rw [heq, Nat.max_eq_left hle]
      refine ⟨hsize, hmaxSeq, hlatest, by simp, ?_, by simp, ?_⟩
      · rintro s' hs'
        obtain rfl := Option.some.inj hs'
        exact ⟨hacc, rfl, hs, hwin⟩
      · rintro h hh
        obtain rfl := Option.some.inj hh
        refine ⟨rfl, ?_, hmark⟩
        cases hh' : t.history with
        | none =>
          have := (hinv.fresh hh').1
          simp [positions]
          omega
        | some h =>
          obtain ⟨hhead, hmem, -⟩ := hinv.tracks h hh'
          simp only [positions, ← hhead]
          exact List.mem_cons_of_mem _ hmem

theorem inv_run (hw : 1 ≤ w) (hmax2 : 2 * w ≤ max) (hcov : FixedBigInt.MaskCovers w)
    (hmax : max + w ≤ 2 ^ 64) (calls : List Call) : Inv w max (run step (Trial.start (new w max)) calls) := by
  refine inv_run_of_step step ?_ (inv_start w max) calls
  rintro t (s | _) hinv
  · exact inv_check hmax hinv s
  · exact inv_accept hw hmax2 hcov hinv

theorem run_accept_above {s : Nat} (hs : s ≤ t.det.maxSeq) (hlt : t.det.latestSeq < s) :
    run step t [.check s, .accept] =
      ⟨{ t.det with
          accepted := true
          seq := s
          latestSeq := s
          mask := (t.det.mask.lsh (s - t.det.latestSeq)).setBit 0
          mask_n := by rw [FixedBigInt.n_setBit, FixedBigInt.n_lsh, t.det.mask_n] },
        some s, some (record (fun _ s => s) t.history s)⟩ := by
  have hok : (t.det.check s).1 = true :=
    (check_fst_iff t.det s).mpr ⟨hs, fun hle => absurd hle (Nat.not_le.mpr hlt)⟩
  have hsnd := check_snd t.det s
  rw [if_pos hok] at hsnd
  rw [run_cons, run_cons, run_nil, step, Trial.step_accept_of_pending (s := s) (by simp [Trial.step, hok])]
  simp only [Trial.step, hsnd]
  simp [accept, advance, hlt]

/-- A window whose size the mask cuts forgets its lowest position as soon as the head reaches the
    other end: `1` is accepted, then `w`, then `1` is reported valid again. -/
theorem not_exact_of_not_maskCovers (hmax2 : 2 * w ≤ max) (hmax : max < 2 ^ 64)
    (hcov : ¬ FixedBigInt.MaskCovers w) :
    ¬ Exact w max (run step (Trial.start (new w max))
      [.check 1, .accept, .check w, .accept]) := by
  have hw : 32 < w := by
    unfold FixedBigInt.MaskCovers at hcov
    omega
  have hone := run_accept_above (t := Trial.start (new w max)) (s := 1)
    (by change 1 ≤ max; omega) (by change 0 < 1; omega)
  have htwo := run_accept_above (t := run step (Trial.start (new w max)) [.check 1, .accept])
    (s := w) (by rw [hone]; change w ≤ max; omega) (by rw [hone]; change 1 < w; omega)
  rw [← run_append, hone] at htwo
  intro hexact
  have hvalid := hexact _ (congrArg Trial.history htwo) 1 (by omega) (by
    simp only [record, Trial.start]
    rw [abs_lt]
    omega)
  rw [show [Call.check 1, .accept, .check w, .accept] = [.check 1, .accept] ++ [.check w, .accept]
    from rfl, htwo, check_fst_iff] at hvalid
  refine absurd (hvalid.mp ⟨?_, fun _ => ⟨?_, ?_⟩⟩) ?_
  · change 1 ≤ max
    omega
  · change w < u64 (w + 1)
    unfold u64
    omega
  · exact FixedBigInt.bit_of_not_maskCovers hcov
  · simp [record, Trial.start]

/-- Next to `2 ^ 64` the guard of `check` wraps, and the numbers below an accepted `max` are
    rejected. -/
theorem not_exact_of_overflow (hmax2 : 2 * w ≤ max) (hmax : max < 2 ^ 64) (hover : 2 ^ 64 < max + w) :
    ¬ Exact w max (run step (Trial.start (new w max)) [.check max, .accept]) := by
  have hone := run_accept_above (t := Trial.start (new w max)) (s := max)
    (by change max ≤ max; omega) (by change 0 < max; omega)
  intro hexact
  have hvalid := hexact _ (congrArg Trial.history hone) (max - 1) (by omega) (by
    simp only [record, Trial.start]
    rw [abs_lt]
    omega)
  rw [hone, check_fst_iff] at hvalid
  have hguard := ((hvalid.mpr (by simp [record, Trial.start]; omega)).2 (by simp)).1
  change max < u64 (w + (max - 1)) at hguard
  unfold u64 at hguard
  omega

theorem exact_iff (hw : 1 ≤ w) (hmax2 : 2 * w ≤ max) (hmax : max < 2 ^ 64) :
    (∀ calls, Exact w max (run step (Trial.start (new w max)) calls)) ↔
      FixedBigInt.MaskCovers w ∧ max + w ≤ 2 ^ 64 := by
  constructor
  · intro hexact
    refine ⟨?_, ?_⟩
    · by_contra hcov
      exact not_exact_of_not_maskCovers hmax2 hmax hcov (hexact _)
    · by_contra hover
      exact not_exact_of_overflow hmax2 hmax (by omega) (hexact _)
  · rintro ⟨hcov, hsum⟩ calls
    exact (inv_run hw hmax2 hcov hsum calls).exact hsum

end SlidingWindowDetector
end Rtc.Shared
