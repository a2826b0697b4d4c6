import Rtc.Shared.Proofs.WrappedWindow

/-!
# Rotating the sequence numbers

For `max_seq = 2 ^ k - 1` the verdicts of the wrapped detector should depend on differences modulo `2 ^ k` only. A
number that lies half the space behind the head, or half the space and one, is folded to either side of it, though,
depending on the plain difference. Runs without such numbers, and only those, have the same verdicts under every
rotation.
-/

namespace Rtc.Shared
open Runs

/-- The call with its number moved on by `r` modulo `2 ^ k`. -/
def Call.rotate (k r : Nat) : Call → Call
  | .check s => .check ((s + r) % 2 ^ k)
  | .accept => .accept

namespace WrappedSlidingWindowDetector

variable {k r w : Nat} {d d' : WrappedSlidingWindowDetector} {latest s : Nat}

def call (d : WrappedSlidingWindowDetector) : Call → WrappedSlidingWindowDetector
  | .check s => (d.check s).2
  | .accept => d.accept

/-- What the `check` calls of a run report. -/
def verdicts (d : WrappedSlidingWindowDetector) : List Call → List Bool
  | [] => []
  | .check s :: calls => (d.check s).1 :: verdicts (d.call (.check s)) calls
  | .accept :: calls => verdicts (d.call .accept) calls

/-- The distance `δ` behind the head is folded in one way only. -/
def Settled (k : Nat) (δ : ℤ) : Prop := k < 64 → δ ≠ 2 ^ (k - 1) ∧ δ ≠ 2 ^ (k - 1) + 1

instance (k : Nat) (δ : ℤ) : Decidable (Settled k δ) := inferInstanceAs (Decidable (_ → _))

/-- No number is checked that lies half the space, or half the space and one, behind the head. -/
def ChecksSettled (k : Nat) (d : WrappedSlidingWindowDetector) : Call → Prop
  | .check s => Settled k (back (2 ^ k - 1) (d.ready s).latestSeq s)
  | .accept => True

instance (k : Nat) (d : WrappedSlidingWindowDetector) : (c : Call) → Decidable (ChecksSettled k d c)
  | .check _ => inferInstanceAs (Decidable (Settled _ _))
  | .accept => inferInstanceAs (Decidable True)

/-! ## The folded difference -/

theorem two_pow_eq (hk : 1 ≤ k) : (2 : ℤ) ^ k = 2 * 2 ^ (k - 1) ∧ (1 : ℤ) ≤ 2 ^ (k - 1) := by
  obtain ⟨j, rfl⟩ := Nat.exists_eq_add_of_le' hk
  refine ⟨by rw [Nat.add_sub_cancel, pow_succ, mul_comm], ?_⟩
  exact one_le_pow₀ (by decide)

theorem cast_max (k : Nat) : ((2 ^ k - 1 : Nat) : ℤ) = 2 ^ k - 1 := by
  rw [Nat.cast_sub Nat.one_le_two_pow]
  simp

/-- The folded difference where it is settled; the space of two numbers has 2 for 0. -/
def folded (k : Nat) (δ : ℤ) : ℤ :=
  if 2 ^ (k - 1) ≤ δ then δ - 2 ^ k else if k = 1 then δ + 2 ^ k else δ

theorem wrapDiff_of_settled (hk : 1 ≤ k) (hk64 : k ≤ 64) (hlatest : latest < 2 ^ k) (hs : s < 2 ^ k)
    (hsettled : Settled k (back (2 ^ k - 1) latest s)) :
    wrapDiff (2 ^ k - 1) latest s = folded k (back (2 ^ k - 1) latest s) := by
  obtain ⟨hpow, hhalf⟩ := two_pow_eq hk
  have hmax := cast_max k
  have hone : k = 1 ↔ (2 : ℤ) ^ (k - 1) = 1 := by
    refine ⟨fun h => by rw [h]; rfl, fun h => ?_⟩
    by_contra hne
    have hlt : (2 : ℤ) ^ 0 < 2 ^ (k - 1) := pow_lt_pow_right₀ (by decide) (by omega)
    omega
  have hl : (latest : ℤ) < 2 ^ k := by exact_mod_cast hlatest
  have hs' : (s : ℤ) < 2 ^ k := by exact_mod_cast hs
  rcases Nat.lt_or_ge k 64 with hlt | hge
  · obtain ⟨hne, hne'⟩ := hsettled hlt
    have hfit : 2 ^ k - 1 + 1 ≤ 2 ^ 63 := by
      rw [Nat.sub_add_cancel Nat.one_le_two_pow]
      exact Nat.pow_le_pow_right (by decide) (by omega)
    rw [wrapDiff_eq hfit (by omega) (by omega), hmax]
    rw [back_eq (by omega) (by omega), hmax] at hne hne' ⊢
    simp only [folded, hone]
    split at hne <;> split_ifs <;> omega
  · obtain rfl : k = 64 := by omega
    have hdiff : wrapDiff (2 ^ 64 - 1) latest s = Int.bmod ((latest : ℤ) - s) (2 ^ 64) := by
      have hzero : u64 (2 ^ 64 - 1 + 1) = 0 := rfl
      have hmax64 : (i64 (2 ^ 64 - 1 : Nat)).tdiv 2 = 0 := by decide
      simp only [wrapDiff, hzero, hmax64]
      unfold i64
      simp only [Int.bmod_sub_bmod, Int.sub_bmod_bmod, Nat.cast_zero, Int.zero_bmod, Int.sub_zero,
        Int.add_zero, Int.bmod_bmod, ite_self]
    rw [hdiff, Int.bmod_def, back, hmax, folded]
    norm_num
    split_ifs <;> omega

theorem wrapDiff_of_not_settled (hk : 1 ≤ k) (hlatest : latest < 2 ^ k) (hs : s < 2 ^ k)
    (hopen : ¬ Settled k (back (2 ^ k - 1) latest s)) :
    wrapDiff (2 ^ k - 1) latest s =
      if s ≤ latest then back (2 ^ k - 1) latest s - 2 ^ k else back (2 ^ k - 1) latest s := by
  obtain ⟨hpow, hhalf⟩ := two_pow_eq hk
  have hmax := cast_max k
  have hl : (latest : ℤ) < 2 ^ k := by exact_mod_cast hlatest
  have hs' : (s : ℤ) < 2 ^ k := by exact_mod_cast hs
  unfold Settled at hopen
  push Not at hopen
  obtain ⟨hlt, hopen⟩ := hopen
  have hfit : 2 ^ k - 1 + 1 ≤ 2 ^ 63 := by
    rw [Nat.sub_add_cancel Nat.one_le_two_pow]
    exact Nat.pow_le_pow_right (by decide) (by omega)
  rw [wrapDiff_eq hfit (by omega) (by omega), hmax]
  rw [back_eq (by omega) (by omega), hmax] at hopen ⊢
  split_ifs at hopen ⊢ <;> omega

theorem back_rotate (k r latest s : Nat) :
    back (2 ^ k - 1) ((latest + r) % 2 ^ k) ((s + r) % 2 ^ k) = back (2 ^ k - 1) latest s := by
  unfold back
  rw [cast_max, sub_add_cancel]
  push_cast
  rw [← Int.sub_emod, add_sub_add_right_eq_sub]

/-! ## Rotated detectors -/

/-- `d'` is `d` with its numbers moved on by `r`. -/
structure Rotated (k r : Nat) (d d' : WrappedSlidingWindowDetector) : Prop where
  max_eq : d.maxSeq = 2 ^ k - 1
  max_eq' : d'.maxSeq = 2 ^ k - 1
  size_eq : d'.windowSize = d.windowSize
  mask_eq : d'.mask = d.mask
  init_eq : d'.init = d.init
  accepted_eq : d'.accepted = d.accepted
  latest : d.init = true → d.latestSeq < 2 ^ k ∧ d'.latestSeq = (d.latestSeq + r) % 2 ^ k
  pending : d.accepted = true → d.init = true ∧ d.seq < 2 ^ k ∧ d'.seq = (d.seq + r) % 2 ^ k ∧
    Settled k (back (2 ^ k - 1) d.latestSeq d.seq)

theorem Rotated.new (k r w : Nat) : Rotated k r (new w (2 ^ k - 1)) (new w (2 ^ k - 1)) :=
  ⟨rfl, rfl, rfl, rfl, rfl, rfl, nofun, nofun⟩

/-- The head that a number is compared with moves on too, also the one that the first `check` sets up. -/
theorem Rotated.ready (h : Rotated k r d d') (hs : s < 2 ^ k) :
    (d.ready s).latestSeq < 2 ^ k ∧
      (d'.ready ((s + r) % 2 ^ k)).latestSeq = ((d.ready s).latestSeq + r) % 2 ^ k := by
  by_cases hinit : d.init = true
  · rw [ready_latestSeq_of_init hinit, ready_latestSeq_of_init (h.init_eq.trans hinit)]
    exact h.latest hinit
  · have hfirst : ∀ {d : WrappedSlidingWindowDetector} {s : Nat}, d.init ≠ true → s < 2 ^ k →
        d.maxSeq = 2 ^ k - 1 → (d.ready s).latestSeq = (s + (2 ^ k - 1)) % 2 ^ k := by
      intro d s hinit hs hmax
      have hpos : 0 < 2 ^ k := Nat.two_pow_pos k
      rw [WrappedSlidingWindowDetector.ready, start, if_neg hinit]
      dsimp only
      split
      case isTrue hne =>
        rw [show s + (2 ^ k - 1) = s - 1 + 2 ^ k by omega, Nat.add_mod_right, Nat.mod_eq_of_lt (by omega)]
      case isFalse hzero =>
        rw [not_not.mp hzero, hmax, Nat.zero_add, Nat.mod_eq_of_lt (by omega)]
    have hpos : 0 < 2 ^ k := Nat.two_pow_pos k
    rw [hfirst hinit hs h.max_eq,
      hfirst (by rw [h.init_eq]; exact hinit) (Nat.mod_lt _ hpos) h.max_eq', Nat.mod_add_mod, Nat.mod_add_mod]
    exact ⟨Nat.mod_lt _ hpos, congrArg (· % 2 ^ k) (by omega)⟩

theorem Rotated.check (h : Rotated k r d d') (hk : 1 ≤ k) (hk64 : k ≤ 64) (hs : s < 2 ^ k)
    (hsettled : ChecksSettled k d (.check s)) :
    (d'.check ((s + r) % 2 ^ k)).1 = (d.check s).1 ∧
      Rotated k r (d.check s).2 (d'.check ((s + r) % 2 ^ k)).2 := by
  obtain ⟨hlatest, hready⟩ := h.ready hs
  have hpos : 0 < 2 ^ k := Nat.two_pow_pos k
  have hs' : (s + r) % 2 ^ k < 2 ^ k := Nat.mod_lt _ hpos
  have hback := back_rotate k r (d.ready s).latestSeq s
  rw [← hready] at hback
  have hdiff : wrapDiff (2 ^ k - 1) (d'.ready ((s + r) % 2 ^ k)).latestSeq ((s + r) % 2 ^ k) =
      wrapDiff (2 ^ k - 1) (d.ready s).latestSeq s := by
    rw [wrapDiff_of_settled hk hk64 hlatest hs hsettled, ← hback]
    refine wrapDiff_of_settled hk hk64 ?_ hs' (hback ▸ hsettled)
    rw [hready]
    exact Nat.mod_lt _ hpos
  have hverdict : (d'.check ((s + r) % 2 ^ k)).1 = (d.check s).1 := by
    rw [Bool.eq_iff_iff, check_fst_iff, check_fst_iff, h.max_eq, h.max_eq', h.size_eq, h.mask_eq, hdiff]
    exact and_congr_left fun _ => iff_of_true (by omega) (by omega)
  refine ⟨hverdict, ?_⟩
  have hnext := check_snd d s
  have hnext' := check_snd d' ((s + r) % 2 ^ k)
  rw [if_neg (by rw [h.max_eq]; omega)] at hnext
  rw [if_neg (by rw [h.max_eq']; omega), hverdict] at hnext'
  rw [hnext, hnext']
  split
  · refine ⟨by simp [h.max_eq], by simp [h.max_eq'], by simp [h.size_eq], by simp [h.mask_eq], by simp, rfl,
      fun _ => ⟨hlatest, hready⟩, fun _ => ⟨by simp, hs, rfl, hsettled⟩⟩
  · refine ⟨by simp [h.max_eq], by simp [h.max_eq'], by simp [h.size_eq], by simp [h.mask_eq], by simp,
      by simp, fun _ => ⟨hlatest, hready⟩, ?_⟩
    intro hacc
    simp at hacc

theorem Rotated.accept (h : Rotated k r d d') (hk : 1 ≤ k) (hk64 : k ≤ 64) : Rotated k r d.accept d'.accept := by
  by_cases hacc : d.accepted = true
  · obtain ⟨hinit, hseq, hseq', hsettled⟩ := h.pending hacc
    obtain ⟨hlatest, hlatest'⟩ := h.latest hinit
    have hpos : 0 < 2 ^ k := Nat.two_pow_pos k
    have hback := back_rotate k r d.latestSeq d.seq
    have hdiff : wrapDiff d'.maxSeq d'.latestSeq d'.seq = wrapDiff d.maxSeq d.latestSeq d.seq := by
      rw [h.max_eq, h.max_eq', hlatest', hseq', wrapDiff_of_settled hk hk64 hlatest hseq hsettled, ← hback]
      exact wrapDiff_of_settled hk hk64 (Nat.mod_lt _ hpos) (Nat.mod_lt _ hpos) (hback ▸ hsettled)
    have hself : Settled k (back (2 ^ k - 1) d.seq d.seq) := by
      obtain ⟨-, hhalf⟩ := two_pow_eq hk
      rw [Settled, back, sub_self, Int.zero_emod]
      omega
    rcases accept_eq hacc with ⟨hneg, heq⟩ | ⟨hnonneg, heq⟩
    · rcases accept_eq (h.accepted_eq.trans hacc) with ⟨-, heq'⟩ | ⟨hnonneg, -⟩
      · rw [heq, heq']
        refine ⟨h.max_eq, h.max_eq', h.size_eq, ?_, h.init_eq, h.accepted_eq, fun _ => ⟨hseq, hseq'⟩,
          fun _ => ⟨hinit, hseq, hseq', hself⟩⟩
        dsimp only
        rw [hdiff, h.mask_eq]
      · rw [hdiff] at hnonneg
        exact absurd hneg (Int.not_lt.mpr hnonneg)
    · rcases accept_eq (h.accepted_eq.trans hacc) with ⟨hneg, -⟩ | ⟨-, heq'⟩
      · rw [hdiff] at hneg
        exact absurd hneg (Int.not_lt.mpr hnonneg)
      · rw [heq, heq']
        refine ⟨h.max_eq, h.max_eq', h.size_eq, ?_, h.init_eq, h.accepted_eq, h.latest, h.pending⟩
        dsimp only
        rw [hdiff, h.mask_eq]
  · have hidle : ∀ d : WrappedSlidingWindowDetector, d.accepted ≠ true → d.accept = d := fun d hd =>
      if_neg hd
    rw [hidle d hacc, hidle d' (by rw [h.accepted_eq]; exact hacc)]
    exact h

/-- A number that is not settled is taken for one ahead of the head by some rotation and for one too old by
    another. -/
theorem exists_verdicts {D : Nat → WrappedSlidingWindowDetector} (h : ∀ r, Rotated k r d (D r)) (hk : 1 ≤ k)
    (hw : d.windowSize < 2 ^ (k - 1)) (hs : s < 2 ^ k) (hopen : ¬ ChecksSettled k d (.check s)) :
    ∃ r r', ((D r).check ((s + r) % 2 ^ k)).1 = false ∧ ((D r').check ((s + r') % 2 ^ k)).1 = true := by
  obtain ⟨hpow, hhalf⟩ := two_pow_eq hk
  have hpos : 0 < 2 ^ k := Nat.two_pow_pos k
  have hlatest := ((h 0).ready hs).1
  have hk63 : k < 64 := by
    by_contra hge
    exact hopen fun hlt => absurd hlt hge
  -- the verdict of the detector that is rotated by `r`
  have hverdict : ∀ r, ((D r).check ((s + r) % 2 ^ k)).1 = true ↔
      (s + r) % 2 ^ k ≤ ((d.ready s).latestSeq + r) % 2 ^ k := by
    intro r
    have hready := ((h r).ready hs).2
    have hback := back_rotate k r (d.ready s).latestSeq s
    have hrange : (s + r) % 2 ^ k < 2 ^ k := Nat.mod_lt _ hpos
    have hdiff := wrapDiff_of_not_settled hk (Nat.mod_lt ((d.ready s).latestSeq + r) hpos) hrange
      (hback ▸ hopen)
    have hlow : (2 : ℤ) ^ (k - 1) ≤ back (2 ^ k - 1) (d.ready s).latestSeq s := by
      by_contra hlt
      exact hopen fun _ => ⟨by omega, by omega⟩
    have hhigh := back_lt (2 ^ k - 1) (d.ready s).latestSeq s
    rw [cast_max] at hhigh
    have hsize : i64 d.windowSize < 2 ^ (k - 1) ∧ 0 ≤ i64 d.windowSize := by
      have hcast : (d.windowSize : ℤ) < 2 ^ (k - 1) := by exact_mod_cast hw
      have hle : (2 : ℤ) ^ (k - 1) ≤ 2 ^ 63 := pow_le_pow_right₀ (by decide) (by omega)
      rw [i64_of_lt (by omega) (by omega)]
      omega
    rw [check_fst_iff, (h r).max_eq', hready, (h r).size_eq, hdiff, hback]
    constructor
    · rintro ⟨-, hlt, -⟩
      by_contra hgt
      rw [if_neg hgt] at hlt
      linarith
    · intro hle
      rw [if_pos hle]
      exact ⟨by omega, by linarith, fun hnonneg => by linarith⟩
  have hne : (d.ready s).latestSeq ≠ s := by
    intro heq
    apply hopen
    change Settled k (back (2 ^ k - 1) (d.ready s).latestSeq s)
    rw [heq, Settled, back, sub_self, Int.zero_emod]
    omega
  -- the head at 0, and the head at the end of the space
  refine ⟨2 ^ k - (d.ready s).latestSeq, 2 ^ k - 1 - (d.ready s).latestSeq, ?_, ?_⟩
  · rw [Bool.eq_false_iff, ne_eq, hverdict, Nat.add_sub_cancel' hlatest.le, Nat.mod_self]
    intro hzero
    have hmod : (s + (2 ^ k - (d.ready s).latestSeq)) % 2 ^ k = 0 := Nat.le_zero.mp hzero
    rcases Nat.lt_or_ge s (d.ready s).latestSeq with hlt | hge
    · rw [Nat.mod_eq_of_lt (by omega)] at hmod
      omega
    · rw [Nat.mod_eq_sub_mod (by omega), Nat.mod_eq_of_lt (by omega)] at hmod
      omega
  · rw [hverdict, show (d.ready s).latestSeq + (2 ^ k - 1 - (d.ready s).latestSeq) = 2 ^ k - 1 by omega,
      Nat.mod_eq_of_lt (show 2 ^ k - 1 < 2 ^ k by omega)]
    have := Nat.mod_lt (s + (2 ^ k - 1 - (d.ready s).latestSeq)) hpos
    omega

theorem size_check (d : WrappedSlidingWindowDetector) (s : Nat) : (d.check s).2.windowSize = d.windowSize := by
  rw [check_snd]
  split
  · rfl
  · split <;> simp

theorem size_accept (d : WrappedSlidingWindowDetector) : d.accept.windowSize = d.windowSize := by
  by_cases hacc : d.accepted = true
  · rcases accept_eq hacc with ⟨-, heq⟩ | ⟨-, heq⟩ <;> rw [heq]
  · rw [show d.accept = d from if_neg hacc]

/-- The verdicts of a run are the same under every rotation exactly if every check of it is settled. -/
theorem verdicts_rotated_iff (hk : 1 ≤ k) (hk64 : k ≤ 64) {calls : List Call}
    (hcalls : ∀ s, .check s ∈ calls → s < 2 ^ k) {D : Nat → WrappedSlidingWindowDetector}
    (h : ∀ r, Rotated k r d (D r)) (hw : d.windowSize < 2 ^ (k - 1)) :
    (∀ r, verdicts (D r) (calls.map (Call.rotate k r)) = verdicts d calls) ↔
      Meets call (ChecksSettled k) d calls := by
  induction calls generalizing d D with
  | nil => simp [verdicts, Meets]
  | cons c calls ih =>
    have hrest : ∀ s, .check s ∈ calls → s < 2 ^ k := fun s hs => hcalls s (List.mem_cons_of_mem c hs)
    cases c with
    | accept =>
      have hnext := ih hrest (fun r => (h r).accept hk hk64) (by rw [size_accept]; exact hw)
      simpa [verdicts, Meets, Call.rotate, call, ChecksSettled] using hnext
    | check s =>
      have hs := hcalls s List.mem_cons_self
      simp only [List.map_cons, Call.rotate, verdicts, List.cons.injEq, Meets]
      by_cases hsettled : ChecksSettled k d (.check s)
      · have hcheck := fun r => (h r).check hk hk64 hs hsettled
        have hnext := ih hrest (fun r => (hcheck r).2) (by rw [size_check]; exact hw)
        simp only [(hcheck _).1, true_and, hsettled]
        exact hnext
      · simp only [hsettled, false_and, iff_false]
        intro hsame
        obtain ⟨r, r', hfalse, htrue⟩ := exists_verdicts h hk hw hs hsettled
        have hverdict := (hsame r).1.trans (hsame r').1.symm
        rw [hfalse, htrue] at hverdict
        cases hverdict

/-- A detector over the numbers modulo `2 ^ k` gives a run the same verdicts under every rotation exactly if
    no number of it lies half the space, or half the space and one, behind the head. -/
theorem rotation_invariant_iff (k w : Nat) (hk : 1 ≤ k) (hk64 : k ≤ 64) (hw : w < 2 ^ (k - 1))
    (calls : List Call) (hcalls : ∀ s, .check s ∈ calls → s < 2 ^ k) :
    (∀ r, verdicts (new w (2 ^ k - 1)) (calls.map (Call.rotate k r)) =
        verdicts (new w (2 ^ k - 1)) calls) ↔
      Meets call (ChecksSettled k) (new w (2 ^ k - 1)) calls :=
  verdicts_rotated_iff hk hk64 hcalls (fun r => .new k r w) hw

theorem rotation_invariant_16 :
    verdicts (new 64 (2 ^ 16 - 1))
        ([.check 65530, .accept, .check 5, .accept, .check 65530].map (Call.rotate 16 40000)) =
      verdicts (new 64 (2 ^ 16 - 1)) [.check 65530, .accept, .check 5, .accept, .check 65530] :=
  (rotation_invariant_iff 16 64 (by decide) (by decide) (by decide)
    [.check 65530, .accept, .check 5, .accept, .check 65530]
    (by simp)).mpr (by decide +kernel) 40000

/-- Half the space below the head: accepted at 40000, too old when the numbers are moved on to 0. -/
theorem half_space_depends_on_rotation :
    verdicts (new 64 (2 ^ 16 - 1)) [.check 40000, .accept, .check 7232] = [true, true] ∧
      verdicts (new 64 (2 ^ 16 - 1))
        ([.check 40000, .accept, .check 7232].map (Call.rotate 16 25536)) = [true, false] := by
  decide +kernel

end WrappedSlidingWindowDetector
end Rtc.Shared
