import Mathlib.Tactic

/-!
# Windows over the positions seen so far

The positions accepted so far, the highest of them, and a bitmap that answers for the last `w` positions. A counter that
wraps is placed on the integers by `unwrap`.
-/

namespace Rtc

/-- The positions accepted so far, with the highest of them. -/
structure SeenWindow where
  head : ℤ
  seen : List ℤ

namespace SeenWindow

/-- Record the acceptance of `s`, placed relative to the highest position so far. The first
    number accepted is its own position. -/
def record (place : ℤ → ℤ → ℤ) : Option SeenWindow → ℤ → SeenWindow
  | none, s => ⟨s, [s]⟩
  | some h, s => ⟨max h.head (place h.head s), place h.head s :: h.seen⟩

/-- The positions accepted so far, none before the first acceptance. -/
def positions : Option SeenWindow → List ℤ
  | none => []
  | some h => h.seen

/-- The position of the number `s` of a counter modulo `m` when the highest position is `head`:
    the one among the last `w` positions if there is one, else the next one above `head`. -/
def unwrap (w : Nat) (m : ℤ) (head s : ℤ) : ℤ :=
  let back := (head - s) % m
  if back < w then head - back else head - back + m

/-- The bitmap `bits` answers for the last `w` positions up to `head`. -/
structure Tracks (w : Nat) (bits : Nat → Bool) (head : ℤ) (seen : List ℤ) : Prop where
  le_head : ∀ p ∈ seen, p ≤ head
  bit_iff : ∀ i < w, bits i = true ↔ head - i ∈ seen

namespace Tracks

variable {w : Nat} {bits bits' : Nat → Bool} {head : ℤ} {seen : List ℤ}

theorem empty (hbits : ∀ i < w, bits i = false) (head : ℤ) : Tracks w bits head [] where
  le_head := by simp
  bit_iff := by
    intro i hi
    simp [hbits i hi]

theorem advance (ht : Tracks w bits head seen) {k : Nat} (hk : 0 < k)
    (hbits : ∀ i < w, bits' i = ((decide (k ≤ i) && bits (i - k)) || decide (i = 0))) :
    Tracks w bits' (head + k) ((head + k) :: seen) where
  le_head := by
    intro p hp
    rcases List.mem_cons.mp hp with rfl | hp
    · exact le_refl _
    · have := ht.le_head p hp
      omega
  bit_iff := by
    intro i hi
    rw [hbits i hi, List.mem_cons]
    by_cases hzero : i = 0
    · subst hzero
      simp
    · have hne : head + k - i ≠ head + k := by omega
      by_cases hki : k ≤ i
      · have hpos : head + k - i = head - ((i - k : Nat) : ℤ) := by omega
        simp only [hki, hzero, decide_true, decide_false, Bool.true_and, Bool.or_false, hne,
          false_or]
        rw [hpos]
        exact ht.bit_iff (i - k) (by omega)
      · -- positions above the old head have not been seen
        have habove : head + k - i ∉ seen := by
          intro hmem
          have := ht.le_head _ hmem
          omega
        simp [hki, hzero, habove]

theorem mark (ht : Tracks w bits head seen) {d : Nat} (hd : d < w)
    (hbits : ∀ i < w, bits' i = (bits i || decide (i = d))) :
    Tracks w bits' head ((head - d) :: seen) where
  le_head := by
    intro p hp
    rcases List.mem_cons.mp hp with rfl | hp
    · omega
    · exact ht.le_head p hp
  bit_iff := by
    intro i hi
    rw [hbits i hi, List.mem_cons, Bool.or_eq_true, ht.bit_iff i hi, decide_eq_true_eq]
    constructor
    · rintro (hmem | rfl)
      · exact Or.inr hmem
      · exact Or.inl rfl
    · rintro (hpos | hmem)
      · exact Or.inr (by omega)
      · exact Or.inl hmem

end Tracks

theorem unwrap_of_lt {w : Nat} {m head s : ℤ} (h : (head - s) % m < w) :
    unwrap w m head s = head - (head - s) % m := by
  simp [unwrap, h]

theorem unwrap_of_le {w : Nat} {m head s : ℤ} (h : (w : ℤ) ≤ (head - s) % m) :
    unwrap w m head s = head - (head - s) % m + m := by
  simp [unwrap, Int.not_lt.mpr h]

theorem unwrap_emod {w : Nat} {m head s : ℤ} (hs : 0 ≤ s) (hsm : s < m) : unwrap w m head s % m = s := by
  have hdvd : m ∣ head - (head - s) % m - s := by
    have := Int.dvd_sub_self_of_emod_eq (a := head - s) (b := m) rfl
    have hrw : head - (head - s) % m - s = -((head - s) % m - (head - s)) := by ring
    rw [hrw]
    exact (Int.dvd_neg).mpr this
  have hback : (head - (head - s) % m) % m = s := by
    rw [Int.emod_eq_emod_iff_emod_sub_eq_zero.mpr (Int.emod_eq_zero_of_dvd hdvd)]
    exact Int.emod_eq_of_lt hs hsm
  unfold unwrap
  dsimp only
  split
  · exact hback
  · rw [Int.add_emod_right]
    exact hback

end SeenWindow
end Rtc
