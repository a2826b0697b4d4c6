import Mathlib.Tactic

/-!
# Scanning the set bits of a word

`ones z` reads the lowest set bit with a trailing-zero count and clears it with `z &&& (z - 1)` until nothing is left.
It lists the set bits of `z` from the lowest up.
-/

namespace Rtc.BitScan

variable {w : Nat}

theorem toNat_eq_of_ne_zero {z : BitVec w} (hz : z ≠ 0#w) :
    z.toNat = 2 ^ (z.ctz.toNat + 1) * (z.toNat / 2 ^ (z.ctz.toNat + 1)) + 2 ^ z.ctz.toNat := by
  have hlow : z.toNat % 2 ^ (z.ctz.toNat + 1) = 2 ^ z.ctz.toNat := by
    apply Nat.eq_of_testBit_eq
    intro i
    rw [Nat.testBit_mod_two_pow, Nat.testBit_two_pow]
    rcases Nat.lt_trichotomy i z.ctz.toNat with hlt | heq | hgt
    · have hbit : z.toNat.testBit i = false := BitVec.getLsbD_false_of_lt_ctz hlt
      simp [hbit]
      omega
    · have hbit : z.toNat.testBit z.ctz.toNat = true := BitVec.getLsbD_true_ctz_of_ne_zero hz
      simp [heq, hbit]
    · rw [decide_eq_false (by omega), decide_eq_false (by omega), Bool.false_and]
  conv_lhs => rw [← Nat.div_add_mod z.toNat (2 ^ (z.ctz.toNat + 1)), hlow]

theorem getLsbD_and_sub_one {z : BitVec w} (hz : z ≠ 0#w) (i : Nat) :
    (z &&& (z - 1#w)).getLsbD i = (z.getLsbD i && decide (i ≠ z.ctz.toNat)) := by
  have hsplit := toNat_eq_of_ne_zero hz
  generalize z.ctz.toNat = t at *
  generalize z.toNat / 2 ^ (t + 1) = q at *
  have hpos : 0 < 2 ^ t := Nat.two_pow_pos t
  have hlt : 2 ^ t < 2 ^ (t + 1) := Nat.pow_lt_pow_right (by decide) (by omega)
  have hw : 1 % 2 ^ w = 1 := by
    have hz' := z.isLt
    exact Nat.mod_eq_of_lt (by omega)
  have hsub : (z - 1#w).toNat = 2 ^ (t + 1) * q + (2 ^ t - 1) := by
    rw [BitVec.toNat_sub_of_le, BitVec.toNat_ofNat, hw, hsplit]
    · omega
    · rw [BitVec.le_def, BitVec.toNat_ofNat, hw]
      omega
  rw [BitVec.getLsbD_and]
  unfold BitVec.getLsbD
  rw [hsub, hsplit, Nat.testBit_two_pow_mul_add _ hlt, Nat.testBit_two_pow_mul_add _ (by omega),
    Nat.testBit_two_pow, Nat.testBit_two_pow_sub_one]
  by_cases hi : i < t + 1
  · rw [if_pos hi, if_pos hi]
    by_cases hit : t = i
    · simp [hit]
    · simp [hit]
  · rw [if_neg hi, if_neg hi, Bool.and_self]
    simp [show i ≠ t by omega]

/-- At most `n` rounds of: take the lowest set bit, clear it. -/
def onesFrom : Nat → BitVec w → List Nat
  | 0, _ => []
  | n + 1, z => if z = 0#w then [] else z.ctz.toNat :: onesFrom n (z &&& (z - 1#w))

/-- The set bits of a word, from the lowest up. -/
def ones (z : BitVec w) : List Nat := onesFrom w z

theorem range_split {t : Nat} (ht : t < w) :
    List.range w = List.range t ++ t :: List.range' (t + 1) (w - t - 1) := by
  rw [List.range_eq_range', List.range_eq_range', ← List.range'_succ]
  have happ := @List.range'_append_1 0 t (w - t - 1 + 1)
  rw [Nat.zero_add] at happ
  rw [happ]
  congr 1
  omega

/-- Among the indices of the set bits the lowest comes first, and clearing it leaves the rest. -/
theorem filter_getLsbD_cons {z : BitVec w} (hz : z ≠ 0#w) :
    (List.range w).filter z.getLsbD =
      z.ctz.toNat :: (List.range w).filter (z &&& (z - 1#w)).getLsbD := by
  have hclear := getLsbD_and_sub_one hz
  have hbit : z.getLsbD z.ctz.toNat = true := BitVec.getLsbD_true_ctz_of_ne_zero hz
  have hlow : ∀ i < z.ctz.toNat, z.getLsbD i = false := fun i h => BitVec.getLsbD_false_of_lt_ctz h
  generalize z.ctz.toNat = t at *
  generalize z &&& (z - 1#w) = z' at *
  have ht : t < w := by
    by_contra hge
    rw [BitVec.getLsbD_of_ge _ _ (by omega)] at hbit
    cases hbit
  have hnone : (List.range t).filter z.getLsbD = [] := by
    rw [List.filter_eq_nil_iff]
    intro i hi
    rw [hlow i (List.mem_range.mp hi)]
    decide
  have hnone' : (List.range t).filter z'.getLsbD = [] := by
    rw [List.filter_eq_nil_iff]
    intro i hi
    rw [hclear, hlow i (List.mem_range.mp hi)]
    exact Bool.false_ne_true
  have hrest : (List.range' (t + 1) (w - t - 1)).filter z.getLsbD =
      (List.range' (t + 1) (w - t - 1)).filter z'.getLsbD := by
    apply List.filter_congr
    intro i hi
    have hle := (List.mem_range'_1.mp hi).1
    rw [hclear]
    simp [show i ≠ t by omega]
  rw [range_split ht, List.filter_append, List.filter_append, hnone, hnone', List.filter_cons_of_pos hbit,
    List.filter_cons_of_neg (by simp [hclear]), hrest]
  rfl

theorem onesFrom_eq_filter : ∀ (n : Nat) (z : BitVec w),
    ((List.range w).filter z.getLsbD).length ≤ n → onesFrom n z = (List.range w).filter z.getLsbD := by
  have hzero : (List.range w).filter (0#w).getLsbD = [] := by
    simp
  intro n
  induction n with
  | zero =>
    intro z hn
    exact (List.eq_nil_of_length_eq_zero (Nat.le_zero.mp hn)).symm
  | succ n ih =>
    intro z hn
    by_cases hz : z = 0#w
    · rw [onesFrom, if_pos hz, hz, hzero]
    · have hcons := filter_getLsbD_cons hz
      rw [hcons, List.length_cons] at hn
      rw [onesFrom, if_neg hz, hcons, ih _ (by omega)]

theorem ones_eq_filter (z : BitVec w) : ones z = (List.range w).filter z.getLsbD := by
  apply onesFrom_eq_filter
  exact (List.length_filter_le _ _).trans (by simp)

/-- The number of set bits. -/
def popcount (z : BitVec w) : Nat := (List.range w).countP z.getLsbD

theorem length_ones (z : BitVec w) : (ones z).length = popcount z := by
  rw [ones_eq_filter, popcount, List.countP_eq_length_filter]

theorem head?_ones (z : BitVec w) : (ones z).head? = if z = 0#w then none else some z.ctz.toNat := by
  by_cases hz : z = 0#w
  · simp [ones_eq_filter, hz]
  · rw [ones_eq_filter, filter_getLsbD_cons hz, if_neg hz]
    rfl

theorem ones_or_of_lt {z : BitVec w} {n : Nat} (hn : n < w) (hlow : ∀ i, z.getLsbD i = true → i < n) :
    ones (z ||| 1#w <<< n) = ones z ++ [n] := by
  have hbit : ∀ i, i < w → (z ||| 1#w <<< n).getLsbD i = (z.getLsbD i || decide (i = n)) := by
    intro i hi
    rw [BitVec.getLsbD_or, BitVec.getLsbD_shiftLeft, BitVec.getLsbD_one]
    congr 1
    rw [Bool.eq_iff_iff]
    simp only [Bool.and_eq_true, Bool.not_eq_true', decide_eq_true_eq, decide_eq_false_iff_not]
    omega
  have hhigh : ∀ i, n ≤ i → z.getLsbD i = false := by
    intro i hi
    by_contra hset
    have := hlow i (by simpa using hset)
    omega
  have hbelow : (List.range n).filter (z ||| 1#w <<< n).getLsbD =
      (List.range n).filter z.getLsbD := by
    apply List.filter_congr
    intro i hi
    have hi := List.mem_range.mp hi
    rw [hbit i (by omega), decide_eq_false (by omega), Bool.or_false]
  have habove : (List.range' (n + 1) (w - n - 1)).filter z.getLsbD = [] := by
    rw [List.filter_eq_nil_iff]
    intro i hi
    rw [hhigh i (by have := (List.mem_range'_1.mp hi).1; omega)]
    exact Bool.false_ne_true
  have habove' : (List.range' (n + 1) (w - n - 1)).filter (z ||| 1#w <<< n).getLsbD = [] := by
    rw [List.filter_eq_nil_iff]
    intro i hi
    have hi := List.mem_range'_1.mp hi
    rw [hbit i (by omega), hhigh i (by omega), decide_eq_false (by omega)]
    exact Bool.false_ne_true
  rw [ones_eq_filter, ones_eq_filter, range_split hn, List.filter_append, List.filter_append, hbelow,
    List.filter_cons_of_pos (by rw [hbit n hn]; simp), List.filter_cons_of_neg (by
      rw [hhigh n (Nat.le_refl n)]; exact Bool.false_ne_true), habove, habove', List.append_nil]

/-! ## Masks -/

theorem getLsbD_allOnes_shiftLeft {low i : Nat} (hi : i < w) :
    (BitVec.allOnes w <<< low).getLsbD i = decide (low ≤ i) := by
  rw [BitVec.getLsbD_shiftLeft, BitVec.getLsbD_allOnes]
  by_cases hlow : i < low
  · simp [hlow]
  · simp [hi, hlow, show i - low < w by omega]
    omega

theorem getLsbD_allOnes_ushiftRight {high i : Nat} (hhigh : high < w) :
    (BitVec.allOnes w >>> (w - 1 - high)).getLsbD i = decide (i ≤ high) := by
  rw [BitVec.getLsbD_ushiftRight, BitVec.getLsbD_allOnes]
  exact decide_eq_decide.mpr (by omega)

theorem exists_getLsbD (w : Nat) (p : Nat → Bool) : ∃ z : BitVec w, ∀ i < w, z.getLsbD i = p i := by
  induction w with
  | zero => exact ⟨0#0, nofun⟩
  | succ w ih =>
    obtain ⟨z, hz⟩ := ih
    refine ⟨BitVec.cons (p w) z, fun i hi => ?_⟩
    rw [BitVec.getLsbD_cons]
    split
    case isTrue heq => rw [heq]
    case isFalse hne => exact hz i (by omega)

end Rtc.BitScan
