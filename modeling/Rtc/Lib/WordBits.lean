import Mathlib.Tactic

/-!
# Bit strings held in 64-bit words

A list of words read as one little-endian bit string; reads past the last word are zero. `rewriteDown` replaces the
words one at a time from the top, and `testBit_rewriteDown_shiftWord` reads that loop as a shift of the bit string.
-/

namespace Rtc.WordBits

/-- Bit `j` of the little-endian bit string held in `ws`. -/
def testBit (ws : List (BitVec 64)) (j : Nat) : Bool :=
  (ws.getD (j / 64) 0#64).getLsbD (j % 64)

@[simp] theorem testBit_replicate_zero (k j : Nat) : testBit (List.replicate k 0#64) j = false := by
  unfold testBit
  rw [List.getD_eq_getElem?_getD, List.getElem?_replicate]
  split <;> simp

theorem and_shiftLeft_ne_zero (word : BitVec 64) {i : Nat} (hi : i < 64) :
    (word &&& 1#64 <<< i != 0#64) = word.getLsbD i := by
  rw [← BitVec.twoPow_eq, BitVec.and_twoPow]
  cases word.getLsbD i with
  | false => rfl
  | true =>
    have hne : BitVec.twoPow 64 i ≠ 0#64 := by
      intro hzero
      have hset := congrArg (fun x => x.getLsbD i) hzero
      simp [hi] at hset
    simpa using hne

theorem getD_set {ws : List (BitVec 64)} {i : Nat} (hi : i < ws.length) (w : BitVec 64)
    (k : Nat) : (ws.set i w).getD k 0#64 = if k = i then w else ws.getD k 0#64 := by
  rw [List.getD_eq_getElem?_getD, List.getElem?_set]
  by_cases hk : i = k
  · subst hk
    simp [hi]
  · have hk' : k ≠ i := fun heq => hk heq.symm
    simp [hk, hk', List.getD_eq_getElem?_getD]

theorem testBit_set_or {ws : List (BitVec 64)} {i : Nat} (h : i / 64 < ws.length) (j : Nat) :
    testBit (ws.set (i / 64) (ws.getD (i / 64) 0#64 ||| 1#64 <<< (i % 64))) j =
      (testBit ws j || decide (j = i)) := by
  have hi : i % 64 < 64 := Nat.mod_lt _ (by decide)
  have hj : j % 64 < 64 := Nat.mod_lt _ (by decide)
  unfold testBit
  rw [getD_set h]
  by_cases hword : j / 64 = i / 64
  · have hbit : decide (j = i) = decide (j % 64 = i % 64) := by
      apply decide_eq_decide.mpr
      omega
    rw [if_pos hword, hword, hbit, BitVec.getLsbD_or, BitVec.getLsbD_shiftLeft,
      BitVec.getLsbD_one]
    congr 1
    rw [Bool.eq_iff_iff]
    simp only [Bool.and_eq_true, Bool.not_eq_true', decide_eq_true_eq, decide_eq_false_iff_not]
    omega
  · have hne : j ≠ i := fun heq => hword (by rw [heq])
    rw [if_neg hword]
    simp [hne]

/-- Replace the words below index `n` from the top down, each by `f` of the list as it stands. -/
def rewriteDown (f : List (BitVec 64) → Nat → BitVec 64) :
    Nat → List (BitVec 64) → List (BitVec 64)
  | 0, ws => ws
  | n + 1, ws => rewriteDown f n (ws.set n (f ws n))

@[simp] theorem length_rewriteDown (f : List (BitVec 64) → Nat → BitVec 64) (n : Nat)
    (ws : List (BitVec 64)) : (rewriteDown f n ws).length = ws.length := by
  induction n generalizing ws with
  | zero => rfl
  | succ n ih => simp [rewriteDown, ih]

/-- When `f` reads only words at or below the one it replaces, the loop computes every word from
    the original list. -/
theorem getD_rewriteDown {f : List (BitVec 64) → Nat → BitVec 64}
    (hlow : ∀ ws ws' i, (∀ k ≤ i, ws.getD k 0#64 = ws'.getD k 0#64) → f ws i = f ws' i) :
    ∀ (n : Nat) (ws : List (BitVec 64)), n ≤ ws.length → ∀ k,
      (rewriteDown f n ws).getD k 0#64 = if k < n then f ws k else ws.getD k 0#64 := by
  intro n
  induction n with
  | zero => intro ws _ k; simp [rewriteDown]
  | succ n ih =>
    intro ws hn k
    have hget := getD_set (show n < ws.length by omega) (f ws n)
    rw [rewriteDown, ih _ (by simpa using Nat.le_of_succ_le hn)]
    by_cases hk : k < n
    · have hsame : f (ws.set n (f ws n)) k = f ws k := by
        apply hlow
        intro m hm
        rw [hget, if_neg (by omega)]
      rw [if_pos hk, if_pos (by omega), hsame]
    · rw [if_neg hk, hget]
      by_cases hkn : k = n
      · subst hkn
        simp
      · rw [if_neg hkn, if_neg (by omega)]

/-- The word at index `i` of `ws` shifted up by `n` bits. -/
def shiftWord (n : Nat) (ws : List (BitVec 64)) (i : Nat) : BitVec 64 :=
  let low := if n / 64 ≤ i then ws.getD (i - n / 64) 0#64 <<< (n % 64) else 0#64
  let high := if n / 64 < i ∧ n % 64 ≠ 0 then
    ws.getD (i - n / 64 - 1) 0#64 >>> (64 - n % 64) else 0#64
  low ||| high

theorem shiftWord_congr (n : Nat) (ws ws' : List (BitVec 64)) (i : Nat)
    (h : ∀ k ≤ i, ws.getD k 0#64 = ws'.getD k 0#64) : shiftWord n ws i = shiftWord n ws' i := by
  unfold shiftWord
  rw [h (i - n / 64) (by omega), h (i - n / 64 - 1) (by omega)]

theorem getLsbD_shiftLeft_of_le (w : BitVec 64) {r b : Nat} (hb : b < 64) (hr : r ≤ b) :
    (w <<< r).getLsbD b = w.getLsbD (b - r) := by
  simp only [BitVec.getLsbD_shiftLeft, hb, show ¬ b < r by omega, decide_true, decide_false,
    Bool.not_false, Bool.true_and]

theorem getLsbD_shiftLeft_of_lt (w : BitVec 64) {r b : Nat} (hr : b < r) : (w <<< r).getLsbD b = false := by
  simp [BitVec.getLsbD_shiftLeft, hr]

theorem getLsbD_ushiftRight_of_le (w : BitVec 64) {r b : Nat} (hr : r ≤ b) :
    (w >>> (64 - r)).getLsbD b = false := by
  rw [BitVec.getLsbD_ushiftRight]
  exact BitVec.getLsbD_of_ge _ _ (by omega)

theorem getLsbD_shiftWord (n : Nat) (ws : List (BitVec 64)) (i b : Nat) (hb : b < 64) :
    (shiftWord n ws i).getLsbD b =
      (decide (n ≤ 64 * i + b) && testBit ws (64 * i + b - n)) := by
  have hn : n = 64 * (n / 64) + n % 64 := (Nat.div_add_mod n 64).symm
  have hr : n % 64 < 64 := Nat.mod_lt _ (by decide)
  unfold shiftWord testBit
  generalize n / 64 = q at *
  generalize n % 64 = r at *
  subst hn
  rw [BitVec.getLsbD_or]
  rcases Nat.lt_or_ge i q with hiq | hiq
  · -- the whole word lies below the shift
    have hlt : ¬ 64 * q + r ≤ 64 * i + b := by omega
    simp [show ¬ q ≤ i by omega, show ¬ q < i by omega, hlt]
  · rw [if_pos hiq]
    by_cases hbr : r ≤ b
    · -- the bit comes from the word `q` below
      have e1 : (64 * i + b - (64 * q + r)) / 64 = i - q := by omega
      have e2 : (64 * i + b - (64 * q + r)) % 64 = b - r := by omega
      have hle : 64 * q + r ≤ 64 * i + b := by omega
      rw [e1, e2, getLsbD_shiftLeft_of_le _ hb hbr]
      by_cases hhigh : q < i ∧ r ≠ 0
      · rw [if_pos hhigh, getLsbD_ushiftRight_of_le _ hbr]
        simp [hle]
      · rw [if_neg hhigh]
        simp [hle]
    · -- the bit is carried over from the word before it
      rw [getLsbD_shiftLeft_of_lt _ (Nat.lt_of_not_le hbr)]
      by_cases hhigh : q < i ∧ r ≠ 0
      · have e1 : (64 * i + b - (64 * q + r)) / 64 = i - q - 1 := by omega
        have e2 : (64 * i + b - (64 * q + r)) % 64 = 64 - r + b := by omega
        have hle : 64 * q + r ≤ 64 * i + b := by omega
        rw [if_pos hhigh, BitVec.getLsbD_ushiftRight, e1, e2]
        simp [hle]
      · have hlt : ¬ 64 * q + r ≤ 64 * i + b := by omega
        rw [if_neg hhigh]
        simp [hlt]

/-- The loop over all words shifts the bit string up by `n`; bits past the last word are lost. -/
theorem testBit_rewriteDown_shiftWord (n : Nat) (ws : List (BitVec 64)) (j : Nat) (hj : j < 64 * ws.length) :
    testBit (rewriteDown (shiftWord n) ws.length ws) j =
      (decide (n ≤ j) && testBit ws (j - n)) := by
  have hword : j / 64 < ws.length := by omega
  have hsplit : 64 * (j / 64) + j % 64 = j := Nat.div_add_mod j 64
  rw [testBit, getD_rewriteDown (shiftWord_congr n) _ _ (Nat.le_refl _), if_pos hword,
    getLsbD_shiftWord n ws (j / 64) (j % 64) (Nat.mod_lt _ (by decide)), hsplit]

end Rtc.WordBits
