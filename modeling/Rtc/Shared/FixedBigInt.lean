import Rtc.Lib.WordBits

/-!
# The fixed-size multi-word integer of the replay detectors

`FixedBigInt` of `rtc-shared/src/replay_detector/fixed_big_int/mod.rs`: the bitmap behind a sliding window, `n` bits
wide, in `u64` words. The mask of the last word is computed as `(1 << (64 - n % 64)) - 1`, so `lsh` keeps `64 - n %
64` bits of it although the window uses `n % 64`; `test_lsh` states which bits survive.
-/

namespace Rtc.Shared
open WordBits

/-- The number of words `FixedBigInt::new` allocates: `n.div_ceil(64)`, at least one. -/
def chunkSize (n : Nat) : Nat :=
  let chunks := (n + 63) / 64
  if chunks = 0 then 1 else chunks

/-- The mask `FixedBigInt::new` puts on the last word. -/
def topMask (n : Nat) : BitVec 64 :=
  if n % 64 = 0 then BitVec.allOnes 64 else (1#64 <<< (64 - n % 64)) - 1#64

/-- `FixedBigInt` (`fixed_big_int/mod.rs:7-11`). The word count and the mask never change after
    `new`, so they are part of the type. -/
structure FixedBigInt where
  bits : List (BitVec 64)
  n : Nat
  msbMask : BitVec 64
  bits_length : bits.length = chunkSize n
  msbMask_eq : msbMask = topMask n
  deriving DecidableEq

namespace FixedBigInt

/-- `FixedBigInt::new` (`fixed_big_int/mod.rs:25-40`). -/
def new (n : Nat) : FixedBigInt where
  bits := List.replicate (chunkSize n) 0#64
  n := n
  msbMask := topMask n
  bits_length := by simp
  msbMask_eq := rfl

/-- The word `lsh` stores at index `i` (`fixed_big_int/mod.rs:51-69`). -/
def lshWord (n : Nat) (bits : List (BitVec 64)) (i : Nat) : BitVec 64 :=
  let nChunk := n / 64
  let nN := n % 64
  let carry :=
    if nChunk ≤ i then
      let low := if 64 ≤ nN then 0#64 else bits.getD (i - nChunk) 0#64 <<< nN
      if nChunk < i then
        low ||| (if nN = 0 then 0#64 else bits.getD (i - nChunk - 1) 0#64 >>> (64 - nN))
      else low
    else 0#64
  if 64 ≤ n then carry else (bits.getD i 0#64 <<< n) ||| carry

/-- `FixedBigInt::lsh` (`fixed_big_int/mod.rs:43-75`): the words are replaced in place from the
    last one down, then the last one is masked. -/
def lsh (b : FixedBigInt) (n : Nat) : FixedBigInt :=
  if n = 0 then b
  else
    let bits := rewriteDown (lshWord n) b.bits.length b.bits
    let last := bits.length - 1
    { b with
      bits := bits.set last (bits.getD last 0#64 &&& b.msbMask)
      bits_length := by simp [bits, b.bits_length] }

/-- `FixedBigInt::bit` (`fixed_big_int/mod.rs:78-85`). -/
def bit (b : FixedBigInt) (i : Nat) : Nat :=
  if b.n ≤ i then 0
  else if b.bits.getD (i / 64) 0#64 &&& (1#64 <<< (i % 64)) ≠ 0#64 then 1 else 0

/-- `FixedBigInt::set_bit` (`fixed_big_int/mod.rs:88-95`). -/
def setBit (b : FixedBigInt) (i : Nat) : FixedBigInt :=
  if b.n ≤ i then b
  else
    { b with
      bits := b.bits.set (i / 64) (b.bits.getD (i / 64) 0#64 ||| 1#64 <<< (i % 64))
      bits_length := by simp [b.bits_length] }

/-! ## Single bits -/

/-- Bit `j` of the integer, also past `n`. -/
def test (b : FixedBigInt) (j : Nat) : Bool := testBit b.bits j

@[simp] theorem n_new (n : Nat) : (new n).n = n := rfl

variable (b : FixedBigInt)

@[simp] theorem n_lsh (k : Nat) : (b.lsh k).n = b.n := by
  unfold lsh; split <;> rfl

@[simp] theorem n_setBit (i : Nat) : (b.setBit i).n = b.n := by
  unfold setBit; split <;> rfl

@[simp] theorem test_new (n j : Nat) : (new n).test j = false := by
  simp [test, new]

theorem length_bits (hn : 0 < b.n) : b.bits.length = (b.n + 63) / 64 := by
  rw [b.bits_length]
  simp only [chunkSize]
  split <;> omega

theorem chunk_lt_length {i : Nat} (hi : i < b.n) : i / 64 < b.bits.length := by
  rw [b.length_bits (by omega)]
  omega

theorem and_one_shiftLeft_ne_zero (w : BitVec 64) {k : Nat} (hk : k < 64) :
    (w &&& (1#64 <<< k) ≠ 0#64) ↔ w.getLsbD k = true := by
  constructor
  · intro hne
    by_contra hbit
    apply hne
    apply BitVec.eq_of_getLsbD_eq
    intro i hi
    rw [BitVec.getLsbD_and, BitVec.getLsbD_shiftLeft, BitVec.getLsbD_one, BitVec.getLsbD_zero]
    by_cases hik : i = k
    · subst hik
      simp [Bool.eq_false_iff.mpr hbit]
    · have : ¬ (i < k) → ¬ (i - k = 0) := by omega
      by_cases hlt : i < k
      · simp [hlt]
      · simp [this hlt]
  · intro hbit hzero
    have hk' := congrArg (fun v : BitVec 64 => v.getLsbD k) hzero
    simp only [BitVec.getLsbD_and, BitVec.getLsbD_shiftLeft, BitVec.getLsbD_one, hbit, hk] at hk'
    simp at hk'

theorem bit_ne_zero_iff (i : Nat) : b.bit i ≠ 0 ↔ i < b.n ∧ b.test i = true := by
  unfold bit
  by_cases hi : b.n ≤ i
  · simp [hi, Nat.not_lt.mpr hi]
  · have hlt : i < b.n := Nat.lt_of_not_le hi
    rw [if_neg hi]
    have hbit := and_one_shiftLeft_ne_zero (b.bits.getD (i / 64) 0#64)
      (Nat.mod_lt i (by decide : 0 < 64))
    by_cases hset : b.bits.getD (i / 64) 0#64 &&& 1#64 <<< (i % 64) ≠ 0#64
    · rw [if_pos hset]
      exact ⟨fun _ => ⟨hlt, hbit.mp hset⟩, fun _ => one_ne_zero⟩
    · rw [if_neg hset]
      simp only [ne_eq, not_true_eq_false, hlt, true_and, false_iff]
      exact fun htest => hset (hbit.mpr htest)

theorem test_setBit {i : Nat} (hi : i < b.n) (j : Nat) : (b.setBit i).test j = (b.test j || decide (j = i)) := by
  unfold setBit test
  rw [if_neg (Nat.not_le.mpr hi)]
  exact testBit_set_or (b.chunk_lt_length hi) j

theorem lshWord_eq_shiftWord (n : Nat) : lshWord n = shiftWord n := by
  funext bits i
  unfold lshWord shiftWord
  have hr : ¬ 64 ≤ n % 64 := Nat.not_le.mpr (Nat.mod_lt n (by decide))
  by_cases hn : 64 ≤ n
  · by_cases hi : n / 64 < i
    · by_cases h0 : n % 64 = 0
      · simp [hn, hi, Nat.le_of_lt hi, h0]
      · simp only [hn, hi, Nat.le_of_lt hi, h0, hr, if_true, if_false, ne_eq, not_false_eq_true,
          and_self]
    · by_cases hle : n / 64 ≤ i <;> simp [hn, hi, hle, hr]
  · have hq : n / 64 = 0 := by omega
    have hmod : n % 64 = n := by omega
    by_cases hi : 0 < i
    · by_cases h0 : n = 0 <;> simp [hn, hi, hq, hmod, h0]
      simp [← BitVec.or_assoc]
    · simp [hn, hi, hq, hmod]

theorem getLsbD_one_shiftLeft_sub_one {m : Nat} (hm : m < 64) (i : Nat) :
    ((1#64 <<< m) - 1#64).getLsbD i = decide (i < m) := by
  have hpow : 2 ^ m < 2 ^ 64 := Nat.pow_lt_pow_right (by decide) hm
  have hpos : 0 < 2 ^ m := Nat.two_pow_pos m
  have hnat : ((1#64 <<< m) - 1#64).toNat = 2 ^ m - 1 := by
    rw [BitVec.toNat_sub, BitVec.toNat_shiftLeft, BitVec.toNat_ofNat, Nat.shiftLeft_eq]
    norm_num at hpow ⊢
    omega
  rw [BitVec.getLsbD, hnat, Nat.testBit_two_pow_sub_one]

/-- Which bits `lsh` keeps: those of the shifted string, less the ones the mask clears in the
    last word. -/
theorem test_lsh {k : Nat} (hk : k ≠ 0) {j : Nat} (hj : j < 64 * b.bits.length) :
    (b.lsh k).test j = (decide (k ≤ j) && b.test (j - k) &&
      (decide (j / 64 ≠ b.bits.length - 1) || (topMask b.n).getLsbD (j % 64))) := by
  have hword : j / 64 < b.bits.length := by omega
  have hshift := testBit_rewriteDown_shiftWord k b.bits j hj
  unfold lsh test
  rw [if_neg hk]
  simp only [lshWord_eq_shiftWord, b.msbMask_eq, length_rewriteDown]
  rw [← hshift]
  unfold testBit
  rw [getD_set (by rw [length_rewriteDown]; omega)]
  by_cases hlast : j / 64 = b.bits.length - 1
  · rw [if_pos hlast, BitVec.getLsbD_and, hlast]
    simp
  · rw [if_neg hlast]
    simp [hlast]

/-- The window sizes the mask of `new` does not cut: the last word is full, or at most half of it
    is used. -/
def MaskCovers (n : Nat) : Prop := n % 64 ≤ 32

instance (n : Nat) : Decidable (MaskCovers n) := inferInstanceAs (Decidable (_ ≤ _))

theorem test_lsh_of_maskCovers (hcov : MaskCovers b.n) {k : Nat} (hk : k ≠ 0)
    {j : Nat} (hj : j < b.n) : (b.lsh k).test j = (decide (k ≤ j) && b.test (j - k)) := by
  have hword := b.chunk_lt_length hj
  rw [b.test_lsh hk (by omega)]
  have hmask : (decide (j / 64 ≠ b.bits.length - 1) || (topMask b.n).getLsbD (j % 64)) = true := by
    by_cases hlast : j / 64 = b.bits.length - 1
    · have hlen := b.length_bits (by omega)
      unfold MaskCovers at hcov
      unfold topMask
      split
      · rw [BitVec.getLsbD_allOnes]
        simp
        omega
      · rw [getLsbD_one_shiftLeft_sub_one (by omega)]
        simp
        omega
    · simp [hlast]
  rw [hmask, Bool.and_true]

theorem test_lsh_of_not_maskCovers (hcov : ¬ MaskCovers b.n) {k : Nat}
    (hk : k ≠ 0) : (b.lsh k).test (b.n - 1) = false := by
  unfold MaskCovers at hcov
  have hlen := b.length_bits (by omega)
  have hmask : (topMask b.n).getLsbD ((b.n - 1) % 64) = false := by
    have hne : b.n % 64 ≠ 0 := by omega
    unfold topMask
    rw [if_neg hne, getLsbD_one_shiftLeft_sub_one (by omega)]
    simp
    omega
  have hlast : (b.n - 1) / 64 = b.bits.length - 1 := by omega
  rw [b.test_lsh hk (by omega), hmask, hlast]
  simp

end FixedBigInt
end Rtc.Shared
