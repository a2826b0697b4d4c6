import Mathlib.Tactic

/-!
# Numbers behind a wrapping counter

A counter of `w` bits shows `BitVec.ofInt w n` for the true number `n`. What a program computes from
the wrapped values is read here as arithmetic on the true ones.
-/

namespace Rtc.Unwrapped

variable {w : Nat}

theorem ofInt_sub_ofInt (a b : Int) : BitVec.ofInt w a - BitVec.ofInt w b = BitVec.ofInt w (a - b) := by
  rw [BitVec.sub_eq_iff_eq_add, ← BitVec.ofInt_add, Int.sub_add_cancel]

theorem ofInt_add_one (a : Int) : BitVec.ofInt w a + 1#w = BitVec.ofInt w (a + 1) := by
  rw [BitVec.ofInt_add, BitVec.ofInt_ofNat]

theorem ofInt_sub_one (a : Int) : BitVec.ofInt w a - 1#w = BitVec.ofInt w (a - 1) := by
  rw [← ofInt_sub_ofInt, BitVec.ofInt_ofNat]

theorem toNat_ofInt_of_lt {n : Int} (hlow : 0 ≤ n) (hhigh : n < 2 ^ w) :
    ((BitVec.ofInt w n).toNat : Int) = n := by
  rw [BitVec.toNat_ofInt, Int.emod_eq_of_lt hlow (by exact_mod_cast hhigh), Int.toNat_of_nonneg hlow]

/-- The place of a number in a ring whose length divides the range of the counter. -/
def slot (size : Nat) (n : Int) : Nat := (n % size).toNat

theorem slot_lt {size : Nat} (hsize : 0 < size) (n : Int) : slot size n < size := by
  have hpos : (0 : Int) < size := by exact_mod_cast hsize
  have hlt := Int.emod_lt_of_pos n hpos
  have hnonneg := Int.emod_nonneg n hpos.ne'
  rw [slot]
  omega

theorem toNat_ofInt_mod {size : Nat} (hdvd : size ∣ 2 ^ w) (n : Int) :
    (BitVec.ofInt w n).toNat % size = slot size n := by
  have hdvd' : (size : Int) ∣ ((2 ^ w : Nat) : Int) := by exact_mod_cast hdvd
  have hpos : (0 : Int) < ((2 ^ w : Nat) : Int) := by exact_mod_cast Nat.two_pow_pos w
  have hnonneg := Int.emod_nonneg n hpos.ne'
  rw [BitVec.toNat_ofInt, slot, ← Int.toNat_natCast ((n % _).toNat % size), Int.natCast_mod,
    Int.toNat_of_nonneg hnonneg, Int.emod_emod_of_dvd n hdvd']

theorem toNat_ofInt_add_mod {size : Nat} (hdvd : size ∣ 2 ^ w) (n : Int) (i : Nat) :
    ((BitVec.ofInt w n).toNat + i) % size = slot size (n + i) := by
  rw [← toNat_ofInt_mod hdvd, BitVec.ofInt_add, BitVec.ofInt_natCast, BitVec.toNat_add,
    Nat.mod_mod_of_dvd _ hdvd, BitVec.toNat_ofNat, Nat.add_mod, Nat.add_mod _ (i % 2 ^ w),
    Nat.mod_mod_of_dvd _ hdvd]

/-- Two numbers share a place exactly when their distance is a multiple of the ring's length. -/
theorem slot_eq_slot_iff {size : Nat} (hsize : 0 < size) (a b : Int) :
    slot size a = slot size b ↔ a % size = b % size := by
  have hpos : (size : Int) ≠ 0 := by exact_mod_cast hsize.ne'
  have ha := Int.emod_nonneg a hpos
  have hb := Int.emod_nonneg b hpos
  rw [slot, slot]
  omega

end Rtc.Unwrapped
