import Mathlib.Tactic

/-!
# Bytes and big-endian words
-/

namespace Rtc

abbrev Byte := BitVec 8

namespace Bytes

/-- The big-endian 16-bit word of two bytes. -/
def be16 (a b : Byte) : BitVec 16 := a ++ b

/-- The big-endian 32-bit word of four bytes. -/
def be32 (a b c d : Byte) : BitVec 32 := a ++ b ++ c ++ d

/-- The bytes of a 16-bit word, most significant first. -/
def toBe16 (x : BitVec 16) : List Byte := [x.extractLsb' 8 8, x.extractLsb' 0 8]

/-- The bytes of a 32-bit word, most significant first. -/
def toBe32 (x : BitVec 32) : List Byte :=
  [x.extractLsb' 24 8, x.extractLsb' 16 8, x.extractLsb' 8 8, x.extractLsb' 0 8]

/-- The bytes of a 64-bit word, most significant first. -/
def toBe64 (x : BitVec 64) : List Byte := toBe32 (x.extractLsb' 32 32) ++ toBe32 (x.extractLsb' 0 32)

/-- The 16-bit word at offset `i`. -/
def readU16 (bs : List Byte) (i : Nat) : BitVec 16 := be16 (bs.getD i 0#8) (bs.getD (i + 1) 0#8)

/-- The 32-bit word at offset `i`. -/
def readU32 (bs : List Byte) (i : Nat) : BitVec 32 :=
  be32 (bs.getD i 0#8) (bs.getD (i + 1) 0#8) (bs.getD (i + 2) 0#8) (bs.getD (i + 3) 0#8)

@[simp] theorem length_toBe16 (x : BitVec 16) : (toBe16 x).length = 2 := rfl

@[simp] theorem length_toBe32 (x : BitVec 32) : (toBe32 x).length = 4 := rfl

@[simp] theorem length_toBe64 (x : BitVec 64) : (toBe64 x).length = 8 := rfl

theorem toNat_be32 (a b c d : Byte) : (be32 a b c d).toNat =
    a.toNat * 2 ^ 24 + b.toNat * 2 ^ 16 + c.toNat * 2 ^ 8 + d.toNat := by
  have ha := a.isLt
  have hb := b.isLt
  have hc := c.isLt
  have hd := d.isLt
  simp only [be32, BitVec.toNat_append]
  rw [← Nat.shiftLeft_add_eq_or_of_lt (by omega), ← Nat.shiftLeft_add_eq_or_of_lt (by omega),
    ← Nat.shiftLeft_add_eq_or_of_lt (by omega)]
  simp only [Nat.shiftLeft_eq]
  omega

theorem be16_toBe16 (x : BitVec 16) : be16 (x.extractLsb' 8 8) (x.extractLsb' 0 8) = x := by
  have hx := x.isLt
  apply BitVec.eq_of_toNat_eq
  rw [be16, BitVec.toNat_append, ← Nat.shiftLeft_add_eq_or_of_lt (BitVec.isLt _)]
  simp only [BitVec.extractLsb'_toNat, Nat.shiftRight_eq_div_pow, Nat.shiftLeft_eq]
  omega

theorem toNat_be16 (a b : Byte) : (be16 a b).toNat = a.toNat * 2 ^ 8 + b.toNat := by
  rw [be16, BitVec.toNat_append, ← Nat.shiftLeft_add_eq_or_of_lt b.isLt, Nat.shiftLeft_eq]

theorem toBe16_be16 (a b : Byte) : toBe16 (be16 a b) = [a, b] := by
  have hx := toNat_be16 a b
  have ha := a.isLt
  have hb := b.isLt
  simp only [toBe16, List.cons.injEq, and_true]
  refine ⟨?_, ?_⟩ <;> apply BitVec.eq_of_toNat_eq <;>
    simp only [BitVec.extractLsb'_toNat, hx, Nat.shiftRight_eq_div_pow] <;> omega

theorem toBe32_be32 (a b c d : Byte) : toBe32 (be32 a b c d) = [a, b, c, d] := by
  have hx := toNat_be32 a b c d
  have ha := a.isLt
  have hb := b.isLt
  have hc := c.isLt
  have hd := d.isLt
  simp only [toBe32, List.cons.injEq, and_true]
  refine ⟨?_, ?_, ?_, ?_⟩ <;> apply BitVec.eq_of_toNat_eq <;>
    simp only [BitVec.extractLsb'_toNat, hx, Nat.shiftRight_eq_div_pow] <;> omega

theorem toBe32_be32_and (a b c d : Byte) : toBe32 (be32 a b c d &&& 0x7FFFFFFF#32) = [a &&& 0x7F#8, b, c, d] := by
  have hx := toNat_be32 a b c d
  have ha := a.isLt
  have hb := b.isLt
  have hc := c.isLt
  have hd := d.isLt
  have hmask : (be32 a b c d &&& 0x7FFFFFFF#32).toNat = (be32 a b c d).toNat % 2 ^ 31 := by
    rw [BitVec.toNat_and]
    exact Nat.and_two_pow_sub_one_eq_mod _ 31
  have hlow : (a &&& 0x7F#8).toNat = a.toNat % 2 ^ 7 := by
    rw [BitVec.toNat_and]
    exact Nat.and_two_pow_sub_one_eq_mod _ 7
  simp only [toBe32, List.cons.injEq, and_true]
  refine ⟨?_, ?_, ?_, ?_⟩ <;> apply BitVec.eq_of_toNat_eq <;>
    simp only [BitVec.extractLsb'_toNat, hmask, hx, hlow, Nat.shiftRight_eq_div_pow] <;> omega

end Bytes
end Rtc
