import Rtc.Lib.Serial

/-!
# Serial number arithmetic of the SCTP stack

The comparisons of `rtc-sctp/src/util.rs`, one pair of them for 16-bit stream sequence numbers and
one for 32-bit transmission sequence numbers, in the source's form: a case split on the plain order.
-/

namespace Rtc.Sctp
open Serial

/-- `snaNNlt` (`util.rs:272-274`, `297-299`). -/
def snaLt {w : Nat} (i1 i2 : BitVec w) : Bool :=
  (i1.toNat < i2.toNat && i2.toNat - i1.toNat < 2 ^ (w - 1)) ||
    (i2.toNat < i1.toNat && 2 ^ (w - 1) < i1.toNat - i2.toNat)

/-- `snaNNgt` (`util.rs:282-284`, `307-309`). -/
def snaGt {w : Nat} (i1 i2 : BitVec w) : Bool :=
  (i1.toNat < i2.toNat && 2 ^ (w - 1) ≤ i2.toNat - i1.toNat) ||
    (i2.toNat < i1.toNat && i1.toNat - i2.toNat ≤ 2 ^ (w - 1))

/-- `sna32lt` (`util.rs:272-274`). -/
def sna32lt (i1 i2 : BitVec 32) : Bool := snaLt i1 i2

/-- `sna32lte` (`util.rs:277-279`). -/
def sna32lte (i1 i2 : BitVec 32) : Bool := i1 == i2 || sna32lt i1 i2

/-- `sna32gt` (`util.rs:282-284`). -/
def sna32gt (i1 i2 : BitVec 32) : Bool := snaGt i1 i2

/-- `sna32gte` (`util.rs:287-289`). -/
def sna32gte (i1 i2 : BitVec 32) : Bool := i1 == i2 || sna32gt i1 i2

/-- `sna16lt` (`util.rs:297-299`). -/
def sna16lt (i1 i2 : BitVec 16) : Bool := snaLt i1 i2

/-- `sna16lte` (`util.rs:302-304`). -/
def sna16lte (i1 i2 : BitVec 16) : Bool := i1 == i2 || sna16lt i1 i2

/-- `sna16gt` (`util.rs:307-309`). -/
def sna16gt (i1 i2 : BitVec 16) : Bool := snaGt i1 i2

theorem ahead_eq_of_lt {w : Nat} {a b : BitVec w} (h : a.toNat < b.toNat) : ahead a b = b.toNat - a.toNat := by
  have hb := b.isLt
  rw [ahead, BitVec.toNat_sub]
  have hsum : 2 ^ w - a.toNat + b.toNat = 2 ^ w + (b.toNat - a.toNat) := by omega
  rw [hsum, Nat.add_mod_left, Nat.mod_eq_of_lt (by omega)]

theorem ahead_eq_of_gt {w : Nat} {a b : BitVec w} (h : b.toNat < a.toNat) :
    ahead a b = 2 ^ w - (a.toNat - b.toNat) := by
  have ha := a.isLt
  rw [ahead, BitVec.toNat_sub]
  have hsum : 2 ^ w - a.toNat + b.toNat = 2 ^ w - (a.toNat - b.toNat) := by omega
  rw [hsum, Nat.mod_eq_of_lt (by omega)]

theorem snaLt_iff {w : Nat} (hw : 0 < w) (a b : BitVec w) : snaLt a b = true ↔ Lt a b := by
  have hpow : 2 * 2 ^ (w - 1) = 2 ^ w := by rw [← Nat.pow_succ', Nat.succ_eq_add_one, Nat.sub_add_cancel hw]
  have ha := a.isLt
  have hb := b.isLt
  simp only [snaLt, Bool.or_eq_true, Bool.and_eq_true, decide_eq_true_eq, Lt]
  rcases Nat.lt_trichotomy a.toNat b.toNat with hlt | heq | hgt
  · rw [ahead_eq_of_lt hlt]
    omega
  · rw [BitVec.eq_of_toNat_eq heq, ahead_self]
    omega
  · rw [ahead_eq_of_gt hgt]
    omega

theorem snaGt_iff {w : Nat} (hw : 0 < w) (a b : BitVec w) :
    snaGt a b = true ↔ 0 < ahead b a ∧ 2 * ahead b a ≤ 2 ^ w := by
  have hpow : 2 * 2 ^ (w - 1) = 2 ^ w := by rw [← Nat.pow_succ', Nat.succ_eq_add_one, Nat.sub_add_cancel hw]
  have ha := a.isLt
  have hb := b.isLt
  simp only [snaGt, Bool.or_eq_true, Bool.and_eq_true, decide_eq_true_eq]
  rcases Nat.lt_trichotomy a.toNat b.toNat with hlt | heq | hgt
  · rw [ahead_eq_of_gt hlt]
    omega
  · rw [BitVec.eq_of_toNat_eq heq, ahead_self]
    omega
  · rw [ahead_eq_of_lt hgt]
    omega

theorem sna32lt_iff (a b : BitVec 32) : sna32lt a b = true ↔ 0 < ahead a b ∧ ahead a b < 2 ^ 31 := by
  rw [sna32lt, snaLt_iff (by decide), Lt]
  omega

theorem sna32lte_iff (a b : BitVec 32) : sna32lte a b = true ↔ ahead a b < 2 ^ 31 := by
  rw [sna32lte, Bool.or_eq_true, beq_iff_eq, sna32lt_iff, ← ahead_eq_zero]
  omega

theorem sna32gt_iff (a b : BitVec 32) : sna32gt a b = true ↔ 0 < ahead b a ∧ ahead b a ≤ 2 ^ 31 := by
  rw [sna32gt, snaGt_iff (by decide)]
  omega

theorem sna32lt_iff_of_near (base : BitVec 32) {x y : BitVec 32}
    (h : ahead base y < ahead base x + 2 ^ 31) (h' : ahead base x ≤ ahead base y + 2 ^ 31) :
    sna32lt x y = true ↔ ahead base x < ahead base y := by
  rw [sna32lt, snaLt_iff (by decide)]
  exact lt_iff_of_near base (by omega) (by omega)

theorem sna16lt_iff_of_near (base : BitVec 16) {x y : BitVec 16}
    (h : ahead base y < ahead base x + 2 ^ 15) (h' : ahead base x ≤ ahead base y + 2 ^ 15) :
    sna16lt x y = true ↔ ahead base x < ahead base y := by
  rw [sna16lt, snaLt_iff (by decide)]
  exact lt_iff_of_near base (by omega) (by omega)

end Rtc.Sctp
