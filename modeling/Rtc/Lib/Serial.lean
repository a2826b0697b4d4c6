import Mathlib.Tactic

/-!
# Serial numbers

Numbers of `w` bits that wrap. `ahead a b` is how far `b` lies ahead of `a`; `a` is serially less than `b` when that is
less than half the space. The order is not transitive in general, but it is on numbers within half the space of a base.
-/

namespace Rtc.Serial

variable {w : Nat} {a b c x y : BitVec w}

/-- How far `b` lies ahead of `a`, modulo `2 ^ w`. -/
def ahead (a b : BitVec w) : Nat := (b - a).toNat

/-- `b` lies ahead of `a` by less than half the space. -/
def Lt (a b : BitVec w) : Prop := 0 < ahead a b ∧ 2 * ahead a b < 2 ^ w

instance (a b : BitVec w) : Decidable (Lt a b) := inferInstanceAs (Decidable (_ ∧ _))

theorem ahead_lt (a b : BitVec w) : ahead a b < 2 ^ w := (b - a).isLt

@[simp] theorem ahead_self (a : BitVec w) : ahead a a = 0 := by
  simp [ahead]

theorem add_ahead (a b : BitVec w) : a + BitVec.ofNat w (ahead a b) = b := by
  rw [ahead, BitVec.ofNat_toNat, BitVec.setWidth_eq, BitVec.add_comm, BitVec.sub_add_cancel]

theorem ahead_inj (h : ahead a b = ahead a c) : b = c := by
  rw [← add_ahead a b, h, add_ahead]

theorem ahead_eq_zero : ahead a b = 0 ↔ a = b := by
  refine ⟨fun h => ?_, fun h => by rw [h, ahead_self]⟩
  exact ahead_inj ((ahead_self a).trans h.symm)

theorem ahead_add (a : BitVec w) {n : Nat} (h : n < 2 ^ w) : ahead a (a + BitVec.ofNat w n) = n := by
  rw [ahead, BitVec.add_comm, BitVec.add_sub_cancel, BitVec.toNat_ofNat, Nat.mod_eq_of_lt h]

theorem add_add (a : BitVec w) (m n : Nat) :
    a + BitVec.ofNat w m + BitVec.ofNat w n = a + BitVec.ofNat w (m + n) := by
  rw [BitVec.add_assoc, BitVec.ofNat_add]

theorem ahead_eq_sub (a : BitVec w) (h : ahead a b ≤ ahead a c) : ahead b c = ahead a c - ahead a b := by
  have hc := ahead_lt a c
  have hsum : b + BitVec.ofNat w (ahead a c - ahead a b) = c := by
    have hb := add_ahead a b
    calc b + BitVec.ofNat w (ahead a c - ahead a b)
      _ = a + BitVec.ofNat w (ahead a b) + BitVec.ofNat w (ahead a c - ahead a b) := by rw [hb]
      _ = a + BitVec.ofNat w (ahead a c) := by rw [add_add, Nat.add_sub_cancel' h]
      _ = c := add_ahead a c
  conv_lhs => rw [← hsum]
  exact ahead_add b (by omega)

theorem ahead_of_lt (a : BitVec w) (h : ahead a c < ahead a b) : ahead b c = 2 ^ w - (ahead a b - ahead a c) := by
  have hb := ahead_lt a b
  have hsum : b + BitVec.ofNat w (2 ^ w - (ahead a b - ahead a c)) = c := by
    have hwrap : ahead a b + (2 ^ w - (ahead a b - ahead a c)) = ahead a c + 2 ^ w := by omega
    have hzero : BitVec.ofNat w (2 ^ w) = 0#w := by
      apply BitVec.eq_of_toNat_eq
      rw [BitVec.toNat_ofNat, Nat.mod_self, BitVec.toNat_zero]
    calc b + BitVec.ofNat w (2 ^ w - (ahead a b - ahead a c))
      _ = a + BitVec.ofNat w (ahead a b) + BitVec.ofNat w (2 ^ w - (ahead a b - ahead a c)) := by
        rw [add_ahead a b]
      _ = a + BitVec.ofNat w (ahead a c) := by
        rw [add_add, hwrap, BitVec.ofNat_add, hzero, BitVec.add_zero]
      _ = c := add_ahead a c
  conv_lhs => rw [← hsum]
  exact ahead_add b (by omega)

theorem ahead_add_right (a b : BitVec w) {n : Nat} (h : ahead a b + n < 2 ^ w) :
    ahead a (b + BitVec.ofNat w n) = ahead a b + n := by
  have hb := add_ahead a b
  calc ahead a (b + BitVec.ofNat w n)
    _ = ahead a (a + BitVec.ofNat w (ahead a b) + BitVec.ofNat w n) := by rw [hb]
    _ = ahead a b + n := by rw [add_add, ahead_add a h]

theorem ahead_sub_right (c : BitVec w) (h : ahead b c ≤ ahead a c) : ahead a b = ahead a c - ahead b c := by
  have hac := ahead_lt a c
  have hsum : a + BitVec.ofNat w (ahead a c - ahead b c) = b := by
    apply (BitVec.add_left_inj (BitVec.ofNat w (ahead b c))).mp
    rw [add_add, Nat.sub_add_cancel h, add_ahead, add_ahead]
  conv_lhs => rw [← hsum]
  exact ahead_add a (by omega)

/-- Seen from a base within half the space of each other, serial order is the order of the
    distances. -/
theorem lt_iff_of_near (a : BitVec w) (h : 2 * ahead a y < 2 ^ w + 2 * ahead a x)
    (h' : 2 * ahead a x ≤ 2 ^ w + 2 * ahead a y) : Lt x y ↔ ahead a x < ahead a y := by
  unfold Lt
  by_cases hle : ahead a x ≤ ahead a y
  · rw [ahead_eq_sub a hle]
    omega
  · rw [ahead_of_lt a (by omega)]
    have hx := ahead_lt a x
    omega

theorem not_lt_self (a : BitVec w) : ¬ Lt a a := by
  simp [Lt]

theorem ahead_succ (h : a ≠ b) : ahead (a + 1#w) b = ahead a b - 1 := by
  have hpos : 0 < ahead a b := Nat.pos_of_ne_zero fun h0 => h (ahead_eq_zero.mp h0)
  have hlt := ahead_lt a b
  have hone : ahead a (a + 1#w) = 1 := ahead_add a (by omega)
  rw [ahead_eq_sub a (by omega), hone]

/-! ## Intervals -/

/-- The `n` numbers from `a` on. -/
def interval (a : BitVec w) (n : Nat) : List (BitVec w) :=
  (List.range n).map fun k => a + BitVec.ofNat w k

variable (a)

@[simp] theorem length_interval (n : Nat) : (interval a n).length = n := by
  simp [interval]

@[simp] theorem interval_zero : interval a 0 = [] := rfl

theorem interval_succ (n : Nat) : interval a (n + 1) = interval a n ++ [a + BitVec.ofNat w n] := by
  simp [interval, List.range_succ]

theorem interval_cons (n : Nat) : interval a (n + 1) = a :: interval (a + 1#w) n := by
  have hstep : ∀ k, a + BitVec.ofNat w (k + 1) = a + 1#w + BitVec.ofNat w k := by
    intro k
    rw [add_add, Nat.add_comm]
  rw [interval, List.range_succ_eq_map, List.map_cons, List.map_map, BitVec.add_zero]
  exact congrArg (a :: ·) (List.map_congr_left fun k _ => hstep k)

theorem pairwise_lt_interval {n : Nat} (hn : 2 * n ≤ 2 ^ w) : (interval a n).Pairwise Lt := by
  rw [interval, List.pairwise_map]
  refine List.Pairwise.imp_of_mem ?_ List.pairwise_lt_range
  intro i j hi hj hij
  have hi := List.mem_range.mp hi
  have hj := List.mem_range.mp hj
  have hdist : ahead (a + BitVec.ofNat w i) (a + BitVec.ofNat w j) = j - i := by
    rw [ahead_eq_sub a (by rw [ahead_add a (by omega), ahead_add a (by omega)]; omega),
      ahead_add a (by omega), ahead_add a (by omega)]
  rw [Lt, hdist]
  omega

variable {a}

theorem mem_interval {n : Nat} (hn : n ≤ 2 ^ w) : b ∈ interval a n ↔ ahead a b < n := by
  simp only [interval, List.mem_map, List.mem_range]
  constructor
  · rintro ⟨k, hk, rfl⟩
    rwa [ahead_add a (by omega)]
  · intro h
    exact ⟨ahead a b, h, add_ahead a b⟩

/-! ## Slots

A circular array of `n` slots keeps the number `a` at `a % n`. Its size divides the space, so the slots
go on round where the numbers wrap. -/

variable {n : Nat}

theorem slot_add (hn : n ∣ 2 ^ w) (a : BitVec w) (i : Nat) :
    (a + BitVec.ofNat w i).toNat % n = (a.toNat + i) % n := by
  rw [BitVec.toNat_add, BitVec.toNat_ofNat, Nat.add_mod_mod, Nat.mod_mod_of_dvd _ hn]

theorem eq_of_slot_eq (hn : n ∣ 2 ^ w) (hnear : ahead a b < n) (hslot : a.toNat % n = b.toNat % n) : a = b := by
  rw [← add_ahead a b, slot_add hn, Nat.add_mod, Nat.mod_eq_of_lt hnear] at hslot
  have hlt := Nat.mod_lt a.toNat (Nat.zero_lt_of_lt hnear)
  generalize a.toNat % n = slot at hslot hlt
  have hzero : ahead a b = 0 := by
    by_contra hne
    rcases Nat.lt_or_ge (slot + ahead a b) n with hin | hout
    · rw [Nat.mod_eq_of_lt hin] at hslot
      omega
    · rw [Nat.mod_eq_sub_mod hout, Nat.mod_eq_of_lt (by omega)] at hslot
      omega
  exact ahead_eq_zero.mp hzero

theorem toNat_and_sub_one {size : BitVec w} {k : Nat} (hsize : size.toNat = 2 ^ k) (a : BitVec w) :
    (a &&& (size - 1#w)).toNat = a.toNat % size.toNat := by
  have hpos : 0 < size.toNat := by
    rw [hsize]
    exact Nat.two_pow_pos k
  have hone : (1#w).toNat = 1 := by
    have hlt := size.isLt
    rw [BitVec.toNat_ofNat, Nat.mod_eq_of_lt (by omega)]
  have hsub : (size - 1#w).toNat = 2 ^ k - 1 := by
    rw [BitVec.toNat_sub_of_le (by rw [BitVec.le_def, hone]; exact hpos), hone, hsize]
  rw [BitVec.toNat_and, hsub, Nat.and_two_pow_sub_one_eq_mod, hsize]

end Rtc.Serial
