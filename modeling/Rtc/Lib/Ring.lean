import Mathlib.Tactic

/-!
# Ring buffers

Numbers held in a ring of `C` slots, each number at its remainder. Numbers that lie less than `C` apart have
slots of their own, and a run of numbers is at most two runs of slots.
-/

namespace Rtc.Ring

variable {C : Nat} {s n : ℤ}

/-- The slot of a number. -/
def slot (C : Nat) (n : ℤ) : Nat := (n % C).toNat

theorem slot_lt (hC : 0 < C) (n : ℤ) : slot C n < C := by
  have hpos : (0 : ℤ) < C := by exact_mod_cast hC
  have hlt := Int.emod_lt_of_pos n hpos
  have hnonneg := Int.emod_nonneg n hpos.ne'
  rw [slot]
  omega

theorem slot_add_capacity (n : ℤ) : slot C (n + C) = slot C n := by
  rw [slot, slot, Int.add_emod_right]

theorem slot_add (hC : 0 < C) (s : ℤ) {d : Nat} (hd : d < C) :
    slot C (s + d) = if slot C s + d < C then slot C s + d else slot C s + d - C := by
  have hpos : (0 : ℤ) < C := by exact_mod_cast hC
  have hlt := Int.emod_lt_of_pos s hpos
  have hnonneg := Int.emod_nonneg s hpos.ne'
  have hsum : (s + d) % C = (s % C + d) % C := by rw [Int.emod_add_emod]
  unfold slot
  rw [hsum]
  split
  case isTrue hfit => rw [Int.emod_eq_of_lt (by omega) (by omega)]; omega
  case isFalse hwrap =>
    rw [← Int.sub_emod_right, Int.emod_eq_of_lt (by omega) (by omega)]
    omega

/-- The slots of `len` numbers from `s` on: a run up to the end of the ring and one at its front. -/
theorem mem_runs_iff (hC : 0 < C) {len : Nat} (hlow : s + len - C ≤ n) (hhigh : n < s + C) :
    (slot C s ≤ slot C n ∧ slot C n < slot C s + min len (C - slot C s)) ∨
      slot C n < len - min len (C - slot C s) ↔ s ≤ n ∧ n < s + len := by
  have hs := slot_lt hC s
  rcases le_or_gt s n with hle | hgt
  · obtain ⟨d, hd⟩ := Int.eq_ofNat_of_zero_le (sub_nonneg.mpr hle)
    obtain rfl : n = s + d := by omega
    rw [slot_add hC s (by omega)]
    split <;> omega
  · obtain ⟨d, hd⟩ := Int.eq_ofNat_of_zero_le (show 0 ≤ n + C - s by omega)
    have hn : slot C n = slot C (s + d) := by
      rw [← slot_add_capacity, show n + C = s + d by omega]
    rw [hn, slot_add hC s (by omega)]
    split <;> omega

theorem slot_inj (hC : 0 < C) (hlow : s - C < n) (hhigh : n < s + C) : slot C n = slot C s ↔ n = s := by
  refine ⟨fun heq => ?_, fun heq => by rw [heq]⟩
  have hs := slot_lt hC s
  have hmem := (@mem_runs_iff C s n hC 1 (by omega) hhigh).mp (.inl ⟨heq.ge, by omega⟩)
  omega

theorem map_runs {α : Type*} (hC : 0 < C) (buffer : Nat → α) (s : ℤ) {len : Nat} (hlen : len ≤ C) :
    ((List.range (min len (C - slot C s))).map fun i => buffer (slot C s + i)) ++
        (List.range (len - min len (C - slot C s))).map buffer =
      (List.range len).map fun i : Nat => buffer (slot C (s + i)) := by
  have hs := slot_lt hC s
  have hsplit : len = min len (C - slot C s) + (len - min len (C - slot C s)) := by omega
  conv_rhs => rw [hsplit, List.range_add, List.map_append, List.map_map]
  congr 1
  · apply List.map_congr_left
    intro i hi
    have hi := List.mem_range.mp hi
    rw [slot_add hC s (by omega), if_pos (by omega)]
  · apply List.map_congr_left
    intro i hi
    have hi := List.mem_range.mp hi
    have hwrap : slot C (s + ((min len (C - slot C s) + i : Nat) : ℤ)) = i := by
      rw [slot_add hC s (by omega), if_neg (by omega)]
      omega
    rw [Function.comp_apply, hwrap]

end Rtc.Ring
