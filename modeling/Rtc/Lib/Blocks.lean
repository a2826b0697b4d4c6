import Mathlib.Tactic

/-!
# Blocks of consecutive numbers

A list of numbers written as blocks `(first, last)`: a number that follows the current block directly extends it, any
other begins a new one. The blocks cover exactly the numbers of the list.
-/

namespace Rtc.Blocks

/-- The blocks of the list, after the block from `s` to `e`. -/
def blocksFrom (s e : Nat) : List Nat → List (Nat × Nat)
  | [] => [(s, e)]
  | n :: rest => if e + 1 = n then blocksFrom s n rest else (s, e) :: blocksFrom n n rest

/-- The block holds the number. -/
def Covers (b : Nat × Nat) (n : Nat) : Prop := b.1 ≤ n ∧ n ≤ b.2

theorem exists_covers_blocksFrom {s e : Nat} (h : s ≤ e) (l : List Nat) (n : Nat) :
    (∃ b ∈ blocksFrom s e l, Covers b n) ↔ (s ≤ n ∧ n ≤ e) ∨ n ∈ l := by
  induction l generalizing s e with
  | nil => simp [blocksFrom, Covers]
  | cons m rest ih =>
    unfold blocksFrom
    split
    case isTrue hnext =>
      rw [ih (by omega), List.mem_cons]
      constructor
      · rintro (hblock | hrest)
        · by_cases hm : n = m
          · exact Or.inr (Or.inl hm)
          · exact Or.inl (by omega)
        · exact Or.inr (Or.inr hrest)
      · rintro (hblock | rfl | hrest)
        · exact Or.inl (by omega)
        · exact Or.inl (by omega)
        · exact Or.inr hrest
    case isFalse =>
      rw [List.exists_mem_cons_iff, ih (Nat.le_refl m), List.mem_cons]
      refine or_congr Iff.rfl (or_congr ?_ Iff.rfl)
      omega

theorem first_le_last {s e : Nat} (h : s ≤ e) (l : List Nat) : ∀ b ∈ blocksFrom s e l, b.1 ≤ b.2 := by
  induction l generalizing s e with
  | nil => simpa [blocksFrom] using h
  | cons m rest ih =>
    unfold blocksFrom
    split
    · exact ih (by omega)
    · exact List.forall_mem_cons.mpr ⟨h, ih (Nat.le_refl m)⟩

theorem pairwise_apart {s e : Nat} (h : s ≤ e) {l : List Nat} (hl : (e :: l).Pairwise (· < ·)) :
    (blocksFrom s e l).Pairwise fun b b' => b.2 + 1 < b'.1 := by
  induction l generalizing s e with
  | nil => exact List.pairwise_singleton _ _
  | cons m rest ih =>
    obtain ⟨he, hrest⟩ := List.pairwise_cons.mp hl
    unfold blocksFrom
    split
    · exact ih (by omega) hrest
    case isFalse hnext =>
      refine List.pairwise_cons.mpr ⟨fun b hb => ?_, ih (Nat.le_refl m) hrest⟩
      have hm := he m List.mem_cons_self
      have hfirst : m ≤ b.1 := by
        have hcovers : Covers b b.1 := ⟨Nat.le_refl _, first_le_last (Nat.le_refl m) rest b hb⟩
        rcases (exists_covers_blocksFrom (Nat.le_refl m) rest b.1).mp ⟨b, hb, hcovers⟩ with hm | hmem
        · exact hm.1
        · exact (List.pairwise_cons.mp hrest).1 _ hmem |>.le
      change e + 1 < b.1
      omega

/-- The blocks of a list. -/
def blocks : List Nat → List (Nat × Nat)
  | [] => []
  | n :: l => blocksFrom n n l

theorem exists_covers_blocks (l : List Nat) (n : Nat) : (∃ b ∈ blocks l, Covers b n) ↔ n ∈ l := by
  cases l with
  | nil => simp [blocks]
  | cons m l =>
    rw [blocks, exists_covers_blocksFrom (Nat.le_refl m), List.mem_cons]
    refine or_congr ?_ Iff.rfl
    omega

theorem first_le_last_of_mem_blocks {l : List Nat} : ∀ b ∈ blocks l, b.1 ≤ b.2 := by
  cases l with
  | nil => exact fun b hb => absurd hb List.not_mem_nil
  | cons m l => exact first_le_last (Nat.le_refl m) l

theorem blocks_pairwise_apart {l : List Nat} (hl : l.Pairwise (· < ·)) :
    (blocks l).Pairwise fun b b' => b.2 + 1 < b'.1 := by
  cases l with
  | nil => exact .nil
  | cons m l => exact pairwise_apart (Nat.le_refl m) hl

end Rtc.Blocks
