import Mathlib.Tactic

/-!
# Covering numbers by windows

Windows of `k` consecutive numbers are placed over a sorted list from left to right, each at the first
number that the one before does not reach. No cover by such windows is smaller.
-/

namespace Rtc.Windows

variable {k start x : Nat} {xs ws : List Nat}

/-- The starts of the windows over a list, the first of them at `start`. -/
def startsFrom (k start : Nat) : List Nat → List Nat
  | [] => [start]
  | x :: xs => if x < start + k then startsFrom k start xs else start :: startsFrom k x xs

/-- The starts of the windows over a list. -/
def starts (k : Nat) : List Nat → List Nat
  | [] => []
  | x :: xs => startsFrom k x xs

theorem self_mem_startsFrom (k start : Nat) (xs : List Nat) : start ∈ startsFrom k start xs := by
  induction xs with
  | nil => simp [startsFrom]
  | cons y ys ih =>
    unfold startsFrom
    split
    · exact ih
    · exact List.mem_cons_self

theorem mem_startsFrom (h : x ∈ startsFrom k start xs) (hsorted : (start :: xs).Pairwise (· ≤ ·)) :
    x = start ∨ x ∈ xs ∧ start + k ≤ x := by
  induction xs generalizing start with
  | nil => simpa [startsFrom] using h
  | cons y ys ih =>
    simp only [List.pairwise_cons, List.mem_cons, forall_eq_or_imp] at hsorted
    obtain ⟨⟨-, hstart⟩, hy, hys⟩ := hsorted
    unfold startsFrom at h
    split at h
    case isTrue =>
      rcases ih h (List.pairwise_cons.mpr ⟨hstart, hys⟩) with rfl | ⟨hmem, hle⟩
      · exact .inl rfl
      · exact .inr ⟨List.mem_cons_of_mem y hmem, hle⟩
    case isFalse hfar =>
      rcases List.mem_cons.mp h with rfl | h
      · exact .inl rfl
      · rcases ih h (List.pairwise_cons.mpr ⟨hy, hys⟩) with rfl | ⟨hmem, hle⟩
        · exact .inr ⟨List.mem_cons_self, by omega⟩
        · exact .inr ⟨List.mem_cons_of_mem y hmem, by omega⟩

theorem pairwise_startsFrom (hsorted : (start :: xs).Pairwise (· ≤ ·)) :
    (startsFrom k start xs).Pairwise fun s t => s + k ≤ t := by
  induction xs generalizing start with
  | nil => simp [startsFrom]
  | cons y ys ih =>
    simp only [List.pairwise_cons, List.mem_cons, forall_eq_or_imp] at hsorted
    obtain ⟨⟨-, hstart⟩, hy, hys⟩ := hsorted
    have hrest : (y :: ys).Pairwise (· ≤ ·) := List.pairwise_cons.mpr ⟨hy, hys⟩
    unfold startsFrom
    split
    case isTrue => exact ih (List.pairwise_cons.mpr ⟨hstart, hys⟩)
    case isFalse hfar =>
      refine List.pairwise_cons.mpr ⟨fun t ht => ?_, ih hrest⟩
      rcases mem_startsFrom ht hrest with rfl | ⟨-, hle⟩ <;> omega

theorem exists_startsFrom (hsorted : (start :: xs).Pairwise (· ≤ ·)) (hk : 0 < k) (h : x ∈ start :: xs) :
    ∃ s ∈ startsFrom k start xs, s ≤ x ∧ x < s + k := by
  induction xs generalizing start with
  | nil =>
    obtain rfl := List.mem_singleton.mp h
    exact ⟨x, by simp [startsFrom], le_refl x, by omega⟩
  | cons y ys ih =>
    simp only [List.pairwise_cons, List.mem_cons, forall_eq_or_imp] at hsorted
    obtain ⟨⟨hle, hstart⟩, hy, hys⟩ := hsorted
    have hfirst : (start :: ys).Pairwise (· ≤ ·) := List.pairwise_cons.mpr ⟨hstart, hys⟩
    unfold startsFrom
    split
    case isTrue hnear =>
      simp only [List.mem_cons] at h
      rcases h with rfl | rfl | h
      · exact ih hfirst List.mem_cons_self
      · exact ⟨start, self_mem_startsFrom k start ys, hle, hnear⟩
      · exact ih hfirst (List.mem_cons_of_mem start h)
    case isFalse =>
      rcases List.mem_cons.mp h with rfl | h
      · exact ⟨x, List.mem_cons_self, le_refl x, by omega⟩
      · obtain ⟨s, hs, hcover⟩ := ih (List.pairwise_cons.mpr ⟨hy, hys⟩) h
        exact ⟨s, List.mem_cons_of_mem start hs, hcover⟩

theorem length_le_of_apart {ts : List Nat} (hapart : ts.Pairwise fun s t => s + k ≤ t)
    (hcover : ∀ t ∈ ts, ∃ w ∈ ws, w ≤ t ∧ t < w + k) : ts.length ≤ ws.length := by
  induction ts generalizing ws with
  | nil => exact Nat.zero_le _
  | cons t ts ih =>
    obtain ⟨hfar, hapart⟩ := List.pairwise_cons.mp hapart
    obtain ⟨w, hw, hle, hlt⟩ := hcover t List.mem_cons_self
    have hrest : ts.length ≤ (ws.erase w).length := by
      apply ih hapart
      intro u hu
      obtain ⟨v, hv, hvle, hvlt⟩ := hcover u (List.mem_cons_of_mem t hu)
      have hne : v ≠ w := by
        rintro rfl
        have := hfar u hu
        omega
      exact ⟨v, (List.mem_erase_of_ne hne).mpr hv, hvle, hvlt⟩
    have hpos := List.length_pos_of_mem hw
    rw [List.length_erase_of_mem hw] at hrest
    rw [List.length_cons]
    omega

theorem length_starts_le (hsorted : xs.Pairwise (· ≤ ·))
    (hcover : ∀ x ∈ xs, ∃ w ∈ ws, w ≤ x ∧ x < w + k) : (starts k xs).length ≤ ws.length := by
  cases xs with
  | nil => exact Nat.zero_le _
  | cons x xs =>
    apply length_le_of_apart (pairwise_startsFrom hsorted)
    intro t ht
    apply hcover
    rcases mem_startsFrom ht hsorted with rfl | ⟨hmem, -⟩
    · exact List.mem_cons_self
    · exact List.mem_cons_of_mem x hmem

end Rtc.Windows
