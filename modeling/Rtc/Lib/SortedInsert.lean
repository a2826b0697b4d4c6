import Mathlib.Tactic

/-!
# Insertion at a partition point

A list with distinct, increasing keys, and the insertion of an element after those with a smaller key. `partitionPoint`
counts the elements before the first that fails a test, as a binary search finds it.
-/

namespace Rtc.SortedInsert

variable {α : Type*} (p : α → Bool)

/-- The number of elements before the first that fails `p`. -/
def partitionPoint (p : α → Bool) (l : List α) : Nat := (l.takeWhile p).length

/-- `x` put before the first element that fails `p`. -/
def insertBy (p : α → Bool) (x : α) (l : List α) : List α := l.insertIdx (partitionPoint p l) x

theorem insertBy_eq (x : α) (l : List α) : insertBy p x l = l.takeWhile p ++ x :: l.dropWhile p := by
  unfold insertBy partitionPoint
  induction l with
  | nil => rfl
  | cons y l ih =>
    cases hp : p y with
    | false => simp [hp]
    | true =>
      simp only [List.takeWhile_cons, List.dropWhile_cons, hp, if_true, List.length_cons,
        List.insertIdx_succ_cons, ih, List.cons_append]

theorem perm_insertBy (x : α) (l : List α) : (insertBy p x l).Perm (x :: l) := by
  rw [insertBy_eq]
  refine List.perm_middle.trans (List.Perm.cons x ?_)
  rw [List.takeWhile_append_dropWhile]

@[simp] theorem mem_insertBy {p : α → Bool} {x y : α} {l : List α} : y ∈ insertBy p x l ↔ y = x ∨ y ∈ l := by
  rw [(perm_insertBy p x l).mem_iff, List.mem_cons]

@[simp] theorem length_insertBy (x : α) (l : List α) : (insertBy p x l).length = l.length + 1 := by
  rw [(perm_insertBy p x l).length_eq, List.length_cons]

theorem insertBy_of_forall {p : α → Bool} {l : List α} (h : ∀ y ∈ l, p y = true) (x : α) :
    insertBy p x l = l ++ [x] := by
  rw [insertBy_eq]
  induction l with
  | nil => rfl
  | cons y l ih =>
    obtain ⟨hy, hl⟩ := List.forall_mem_cons.mp h
    rw [List.takeWhile_cons_of_pos hy, List.dropWhile_cons_of_pos hy, List.cons_append, ih hl,
      List.cons_append]

theorem getElem?_partitionPoint (l : List α) : l[partitionPoint p l]? = (l.dropWhile p).head? := by
  unfold partitionPoint
  induction l with
  | nil => rfl
  | cons y l ih =>
    cases hp : p y with
    | false => simp [hp]
    | true => simpa [hp] using ih

theorem set_partitionPoint {p : α → Bool} {l rest : List α} {x : α} (h : l.dropWhile p = x :: rest)
    (y : α) : l.set (partitionPoint p l) y = l.takeWhile p ++ y :: rest := by
  unfold partitionPoint
  induction l with
  | nil => cases h
  | cons z l ih =>
    cases hp : p z with
    | false =>
      rw [List.dropWhile_cons_of_neg (by simp [hp])] at h
      obtain ⟨rfl, rfl⟩ := List.cons.inj h
      simp [hp]
    | true =>
      rw [List.dropWhile_cons_of_pos hp] at h
      rw [List.takeWhile_cons_of_pos hp, List.length_cons, List.set_cons_succ, ih h, List.cons_append]

section Keys

variable (key : α → Nat)

/-- The keys increase along the list. -/
def Increasing (l : List α) : Prop := l.Pairwise fun a b => key a < key b

variable {key} {p : α → Bool} {x : α} {l : List α}

theorem Increasing.nil : Increasing key [] := List.Pairwise.nil

theorem Increasing.tail {y : α} (h : Increasing key (y :: l)) : Increasing key l :=
  (List.pairwise_cons.mp h).2

theorem Increasing.split (hl : Increasing key l) (hp : ∀ y ∈ l, p y = true ↔ key y < key x) :
    (∀ y ∈ l.takeWhile p, key y < key x) ∧ ∀ y ∈ l.dropWhile p, key x ≤ key y := by
  induction l with
  | nil => simp
  | cons z l ih =>
    obtain ⟨hz, hl'⟩ := List.pairwise_cons.mp hl
    have hpz := hp z List.mem_cons_self
    obtain ⟨htake, hdrop⟩ := ih hl' fun y hy => hp y (List.mem_cons_of_mem z hy)
    by_cases hlt : key z < key x
    · rw [List.takeWhile_cons_of_pos (hpz.mpr hlt), List.dropWhile_cons_of_pos (hpz.mpr hlt)]
      refine ⟨fun y hy => ?_, hdrop⟩
      rcases List.mem_cons.mp hy with rfl | hy
      · exact hlt
      · exact htake y hy
    · have hnot : ¬ p z = true := fun h => hlt (hpz.mp h)
      rw [List.takeWhile_cons_of_neg hnot, List.dropWhile_cons_of_neg hnot]
      refine ⟨fun y hy => (List.not_mem_nil hy).elim, fun y hy => ?_⟩
      rcases List.mem_cons.mp hy with rfl | hy
      · exact Nat.le_of_not_lt hlt
      · exact (Nat.le_of_not_lt hlt).trans (hz y hy).le

theorem Increasing.insertBy (hl : Increasing key l) (hp : ∀ y ∈ l, p y = true ↔ key y < key x)
    (hx : ∀ y ∈ l, key y ≠ key x) : Increasing key (insertBy p x l) := by
  obtain ⟨htake, hdrop⟩ := hl.split hp
  have hsplit : Increasing key (l.takeWhile p ++ l.dropWhile p) := by
    rwa [List.takeWhile_append_dropWhile]
  obtain ⟨hleft, hright, hacross⟩ := List.pairwise_append.mp hsplit
  rw [insertBy_eq]
  refine List.pairwise_append.mpr ⟨hleft, List.pairwise_cons.mpr ⟨fun y hy => ?_, hright⟩, ?_⟩
  · have hmem : y ∈ l := (List.dropWhile_suffix p).subset hy
    have := hdrop y hy
    have := hx y hmem
    omega
  · intro y hy z hz
    rcases List.mem_cons.mp hz with rfl | hz
    · exact htake y hy
    · exact hacross y hy z hz

theorem Increasing.consecutive {before after m : List α} (hl : Increasing key (before ++ x :: after))
    (hm : m ⊆ before ++ x :: after) (hchain : (x :: m).IsChain fun y z => key z = key y + 1) :
    ∃ rest, after = m ++ rest := by
  induction m generalizing x before after with
  | nil => exact ⟨after, rfl⟩
  | cons y m ih =>
    obtain ⟨hkey, hrest⟩ := List.isChain_cons_cons.mp hchain
    obtain ⟨-, hright, hacross⟩ := List.pairwise_append.mp hl
    obtain ⟨hx, hafter⟩ := List.pairwise_cons.mp hright
    -- `y` comes after `x`, and nothing fits between the two
    obtain ⟨z, after, rfl⟩ : ∃ z after', after = z :: after' := by
      rcases List.mem_append.mp (hm List.mem_cons_self) with hy | hy
      · have := hacross y hy x List.mem_cons_self
        omega
      · rcases List.mem_cons.mp hy with rfl | hy
        · omega
        · exact List.exists_cons_of_ne_nil (List.ne_nil_of_mem hy)
    have hzx := hx z List.mem_cons_self
    obtain rfl : z = y := by
      rcases List.mem_append.mp (hm List.mem_cons_self) with hy | hy
      · have := hacross y hy x List.mem_cons_self
        omega
      · rcases List.mem_cons.mp hy with rfl | hy
        · omega
        · rcases List.mem_cons.mp hy with rfl | hy
          · rfl
          · have := (List.pairwise_cons.mp hafter).1 y hy
            omega
    have hshift : before ++ x :: z :: after = (before ++ [x]) ++ z :: after := by simp
    rw [hshift] at hl hm
    obtain ⟨rest, rfl⟩ := ih hl (fun w hw => hm (List.mem_cons_of_mem z hw)) hrest
    exact ⟨rest, rfl⟩

end Keys

end Rtc.SortedInsert
