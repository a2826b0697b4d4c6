import Mathlib.Data.List.AList
import Mathlib.Tactic

/-!
# Finite tables

Association lists with distinct keys (`AList`), with the in-place updates a hash map's `get_mut` and
`values_mut` make, and sums over the values.
-/

namespace Rtc

/-- A finite map from `κ` to `ν`. -/
abbrev Table (κ ν : Type*) := AList fun _ : κ => ν

namespace Table

variable {κ ν : Type*}

/-- The stored values. -/
def values (m : Table κ ν) : List ν := m.entries.map Sigma.snd

/-- Every value replaced by a function of its key and itself. -/
def update (f : κ → ν → ν) (m : Table κ ν) : Table κ ν where
  entries := m.entries.map fun e => ⟨e.1, f e.1 e.2⟩
  nodupKeys := by
    have hkeys : (m.entries.map fun e => (⟨e.1, f e.1 e.2⟩ : Sigma fun _ : κ => ν)).keys
        = m.entries.keys := by
      simp [List.keys, Function.comp_def]
    exact (congrArg List.Nodup hkeys).mpr m.keys_nodup

/-- The entries that satisfy `p`. -/
def retain (p : κ → ν → Bool) (m : Table κ ν) : Table κ ν where
  entries := m.entries.filter fun e => p e.1 e.2
  nodupKeys := m.nodupKeys.sublist List.filter_sublist

/-- The sum of `g` over the values. -/
def total (g : ν → Nat) (m : Table κ ν) : Nat := (m.values.map g).sum

@[simp] theorem keys_update (f : κ → ν → ν) (m : Table κ ν) : (update f m).keys = m.keys := by
  simp [update, AList.keys, List.keys, Function.comp_def]

variable [DecidableEq κ]

/-- The value at `k` replaced in place, if there is one. -/
def adjust (k : κ) (f : ν → ν) (m : Table κ ν) : Table κ ν :=
  update (fun k' v => if k' = k then f v else v) m

/-- The value at `k` replaced in place, or `v` stored there. -/
def upsert (k : κ) (f : ν → ν) (v : ν) (m : Table κ ν) : Table κ ν :=
  match m.lookup k with
  | some _ => adjust k f m
  | none => m.insert k v

variable {m : Table κ ν} {k k' : κ} {v : ν} {g : ν → Nat}

@[simp] theorem keys_adjust (k : κ) (f : ν → ν) (m : Table κ ν) : (adjust k f m).keys = m.keys :=
  keys_update _ m

@[simp] theorem mem_adjust {f : ν → ν} : k' ∈ adjust k f m ↔ k' ∈ m := by
  rw [AList.mem_keys, keys_adjust, ← AList.mem_keys]

theorem lookup_update (f : κ → ν → ν) (m : Table κ ν) (k : κ) :
    (update f m).lookup k = (m.lookup k).map (f k) := by
  have hlist : ∀ l : List (Sigma fun _ : κ => ν),
      (l.map fun e => (⟨e.1, f e.1 e.2⟩ : Sigma fun _ : κ => ν)).dlookup k
        = (l.dlookup k).map (f k) := by
    intro l
    induction l with
    | nil => rfl
    | cons e l ih =>
      obtain ⟨k', v⟩ := e
      by_cases hk : k' = k
      · subst hk
        simp
      · rw [List.map_cons, List.dlookup_cons_ne _ _ (Ne.symm hk), ih,
          List.dlookup_cons_ne _ _ (Ne.symm hk)]
  exact hlist m.entries

theorem lookup_adjust (k : κ) (f : ν → ν) (m : Table κ ν) (k' : κ) :
    (adjust k f m).lookup k' = if k' = k then (m.lookup k').map f else m.lookup k' := by
  rw [adjust, lookup_update]
  split
  · rfl
  · simp

@[simp] theorem lookup_adjust_self (k : κ) (f : ν → ν) (m : Table κ ν) :
    (adjust k f m).lookup k = (m.lookup k).map f := by
  rw [lookup_adjust, if_pos rfl]

theorem mem_iff_lookup : k ∈ m ↔ ∃ v, m.lookup k = some v := by
  rw [← AList.lookup_isSome, Option.isSome_iff_exists]

theorem mem_of_lookup (h : m.lookup k = some v) : k ∈ m := mem_iff_lookup.mpr ⟨v, h⟩

theorem lookup_retain (p : κ → ν → Bool) (m : Table κ ν) (k : κ) :
    (retain p m).lookup k = (m.lookup k).filter (p k) := by
  ext v
  have hmem : (retain p m).lookup k = some v ↔ (⟨k, v⟩ : Sigma fun _ : κ => ν) ∈ (retain p m).entries :=
    AList.mem_lookup_iff
  have hmem' : m.lookup k = some v ↔ (⟨k, v⟩ : Sigma fun _ : κ => ν) ∈ m.entries :=
    AList.mem_lookup_iff
  rw [hmem, Option.filter_eq_some_iff, hmem', retain, List.mem_filter]

theorem lookup_insert (m : Table κ ν) (k k' : κ) (v : ν) :
    (m.insert k v).lookup k' = if k' = k then some v else m.lookup k' := by
  split
  · subst k'
    exact AList.lookup_insert _
  · exact AList.lookup_insert_ne ‹_›

theorem map_lookup_insert {μ : Type*} {f : ν → μ} (h : (m.lookup k).map f = some (f v)) (k' : κ) :
    (m.lookup k').map f = ((m.insert k v).lookup k').map f := by
  rw [lookup_insert]
  split
  · subst k'
    exact h
  · rfl

theorem forall_lookup_insert {P : ν → Prop} (h : ∀ k v, m.lookup k = some v → P v) (hv : P v) (k' : κ) {v' : ν}
    (hv' : (m.insert k v).lookup k' = some v') : P v' := by
  rw [lookup_insert] at hv'
  split at hv'
  · obtain rfl := Option.some.inj hv'
    exact hv
  · exact h k' v' hv'

/-! ## Sums -/

theorem sum_map_entries {f : (Sigma fun _ : κ => ν) → Nat} (h : m.lookup k = some v)
    (hzero : ∀ e ∈ m.entries, e.1 ≠ k → f e = 0) : (m.entries.map f).sum = f ⟨k, v⟩ := by
  have hlist : ∀ l : List (Sigma fun _ : κ => ν), l.NodupKeys → (⟨k, v⟩ ∈ l) →
      (∀ e ∈ l, e.1 ≠ k → f e = 0) → (l.map f).sum = f ⟨k, v⟩ := by
    intro l hl hmem hzero
    induction l with
    | nil => cases hmem
    | cons e l ih =>
      obtain ⟨hnot, hl'⟩ := List.nodupKeys_cons.mp hl
      rw [List.map_cons, List.sum_cons]
      rcases List.mem_cons.mp hmem with rfl | hmem
      · have hrest : (l.map f).sum = 0 := by
          rw [List.sum_eq_zero_iff]
          intro n hn
          obtain ⟨e, he, rfl⟩ := List.mem_map.mp hn
          have hkey : e.1 ∈ l.keys := List.mem_keys_of_mem he
          exact hzero e (List.mem_cons_of_mem _ he) fun heq => hnot (heq ▸ hkey)
        rw [hrest, Nat.add_zero]
      · have hkey : k ∈ l.keys := List.mem_keys_of_mem hmem
        have hne : e.1 ≠ k := fun heq => hnot (heq ▸ hkey)
        rw [hzero e List.mem_cons_self hne, Nat.zero_add,
          ih hl' hmem fun e he => hzero e (List.mem_cons_of_mem _ he)]
  exact hlist m.entries m.nodupKeys (AList.mem_lookup_iff.mp h) hzero

omit [DecidableEq κ] in
@[simp] theorem total_empty (g : ν → Nat) : total g (∅ : Table κ ν) = 0 := rfl

theorem total_insert (g : ν → Nat) (h : k ∉ m) (v : ν) : total g (m.insert k v) = g v + total g m := by
  rw [total, values, AList.entries_insert_of_notMem h]
  rfl

theorem total_erase (g : ν → Nat) (h : m.lookup k = some v) : total g m = g v + total g (m.erase k) := by
  obtain ⟨v', l₁, l₂, hnot, hm, herase⟩ :=
    List.exists_of_kerase (AList.mem_keys.mp (mem_of_lookup h))
  have hv : v' = v := by
    have hmem : (⟨k, v'⟩ : Sigma fun _ : κ => ν) ∈ m.entries := by simp [hm]
    rw [← AList.mem_lookup_iff, h] at hmem
    exact (Option.some.inj hmem).symm
  subst hv
  change ((m.entries.map Sigma.snd).map g).sum
    = g v' + (((m.entries.kerase k).map Sigma.snd).map g).sum
  rw [herase, hm]
  simp only [List.map_append, List.map_cons, List.sum_append, List.sum_cons]
  omega

omit [DecidableEq κ] in
theorem total_update {f : κ → ν → ν} (h : ∀ k v, g (f k v) = g v) (m : Table κ ν) :
    total g (update f m) = total g m := by
  simp [total, values, update, Function.comp_def, h]

theorem erase_adjust (k : κ) (f : ν → ν) (m : Table κ ν) : (adjust k f m).erase k = m.erase k := by
  have hlist : ∀ l : List (Sigma fun _ : κ => ν), l.NodupKeys →
      (l.map fun e => (⟨e.1, if e.1 = k then f e.2 else e.2⟩ : Sigma fun _ : κ => ν)).kerase k
        = l.kerase k := by
    intro l hl
    induction l with
    | nil => rfl
    | cons e l ih =>
      obtain ⟨k', v⟩ := e
      obtain ⟨hnot, hl'⟩ := List.nodupKeys_cons.mp hl
      by_cases hk : k = k'
      · subst hk
        rw [List.map_cons, List.kerase_cons_eq (by rfl), List.kerase_cons_eq (by rfl)]
        have hid : ∀ e ∈ l, (⟨e.1, if e.1 = k then f e.2 else e.2⟩ : Sigma fun _ : κ => ν) = e := by
          intro e he
          have hmem : e.1 ∈ l.keys := List.mem_map_of_mem he
          have hne : e.1 ≠ k := fun h => hnot (h ▸ hmem)
          rw [if_neg hne]
        exact (List.map_congr_left hid).trans (List.map_id _)
      · rw [List.map_cons, List.kerase_cons_ne hk, List.kerase_cons_ne hk, ih hl', if_neg (Ne.symm hk)]
  exact AList.ext (hlist m.entries m.nodupKeys)

theorem total_adjust {f : ν → ν} (h : m.lookup k = some v) :
    total g (adjust k f m) + g v = total g m + g (f v) := by
  have hnew : (adjust k f m).lookup k = some (f v) := by rw [lookup_adjust_self, h]; rfl
  rw [total_erase g hnew, total_erase g h, erase_adjust]
  omega

theorem le_total (h : m.lookup k = some v) : g v ≤ total g m := by
  rw [total_erase g h]
  exact Nat.le_add_right _ _

end Table
end Rtc
