import Rtc.Lib.Table

/-!
# Tables with an index

A table whose values have a key of their own, and a second table that leads from such a key to the place
where the value is stored. The rules say what keeps the two inverse to each other.
-/

namespace Rtc.Table

variable {κ ι ν : Type*} [DecidableEq κ] [DecidableEq ι]
  {key : ν → Option κ} {index : Table κ ι} {m : Table ι ν} {k k' : κ} {i i' : ι} {v : ν}

theorem lookup_of_erase (h : (m.erase i').lookup i = some v) : m.lookup i = some v := by
  by_cases hi : i = i'
  · subst hi
    rw [AList.lookup_erase] at h
    cases h
  · rwa [AList.lookup_erase_ne hi] at h

/-- The index leads from a key to a place exactly if the value at that place has the key. -/
def Inverse (key : ν → Option κ) (index : Table κ ι) (m : Table ι ν) : Prop :=
  ∀ k i, index.lookup k = some i ↔ ∃ v, m.lookup i = some v ∧ key v = some k

theorem inverse_empty (key : ν → Option κ) : Inverse key (∅ : Table κ ι) ∅ := by
  intro k i
  simp

namespace Inverse

variable (h : Inverse key index m)
include h

theorem place_eq {w : ν} (hv : m.lookup i = some v) (hw : m.lookup i' = some w)
    (hk : key v = some k) (hk' : key w = some k) : i = i' :=
  Option.some.inj (((h k i).mpr ⟨v, hv, hk⟩).symm.trans ((h k i').mpr ⟨w, hw, hk'⟩))

theorem lookup_of_key (hv : m.lookup i = some v) (hk : key v = some k) :
    index.lookup k = some i := (h k i).mpr ⟨v, hv, hk⟩

/-- Storing a value under its key keeps the index right exactly if neither the key nor the place is taken,
    except by each other. -/
theorem insert_iff (hk : key v = some k) :
    Inverse key (index.insert k i) (m.insert i v) ↔
      (∀ i', index.lookup k = some i' → i' = i) ∧ ∀ k', index.lookup k' = some i → k' = k := by
  constructor
  · intro h'
    constructor
    · intro i' hi'
      by_contra hne
      obtain ⟨w, hw, hkw⟩ := (h k i').mp hi'
      have hlookup := (h' k i').mpr ⟨w, by rwa [AList.lookup_insert_ne hne], hkw⟩
      rw [AList.lookup_insert] at hlookup
      exact hne (Option.some.inj hlookup).symm
    · intro k' hk'
      by_contra hne
      obtain ⟨w, hw, hkw⟩ := (h' k' i).mp (by rwa [AList.lookup_insert_ne hne])
      rw [AList.lookup_insert] at hw
      rw [← Option.some.inj hw, hk] at hkw
      exact hne (Option.some.inj hkw).symm
  · rintro ⟨hkey, hplace⟩ k' i'
    by_cases hk' : k' = k
    · subst hk'
      rw [AList.lookup_insert]
      by_cases hi : i' = i
      · subst hi
        exact iff_of_true rfl ⟨v, AList.lookup_insert m, hk⟩
      · rw [AList.lookup_insert_ne hi]
        exact iff_of_false (fun heq => hi (Option.some.inj heq).symm)
          fun hw => hi (hkey i' ((h k' i').mpr hw))
    · rw [AList.lookup_insert_ne hk']
      by_cases hi : i' = i
      · subst hi
        refine iff_of_false (fun hw => hk' (hplace k' hw)) ?_
        rintro ⟨w, hw, hkw⟩
        rw [AList.lookup_insert] at hw
        rw [← Option.some.inj hw, hk] at hkw
        exact hk' (Option.some.inj hkw).symm
      · rw [AList.lookup_insert_ne hi]
        exact h k' i'

theorem erase (hv : m.lookup i = some v) (hk : key v = some k) : Inverse key (index.erase k) (m.erase i) := by
  intro k' i'
  by_cases hk' : k' = k
  · subst hk'
    rw [AList.lookup_erase]
    refine iff_of_false nofun ?_
    rintro ⟨w, hw, hkw⟩
    obtain rfl := h.place_eq (lookup_of_erase hw) hv hkw hk
    rw [AList.lookup_erase] at hw
    cases hw
  · rw [AList.lookup_erase_ne hk']
    by_cases hi : i' = i
    · subst hi
      rw [AList.lookup_erase]
      refine iff_of_false (fun hw => ?_) nofun
      obtain ⟨w, hw, hkw⟩ := (h k' i').mp hw
      rw [hv] at hw
      rw [← Option.some.inj hw, hk] at hkw
      exact hk' (Option.some.inj hkw).symm
    · rw [AList.lookup_erase_ne hi]
      exact h k' i'

theorem adjust {f : ν → ν} (hf : ∀ v, key (f v) = key v) (i : ι) : Inverse key index (adjust i f m) := by
  intro k' i'
  rw [lookup_adjust]
  split
  case isTrue => simp only [Option.map_eq_some_iff, exists_exists_and_eq_and, hf, h k' i']
  case isFalse => exact h k' i'

end Inverse
end Rtc.Table
