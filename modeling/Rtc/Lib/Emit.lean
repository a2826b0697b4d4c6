import Rtc.Lib.Bytes

/-!
# Writing into a bounded buffer

A serialiser gets the room that is left and returns the bytes it wrote, or an error. Items are written
one after another, each into what the ones before it left.
-/

namespace Rtc.Emit

variable {ε α : Type}

/-- The items in a row, into a buffer of `available` bytes. -/
def putAll (put : α → Nat → Except ε (List Byte)) : Nat → List α → Except ε (List Byte)
  | _, [] => .ok []
  | available, x :: xs => do
    let bytes ← put x available
    let rest ← putAll put (available - bytes.length) xs
    .ok (bytes ++ rest)

variable {put : α → Nat → Except ε (List Byte)} {available : Nat} {xs : List α} {bytes : List Byte}
  {enc : α → List Byte}

@[simp] theorem putAll_nil (available : Nat) : putAll put available [] = .ok [] := rfl

theorem putAll_cons_eq_ok_iff {x : α} :
    putAll put available (x :: xs) = .ok bytes ↔
      ∃ first rest, put x available = .ok first ∧
        putAll put (available - first.length) xs = .ok rest ∧ bytes = first ++ rest := by
  rw [putAll]
  cases hput : put x available with
  | error e =>
    refine ⟨nofun, ?_⟩
    rintro ⟨first, rest, hfirst, -, -⟩
    cases hfirst
  | ok first =>
    change (putAll put (available - first.length) xs >>= fun rest => .ok (first ++ rest)) = _ ↔ _
    cases hrest : putAll put (available - first.length) xs with
    | error e =>
      refine ⟨nofun, ?_⟩
      rintro ⟨first', rest, hfirst, hrest', -⟩
      obtain rfl := Except.ok.inj hfirst
      rw [hrest] at hrest'
      cases hrest'
    | ok rest =>
      constructor
      · intro hok
        exact ⟨first, rest, rfl, hrest, (Except.ok.inj hok).symm⟩
      · rintro ⟨first', rest', hfirst, hrest', rfl⟩
        obtain rfl := Except.ok.inj hfirst
        rw [hrest] at hrest'
        obtain rfl := Except.ok.inj hrest'
        rfl

theorem putAll_eq_flatMap {P : α → Prop} (h : putAll put available xs = .ok bytes)
    (hput : ∀ x available bytes, put x available = .ok bytes → bytes = enc x ∧ P x) :
    bytes = xs.flatMap enc ∧ ∀ x ∈ xs, P x := by
  induction xs generalizing available bytes with
  | nil =>
    obtain rfl := Except.ok.inj h
    exact ⟨rfl, nofun⟩
  | cons x xs ih =>
    obtain ⟨first, rest, hfirst, hrest, rfl⟩ := putAll_cons_eq_ok_iff.mp h
    obtain ⟨rfl, hx⟩ := hput x available first hfirst
    obtain ⟨rfl, hxs⟩ := ih hrest
    refine ⟨rfl, fun y hy => ?_⟩
    rcases List.mem_cons.mp hy with rfl | hy
    · exact hx
    · exact hxs y hy

/-- If every item is written when there is room for its bytes, a row is written when there is room for
    the bytes of all. -/
theorem putAll_of_room (hput : ∀ x ∈ xs, ∀ available, (enc x).length ≤ available → put x available = .ok (enc x))
    (hroom : (xs.flatMap enc).length ≤ available) : putAll put available xs = .ok (xs.flatMap enc) := by
  induction xs generalizing available with
  | nil => rfl
  | cons x xs ih =>
    rw [List.flatMap_cons, List.length_append] at hroom
    refine putAll_cons_eq_ok_iff.mpr ⟨enc x, xs.flatMap enc, ?_, ?_, List.flatMap_cons⟩
    · exact hput x List.mem_cons_self available (by omega)
    · exact ih (fun y hy => hput y (List.mem_cons_of_mem x hy)) (by omega)

end Rtc.Emit
