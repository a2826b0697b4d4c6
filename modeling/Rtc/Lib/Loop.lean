import Mathlib.Tactic

/-!
# Loops with a bound

A body that goes on with a new state (`yield`) or leaves the loop (`done`), run for at most a given number of rounds.
`loop_inv` and `loop_rel` hold for every bound; `loop_post` is the rule of total correctness.
-/

namespace Rtc.Loop

variable {σ : Type*} {body : σ → ForInStep σ} {n : Nat} {s : σ} {R : σ → σ → Prop}

/-- At most `n` rounds of `body`. -/
def loop (body : σ → ForInStep σ) : Nat → σ → σ
  | 0, s => s
  | n + 1, s =>
    match body s with
    | .yield s' => loop body n s'
    | .done s' => s'

theorem loop_yield {s' : σ} (h : body s = .yield s') : loop body (n + 1) s = loop body n s' := by
  rw [loop, h]

theorem loop_done {s' : σ} (h : body s = .done s') : loop body (n + 1) s = s' := by
  rw [loop, h]

theorem loop_inv {I : σ → Prop} (h : ∀ s, I s → I (body s).value) (hs : I s) (n : Nat) : I (loop body n s) := by
  induction n generalizing s with
  | zero => exact hs
  | succ n ih =>
    have hnext := h s hs
    cases hbody : body s with
    | yield s' =>
      rw [hbody] at hnext
      rw [loop_yield hbody]
      exact ih hnext
    | done s' =>
      rw [hbody] at hnext
      rw [loop_done hbody]
      exact hnext

/-- A preorder that relates the states around every round relates those around the loop. -/
theorem loop_rel (hrefl : ∀ s, R s s) (htrans : ∀ {a b c}, R a b → R b c → R a c)
    (h : ∀ s, R s (body s).value) (n : Nat) (s : σ) : R s (loop body n s) :=
  loop_inv (fun t ht => htrans ht (h t)) (hrefl s) n

theorem foldl_rel {α : Type*} {f : σ → α → σ} (hrefl : ∀ s, R s s)
    (htrans : ∀ {a b c}, R a b → R b c → R a c) (h : ∀ s x, R s (f s x)) (l : List α) (s : σ) :
    R s (l.foldl f s) := by
  induction l generalizing s with
  | nil => exact hrefl s
  | cons x l ih => exact htrans (h s x) (ih (f s x))

theorem foldlM_inv {α : Type*} {f : σ → α → Option σ} {I : σ → Prop} (h : ∀ s x s', I s → f s x = some s' → I s')
    (hs : I s) {s' : σ} {l : List α} (hl : l.foldlM f s = some s') : I s' := by
  induction l generalizing s with
  | nil => exact Option.some.inj hl ▸ hs
  | cons x l ih =>
    rw [List.foldlM_cons, Option.bind_eq_bind, Option.bind_eq_some_iff] at hl
    obtain ⟨t, ht, hl⟩ := hl
    exact ih (h _ _ _ hs ht) hl

/-- Total correctness: rounds that go on keep the invariant and lower the measure, the round that
    leaves establishes the postcondition, and the bound is above the measure. -/
theorem loop_post {I P : σ → Prop} (measure : σ → Nat)
    (hyield : ∀ s s', I s → body s = .yield s' → I s' ∧ measure s' < measure s)
    (hdone : ∀ s s', I s → body s = .done s' → P s') (hs : I s) (hn : measure s < n) : P (loop body n s) := by
  induction n generalizing s with
  | zero => omega
  | succ n ih =>
    cases hbody : body s with
    | yield s' =>
      obtain ⟨hinv, hlt⟩ := hyield s s' hs hbody
      rw [loop_yield hbody]
      exact ih hinv (by omega)
    | done s' =>
      rw [loop_done hbody]
      exact hdone s s' hs hbody

end Rtc.Loop
