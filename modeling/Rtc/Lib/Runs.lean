import Mathlib.Tactic

/-!
# Runs of a step function

A run feeds a step function `step : σ → ε → σ` a list of events; by `Meets ok` every event is allowed in the state it
arrives in. The rules turn what one step preserves into what a whole run preserves.
-/

namespace Rtc.Runs

variable {σ ε : Type*} (step : σ → ε → σ) {ok : σ → ε → Prop} {I G : σ → Prop} {s : σ} {es : List ε}

/-- The state after the events `es`. -/
def run (s : σ) (es : List ε) : σ := es.foldl step s

@[simp] theorem run_nil (s : σ) : run step s [] = s := rfl

@[simp] theorem run_cons (s : σ) (e : ε) (es : List ε) :
    run step s (e :: es) = run step (step s e) es := rfl

theorem run_append (s : σ) (es es' : List ε) :
    run step s (es ++ es') = run step (run step s es) es' := List.foldl_append

/-- Every event of the run satisfies `ok` in the state it arrives in. -/
def Meets (ok : σ → ε → Prop) : σ → List ε → Prop
  | _, [] => True
  | s, e :: es => ok s e ∧ Meets ok (step s e) es

instance decidableMeets [∀ s e, Decidable (ok s e)] :
    ∀ (s : σ) (es : List ε), Decidable (Meets step ok s es)
  | _, [] => inferInstanceAs (Decidable True)
  | s, e :: es =>
    have := decidableMeets (step s e) es
    inferInstanceAs (Decidable (_ ∧ _))

variable {step} in
theorem meets_of_append {es' : List ε} (h : Meets step ok s (es ++ es')) : Meets step ok (run step s es) es' := by
  induction es generalizing s with
  | nil => exact h
  | cons e es ih => exact ih h.2

variable {step} in
theorem meets_of_append_left {es' : List ε} (h : Meets step ok s (es ++ es')) : Meets step ok s es := by
  induction es generalizing s with
  | nil => trivial
  | cons e es ih => exact ⟨h.1, ih h.2⟩

variable {step} in
theorem Meets.and {ok' : σ → ε → Prop} (h : Meets step ok s es)
    (h' : Meets step ok' s es) : Meets step (fun s e => ok s e ∧ ok' s e) s es := by
  induction es generalizing s with
  | nil => trivial
  | cons e es ih => exact ⟨⟨h.1, h'.1⟩, ih h.2 h'.2⟩

theorem inv_run (hstep : ∀ s e, I s → ok s e → I (step s e)) (hs : I s)
    (hes : Meets step ok s es) : I (run step s es) := by
  induction es generalizing s with
  | nil => exact hs
  | cons e es ih => exact ih (hstep s e hs hes.1) hes.2

theorem inv_run_of_step (hstep : ∀ s e, I s → I (step s e)) (hs : I s) (es : List ε) : I (run step s es) := by
  induction es generalizing s with
  | nil => exact hs
  | cons e es ih => exact ih (hstep s e hs)

/-- When allowed steps keep the invariant, the invariant implies `G`, and every step that is
    not allowed leads to a bad state, the runs through good states only are the allowed ones. -/
theorem forall_good_iff_meets (hgood : ∀ s, I s → G s) (hstep : ∀ s e, I s → ok s e → I (step s e))
    (hbad : ∀ s e, I s → ¬ ok s e → ¬ G (step s e)) (hs : I s) (es : List ε) :
    (∀ pre, pre <+: es → G (run step s pre)) ↔ Meets step ok s es := by
  induction es generalizing s with
  | nil =>
    refine ⟨fun _ => trivial, fun _ pre hpre => ?_⟩
    rw [List.prefix_nil.mp hpre]
    exact hgood s hs
  | cons e es ih =>
    constructor
    · intro hall
      have hok : ok s e := by
        by_contra hnot
        exact hbad s e hs hnot (hall [e] ⟨es, rfl⟩)
      refine ⟨hok, (ih (hstep s e hs hok)).mp fun pre hpre => ?_⟩
      exact hall (e :: pre) (List.cons_prefix_cons.mpr ⟨rfl, hpre⟩)
    · rintro ⟨hok, hrest⟩ pre hpre
      cases pre with
      | nil => exact hgood s hs
      | cons e' pre =>
        obtain ⟨rfl, htail⟩ := List.cons_prefix_cons.mp hpre
        exact (ih (hstep s e' hs hok)).mpr hrest pre htail

end Rtc.Runs
