import Rtc.Shared.Proofs.WrappedWindow

/-!
# What a failed check leaves in a replay detector

A `check` writes `accepted` and `seq`, which the next `check` overwrites before anything reads them. Two detectors
that agree up to `forget`, which drops them, answer every further sequence of calls alike.
-/

namespace Rtc.Shared

namespace SlidingWindowDetector

/-- The detector without what the last `check` noted. -/
def forget (d : SlidingWindowDetector) : SlidingWindowDetector := { d with accepted := false, seq := 0 }

theorem check_forget_fst (d : SlidingWindowDetector) (s : Nat) : (d.forget.check s).1 = (d.check s).1 := by
  rw [Bool.eq_iff_iff, check_fst_iff, check_fst_iff]
  rfl

theorem forget_check_snd (d : SlidingWindowDetector) (s : Nat) : (d.check s).2.forget = d.forget := by
  rw [check_snd]
  split <;> rfl

theorem check_forget_snd {d : SlidingWindowDetector} {s : Nat} (h : (d.check s).1 = true) :
    (d.forget.check s).2 = (d.check s).2 := by
  rw [check_snd, check_snd, check_forget_fst, if_pos h, if_pos h]
  rfl

end SlidingWindowDetector

namespace WrappedSlidingWindowDetector

/-- The detector without what the last `check` noted. -/
def forget (d : WrappedSlidingWindowDetector) : WrappedSlidingWindowDetector :=
  { d with accepted := false, seq := 0 }

theorem ready_forget_latestSeq (d : WrappedSlidingWindowDetector) (s : Nat) :
    (d.forget.ready s).latestSeq = (d.ready s).latestSeq := by
  unfold ready start forget
  dsimp only
  split <;> rfl

theorem check_forget_fst (d : WrappedSlidingWindowDetector) (s : Nat) : (d.forget.check s).1 = (d.check s).1 := by
  rw [Bool.eq_iff_iff, check_fst_iff, check_fst_iff, ready_forget_latestSeq]
  rfl

variable {d : WrappedSlidingWindowDetector}

theorem forget_check_snd (hinit : d.init = true) (s : Nat) : (d.check s).2.forget = d.forget := by
  have hready : d.ready s = { d with accepted := false } := by simp [ready, start, hinit]
  rw [check_snd, hready]
  split
  · rfl
  · split <;> rfl

theorem check_forget_snd {s : Nat} (h : (d.check s).1 = true) : (d.forget.check s).2 = (d.check s).2 := by
  have hs : ¬ d.maxSeq < s := by
    have := ((check_fst_iff d s).mp h).1
    omega
  rw [check_snd, check_snd, check_forget_fst, if_pos h, if_pos h, if_neg hs, if_neg (by exact hs)]
  unfold ready start forget
  dsimp only
  split <;> rfl

theorem init_check {s : Nat} (h : (d.check s).1 = true) : (d.check s).2.init = true := by
  have hs : ¬ d.maxSeq < s := by
    have := ((check_fst_iff d s).mp h).1
    omega
  rw [check_snd, if_neg hs, if_pos h]
  exact ready_init d s

theorem init_check_of_init (hinit : d.init = true) (s : Nat) : (d.check s).2.init = true := by
  rw [check_snd]
  split
  · exact hinit
  · split <;> exact ready_init d s

theorem init_accept (d : WrappedSlidingWindowDetector) : d.accept.init = d.init := by
  simp only [accept]
  split
  · split <;> rfl
  · rfl

end WrappedSlidingWindowDetector

namespace ReplayDetector

/-- The detector without what the last `check` noted. -/
def forget : ReplayDetector → ReplayDetector
  | .noOp => .noOp
  | .sliding d => .sliding d.forget
  | .wrapped d => .wrapped d.forget

/-- The head of the window no longer depends on which number is checked first. -/
def Initialised : ReplayDetector → Prop
  | .wrapped d => d.init = true
  | _ => True

theorem check_forget_fst (d : ReplayDetector) (s : Nat) : (d.forget.check s).1 = (d.check s).1 := by
  cases d with
  | noOp => rfl
  | sliding d => exact d.check_forget_fst s
  | wrapped d => exact d.check_forget_fst s

variable {d : ReplayDetector} {s : Nat}

theorem forget_check_snd (hinit : d.Initialised) (s : Nat) : (d.check s).2.forget = d.forget := by
  cases d with
  | noOp => rfl
  | sliding d => exact congrArg sliding (d.forget_check_snd s)
  | wrapped d => exact congrArg wrapped (WrappedSlidingWindowDetector.forget_check_snd hinit s)

theorem check_forget_snd (h : (d.check s).1 = true) : (d.forget.check s).2 = (d.check s).2 := by
  cases d with
  | noOp => rfl
  | sliding d => exact congrArg sliding (SlidingWindowDetector.check_forget_snd h)
  | wrapped d => exact congrArg wrapped (WrappedSlidingWindowDetector.check_forget_snd h)

theorem initialised_accept (h : (d.check s).1 = true) : (d.check s).2.accept.Initialised := by
  cases d with
  | noOp => trivial
  | sliding d => trivial
  | wrapped d =>
    change (d.check s).2.accept.init = true
    rw [WrappedSlidingWindowDetector.init_accept]
    exact WrappedSlidingWindowDetector.init_check h

theorem initialised_check (hinit : d.Initialised) (s : Nat) : (d.check s).2.Initialised := by
  cases d with
  | noOp => trivial
  | sliding d => trivial
  | wrapped d => exact WrappedSlidingWindowDetector.init_check_of_init hinit s

theorem check_fst_congr {d' : ReplayDetector} (h : d.forget = d'.forget) (s : Nat) :
    (d.check s).1 = (d'.check s).1 := by
  rw [← check_forget_fst d, ← check_forget_fst d', h]

theorem check_snd_congr {d' : ReplayDetector} (h : d.forget = d'.forget)
    (hd : (d.check s).1 = true) : (d.check s).2 = (d'.check s).2 := by
  have hd' : (d'.check s).1 = true := by rw [← check_fst_congr h]; exact hd
  rw [← check_forget_snd hd, ← check_forget_snd hd', h]

end ReplayDetector
end Rtc.Shared
