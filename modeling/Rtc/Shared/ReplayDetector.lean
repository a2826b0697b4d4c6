import Rtc.Shared.FixedBigInt

/-!
# Replay detectors

`ReplayDetector` and its three implementations, from `rtc-shared/src/replay_detector/mod.rs`. The additions,
subtractions and casts that can leave their type's range are reduced explicitly, as an optimised build computes them.
-/

namespace Rtc.Shared

/-- A value of type `u64`. -/
def u64 (x : Nat) : Nat := x % 2 ^ 64

/-- A value of type `i64`, also the cast `as i64` of a `u64`. -/
def i64 (x : Int) : Int := Int.bmod x (2 ^ 64)

/-- `SlidingWindowDetector` (`replay_detector/mod.rs:28-35`). -/
structure SlidingWindowDetector where
  accepted : Bool
  seq : Nat
  latestSeq : Nat
  maxSeq : Nat
  windowSize : Nat
  mask : FixedBigInt
  mask_n : mask.n = windowSize
  deriving DecidableEq

namespace SlidingWindowDetector

/-- `SlidingWindowDetector::new` (`replay_detector/mod.rs:43-52`). -/
def new (windowSize maxSeq : Nat) : SlidingWindowDetector where
  accepted := false
  seq := 0
  latestSeq := 0
  maxSeq := maxSeq
  windowSize := windowSize
  mask := FixedBigInt.new windowSize
  mask_n := rfl

/-- `SlidingWindowDetector::check` (`replay_detector/mod.rs:56-77`). -/
def check (d : SlidingWindowDetector) (seq : Nat) : Bool × SlidingWindowDetector :=
  let d := { d with accepted := false }
  if d.maxSeq < seq then (false, d)
  else if seq ≤ d.latestSeq ∧ u64 (d.windowSize + seq) ≤ d.latestSeq then (false, d)
  else if seq ≤ d.latestSeq ∧ d.mask.bit (d.latestSeq - seq) ≠ 0 then (false, d)
  else (true, { d with accepted := true, seq := seq })

/-- The head update of `SlidingWindowDetector::accept` (`replay_detector/mod.rs:84-88`). -/
def advance (d : SlidingWindowDetector) : SlidingWindowDetector :=
  if d.latestSeq < d.seq then
    { d with
      mask := d.mask.lsh (d.seq - d.latestSeq)
      mask_n := by rw [FixedBigInt.n_lsh, d.mask_n]
      latestSeq := d.seq }
  else d

/-- `SlidingWindowDetector::accept` (`replay_detector/mod.rs:79-91`). -/
def accept (d : SlidingWindowDetector) : SlidingWindowDetector :=
  if d.accepted then
    let d := d.advance
    let diff := (d.latestSeq - d.seq) % d.maxSeq
    { d with
      mask := d.mask.setBit diff
      mask_n := by rw [FixedBigInt.n_setBit, d.mask_n] }
  else d

end SlidingWindowDetector

/-- `WrappedSlidingWindowDetector` (`replay_detector/mod.rs:98-106`). -/
structure WrappedSlidingWindowDetector where
  accepted : Bool
  seq : Nat
  latestSeq : Nat
  maxSeq : Nat
  windowSize : Nat
  mask : FixedBigInt
  init : Bool
  mask_n : mask.n = windowSize
  deriving DecidableEq

namespace WrappedSlidingWindowDetector

/-- `WrappedSlidingWindowDetector::new` (`replay_detector/mod.rs:113-123`). -/
def new (windowSize maxSeq : Nat) : WrappedSlidingWindowDetector where
  accepted := false
  seq := 0
  latestSeq := 0
  maxSeq := maxSeq
  windowSize := windowSize
  mask := FixedBigInt.new windowSize
  init := false
  mask_n := rfl

/-- The wrapped distance from `seq` up to the head, computed alike by `check` and `accept`
    (`replay_detector/mod.rs:143-149`, `170-176`). -/
def wrapDiff (maxSeq latestSeq seq : Nat) : Int :=
  let diff := i64 (i64 latestSeq - i64 seq)
  if (i64 maxSeq).tdiv 2 < diff then i64 (diff - i64 (u64 (maxSeq + 1)))
  else if diff ≤ -(i64 maxSeq).tdiv 2 then i64 (diff + i64 (u64 (maxSeq + 1)))
  else diff

/-- The first-use initialisation of `check` (`replay_detector/mod.rs:134-141`). -/
def start (d : WrappedSlidingWindowDetector) (seq : Nat) : WrappedSlidingWindowDetector :=
  if d.init then d
  else { d with latestSeq := if seq ≠ 0 then seq - 1 else d.maxSeq, init := true }

/-- `WrappedSlidingWindowDetector::check` (`replay_detector/mod.rs:127-163`). -/
def check (d : WrappedSlidingWindowDetector) (seq : Nat) : Bool × WrappedSlidingWindowDetector :=
  let d := { d with accepted := false }
  if d.maxSeq < seq then (false, d)
  else
    let d := d.start seq
    let diff := wrapDiff d.maxSeq d.latestSeq seq
    if i64 d.windowSize ≤ diff then (false, d)
    else if 0 ≤ diff ∧ d.mask.bit diff.toNat ≠ 0 then (false, d)
    else (true, { d with accepted := true, seq := seq })

/-- `WrappedSlidingWindowDetector::accept` (`replay_detector/mod.rs:165-188`). The assertion of
    line 178 repeats the guard of the `check` that set `accepted`. -/
def accept (d : WrappedSlidingWindowDetector) : WrappedSlidingWindowDetector :=
  if d.accepted then
    let diff := wrapDiff d.maxSeq d.latestSeq d.seq
    if diff < 0 then
      { d with
        mask := (d.mask.lsh (-diff).toNat).setBit 0
        mask_n := by rw [FixedBigInt.n_setBit, FixedBigInt.n_lsh, d.mask_n]
        latestSeq := d.seq }
    else
      { d with
        mask := d.mask.setBit diff.toNat
        mask_n := by rw [FixedBigInt.n_setBit, d.mask_n] }
  else d

end WrappedSlidingWindowDetector

/-- A boxed `dyn ReplayDetector`. -/
inductive ReplayDetector where
  | noOp
  | sliding (d : SlidingWindowDetector)
  | wrapped (d : WrappedSlidingWindowDetector)
  deriving DecidableEq

namespace ReplayDetector

/-- `ReplayDetector::check` (`replay_detector/mod.rs:16`, `198-200`). -/
def check : ReplayDetector → Nat → Bool × ReplayDetector
  | .noOp, _ => (true, .noOp)
  | .sliding d, seq => ((d.check seq).1, .sliding (d.check seq).2)
  | .wrapped d, seq => ((d.check seq).1, .wrapped (d.check seq).2)

/-- `ReplayDetector::accept` (`replay_detector/mod.rs:21`, `201`). -/
def accept : ReplayDetector → ReplayDetector
  | .noOp => .noOp
  | .sliding d => .sliding d.accept
  | .wrapped d => .wrapped d.accept

end ReplayDetector
end Rtc.Shared
