import Rtc.Interceptor.Basic

/-!
# Extending sequence numbers

`SequenceExtender` of `rtc-interceptor/src/jitterbuffer/sequence.rs`. A 64-bit value is a natural
number; a sum that leaves the range of `i64` stops the program and gives no result.
-/

namespace Rtc.Interceptor

/-- `SequenceExtender` (`sequence.rs:17-20`). -/
structure SequenceExtender where
  highest : Option Nat
  deriving DecidableEq, Repr

namespace SequenceExtender

/-- `new` (`sequence.rs:23-25`). -/
def new : SequenceExtender := ⟨none⟩

/-- `extend` (`sequence.rs:32-52`). -/
def extend (x : SequenceExtender) (sequenceNumber : Seq) : Option (Nat × SequenceExtender) :=
  match x.highest with
  | none => some (sequenceNumber.toNat, ⟨some sequenceNumber.toNat⟩)
  | some highest =>
    let previous := BitVec.ofNat 16 highest
    let distance := (sequenceNumber - previous).toInt
    let sum := (BitVec.ofNat 64 highest).toInt + distance
    if -2 ^ 63 ≤ sum ∧ sum < 2 ^ 63 then
      let extended := (max sum 0).toNat
      some (extended, if highest < extended then ⟨some extended⟩ else x)
    else none

end SequenceExtender

end Rtc.Interceptor
