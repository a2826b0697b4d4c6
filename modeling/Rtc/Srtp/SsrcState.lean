import Rtc.Shared.ReplayDetector

/-!
# Per-SSRC state

`SrtpSsrcState` and `SrtcpSsrcState` of `rtc-srtp/src/context/mod.rs`, with the rollover-counter
guess and its update. The 48-bit packet index is a `u64` in the source and a natural here; the guess
is made from its low 16 bits.
-/

namespace Rtc.Srtp
open Shared

/-- `MAX_ROC` (`context/mod.rs:25`). -/
def maxRoc : BitVec 32 := 0xFFFFFFFF#32

/-- `SEQ_NUM_MEDIAN` (`context/mod.rs:26`). -/
def seqNumMedian : Nat := 2 ^ 15

/-- `SrtpSsrcState` (`context/mod.rs:31-36`). -/
structure SrtpSsrcState where
  ssrc : BitVec 32
  index : Nat
  rolloverHasProcessed : Bool
  replayDetector : Option ReplayDetector
  deriving DecidableEq

/-- `SrtcpSsrcState` (`context/mod.rs:40-44`). -/
structure SrtcpSsrcState where
  srtcpIndex : Nat
  ssrc : BitVec 32
  replayDetector : Option ReplayDetector
  deriving DecidableEq

namespace SrtpSsrcState

/-- `(self.index >> 16) as u32`. -/
def localRoc (s : SrtpSsrcState) : BitVec 32 := BitVec.ofNat 32 (s.index / 2 ^ 16)

/-- `self.index as u16`. -/
def localSeq (s : SrtpSsrcState) : Nat := s.index % 2 ^ 16

/-- The guess of `next_rollover_count` and the distance from the stored index
    (`context/mod.rs:48-75`). -/
def guess (s : SrtpSsrcState) (sequenceNumber : BitVec 16) : BitVec 32 × Int :=
  if s.rolloverHasProcessed then
    let seq : Int := (sequenceNumber.toNat : Int) - s.localSeq
    if seqNumMedian < s.index then
      if s.localSeq < seqNumMedian then
        if (seqNumMedian : Int) < seq then (s.localRoc - 1#32, seq - 2 ^ 16)
        else (s.localRoc, seq)
      else if sequenceNumber.toNat < s.localSeq - seqNumMedian then
        (s.localRoc + 1#32, seq + 2 ^ 16)
      else (s.localRoc, seq)
    else (s.localRoc, seq)
  else (s.localRoc, 0)

/-- `next_rollover_count` (`context/mod.rs:47-80`): the guessed rollover counter, the distance from
    the stored index, and whether the counter space is exhausted. -/
def nextRolloverCount (s : SrtpSsrcState) (sequenceNumber : BitVec 16) : BitVec 32 × Int × Bool :=
  let (guessRoc, diff) := s.guess sequenceNumber
  (guessRoc, diff, guessRoc = 0#32 ∧ s.localRoc = maxRoc)

/-- `update_rollover_count` (`context/mod.rs:83-90`). -/
def updateRolloverCount (s : SrtpSsrcState) (sequenceNumber : BitVec 16) (diff : Int) :
    SrtpSsrcState :=
  if s.rolloverHasProcessed then
    { s with index := (((s.index : Int) + diff) % 2 ^ 64).toNat }
  else
    { s with index := s.index ||| sequenceNumber.toNat, rolloverHasProcessed := true }

end SrtpSsrcState
end Rtc.Srtp
