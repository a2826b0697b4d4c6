import Mathlib.Tactic
import Rtc.Shared.ReplayDetector

/-!
# The arrival time map

`PacketArrivalTimeMap` of `rtc-interceptor/src/twcc/arrival_time_map.rs`: arrival times in a ring of slots that grows
and shrinks with the window `begin..end`. The buffer is its capacity and the function of its slots; `i64` wraps.
-/

namespace Rtc.Interceptor.Twcc

open Shared (i64)

/-- `PacketArrivalTimeMap` (`arrival_time_map.rs:15-22`). -/
structure PacketArrivalTimeMap where
  capacity : Nat
  arrivalTimes : Nat → Int
  beginSequenceNumber : Int
  endSequenceNumber : Int

/-- `sequence_number & (capacity - 1)` (`arrival_time_map.rs:202-206`). -/
def slotOf (capacity : Nat) (sequenceNumber : Int) : Nat :=
  (BitVec.ofInt 64 sequenceNumber &&& BitVec.ofNat 64 (capacity - 1)).toNat

/-- The blocks of eight that `first_after` skips (`arrival_time_map.rs:311-321`). -/
def skipBlocks (threshold : Int) : List Int → Nat → Nat
  | a :: b :: c :: d :: e :: f :: g :: h :: rest, skipped =>
    if [a, b, c, d, e, f, g, h].any (threshold < ·) then skipped else skipBlocks threshold rest (skipped + 8)
  | _, skipped => skipped

/-- `first_after` (`arrival_time_map.rs:305-326`). -/
def firstAfter (values : List Int) (threshold : Int) : Option Nat :=
  let first := min values.length 8
  match (values.take first).findIdx? (threshold < ·) with
  | some index => some index
  | none =>
    let skipped := skipBlocks threshold (values.drop first) first
    ((values.drop skipped).findIdx? (threshold < ·)).map (skipped + ·)

namespace PacketArrivalTimeMap

/-- `new` (`arrival_time_map.rs:25-31`). -/
def new : PacketArrivalTimeMap := ⟨0, fun _ => -1, 0, 0⟩

/-- `index` (`arrival_time_map.rs:202-206`). -/
def index (m : PacketArrivalTimeMap) (sequenceNumber : Int) : Nat := slotOf m.capacity sequenceNumber

/-- `self.arrival_times[idx] = arrival_time`. -/
def store (m : PacketArrivalTimeMap) (sequenceNumber arrivalTime : Int) : PacketArrivalTimeMap :=
  { m with arrivalTimes := fun i => if i = m.index sequenceNumber then arrivalTime else m.arrivalTimes i }

/-- `slices` (`arrival_time_map.rs:211-217`). -/
def slices (m : PacketArrivalTimeMap) (start : Int) (len : Nat) : List Int × List Int :=
  let index := m.index start
  let headLen := min len (m.capacity - index)
  ((List.range headLen).map fun i => m.arrivalTimes (index + i), (List.range (len - headLen)).map m.arrivalTimes)

/-- `position_after` (`arrival_time_map.rs:234-238`). -/
def positionAfter (m : PacketArrivalTimeMap) (start : Int) (len : Nat) (threshold : Int) : Option Nat :=
  let (head, tail) := m.slices start (min len m.capacity)
  (firstAfter head threshold).or ((firstAfter tail threshold).map (head.length + ·))

/-- `set_not_received` (`arrival_time_map.rs:106-118`). -/
def setNotReceived (m : PacketArrivalTimeMap) (startInclusive endExclusive : Int) : PacketArrivalTimeMap :=
  if endExclusive ≤ startInclusive then m
  else
    let len := (endExclusive - startInclusive).toNat
    if m.capacity ≤ len then { m with arrivalTimes := fun _ => -1 }
    else
      let index := m.index startInclusive
      let headLen := min len (m.capacity - index)
      { m with arrivalTimes := fun i =>
          if (index ≤ i ∧ i < index + headLen) ∨ i < len - headLen then -1 else m.arrivalTimes i }

/-- The loop of `reallocate` (`arrival_time_map.rs:278-287`). -/
def copyRuns (m : PacketArrivalTimeMap) (newCapacity : Nat) : (fuel : Nat) → Int → (Nat → Int) → Nat → Int
  | 0, _, buffer => buffer
  | fuel + 1, sn, buffer =>
    if sn < m.endSequenceNumber then
      let oldIndex := m.index sn
      let newIndex := slotOf newCapacity sn
      let run := min (min (m.endSequenceNumber - sn).toNat (m.capacity - oldIndex)) (newCapacity - newIndex)
      copyRuns m newCapacity fuel (sn + run) fun i =>
        if newIndex ≤ i ∧ i < newIndex + run then m.arrivalTimes (oldIndex + (i - newIndex)) else buffer i
    else buffer

/-- `reallocate` (`arrival_time_map.rs:267-289`). -/
def reallocate (m : PacketArrivalTimeMap) (newCapacity : Nat) : PacketArrivalTimeMap :=
  let sn := max m.beginSequenceNumber (i64 (m.endSequenceNumber - newCapacity))
  { m with
    capacity := newCapacity
    arrivalTimes := m.copyRuns newCapacity (m.endSequenceNumber - sn).toNat sn fun _ => -1 }

/-- `while new_capacity < new_size` (`arrival_time_map.rs:243-245`). -/
def grow : (fuel capacity size : Nat) → Nat
  | 0, capacity, _ => capacity
  | fuel + 1, capacity, size => if capacity < size then grow fuel (capacity * 2) size else capacity

/-- `while new_capacity >= 2 * new_size.max(MIN_CAPACITY)` (`arrival_time_map.rs:250-252`). -/
def shrink : (fuel capacity size : Nat) → Nat
  | 0, capacity, _ => capacity
  | fuel + 1, capacity, size => if 2 * max size 128 ≤ capacity then shrink fuel (capacity / 2) size else capacity

/-- `adjust_to_size` (`arrival_time_map.rs:240-255`). -/
def adjustToSize (m : PacketArrivalTimeMap) (newSize : Nat) : PacketArrivalTimeMap :=
  let m := if m.capacity < newSize then m.reallocate (grow newSize m.capacity newSize) else m
  if max 128 (newSize * 4) < m.capacity then m.reallocate (shrink m.capacity m.capacity newSize) else m

/-- `add_packet` (`arrival_time_map.rs:34-98`). -/
def addPacket (m : PacketArrivalTimeMap) (sequenceNumber arrivalTime : Int) : PacketArrivalTimeMap :=
  if m.capacity = 0 then
    { m.reallocate 128 with beginSequenceNumber := sequenceNumber, endSequenceNumber := i64 (sequenceNumber + 1) }.store
      sequenceNumber arrivalTime
  else if m.beginSequenceNumber ≤ sequenceNumber ∧ sequenceNumber < m.endSequenceNumber then
    m.store sequenceNumber arrivalTime
  else if sequenceNumber < m.beginSequenceNumber then
    -- the difference wraps and is cast to `usize`
    let newSize := ((m.endSequenceNumber - sequenceNumber) % 2 ^ 64).toNat
    if 2 ^ 15 < newSize then m
    else
      let m := (m.adjustToSize newSize).store sequenceNumber arrivalTime
      { m.setNotReceived (sequenceNumber + 1) m.beginSequenceNumber with beginSequenceNumber := sequenceNumber }
  else
    let newEnd := i64 (sequenceNumber + 1)
    if i64 (m.endSequenceNumber + 2 ^ 15) ≤ newEnd then
      { m with beginSequenceNumber := sequenceNumber, endSequenceNumber := newEnd }.store sequenceNumber arrivalTime
    else
      let m := { m with beginSequenceNumber := max m.beginSequenceNumber (i64 (newEnd - 2 ^ 15)) }
      let m := m.adjustToSize ((newEnd - m.beginSequenceNumber) % 2 ^ 64).toNat
      let m := { m.setNotReceived m.endSequenceNumber sequenceNumber with endSequenceNumber := newEnd }
      m.store sequenceNumber arrivalTime

/-- `clamp` (`arrival_time_map.rs:189-191`). -/
def clamp (m : PacketArrivalTimeMap) (sequenceNumber : Int) : Int :=
  max m.beginSequenceNumber (min sequenceNumber m.endSequenceNumber)

/-- `get` (`arrival_time_map.rs:193-200`). -/
def get (m : PacketArrivalTimeMap) (sequenceNumber : Int) : Int :=
  if sequenceNumber < m.beginSequenceNumber ∨ m.endSequenceNumber ≤ sequenceNumber then -1
  else m.arrivalTimes (m.index sequenceNumber)

/-- `find_next_at_or_after` (`arrival_time_map.rs:136-146`). -/
def findNextAtOrAfter (m : PacketArrivalTimeMap) (sequenceNumber : Int) : Option (Int × Int) :=
  let start := m.clamp sequenceNumber
  if m.endSequenceNumber ≤ start then none
  else
    (m.positionAfter start (m.endSequenceNumber - start).toNat (-1)).map fun offset : Nat =>
      (start + offset, m.arrivalTimes (m.index (start + offset)))

/-- `erase_to` (`arrival_time_map.rs:150-162`). -/
def eraseTo (m : PacketArrivalTimeMap) (sequenceNumber : Int) : PacketArrivalTimeMap :=
  if sequenceNumber < m.beginSequenceNumber then m
  else if m.endSequenceNumber ≤ sequenceNumber then { m with beginSequenceNumber := m.endSequenceNumber }
  else
    { m with beginSequenceNumber := sequenceNumber }.adjustToSize (m.endSequenceNumber - sequenceNumber).toNat

/-- `remove_old_packets` (`arrival_time_map.rs:171-181`). -/
def removeOldPackets (m : PacketArrivalTimeMap) (sequenceNumber arrivalTimeLimit : Int) : PacketArrivalTimeMap :=
  let checkTo := min sequenceNumber m.endSequenceNumber
  let m := if m.beginSequenceNumber < checkTo then
      let len := (checkTo - m.beginSequenceNumber).toNat
      let removed := (m.positionAfter m.beginSequenceNumber len arrivalTimeLimit).getD len
      { m with beginSequenceNumber := m.beginSequenceNumber + removed }
    else m
  m.adjustToSize (m.endSequenceNumber - m.beginSequenceNumber).toNat

end PacketArrivalTimeMap

end Rtc.Interceptor.Twcc
