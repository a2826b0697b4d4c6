import Mathlib.Tactic
import Rtc.Interceptor.Twcc.ArrivalTimeMap
import Rtc.Lib.Ring
import Rtc.Lib.Runs
import Rtc.Shared.Proofs.WrappedWindow

/-!
# The arrival time map as a finite map on a window

The circular buffer refines `Window`, the times of the numbers in `low..high`: the slot of a number of the window
holds its time, and what other slots keep is never read.
-/

namespace Rtc.Interceptor.Twcc

open Shared (i64)
open Shared.WrappedSlidingWindowDetector (i64_of_lt)

/-! ## Slots and scans -/

theorem slotOf_two_pow {k : Nat} (hk : k ≤ 15) (n : Int) : slotOf (2 ^ k) n = Ring.slot (2 ^ k) n := by
  have hlt : 2 ^ k < 2 ^ 64 := Nat.pow_lt_pow_right (by norm_num) (by omega)
  have hpos : 0 < 2 ^ k := Nat.two_pow_pos k
  have hdvd : (2 ^ k : Int) ∣ 2 ^ 64 := pow_dvd_pow 2 (by omega)
  have hnonneg : 0 ≤ n % 2 ^ 64 := Int.emod_nonneg _ (by norm_num)
  have hcast : ((n % (2 ^ 64 : Nat)).toNat : Int) = n % 2 ^ 64 := by
    rw [Nat.cast_pow, Nat.cast_ofNat, Int.toNat_of_nonneg hnonneg]
  rw [slotOf, BitVec.toNat_and, BitVec.toNat_ofInt, BitVec.toNat_ofNat, Nat.mod_eq_of_lt (by omega),
    Nat.and_two_pow_sub_one_eq_mod, Ring.slot]
  apply Int.ofNat_inj.mp
  rw [Int.natCast_mod, hcast, Int.toNat_of_nonneg (Int.emod_nonneg _ (by positivity)), Nat.cast_pow, Nat.cast_ofNat,
    Int.emod_emod_of_dvd _ hdvd]

theorem skipBlocks_spec (threshold : Int) (values : List Int) (skipped : Nat) :
    ∃ d ≤ values.length, skipBlocks threshold values skipped = skipped + d ∧ ∀ v ∈ values.take d, v ≤ threshold := by
  fun_induction skipBlocks threshold values skipped with
  | case1 => exact ⟨0, Nat.zero_le _, rfl, by simp⟩
  | case2 a b c d e f g h rest skipped hany ih =>
    obtain ⟨n, hn, heq, hrest⟩ := ih
    refine ⟨8 + n, ?_, by omega, ?_⟩
    · simp only [List.length_cons]
      omega
    simp only [List.any_eq_true, decide_eq_true_eq, not_exists, not_and, not_lt] at hany
    intro v hv
    rw [show a :: b :: c :: d :: e :: f :: g :: h :: rest = [a, b, c, d, e, f, g, h] ++ rest from rfl,
      show 8 + n = [a, b, c, d, e, f, g, h].length + n from rfl, List.take_length_add_append,
      List.mem_append] at hv
    rcases hv with hv | hv
    · exact hany v hv
    · exact hrest v hv
  | case3 => exact ⟨0, Nat.zero_le _, rfl, by simp⟩

theorem findIdx?_drop {values : List Int} {threshold : Int} {d : Nat} (hd : d ≤ values.length)
    (hskip : ∀ v ∈ values.take d, v ≤ threshold) :
    values.findIdx? (threshold < ·) = ((values.drop d).findIdx? (threshold < ·)).map (d + ·) := by
  have hnone : (values.take d).findIdx? (threshold < ·) = none := by
    rw [List.findIdx?_eq_none_iff]
    intro v hv
    simpa using hskip v hv
  conv_lhs => rw [← List.take_append_drop d values, List.findIdx?_append, hnone, Option.none_or, List.length_take,
    Nat.min_eq_left hd]
  simp only [Nat.add_comm]

theorem firstAfter_eq (values : List Int) (threshold : Int) :
    firstAfter values threshold = values.findIdx? (threshold < ·) := by
  obtain ⟨d, hd, heq, hskip⟩ := skipBlocks_spec threshold (values.drop (min values.length 8)) (min values.length 8)
  simp only [firstAfter, heq]
  split
  case h_1 index hfound =>
    conv_rhs => rw [← List.take_append_drop (min values.length 8) values, List.findIdx?_append, hfound]
    rfl
  case h_2 hnone =>
    rw [List.length_drop] at hd
    refine (findIdx?_drop (by omega) ?_).symm
    intro v hv
    rw [List.take_add, List.mem_append] at hv
    rcases hv with hv | hv
    · simpa using List.findIdx?_eq_none_iff.mp hnone v hv
    · exact hskip v hv

namespace PacketArrivalTimeMap

variable {m : PacketArrivalTimeMap} {k : Nat}

def held (m : PacketArrivalTimeMap) (n : Int) : Int := m.arrivalTimes (m.index n)

theorem index_eq (hcap : m.capacity = 2 ^ k) (hk : k ≤ 15) (n : Int) : m.index n = Ring.slot m.capacity n := by
  rw [index, hcap, slotOf_two_pow hk]

theorem positionAfter_eq (hcap : m.capacity = 2 ^ k) (hk : k ≤ 15) (start : Int) {len : Nat} (hlen : len ≤ m.capacity)
    (threshold : Int) :
    m.positionAfter start len threshold = (List.range len).findIdx? fun i : Nat => threshold < m.held (start + i) := by
  have hpos : 0 < m.capacity := by rw [hcap]; exact Nat.two_pow_pos k
  have hruns := Ring.map_runs hpos m.arrivalTimes start hlen
  have hheld : (fun i : Nat => m.arrivalTimes (Ring.slot m.capacity (start + i))) =
      fun i : Nat => m.held (start + i) := by
    funext i
    rw [held, index_eq hcap hk]
  rw [hheld] at hruns
  have hscan : ((List.range len).map fun i : Nat => m.held (start + i)).findIdx? (threshold < ·) =
      (List.range len).findIdx? fun i : Nat => threshold < m.held (start + i) := List.findIdx?_map
  rw [← hscan, ← hruns, List.findIdx?_append]
  simp only [positionAfter, slices, firstAfter_eq, index_eq hcap hk, Nat.min_eq_left hlen, Nat.add_comm]

/-! ## Resizing -/

theorem grow_spec {size fuel : Nat} (hk : k ≤ 15) (hsize : size ≤ 2 ^ 15) (hfuel : size ≤ 2 ^ k + fuel) :
    ∃ j, k ≤ j ∧ j ≤ 15 ∧ grow fuel (2 ^ k) size = 2 ^ j ∧ size ≤ 2 ^ j := by
  induction fuel generalizing k with
  | zero => exact ⟨k, le_rfl, hk, rfl, by omega⟩
  | succ fuel ih =>
    rw [grow]
    split
    case isTrue hlt =>
      have hk' : k < 15 := (Nat.pow_lt_pow_iff_right (by norm_num)).mp (hlt.trans_le hsize)
      have hpow : 2 ^ (k + 1) = 2 ^ k * 2 := pow_succ 2 k
      have hpos : 0 < 2 ^ k := Nat.two_pow_pos k
      obtain ⟨j, hkj, hj⟩ := @ih (k + 1) hk' (by omega)
      rw [hpow] at hj
      exact ⟨j, by omega, hj⟩
    case isFalse hge => exact ⟨k, le_rfl, hk, rfl, by omega⟩

theorem shrink_spec {size fuel : Nat} (hk : 7 ≤ k) (hk' : k ≤ 15) (hsize : size ≤ 2 ^ k) :
    ∃ j, 7 ≤ j ∧ j ≤ 15 ∧ shrink fuel (2 ^ k) size = 2 ^ j ∧ size ≤ 2 ^ j := by
  induction fuel generalizing k with
  | zero => exact ⟨k, hk, hk', rfl, hsize⟩
  | succ fuel ih =>
    rw [shrink]
    split
    case isTrue hle =>
      obtain ⟨l, rfl⟩ : ∃ l, k = l + 1 := ⟨k - 1, by omega⟩
      have hpow : 2 ^ (l + 1) = 2 ^ l * 2 := pow_succ 2 l
      have hl : 7 ≤ l := (Nat.pow_le_pow_iff_right (by norm_num : 1 < 2)).mp (show 2 ^ 7 ≤ 2 ^ l by omega)
      rw [hpow, Nat.mul_div_cancel _ (by norm_num)]
      exact ih hl (by omega) (by omega)
    case isFalse => exact ⟨k, hk, hk', rfl, hsize⟩

/-- The run that one turn of the copy loop moves keeps its numbers, and touches no other number's slot. -/
theorem copyRuns_spec {j fuel : Nat} (hcap : m.capacity = 2 ^ k) (hk : k ≤ 15) (hj : j ≤ 15) {sn : Int}
    (hlow : m.endSequenceNumber ≤ sn + 2 ^ j) (hold : m.endSequenceNumber ≤ sn + m.capacity)
    (hfuel : m.endSequenceNumber ≤ sn + fuel) (buffer : Nat → Int) {n : Int}
    (hn : m.endSequenceNumber - 2 ^ j ≤ n) (hn' : n < m.endSequenceNumber) :
    m.copyRuns (2 ^ j) fuel sn buffer (slotOf (2 ^ j) n) =
      if sn ≤ n then m.held n else buffer (slotOf (2 ^ j) n) := by
  induction fuel generalizing sn buffer with
  | zero => rw [copyRuns, if_neg (by omega)]
  | succ fuel ih =>
    have hpos : 0 < m.capacity := by rw [hcap]; exact Nat.two_pow_pos k
    have hpos' : 0 < 2 ^ j := Nat.two_pow_pos j
    have hidx := Ring.slot_lt hpos sn
    have hidx' := Ring.slot_lt hpos' sn
    rw [copyRuns]
    split
    case isFalse hdone => rw [if_neg (by omega)]
    case isTrue hmore =>
      simp only [index_eq hcap hk, slotOf_two_pow hj, held] at ih ⊢
      generalize hrun : min (min (m.endSequenceNumber - sn).toNat (m.capacity - Ring.slot m.capacity sn))
        (2 ^ j - Ring.slot (2 ^ j) sn) = run
      have hpow : ((2 ^ j : Nat) : Int) = 2 ^ j := by push_cast; rfl
      have hrange : (Ring.slot (2 ^ j) sn ≤ Ring.slot (2 ^ j) n ∧ Ring.slot (2 ^ j) n < Ring.slot (2 ^ j) sn + run) ↔
          sn ≤ n ∧ n < sn + run := by
        have hmem := @Ring.mem_runs_iff (2 ^ j) sn n hpos' run (by omega) (by omega)
        rw [Nat.min_eq_left (by omega)] at hmem
        simpa using hmem
      rw [ih (by omega) (by omega) (by omega)]
      simp only [hrange]
      by_cases hmoved : sn ≤ n ∧ n < sn + run
      · obtain ⟨d, hd⟩ := Int.eq_ofNat_of_zero_le (show 0 ≤ n - sn by omega)
        obtain rfl : n = sn + d := by omega
        rw [if_neg (by omega), if_pos hmoved, if_pos hmoved.1, Ring.slot_add hpos' sn (by omega),
          Ring.slot_add hpos sn (by omega), if_pos (by omega), if_pos (by omega), Nat.add_sub_cancel_left]
      · rw [if_neg hmoved]
        split_ifs <;> first | rfl | omega

/-- The map `m'` holds the window of `m` in a buffer with room for `size` numbers. -/
structure Moved (size : Nat) (m m' : PacketArrivalTimeMap) : Prop where
  begin_eq : m'.beginSequenceNumber = m.beginSequenceNumber
  end_eq : m'.endSequenceNumber = m.endSequenceNumber
  room : ∃ j, 7 ≤ j ∧ j ≤ 15 ∧ m'.capacity = 2 ^ j ∧ size ≤ m'.capacity
  held_eq : ∀ n, m.beginSequenceNumber ≤ n → n < m.endSequenceNumber → m'.held n = m.held n

theorem moved_reallocate {j size : Nat} (hcap : m.capacity = 2 ^ k) (hk : k ≤ 15) (hj : 7 ≤ j) (hj' : j ≤ 15)
    (hold : m.endSequenceNumber ≤ m.beginSequenceNumber + m.capacity)
    (hfit : m.endSequenceNumber ≤ m.beginSequenceNumber + size) (hsize : size ≤ 2 ^ j)
    (hlow : -2 ^ 63 + 2 ^ 15 ≤ m.endSequenceNumber) (hhigh : m.endSequenceNumber < 2 ^ 63) :
    Moved size m (m.reallocate (2 ^ j)) := by
  have hpow : ((2 ^ j : Nat) : Int) = 2 ^ j := by push_cast; rfl
  have hpos : 0 < 2 ^ j := Nat.two_pow_pos j
  have hmax : 2 ^ j ≤ 2 ^ 15 := Nat.pow_le_pow_right (by norm_num) hj'
  have hsn : max m.beginSequenceNumber (i64 (m.endSequenceNumber - (2 ^ j : Nat))) = m.beginSequenceNumber := by
    rw [i64_of_lt (by omega) (by omega), max_eq_left (by omega)]
  refine ⟨rfl, rfl, ⟨j, hj, hj', rfl, hsize⟩, fun n hn hn' => ?_⟩
  simp only [held, index, reallocate, hsn]
  rw [copyRuns_spec hcap hk hj' (by omega) hold (by omega) _ (by omega) hn', if_pos hn]
  rfl

theorem moved_adjustToSize {size : Nat} (hcap : m.capacity = 2 ^ k) (hk : 7 ≤ k) (hk' : k ≤ 15)
    (hold : m.endSequenceNumber ≤ m.beginSequenceNumber + m.capacity)
    (hfit : m.endSequenceNumber ≤ m.beginSequenceNumber + size) (hsize : size ≤ 2 ^ 15)
    (hlow : -2 ^ 63 + 2 ^ 15 ≤ m.endSequenceNumber) (hhigh : m.endSequenceNumber < 2 ^ 63) :
    Moved size m (m.adjustToSize size) := by
  obtain ⟨g, hg⟩ : ∃ g, g = if m.capacity < size then m.reallocate (grow size m.capacity size) else m := ⟨_, rfl⟩
  have hgrown : Moved size m g := by
    rw [hg]
    split
    case isTrue hlt =>
      obtain ⟨j, hkj, hj, heq, hle⟩ := @grow_spec k size size hk' hsize (by omega)
      rw [hcap, heq]
      exact moved_reallocate hcap hk' (by omega) hj hold hfit hle hlow hhigh
    case isFalse hge => exact ⟨rfl, rfl, ⟨k, hk, hk', hcap, by omega⟩, fun n _ _ => rfl⟩
  obtain ⟨j, hj, hj', hcapg, hroom⟩ := hgrown.room
  rw [adjustToSize, ← hg]
  split
  case isFalse => exact hgrown
  case isTrue =>
    obtain ⟨i, hi, hi', heq, hle⟩ := @shrink_spec j size g.capacity hj hj' (by omega)
    rw [← hcapg] at heq
    rw [heq]
    have hbegin := hgrown.begin_eq
    have hend := hgrown.end_eq
    have hmoved := @moved_reallocate g j i size hcapg hj' hi hi' (by omega) (by omega) hle (by omega) (by omega)
    refine ⟨hmoved.begin_eq.trans hbegin, hmoved.end_eq.trans hend, hmoved.room, fun n hn hn' => ?_⟩
    rw [hmoved.held_eq n (by omega) (by omega), hgrown.held_eq n hn hn']

/-! ## Writing slots -/

@[simp] theorem capacity_store (n t : Int) : (m.store n t).capacity = m.capacity := rfl

@[simp] theorem begin_store (n t : Int) : (m.store n t).beginSequenceNumber = m.beginSequenceNumber := rfl

@[simp] theorem end_store (n t : Int) : (m.store n t).endSequenceNumber = m.endSequenceNumber := rfl

theorem held_store_self (n t : Int) : (m.store n t).held n = t := if_pos rfl

theorem held_store (hcap : m.capacity = 2 ^ k) (hk : k ≤ 15) {n l : Int} (t : Int) (hlow : n - m.capacity < l)
    (hhigh : l < n + m.capacity) : (m.store n t).held l = if l = n then t else m.held l := by
  have hpos : 0 < m.capacity := by rw [hcap]; exact Nat.two_pow_pos k
  have hindex : (m.store n t).index l = m.index l := rfl
  have hinj : m.index l = m.index n ↔ l = n := by
    rw [index_eq hcap hk, index_eq hcap hk, Ring.slot_inj hpos hlow hhigh]
  rw [held, hindex]
  simp only [store, hinj, held]

theorem held_setNotReceived (hcap : m.capacity = 2 ^ k) (hk : k ≤ 15) {a b l : Int} (hlow : b - m.capacity ≤ l)
    (hhigh : l < a + m.capacity) : (m.setNotReceived a b).held l = if a ≤ l ∧ l < b then -1 else m.held l := by
  have hpos : 0 < m.capacity := by rw [hcap]; exact Nat.two_pow_pos k
  unfold setNotReceived
  dsimp only
  split
  case isTrue hempty => rw [if_neg (by omega)]
  case isFalse =>
    split
    case isTrue => rw [if_pos (by omega), held]
    case isFalse =>
      have hmem := @Ring.mem_runs_iff m.capacity a l hpos (b - a).toNat (by omega) hhigh
      rw [show a + ((b - a).toNat : Int) = b by omega] at hmem
      have hslot : ∀ n, slotOf m.capacity n = Ring.slot m.capacity n := index_eq hcap hk
      simp only [held, index, hslot, hmem]

@[simp] theorem capacity_setNotReceived (a b : Int) : (m.setNotReceived a b).capacity = m.capacity := by
  simp only [setNotReceived]
  split_ifs <;> rfl

@[simp] theorem begin_setNotReceived (a b : Int) :
    (m.setNotReceived a b).beginSequenceNumber = m.beginSequenceNumber := by
  simp only [setNotReceived]
  split_ifs <;> rfl

@[simp] theorem end_setNotReceived (a b : Int) : (m.setNotReceived a b).endSequenceNumber = m.endSequenceNumber := by
  simp only [setNotReceived]
  split_ifs <;> rfl

end PacketArrivalTimeMap

/-! ## The finite map -/

/-- The times of the numbers in `low..high`; `started` once a number has been added. -/
structure Window where
  started : Bool
  low : Int
  high : Int
  times : Int → Option Int

namespace Window

def empty : Window := ⟨false, 0, 0, fun _ => none⟩

/-- The number `n` has the time `t`, whatever it had before. -/
def put (w : Window) (n t : Int) : Window := { w with times := fun l => if l = n then some t else w.times l }

/-- The numbers below `low` are forgotten. -/
def keepFrom (w : Window) (low : Int) : Window :=
  { w with low := low, times := fun l => if low ≤ l then w.times l else none }

def only (n t : Int) : Window := ⟨true, n, n + 1, fun l => if l = n then some t else none⟩

/-- Adding a number moves the window to it, over at most `2^15` numbers; a number too far below is dropped. -/
def add (w : Window) (n t : Int) : Window :=
  if w.started = false then only n t
  else if w.low ≤ n ∧ n < w.high then w.put n t
  else if n < w.low then if 2 ^ 15 < w.high - n then w else { w with low := n }.put n t
  else if w.high + 2 ^ 15 ≤ n + 1 then only n t
  else { w.keepFrom (max w.low (n + 1 - 2 ^ 15)) with high := n + 1 }.put n t

def eraseTo (w : Window) (n : Int) : Window := if n < w.low then w else w.keepFrom (min n w.high)

/-- How many numbers from `low` on, below `n`, have no time after the limit, a number not received among them. -/
def oldCount (w : Window) (n limit : Int) : Nat :=
  let len := (min n w.high - w.low).toNat
  ((List.range len).findIdx? fun i : Nat => limit < (w.times (w.low + i)).getD (-1)).getD len

def removeOld (w : Window) (n limit : Int) : Window := w.keepFrom (w.low + w.oldCount n limit)

def setNotReceived (w : Window) (a b : Int) : Window :=
  { w with times := fun l => if a ≤ l ∧ l < b then none else w.times l }

end Window

inductive MapOp where
  | addPacket (sequenceNumber arrivalTime : Int)
  | eraseTo (sequenceNumber : Int)
  | removeOldPackets (sequenceNumber arrivalTimeLimit : Int)
  | setNotReceived (startInclusive endExclusive : Int)

def PacketArrivalTimeMap.step (m : PacketArrivalTimeMap) : MapOp → PacketArrivalTimeMap
  | .addPacket n t => m.addPacket n t
  | .eraseTo n => m.eraseTo n
  | .removeOldPackets n limit => m.removeOldPackets n limit
  | .setNotReceived a b => m.setNotReceived a b

def Window.step (w : Window) : MapOp → Window
  | .addPacket n t => w.add n t
  | .eraseTo n => w.eraseTo n
  | .removeOldPackets n limit => w.removeOld n limit
  | .setNotReceived a b => w.setNotReceived a b

/-- Numbers away from the ends of `i64`, times that are not negative, and ranges inside the window. -/
def Window.Allowed (w : Window) : MapOp → Prop
  | .addPacket n t => -2 ^ 63 + 2 ^ 15 ≤ n ∧ n ≤ 2 ^ 63 - 2 ^ 15 - 2 ∧ 0 ≤ t
  | .setNotReceived a b => w.low ≤ a ∧ b ≤ w.high
  | _ => True

/-- The map holds the window: every number's slot holds its time, `-1` for none. -/
structure Refines (m : PacketArrivalTimeMap) (w : Window) : Prop where
  low : m.beginSequenceNumber = w.low
  high : m.endSequenceNumber = w.high
  ordered : w.low ≤ w.high
  small : w.high ≤ w.low + 2 ^ 15
  lowest : -2 ^ 63 + 2 ^ 15 ≤ w.low
  highest : w.high ≤ 2 ^ 63 - 2 ^ 15 - 1
  notStarted : w.started = false → m.capacity = 0 ∧ w.low = w.high
  room : w.started = true → ∃ k, 7 ≤ k ∧ k ≤ 15 ∧ m.capacity = 2 ^ k ∧ w.high ≤ w.low + m.capacity
  held : ∀ n, w.low ≤ n → n < w.high → m.held n = (w.times n).getD (-1)
  outside : ∀ n t, w.times n = some t → w.low ≤ n ∧ n < w.high
  received : ∀ n t, w.times n = some t → 0 ≤ t

namespace Refines

open PacketArrivalTimeMap

variable {m : PacketArrivalTimeMap} {w : Window}

section

variable (h : Refines m w)
include h

theorem started_of_lt {n : Int} (hn : w.low ≤ n) (hn' : n < w.high) : w.started = true := by
  by_contra hnot
  have := (h.notStarted (by simpa using hnot)).2
  omega

theorem times_eq_none {n : Int} (hn : ¬ (w.low ≤ n ∧ n < w.high)) : w.times n = none :=
  Option.eq_none_iff_forall_ne_some.mpr fun t ht => hn (h.outside n t ht)

theorem keepFrom {low : Int} (hlow : w.low ≤ low) (hhigh : low ≤ w.high) :
    Refines { m with beginSequenceNumber := low } (w.keepFrom low) where
  low := rfl
  high := h.high
  ordered := hhigh
  small := by have := h.small; simp only [Window.keepFrom]; omega
  lowest := h.lowest.trans hlow
  highest := h.highest
  notStarted hnot := ⟨(h.notStarted hnot).1, le_antisymm hhigh ((h.notStarted hnot).2 ▸ hlow)⟩
  room hstarted := by
    obtain ⟨k, hk, hk', hcap, hfit⟩ := h.room hstarted
    exact ⟨k, hk, hk', hcap, hfit.trans (by simp only [Window.keepFrom]; omega)⟩
  held n hn hn' := by
    simp only [Window.keepFrom] at hn ⊢
    rw [if_pos hn]
    exact h.held n (hlow.trans hn) hn'
  outside n t ht := by
    simp only [Window.keepFrom] at ht ⊢
    split at ht
    case isTrue hn => exact ⟨hn, (h.outside n t ht).2⟩
    case isFalse => cases ht
  received n t ht := by
    simp only [Window.keepFrom] at ht
    split at ht
    case isTrue hn => exact h.received n t ht
    case isFalse => cases ht

theorem adjustToSize : Refines (m.adjustToSize (m.endSequenceNumber - m.beginSequenceNumber).toNat) w := by
  have hbegin := h.low
  have hend := h.high
  have hordered := h.ordered
  have hsmall := h.small
  have hlowest := h.lowest
  have hhighest := h.highest
  cases hstarted : w.started with
  | false =>
    obtain ⟨hcap, heq⟩ := h.notStarted hstarted
    have hsame : m.adjustToSize (m.endSequenceNumber - m.beginSequenceNumber).toNat = m := by
      have hzero : (m.endSequenceNumber - m.beginSequenceNumber).toNat = 0 := by omega
      simp [PacketArrivalTimeMap.adjustToSize, hcap, hzero]
    rwa [hsame]
  | true =>
    obtain ⟨k, hk, hk', hcap, hfit⟩ := h.room hstarted
    have hmoved := @moved_adjustToSize m k (m.endSequenceNumber - m.beginSequenceNumber).toNat hcap hk hk' (by omega)
      (by omega) (by omega) (by omega) (by omega)
    obtain ⟨j, hj, hj', hcapj, hroom⟩ := hmoved.room
    exact { h with
      low := hmoved.begin_eq.trans hbegin
      high := hmoved.end_eq.trans hend
      notStarted := by simp [hstarted]
      room := fun _ => ⟨j, hj, hj', hcapj, by omega⟩
      held := fun n hn hn' => (hmoved.held_eq n (by omega) (by omega)).trans (h.held n hn hn') }

theorem eraseTo (n : Int) : Refines (m.eraseTo n) (w.eraseTo n) := by
  have hbegin := h.low
  have hend := h.high
  have hordered := h.ordered
  unfold PacketArrivalTimeMap.eraseTo Window.eraseTo
  rw [hbegin]
  split_ifs with hbelow habove
  · exact h
  · rw [min_eq_right (by omega), ← hend]
    exact h.keepFrom (hend ▸ hordered) hend.le
  · rw [min_eq_left (by omega)]
    exact (h.keepFrom (not_lt.mp hbelow) (by omega)).adjustToSize

theorem positionAfter_eq {start : Int} {len : Nat} (hstart : w.low ≤ start)
    (hlen : start + len ≤ w.high) (hpos : 0 < len) (threshold : Int) :
    m.positionAfter start len threshold =
      (List.range len).findIdx? fun i : Nat => threshold < (w.times (start + i)).getD (-1) := by
  obtain ⟨k, hk, hk', hcap, hfit⟩ := h.room (h.started_of_lt hstart (by omega))
  rw [PacketArrivalTimeMap.positionAfter_eq hcap hk' start (by omega)]
  have hmap : ((List.range len).map fun i : Nat => m.held (start + i)) =
      (List.range len).map fun i : Nat => (w.times (start + i)).getD (-1) := by
    apply List.map_congr_left
    intro i hi
    have hi := List.mem_range.mp hi
    exact h.held (start + i) (by omega) (by omega)
  have hscan := congrArg (List.findIdx? (threshold < ·)) hmap
  rwa [List.findIdx?_map, List.findIdx?_map] at hscan

end

theorem oldCount_le (w : Window) (n limit : Int) : w.oldCount n limit ≤ (min n w.high - w.low).toNat := by
  rw [Window.oldCount]
  cases hscan : (List.range (min n w.high - w.low).toNat).findIdx?
      fun i : Nat => limit < (w.times (w.low + i)).getD (-1) with
  | none => simp
  | some i =>
    obtain ⟨hi, -⟩ := List.findIdx?_eq_some_iff_getElem.mp hscan
    rw [List.length_range] at hi
    exact hi.le

theorem removeOldPackets (h : Refines m w) (n limit : Int) :
    Refines (m.removeOldPackets n limit) (w.removeOld n limit) := by
  have hbegin := h.low
  have hend := h.high
  have hordered := h.ordered
  have hcount := oldCount_le w n limit
  dsimp only [PacketArrivalTimeMap.removeOldPackets, Window.removeOld]
  split
  case isTrue hsome =>
    have hremoved : (m.positionAfter m.beginSequenceNumber (min n m.endSequenceNumber - m.beginSequenceNumber).toNat
        limit).getD (min n m.endSequenceNumber - m.beginSequenceNumber).toNat = w.oldCount n limit := by
      rw [hbegin, hend, h.positionAfter_eq le_rfl (by omega) (by omega), Window.oldCount]
    rw [hremoved, hbegin]
    exact (@keepFrom m w h (w.low + w.oldCount n limit) (by omega) (by omega)).adjustToSize
  case isFalse hnone =>
    rw [show w.low + (w.oldCount n limit : Int) = m.beginSequenceNumber by omega]
    exact (@keepFrom m w h m.beginSequenceNumber hbegin.ge (by omega)).adjustToSize

theorem only {n t : Int} (hlowest : -2 ^ 63 + 2 ^ 15 ≤ n) (hhighest : n ≤ 2 ^ 63 - 2 ^ 15 - 2) (ht : 0 ≤ t)
    (hbegin : m.beginSequenceNumber = n) (hend : m.endSequenceNumber = n + 1)
    (hroom : ∃ k, 7 ≤ k ∧ k ≤ 15 ∧ m.capacity = 2 ^ k) (hheld : m.held n = t) : Refines m (.only n t) where
  low := hbegin
  high := hend
  ordered := by simp [Window.only]
  small := by simp [Window.only]
  lowest := hlowest
  highest := by simp only [Window.only]; omega
  notStarted := by simp [Window.only]
  room _ := by
    obtain ⟨k, hk, hk', hcap⟩ := hroom
    have hpos : 0 < 2 ^ k := Nat.two_pow_pos k
    exact ⟨k, hk, hk', hcap, by simp only [Window.only]; omega⟩
  held l hl hl' := by
    simp only [Window.only] at hl hl' ⊢
    obtain rfl : l = n := by omega
    simpa using hheld
  outside l s hs := by
    simp only [Window.only, Option.ite_none_right_eq_some] at hs ⊢
    omega
  received l s hs := by
    simp only [Window.only, Option.ite_none_right_eq_some, Option.some.injEq] at hs
    omega

section

variable (h : Refines m w)
include h

theorem extend (hstarted : w.started = true) {m' : PacketArrivalTimeMap} {low high n t : Int}
    (hbegin : m'.beginSequenceNumber = low) (hend : m'.endSequenceNumber = high) (hlow : low ≤ w.low)
    (hhigh : w.high ≤ high) (hsmall : high ≤ low + 2 ^ 15) (hlowest : -2 ^ 63 + 2 ^ 15 ≤ low)
    (hhighest : high ≤ 2 ^ 63 - 2 ^ 15 - 1)
    (hroom : ∃ k, 7 ≤ k ∧ k ≤ 15 ∧ m'.capacity = 2 ^ k ∧ high ≤ low + m'.capacity) (hn : low ≤ n) (hn' : n < high)
    (ht : 0 ≤ t) (hheld : ∀ l, low ≤ l → l < high →
    m'.held l = if l = n then t else if w.low ≤ l ∧ l < w.high then m.held l else -1) :
    Refines m' ({ w with low := low, high := high }.put n t) where
  low := hbegin
  high := hend
  ordered := hn.trans hn'.le
  small := hsmall
  lowest := hlowest
  highest := hhighest
  notStarted := by simp [Window.put, hstarted]
  room _ := hroom
  held l hl hl' := by
    rw [hheld l hl hl']
    simp only [Window.put]
    split
    case isTrue => rfl
    case isFalse hne =>
      split
      case isTrue hin => exact h.held l hin.1 hin.2
      case isFalse hout =>
        rw [h.times_eq_none hout]
        rfl
  outside l s hs := by
    simp only [Window.put] at hs ⊢
    split at hs
    case isTrue heq => exact heq ▸ ⟨hn, hn'⟩
    case isFalse =>
      have hin := h.outside l s hs
      exact ⟨hlow.trans hin.1, hin.2.trans_le hhigh⟩
  received l s hs := by
    simp only [Window.put] at hs
    split at hs
    case isTrue => exact Option.some.inj hs ▸ ht
    case isFalse => exact h.received l s hs

theorem store {n t : Int} (hn : w.low ≤ n) (hn' : n < w.high) (ht : 0 ≤ t) :
    Refines (m.store n t) (w.put n t) := by
  have hstarted := h.started_of_lt hn hn'
  obtain ⟨k, hk, hk', hcap, hfit⟩ := h.room hstarted
  refine h.extend hstarted h.low h.high le_rfl le_rfl h.small h.lowest h.highest (h.room hstarted) hn hn' ht ?_
  intro l hl hl'
  rw [held_store hcap hk' t (by omega) (by omega), if_pos (show w.low ≤ l ∧ l < w.high from ⟨hl, hl'⟩)]

theorem addBelow (hstarted : w.started = true) {n t : Int} (hlowest : -2 ^ 63 + 2 ^ 15 ≤ n)
    (hn : n < w.low) (hsmall : w.high ≤ n + 2 ^ 15) (ht : 0 ≤ t) :
    let grown := (m.adjustToSize (m.endSequenceNumber - n).toNat).store n t
    Refines { grown.setNotReceived (n + 1) grown.beginSequenceNumber with beginSequenceNumber := n }
      ({ w with low := n }.put n t) := by
  have hbegin := h.low
  have hend := h.high
  have hordered := h.ordered
  have hhighest := h.highest
  obtain ⟨k, hk, hk', hcap, hfit⟩ := h.room hstarted
  have hmoved := @moved_adjustToSize m k (m.endSequenceNumber - n).toNat hcap hk hk' (by omega)
    (by omega) (by omega) (by omega) (by omega)
  generalize m.adjustToSize (m.endSequenceNumber - n).toNat = grown at hmoved
  obtain ⟨j, hj, hj', hcapj, hroom⟩ := hmoved.room
  have hbegin' := hmoved.begin_eq
  refine h.extend hstarted rfl (by simpa using hmoved.end_eq.trans hend) hn.le le_rfl hsmall hlowest hhighest
    ⟨j, hj, hj', by simpa using hcapj, by simpa using by omega⟩ le_rfl (by omega) ht ?_
  intro l hl hl'
  have hfilled := @held_setNotReceived (grown.store n t) j hcapj hj' (n + 1) grown.beginSequenceNumber l
    (by change _ - (grown.capacity : Int) ≤ l; omega) (by change l < _ + (grown.capacity : Int); omega)
  refine hfilled.trans ?_
  rw [held_store hcapj hj' t (by omega) (by omega)]
  by_cases heq : l = n
  · rw [if_neg (by omega), if_pos heq, if_pos heq]
  · rw [if_neg heq, if_neg heq]
    by_cases hin : w.low ≤ l
    · rw [if_neg (by omega), if_pos ⟨hin, hl'⟩, hmoved.held_eq l (by omega) (by omega)]
    · rw [if_pos (by omega), if_neg (by omega)]

theorem addAbove (hstarted : w.started = true) {n t : Int} (hhighest : n ≤ 2 ^ 63 - 2 ^ 15 - 2)
    (hn : w.high ≤ n) (hsmall : n + 1 ≤ w.low + 2 ^ 15) (ht : 0 ≤ t) :
    let grown := m.adjustToSize (n + 1 - m.beginSequenceNumber).toNat
    Refines ({ grown.setNotReceived grown.endSequenceNumber n with endSequenceNumber := n + 1 }.store n t)
      ({ w with high := n + 1 }.put n t) := by
  have hbegin := h.low
  have hend := h.high
  have hordered := h.ordered
  have hlowest := h.lowest
  obtain ⟨k, hk, hk', hcap, hfit⟩ := h.room hstarted
  have hmoved := @moved_adjustToSize m k (n + 1 - m.beginSequenceNumber).toNat hcap hk hk' (by omega)
    (by omega) (by omega) (by omega) (by omega)
  generalize m.adjustToSize (n + 1 - m.beginSequenceNumber).toNat = grown at hmoved
  obtain ⟨j, hj, hj', hcapj, hroom⟩ := hmoved.room
  have hend' := hmoved.end_eq
  have hcapf : (grown.setNotReceived grown.endSequenceNumber n).capacity = 2 ^ j := by simpa using hcapj
  refine h.extend hstarted (by simpa using hmoved.begin_eq.trans hbegin) rfl le_rfl
    (by omega) hsmall hlowest (by omega) ⟨j, hj, hj', hcapf, ?_⟩ (by omega) (by omega) ht ?_
  · simp only [capacity_store, capacity_setNotReceived]
    omega
  intro l hl hl'
  rw [capacity_setNotReceived] at hcapf
  have hstored := @held_store
    { grown.setNotReceived grown.endSequenceNumber n with endSequenceNumber := n + 1 } j
    (by simpa using hcapj) hj' n l t (by simp only [capacity_setNotReceived]; omega)
    (by simp only [capacity_setNotReceived]; omega)
  rw [hstored]
  by_cases heq : l = n
  · rw [if_pos heq, if_pos heq]
  · rw [if_neg heq, if_neg heq]
    have hfilled := @held_setNotReceived grown j hcapj hj' grown.endSequenceNumber n l (by omega) (by omega)
    refine hfilled.trans ?_
    by_cases hin : l < w.high
    · rw [if_neg (by omega), if_pos ⟨hl, hin⟩, hmoved.held_eq l (by omega) (by omega)]
    · rw [if_pos (by omega), if_neg (by omega)]

theorem addPacket {n t : Int} (hlowest : -2 ^ 63 + 2 ^ 15 ≤ n) (hhighest : n ≤ 2 ^ 63 - 2 ^ 15 - 2)
    (ht : 0 ≤ t) : Refines (m.addPacket n t) (w.add n t) := by
  have hbegin := h.low
  have hend := h.high
  have hordered := h.ordered
  have hsmall := h.small
  have hlow := h.lowest
  have hhigh := h.highest
  have hnewEnd : i64 (n + 1) = n + 1 := i64_of_lt (by omega) (by omega)
  unfold PacketArrivalTimeMap.addPacket Window.add
  by_cases hnew : w.started = false
  · rw [if_pos (h.notStarted hnew).1, if_pos hnew, hnewEnd]
    exact only hlowest hhighest ht rfl rfl ⟨7, le_rfl, by norm_num, rfl⟩ (held_store_self n t)
  · have hstarted : w.started = true := by simpa using hnew
    obtain ⟨k, hk, hk', hcap, hfit⟩ := h.room hstarted
    have hpos : 0 < 2 ^ k := Nat.two_pow_pos k
    rw [if_neg (show ¬ m.capacity = 0 by omega), if_neg hnew]
    by_cases hin : w.low ≤ n ∧ n < w.high
    · rw [if_pos (by omega), if_pos hin]
      exact h.store hin.1 hin.2 ht
    rw [if_neg (by omega), if_neg hin]
    by_cases hbelow : n < w.low
    · have hsize : (m.endSequenceNumber - n) % 2 ^ 64 = m.endSequenceNumber - n :=
        Int.emod_eq_of_lt (by omega) (by omega)
      simp only [hsize]
      rw [if_pos (by omega), if_pos hbelow]
      by_cases hfar : 2 ^ 15 < w.high - n
      · rw [if_pos (by omega), if_pos hfar]
        exact h
      · rw [if_neg (by omega), if_neg hfar]
        exact h.addBelow hstarted hlowest hbelow (by omega) ht
    · have hwrap : i64 (m.endSequenceNumber + 2 ^ 15) = m.endSequenceNumber + 2 ^ 15 :=
        i64_of_lt (by omega) (by omega)
      have hback : i64 (n + 1 - 2 ^ 15) = n + 1 - 2 ^ 15 := i64_of_lt (by omega) (by omega)
      have hsize : (n + 1 - max m.beginSequenceNumber (n + 1 - 2 ^ 15)) % 2 ^ 64 =
          n + 1 - max m.beginSequenceNumber (n + 1 - 2 ^ 15) := Int.emod_eq_of_lt (by omega) (by omega)
      simp only [hnewEnd, hwrap, hback, hsize]
      rw [if_neg (by omega), if_neg hbelow]
      by_cases hjump : w.high + 2 ^ 15 ≤ n + 1
      · rw [if_pos (by omega), if_pos hjump]
        exact only hlowest hhighest ht rfl rfl ⟨k, hk, hk', hcap⟩ (held_store_self n t)
      · rw [if_neg (by omega), if_neg hjump, ← hbegin]
        have hkept := @keepFrom m w h (max m.beginSequenceNumber (n + 1 - 2 ^ 15)) (by omega) (by omega)
        exact hkept.addAbove hstarted hhighest (by simp only [Window.keepFrom]; omega)
          (by simp only [Window.keepFrom]; omega) ht

theorem setNotReceived {a b : Int} (ha : w.low ≤ a) (hb : b ≤ w.high) :
    Refines (m.setNotReceived a b) (w.setNotReceived a b) := by
  have hsub : ∀ n t, (w.setNotReceived a b).times n = some t → w.times n = some t := by
    intro n t ht
    simp only [Window.setNotReceived] at ht
    split at ht
    case isTrue => cases ht
    case isFalse => exact ht
  exact { h with
    low := (begin_setNotReceived a b).trans h.low
    high := (end_setNotReceived a b).trans h.high
    notStarted := by simpa [Window.setNotReceived] using h.notStarted
    room := by simpa [Window.setNotReceived] using h.room
    held := by
      intro n hn hn'
      obtain ⟨k, hk, hk', hcap, hfit⟩ := h.room (h.started_of_lt hn hn')
      simp only [Window.setNotReceived] at hn hn' ⊢
      rw [held_setNotReceived hcap hk' (by omega) (by omega)]
      split
      case isTrue => rfl
      case isFalse => exact h.held n hn hn'
    outside := fun n t ht => h.outside n t (hsub n t ht)
    received := fun n t ht => h.received n t (hsub n t ht) }

theorem step {op : MapOp} (hop : w.Allowed op) : Refines (m.step op) (w.step op) := by
  cases op with
  | addPacket n t => exact h.addPacket hop.1 hop.2.1 hop.2.2
  | eraseTo n => exact h.eraseTo n
  | removeOldPackets n limit => exact h.removeOldPackets n limit
  | setNotReceived a b => exact h.setNotReceived hop.1 hop.2

theorem run {ops : List MapOp} (hops : Runs.Meets Window.step Window.Allowed w ops) :
    Refines (Runs.run PacketArrivalTimeMap.step m ops) (Runs.run Window.step w ops) := by
  induction ops generalizing m w with
  | nil => exact h
  | cons op ops ih => exact ih (h.step hops.1) hops.2

end

theorem new : Refines PacketArrivalTimeMap.new Window.empty where
  low := rfl
  high := rfl
  ordered := le_rfl
  small := by decide
  lowest := by decide
  highest := by decide
  notStarted _ := ⟨rfl, rfl⟩
  room hstarted := by cases hstarted
  held n hn hn' := by simp only [Window.empty] at hn hn'; omega
  outside n t ht := by cases ht
  received n t ht := by cases ht

/-! ## Reading -/

theorem get_eq (h : Refines m w) (n : Int) : m.get n = (w.times n).getD (-1) := by
  rw [PacketArrivalTimeMap.get, h.low, h.high]
  split
  case isTrue hout => rw [h.times_eq_none (by omega), Option.getD_none]
  case isFalse hin => exact h.held n (by omega) (by omega)

theorem neg_one_lt_getD (h : Refines m w) (n : Int) : -1 < (w.times n).getD (-1) ↔ (w.times n).isSome := by
  cases ht : w.times n with
  | none => simp
  | some t =>
    have := h.received n t ht
    simp only [Option.getD_some, Option.isSome_some, iff_true]
    omega

/-- The number found is the least one received at or above the argument, with its time. -/
theorem findNext_iff (h : Refines m w) (n l t : Int) :
    m.findNextAtOrAfter n = some (l, t) ↔
      IsLeast { i | n ≤ i ∧ (w.times i).isSome } l ∧ w.times l = some t := by
  have hend := h.high
  have hclamp : m.clamp n = max w.low (min n w.high) := by rw [clamp, h.low, hend]
  have hbelow : ∀ i s, n ≤ i → w.times i = some s → m.clamp n ≤ i ∧ i < w.high := by
    intro i s hi hs
    have := h.outside i s hs
    omega
  unfold findNextAtOrAfter
  dsimp only
  split
  case isTrue hempty =>
    simp only [reduceCtorEq, false_iff, not_and]
    rintro ⟨⟨hn, -⟩, -⟩ ht
    have := hbelow l t hn ht
    omega
  case isFalse hsome =>
    have hlen : m.clamp n + ((m.endSequenceNumber - m.clamp n).toNat : Int) = w.high := by omega
    have hheld : ∀ i, m.clamp n ≤ i → i < w.high → m.arrivalTimes (m.index i) = (w.times i).getD (-1) :=
      fun i hi hi' => h.held i (by omega) hi'
    rw [h.positionAfter_eq (by omega) hlen.le (by omega), Option.map_eq_some_iff]
    simp only [h.neg_one_lt_getD, Bool.decide_eq_true, List.findIdx?_eq_some_iff_getElem, List.getElem_range,
      List.length_range]
    constructor
    · rintro ⟨d, ⟨hd, hfound, hfirst⟩, heq⟩
      obtain ⟨rfl, rfl⟩ := Prod.mk.inj heq
      obtain ⟨s, hs⟩ := Option.isSome_iff_exists.mp hfound
      rw [hheld _ (by omega) (by omega), hs, Option.getD_some]
      refine ⟨⟨⟨?_, hfound⟩, ?_⟩, rfl⟩
      · omega
      · rintro i ⟨hi, hisSome⟩
        obtain ⟨u, hu⟩ := Option.isSome_iff_exists.mp hisSome
        have hin := hbelow i u hi hu
        by_contra hlt
        have hlt' : (i - m.clamp n).toNat < d := by omega
        have hnot := hfirst _ hlt'
        rw [show m.clamp n + ((i - m.clamp n).toNat : Int) = i by omega] at hnot
        exact hnot hisSome
    · rintro ⟨⟨⟨hn, hfound⟩, hleast⟩, ht⟩
      have hin := hbelow l t hn ht
      have hat : m.clamp n + ((l - m.clamp n).toNat : Int) = l := by omega
      refine ⟨(l - m.clamp n).toNat, ⟨by omega, by rwa [hat], ?_⟩, ?_⟩
      · intro j hj hsome'
        have hge := @hleast (m.clamp n + j) ⟨by omega, hsome'⟩
        omega
      · rw [hat, hheld l hin.1 hin.2, ht, Option.getD_some]

end Refines

/-! ## Every run -/

/-- After any run of allowed operations the map reads as the finite map of the window: the same bounds, at most `2^15`
    numbers, each with its last time or `-1`, and the least received number from any number on. A buffer in use is a
    power of two with room for the window. -/
theorem arrivalMap_refines_window (ops : List MapOp)
    (hops : Runs.Meets Window.step Window.Allowed Window.empty ops) :
    let m := Runs.run PacketArrivalTimeMap.step PacketArrivalTimeMap.new ops
    let w := Runs.run Window.step Window.empty ops
    m.beginSequenceNumber = w.low ∧ m.endSequenceNumber = w.high ∧ w.low ≤ w.high ∧ w.high - w.low ≤ 2 ^ 15 ∧
      (∀ n, (w.times n).isSome → w.low ≤ n ∧ n < w.high) ∧
      (∀ n, m.get n = (w.times n).getD (-1)) ∧
      (∀ n l t, m.findNextAtOrAfter n = some (l, t) ↔
        IsLeast { i | n ≤ i ∧ (w.times i).isSome } l ∧ w.times l = some t) ∧
      (w.started = true → ∃ k, m.capacity = 2 ^ k ∧ m.endSequenceNumber - m.beginSequenceNumber ≤ m.capacity) := by
  intro m w
  have h : Refines m w := Refines.new.run hops
  have hsmall := h.small
  have hlow := h.low
  have hhigh := h.high
  refine ⟨hlow, hhigh, h.ordered, by omega, ?_, h.get_eq, h.findNext_iff, ?_⟩
  · intro n hsome
    obtain ⟨t, ht⟩ := Option.isSome_iff_exists.mp hsome
    exact h.outside n t ht
  · intro hstarted
    obtain ⟨k, -, -, hcap, hfit⟩ := h.room hstarted
    exact ⟨k, hcap, by omega⟩

instance (w : Window) : ∀ op, Decidable (w.Allowed op)
  | .addPacket _ _ => inferInstanceAs (Decidable (_ ∧ _ ∧ _))
  | .setNotReceived _ _ => inferInstanceAs (Decidable (_ ∧ _))
  | .eraseTo _ => inferInstanceAs (Decidable True)
  | .removeOldPackets _ _ => inferInstanceAs (Decidable True)

/-- Growing for a number far above, sliding, shrinking again and reordering below the window. -/
def sampleOps : List MapOp :=
  [.addPacket 5 10, .addPacket 300 20, .setNotReceived 5 6, .eraseTo 299, .addPacket 44 30, .removeOldPackets 300 25]

theorem arrivalMap_refines_window_sample :
    Runs.Meets Window.step Window.Allowed Window.empty sampleOps ∧
      (Runs.run PacketArrivalTimeMap.step PacketArrivalTimeMap.new sampleOps).get 44 = 30 := by
  have hops : Runs.Meets Window.step Window.Allowed Window.empty sampleOps := by decide
  refine ⟨hops, ?_⟩
  rw [(arrivalMap_refines_window sampleOps hops).2.2.2.2.2.1]
  decide

/-- A number added a second time has its second time. -/
theorem arrivalMap_keeps_last_time :
    (Runs.run PacketArrivalTimeMap.step PacketArrivalTimeMap.new [.addPacket 5 1, .addPacket 5 2]).get 5 = 2 ∧
      -- at the last number of `i64` the window ends below its begin, and the packet is not found
      (Runs.run PacketArrivalTimeMap.step PacketArrivalTimeMap.new [.addPacket (2 ^ 63 - 1) 1]).get (2 ^ 63 - 1) = -1 ∧
      PacketArrivalTimeMap.new.capacity = 0 ∧
      -- a range outside the window shares the slot of a number inside
      (Runs.run PacketArrivalTimeMap.step PacketArrivalTimeMap.new
        [.addPacket 5 1, .setNotReceived 133 134]).get 5 = -1 := by
  decide +kernel

end Rtc.Interceptor.Twcc
