import Rtc.Lib.BitScan
import Rtc.Lib.WordBits

/-!
# Circular receipt bitmaps

The word-at-a-time operations of `rtc-interceptor/src/bitmap.rs`: a circular range of bits is split at the wrap into
linear segments, each processed a word at a time. The callbacks of the source are lists here, in call order.
-/

namespace Rtc.Interceptor.Bitmap

open Rtc.WordBits (testBit getD_set)
open Rtc.BitScan

/-! ## Segments and words of a range -/

/-- The loop of `for_each_segment` from `bit` and `offset` on. -/
def segmentsFrom (capacity len : Nat) : Nat → Nat → Nat → List (Nat × Nat × Nat)
  | 0, _, _ => []
  | fuel + 1, bit, offset =>
    if offset < len then
      let n := min (len - offset) (capacity - bit)
      (bit, n, offset) :: segmentsFrom capacity len fuel 0 (offset + n)
    else []

/-- `for_each_segment` (`bitmap.rs:34-51`): the calls `(segment_start, segment_len, offset)`. Every
    round advances `offset`, so `len` rounds are enough. -/
def segments (words start len : Nat) : List (Nat × Nat × Nat) :=
  let capacity := words * 64
  segmentsFrom capacity len len (start &&& (capacity - 1)) 0

/-- `for_each_word` (`bitmap.rs:56-75`): the calls `(word_index, mask)` for the linear range. -/
def wordMasks (start len : Nat) : List (Nat × BitVec 64) :=
  let stop := start + len
  let first := start / 64
  let last := (stop - 1) / 64
  let head := BitVec.allOnes 64 <<< (start % 64)
  let tail := BitVec.allOnes 64 >>> (64 - 1 - (stop - 1) % 64)
  if first = last then
    [(first, head &&& tail)]
  else
    (first, head) :: (List.range' (first + 1) (last - first - 1)).map (·, BitVec.allOnes 64)
      ++ [(last, tail)]

/-- The bits of a segment with their offsets in the range. -/
def visited (segment : Nat × Nat × Nat) : List (Nat × Nat) :=
  (List.range segment.2.1).map fun i => (segment.1 + i, segment.2.2 + i)

theorem segmentsFrom_visited {capacity len : Nat} :
    ∀ {fuel bit offset : Nat}, len - offset ≤ fuel → bit < capacity →
      (segmentsFrom capacity len fuel bit offset).flatMap visited =
        (List.range (len - offset)).map fun i => ((bit + i) % capacity, offset + i) := by
  intro fuel
  induction fuel with
  | zero =>
    intro bit offset hfuel _
    rw [Nat.le_zero.mp hfuel]
    rfl
  | succ fuel ih =>
    intro bit offset hfuel hbit
    rw [segmentsFrom]
    by_cases hlt : offset < len
    · have hsplit : len - offset =
          min (len - offset) (capacity - bit) + (len - (offset + min (len - offset) (capacity - bit))) := by
        omega
      rw [if_pos hlt, List.flatMap_cons, ih (by omega) (by omega)]
      conv_rhs => rw [hsplit, List.range_add, List.map_append, List.map_map]
      congr 1
      · apply List.map_congr_left
        intro i hi
        have hi : i < min (len - offset) (capacity - bit) := List.mem_range.mp hi
        rw [Nat.mod_eq_of_lt (show bit + i < capacity by omega)]
      · apply List.map_congr_left
        intro i hi
        have hi := List.mem_range.mp hi
        -- a further segment exists only when this one ran to the end of the buffer
        have hwrap : bit + (min (len - offset) (capacity - bit) + i) = i + capacity := by omega
        simp only [Function.comp_apply, hwrap, Nat.add_mod_right, Nat.zero_add, Nat.add_assoc]
    · rw [if_neg hlt, show len - offset = 0 by omega]
      rfl

theorem mem_segmentsFrom {capacity len : Nat} :
    ∀ {fuel bit offset : Nat} {segment : Nat × Nat × Nat}, bit < capacity →
      segment ∈ segmentsFrom capacity len fuel bit offset →
        0 < segment.2.1 ∧ segment.1 + segment.2.1 ≤ capacity := by
  intro fuel
  induction fuel with
  | zero =>
    intro bit offset segment _ hmem
    cases hmem
  | succ fuel ih =>
    intro bit offset segment hbit hmem
    rw [segmentsFrom] at hmem
    split at hmem
    · rcases List.mem_cons.mp hmem with rfl | hmem
      · dsimp only
        omega
      · exact ih (by omega) hmem
    · cases hmem

section Capacity

variable {words k : Nat} (hcap : words * 64 = 2 ^ k)

include hcap

theorem and_capacity (start : Nat) : start &&& (words * 64 - 1) = start % (words * 64) := by
  rw [hcap, Nat.and_two_pow_sub_one_eq_mod]

theorem capacity_pos : 0 < words * 64 := by
  rw [hcap]
  exact Nat.two_pow_pos k

theorem segments_visited (start len : Nat) :
    (segments words start len).flatMap visited =
      (List.range len).map fun i => ((start + i) % (words * 64), i) := by
  have hpos := capacity_pos hcap
  rw [segments, and_capacity hcap,
    segmentsFrom_visited (Nat.le_of_eq (Nat.sub_zero len)) (Nat.mod_lt _ hpos)]
  simp

theorem mem_segments {start len : Nat} {segment : Nat × Nat × Nat} (h : segment ∈ segments words start len) :
    0 < segment.2.1 ∧ segment.1 + segment.2.1 ≤ words * 64 := by
  rw [segments, and_capacity hcap] at h
  exact mem_segmentsFrom (Nat.mod_lt _ (capacity_pos hcap)) h

end Capacity

/-- The bits a mask selects in one word, as bits of the whole string. -/
def selected (word : Nat × BitVec 64) : List Nat :=
  ((List.range 64).filter word.2.getLsbD).map (word.1 * 64 + ·)

theorem filter_range_of_between {n a b : Nat} (hb : b < n) {p : Nat → Bool}
    (hp : ∀ i < n, p i = decide (a ≤ i ∧ i ≤ b)) : (List.range n).filter p = List.range' a (b + 1 - a) := by
  have hsorted : (List.range' a (b + 1 - a)).Pairwise (· < ·) := List.pairwise_lt_range'
  have hsorted' : ((List.range n).filter p).Pairwise (· < ·) := List.pairwise_lt_range.filter _
  apply List.Perm.eq_of_pairwise (fun _ _ _ _ h h' => absurd h (Nat.lt_asymm h')) hsorted' hsorted
  rw [List.perm_ext_iff_of_nodup (hsorted'.imp Nat.ne_of_lt) (hsorted.imp Nat.ne_of_lt)]
  intro i
  rw [List.mem_filter, List.mem_range, List.mem_range'_1]
  constructor
  · rintro ⟨hi, hpi⟩
    rw [hp i hi, decide_eq_true_eq] at hpi
    omega
  · intro hi
    refine ⟨by omega, ?_⟩
    rw [hp i (by omega), decide_eq_true_eq]
    omega

theorem selected_eq_range' {word : Nat × BitVec 64} {a b : Nat} (hb : b < 64)
    (hmask : ∀ i < 64, word.2.getLsbD i = decide (a ≤ i ∧ i ≤ b)) :
    selected word = List.range' (word.1 * 64 + a) (b + 1 - a) := by
  rw [selected, filter_range_of_between hb hmask, List.map_add_range']

theorem flatMap_selected_full (first n : Nat) :
    ((List.range' first n).map (·, BitVec.allOnes 64)).flatMap selected =
      List.range' (first * 64) (n * 64) := by
  induction n generalizing first with
  | zero => simp
  | succ n ih =>
    have hfull : selected (first, BitVec.allOnes 64) = List.range' (first * 64) 64 := by
      apply @selected_eq_range' (first, BitVec.allOnes 64) 0 63 (by decide)
      intro i hi
      rw [BitVec.getLsbD_allOnes]
      exact decide_eq_decide.mpr (by omega)
    rw [List.range'_succ, List.map_cons, List.flatMap_cons, hfull, ih,
      show (first + 1) * 64 = first * 64 + 64 by omega, List.range'_append_1]
    congr 1
    omega

theorem flatMap_selected_wordMasks {start len : Nat} (hlen : 0 < len) :
    (wordMasks start len).flatMap selected = List.range' start len := by
  have hlow : start % 64 < 64 := Nat.mod_lt _ (by decide)
  have hhigh : (start + len - 1) % 64 < 64 := Nat.mod_lt _ (by decide)
  have hhead : ∀ i < 64, (BitVec.allOnes 64 <<< (start % 64)).getLsbD i =
      decide (start % 64 ≤ i) := fun i hi => getLsbD_allOnes_shiftLeft hi
  have htail : ∀ i, (BitVec.allOnes 64 >>> (64 - 1 - (start + len - 1) % 64)).getLsbD i =
      decide (i ≤ (start + len - 1) % 64) := fun i => getLsbD_allOnes_ushiftRight hhigh
  rw [wordMasks]
  by_cases hone : start / 64 = (start + len - 1) / 64
  · have hsel : ∀ i < 64, (BitVec.allOnes 64 <<< (start % 64) &&&
        BitVec.allOnes 64 >>> (64 - 1 - (start + len - 1) % 64)).getLsbD i =
          decide (start % 64 ≤ i ∧ i ≤ (start + len - 1) % 64) := by
      intro i hi
      rw [BitVec.getLsbD_and, hhead i hi, htail i, Bool.decide_and]
    rw [if_pos hone, List.flatMap_cons, List.flatMap_nil, List.append_nil,
      selected_eq_range' hhigh hsel]
    congr 1 <;> omega
  · rw [if_neg hone, List.flatMap_append, List.flatMap_cons, List.flatMap_cons, List.flatMap_nil,
      List.append_nil, flatMap_selected_full,
      @selected_eq_range' (_, _) (start % 64) 63 (by decide)
        (fun i hi => (hhead i hi).trans (decide_eq_decide.mpr (by omega))),
      @selected_eq_range' (_, _) 0 ((start + len - 1) % 64) hhigh
        (fun i _ => (htail i).trans (decide_eq_decide.mpr (by omega)))]
    have hfirst : start / 64 * 64 + start % 64 = start := by omega
    have hmid : (start / 64 + 1) * 64 = start + (63 + 1 - start % 64) := by omega
    have hlast : (start + len - 1) / 64 * 64 + 0 = start + ((63 + 1 - start % 64) +
        ((start + len - 1) / 64 - start / 64 - 1) * 64) := by omega
    rw [hfirst, hmid, hlast, List.range'_append_1, List.range'_append_1]
    congr 1
    omega

/-! ## Scanning for clear bits -/

/-- `for_each_zero` (`bitmap.rs:114-126`): the offsets it is called with. -/
def forEachZero (words : List (BitVec 64)) (start len : Nat) : List Nat :=
  (segments words.length start len).flatMap fun (start, len, offset) =>
    (wordMasks start len).flatMap fun (word, mask) =>
      (ones (~~~(words.getD word 0#64) &&& mask)).map fun zeros =>
        offset + (word * 64 + zeros - start)

/-- `first_zero` (`bitmap.rs:133-149`). -/
def firstZero (words : List (BitVec 64)) (start len : Nat) : Option Nat :=
  (segments words.length start (min len (words.length * 64))).findSome? fun (start, len, offset) =>
    (wordMasks start len).findSome? fun (word, mask) =>
      let zeros := ~~~(words.getD word 0#64) &&& mask
      if zeros = 0#64 then none
      else some (offset + (word * 64 + zeros.ctz.toNat - start))

theorem map_ones_clear (words : List (BitVec 64)) (word : Nat) (mask : BitVec 64) :
    (ones (~~~(words.getD word 0#64) &&& mask)).map (word * 64 + ·) =
      (selected (word, mask)).filter fun j => !testBit words j := by
  rw [ones_eq_filter, selected, List.filter_map, List.filter_filter]
  congr 1
  apply List.filter_congr
  intro i hi
  have hi := List.mem_range.mp hi
  have hword : (word * 64 + i) / 64 = word := by omega
  have hbit : (word * 64 + i) % 64 = i := by omega
  simp only [Function.comp_apply, testBit, hword, hbit, BitVec.getLsbD_and, BitVec.getLsbD_not, hi,
    decide_true, Bool.true_and]

theorem flatMap_wordMasks_clear (words : List (BitVec 64)) {segment : Nat × Nat × Nat} (hlen : 0 < segment.2.1) :
    ((wordMasks segment.1 segment.2.1).flatMap fun (word, mask) =>
        (ones (~~~(words.getD word 0#64) &&& mask)).map fun zeros =>
          segment.2.2 + (word * 64 + zeros - segment.1)) =
      ((visited segment).filter fun p => !testBit words p.1).map Prod.snd := by
  have hword : ∀ p : Nat × BitVec 64,
      ((ones (~~~(words.getD p.1 0#64) &&& p.2)).map fun zeros =>
        segment.2.2 + (p.1 * 64 + zeros - segment.1)) =
      ((selected p).filter fun j => !testBit words j).map fun j =>
        segment.2.2 + (j - segment.1) := by
    intro p
    rw [← map_ones_clear, List.map_map]
    rfl
  calc ((wordMasks segment.1 segment.2.1).flatMap fun p =>
          (ones (~~~(words.getD p.1 0#64) &&& p.2)).map fun zeros =>
            segment.2.2 + (p.1 * 64 + zeros - segment.1))
    _ = (((wordMasks segment.1 segment.2.1).flatMap selected).filter fun j =>
          !testBit words j).map fun j => segment.2.2 + (j - segment.1) := by
      rw [List.filter_flatMap, List.map_flatMap]
      exact congrArg (List.flatMap · _) (funext hword)
    _ = _ := by
      rw [flatMap_selected_wordMasks hlen, List.range'_eq_map_range, visited, List.filter_map,
        List.filter_map, List.map_map, List.map_map]
      apply List.map_congr_left
      intro i _
      simp only [Function.comp_apply, Nat.add_sub_cancel_left]

section Scan

variable {words : List (BitVec 64)} {k : Nat} (hcap : words.length * 64 = 2 ^ k)

include hcap

theorem forEachZero_eq_filter (start len : Nat) :
    forEachZero words start len =
      (List.range len).filter fun i => !testBit words ((start + i) % (words.length * 64)) := by
  have hseg : forEachZero words start len =
      (segments words.length start len).flatMap fun segment =>
        ((visited segment).filter fun p => !testBit words p.1).map Prod.snd := by
    apply List.flatMap_congr
    intro segment hmem
    exact flatMap_wordMasks_clear words (mem_segments hcap hmem).1
  rw [hseg, ← List.map_flatMap, ← List.filter_flatMap, segments_visited hcap, List.filter_map,
    List.map_map]
  exact List.map_id _

theorem firstZero_eq_find? (start len : Nat) :
    firstZero words start len =
      (List.range (min len (words.length * 64))).find? fun i =>
        !testBit words ((start + i) % (words.length * 64)) := by
  rw [← List.head?_filter, ← forEachZero_eq_filter hcap, forEachZero, List.head?_flatMap]
  apply congrArg (List.findSome? · _)
  funext segment
  rw [List.head?_flatMap]
  apply congrArg (List.findSome? · _)
  funext word
  rw [List.head?_map, head?_ones]
  dsimp only
  split <;> rfl

end Scan

/-! ## Counting clear bits -/

/-- `count_zeros_linear` (`bitmap.rs:92-108`). -/
def countZerosLinear (words : List (BitVec 64)) (start len : Nat) : Nat :=
  let stop := start + len
  let first := start / 64
  let last := (stop - 1) / 64
  let head := BitVec.allOnes 64 <<< (start % 64)
  let tail := BitVec.allOnes 64 >>> (64 - 1 - (stop - 1) % 64)
  if first = last then
    popcount (~~~(words.getD first 0#64) &&& head &&& tail)
  else
    popcount (~~~(words.getD first 0#64) &&& head)
      + (((words.drop (first + 1)).take (last - first - 1)).map fun word => popcount (~~~word)).sum
      + popcount (~~~(words.getD last 0#64) &&& tail)

/-- `count_zeros` (`bitmap.rs:81-88`). -/
def countZeros (words : List (BitVec 64)) (start len : Nat) : Nat :=
  ((segments words.length start len).map fun (start, len, _) => countZerosLinear words start len).sum

variable {words : List (BitVec 64)} {k : Nat}

theorem take_drop_eq_map_range' {a n : Nat} (h : a + n ≤ words.length) :
    (words.drop a).take n = (List.range' a n).map fun i => words.getD i 0#64 := by
  apply List.ext_getElem
  · simp
    omega
  · intro i hi _
    have hin : a + i < words.length := by
      simp at hi
      omega
    simp [List.getElem?_eq_getElem hin]

theorem countZerosLinear_eq {start len : Nat} (hfit : start + len ≤ words.length * 64) (hlen : 0 < len) :
    countZerosLinear words start len =
      ((wordMasks start len).map fun (word, mask) =>
        popcount (~~~(words.getD word 0#64) &&& mask)).sum := by
  rw [countZerosLinear, wordMasks]
  dsimp only
  split
  · rw [List.map_singleton, List.sum_singleton, BitVec.and_assoc]
  · rw [take_drop_eq_map_range' (by omega), List.map_append, List.map_cons, List.sum_append,
      List.sum_cons, List.map_map, List.map_map, List.map_singleton, List.sum_singleton]
    simp only [Function.comp_def, BitVec.and_allOnes]

theorem countZeros_eq_length (hcap : words.length * 64 = 2 ^ k) (start len : Nat) :
    countZeros words start len = (forEachZero words start len).length := by
  rw [countZeros, forEachZero, List.length_flatMap]
  congr 1
  apply List.map_congr_left
  intro segment hmem
  obtain ⟨hlen, hfit⟩ := mem_segments hcap hmem
  dsimp only
  rw [countZerosLinear_eq hfit hlen, List.length_flatMap]
  simp only [List.length_map, length_ones]

theorem countZeros_eq_countP (hcap : words.length * 64 = 2 ^ k) (start len : Nat) :
    countZeros words start len =
      (List.range len).countP fun i => !testBit words ((start + i) % (words.length * 64)) := by
  rw [countZeros_eq_length hcap, forEachZero_eq_filter hcap, List.countP_eq_length_filter]

/-! ## Clearing -/

/-- `words[low..high].fill(0)`. -/
def fillZero (words : List (BitVec 64)) (low high : Nat) : List (BitVec 64) :=
  words.mapIdx fun i word => if low ≤ i ∧ i < high then 0#64 else word

/-- `clear_linear` (`bitmap.rs:167-180`). -/
def clearLinear (words : List (BitVec 64)) (start len : Nat) : List (BitVec 64) :=
  let stop := start + len
  let first := start / 64
  let last := (stop - 1) / 64
  let head := BitVec.allOnes 64 <<< (start % 64)
  let tail := BitVec.allOnes 64 >>> (64 - 1 - (stop - 1) % 64)
  if first = last then
    words.set first (words.getD first 0#64 &&& ~~~(head &&& tail))
  else
    let words := words.set first (words.getD first 0#64 &&& ~~~head)
    let words := fillZero words (first + 1) last
    words.set last (words.getD last 0#64 &&& ~~~tail)

/-- `clear` (`bitmap.rs:154-163`). -/
def clear (words : List (BitVec 64)) (start len : Nat) : List (BitVec 64) :=
  if words.length * 64 ≤ len then
    List.replicate words.length 0#64
  else
    (segments words.length start len).foldl
      (fun words (start, len, _) => clearLinear words start len) words

@[simp] theorem length_fillZero (words : List (BitVec 64)) (low high : Nat) :
    (fillZero words low high).length = words.length := by
  simp [fillZero]

theorem getD_fillZero (words : List (BitVec 64)) (low high i : Nat) :
    (fillZero words low high).getD i 0#64 =
      if low ≤ i ∧ i < high then 0#64 else words.getD i 0#64 := by
  rw [fillZero, List.getD_eq_getElem?_getD, List.getElem?_mapIdx, List.getD_eq_getElem?_getD]
  cases words[i]? with
  | none => simp
  | some word => rfl

@[simp] theorem length_clearLinear (words : List (BitVec 64)) (start len : Nat) :
    (clearLinear words start len).length = words.length := by
  unfold clearLinear
  dsimp only
  split <;> simp

theorem testBit_clearLinear {start len : Nat} (hlen : 0 < len)
    (hfit : start + len ≤ words.length * 64) (j : Nat) :
    testBit (clearLinear words start len) j =
      (testBit words j && !decide (start ≤ j ∧ j < start + len)) := by
  have hj : j % 64 < 64 := Nat.mod_lt _ (by decide)
  have hhigh : (start + len - 1) % 64 < 64 := Nat.mod_lt _ (by decide)
  have hhead : (BitVec.allOnes 64 <<< (start % 64)).getLsbD (j % 64) =
      decide (start % 64 ≤ j % 64) := getLsbD_allOnes_shiftLeft hj
  have htail : (BitVec.allOnes 64 >>> (64 - 1 - (start + len - 1) % 64)).getLsbD (j % 64) =
      decide (j % 64 ≤ (start + len - 1) % 64) := getLsbD_allOnes_ushiftRight hhigh
  have hfirst : start / 64 < words.length := by omega
  have hlast : (start + len - 1) / 64 < words.length := by omega
  unfold clearLinear testBit
  dsimp only
  by_cases hone : start / 64 = (start + len - 1) / 64
  · rw [if_pos hone, getD_set hfirst]
    by_cases hword : j / 64 = start / 64
    · rw [if_pos hword, hword, BitVec.getLsbD_and, BitVec.getLsbD_not, BitVec.getLsbD_and, hhead,
        htail, decide_eq_true hj, Bool.true_and, ← Bool.decide_and]
      congr 2
      exact decide_eq_decide.mpr (by omega)
    · rw [if_neg hword, decide_eq_false (by omega), Bool.not_false, Bool.and_true]
  · rw [if_neg hone, getD_set (by simpa using hlast), getD_fillZero, getD_fillZero,
      getD_set hfirst, getD_set hfirst]
    rcases Nat.lt_trichotomy (j / 64) (start / 64) with hlt | heq | hgt
    · rw [if_neg (by omega), if_neg (by omega), if_neg (by omega), decide_eq_false (by omega),
        Bool.not_false, Bool.and_true]
    · rw [if_neg (by omega), if_neg (by omega), if_pos heq, heq, BitVec.getLsbD_and,
        BitVec.getLsbD_not, hhead, decide_eq_true hj, Bool.true_and]
      congr 2
      exact decide_eq_decide.mpr (by omega)
    · rcases Nat.lt_trichotomy (j / 64) ((start + len - 1) / 64) with hlt | heq | hgt'
      · rw [if_neg (by omega), if_pos (by omega), decide_eq_true (by omega)]
        simp
      · rw [if_pos heq, if_neg (by omega), if_neg (by omega), heq, BitVec.getLsbD_and,
          BitVec.getLsbD_not, htail, decide_eq_true hj, Bool.true_and]
        congr 2
        exact decide_eq_decide.mpr (by omega)
      · rw [if_neg (by omega), if_neg (by omega), if_neg (by omega), decide_eq_false (by omega),
          Bool.not_false, Bool.and_true]

theorem length_foldl_clearLinear (segs : List (Nat × Nat × Nat)) (words : List (BitVec 64)) :
    (segs.foldl (fun words (start, len, _) => clearLinear words start len) words).length =
      words.length := by
  induction segs generalizing words with
  | nil => rfl
  | cons segment segs ih => rw [List.foldl_cons, ih, length_clearLinear]

@[simp] theorem length_clear (words : List (BitVec 64)) (start len : Nat) :
    (clear words start len).length = words.length := by
  unfold clear
  split
  · exact List.length_replicate
  · exact length_foldl_clearLinear _ _

theorem testBit_foldl_clearLinear (segs : List (Nat × Nat × Nat))
    (hfit : ∀ segment ∈ segs, 0 < segment.2.1 ∧ segment.1 + segment.2.1 ≤ words.length * 64) (j : Nat) :
    testBit (segs.foldl (fun words (start, len, _) => clearLinear words start len) words) j =
      (testBit words j && !decide (∃ p ∈ segs.flatMap visited, p.1 = j)) := by
  induction segs generalizing words with
  | nil => simp
  | cons segment segs ih =>
    have hhead := hfit segment List.mem_cons_self
    have hvisit : (∃ p ∈ visited segment, p.1 = j) ↔
        segment.1 ≤ j ∧ j < segment.1 + segment.2.1 := by
      constructor
      · rintro ⟨p, hp, rfl⟩
        obtain ⟨i, hi, rfl⟩ := List.mem_map.mp hp
        have hi := List.mem_range.mp hi
        dsimp only
        omega
      · intro hj
        refine ⟨_, List.mem_map.mpr ⟨j - segment.1, List.mem_range.mpr (by omega), rfl⟩, ?_⟩
        dsimp only
        omega
    have hor : (∃ p ∈ (segment :: segs).flatMap visited, p.1 = j) ↔
        (segment.1 ≤ j ∧ j < segment.1 + segment.2.1) ∨
          ∃ p ∈ segs.flatMap visited, p.1 = j := by
      rw [← hvisit, List.flatMap_cons]
      simp only [List.mem_append, or_and_right, exists_or]
    have hrest : ∀ s ∈ segs, 0 < s.2.1 ∧
        s.1 + s.2.1 ≤ (clearLinear words segment.1 segment.2.1).length * 64 := by
      intro s hs
      rw [length_clearLinear]
      exact hfit s (List.mem_cons_of_mem _ hs)
    rw [List.foldl_cons, ih hrest, testBit_clearLinear hhead.1 hhead.2, decide_eq_decide.mpr hor,
      Bool.decide_or, Bool.not_or, Bool.and_assoc]

theorem testBit_clear (hcap : words.length * 64 = 2 ^ k)
    (start len : Nat) {j : Nat} (hj : j < words.length * 64) :
    testBit (clear words start len) j =
      (testBit words j && decide (∀ i < len, (start + i) % (words.length * 64) ≠ j)) := by
  rw [clear]
  split
  case isTrue hfull =>
    -- the range comes by every bit: start at `j` minus `start`, modulo the capacity
    have hpos := capacity_pos hcap
    have hhit : ∃ i < len, (start + i) % (words.length * 64) = j := by
      have hs := Nat.mod_lt start hpos
      by_cases hle : start % (words.length * 64) ≤ j
      · refine ⟨j - start % (words.length * 64), by omega, ?_⟩
        rw [Nat.add_mod, Nat.mod_eq_of_lt (show j - start % (words.length * 64) <
          words.length * 64 by omega), Nat.add_sub_cancel' hle, Nat.mod_eq_of_lt hj]
      · refine ⟨j + words.length * 64 - start % (words.length * 64), by omega, ?_⟩
        rw [Nat.add_mod, Nat.mod_eq_of_lt (show j + words.length * 64 -
          start % (words.length * 64) < words.length * 64 by omega), Nat.add_sub_cancel' (by omega),
          Nat.add_mod_right, Nat.mod_eq_of_lt hj]
    have hnot : ¬ ∀ i < len, (start + i) % (words.length * 64) ≠ j := by
      intro hall
      obtain ⟨i, hi, heq⟩ := hhit
      exact hall i hi heq
    rw [decide_eq_false hnot, Bool.and_false, WordBits.testBit_replicate_zero]
  case isFalse =>
    rw [testBit_foldl_clearLinear _ fun segment hs => mem_segments hcap hs, segments_visited hcap,
      ← decide_not]
    congr 1
    apply decide_eq_decide.mpr
    constructor
    · intro hnone i hi heq
      exact hnone ⟨_, List.mem_map.mpr ⟨i, List.mem_range.mpr hi, rfl⟩, heq⟩
    · rintro hall ⟨p, hp, hpj⟩
      obtain ⟨i, hi, rfl⟩ := List.mem_map.mp hp
      exact hall i (List.mem_range.mp hi) hpj

end Rtc.Interceptor.Bitmap
