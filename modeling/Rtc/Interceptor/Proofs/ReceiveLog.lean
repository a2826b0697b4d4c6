import Rtc.Interceptor.Nack.ReceiveLog
import Rtc.Lib.Runs
import Rtc.Lib.Serial

/-!
# What the receive log reports

`Receipts` are the numbers that have come up since the first packet and those of them received since. By `Tracks` the
bit of a number inside the window says whether it was received.
-/

namespace Rtc.Interceptor

open Rtc.Serial (ahead)
open Rtc.WordBits (testBit)

/-! ## The abstract log -/

/-- The newest number, the numbers that have come up since the first packet, and those received
    since they last came up. -/
structure Receipts where
  newest : Seq
  entered : Seq → Bool
  received : Seq → Bool

namespace Receipts

/-- The first packet. Nothing before it is expected. -/
def first (seq : Seq) : Receipts where
  newest := seq
  entered s := s = seq
  received s := s = seq

/-- A further packet. One ahead of the newest brings up the numbers after the newest up to its own,
    and of these only its own is received. -/
def add (r : Receipts) (seq : Seq) : Receipts :=
  if Serial.Lt r.newest seq then
    { newest := seq
      entered := fun s => r.entered s || ahead s seq < ahead r.newest seq
      received := fun s => s = seq || (r.received s && !decide (ahead s seq < ahead r.newest seq)) }
  else
    { r with received := fun s => s = seq || r.received s }

theorem add_of_lt {r : Receipts} {seq : Seq} (h : Serial.Lt r.newest seq) :
    r.add seq =
      { newest := seq
        entered := fun s => r.entered s || ahead s seq < ahead r.newest seq
        received := fun s =>
          s = seq || (r.received s && !decide (ahead s seq < ahead r.newest seq)) } :=
  if_pos h

theorem add_of_not_lt {r : Receipts} {seq : Seq} (h : ¬ Serial.Lt r.newest seq) :
    r.add seq = { r with received := fun s => s = seq || r.received s } :=
  if_neg h

/-- What is known after the packets of `history`, oldest first. -/
def of : List Seq → Option Receipts
  | [] => none
  | seq :: rest => some (Runs.run add (first seq) rest)

end Receipts

namespace ReceiveLog

variable {log : ReceiveLog} {seq : Seq} {s last : Seq} {size skipLastN : BitVec 16}

/-! ## Slots -/

structure WellFormed (log : ReceiveLog) : Prop where
  size_eq : ∃ k, 6 ≤ k ∧ k ≤ 15 ∧ log.size.toNat = 2 ^ k
  capacity_eq : log.packets.length * 64 = log.size.toNat
  sizeMask_eq : log.sizeMask = log.size - 1#16

namespace WellFormed

variable (h : log.WellFormed)
include h

theorem size_pos : 0 < log.size.toNat := by
  obtain ⟨k, -, -, hk⟩ := h.size_eq
  rw [hk]
  exact Nat.two_pow_pos k

theorem size_le : log.size.toNat ≤ 2 ^ 15 := by
  obtain ⟨k, -, hle, hk⟩ := h.size_eq
  rw [hk]
  exact Nat.pow_le_pow_right (by decide) hle

theorem size_dvd : log.size.toNat ∣ 2 ^ 16 := by
  obtain ⟨k, -, hle, hk⟩ := h.size_eq
  rw [hk]
  exact Nat.pow_dvd_pow 2 (by omega)

theorem capacity_pow : ∃ k, log.packets.length * 64 = 2 ^ k := by
  obtain ⟨k, -, -, hk⟩ := h.size_eq
  exact ⟨k, h.capacity_eq.trans hk⟩

theorem and_sizeMask (seq : Seq) : (seq &&& log.sizeMask).toNat = seq.toNat % log.size.toNat := by
  obtain ⟨k, -, -, hk⟩ := h.size_eq
  rw [h.sizeMask_eq, Serial.toNat_and_sub_one hk]

theorem slot_add (a : Seq) (n : Nat) :
    (a + BitVec.ofNat 16 n).toNat % log.size.toNat = (a.toNat + n) % log.size.toNat :=
  Serial.slot_add h.size_dvd a n

theorem eq_of_slot_eq {s t : Seq} (hnear : ahead s t < log.size.toNat)
    (hslot : s.toNat % log.size.toNat = t.toNat % log.size.toNat) : s = t :=
  Serial.eq_of_slot_eq h.size_dvd hnear hslot

theorem getReceived_eq (seq : Seq) : log.getReceived seq = testBit log.packets (seq.toNat % log.size.toNat) := by
  rw [getReceived, h.and_sizeMask, WordBits.and_shiftLeft_ne_zero _ (Nat.mod_lt _ (by decide))]
  rfl

theorem slot_lt (seq : Seq) : seq.toNat % log.size.toNat / 64 < log.packets.length := by
  have hlt := Nat.mod_lt seq.toNat h.size_pos
  have hcap := h.capacity_eq
  omega

theorem setReceived (seq : Seq) : (log.setReceived seq).WellFormed where
  size_eq := h.size_eq
  capacity_eq := by
    rw [ReceiveLog.setReceived, List.length_set]
    exact h.capacity_eq
  sizeMask_eq := h.sizeMask_eq

theorem getReceived_setReceived (seq s : Seq) :
    (log.setReceived seq).getReceived s = (log.getReceived s ||
      decide (s.toNat % log.size.toNat = seq.toNat % log.size.toNat)) := by
  rw [(h.setReceived seq).getReceived_eq, h.getReceived_eq]
  have hset := WordBits.testBit_set_or (h.slot_lt seq) (s.toNat % log.size.toNat)
  rw [← h.and_sizeMask seq] at hset
  rw [← h.and_sizeMask seq]
  exact hset

theorem getReceived_setReceived_of_near {seq s : Seq}
    (hnear : ahead s seq < log.size.toNat ∨ ahead seq s < log.size.toNat) :
    (log.setReceived seq).getReceived s = (decide (s = seq) || log.getReceived s) := by
  have hslot : (s.toNat % log.size.toNat = seq.toNat % log.size.toNat) ↔ s = seq := by
    refine ⟨fun heq => ?_, fun heq => by rw [heq]⟩
    rcases hnear with hnear | hnear
    · exact h.eq_of_slot_eq hnear heq
    · exact (h.eq_of_slot_eq hnear heq.symm).symm
  rw [h.getReceived_setReceived, decide_eq_decide.mpr hslot, Bool.or_comm]

end WellFormed

theorem WellFormed.withLast (h : log.WellFormed) (last : Seq) :
    { log with lastConsecutive := last }.WellFormed :=
  ⟨h.size_eq, h.capacity_eq, h.sizeMask_eq⟩

/-! ## Clearing and searching -/

/-- `log` with the numbers after `end` up to before `seq` cleared and `end` moved to `seq`. -/
def slide (log : ReceiveLog) (seq diff : Seq) : ReceiveLog :=
  { log with
    packets := Bitmap.clear log.packets (log.endSeq + 1#16).toNat (diff - 1#16).toNat
    endSeq := seq }

theorem WellFormed.slide (h : log.WellFormed) (seq diff : Seq) : (log.slide seq diff).WellFormed where
  size_eq := h.size_eq
  capacity_eq := by
    rw [ReceiveLog.slide, Bitmap.length_clear]
    exact h.capacity_eq
  sizeMask_eq := h.sizeMask_eq

/-- After the window has moved on to `seq`, a number that came up is clear and one that was in the
    window before is as it was. -/
theorem WellFormed.getReceived_slide (h : log.WellFormed)
    (hpos : 0 < ahead log.endSeq seq) (hwin : ahead s seq < log.size.toNat) (hne : s ≠ seq) :
    (log.slide seq (seq - log.endSeq)).getReceived s =
      (log.getReceived s && !decide (ahead s seq < ahead log.endSeq seq)) := by
  have hsize := h.size_le
  have hlen : (seq - log.endSeq - 1#16).toNat = ahead log.endSeq seq - 1 := by
    rw [BitVec.toNat_sub_of_le (by rw [BitVec.le_def]; exact hpos)]
    rfl
  have hspan := Serial.ahead_lt log.endSeq seq
  have hback : 0 < ahead s seq := by
    refine Nat.pos_of_ne_zero fun hzero => hne (Serial.ahead_eq_zero.mp hzero)
  have hslot : ∀ i, ((log.endSeq + 1#16).toNat + i) % log.size.toNat =
      (log.endSeq + BitVec.ofNat 16 (1 + i)).toNat % log.size.toNat := by
    intro i
    rw [← h.slot_add, Serial.add_add]
  obtain ⟨k, hcap⟩ := h.capacity_pow
  have hclear := Bitmap.testBit_clear hcap (log.endSeq + 1#16).toNat (ahead log.endSeq seq - 1)
    (show s.toNat % log.size.toNat < log.packets.length * 64 by
      rw [h.capacity_eq]
      exact Nat.mod_lt _ h.size_pos)
  rw [(h.slide _ _).getReceived_eq, h.getReceived_eq]
  change testBit (Bitmap.clear log.packets _ (seq - log.endSeq - 1#16).toNat)
    (s.toNat % log.size.toNat) = _
  rw [hlen, hclear, h.capacity_eq, ← decide_not]
  congr 1
  apply decide_eq_decide.mpr
  constructor
  · -- a number that came up is one of those cleared
    intro hmiss hup
    have hfrom : ahead log.endSeq s = ahead log.endSeq seq - ahead s seq :=
      Serial.ahead_sub_right seq (Nat.le_of_lt hup)
    apply hmiss (ahead log.endSeq s - 1) (by omega)
    rw [hslot, Nat.add_sub_cancel' (by omega), Serial.add_ahead]
  · intro hold i hi heq
    have hfrom : ahead s log.endSeq = ahead s seq - ahead log.endSeq seq :=
      Serial.ahead_sub_right seq (by omega)
    rw [hslot] at heq
    have hdist : ahead s (log.endSeq + BitVec.ofNat 16 (1 + i)) = ahead s log.endSeq + (1 + i) :=
      Serial.ahead_add_right _ _ (by omega)
    have hsame := h.eq_of_slot_eq (by omega) heq.symm
    rw [← hsame, Serial.ahead_self] at hdist
    omega

theorem WellFormed.fixLastConsecutive (h : log.WellFormed) : log.fixLastConsecutive.WellFormed :=
  ⟨h.size_eq, h.capacity_eq, h.sizeMask_eq⟩

theorem WellFormed.fixLastConsecutive_spec (h : log.WellFormed)
    (hspan : ahead log.lastConsecutive log.endSeq ≤ log.size.toNat) :
    ahead log.fixLastConsecutive.lastConsecutive log.endSeq ≤ ahead log.lastConsecutive log.endSeq ∧
      ∀ s, ahead log.fixLastConsecutive.lastConsecutive log.endSeq ≤ ahead s log.endSeq →
        ahead s log.endSeq < ahead log.lastConsecutive log.endSeq → log.getReceived s := by
  have hsize := h.size_le
  obtain ⟨k, hcap⟩ := h.capacity_pow
  have hfind := Bitmap.firstZero_eq_find? hcap (log.lastConsecutive + 1#16).toNat
    (ahead log.lastConsecutive log.endSeq)
  rw [h.capacity_eq, Nat.min_eq_left hspan] at hfind
  -- the bit read at offset `i` is that of the number `i + 1` places after `last_consecutive`
  have hread : ∀ s, ahead s log.endSeq < ahead log.lastConsecutive log.endSeq →
      testBit log.packets (((log.lastConsecutive + 1#16).toNat +
        (ahead log.lastConsecutive log.endSeq - ahead s log.endSeq - 1)) % log.size.toNat) = true →
      log.getReceived s = true := by
    intro s hs hbit
    have hfrom : ahead log.lastConsecutive s =
        ahead log.lastConsecutive log.endSeq - ahead s log.endSeq :=
      Serial.ahead_sub_right log.endSeq (Nat.le_of_lt hs)
    rw [← h.slot_add, Serial.add_add, ← hfrom, Nat.add_sub_cancel' (by omega),
      Serial.add_ahead] at hbit
    rw [h.getReceived_eq]
    exact hbit
  have hlast := log.lastConsecutive_fixLastConsecutive
  rw [show (log.endSeq - log.lastConsecutive).toNat = ahead log.lastConsecutive log.endSeq from rfl, hfind] at hlast
  cases hzero : (List.range (ahead log.lastConsecutive log.endSeq)).find? fun i =>
      !testBit log.packets (((log.lastConsecutive + 1#16).toNat + i) % log.size.toNat) with
  | none =>
    rw [hzero] at hlast
    have hend : log.fixLastConsecutive.lastConsecutive = log.endSeq := hlast
    rw [hend, Serial.ahead_self]
    refine ⟨Nat.zero_le _, fun s _ hs => hread s hs ?_⟩
    have hset := List.find?_eq_none.mp hzero (ahead log.lastConsecutive log.endSeq -
      ahead s log.endSeq - 1) (List.mem_range.mpr (by omega))
    simpa using hset
  | some offset =>
    rw [hzero] at hlast
    have hmoved : log.fixLastConsecutive.lastConsecutive =
        log.lastConsecutive + BitVec.ofNat 16 offset := hlast
    obtain ⟨-, hin, hbefore⟩ := List.find?_range_eq_some.mp hzero
    have hin := List.mem_range.mp hin
    have hoff : ahead log.lastConsecutive (log.lastConsecutive + BitVec.ofNat 16 offset) = offset :=
      Serial.ahead_add _ (by omega)
    have hdist : ahead (log.lastConsecutive + BitVec.ofNat 16 offset) log.endSeq =
        ahead log.lastConsecutive log.endSeq - offset := by
      rw [Serial.ahead_eq_sub log.lastConsecutive (by omega), hoff]
    rw [hmoved, hdist]
    refine ⟨Nat.sub_le _ _, fun s hle hs => hread s hs ?_⟩
    have hset := hbefore (ahead log.lastConsecutive log.endSeq - ahead s log.endSeq - 1) (by omega)
    simpa using hset

/-! ## The log and the abstract log -/

variable {r : Receipts}

/-- `last` is a point of the window such that everything after it has come up and everything before
    it that has come up was received. -/
structure Consecutive (last newest : Seq) (size : Nat) (r : Receipts) : Prop where
  span_le : ahead last newest ≤ size
  entered : ∀ s, ahead s newest < ahead last newest → r.entered s
  received : ∀ s, ahead last newest ≤ ahead s newest → ahead s newest < size →
    r.entered s → r.received s

/-- The log says of every number of its window whether it was received. -/
structure Tracks (log : ReceiveLog) (r : Receipts) : Prop where
  wellFormed : log.WellFormed
  started : log.started = true
  endSeq_eq : log.endSeq = r.newest
  received_newest : r.received r.newest = true
  received_eq : ∀ s, ahead s log.endSeq < log.size.toNat → log.getReceived s = r.received s
  consecutive : Consecutive log.lastConsecutive log.endSeq log.size.toNat r

structure Fresh (log : ReceiveLog) : Prop where
  wellFormed : log.WellFormed
  started : log.started = false
  getReceived : ∀ s, log.getReceived s = false

theorem fresh_new (h : new size = some log) : log.Fresh := by
  rw [new] at h
  split at h
  case isTrue hvalid =>
    cases h
    rw [List.any_eq_true] at hvalid
    obtain ⟨i, hi, hsize⟩ := hvalid
    have hi := List.mem_range'_1.mp hi
    have hpow : size.toNat = 2 ^ i := by
      rw [of_decide_eq_true hsize, BitVec.toNat_shiftLeft, Nat.shiftLeft_eq,
        show (1#16).toNat = 1 from rfl, Nat.one_mul]
      exact Nat.mod_eq_of_lt (Nat.pow_lt_pow_right (by decide) (by omega))
    have hdvd : 64 ∣ size.toNat := by
      rw [hpow]
      exact Nat.pow_dvd_pow 2 hi.1
    have hwf : WellFormed
        { packets := List.replicate (size / 64#16).toNat 0#64, size, sizeMask := size - 1#16,
          endSeq := 0#16, started := false, lastConsecutive := 0#16 } := by
      refine ⟨⟨i, hi.1, by omega, hpow⟩, ?_, rfl⟩
      rw [List.length_replicate, BitVec.toNat_udiv]
      exact Nat.div_mul_cancel hdvd
    refine ⟨hwf, rfl, fun s => ?_⟩
    rw [hwf.getReceived_eq, WordBits.testBit_replicate_zero]
  case isFalse => cases h

theorem size_of_new (h : new size = some log) : log.size = size := by
  rw [new] at h
  split at h
  · cases h
    rfl
  · cases h

theorem Fresh.tracks_first (h : log.Fresh) (seq : Seq) : Tracks (log.add seq) (Receipts.first seq) := by
  have hadd : log.add seq =
      { log.setReceived seq with endSeq := seq, started := true, lastConsecutive := seq } := by
    rw [add, h.started]
    rfl
  rw [hadd]
  constructor
  case wellFormed =>
    have hset := h.wellFormed.setReceived seq
    exact ⟨hset.size_eq, hset.capacity_eq, hset.sizeMask_eq⟩
  case started => rfl
  case endSeq_eq => rfl
  case received_newest => exact decide_eq_true rfl
  case received_eq =>
    intro s hwin
    have hset := h.wellFormed.getReceived_setReceived_of_near (.inl hwin)
    rw [h.getReceived, Bool.or_false] at hset
    exact hset
  case consecutive =>
    refine ⟨?_, fun s hs => ?_, fun s _ _ hentered => hentered⟩
    · rw [Serial.ahead_self]
      exact Nat.zero_le _
    · rw [Serial.ahead_self] at hs
      cases hs

/-! ## A packet ahead of the newest -/

theorem diff_lt_half_iff (a b : Seq) : (b - a ≠ 0#16 ∧ b - a < uint16SizeHalf) ↔ Serial.Lt a b := by
  have hzero : b - a = 0#16 ↔ ahead a b = 0 := by
    rw [ahead, ← BitVec.toNat_inj]
    rfl
  rw [Ne, hzero, BitVec.lt_def, show uint16SizeHalf.toNat = 2 ^ 15 from rfl, Serial.Lt, ahead]
  omega

theorem add_of_lt (hstarted : log.started = true) (h : Serial.Lt log.endSeq seq) :
    log.add seq = (log.advance seq (seq - log.endSeq)).setReceived seq := by
  obtain ⟨hne, hlt⟩ := (diff_lt_half_iff _ _).mpr h
  rw [add, if_neg (by simp [hstarted])]
  rw [if_neg hne, if_pos hlt]

/-- Where `advance` puts `last_consecutive`. -/
def advancedTo (log : ReceiveLog) (seq diff : Seq) : Seq :=
  if log.lastConsecutive + 1#16 = seq then seq
  else if log.size < seq - log.lastConsecutive then
    ({ log.slide seq diff with lastConsecutive := seq - log.size }).fixLastConsecutive.lastConsecutive
  else log.lastConsecutive

theorem advance_eq (log : ReceiveLog) (seq diff : Seq) :
    log.advance seq diff =
      { log.slide seq diff with lastConsecutive := log.advancedTo seq diff } := by
  unfold advance advancedTo slide
  dsimp only
  split
  · rfl
  · split <;> rfl

section

variable (h : Tracks log r)
include h

section

variable (hlt : Serial.Lt r.newest seq)
include hlt

theorem Tracks.entered_add (hs : ahead s seq < ahead log.lastConsecutive log.endSeq + ahead log.endSeq seq) :
    (r.add seq).entered s := by
  rw [Receipts.add_of_lt hlt, Bool.or_eq_true, decide_eq_true_eq]
  rw [h.endSeq_eq] at hs
  by_cases hup : ahead s seq < ahead r.newest seq
  · exact .inr hup
  · have hback := Serial.ahead_sub_right seq (Nat.le_of_not_lt hup)
    refine .inl (h.consecutive.entered s ?_)
    rw [h.endSeq_eq]
    omega

theorem Tracks.received_add (hs : ahead log.lastConsecutive log.endSeq + ahead log.endSeq seq ≤ ahead s seq)
    (hwin : ahead s seq < log.size.toNat) (hentered : (r.add seq).entered s) : (r.add seq).received s := by
  rw [Receipts.add_of_lt hlt] at hentered ⊢
  rw [h.endSeq_eq] at hs
  have hnot : ¬ ahead s seq < ahead r.newest seq := by omega
  have hback := Serial.ahead_sub_right seq (Nat.le_of_not_lt hnot)
  simp only [decide_eq_false hnot, Bool.or_false] at hentered
  have hreceived : r.received s := by
    apply h.consecutive.received s _ _ hentered
    · rw [h.endSeq_eq]
      omega
    · rw [h.endSeq_eq]
      omega
  simp [hreceived, hnot]

theorem Tracks.received_slide (hwin : ahead s seq < log.size.toNat) (hne : s ≠ seq) :
    (log.slide seq (seq - log.endSeq)).getReceived s = (r.add seq).received s := by
  have hpos : 0 < ahead log.endSeq seq := by
    rw [h.endSeq_eq]
    exact hlt.1
  rw [h.wellFormed.getReceived_slide hpos hwin hne, Receipts.add_of_lt hlt, h.endSeq_eq]
  dsimp only
  rw [decide_eq_false hne, Bool.false_or]
  by_cases hup : ahead s seq < ahead r.newest seq
  · rw [decide_eq_true hup, Bool.not_true, Bool.and_false, Bool.and_false]
  · have hback := Serial.ahead_sub_right seq (Nat.le_of_not_lt hup)
    rw [h.received_eq s (by rw [h.endSeq_eq]; omega)]

theorem Tracks.consecutive_of_passed (hle : ahead last seq ≤ log.size.toNat)
    (hfar : log.size.toNat < ahead log.lastConsecutive log.endSeq + ahead log.endSeq seq)
    (hpassed : ∀ s, ahead last seq ≤ ahead s seq → ahead s seq < log.size.toNat →
    (log.slide seq (seq - log.endSeq)).getReceived s) : Consecutive last seq log.size.toNat (r.add seq) := by
  refine ⟨hle, fun s hs => h.entered_add hlt (by omega), fun s hfrom hwin _ => ?_⟩
  by_cases hs : s = seq
  · rw [Receipts.add_of_lt hlt]
    simp [hs]
  · rw [← h.received_slide hlt hwin hs]
    exact hpassed s hfrom hwin

theorem Tracks.consecutive_advance :
    Consecutive (log.advancedTo seq (seq - log.endSeq)) seq log.size.toNat (r.add seq) := by
  have hsize := h.wellFormed.size_le
  have hspan := h.consecutive.span_le
  have hlt' : Serial.Lt log.endSeq seq := by
    rw [h.endSeq_eq]
    exact hlt
  obtain ⟨hpos, hhalf⟩ := hlt'
  have htotal : ahead log.lastConsecutive seq =
      ahead log.lastConsecutive log.endSeq + ahead log.endSeq seq := by
    have hadd := @Serial.ahead_add_right 16 log.lastConsecutive log.endSeq (ahead log.endSeq seq)
      (by omega)
    rw [Serial.add_ahead] at hadd
    exact hadd
  unfold advancedTo
  split
  case isTrue hnext =>
    -- the next number in order: nothing was missing before it
    have hone : ahead log.lastConsecutive seq = 1 := by
      rw [← hnext]
      exact Serial.ahead_add log.lastConsecutive (n := 1) (by decide)
    refine ⟨?_, fun s hs => ?_, fun s _ hwin hentered => ?_⟩
    · rw [Serial.ahead_self]
      exact Nat.zero_le _
    · rw [Serial.ahead_self] at hs
      cases hs
    · by_cases hs : s = seq
      · rw [Receipts.add_of_lt hlt]
        simp [hs]
      · have hback : ahead s seq ≠ 0 := fun hzero => hs (Serial.ahead_eq_zero.mp hzero)
        exact h.received_add hlt (by omega) hwin hentered
  case isFalse =>
    split
    case isTrue hfar =>
      -- the window leaves `last_consecutive` behind: search on from its edge
      have hfar : log.size.toNat < ahead log.lastConsecutive seq := hfar
      have hedge : ahead (seq - log.size) seq = log.size.toNat := by
        rw [ahead]
        congr 1
        bv_omega
      have hfix := ((h.wellFormed.slide seq (seq - log.endSeq)).withLast
        (seq - log.size)).fixLastConsecutive_spec (Nat.le_of_eq hedge)
      refine h.consecutive_of_passed hlt (hfix.1.trans_eq hedge) (by omega) fun s hfrom hwin => ?_
      exact hfix.2 s hfrom (hwin.trans_eq hedge.symm)
    case isFalse hnear =>
      have hnear : ¬ log.size.toNat < ahead log.lastConsecutive seq := hnear
      rw [htotal] at hnear
      refine ⟨?_, fun s hs => ?_, fun s hfrom hwin hentered => ?_⟩
      · omega
      · exact h.entered_add hlt (by omega)
      · exact h.received_add hlt (by omega) hwin hentered

end

theorem Tracks.add_ahead (hlt : Serial.Lt log.endSeq seq) : Tracks (log.add seq) (r.add seq) := by
  have hlt' : Serial.Lt r.newest seq := by
    rw [← h.endSeq_eq]
    exact hlt
  have hwf := (h.wellFormed.slide seq (seq - log.endSeq)).withLast
    (log.advancedTo seq (seq - log.endSeq))
  rw [add_of_lt h.started hlt, advance_eq]
  constructor
  case wellFormed => exact hwf.setReceived seq
  case started => exact h.started
  case endSeq_eq => rw [Receipts.add_of_lt hlt']; rfl
  case received_newest => rw [Receipts.add_of_lt hlt']; simp
  case received_eq =>
    intro s hwin
    have hwin : ahead s seq < log.size.toNat := hwin
    rw [hwf.getReceived_setReceived_of_near (.inl hwin)]
    by_cases hs : s = seq
    · rw [Receipts.add_of_lt hlt']
      simp [hs]
    · rw [decide_eq_false hs, Bool.false_or]
      exact h.received_slide hlt' hwin hs
  case consecutive => exact h.consecutive_advance hlt'

end

/-! ## A packet of the window -/

theorem add_of_not_lt (hstarted : log.started = true) (hne : seq ≠ log.endSeq)
    (h : ¬ Serial.Lt log.endSeq seq) : log.add seq = (log.fillIn seq).setReceived seq := by
  have hdiff : seq - log.endSeq ≠ 0#16 := by
    intro hzero
    exact hne (Serial.ahead_eq_zero.mp (congrArg BitVec.toNat hzero)).symm
  have hhalf : ¬ seq - log.endSeq < uint16SizeHalf := fun hlt =>
    h ((diff_lt_half_iff _ _).mp ⟨hdiff, hlt⟩)
  rw [add, if_neg (by simp [hstarted])]
  rw [if_neg hdiff, if_neg hhalf]

/-- Where `fillIn` puts `last_consecutive`. -/
def filledTo (log : ReceiveLog) (seq : Seq) : Seq :=
  if log.lastConsecutive + 1#16 = seq then
    ({ log with lastConsecutive := seq }).fixLastConsecutive.lastConsecutive
  else log.lastConsecutive

theorem fillIn_eq (log : ReceiveLog) (seq : Seq) :
    log.fillIn seq = { log with lastConsecutive := log.filledTo seq } := by
  unfold fillIn filledTo
  split <;> rfl

/-- A further number received changes nothing about a point that was consecutive before. -/
theorem Consecutive.mono {newest : Seq} {size : Nat} {r r' : Receipts}
    (h : Consecutive last newest size r) (hentered : r'.entered = r.entered)
    (hreceived : ∀ s, r.received s → r'.received s) : Consecutive last newest size r' where
  span_le := h.span_le
  entered := by
    rw [hentered]
    exact h.entered
  received s hfrom hwin hs := by
    rw [hentered] at hs
    exact hreceived s (h.received s hfrom hwin hs)

theorem Tracks.consecutive_of_filled (h : Tracks log r)
    (hnext : log.lastConsecutive + 1#16 = seq) (hwin : ahead seq log.endSeq < log.size.toNat)
    (hle : ahead last log.endSeq ≤ ahead seq log.endSeq)
    (hpassed : ∀ s, ahead last log.endSeq ≤ ahead s log.endSeq →
    ahead s log.endSeq < ahead seq log.endSeq → log.getReceived s) :
    Consecutive last log.endSeq log.size.toNat
      { r with received := fun s => s = seq || r.received s } := by
  have hsize := h.wellFormed.size_le
  have hspan : ahead log.lastConsecutive log.endSeq = ahead seq log.endSeq + 1 := by
    have hne : log.lastConsecutive ≠ log.endSeq := by
      intro heq
      rw [heq] at hnext
      have hone : ahead log.endSeq seq = 1 := by
        rw [← hnext]
        exact Serial.ahead_add log.endSeq (n := 1) (by decide)
      have hback := @Serial.ahead_of_lt 16 seq log.endSeq log.endSeq
        (by rw [Serial.ahead_self, hone]; decide)
      rw [Serial.ahead_self, hone] at hback
      omega
    have hpos : ahead log.lastConsecutive log.endSeq ≠ 0 := fun h0 =>
      hne (Serial.ahead_eq_zero.mp h0)
    have hsucc := Serial.ahead_succ hne
    rw [hnext] at hsucc
    omega
  refine ⟨by omega, fun s hs => h.consecutive.entered s (by omega), fun s hfrom hs hentered => ?_⟩
  rw [Bool.or_eq_true, decide_eq_true_eq]
  rcases Nat.lt_trichotomy (ahead s log.endSeq) (ahead seq log.endSeq) with hlt | heq | hgt
  · right
    rw [← h.received_eq s hs]
    exact hpassed s hfrom hlt
  · left
    have hzero := Serial.ahead_sub_right log.endSeq (Nat.le_of_eq heq.symm)
    rw [heq, Nat.sub_self] at hzero
    exact Serial.ahead_eq_zero.mp hzero
  · right
    exact h.consecutive.received s (by omega) hs hentered

theorem Tracks.consecutive_fillIn (h : Tracks log r) (hwin : ahead seq log.endSeq < log.size.toNat) :
    Consecutive (log.filledTo seq) log.endSeq log.size.toNat
      { r with received := fun s => s = seq || r.received s } := by
  unfold filledTo
  split
  case isTrue hnext =>
    have hfix := (h.wellFormed.withLast seq).fixLastConsecutive_spec (Nat.le_of_lt hwin)
    exact h.consecutive_of_filled hnext hwin hfix.1 hfix.2
  case isFalse =>
    exact h.consecutive.mono rfl fun s hs => by simp [hs]

theorem Tracks.add_behind (h : Tracks log r) (hlt : ¬ Serial.Lt log.endSeq seq)
    (hwin : ahead seq log.endSeq < log.size.toNat) : Tracks (log.add seq) (r.add seq) := by
  have hlt' : ¬ Serial.Lt r.newest seq := by
    rw [← h.endSeq_eq]
    exact hlt
  have hsize := h.wellFormed.size_le
  rw [Receipts.add_of_not_lt hlt']
  by_cases hne : seq = log.endSeq
  · -- the newest number again: nothing changes, and it was received before
    have hsame : log.add seq = log := by
      rw [add, if_neg (by simp [h.started])]
      rw [if_pos (by rw [hne, BitVec.sub_self])]
    have hnewest := h.received_newest
    rw [← h.endSeq_eq, ← hne] at hnewest
    rw [hsame]
    refine ⟨h.wellFormed, h.started, h.endSeq_eq, by simp [h.received_newest], fun s hs => ?_,
      h.consecutive.mono rfl fun s hs => by simp [hs]⟩
    rw [h.received_eq s hs]
    by_cases heq : s = seq
    · simp [heq, hnewest]
    · simp [heq]
  · have hwf := h.wellFormed.withLast (log.filledTo seq)
    rw [add_of_not_lt h.started hne hlt, fillIn_eq]
    constructor
    case wellFormed => exact hwf.setReceived seq
    case started => exact h.started
    case endSeq_eq => exact h.endSeq_eq
    case received_newest => simp [h.received_newest]
    case received_eq =>
      intro s hs
      have hs : ahead s log.endSeq < log.size.toNat := hs
      have hnear : ahead s seq < log.size.toNat ∨ ahead seq s < log.size.toNat := by
        rcases Nat.le_total (ahead s log.endSeq) (ahead seq log.endSeq) with hle | hle
        · right
          have := Serial.ahead_sub_right log.endSeq hle
          omega
        · left
          have := Serial.ahead_sub_right log.endSeq hle
          omega
      rw [hwf.getReceived_setReceived_of_near hnear]
      exact congrArg (_ || ·) (h.received_eq s hs)
    case consecutive => exact h.consecutive_fillIn hwin

/-! ## Runs -/

theorem WellFormed.add (h : log.WellFormed) (seq : Seq) : (log.add seq).WellFormed := by
  rw [ReceiveLog.add]
  split
  · have hset := h.setReceived seq
    exact ⟨hset.size_eq, hset.capacity_eq, hset.sizeMask_eq⟩
  · dsimp only
    rw [advance_eq, fillIn_eq]
    split
    · exact h
    · split
      · exact ((h.slide _ _).withLast _).setReceived seq
      · exact (h.withLast _).setReceived seq

theorem size_add (log : ReceiveLog) (seq : Seq) : (log.add seq).size = log.size := by
  rw [add]
  split
  · rfl
  · dsimp only
    rw [advance_eq, fillIn_eq]
    split
    · rfl
    · split <;> rfl

/-- The packet is ahead of the newest one, or fewer than `size` numbers behind it. -/
def Near (log : ReceiveLog) (seq : Seq) : Prop :=
  log.started → Serial.Lt log.endSeq seq ∨ ahead seq log.endSeq < log.size.toNat

instance (log : ReceiveLog) (seq : Seq) : Decidable (log.Near seq) :=
  inferInstanceAs (Decidable (_ → _))

theorem Tracks.add (h : Tracks log r) (hnear : log.Near seq) : Tracks (log.add seq) (r.add seq) := by
  by_cases hlt : Serial.Lt log.endSeq seq
  · exact h.add_ahead hlt
  · exact h.add_behind hlt ((hnear h.started).resolve_left hlt)

theorem Tracks.run (h : Tracks log r) {seqs : List Seq} (hnear : Runs.Meets ReceiveLog.add Near log seqs) :
    Tracks (Runs.run ReceiveLog.add log seqs) (Runs.run Receipts.add r seqs) := by
  induction seqs generalizing log r with
  | nil => exact h
  | cons seq seqs ih => exact ih (h.add hnear.1) hnear.2

/-! ## The report -/

/-- The report for `skipLastN` lists, in ascending serial order, exactly the numbers of the window after
    `last_consecutive` and up to `end - skipLastN` that were not received since they came up; no earlier number of the
    window is missing. -/
def ReportsMissing (log : ReceiveLog) (r : Receipts) (skipLastN : BitVec 16) : Prop :=
  (log.missingSeqNumbers skipLastN).Pairwise Serial.Lt ∧
  (∀ s, s ∈ log.missingSeqNumbers skipLastN ↔
    Serial.Lt log.lastConsecutive s ∧
      (s = log.endSeq - skipLastN ∨ Serial.Lt s (log.endSeq - skipLastN)) ∧
      ahead s log.endSeq < log.size.toNat ∧ r.received s = false) ∧
  ∀ s, ahead s log.endSeq < log.size.toNat →
    (s = log.lastConsecutive ∨ Serial.Lt s log.lastConsecutive) → r.entered s → r.received s

theorem ahead_sub_self (a n : Seq) : ahead (a - n) a = n.toNat := by
  rw [ahead]
  congr 1
  bv_omega

theorem span_of_le (hle : skipLastN.toNat ≤ ahead log.lastConsecutive log.endSeq) :
    ahead log.lastConsecutive (log.endSeq - skipLastN) =
      ahead log.lastConsecutive log.endSeq - skipLastN.toNat := by
  have hback := ahead_sub_self log.endSeq skipLastN
  rw [Serial.ahead_sub_right log.endSeq (by omega), hback]

theorem span_of_gt (hgt : ahead log.lastConsecutive log.endSeq < skipLastN.toNat) :
    ahead log.lastConsecutive (log.endSeq - skipLastN) =
      2 ^ 16 - (skipLastN.toNat - ahead log.lastConsecutive log.endSeq) := by
  have hback := ahead_sub_self log.endSeq skipLastN
  have hto : ahead (log.endSeq - skipLastN) log.lastConsecutive =
      skipLastN.toNat - ahead log.lastConsecutive log.endSeq := by
    rw [Serial.ahead_sub_right log.endSeq (by omega), hback]
  rw [Serial.ahead_of_lt (log.endSeq - skipLastN) (by rw [Serial.ahead_self]; omega),
    Serial.ahead_self, hto, Nat.sub_zero]

/-- A number of the window that comes serially after `last_consecutive` is not past `end`. -/
theorem Tracks.ahead_le_of_lt (h : Tracks log r)
    (hs : Serial.Lt log.lastConsecutive s) (hwin : ahead s log.endSeq < log.size.toNat) :
    ahead log.lastConsecutive s ≤ ahead log.lastConsecutive log.endSeq := by
  have hsize := h.wellFormed.size_le
  obtain ⟨-, hhalf⟩ := hs
  by_contra hgt
  rw [Serial.ahead_of_lt log.lastConsecutive (Nat.lt_of_not_le hgt)] at hwin
  omega

theorem Tracks.mem_range_iff (h : Tracks log r)
    (hskip : skipLastN.toNat ≤ 2 ^ 15) (hfull : log.size.toNat = 2 ^ 15 → 0 < skipLastN.toNat) (s : Seq) :
    (Serial.Lt log.lastConsecutive s ∧
      (s = log.endSeq - skipLastN ∨ Serial.Lt s (log.endSeq - skipLastN)) ∧
      ahead s log.endSeq < log.size.toNat) ↔
    0 < ahead log.lastConsecutive s ∧ ahead log.lastConsecutive s + skipLastN.toNat ≤
      ahead log.lastConsecutive log.endSeq := by
  have hsize := h.wellFormed.size_le
  have hspan := h.consecutive.span_le
  constructor
  · rintro ⟨hs, hlast, hwin⟩
    have hle := h.ahead_le_of_lt hs hwin
    obtain ⟨hpos, hhalf⟩ := hs
    refine ⟨hpos, ?_⟩
    rcases le_or_gt skipLastN.toNat (ahead log.lastConsecutive log.endSeq) with hskip' | hskip'
    · have hreach := span_of_le hskip'
      rcases hlast with rfl | ⟨-, hbefore⟩
      · omega
      · by_contra hgt
        rw [Serial.ahead_of_lt log.lastConsecutive (by omega)] at hbefore
        omega
    · -- the report ends before `last_consecutive`: nothing of the window is serially before it
      have hreach := span_of_gt hskip'
      rcases hlast with rfl | ⟨-, hbefore⟩
      · omega
      · rw [Serial.ahead_eq_sub log.lastConsecutive (by omega)] at hbefore
        omega
  · rintro ⟨hpos, hle⟩
    have hreach : ahead log.lastConsecutive (log.endSeq - skipLastN) =
        ahead log.lastConsecutive log.endSeq - skipLastN.toNat := span_of_le (by omega)
    have hafter := @Serial.ahead_eq_sub 16 s (log.endSeq - skipLastN) log.lastConsecutive (by omega)
    have hend := @Serial.ahead_eq_sub 16 s log.endSeq log.lastConsecutive (by omega)
    refine ⟨⟨hpos, by omega⟩, ?_, by omega⟩
    by_cases heq : s = log.endSeq - skipLastN
    · exact .inl heq
    · have hne : ahead s (log.endSeq - skipLastN) ≠ 0 := fun h0 =>
        heq (Serial.ahead_eq_zero.mp h0)
      exact .inr ⟨by omega, by omega⟩

theorem WellFormed.missingSeqNumbers_eq_filter (h : log.WellFormed) (skipLastN : BitVec 16) :
    log.missingSeqNumbers skipLastN =
      if 2 ^ 15 ≤ ahead log.lastConsecutive (log.endSeq - skipLastN) then []
      else (Serial.interval (log.lastConsecutive + 1#16)
        (ahead log.lastConsecutive (log.endSeq - skipLastN))).filter
          fun s => !log.getReceived s := by
  have hhalf : uint16SizeHalf ≤ log.endSeq - skipLastN - log.lastConsecutive ↔
      2 ^ 15 ≤ ahead log.lastConsecutive (log.endSeq - skipLastN) := Iff.rfl
  obtain ⟨k, hcap⟩ := h.capacity_pow
  rw [missingSeqNumbers]
  dsimp only
  rw [if_congr hhalf rfl rfl]
  split
  · rfl
  · rw [Bitmap.forEachZero_eq_filter hcap, Serial.interval, List.filter_map]
    congr 1
    apply List.filter_congr
    intro i _
    rw [Function.comp_apply, h.getReceived_eq, h.slot_add, h.capacity_eq]

/-- Nothing is reported if the report ends before `last_consecutive`, else the clear numbers from there
    on. -/
theorem WellFormed.missingSeqNumbers_eq (h : log.WellFormed) (hskip : skipLastN.toNat ≤ 2 ^ 15)
    (hspan : ahead log.lastConsecutive log.endSeq < 2 ^ 15 + skipLastN.toNat) :
    log.missingSeqNumbers skipLastN =
      (Serial.interval (log.lastConsecutive + 1#16)
        (ahead log.lastConsecutive log.endSeq - skipLastN.toNat)).filter
          fun s => !log.getReceived s := by
  rw [h.missingSeqNumbers_eq_filter]
  rcases le_or_gt skipLastN.toNat (ahead log.lastConsecutive log.endSeq) with hle | hgt
  · rw [span_of_le hle, if_neg (by omega)]
  · rw [span_of_gt hgt, if_pos (by omega), Nat.sub_eq_zero_of_le (Nat.le_of_lt hgt)]
    rfl

theorem WellFormed.pairwise_missingSeqNumbers (h : log.WellFormed) (skipLastN : BitVec 16) :
    (log.missingSeqNumbers skipLastN).Pairwise Serial.Lt := by
  rw [h.missingSeqNumbers_eq_filter]
  split
  · exact List.Pairwise.nil
  · apply List.Pairwise.filter
    apply Serial.pairwise_lt_interval
    omega

theorem mem_interval_succ (a s : Seq) {n : Nat} (hn : n < 2 ^ 16) :
    s ∈ Serial.interval (a + 1#16) n ↔ 0 < ahead a s ∧ ahead a s ≤ n := by
  rw [Serial.mem_interval (Nat.le_of_lt hn)]
  by_cases hself : a = s
  · have hone : ahead a (a + 1#16) = 1 := Serial.ahead_add a (n := 1) (by decide)
    have hwrap := @Serial.ahead_of_lt 16 (a + 1#16) a a (by rw [Serial.ahead_self, hone]; decide)
    rw [Serial.ahead_self, hone] at hwrap
    rw [← hself, hwrap, Serial.ahead_self]
    omega
  · have hpos : ahead a s ≠ 0 := fun h0 => hself (Serial.ahead_eq_zero.mp h0)
    rw [Serial.ahead_succ hself]
    omega

theorem WellFormed.isMissing_iff (h : log.WellFormed) (s : Seq) (skipLastN : BitVec 16) :
    log.isMissing s skipLastN = true ↔ s ∈ log.missingSeqNumbers skipLastN := by
  have hhalf : uint16SizeHalf ≤ log.endSeq - skipLastN - log.lastConsecutive ↔
      2 ^ 15 ≤ ahead log.lastConsecutive (log.endSeq - skipLastN) := Iff.rfl
  have hzero : (s - log.lastConsecutive != 0#16) = true ↔ 0 < ahead log.lastConsecutive s := by
    rw [bne_iff_ne, Ne, ← BitVec.toNat_inj]
    exact Nat.pos_iff_ne_zero.symm
  rw [h.missingSeqNumbers_eq_filter, isMissing]
  rw [if_congr hhalf rfl rfl]
  split
  case isTrue =>
    simp
  case isFalse =>
    rw [List.mem_filter, mem_interval_succ _ _ (Serial.ahead_lt _ _), Bool.and_eq_true,
      Bool.and_eq_true, hzero, decide_eq_true_eq]
    rfl

theorem Tracks.reportsMissing (h : Tracks log r)
    (hskip : skipLastN.toNat ≤ 2 ^ 15) (hfull : log.size.toNat = 2 ^ 15 → 0 < skipLastN.toNat) :
    log.ReportsMissing r skipLastN := by
  have hsize := h.wellFormed.size_le
  have hspan := h.consecutive.span_le
  have heq := h.wellFormed.missingSeqNumbers_eq hskip (by omega)
  refine ⟨h.wellFormed.pairwise_missingSeqNumbers _, fun s => ?_, fun s hwin hs hentered => ?_⟩
  · have hmem : s ∈ Serial.interval (log.lastConsecutive + 1#16)
        (ahead log.lastConsecutive log.endSeq - skipLastN.toNat) ↔
        0 < ahead log.lastConsecutive s ∧ ahead log.lastConsecutive s + skipLastN.toNat ≤
          ahead log.lastConsecutive log.endSeq := by
      rw [mem_interval_succ _ _ (by omega)]
      omega
    rw [heq, List.mem_filter, hmem, ← h.mem_range_iff hskip hfull, Bool.not_eq_true', and_assoc,
      and_assoc]
    refine and_congr_right fun _ => and_congr_right fun _ => and_congr_right fun hwin => ?_
    rw [h.received_eq s hwin]
  · apply h.consecutive.received s _ hwin hentered
    by_contra hlt
    have hto : ahead log.lastConsecutive s = ahead log.lastConsecutive log.endSeq -
        ahead s log.endSeq := Serial.ahead_sub_right log.endSeq (by omega)
    rcases hs with rfl | ⟨-, hbefore⟩
    · exact hlt (Nat.le_refl _)
    · rw [Serial.ahead_of_lt log.lastConsecutive (by rw [Serial.ahead_self]; omega),
        Serial.ahead_self] at hbefore
      omega

theorem missingSeqNumbers_of_fresh (h : new size = some log)
    (hskip : skipLastN.toNat ≤ 2 ^ 15) : log.missingSeqNumbers skipLastN = [] := by
  have hwf := (fresh_new h).wellFormed
  have hspan : ahead log.lastConsecutive log.endSeq = 0 := by
    rw [new] at h
    split at h
    · cases h
      exact Serial.ahead_self _
    · cases h
  rw [hwf.missingSeqNumbers_eq hskip (by omega), hspan, Nat.zero_sub]
  rfl

/-- What the log reports after the packets of `history`. -/
def ReportsExactly (log : ReceiveLog) (history : List Seq) (skipLastN : BitVec 16) : Prop :=
  match Receipts.of history with
  | none => log.missingSeqNumbers skipLastN = []
  | some r => log.ReportsMissing r skipLastN

/-- For every valid size, after any packets each ahead of the newest or fewer than `size` behind it, the
    log reports exactly the missing packets. -/
theorem reportsExactly_run {size skipLastN : BitVec 16} {log : ReceiveLog} {history : List Seq}
    (hnew : new size = some log) (hnear : Runs.Meets add Near log history)
    (hskip : skipLastN.toNat ≤ 2 ^ 15) (hfull : size.toNat = 2 ^ 15 → 0 < skipLastN.toNat) :
    (Runs.run add log history).ReportsExactly history skipLastN := by
  cases history with
  | nil => exact missingSeqNumbers_of_fresh hnew hskip
  | cons seq rest =>
    have htracks := ((fresh_new hnew).tracks_first seq).run hnear.2
    have hsize : (Runs.run add log (seq :: rest)).size = size := by
      apply Runs.inv_run_of_step (I := fun log => log.size = size) add
      · intro log seq hlog
        rw [size_add, hlog]
      · exact size_of_new hnew
    refine htracks.reportsMissing hskip ?_
    rw [Runs.run_cons] at hsize
    rw [hsize]
    exact hfull

/-- The log of 64 numbers before any packet. -/
def empty64 : ReceiveLog :=
  { packets := [0#64], size := 64#16, sizeMask := 63#16, endSeq := 0#16, started := false,
    lastConsecutive := 0#16 }

theorem new_64 : new 64#16 = some empty64 := by
  decide +kernel

/-- 100, 102, 104 and 103 came, 101 did not: it is the one reported. -/
theorem reportsExactly_reordered :
    (Runs.run add empty64 [100#16, 102#16, 104#16, 103#16]).missingSeqNumbers 1#16 = [101#16] ∧
      (Runs.run add empty64 [100#16, 102#16, 104#16, 103#16]).ReportsExactly
        [100#16, 102#16, 104#16, 103#16] 1#16 :=
  ⟨by decide +kernel,
    reportsExactly_run new_64 (by decide +kernel) (by decide) (by decide)⟩

/-- With 101 missing, a packet 64 numbers older takes its bit, and 101 is not reported. And with
    `skip_last_n` close to the whole sequence space a number past the newest is. -/
theorem reports_hidden_and_future :
    ¬ (Runs.run add empty64 [100#16, 102#16, 37#16]).ReportsExactly [100#16, 102#16, 37#16] 0#16 ∧
      ¬ (Runs.run add empty64 [100#16]).ReportsExactly [100#16] 65535#16 := by
  constructor
  · intro h
    have hnone : (Runs.run add empty64 [100#16, 102#16, 37#16]).missingSeqNumbers 0#16 = [] := by
      decide +kernel
    have hmem := (h.2.1 101#16).mpr (by decide +kernel)
    rw [hnone] at hmem
    cases hmem
  · intro h
    have hpast := (h.2.1 101#16).mp (by decide +kernel)
    exact absurd hpast.2.2.1 (by decide +kernel)

end ReceiveLog

end Rtc.Interceptor
