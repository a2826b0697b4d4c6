import Rtc.Interceptor.Proofs.ReceiveLog

/-!
# The receive log bit by bit

The word-at-a-time operations of `bitmap.rs` against walks over single bits, and `ReceiveLog` against `FlagLog`, the
same log with one boolean per number of the window.
-/

namespace Rtc.Interceptor

open Rtc.Serial (ahead)
open Rtc.WordBits (testBit getD_set)

namespace Bitmap

/-! ## The walks over single bits -/

/-- `bit` of the tests (`bitmap.rs:187-190`). -/
def bit (words : List (BitVec 64)) (seq : Nat) : Bool :=
  let pos := seq &&& (words.length * 64 - 1)
  words.getD (pos / 64) 0#64 &&& 1#64 <<< (pos % 64) != 0#64

/-- `zeros_per_bit` of the tests (`bitmap.rs:192-194`). -/
def zerosPerBit (words : List (BitVec 64)) (start len : Nat) : List Nat :=
  (List.range len).filter fun i => !bit words (start + i)

/-- The body of the loop of `clear_per_bit`. -/
def clearBit (words : List (BitVec 64)) (pos : Nat) : List (BitVec 64) :=
  words.set (pos / 64) (words.getD (pos / 64) 0#64 &&& ~~~(1#64 <<< (pos % 64)))

/-- `clear_per_bit` of the tests (`bitmap.rs:196-202`). -/
def clearPerBit (words : List (BitVec 64)) (start len : Nat) : List (BitVec 64) :=
  (List.range len).foldl (fun words i => clearBit words ((start + i) &&& (words.length * 64 - 1))) words

@[simp] theorem length_clearBit (words : List (BitVec 64)) (pos : Nat) :
    (clearBit words pos).length = words.length :=
  List.length_set

theorem testBit_clearBit {words : List (BitVec 64)} {pos : Nat} (hpos : pos / 64 < words.length) (j : Nat) :
    testBit (clearBit words pos) j = (testBit words j && !decide (j = pos)) := by
  have hj : j % 64 < 64 := Nat.mod_lt _ (by decide)
  unfold clearBit testBit
  rw [getD_set hpos]
  by_cases hword : j / 64 = pos / 64
  · have hbit : (1#64 <<< (pos % 64)).getLsbD (j % 64) = decide (j = pos) := by
      rw [← BitVec.twoPow_eq, BitVec.getLsbD_twoPow, decide_eq_true (Nat.mod_lt _ (by decide)), Bool.true_and]
      exact decide_eq_decide.mpr (by omega)
    rw [if_pos hword, hword, BitVec.getLsbD_and, BitVec.getLsbD_not, hbit, decide_eq_true hj, Bool.true_and]
  · have hne : j ≠ pos := fun heq => hword (by rw [heq])
    rw [if_neg hword]
    simp [hne]

theorem ext_testBit {words words' : List (BitVec 64)} (hlen : words.length = words'.length)
    (h : ∀ j < words.length * 64, testBit words j = testBit words' j) : words = words' := by
  apply List.ext_getElem hlen
  intro i hi hi'
  apply BitVec.eq_of_getLsbD_eq
  intro b hb
  have hbit := h (i * 64 + b) (by omega)
  unfold testBit at hbit
  rw [show (i * 64 + b) / 64 = i by omega, show (i * 64 + b) % 64 = b by omega] at hbit
  simpa [List.getD_eq_getElem?_getD, List.getElem?_eq_getElem hi, List.getElem?_eq_getElem hi'] using hbit

@[simp] theorem length_clearPerBit (words : List (BitVec 64)) (start len : Nat) :
    (clearPerBit words start len).length = words.length := by
  unfold clearPerBit
  induction len with
  | zero => rfl
  | succ len ih =>
    rw [List.range_succ, List.foldl_append, List.foldl_cons, List.foldl_nil, length_clearBit]
    exact ih

section PowerOfTwo

variable {words : List (BitVec 64)} {k : Nat} (hcap : words.length * 64 = 2 ^ k)

include hcap

theorem bit_eq (seq : Nat) : bit words seq = testBit words (seq % (words.length * 64)) := by
  rw [bit, and_capacity hcap]
  exact WordBits.and_shiftLeft_ne_zero _ (Nat.mod_lt _ (by decide))

theorem forEachZero_eq_zerosPerBit (start len : Nat) :
    forEachZero words start len = zerosPerBit words start len := by
  rw [forEachZero_eq_filter hcap, zerosPerBit]
  apply List.filter_congr
  intro i _
  rw [bit_eq hcap]

theorem firstZero_eq_head? (start len : Nat) :
    firstZero words start len = (zerosPerBit words start len).head? := by
  have hpos := capacity_pos hcap
  have hwalk : (fun i => !testBit words ((start + i) % (words.length * 64))) = fun i => !bit words (start + i) := by
    funext i
    rw [bit_eq hcap]
  rw [firstZero_eq_find? hcap, zerosPerBit, List.head?_filter, hwalk]
  rcases Nat.le_total len (words.length * 64) with hle | hle
  · rw [Nat.min_eq_left hle]
  · rw [Nat.min_eq_right hle]
    obtain ⟨n, rfl⟩ := Nat.exists_eq_add_of_le hle
    rw [List.range_add, List.find?_append]
    cases hfirst : (List.range (words.length * 64)).find? fun i => !bit words (start + i) with
    | some i => rfl
    | none =>
      rw [Option.none_or, eq_comm, List.find?_eq_none]
      intro i _ hclear
      -- the bit was read before, in the first round
      have hread := List.find?_eq_none.mp hfirst (i % (words.length * 64)) (List.mem_range.mpr (Nat.mod_lt _ hpos))
      rw [bit_eq hcap, Nat.add_mod_mod] at hread
      rw [bit_eq hcap] at hclear
      exact hread hclear

theorem testBit_clearPerBit (start len j : Nat) :
    testBit (clearPerBit words start len) j =
      (testBit words j && decide (∀ i < len, (start + i) % (words.length * 64) ≠ j)) := by
  induction len with
  | zero => simp [clearPerBit]
  | succ len ih =>
    have hlen := length_clearPerBit words start len
    have hlt := Nat.mod_lt (start + len) (capacity_pos hcap)
    have hlast : clearPerBit words start (len + 1) =
        clearBit (clearPerBit words start len) ((start + len) % (words.length * 64)) := by
      rw [clearPerBit, List.range_succ, List.foldl_append, List.foldl_cons, List.foldl_nil, ← clearPerBit, hlen,
        and_capacity hcap]
    rw [hlast, testBit_clearBit (by omega), ih, Bool.and_assoc, ← decide_not, ← Bool.decide_and]
    congr 1
    apply decide_eq_decide.mpr
    rw [Nat.forall_lt_succ_right, ne_comm]

theorem clear_eq_clearPerBit (start len : Nat) : clear words start len = clearPerBit words start len := by
  apply ext_testBit
  · rw [length_clear, length_clearPerBit]
  · intro j hj
    rw [length_clear] at hj
    rw [testBit_clear hcap start len hj, testBit_clearPerBit hcap]

end PowerOfTwo

end Bitmap

/-! ## The log of booleans -/

/-- A receive log with a boolean for each number of the window. -/
structure FlagLog where
  flags : Nat → Bool
  size : Nat
  endSeq : Seq
  started : Bool
  lastConsecutive : Seq

namespace FlagLog

def new (size : Nat) : FlagLog where
  flags _ := false
  size := size
  endSeq := 0#16
  started := false
  lastConsecutive := 0#16

def get (log : FlagLog) (seq : Seq) : Bool := log.flags (seq.toNat % log.size)

def set (log : FlagLog) (seq : Seq) (received : Bool) : FlagLog :=
  { log with flags := Function.update log.flags (seq.toNat % log.size) received }

/-- Clears `n` numbers from `seq` on, one at a time. -/
def clear (log : FlagLog) (seq : Seq) : Nat → FlagLog
  | 0 => log
  | n + 1 => (log.set seq false).clear (seq + 1#16) n

/-- The last of the received numbers that follow `last`, of `n` numbers at most. -/
def walk (log : FlagLog) (last : Seq) : Nat → Seq
  | 0 => last
  | n + 1 => if log.get (last + 1#16) then log.walk (last + 1#16) n else last

def fixLastConsecutive (log : FlagLog) : FlagLog :=
  { log with lastConsecutive := log.walk log.lastConsecutive (ahead log.lastConsecutive log.endSeq) }

/-- A number ahead of the newest: the numbers it skips are cleared, and `last_consecutive` stays in the
    window. -/
def advance (log : FlagLog) (seq : Seq) : FlagLog :=
  let log := { log.clear (log.endSeq + 1#16) (ahead log.endSeq seq - 1) with endSeq := seq }
  if log.lastConsecutive + 1#16 = seq then { log with lastConsecutive := seq }
  else if log.size < ahead log.lastConsecutive seq then
    fixLastConsecutive { log with lastConsecutive := seq - BitVec.ofNat 16 log.size }
  else log

def fillIn (log : FlagLog) (seq : Seq) : FlagLog :=
  if log.lastConsecutive + 1#16 = seq then fixLastConsecutive { log with lastConsecutive := seq } else log

def add (log : FlagLog) (seq : Seq) : FlagLog :=
  if !log.started then { log.set seq true with endSeq := seq, started := true, lastConsecutive := seq }
  else if seq = log.endSeq then log
  else if Serial.Lt log.endSeq seq then (log.advance seq).set seq true
  else (log.fillIn seq).set seq true

/-- The numbers after `last_consecutive` up to `end - skipLastN` whose boolean is not set. -/
def missingSeqNumbers (log : FlagLog) (skipLastN : BitVec 16) : List Seq :=
  let span := ahead log.lastConsecutive (log.endSeq - skipLastN)
  if 2 ^ 15 ≤ span then [] else (Serial.interval (log.lastConsecutive + 1#16) span).filter fun s => !log.get s

/-! ## One step -/

variable {log log' : FlagLog} {seq s : Seq}

variable (log)

theorem get_set (seq s : Seq) (received : Bool) :
    (log.set seq received).get s =
      if s.toNat % log.size = seq.toNat % log.size then received else log.get s := by
  exact Function.update_apply _ _ _ _

@[simp] theorem set_size (seq : Seq) (received : Bool) :
    (log.set seq received).size = log.size := rfl

@[simp] theorem clear_size (seq : Seq) (n : Nat) : (log.clear seq n).size = log.size := by
  induction n generalizing log seq with
  | zero => rfl
  | succ n ih => exact ih _ _

theorem clear_eq (seq : Seq) (n : Nat) : log.clear seq n = { log with flags := (log.clear seq n).flags } := by
  induction n generalizing log seq with
  | zero => rfl
  | succ n ih => exact ih _ _

theorem get_clear (seq s : Seq) (n : Nat) :
    (log.clear seq n).get s = (log.get s &&
      decide (∀ i < n, (seq + BitVec.ofNat 16 i).toNat % log.size ≠ s.toNat % log.size)) := by
  induction n generalizing log seq with
  | zero => simp [clear]
  | succ n ih =>
    have hshift : ∀ i, seq + 1#16 + BitVec.ofNat 16 i = seq + BitVec.ofNat 16 (i + 1) := by
      intro i
      rw [Nat.add_comm i 1, ← Serial.add_add]
    have hsplit : (∀ i < n + 1, (seq + BitVec.ofNat 16 i).toNat % log.size ≠ s.toNat % log.size) ↔
        s.toNat % log.size ≠ seq.toNat % log.size ∧
          ∀ i < n, (seq + 1#16 + BitVec.ofNat 16 i).toNat % log.size ≠ s.toNat % log.size := by
      rw [Nat.forall_lt_succ_left]
      simp only [hshift, BitVec.add_zero, ne_comm]
    rw [clear, ih, get_set, decide_eq_decide.mpr hsplit, Bool.decide_and, ← Bool.and_assoc]
    split <;> simp [*]

theorem walk_eq (last : Seq) (n : Nat) :
    log.walk last n = last + BitVec.ofNat 16
      (((List.range n).find? fun i => !log.get (last + 1#16 + BitVec.ofNat 16 i)).getD n) := by
  induction n generalizing last with
  | zero => simp [walk]
  | succ n ih =>
    have hshift : ∀ i, last + 1#16 + 1#16 + BitVec.ofNat 16 i = last + 1#16 + BitVec.ofNat 16 (i + 1) := by
      intro i
      rw [Nat.add_comm i 1, ← Serial.add_add]
    rw [walk, List.range_succ_eq_map, List.find?_cons]
    cases hnext : log.get (last + 1#16) with
    | false => simp [hnext]
    | true =>
      simp only [ih, hshift, List.find?_map, hnext, Function.comp_def, if_true,
        BitVec.add_zero, Bool.not_true]
      cases (List.range n).find? fun i => !log.get (last + 1#16 + BitVec.ofNat 16 (i + 1)) with
      | none => rw [Option.getD_none, Option.map_none, Option.getD_none, Nat.add_comm n 1, ← Serial.add_add]
      | some i => rw [Option.getD_some, Option.map_some, Option.getD_some, Nat.succ_eq_add_one,
          Nat.add_comm i 1, ← Serial.add_add]

end FlagLog

/-! ## The log of words is the log of booleans -/

/-- The log of words reads as the log of booleans. -/
structure ReceiveLog.Agrees (log : ReceiveLog) (flags : FlagLog) : Prop where
  wellFormed : log.WellFormed
  size_eq : flags.size = log.size.toNat
  endSeq_eq : flags.endSeq = log.endSeq
  started_eq : flags.started = log.started
  lastConsecutive_eq : flags.lastConsecutive = log.lastConsecutive
  get_eq : ∀ s, flags.get s = log.getReceived s

namespace ReceiveLog.Agrees

variable {log : ReceiveLog} {flags : FlagLog}

variable (h : log.Agrees flags)
include h

variable (seq : Seq)

theorem set : (log.setReceived seq).Agrees (flags.set seq true) where
  wellFormed := h.wellFormed.setReceived seq
  size_eq := h.size_eq
  endSeq_eq := h.endSeq_eq
  started_eq := h.started_eq
  lastConsecutive_eq := h.lastConsecutive_eq
  get_eq s := by
    rw [FlagLog.get_set, h.wellFormed.getReceived_setReceived, h.get_eq, h.size_eq]
    split <;> simp [*]

theorem withLast (last : Seq) :
    { log with lastConsecutive := last }.Agrees { flags with lastConsecutive := last } :=
  ⟨h.wellFormed.withLast last, h.size_eq, h.endSeq_eq, h.started_eq, rfl, h.get_eq⟩

theorem slide (hne : seq ≠ log.endSeq) :
    (log.slide seq (seq - log.endSeq)).Agrees
      { flags.clear (flags.endSeq + 1#16) (ahead flags.endSeq seq - 1) with endSeq := seq } := by
  have hlen : (seq - log.endSeq - 1#16).toNat = ahead log.endSeq seq - 1 := by
    have hpos : 0 < ahead log.endSeq seq := Nat.pos_of_ne_zero fun h0 => hne (Serial.ahead_eq_zero.mp h0).symm
    rw [BitVec.toNat_sub_of_le (by rw [BitVec.le_def]; exact hpos)]
    rfl
  have hwf := h.wellFormed.slide seq (seq - log.endSeq)
  obtain ⟨k, hcap⟩ := h.wellFormed.capacity_pow
  have hread : ∀ s, (log.slide seq (seq - log.endSeq)).getReceived s =
      (flags.clear (flags.endSeq + 1#16) (ahead flags.endSeq seq - 1)).get s := by
    intro s
    rw [hwf.getReceived_eq, FlagLog.get_clear, h.get_eq, h.wellFormed.getReceived_eq, h.endSeq_eq, h.size_eq]
    change testBit (Bitmap.clear log.packets _ (seq - log.endSeq - 1#16).toNat) (s.toNat % log.size.toNat) = _
    rw [hlen, Bitmap.testBit_clear hcap _ _ (by rw [h.wellFormed.capacity_eq]; exact Nat.mod_lt _ h.wellFormed.size_pos),
      h.wellFormed.capacity_eq]
    simp only [h.wellFormed.slot_add]
  have hkept := FlagLog.clear_eq flags (flags.endSeq + 1#16) (ahead flags.endSeq seq - 1)
  refine ⟨hwf, ?_, rfl, ?_, ?_, fun s => (hread s).symm⟩
  · exact (congrArg FlagLog.size hkept).trans h.size_eq
  · exact (congrArg FlagLog.started hkept).trans h.started_eq
  · exact (congrArg FlagLog.lastConsecutive hkept).trans h.lastConsecutive_eq

theorem fixLastConsecutive : log.fixLastConsecutive.Agrees flags.fixLastConsecutive := by
  obtain ⟨k, hcap⟩ := h.wellFormed.capacity_pow
  refine ⟨h.wellFormed.fixLastConsecutive, h.size_eq, h.endSeq_eq, h.started_eq, ?_, h.get_eq⟩
  have hbit : ∀ i, Bitmap.bit log.packets ((log.lastConsecutive + 1#16).toNat + i) =
      flags.get (flags.lastConsecutive + 1#16 + BitVec.ofNat 16 i) := by
    intro i
    rw [Bitmap.bit_eq hcap, h.get_eq, h.wellFormed.getReceived_eq, h.wellFormed.slot_add, h.wellFormed.capacity_eq,
      h.lastConsecutive_eq]
  have hsearch : Bitmap.firstZero log.packets (log.lastConsecutive + 1#16).toNat
      (ahead log.lastConsecutive log.endSeq) = (List.range (ahead flags.lastConsecutive flags.endSeq)).find?
        fun i => !flags.get (flags.lastConsecutive + 1#16 + BitVec.ofNat 16 i) := by
    rw [Bitmap.firstZero_eq_head? hcap, Bitmap.zerosPerBit, List.head?_filter, h.lastConsecutive_eq, h.endSeq_eq]
    simp only [hbit, h.lastConsecutive_eq]
  change flags.walk flags.lastConsecutive (ahead flags.lastConsecutive flags.endSeq) = _
  rw [FlagLog.walk_eq, ReceiveLog.lastConsecutive_fixLastConsecutive, ← ahead, hsearch]
  cases (List.range (ahead flags.lastConsecutive flags.endSeq)).find?
      fun i => !flags.get (flags.lastConsecutive + 1#16 + BitVec.ofNat 16 i) with
  | some i => rw [Option.getD_some, h.lastConsecutive_eq]
  | none => rw [Option.getD_none, Serial.add_ahead, h.endSeq_eq]

theorem settle :
    Agrees
      (if log.lastConsecutive + 1#16 = seq then { log with lastConsecutive := seq }
        else if log.size < seq - log.lastConsecutive then
          ReceiveLog.fixLastConsecutive { log with lastConsecutive := seq - log.size }
        else log)
      (if flags.lastConsecutive + 1#16 = seq then { flags with lastConsecutive := seq }
        else if flags.size < ahead flags.lastConsecutive seq then
          FlagLog.fixLastConsecutive { flags with lastConsecutive := seq - BitVec.ofNat 16 flags.size }
        else flags) := by
  have hsize : BitVec.ofNat 16 flags.size = log.size := by
    rw [h.size_eq, BitVec.ofNat_toNat, BitVec.setWidth_eq]
  have hfar_iff : flags.size < ahead log.lastConsecutive seq ↔ log.size < seq - log.lastConsecutive := by
    rw [h.size_eq]
    exact Iff.rfl
  rw [h.lastConsecutive_eq, hsize]
  by_cases hnext : log.lastConsecutive + 1#16 = seq
  · rw [if_pos hnext, if_pos hnext]
    exact h.withLast seq
  · rw [if_neg hnext, if_neg hnext]
    by_cases hfar : log.size < seq - log.lastConsecutive
    · rw [if_pos hfar, if_pos (hfar_iff.mpr hfar)]
      exact (h.withLast _).fixLastConsecutive
    · rw [if_neg hfar, if_neg (mt hfar_iff.mp hfar)]
      exact h

theorem advance (hne : seq ≠ log.endSeq) :
    (log.advance seq (seq - log.endSeq)).Agrees (flags.advance seq) :=
  (h.slide seq hne).settle seq

theorem fillIn : (log.fillIn seq).Agrees (flags.fillIn seq) := by
  rw [ReceiveLog.fillIn, FlagLog.fillIn, h.lastConsecutive_eq]
  split
  · exact (h.withLast seq).fixLastConsecutive
  · exact h

theorem add : (log.add seq).Agrees (flags.add seq) := by
  cases hstarted : log.started with
  | false =>
    rw [ReceiveLog.add, FlagLog.add, h.started_eq, hstarted]
    have hset := h.set seq
    exact ⟨⟨hset.wellFormed.size_eq, hset.wellFormed.capacity_eq, hset.wellFormed.sizeMask_eq⟩, hset.size_eq,
      rfl, rfl, rfl, hset.get_eq⟩
  | true =>
    rw [FlagLog.add, h.started_eq, hstarted, h.endSeq_eq]
    by_cases hsame : seq = log.endSeq
    · have hidle : log.add seq = log := by
        rw [ReceiveLog.add, if_neg (by simp [hstarted])]
        dsimp only
        rw [if_pos (by rw [hsame, BitVec.sub_self])]
      rw [hidle, if_pos hsame]
      exact h
    · rw [if_neg hsame]
      by_cases hlt : Serial.Lt log.endSeq seq
      · rw [add_of_lt hstarted hlt, if_pos hlt]
        exact (h.advance seq hsame).set seq
      · rw [add_of_not_lt hstarted hsame hlt, if_neg hlt]
        exact (h.fillIn seq).set seq

theorem run (seqs : List Seq) : (Runs.run ReceiveLog.add log seqs).Agrees (Runs.run FlagLog.add flags seqs) := by
  induction seqs generalizing log flags with
  | nil => exact h
  | cons seq seqs ih => exact ih (h.add seq)

theorem missingSeqNumbers_eq (skipLastN : BitVec 16) :
    log.missingSeqNumbers skipLastN = flags.missingSeqNumbers skipLastN := by
  rw [h.wellFormed.missingSeqNumbers_eq_filter, FlagLog.missingSeqNumbers, h.lastConsecutive_eq, h.endSeq_eq]
  simp only [h.get_eq]

end ReceiveLog.Agrees

theorem ReceiveLog.agrees_new {size : BitVec 16} {log : ReceiveLog} (hnew : new size = some log) :
    log.Agrees (.new size.toNat) := by
  have hfresh := fresh_new hnew
  refine ⟨hfresh.wellFormed, by rw [size_of_new hnew]; rfl, ?_, hfresh.started.symm, ?_, fun s => (hfresh.getReceived s).symm⟩
  all_goals
    rw [new] at hnew
    split at hnew
    · cases hnew
      rfl
    · cases hnew

end Rtc.Interceptor
