import Rtc.Lib.Bytes

/-!
# Reading a byte buffer

A parser returns an error, or it reads or slices out of range and the program panics. `Safe p` says that `p` does not
panic; its rules follow the parser step by step.
-/

namespace Rtc

/-- How a parser fails. -/
inductive Failure (ε : Type) where
  | err (e : ε)
  | panicked
  deriving DecidableEq

/-- What a parser returns. -/
abbrev Parse (ε α : Type) := Except (Failure ε) α

namespace Parse

variable {ε α β : Type} {p : Parse ε α} {f : α → β} {get : List Byte → Parse ε (α × List Byte)} {raw : List Byte}
  {start stop : Nat} {c : Prop}

/-- Return an error. -/
def fail (e : ε) : Parse ε α := .error (.err e)

/-- The bytes from `start` to `stop`, which have to lie in the buffer in this order. -/
def slice (raw : List Byte) (start stop : Nat) : Parse ε (List Byte) :=
  if start ≤ stop ∧ stop ≤ raw.length then .ok ((raw.drop start).take (stop - start))
  else .error .panicked

/-- The byte at an index that has to lie in the buffer. -/
def index (raw : List Byte) (i : Nat) : Parse ε Byte :=
  match raw[i]? with
  | some b => .ok b
  | none => .error .panicked

/-- The next byte, and the rest. -/
def getU8 : List Byte → Parse ε (Byte × List Byte)
  | a :: rest => .ok (a, rest)
  | _ => .error .panicked

/-- The next two bytes as a big-endian word, and the rest. -/
def getU16 : List Byte → Parse ε (BitVec 16 × List Byte)
  | a :: b :: rest => .ok (Bytes.be16 a b, rest)
  | _ => .error .panicked

/-- The next four bytes as a big-endian word, and the rest. -/
def getU32 : List Byte → Parse ε (BitVec 32 × List Byte)
  | a :: b :: c :: d :: rest => .ok (Bytes.be32 a b c d, rest)
  | _ => .error .panicked

/-- The next eight bytes as a big-endian word, and the rest. -/
def getU64 (reader : List Byte) : Parse ε (BitVec 64 × List Byte) := do
  let (high, reader) ← getU32 reader
  let (low, reader) ← getU32 reader
  .ok (high ++ low, reader)

/-- The next four bytes as a little-endian word, and the rest. -/
def getU32Le : List Byte → Parse ε (BitVec 32 × List Byte)
  | a :: b :: c :: d :: rest => .ok (Bytes.be32 d c b a, rest)
  | _ => .error .panicked

/-- The next `n` bytes, and the rest. -/
def copyToBytes (n : Nat) (reader : List Byte) : Parse ε (List Byte × List Byte) :=
  if n ≤ reader.length then .ok (reader.take n, reader.drop n) else .error .panicked

/-- The rest after the next `n` bytes. -/
def advance (n : Nat) (reader : List Byte) : Parse ε (List Byte) :=
  if n ≤ reader.length then .ok (reader.drop n) else .error .panicked

/-- `n` items in a row. -/
def getMany (get : List Byte → Parse ε (α × List Byte)) : Nat → List Byte → Parse ε (List α × List Byte)
  | 0, reader => .ok ([], reader)
  | n + 1, reader => do
    let (x, reader) ← get reader
    let (xs, reader) ← getMany get n reader
    .ok (x :: xs, reader)

@[simp] theorem ok_bind (a : α) (f : α → Parse ε β) : (Except.ok a >>= f) = f a := rfl

@[simp] theorem error_bind (e : Failure ε) (f : α → Parse ε β) :
    ((Except.error e : Parse ε α) >>= f) = .error e := rfl

@[simp] theorem fail_bind (e : ε) (f : α → Parse ε β) : ((fail e : Parse ε α) >>= f) = fail e := rfl

theorem exists_of_bind_eq_ok {f : α → Parse ε β} {b : β} (h : (p >>= f) = .ok b) :
    ∃ a, p = .ok a ∧ f a = .ok b := by
  cases p with
  | error e => cases h
  | ok a => exact ⟨a, rfl, h⟩

theorem exists_of_map_eq_ok {b : β} (h : f <$> p = .ok b) : ∃ a, p = .ok a ∧ f a = b := by
  cases p with
  | error e => cases h
  | ok a => exact ⟨a, rfl, Except.ok.inj h⟩

theorem length_getMany {n : Nat} {reader rest : List Byte}
    {xs : List α} (h : getMany get n reader = .ok (xs, rest)) : xs.length = n := by
  induction n generalizing reader xs rest with
  | zero =>
    cases h
    rfl
  | succ n ih =>
    obtain ⟨⟨x, reader'⟩, -, h⟩ := exists_of_bind_eq_ok h
    obtain ⟨⟨ys, rest'⟩, hys, h⟩ := exists_of_bind_eq_ok h
    cases h
    exact congrArg Nat.succ (ih hys)

/-! ## Reading back what was written -/

theorem be32_toBe32 (x : BitVec 32) : Bytes.be32 (x.extractLsb' 24 8) (x.extractLsb' 16 8)
    (x.extractLsb' 8 8) (x.extractLsb' 0 8) = x := by
  have hx := x.isLt
  apply BitVec.eq_of_toNat_eq
  rw [Bytes.toNat_be32]
  simp only [BitVec.extractLsb'_toNat, Nat.shiftRight_eq_div_pow]
  omega

@[simp] theorem getU8_cons (a : Byte) (rest : List Byte) :
    (getU8 (a :: rest) : Parse ε _) = .ok (a, rest) := rfl

@[simp] theorem getU16_toBe16 (x : BitVec 16) (rest : List Byte) :
    (getU16 (Bytes.toBe16 x ++ rest) : Parse ε _) = .ok (x, rest) := by
  simp only [Bytes.toBe16, List.cons_append, List.nil_append, getU16, Bytes.be16_toBe16]

@[simp] theorem getU32_toBe32 (x : BitVec 32) (rest : List Byte) :
    (getU32 (Bytes.toBe32 x ++ rest) : Parse ε _) = .ok (x, rest) := by
  simp only [Bytes.toBe32, List.cons_append, List.nil_append, getU32, be32_toBe32]

@[simp] theorem getU64_toBe64 (x : BitVec 64) (rest : List Byte) :
    (getU64 (Bytes.toBe64 x ++ rest) : Parse ε _) = .ok (x, rest) := by
  have happend : x.extractLsb' 32 32 ++ x.extractLsb' 0 32 = x := by
    have hx := x.isLt
    apply BitVec.eq_of_toNat_eq
    rw [BitVec.toNat_append, ← Nat.shiftLeft_add_eq_or_of_lt (BitVec.isLt _)]
    simp only [BitVec.extractLsb'_toNat, Nat.shiftRight_eq_div_pow, Nat.shiftLeft_eq]
    omega
  rw [getU64, Bytes.toBe64, List.append_assoc, getU32_toBe32, ok_bind]
  dsimp only
  rw [getU32_toBe32, ok_bind, happend]

theorem copyToBytes_append (part rest : List Byte) :
    (copyToBytes part.length (part ++ rest) : Parse ε _) = .ok (part, rest) := by
  rw [copyToBytes, if_pos (by simp), List.take_left, List.drop_left]

theorem advance_append (part rest : List Byte) : (advance part.length (part ++ rest) : Parse ε _) = .ok rest := by
  rw [advance, if_pos (by simp), List.drop_left]

theorem getMany_flatMap {put : α → List Byte}
    (hget : ∀ x rest, get (put x ++ rest) = .ok (x, rest)) (xs : List α) (rest : List Byte) :
    getMany get xs.length (xs.flatMap put ++ rest) = .ok (xs, rest) := by
  induction xs with
  | nil => rfl
  | cons x xs ih =>
    simp only [List.length_cons, List.flatMap_cons, List.append_assoc, getMany, hget, ok_bind, ih]

theorem slice_eq (h : start ≤ stop) (hstop : stop ≤ raw.length) :
    (slice raw start stop : Parse ε _) = .ok ((raw.drop start).take (stop - start)) :=
  if_pos ⟨h, hstop⟩

theorem slice_to_end {offset : Nat} (h : offset ≤ raw.length) :
    (slice raw offset raw.length : Parse ε _) = .ok (raw.drop offset) := by
  rw [slice_eq h le_rfl, List.take_of_length_le List.length_drop.le]

theorem slice_append (pre part post : List Byte) (hstart : start = pre.length)
    (hstop : stop = pre.length + part.length) :
    (slice (pre ++ (part ++ post)) start stop : Parse ε _) = .ok part := by
  subst hstart hstop
  rw [slice_eq (Nat.le_add_right _ _) (by simp), List.drop_left, Nat.add_sub_cancel_left, List.take_left]

/-! ## Parsers that do not panic -/

/-- The parser returns a value or an error. -/
def Safe (p : Parse ε α) : Prop := p ≠ .error .panicked

theorem safe_ok (a : α) : Safe (.ok a : Parse ε α) := nofun

theorem safe_fail (e : ε) : Safe (fail e : Parse ε α) := nofun

/-- A parser that does not panic, followed by one that does not panic on what the first returns. -/
theorem Safe.bind {f : α → Parse ε β} (hp : Safe p) (hf : ∀ a, p = .ok a → Safe (f a)) : Safe (p >>= f) := by
  cases p with
  | ok a => exact hf a rfl
  | error e =>
    intro h
    exact hp (by rw [error_bind] at h; cases h; rfl)

theorem safe_bind_ok : Safe (p >>= fun a => .ok (f a)) ↔ Safe p := by
  cases p with
  | ok a => exact ⟨fun _ => safe_ok a, fun _ => safe_ok (f a)⟩
  | error e =>
    refine ⟨fun h hp => h ?_, fun h => h.bind fun a _ => safe_ok (f a)⟩
    cases hp
    rfl

theorem safe_map : Safe (f <$> p) ↔ Safe p := by
  cases p with
  | ok a => exact ⟨fun _ => safe_ok a, fun _ => safe_ok (f a)⟩
  | error e =>
    refine ⟨fun h hp => h ?_, fun h hp => h ?_⟩ <;> cases hp <;> rfl

theorem not_safe_panicked : ¬ Safe (.error .panicked : Parse ε α) := fun h => h rfl

theorem Safe.ite [Decidable c] {q : Parse ε α} (hp : c → Safe p) (hq : ¬ c → Safe q) :
    Safe (if c then p else q) := by
  by_cases h : c
  · rw [if_pos h]
    exact hp h
  · rw [if_neg h]
    exact hq h

theorem Safe.guard [Decidable c] {e : ε} (h : ¬ c → Safe p) :
    Safe (if c then fail e else p) :=
  .ite (fun _ => safe_fail e) h

theorem Safe.dite [Decidable c] {p : c → Parse ε α} {q : ¬ c → Parse ε α}
    (hp : ∀ h, Safe (p h)) (hq : ∀ h, Safe (q h)) : Safe (if h : c then p h else q h) := by
  by_cases h : c
  · rw [dif_pos h]
    exact hp h
  · rw [dif_neg h]
    exact hq h

theorem safe_slice (h : start ≤ stop) (hstop : stop ≤ raw.length) : Safe (slice raw start stop : Parse ε _) := by
  rw [slice_eq h hstop]
  exact safe_ok _

theorem length_of_slice {part : List Byte} (h : (slice raw start stop : Parse ε _) = .ok part) :
    start ≤ stop ∧ stop ≤ raw.length ∧ part.length = stop - start := by
  unfold slice at h
  split at h
  case isTrue hin =>
    cases h
    refine ⟨hin.1, hin.2, ?_⟩
    rw [List.length_take, List.length_drop]
    omega
  case isFalse => cases h

theorem safe_index {i : Nat} (h : i < raw.length) : Safe (index raw i : Parse ε _) := by
  rw [index, List.getElem?_eq_getElem h]
  exact safe_ok _

theorem safe_slice_bind {f : List Byte → Parse ε β} (h : start ≤ stop) (hstop : stop ≤ raw.length)
    (hf : ∀ part : List Byte, part.length = stop - start → Safe (f part)) :
    Safe (slice raw start stop >>= f) :=
  (safe_slice h hstop).bind fun _ hpart => hf _ (length_of_slice hpart).2.2

/-! ## Reads of a fixed width -/

/-- A read that takes `width` bytes whenever they are there. -/
def Takes (width : Nat) (get : List Byte → Parse ε (α × List Byte)) : Prop :=
  ∀ reader : List Byte, width ≤ reader.length →
    ∃ x rest, get reader = .ok (x, rest) ∧ rest.length + width = reader.length

section Takes

variable {width n m : Nat} {reader : List Byte} {get : List Byte → Parse ε (α × List Byte)}

theorem takes_ok (x : α) : Takes 0 fun reader => (.ok (x, reader) : Parse ε _) :=
  fun reader _ => ⟨x, reader, rfl, rfl⟩

theorem takes_getU8 : Takes 1 (getU8 : List Byte → Parse ε _)
  | _ :: rest, _ => ⟨_, rest, rfl, rfl⟩

theorem takes_getU16 : Takes 2 (getU16 : List Byte → Parse ε _)
  | _ :: _ :: rest, _ => ⟨_, rest, rfl, rfl⟩

theorem takes_getU32 : Takes 4 (getU32 : List Byte → Parse ε _)
  | _ :: _ :: _ :: _ :: rest, _ => ⟨_, rest, rfl, rfl⟩

theorem Takes.bind {f : α × List Byte → Parse ε (β × List Byte)} (hget : Takes m get)
    (hf : ∀ x, Takes n fun reader => f (x, reader)) : Takes (n + m) fun reader => get reader >>= f := by
  intro reader hlen
  obtain ⟨x, rest, hx, hrest⟩ := hget reader (by omega)
  obtain ⟨y, rest', hy, hrest'⟩ := hf x rest (by omega)
  refine ⟨y, rest', ?_, by omega⟩
  dsimp only
  rw [hx]
  exact hy

theorem takes_getU64 : Takes 8 (getU64 : List Byte → Parse ε _) :=
  takes_getU32.bind fun _ => takes_getU32.bind fun _ => takes_ok _

theorem Takes.getMany (hget : Takes width get) (n : Nat) : Takes (n * width) (getMany get n) := by
  induction n with
  | zero =>
    rw [Nat.zero_mul]
    exact takes_ok []
  | succ n ih =>
    rw [Nat.succ_mul]
    refine hget.bind fun x => ?_
    rw [← Nat.zero_add (n * width)]
    exact ih.bind fun xs => takes_ok (x :: xs)

theorem Takes.safe_bind {f : α × List Byte → Parse ε β} (hget : Takes width get) (h : width ≤ reader.length)
    (hf : ∀ x rest, rest.length + width = reader.length → Safe (f (x, rest))) : Safe (get reader >>= f) := by
  obtain ⟨x, rest, hx, hrest⟩ := hget reader h
  rw [hx]
  exact hf x rest hrest

end Takes

/-! ## Postconditions -/

/-- The parser returns an error, or a value with the property: it does not panic. -/
def Returns (p : Parse ε α) (Q : α → Prop) : Prop :=
  match p with
  | .ok a => Q a
  | .error (.err _) => True
  | .error .panicked => False

section Returns

variable {Q : β → Prop} {R : α → Prop} {p : Parse ε α} {width : Nat} {get : List Byte → Parse ε (α × List Byte)}
  {reader : List Byte}

theorem returns_ok {a : α} (h : R a) : Returns (.ok a : Parse ε α) R := h

theorem returns_fail (e : ε) : Returns (fail e : Parse ε α) R := trivial

theorem Returns.safe (h : Returns p R) : Safe p := by
  rintro rfl
  exact h

theorem Returns.of_eq_ok {a : α} (h : Returns p R) (ha : p = .ok a) : R a := by
  rw [ha] at h
  exact h

theorem Returns.mono {R' : α → Prop} (h : Returns p R) (himp : ∀ a, R a → R' a) : Returns p R' := by
  match p, h with
  | .ok a, h => exact himp a h
  | .error (.err _), _ => trivial

theorem Returns.bind {f : α → Parse ε β} (hp : Returns p R)
    (hf : ∀ a, R a → Returns (f a) Q) : Returns (p >>= f) Q := by
  match p, hp with
  | .ok a, hp => exact hf a hp
  | .error (.err _), _ => trivial

theorem Returns.ite {c : Prop} [Decidable c] {q : Parse ε α} (hp : c → Returns p R)
    (hq : ¬ c → Returns q R) : Returns (if c then p else q) R := by
  split
  case isTrue h => exact hp h
  case isFalse h => exact hq h

theorem Returns.guard {c : Prop} [Decidable c] {e : ε} (h : ¬ c → Returns p R) :
    Returns (if c then fail e else p) R :=
  .ite (fun _ => returns_fail e) h

theorem Takes.returns {r : List Byte}
    (hget : Takes width get) (h : width ≤ r.length) : Returns (get r) fun a => a.2.length + width = r.length := by
  obtain ⟨x, rest, hx, hrest⟩ := hget r h
  rw [hx]
  exact hrest

theorem Takes.returns_bind {f : α × List Byte → Parse ε β} (hget : Takes width get) (h : width ≤ reader.length)
    (hf : ∀ x rest, rest.length + width = reader.length → Returns (f (x, rest)) Q) : Returns (get reader >>= f) Q :=
  (hget.returns h).bind fun r hr => hf r.1 r.2 hr

theorem returns_copyToBytes_bind {n : Nat} {f : List Byte × List Byte → Parse ε β} (h : n ≤ reader.length)
    (hf : ∀ part rest : List Byte, part.length = n → rest.length + n = reader.length →
    Returns (f (part, rest)) Q) : Returns (copyToBytes n reader >>= f) Q := by
  rw [copyToBytes, if_pos h]
  exact hf _ _ (by rw [List.length_take]; omega) (by rw [List.length_drop]; omega)

theorem returns_advance_bind {n : Nat} {f : List Byte → Parse ε β} (h : n ≤ reader.length)
    (hf : ∀ rest : List Byte, rest.length + n = reader.length → Returns (f rest) Q) :
    Returns (advance n reader >>= f) Q := by
  rw [advance, if_pos h]
  exact hf _ (by rw [List.length_drop]; omega)

end Returns

end Parse
end Rtc
