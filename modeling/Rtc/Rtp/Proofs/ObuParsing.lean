import Mathlib.Tactic
import Rtc.Rtp.Codec.Obu

/-!
# Parsing OBUs

What `read_leb128` reads, and on which inputs `parse_obus` neither panics nor accepts other bytes than the OBUs that
the size fields declare. A size field is followed without a check of what is left, and one that does not end is taken
for a 0 in no bytes.
-/

namespace Rtc.Rtp
open Shared

/-! ## LEB128 -/

def lebValue : List Byte → Nat
  | [] => 0
  | b :: bytes => b.toNat % 128 + 128 * lebValue bytes

/-- A LEB128 field: the continuation bit on every byte but the last. -/
def Terminated (field : List Byte) : Prop :=
  ∃ front last, field = front ++ [last] ∧ (∀ b ∈ front, 128 ≤ b.toNat) ∧ last.toNat < 128

/-- The word of the bytes, the first one lowest. -/
def wordOf : List Byte → Nat
  | [] => 0
  | b :: bytes => b.toNat + 256 * wordOf bytes

theorem wordOf_eq_zero {bytes : List Byte} (h : ∀ b ∈ bytes, 128 ≤ b.toNat) : wordOf bytes = 0 ↔ bytes = [] := by
  cases bytes with
  | nil => simp [wordOf]
  | cons b bytes =>
    have := h b List.mem_cons_self
    simp only [wordOf, reduceCtorEq, iff_false]
    omega

theorem wordOf_lt (bytes : List Byte) : wordOf bytes < 256 ^ bytes.length := by
  induction bytes with
  | nil => simp [wordOf]
  | cons b bytes ih =>
    have hb := b.isLt
    rw [wordOf, List.length_cons, pow_succ]
    omega

theorem lor_eq_add {a b k : Nat} (hb : b < 2 ^ k) : a * 2 ^ k ||| b = a * 2 ^ k + b := by
  rw [← Nat.shiftLeft_eq, Nat.shiftLeft_add_eq_or_of_lt hb]

theorem decodeLeb128Loop_succ (fuel a w : Nat) (b : Byte) :
    decodeLeb128Loop (fuel + 1) (a * 128) (b.toNat + 256 * w) =
      if w = 0 then a * 128 + b.toNat % 128
      else decodeLeb128Loop fuel ((a * 128 + b.toNat % 128) * 128 % 2 ^ 64) w := by
  have hb := b.isLt
  have hlow : (b.toNat + 256 * w) &&& 0x7F = b.toNat % 128 := by
    rw [show 0x7F = 2 ^ 7 - 1 from rfl, Nat.and_two_pow_sub_one_eq_mod]
    omega
  have hhigh : (b.toNat + 256 * w) >>> 8 = w := by
    rw [Nat.shiftRight_eq_div_pow]
    omega
  have hor : a * 128 ||| b.toNat % 128 = a * 128 + b.toNat % 128 := @lor_eq_add a _ 7 (by omega)
  simp only [decodeLeb128Loop, hlow, hhigh, hor, Nat.shiftLeft_eq, Nat.reducePow]

/-- The bytes of a word come out lowest first, and each one shifts what was collected by seven bits. -/
theorem decodeLeb128Loop_eq {fuel a k : Nat} {b : Byte} {bytes : List Byte} (hfuel : bytes.length < fuel)
    (hcont : ∀ b ∈ bytes, 128 ≤ b.toNat) (ha : a < 128 ^ k) (hk : k + bytes.length ≤ 7) :
    decodeLeb128Loop fuel (a * 128) (wordOf (b :: bytes)) =
      (b :: bytes).foldl (fun a b => a * 128 + b.toNat % 128) a := by
  obtain ⟨fuel, rfl⟩ : ∃ n, fuel = n + 1 := ⟨fuel - 1, by omega⟩
  induction bytes generalizing fuel a k b with
  | nil =>
    rw [wordOf, decodeLeb128Loop_succ]
    rfl
  | cons c bytes ih =>
    have hnext : a * 128 + b.toNat % 128 < 128 ^ (k + 1) := by
      rw [pow_succ]
      omega
    have hbound : 128 ^ (k + 1) ≤ 128 ^ 7 := by
      apply Nat.pow_le_pow_right (by norm_num)
      simp only [List.length_cons] at hk
      omega
    rw [wordOf, decodeLeb128Loop_succ, if_neg ((wordOf_eq_zero hcont).not.mpr (by simp)),
      Nat.mod_eq_of_lt (by omega), List.foldl_cons]
    obtain ⟨fuel, rfl⟩ : ∃ n, fuel = n + 1 := ⟨fuel - 1, by rw [List.length_cons] at hfuel; omega⟩
    simp only [List.length_cons] at hfuel hk
    exact ih (fun d hd => hcont d (List.mem_cons_of_mem c hd)) hnext (by omega) fuel (by omega)

theorem foldl_reverse_eq (field : List Byte) :
    field.reverse.foldl (fun a b => a * 128 + b.toNat % 128) 0 = lebValue field := by
  rw [List.foldl_reverse]
  induction field with
  | nil => rfl
  | cons b field ih =>
    rw [List.foldr_cons, ih, lebValue]
    omega

theorem and_eq_zero_iff (b : Byte) : b &&& 0x80#8 = 0#8 ↔ b.toNat < 128 := by
  have hall : ∀ b : Byte, b &&& 0x80#8 = 0#8 ↔ b.toNat < 128 := by decide +kernel
  exact hall b

/-- The loop, after bytes with the continuation bit: `seen` holds them, the latest first. -/
theorem readLeb128Loop_spec (bytes : List Byte) {encoded : Nat} {seen : List Byte}
    (hseen : ∀ b ∈ seen, 128 ≤ b.toNat) (hencoded : seen.length ≤ 4 → encoded = wordOf seen * 2 ^ 8) :
    readLeb128Loop encoded seen.length bytes = (0, 0) ∧ (∀ b ∈ bytes, 128 ≤ b.toNat) ∨
      ∃ field tail v, seen.reverse ++ bytes = field ++ tail ∧ Terminated field ∧
        readLeb128Loop encoded seen.length bytes = (v, field.length) ∧
        (field.length ≤ 5 → v = lebValue field % 2 ^ 32) := by
  induction bytes generalizing encoded seen with
  | nil => exact .inl ⟨rfl, by simp⟩
  | cons b bytes ih =>
    have hb := b.isLt
    have hword : seen.length ≤ 4 → encoded ||| b.toNat = wordOf (b :: seen) := by
      intro hlen
      rw [hencoded hlen, lor_eq_add hb, wordOf]
      omega
    rw [readLeb128Loop]
    by_cases hlast : b.toNat < 128
    · refine .inr ⟨seen.reverse ++ [b], bytes, decodeLeb128 (encoded ||| b.toNat), by simp, ?_, ?_, ?_⟩
      · exact ⟨seen.reverse, b, rfl, fun c hc => hseen c (List.mem_reverse.mp hc), hlast⟩
      · simp [(and_eq_zero_iff b).mpr hlast]
      · intro hlen
        simp only [List.length_append, List.length_reverse, List.length_singleton] at hlen
        have hloop := @decodeLeb128Loop_eq 8 0 0 b seen (by omega) hseen (by norm_num) (by omega)
        rw [Nat.zero_mul] at hloop
        rw [decodeLeb128, hword (by omega), hloop, ← foldl_reverse_eq]
        simp
    · have hcont : ∀ c ∈ b :: seen, 128 ≤ c.toNat := List.forall_mem_cons.mpr ⟨not_lt.mp hlast, hseen⟩
      rw [if_neg ((and_eq_zero_iff b).not.mpr hlast)]
      have hnext : (b :: seen).length ≤ 4 →
          ((encoded ||| b.toNat) <<< 8) % 2 ^ 64 = wordOf (b :: seen) * 2 ^ 8 := by
        intro hlen
        have hlt := wordOf_lt (b :: seen)
        have hpow : 256 ^ (b :: seen).length ≤ 256 ^ 4 := Nat.pow_le_pow_right (by norm_num) hlen
        rw [hword (by rw [List.length_cons] at hlen; omega), Nat.shiftLeft_eq, Nat.mod_eq_of_lt (by omega)]
      rcases ih hcont hnext with ⟨hread, hall⟩ | ⟨field, tail, v, heq, hrest⟩
      · exact .inl ⟨hread, List.forall_mem_cons.mpr ⟨not_lt.mp hlast, hall⟩⟩
      · exact .inr ⟨field, tail, v, by simpa using heq, hrest⟩

/-- `read_leb128` reads the field at the front of the bytes, or nothing if no byte ends it. -/
theorem readLeb128_spec (bytes : List Byte) :
    readLeb128 bytes = (0, 0) ∧ (∀ b ∈ bytes, 128 ≤ b.toNat) ∨
      ∃ field tail v, bytes = field ++ tail ∧ Terminated field ∧ readLeb128 bytes = (v, field.length) ∧
        (field.length ≤ 5 → v = lebValue field % 2 ^ 32) :=
  @readLeb128Loop_spec bytes 0 [] (by simp) (by simp [wordOf])

/-! ## Spans -/

namespace ObuSpan

def bytes (s : ObuSpan) : List Byte := s.header :: (s.extension ++ (s.sizeField ++ s.payload))

/-- The size of the payload is what a LEB128 field of at most five bytes declares, if the header announces one. -/
def Declared (s : ObuSpan) : Prop :=
  if obuHasSize s.header then
    Terminated s.sizeField ∧ s.sizeField.length ≤ 5 ∧ lebValue s.sizeField = s.payload.length
  else s.sizeField = []

end ObuSpan

/-- The walk over the OBUs of an input: no size field declares more than is left, and unless the input is cut off
    in a later header, every size field (`whole`) ends within five bytes and is below `2^32`. -/
def Framed : (fuel : Nat) → (whole : Prop) → List Byte → Prop
  | _, whole, [] => whole
  | 0, _, _ :: _ => False
  | fuel + 1, whole, header :: data =>
    let rest := data.drop (if obuHasExtension header then 1 else 0)
    if obuHasExtension header ∧ data = [] then True
    else if !obuHasSize header then whole
    else if rest = [] then True
    else
      let (size, n) := readLeb128 rest
      n + size ≤ rest.length ∧
        Framed fuel (whole ∧ n ≠ 0 ∧ n ≤ 5 ∧ lebValue (rest.take n) < 2 ^ 32) (rest.drop (n + size))

theorem declared_iff {header : Byte} {extension rest : List Byte} (hsize : obuHasSize header = true)
    (hfit : (readLeb128 rest).2 + (readLeb128 rest).1 ≤ rest.length) :
    (⟨header, extension, rest.take (readLeb128 rest).2,
        (rest.drop (readLeb128 rest).2).take (readLeb128 rest).1⟩ : ObuSpan).Declared ↔
      (readLeb128 rest).2 ≠ 0 ∧ (readLeb128 rest).2 ≤ 5 ∧ lebValue (rest.take (readLeb128 rest).2) < 2 ^ 32 := by
  rw [ObuSpan.Declared, if_pos hsize]
  dsimp only
  rcases readLeb128_spec rest with ⟨hread, -⟩ | ⟨field, tail, v, rfl, hterm, hread, hvalue⟩
  · simp only [hread, List.take_zero, ne_eq, not_true_eq_false, false_and, iff_false, not_and]
    rintro ⟨front, last, hnil, -⟩
    simp at hnil
  · rw [hread] at hfit ⊢
    have hpos : field.length ≠ 0 := by
      obtain ⟨front, last, rfl, -⟩ := hterm
      simp
    rw [List.take_left, List.drop_left, List.length_take]
    rw [List.length_append] at hfit
    constructor
    · rintro ⟨-, hlen, heq⟩
      have := hvalue hlen
      exact ⟨hpos, hlen, by omega⟩
    · rintro ⟨-, hlen, hlt⟩
      have := hvalue hlen
      exact ⟨hterm, hlen, by rw [Nat.mod_eq_of_lt hlt] at this; omega⟩

/-- A parse returns, and on success the spans are the whole input and each is as long as it declares. -/
def Exact (whole : Prop) (data : List Byte) (parsed : Parse Error (List ObuSpan)) : Prop :=
  Parse.Safe parsed ∧
    ∀ spans, parsed = .ok spans → spans.flatMap ObuSpan.bytes = data ∧ whole ∧ ∀ s ∈ spans, s.Declared

theorem exact_fail (whole : Prop) (data : List Byte) (e : Error) : Exact whole data (Parse.fail e) :=
  ⟨Parse.safe_fail e, nofun⟩

theorem exact_cons {whole : Prop} {s : ObuSpan} {data tail : List Byte} {parsed : Parse Error (List ObuSpan)}
    (hdata : s.bytes ++ tail = data) :
    Exact whole data (parsed >>= fun spans => .ok (s :: spans)) ↔ Exact (whole ∧ s.Declared) tail parsed := by
  subst hdata
  cases parsed with
  | error e => exact and_congr Iff.rfl ⟨fun _ => nofun, fun _ => nofun⟩
  | ok spans =>
    constructor
    · rintro ⟨-, hspans⟩
      obtain ⟨hbytes, hwhole, hall⟩ := hspans _ rfl
      refine ⟨Parse.safe_ok _, fun _ hok => ?_⟩
      cases hok
      rw [List.forall_mem_cons] at hall
      exact ⟨List.append_cancel_left hbytes, ⟨hwhole, hall.1⟩, hall.2⟩
    · rintro ⟨-, hspans⟩
      obtain ⟨hbytes, ⟨hwhole, hs⟩, hall⟩ := hspans _ rfl
      refine ⟨Parse.safe_ok _, fun _ hok => ?_⟩
      cases hok
      refine ⟨?_, hwhole, List.forall_mem_cons.mpr ⟨hs, hall⟩⟩
      rw [List.flatMap_cons, hbytes]

theorem exact_nil (whole : Prop) : Exact whole [] (.ok []) ↔ whole := by
  refine ⟨fun h => (h.2 [] rfl).2.1, fun h => ⟨Parse.safe_ok _, fun _ hok => ?_⟩⟩
  cases hok
  exact ⟨rfl, h, by simp⟩

theorem obuPayload_of_size {rest : List Byte} (hrest : rest ≠ []) :
    obuPayload true rest =
      if (readLeb128 rest).2 + (readLeb128 rest).1 ≤ rest.length then
        .ok (rest.take (readLeb128 rest).2, (rest.drop (readLeb128 rest).2).take (readLeb128 rest).1)
      else .error .panicked := by
  simp only [obuPayload, Bool.not_true, Bool.false_eq_true, if_false, hrest, Parse.slice, Nat.le_add_right, true_and,
    Nat.add_sub_cancel_left]
  split <;> rfl

theorem exact_obuSpans_iff (fuel : Nat) (whole : Prop) (data : List Byte) (hfuel : data.length ≤ fuel) :
    Exact whole data (obuSpans fuel data) ↔ Framed fuel whole data := by
  induction fuel generalizing whole data with
  | zero =>
    obtain rfl : data = [] := List.length_eq_zero_iff.mp (by omega)
    rw [obuSpans, Framed, exact_nil]
  | succ fuel ih =>
    cases data with
    | nil => rw [obuSpans, Framed, exact_nil]
    | cons header data =>
      rw [obuSpans, Framed]
      dsimp only
      by_cases hext : obuHasExtension header ∧ data = []
      · rw [if_pos hext, if_pos hext]
        exact iff_of_true (exact_fail _ _ _) trivial
      rw [if_neg hext, if_neg hext]
      obtain ⟨extension, hextension⟩ : ∃ e, e = if obuHasExtension header then data.take 1 else [] := ⟨_, rfl⟩
      have hlen : (if obuHasExtension header then 1 else 0) = extension.length := by
        rw [hextension]
        cases hflag : obuHasExtension header with
        | false => rfl
        | true =>
          cases data with
          | nil => exact absurd ⟨hflag, rfl⟩ hext
          | cons b data => rfl
      have happend : extension ++ data.drop extension.length = data := by
        rw [hextension]
        split
        · cases data <;> rfl
        · rfl
      rw [← hextension, hlen]
      generalize data.drop extension.length = rest at happend
      have hshort : rest.length ≤ fuel := by
        have := congrArg List.length happend
        rw [List.length_append] at this
        rw [List.length_cons] at hfuel
        omega
      cases hsize : obuHasSize header with
      | false =>
        simp only [obuPayload, Bool.not_false, if_true, Parse.ok_bind, List.length_nil, Nat.zero_add, List.drop_length]
        rw [@exact_cons _ _ _ [] _ (by simp [ObuSpan.bytes, happend])]
        cases fuel <;> simp [obuSpans, exact_nil, ObuSpan.Declared, hsize]
      | true =>
        by_cases hrest : rest = []
        · simp only [obuPayload, hrest, Bool.not_true, Bool.false_eq_true, if_false, if_true, Parse.fail_bind]
          exact iff_of_true (exact_fail _ _ _) trivial
        rw [obuPayload_of_size hrest, if_neg (show ¬ (!true) = true by simp), if_neg hrest]
        by_cases hfit : (readLeb128 rest).2 + (readLeb128 rest).1 ≤ rest.length
        · have hlens : (rest.take (readLeb128 rest).2).length +
              ((rest.drop (readLeb128 rest).2).take (readLeb128 rest).1).length =
              (readLeb128 rest).2 + (readLeb128 rest).1 := by
            rw [List.length_take, List.length_take, List.length_drop]
            omega
          rw [if_pos hfit, Parse.ok_bind]
          dsimp only
          rw [hlens, exact_cons, ih _ _ (by rw [List.length_drop]; omega), declared_iff hsize hfit]
          · exact ⟨fun h => ⟨hfit, h⟩, fun h => h.2⟩
          · simp only [ObuSpan.bytes, List.cons_append, List.append_assoc, ← happend]
            rw [← List.drop_drop, List.take_append_drop, List.take_append_drop]
        · rw [if_neg hfit]
          exact iff_of_false (fun h => h.1 rfl) (fun h => hfit h.1)

/-- `parse_obus` returns, and on success the OBUs it passed make up the input and are as long as they declare,
    exactly if the walk over the input meets no size field that is too large or not whole. -/
theorem parseObus_exact_iff (payload : List Byte) :
    (Parse.Safe (parseObus payload) ∧ ∀ obus, parseObus payload = .ok obus →
      ∃ spans, obuSpans payload.length payload = .ok spans ∧ spans.flatMap ObuSpan.bytes = payload ∧
        (∀ s ∈ spans, s.Declared) ∧
        obus = (spans.filter fun s => !shouldIgnoreObuType (obuType s.header)).map ObuSpan.obu) ↔
      Framed payload.length True payload := by
  rw [← exact_obuSpans_iff _ _ _ (Nat.le_refl payload.length), Exact, parseObus]
  cases obuSpans payload.length payload with
  | error e => exact and_congr Parse.safe_map ⟨fun _ => nofun, fun _ => nofun⟩
  | ok spans =>
    refine and_congr (iff_of_true (Parse.safe_ok _) (Parse.safe_ok _)) ⟨?_, ?_⟩
    · intro h spans' hok
      cases hok
      obtain ⟨spans', hok, hbytes, hall, -⟩ := h _ rfl
      cases hok
      exact ⟨hbytes, trivial, hall⟩
    · intro h obus hok
      cases hok
      obtain ⟨hbytes, -, hall⟩ := h spans rfl
      exact ⟨spans, rfl, hbytes, hall, rfl⟩

/-- A frame OBU that declares five bytes of payload and has two. -/
theorem parseObus_truncated : parseObus [0x32#8, 5#8, 1#8, 2#8] = .error .panicked := by
  decide +kernel

end Rtc.Rtp
