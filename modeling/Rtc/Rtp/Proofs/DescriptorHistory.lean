import Mathlib.Tactic
import Rtc.Rtp.Codec.Descriptor

/-!
# Descriptors and the objects they are parsed with

A `Vp8Packet` or `Vp9Packet` parses packet after packet. It parses as a fresh one does exactly if the fields that a
parse reads before it writes them are fresh: the extended control bits for VP8, the reference indices and the picture
group for VP9.
-/

namespace Rtc.Rtp
open Shared Outcome

/-! ## Two objects, one payload -/

namespace Outcome

variable {σ : Type} {R Q : σ → σ → Prop} {a b : Outcome σ} {s t : σ}

/-- Two calls return the same, and on success leave related objects. -/
def Same (R : σ → σ → Prop) : Outcome σ → Outcome σ → Prop
  | .ok (s, r), .ok (t, r') => r = r' ∧ R s t
  | .error (e, _), .error (e', _) => e = e'
  | _, _ => False

theorem Same.exists_of_ok {r : List Byte} (h : Same R a (.ok (t, r))) : ∃ s, a = .ok (s, r) := by
  match a, h with
  | .ok (s, _), ⟨rfl, _⟩ => exact ⟨s, rfl⟩

theorem Same.andThen {f g : σ → List Byte → Outcome σ} (h : Same R a b)
    (hstep : ∀ s t r, R s t → Same Q (f s r) (g t r)) : Same Q (a.andThen f) (b.andThen g) := by
  match a, b, h with
  | .ok (s, r), .ok (t, _), ⟨rfl, hR⟩ => exact hstep s t r hR
  | .error (_, _), .error (_, _), h => exact h

theorem same_withU8 {r : List Byte} {f g : Byte → List Byte → Outcome σ} (h : ∀ b r, Same R (f b r) (g b r)) :
    Same R (withU8 s r f) (withU8 t r g) := by
  cases r with
  | nil => rfl
  | cons b r => exact h b r

theorem same_withByte {r : List Byte} {f g : Byte → List Byte → Outcome σ} (h : ∀ b r, Same R (f b r) (g b r)) :
    Same R (withByte s r f) (withByte t r g) := by
  cases r with
  | nil => rfl
  | cons b r => exact h b r

theorem Same.ite {c c' : Prop} [Decidable c] [Decidable c'] {a' b' : Outcome σ} (hc : c ↔ c')
    (h : c → Same R a b) (h' : ¬ c → Same R a' b') : Same R (if c then a else a') (if c' then b else b') := by
  by_cases hc' : c
  · rw [if_pos hc', if_pos (hc.mp hc')]
    exact h hc'
  · rw [if_neg hc', if_neg (hc.not.mp hc')]
    exact h' hc'

theorem Same.mono (h : Same R a b) (himp : ∀ s t, R s t → Q s t) : Same Q a b := by
  match a, b, h with
  | .ok (s, r), .ok (t, _), ⟨rfl, hR⟩ => exact ⟨rfl, himp s t hR⟩
  | .error (_, _), .error (_, _), h => exact h

end Outcome

/-! ## VP8 -/

namespace Vp8Packet

/-- The fields whose presence bit is set are the same. -/
def Present (s t : Vp8Packet) : Prop :=
  (s.i = 1#8 → s.pictureId = t.pictureId) ∧ (s.l = 1#8 → s.tl0PicIdx = t.tl0PicIdx) ∧
    (s.t = 1#8 → s.tid = t.tid ∧ s.y = t.y) ∧ (s.k = 1#8 → s.keyIdx = t.keyIdx)

/-- Two objects after `n` of the parts of the descriptor. -/
structure Agree (n : Nat) (s t : Vp8Packet) : Prop where
  control : (s.i = 1#8 ↔ t.i = 1#8) ∧ (s.l = 1#8 ↔ t.l = 1#8) ∧ (s.t = 1#8 ↔ t.t = 1#8) ∧ (s.k = 1#8 ↔ t.k = 1#8)
  x_eq : 1 ≤ n → s.x = t.x
  pictureId_eq : 2 ≤ n → s.i = 1#8 → s.pictureId = t.pictureId
  tl0_eq : 3 ≤ n → s.l = 1#8 → s.tl0PicIdx = t.tl0PicIdx

/-- The control bits that a payload without them would be parsed with are clear. -/
def Clear (s : Vp8Packet) : Prop := s.i ≠ 1#8 ∧ s.l ≠ 1#8 ∧ s.t ≠ 1#8 ∧ s.k ≠ 1#8

variable {s t : Vp8Packet} {n : Nat} {r : List Byte}

theorem same_checkLeft {R : Vp8Packet → Vp8Packet → Prop} (h : R s t) : Same R (s.checkLeft r) (t.checkLeft r) :=
  Same.ite Iff.rfl (fun _ => rfl) fun _ => ⟨rfl, h⟩

theorem same_getRequired (h : Agree 0 s t) : Same (Agree 1) (s.getRequired r) (t.getRequired r) :=
  same_withU8 fun _ _ => ⟨rfl, h.control, fun _ => rfl, by simp, by simp⟩

theorem same_getControl (h : Agree 1 s t) : Same (Agree 1) (s.getControl r) (t.getControl r) := by
  refine Same.ite (by rw [h.x_eq le_rfl]) (fun _ => same_withU8 fun b r => ⟨rfl, ?_⟩) fun _ => ⟨rfl, h⟩
  exact ⟨by simp, fun _ => h.x_eq le_rfl, by simp, by simp⟩

theorem same_getPictureId (h : Agree 1 s t) : Same (Agree 2) (s.getPictureId r) (t.getPictureId r) := by
  have hx : 1 ≤ 2 → s.x = t.x := fun _ => h.x_eq le_rfl
  refine Same.ite h.control.1 (fun _ => same_withU8 fun b r => ?_) fun hi =>
    ⟨rfl, h.control, hx, fun _ hi' => absurd hi' hi, by simp⟩
  refine Same.ite Iff.rfl (fun _ => same_withU8 fun low r => ?_) fun _ => ?_
  · exact ⟨rfl, h.control, hx, fun _ _ => rfl, by simp⟩
  · exact ⟨rfl, h.control, hx, fun _ _ => rfl, by simp⟩

theorem same_getTl0PicIdx (h : Agree 2 s t) : Same (Agree 3) (s.getTl0PicIdx r) (t.getTl0PicIdx r) := by
  have hx : 1 ≤ 3 → s.x = t.x := fun _ => h.x_eq (by omega)
  have hid : 2 ≤ 3 → s.i = 1#8 → s.pictureId = t.pictureId := fun _ => h.pictureId_eq le_rfl
  exact Same.ite h.control.2.1 (fun _ => same_withU8 fun b r => ⟨rfl, h.control, hx, hid, fun _ _ => rfl⟩)
    fun hl => ⟨rfl, h.control, hx, hid, fun _ hl' => absurd hl' hl⟩

theorem same_getTidKeyIdx (h : Agree 3 s t) : Same Present (s.getTidKeyIdx r) (t.getTidKeyIdx r) := by
  obtain ⟨-, -, ht, hk⟩ := h.control
  have hid := h.pictureId_eq (by omega)
  have htl0 := h.tl0_eq le_rfl
  refine Same.ite (or_congr ht hk) (fun _ => same_withU8 fun b r => ⟨rfl, hid, htl0, ?_, ?_⟩) fun hnone => ?_
  · intro ht'
    exact ⟨(if_pos ht').trans (if_pos (ht.mp ht')).symm, (if_pos ht').trans (if_pos (ht.mp ht')).symm⟩
  · intro hk'
    exact (if_pos hk').trans (if_pos (hk.mp hk')).symm
  · rw [not_or] at hnone
    exact ⟨rfl, hid, htl0, fun ht' => absurd ht' hnone.1, fun hk' => absurd hk' hnone.2⟩

theorem same_depacketize (hs : s.Clear) (packet : List Byte) :
    Same Present (s.depacketize packet) (depacketize {} packet) := by
  have hstart : Agree 0 s {} := by
    obtain ⟨hi, hl, ht, hk⟩ := hs
    constructor <;> simp [hi, hl, ht, hk]
  unfold depacketize
  refine Same.ite Iff.rfl (fun _ => rfl) fun _ => ?_
  refine Same.andThen (R := Present) ?_ fun _ _ _ => same_checkLeft
  refine Same.andThen (R := Agree 3) ?_ fun _ _ _ => same_getTidKeyIdx
  refine Same.andThen (R := Agree 3) ?_ fun _ _ _ => same_checkLeft
  refine Same.andThen (R := Agree 2) ?_ fun _ _ _ => same_getTl0PicIdx
  refine Same.andThen (R := Agree 2) ?_ fun _ _ _ => same_checkLeft
  refine Same.andThen (R := Agree 1) ?_ fun _ _ _ => same_getPictureId
  refine Same.andThen (R := Agree 1) ?_ fun _ _ _ => same_getControl
  exact same_getRequired hstart

theorem clear_of_same (h : Same Present (s.depacketize [0#8, 0#8, 0#8, 0#8]) (depacketize {} [0#8, 0#8, 0#8, 0#8])) :
    s.Clear := by
  have hfresh : depacketize {} [0#8, 0#8, 0#8, 0#8] = .ok ({}, [0#8, 0#8, 0#8]) := by rfl
  rw [hfresh] at h
  by_contra hclear
  simp only [Clear, ne_eq, not_and_or, not_not] at hclear
  have hleft : ∀ c, s.depacketize [0#8, 0#8, 0#8, 0#8] ≠ .ok (c, [0#8, 0#8, 0#8]) := by
    clear h
    intro c
    by_cases hi : s.i = 1#8 <;> by_cases hl : s.l = 1#8 <;> by_cases ht : s.t = 1#8 <;> by_cases hk : s.k = 1#8 <;>
      simp_all [depacketize, getRequired, getControl, getPictureId, checkLeft, getTl0PicIdx, getTidKeyIdx, withU8, andThen,
        short]
  obtain ⟨c, hc⟩ := h.exists_of_ok
  exact hleft c hc

end Vp8Packet

/-! ## VP9 -/

namespace Vp9Packet

/-- The fields whose presence bits are set are the same. -/
def Present (s t : Vp9Packet) : Prop :=
  (s.i = true → s.pictureId = t.pictureId) ∧
    (s.l = true → (s.tid = t.tid ∧ s.u = t.u ∧ s.sid = t.sid ∧ s.d = t.d) ∧ (s.f = false → s.tl0picidx = t.tl0picidx)) ∧
    ((s.f && s.p) = true → s.pdiff = t.pdiff) ∧
    (s.v = true → (s.ns = t.ns ∧ s.y = t.y ∧ s.g = t.g ∧ s.ng = t.ng) ∧
      (s.y = true → s.width = t.width ∧ s.height = t.height) ∧
      (s.g = true → s.pgtid = t.pgtid ∧ s.pgu = t.pgu ∧ s.pgpdiff = t.pgpdiff))

/-- Two objects after `n` of the parts of the descriptor. -/
structure Agree (n : Nat) (s t : Vp9Packet) : Prop where
  lists_eq : s.pdiff = t.pdiff ∧ s.pgtid = t.pgtid ∧ s.pgu = t.pgu ∧ s.pgpdiff = t.pgpdiff
  flags_eq : 1 ≤ n → s.i = t.i ∧ s.l = t.l ∧ s.f = t.f ∧ s.p = t.p ∧ s.v = t.v
  pictureId_eq : 2 ≤ n → s.i = true → s.pictureId = t.pictureId
  layer_eq : 3 ≤ n → s.l = true →
    (s.tid = t.tid ∧ s.u = t.u ∧ s.sid = t.sid ∧ s.d = t.d) ∧ (s.f = false → s.tl0picidx = t.tl0picidx)
  structure_eq : 4 ≤ n → s.ns = t.ns ∧ s.y = t.y ∧ s.g = t.g ∧ s.ng = t.ng
  sizes_eq : 5 ≤ n → s.y = true → s.width = t.width ∧ s.height = t.height

/-- The lists that a parse appends to are empty. -/
def Clear (s : Vp9Packet) : Prop := s.pdiff = [] ∧ s.pgtid = [] ∧ s.pgu = [] ∧ s.pgpdiff = []

variable {s t : Vp9Packet} {n : Nat} {r : List Byte}

theorem same_getRequired (h : Agree 0 s t) : Same (Agree 1) (s.getRequired r) (t.getRequired r) :=
  same_withByte fun _ _ => ⟨rfl, h.lists_eq, fun _ => ⟨rfl, rfl, rfl, rfl, rfl⟩, by simp, by simp, by simp, by simp⟩

theorem same_parsePictureId (h : Agree 1 s t) : Same (Agree 2) (s.parsePictureId r) (t.parsePictureId r) := by
  have hflags : 1 ≤ 2 → s.i = t.i ∧ s.l = t.l ∧ s.f = t.f ∧ s.p = t.p ∧ s.v = t.v := fun _ => h.flags_eq le_rfl
  refine same_withByte fun b r => Same.ite Iff.rfl (fun _ => same_withByte fun low r => ?_) fun _ => ?_
  · exact ⟨rfl, h.lists_eq, hflags, fun _ _ => rfl, by simp, by simp, by simp⟩
  · exact ⟨rfl, h.lists_eq, hflags, fun _ _ => rfl, by simp, by simp, by simp⟩

theorem same_parseLayerInfo (h : Agree 2 s t) : Same (Agree 3) (s.parseLayerInfo r) (t.parseLayerInfo r) := by
  have hflags : 1 ≤ 3 → s.i = t.i ∧ s.l = t.l ∧ s.f = t.f ∧ s.p = t.p ∧ s.v = t.v := fun _ => h.flags_eq (by omega)
  have hid : 2 ≤ 3 → s.i = true → s.pictureId = t.pictureId := fun _ => h.pictureId_eq le_rfl
  obtain ⟨-, -, hf, -⟩ := hflags (by omega)
  refine same_withByte fun b r => Same.ite Iff.rfl (fun _ => rfl) fun _ => Same.ite (by simp only [hf]) ?_ ?_
  · intro hf'
    refine ⟨rfl, h.lists_eq, hflags, hid, fun _ _ => ⟨⟨rfl, rfl, rfl, rfl⟩, fun hnot => ?_⟩, by simp, by simp⟩
    exact absurd (hf'.symm.trans hnot) (by simp)
  · intro _
    refine same_withByte fun b r => ?_
    exact ⟨rfl, h.lists_eq, hflags, hid, fun _ _ => ⟨⟨rfl, rfl, rfl, rfl⟩, fun _ => rfl⟩, by simp, by simp⟩

theorem same_getFields (h : Agree 0 s t) : Same (Agree 3) (s.getFields r) (t.getFields r) := by
  unfold getFields
  refine Same.andThen (R := Agree 2) (Same.andThen (R := Agree 1) (same_getRequired h) ?_) ?_
  · intro s t r h
    refine Same.ite (by rw [(h.flags_eq le_rfl).1]) (fun _ => same_parsePictureId h) fun hi => ?_
    exact ⟨rfl, h.lists_eq, fun _ => h.flags_eq le_rfl, fun _ hi' => absurd hi' hi, by simp, by simp, by simp⟩
  · intro s t r h
    refine Same.ite (by rw [(h.flags_eq (by omega)).2.1]) (fun _ => same_parseLayerInfo h) fun hl => ?_
    exact ⟨rfl, h.lists_eq, fun _ => h.flags_eq (by omega), fun _ => h.pictureId_eq le_rfl,
      fun _ hl' => absurd hl' hl, by simp, by simp⟩

theorem same_parseRefIndices (h : Agree 3 s t) : Same (Agree 3) (s.parseRefIndices r) (t.parseRefIndices r) := by
  induction r generalizing s t with
  | nil => rfl
  | cons b r ih =>
    have hpdiff := h.lists_eq.1
    have hnext : Agree 3 { s with pdiff := s.pdiff ++ [b >>> 1] } { t with pdiff := t.pdiff ++ [b >>> 1] } :=
      { h with lists_eq := ⟨by simp only [hpdiff], h.lists_eq.2⟩ }
    simp only [parseRefIndices]
    exact Same.ite (by simp only [hpdiff]) (fun _ => rfl) fun _ => Same.ite Iff.rfl (fun _ => ih hnext) fun _ =>
      ⟨rfl, hnext⟩

theorem same_getSizes (h : Agree 4 s t) : Same (Agree 5) (s.getSizes r) (t.getSizes r) := by
  obtain ⟨hns, hy, -⟩ := h.structure_eq le_rfl
  simp only [getSizes, hns]
  refine Same.ite (by rw [hy]) (fun _ => Same.ite Iff.rfl (fun _ => rfl) fun _ => ⟨rfl, ?_⟩) fun hnot => ⟨rfl, ?_⟩
  · exact ⟨h.lists_eq, fun _ => h.flags_eq (by omega), fun _ => h.pictureId_eq (by omega), fun _ => h.layer_eq (by omega),
      fun _ => ⟨rfl, (h.structure_eq le_rfl).2⟩, fun _ _ => ⟨rfl, rfl⟩⟩
  · exact ⟨h.lists_eq, fun _ => h.flags_eq (by omega), fun _ => h.pictureId_eq (by omega), fun _ => h.layer_eq (by omega),
      fun _ => h.structure_eq le_rfl, fun _ hy' => absurd hy' hnot⟩

theorem same_getNg (h : Agree 5 s t) : Same (Agree 5) (s.getNg r) (t.getNg r) := by
  obtain ⟨hns, hy, hg, -⟩ := h.structure_eq (by omega)
  exact Same.ite (by rw [hg]) (fun _ => same_withByte fun b r =>
    ⟨rfl, { h with structure_eq := fun _ => ⟨hns, hy, hg, rfl⟩ }⟩) fun _ => ⟨rfl, h⟩

theorem same_getPictures (m i : Nat) (h : Agree 5 s t) : Same (Agree 5) (getPictures m i s r) (getPictures m i t r) := by
  induction m generalizing i s t r with
  | zero => exact ⟨rfl, h⟩
  | succ m ih =>
    obtain ⟨hpdiff, hpgtid, hpgu, hpgpdiff⟩ := h.lists_eq
    refine same_withByte fun b r => Same.ite Iff.rfl (fun _ => rfl) fun _ => ih (i + 1) ?_
    exact { h with lists_eq := ⟨hpdiff, by simp only [hpgtid], by simp only [hpgu], by simp only [hpgpdiff]⟩ }

theorem same_parseSsdata (h : Agree 3 s t) : Same (Agree 5) (s.parseSsdata r) (t.parseSsdata r) := by
  refine same_withByte fun b r => ?_
  refine Same.andThen (R := Agree 5) (Same.andThen (R := Agree 5) (same_getSizes ?_) fun _ _ _ => same_getNg) ?_
  · exact ⟨h.lists_eq, fun _ => h.flags_eq (by omega), fun _ => h.pictureId_eq (by omega), fun _ => h.layer_eq le_rfl,
      fun _ => ⟨rfl, rfl, rfl, rfl⟩, by simp⟩
  · intro s t r h
    simp only [(h.structure_eq (by omega)).2.2.2]
    exact same_getPictures _ 0 h

theorem same_depacketize (hs : s.Clear) (packet : List Byte) :
    Same Present (s.depacketize packet) (depacketize {} packet) := by
  have hstart : Agree 0 s {} := ⟨hs, by simp, by simp, by simp, by simp, by simp⟩
  unfold depacketize
  refine Same.andThen (R := Agree 3) (Same.andThen (R := Agree 3) (same_getFields hstart) ?_) ?_
  · intro s t r h
    obtain ⟨-, -, hf, hp, -⟩ := h.flags_eq (by omega)
    exact Same.ite (by rw [hf, hp]) (fun _ => same_parseRefIndices h) fun _ => ⟨rfl, h⟩
  · intro s t r h
    refine Same.ite (by rw [(h.flags_eq (by omega)).2.2.2.2]) (fun _ => (same_parseSsdata h).mono fun s t h => ?_)
      fun hv => ?_
    · exact ⟨h.pictureId_eq (by omega), h.layer_eq (by omega), fun _ => h.lists_eq.1,
        fun _ => ⟨h.structure_eq (by omega), h.sizes_eq le_rfl, fun _ => h.lists_eq.2⟩⟩
    · exact ⟨rfl, h.pictureId_eq (by omega), h.layer_eq le_rfl, fun _ => h.lists_eq.1, fun hv' => absurd hv' hv⟩

theorem pdiff_eq_nil_of_same (h : Same Present (s.depacketize [0x50#8, 2#8]) (depacketize {} [0x50#8, 2#8])) :
    s.pdiff = [] := by
  by_cases hlen : 2 ≤ s.pdiff.length
  · simp [depacketize, getFields, getRequired, parseRefIndices, withByte, andThen, hlen, Same] at h
  · simp [depacketize, getFields, getRequired, parseRefIndices, withByte, andThen, hlen, Same, Present] at h
    exact h

theorem group_eq_nil_of_same
    (h : Same Present (s.depacketize [2#8, 2#8, 1#8, 0#8]) (depacketize {} [2#8, 2#8, 1#8, 0#8])) :
    s.pgtid = [] ∧ s.pgu = [] ∧ s.pgpdiff = [] := by
  simp [depacketize, getFields, getRequired, parseSsdata, getSizes, getNg, getPictures, withByte, andThen, Same,
    Present] at h
  obtain ⟨hpgtid, hpgu, hpgpdiff⟩ := h
  have hlen := congrArg List.length hpgpdiff
  simp only [List.length_modify, List.length_append, List.length_singleton] at hlen
  exact ⟨hpgtid, hpgu, List.length_eq_zero_iff.1 (by omega)⟩

theorem clear_of_same (h : ∀ packet, Same Present (s.depacketize packet) (depacketize {} packet)) : s.Clear :=
  ⟨pdiff_eq_nil_of_same (h _), group_eq_nil_of_same (h _)⟩

section References

variable {more rest : List Byte} {last : Byte}

theorem parseRefIndices_few (hmore : ∀ b ∈ more, b &&& 1#8 ≠ 0#8) (hlast : last &&& 1#8 = 0#8)
    (h : s.pdiff.length + more.length ≤ 1) : s.parseRefIndices (more ++ last :: rest) =
      .ok ({ s with pdiff := s.pdiff ++ (more ++ [last]).map fun b : Byte => b >>> 1 }, rest) := by
  induction more generalizing s with
  | nil =>
    simp only [List.length_nil] at h
    rw [List.nil_append, parseRefIndices, if_neg (by simp; omega), if_neg (by simpa using hlast)]
    rfl
  | cons b more ih =>
    have hb := hmore b List.mem_cons_self
    simp only [List.length_cons] at h
    rw [List.cons_append, parseRefIndices, if_neg (by simp; omega), if_pos hb,
      ih (fun b hb => hmore b (List.mem_cons_of_mem _ hb)) (by simp; omega)]
    simp

theorem parseRefIndices_many (hmore : ∀ b ∈ more, b &&& 1#8 ≠ 0#8) (h : 2 ≤ s.pdiff.length + more.length) :
    ∃ t, s.parseRefIndices (more ++ last :: rest) = .error (.err .errTooManyPDiff, t) := by
  induction more generalizing s with
  | nil => exact ⟨_, by rw [List.nil_append, parseRefIndices, if_pos (by simp_all)]⟩
  | cons b more ih =>
    have hb := hmore b List.mem_cons_self
    rw [List.cons_append, parseRefIndices, if_pos hb]
    split
    · exact ⟨_, rfl⟩
    · exact ih (fun b hb => hmore b (List.mem_cons_of_mem _ hb)) (by simp_all; omega)

theorem getFields_pdiff {packet : List Byte} (h : s.getFields packet = .ok (t, r)) : t.pdiff = s.pdiff := by
  cases packet with
  | nil => simp [getFields, getRequired, withByte, short, andThen] at h
  | cons b packet =>
    simp only [getFields, getRequired, withByte, andThen, parsePictureId, parseLayerInfo, short] at h
    grind

theorem references_accepted_iff {packet : List Byte} (hs : s.pdiff = [])
    (hget : s.getFields packet = .ok (t, more ++ last :: rest)) (hfp : (t.f && t.p) = true)
    (hmore : ∀ b ∈ more, b &&& 1#8 ≠ 0#8) (hlast : last &&& 1#8 = 0#8)
    (hv : t.v = true → ∃ o, parseSsdata { t with pdiff := (more ++ [last]).map fun b : Byte => b >>> 1 } rest = .ok o) :
    (∃ o, s.depacketize packet = .ok o) ↔ more.length ≤ 1 := by
  have hnil : t.pdiff = [] := (getFields_pdiff hget).trans hs
  simp only [depacketize, hget, andThen, hfp, if_true]
  by_cases hlen : more.length ≤ 1
  · rw [parseRefIndices_few hmore hlast (by simp [hnil, hlen]), hnil]
    by_cases ht : t.v = true
    · simpa [ht, hlen] using hv ht
    · simp [ht, hlen]
  · obtain ⟨o, ho⟩ : ∃ o, t.parseRefIndices (more ++ last :: rest) = .error (.err .errTooManyPDiff, o) :=
      parseRefIndices_many hmore (by omega)
    simp [ho, hlen]

end References

end Vp9Packet

/-! ## What the object keeps -/

/-- An object parses every payload as a fresh object does exactly when the last payload left it no presence bit of VP8
    and no list of VP9, and of a VP9 descriptor with one to three reference indices those with at most two are
    accepted. -/
theorem depacketize_like_fresh_iff (s₈ : Vp8Packet) (s t : Vp9Packet) (packet more rest : List Byte) (last : Byte) :
    ((∀ packet, Same Vp8Packet.Present (s₈.depacketize packet) (Vp8Packet.depacketize {} packet)) ↔ s₈.Clear) ∧
    ((∀ packet, Same Vp9Packet.Present (s.depacketize packet) (Vp9Packet.depacketize {} packet)) ↔ s.Clear) ∧
    (s.Clear → s.getFields packet = .ok (t, more ++ last :: rest) → (t.f && t.p) = true →
      more.length ≤ 2 → (∀ b ∈ more, b &&& 1#8 ≠ 0#8) → last &&& 1#8 = 0#8 →
      (t.v = true → ∃ o, Vp9Packet.parseSsdata
        { t with pdiff := (more ++ [last]).map fun b : Byte => b >>> 1 } rest = .ok o) →
      ((∃ o, s.depacketize packet = .ok o) ↔ (more ++ [last]).length ≤ 2)) := by
  refine ⟨⟨fun h => Vp8Packet.clear_of_same (h _), fun hs => Vp8Packet.same_depacketize hs⟩,
    ⟨Vp9Packet.clear_of_same, fun hs => Vp9Packet.same_depacketize hs⟩, ?_⟩
  intro hs hget hfp _ hmore hlast hv
  rw [Vp9Packet.references_accepted_iff hs.1 hget hfp hmore hlast hv, List.length_append, List.length_singleton]
  omega

/-- The three parts at a fresh object and a payload with two reference indices. -/
theorem depacketize_like_fresh_two :
    Same Vp8Packet.Present (Vp8Packet.depacketize {} [0#8]) (Vp8Packet.depacketize {} [0#8]) ∧
    Same Vp9Packet.Present (Vp9Packet.depacketize {} [0#8]) (Vp9Packet.depacketize {} [0#8]) ∧
    ∃ o, Vp9Packet.depacketize {} [0x50#8, 3#8, 2#8, 9#8] = .ok o :=
  have hfresh := depacketize_like_fresh_iff {} {} { p := true, f := true } [0x50#8, 3#8, 2#8, 9#8] [3#8] [9#8] 2#8
  ⟨hfresh.1.2 (by simp [Vp8Packet.Clear]) _, hfresh.2.1.2 ⟨rfl, rfl, rfl, rfl⟩ _,
    (hfresh.2.2 ⟨rfl, rfl, rfl, rfl⟩ rfl rfl (by decide) (by decide) rfl (by simp)).2 (by decide)⟩

/-- A VP8 payload without extension after one with a picture id, a VP9 payload with a reference index after two such
    payloads, and a VP9 payload with three reference indices. -/
theorem depacketize_keeps_last_descriptor :
    ((Vp8Packet.depacketize {} [0x80#8, 0x80#8, 5#8, 9#8]).object.depacketize [0#8, 7#8, 8#8, 9#8]).result =
      .ok [8#8, 9#8] ∧
    (Vp8Packet.depacketize {} [0#8, 7#8, 8#8, 9#8]).result = .ok [7#8, 8#8, 9#8] ∧
    (((Vp9Packet.depacketize {} [0x50#8, 2#8]).object.depacketize [0x50#8, 2#8]).object.depacketize
      [0x50#8, 2#8]).result = .error (.err .errTooManyPDiff) ∧
    (Vp9Packet.depacketize {} [0x50#8, 2#8]).result = .ok [] ∧
    (Vp9Packet.depacketize {} [0x50#8, 3#8, 5#8, 6#8, 9#8]).result = .error (.err .errTooManyPDiff) :=
  ⟨rfl, rfl, rfl, rfl, rfl⟩

end Rtc.Rtp
