import Rtc.Lib.Runs
import Rtc.Rtp.Codec.Payloader
import Rtc.Rtp.Proofs.DescriptorHistory

/-!
# Frames through a payloader and a depacketizer

One depacketizer is fed the payloads of every frame (`feed`). The loop of the payloaders is followed once, for any
descriptor that the depacketizer takes off again.
-/

namespace Rtc.Rtp
open Runs Shared Outcome

section Feed

variable {σ : Type} (depacketize : σ → List Byte → Outcome σ)

/-- What a depacketizer returns for payloads in order. -/
def feed : σ → List (List Byte) → List (Outcome σ)
  | _, [] => []
  | self, p :: ps => depacketize self p :: feed (depacketize self p).object ps

def fed : σ → List (List Byte) → σ := run fun self p => (depacketize self p).object

/-- The payloads of at most `mtu` bytes give back the frame, and after each the depacketizer has the marks of its
    place. -/
def Carries (mtu : Nat) (Mark : (first last : Bool) → σ → Prop) (self : σ) (payloads : List (List Byte))
    (frame : List Byte) : Prop :=
  (∀ p ∈ payloads, p.length ≤ mtu) ∧ ∃ parts : List (σ × List Byte),
    feed depacketize self payloads = parts.map .ok ∧ (parts.map Prod.snd).flatten = frame ∧
    ∀ k x, parts[k]? = some x → Mark (decide (k = 0)) (decide (k + 1 = parts.length)) x.1

variable {depacketize} {size least mtu fuel : Nat} {descriptor : Bool → Bool → List Byte} {b : Bool}
  {rest : List Byte} {self : σ} {I : σ → Prop} {Mark : Bool → Bool → σ → Prop}

@[simp] theorem emitFragments_nil : emitFragments size descriptor fuel b [] = [] := by
  cases fuel <;> rfl

theorem exists_of_mem_emitFragments {p : List Byte} (h : p ∈ emitFragments size descriptor fuel b rest) :
    ∃ f l part, p = descriptor f l ++ part ∧ part.length ≤ size := by
  induction fuel generalizing b rest with
  | zero => simp [emitFragments] at h
  | succ fuel ih =>
    rw [emitFragments] at h
    split at h
    · simp at h
    · rcases List.mem_cons.mp h with rfl | h
      · exact ⟨b, _, rest.take size, rfl, List.length_take_le _ _⟩
      · exact ih h

theorem exists_last_fragment (hrest : rest ≠ []) (hfuel : rest.length ≤ fuel) (hsize : 0 < size) :
    ∃ f part, descriptor f true ++ part ∈ emitFragments size descriptor fuel b rest ∧
      part.length = (rest.length - 1) % size + 1 := by
  have hpos := List.length_pos_iff.mpr hrest
  induction fuel generalizing b rest with
  | zero => omega
  | succ fuel ih =>
    rw [emitFragments, if_neg hrest]
    by_cases hlast : rest.length ≤ size
    · refine ⟨b, rest.take size, by simp [hlast], ?_⟩
      rw [List.length_take, Nat.mod_eq_of_lt (by omega)]
      omega
    · have hdrop : (rest.drop size).length = rest.length - size := List.length_drop
      obtain ⟨f, part, hmem, hlen⟩ := @ih false (rest.drop size) (List.length_pos_iff.mp (by omega)) (by omega) (by omega)
      refine ⟨f, part, List.mem_cons_of_mem _ hmem, ?_⟩
      rw [hlen, hdrop, show rest.length - 1 = rest.length - size - 1 + size by omega, Nat.add_mod_right]

theorem exists_ok_of_feed {ps : List (List Byte)} {parts : List (σ × List Byte)}
    (h : feed depacketize self ps = parts.map .ok) {p : List Byte} (hp : p ∈ ps) :
    ∃ t x, depacketize t p = .ok x := by
  induction ps generalizing self parts with
  | nil => simp at hp
  | cons q ps ih =>
    cases parts with
    | nil => simp [feed] at h
    | cons x parts =>
      simp only [feed, List.map_cons, List.cons.injEq] at h
      rcases List.mem_cons.mp hp with rfl | hp
      · exact ⟨self, x, h.1⟩
      · exact ih h.2 hp

/-- The loop, for a depacketizer that takes the descriptor off fragments of at least `least` bytes. -/
theorem feed_emitFragments (hsize : 0 < size) (hstep : ∀ self f l part, I self → least ≤ part.length →
    ∃ t, depacketize self (descriptor f l ++ part) = .ok (t, part) ∧ I t ∧ Mark f l t)
    (hself : I self) (hfuel : rest.length ≤ fuel) (hrest : rest = [] ∨ least ≤ (rest.length - 1) % size + 1) :
    ∃ parts : List (σ × List Byte),
      feed depacketize self (emitFragments size descriptor fuel b rest) = parts.map .ok ∧
      (parts.map Prod.snd).flatten = rest ∧
      ∀ k x, parts[k]? = some x → Mark (b && decide (k = 0)) (decide (k + 1 = parts.length)) x.1 := by
  induction fuel generalizing self b rest with
  | zero => exact ⟨[], rfl, (List.length_eq_zero_iff.mp (by omega)).symm, by simp⟩
  | succ fuel ih =>
    rw [emitFragments]
    split
    case isTrue hnil => exact ⟨[], rfl, hnil.symm, by simp⟩
    case isFalse hne =>
      have hpos := List.length_pos_iff.mpr hne
      have hmod := Nat.mod_lt (rest.length - 1) hsize
      have hleft := hrest.resolve_left hne
      have hdrop : (rest.drop size).length = rest.length - size := List.length_drop
      have hpart : least ≤ (rest.take size).length := by
        rw [List.length_take]
        by_cases hlast : rest.length ≤ size
        · rw [Nat.mod_eq_of_lt (by omega)] at hleft
          omega
        · omega
      obtain ⟨t, ht, hI, hmark⟩ := hstep self b (decide (rest.length ≤ size)) (rest.take size) hself hpart
      obtain ⟨parts, hfeed, hflat, hmarks⟩ := @ih false (rest.drop size) t hI (by omega) (by
        by_cases hlast : rest.length ≤ size
        · exact .inl (List.length_eq_zero_iff.mp (by omega))
        · rw [show rest.length - 1 = rest.length - size - 1 + size by omega, Nat.add_mod_right] at hleft
          exact .inr (hdrop ▸ hleft))
      have hlast : rest.length ≤ size ↔ parts = [] := by
        constructor
        · intro hle
          rw [List.drop_eq_nil_of_le hle, emitFragments_nil] at hfeed
          exact List.map_eq_nil_iff.mp hfeed.symm
        · rintro rfl
          exact List.drop_eq_nil_iff.mp hflat.symm
      refine ⟨(t, rest.take size) :: parts, ?_, ?_, ?_⟩
      · simp only [feed, ht, object, hfeed, List.map_cons]
      · simp only [List.map_cons, List.flatten_cons, hflat, List.take_append_drop]
      · rintro (_ | k) x hx
        · cases hx
          simpa [hlast] using hmark
        · simpa using hmarks k x hx

theorem carries_emitFragments {frame : List Byte} (hsize : 0 < size)
    (hdescriptor : ∀ f l, (descriptor f l).length + size ≤ mtu)
    (hstep : ∀ self f l part, I self → least ≤ part.length →
    ∃ t, depacketize self (descriptor f l ++ part) = .ok (t, part) ∧ I t ∧ Mark f l t)
    (hself : I self) (hframe : frame = [] ∨ least ≤ (frame.length - 1) % size + 1) :
    Carries depacketize mtu Mark self (emitFragments size descriptor frame.length true frame) frame := by
  refine ⟨fun p hp => ?_, by simpa using feed_emitFragments (b := true) hsize hstep hself le_rfl hframe⟩
  obtain ⟨f, l, part, rfl, hpart⟩ := exists_of_mem_emitFragments hp
  have := hdescriptor f l
  rw [List.length_append]
  omega

theorem carries_nil : Carries depacketize mtu Mark self [] [] := ⟨by simp, [], rfl, rfl, by simp⟩

end Feed

/-! ## VP8 -/

theorem and_pictureId {id : BitVec 16} (h : id.toNat < 2 ^ 15) : id &&& 0x7FFF#16 = id := by
  apply BitVec.eq_of_toNat_eq
  rw [BitVec.toNat_and, show (0x7FFF#16).toNat = 2 ^ 15 - 1 from rfl, Nat.and_two_pow_sub_one_eq_mod, Nat.mod_eq_of_lt h]

theorem append_pictureId (id : BitVec 16) :
    ((id >>> 8).setWidth 8 &&& 0x7F#8) ++ (id &&& 0xFF#16).setWidth 8 = id &&& 0x7FFF#16 := by
  refine BitVec.eq_of_getLsbD_eq fun i hi => ?_
  rw [BitVec.getLsbD_append]
  interval_cases i <;> simp

theorem mask_high (b : Byte) :
    0#8 < (0x80#8 ||| b) &&& 0x80#8 ∧ (0x80#8 ||| b) &&& 0x7F#8 = b &&& 0x7F#8 ∧ ¬ 0#8 < (b &&& 0x7F#8) &&& 0x80#8 := by
  revert b
  decide

namespace Vp8Packet

variable {d : Vp8Packet} {first : Bool} {part : List Byte} {b low : Byte}

/-- The object after a payload with a picture id and nothing else. -/
def withId (d : Vp8Packet) (first : Bool) (id : BitVec 16) : Vp8Packet :=
  { d with
    x := 1#8, n := 0#8, s := if first then 1#8 else 0#8, pid := 0#8, i := 1#8, l := 0#8, t := 0#8, k := 0#8,
    pictureId := id }

theorem depacketize_shortId (hpart : part ≠ []) (hb : ¬ 0#8 < b &&& 0x80#8) :
    d.depacketize ((if first then 0x90#8 else 0x80#8) :: 0x80#8 :: b :: part) =
      .ok (d.withId first (b.setWidth 16), part) := by
  have hlen : ¬ part.length + 1 + 1 + 1 < 4 := by
    have := List.length_pos_iff.mpr hpart
    omega
  cases first <;>
    simp [depacketize, getRequired, getControl, getPictureId, checkLeft, getTl0PicIdx, getTidKeyIdx, withU8, andThen,
      withId, hpart, hlen, hb]

theorem depacketize_longId (hpart : part ≠ []) (hb : 0#8 < b &&& 0x80#8) :
    d.depacketize ((if first then 0x90#8 else 0x80#8) :: 0x80#8 :: b :: low :: part) =
      .ok (d.withId first ((b &&& 0x7F#8) ++ low), part) := by
  cases first <;>
    simp [depacketize, getRequired, getControl, getPictureId, checkLeft, getTl0PicIdx, getTidKeyIdx, withU8, andThen,
      withId, hpart, hb]

end Vp8Packet

namespace Vp8Payloader

variable {self : Vp8Payloader} {d : Vp8Packet} {first last : Bool} {part : List Byte}

/-- What the depacketizer has after a payload of the frame. -/
def Mark (self : Vp8Payloader) (first _ : Bool) (d : Vp8Packet) : Prop :=
  (d.s = 1#8 ↔ first = true) ∧ (self.enablePictureId = true → d.i = 1#8 ∧ d.pictureId = self.pictureId)

theorem depacketize_with_id (h : self.enablePictureId = true) (hpart : 1 ≤ part.length) :
    d.depacketize (self.descriptor first ++ part) = .ok (d.withId first self.pictureId, part) := by
  have hne : part ≠ [] := List.length_pos_iff.mp hpart
  have hstart : (if first then 0x10#8 else 0#8) ||| 0x80#8 = if first then 0x90#8 else 0x80#8 := by
    cases first <;> rfl
  by_cases hsmall : self.usingHeaderSize = 3
  · have hlt : self.pictureId.toNat < 128 := by
      simp only [usingHeaderSize, h, if_true] at hsmall
      split at hsmall
      · bv_omega
      · omega
    have hid : ((self.pictureId &&& 0x7F#16).setWidth 8).setWidth 16 = self.pictureId := by
      apply BitVec.eq_of_toNat_eq
      rw [BitVec.toNat_setWidth, BitVec.toNat_setWidth, BitVec.toNat_and, show (0x7F#16).toNat = 2 ^ 7 - 1 from rfl,
        Nat.and_two_pow_sub_one_eq_mod]
      omega
    simp only [descriptor, h, hsmall, hstart, if_true, List.cons_append, List.nil_append]
    rw [Vp8Packet.depacketize_shortId hne, hid]
    rw [BitVec.setWidth_and]
    exact (mask_high _).2.2
  · have hid := append_pictureId self.pictureId
    rw [and_pictureId self.pictureId_lt] at hid
    simp only [descriptor, h, hsmall, hstart, if_true, if_false, List.cons_append, List.nil_append]
    rw [Vp8Packet.depacketize_longId hne (mask_high _).1, (mask_high _).2.1, BitVec.setWidth_and, BitVec.and_assoc]
    exact congrArg (fun id => Except.ok (d.withId first id, part)) hid

theorem depacketize_without_id (h : self.enablePictureId = false) (hd : d.Clear) :
    d.depacketize (self.descriptor first ++ part) = if part.length < 3 then short d else
      .ok ({ d with x := 0#8, n := 0#8, s := if first then 1#8 else 0#8, pid := 0#8 }, part) := by
  obtain ⟨hi, hl, ht, hk⟩ := hd
  have hlen : part.length + 1 < 4 ↔ part.length < 3 := by omega
  by_cases hpart : part.length < 3
  · simp [descriptor, h, Vp8Packet.depacketize, hpart]
  · have hne : part ≠ [] := by
      rintro rfl
      simp at hpart
    cases first <;>
      simp [descriptor, h, hlen, hpart, hne, hi, hl, ht, hk, Vp8Packet.depacketize, Vp8Packet.getRequired,
        Vp8Packet.getControl, Vp8Packet.getPictureId, Vp8Packet.checkLeft, Vp8Packet.getTl0PicIdx,
        Vp8Packet.getTidKeyIdx, withU8, andThen]

theorem length_descriptor (self : Vp8Payloader) (first : Bool) :
    (self.descriptor first).length = self.usingHeaderSize := by
  unfold descriptor usingHeaderSize
  grind

theorem payload_eq {mtu : Nat} {frame : List Byte} (hmtu : self.usingHeaderSize < mtu) (hframe : frame ≠ []) :
    (self.payload mtu frame).1.pictureId = nextPictureId self.pictureId ∧ (self.payload mtu frame).2 =
      emitFragments (mtu - self.usingHeaderSize) (fun first _ => self.descriptor first) frame.length true frame := by
  have hlen := List.length_pos_iff.mpr hframe
  rw [payload, if_neg (by simp [hframe]; omega), if_neg (by omega)]
  exact ⟨rfl, rfl⟩

/-- A payloader and the depacketizer that is fed its payloads, after one more frame. -/
def step (s : Vp8Payloader × Vp8Packet) (call : Nat × List Byte) : Vp8Payloader × Vp8Packet :=
  ((s.1.payload call.1 call.2).1, fed Vp8Packet.depacketize s.2 (s.1.payload call.1 call.2).2)

/-- The frame is carried under the picture id of the payloader, which goes on by one. -/
def Carried (s : Vp8Payloader × Vp8Packet) (mtu : Nat) (frame : List Byte) : Prop :=
  Carries Vp8Packet.depacketize mtu s.1.Mark s.2 (s.1.payload mtu frame).2 frame ∧
    (frame = [] → (s.1.payload mtu frame).1 = s.1) ∧
    (frame ≠ [] → (s.1.payload mtu frame).1.pictureId.toNat = (s.1.pictureId.toNat + 1) % 2 ^ 15)

/-- Without picture ids no control bit is ever set. -/
structure Quiet (enable : Bool) (s : Vp8Payloader × Vp8Packet) : Prop where
  enable_eq : s.1.enablePictureId = enable
  clear : enable = false → s.2.Clear

variable {s : Vp8Payloader × Vp8Packet} {enable : Bool} {mtu : Nat}

theorem Quiet.step (h : Quiet enable s) (call : Nat × List Byte) : Quiet enable (step s call) := by
  obtain ⟨mtu, frame⟩ := call
  have hsnd : (s.1.payload mtu frame).1.enablePictureId = enable ∧
      ∀ p ∈ (s.1.payload mtu frame).2, ∃ f part, p = s.1.descriptor f ++ part := by
    rw [payload]
    split
    · exact ⟨h.enable_eq, by simp⟩
    split
    · exact ⟨h.enable_eq, by simp⟩
    · refine ⟨h.enable_eq, fun p hp => ?_⟩
      obtain ⟨f, _, part, rfl, -⟩ := exists_of_mem_emitFragments hp
      exact ⟨f, part, rfl⟩
  refine ⟨hsnd.1, fun hoff => ?_⟩
  refine List.foldlRecOn _ _ (h.clear hoff) fun d hd p hp => ?_
  obtain ⟨f, part, rfl⟩ := hsnd.2 p hp
  rw [depacketize_without_id (h.enable_eq.trans hoff) hd]
  split <;> exact hd

theorem Quiet.carried_iff (h : Quiet enable s) (hmtu : s.1.usingHeaderSize < mtu) (frame : List Byte) :
    Carried s mtu frame ↔ enable = true ∨ frame = [] ∨ 3 ≤ (frame.length - 1) % (mtu - 1) + 1 := by
  by_cases hframe : frame = []
  · subst hframe
    have hpayload : s.1.payload mtu [] = (s.1, []) := if_pos (.inl rfl)
    simp [Carried, hpayload, carries_nil]
  obtain ⟨hid, hpayloads⟩ := payload_eq hmtu hframe
  have hnext := toNat_nextPictureId s.1.pictureId
  rw [Carried, hid, hpayloads]
  simp only [hframe, hnext, not_false_eq_true, ne_eq, false_or, and_true, true_implies, false_implies]
  have hdescriptor : ∀ f _l : Bool, (s.1.descriptor f).length + (mtu - s.1.usingHeaderSize) ≤ mtu := by
    intro f _
    rw [length_descriptor]
    omega
  cases enable with
  | true =>
    simp only [true_or, iff_true]
    refine carries_emitFragments (I := fun _ => True) (by omega) hdescriptor (fun d f l part _ hpart => ?_) trivial
      (.inr (Nat.le_add_left 1 _))
    refine ⟨_, depacketize_with_id h.enable_eq hpart, trivial, ?_, fun _ => ⟨rfl, rfl⟩⟩
    cases f <;> simp [Vp8Packet.withId]
  | false =>
    have hone : s.1.usingHeaderSize = 1 := by simp [usingHeaderSize, h.enable_eq]
    simp only [hone, Bool.false_eq_true, false_or]
    constructor
    · rintro ⟨-, parts, hfeed, -⟩
      obtain ⟨f, part, hmem, hlen⟩ := exists_last_fragment hframe le_rfl (show 0 < mtu - 1 by omega)
      obtain ⟨d, x, hx⟩ := exists_ok_of_feed hfeed hmem
      rw [← hlen]
      by_contra hshort
      rw [Vp8Packet.depacketize, if_pos (by rw [List.length_append, length_descriptor, hone]; omega)] at hx
      cases hx
    · intro hlast
      refine carries_emitFragments (I := Vp8Packet.Clear) (by omega) (hone ▸ hdescriptor) (fun d f l part hd hpart => ?_)
        (h.clear rfl) (.inr hlast)
      refine ⟨_, (depacketize_without_id h.enable_eq hd).trans (if_neg (by omega)), hd, ?_, by simp [h.enable_eq]⟩
      cases f <;> simp

end Vp8Payloader

/-! ## VP9 -/

namespace Vp9Payloader

/-- What the depacketizer has after a payload of the frame. -/
def Mark (id : BitVec 16) (first last : Bool) (d : Vp9Packet) : Prop :=
  d.b = first ∧ d.e = last ∧ d.i = true ∧ d.pictureId = id &&& 0x7FFF#16

theorem depacketize_extendedId (d : Vp9Packet) (first last : Bool) {b : Byte} (hb : b &&& 0x80#8 ≠ 0#8) (low : Byte)
    (part : List Byte) :
    d.depacketize ((0x90#8 ||| (if first then 0x08#8 else 0#8) ||| (if last then 0x04#8 else 0#8)) :: b :: low :: part) =
      .ok ({ d with
        i := true, p := false, l := false, f := true, b := first, e := last, v := false, z := false,
        pictureId := (b &&& 0x7F#8) ++ low }, part) := by
  cases first <;> cases last <;>
    simp [Vp9Packet.depacketize, Vp9Packet.getFields, Vp9Packet.getRequired, Vp9Packet.parsePictureId, withByte, andThen, hb]

theorem depacketize_descriptor (id : BitVec 16) (d : Vp9Packet) (first last : Bool) (part : List Byte) :
    ∃ t, d.depacketize (descriptor id first last ++ part) = .ok (t, part) ∧ Mark id first last t := by
  obtain ⟨hset, hclear, -⟩ := mask_high ((id >>> 8).setWidth 8)
  rw [BitVec.or_comm] at hset hclear
  refine ⟨_, depacketize_extendedId d first last (fun h => ?_) _ part, rfl, rfl, rfl, ?_⟩
  · rw [h] at hset
    exact absurd hset (by decide)
  · rw [← append_pictureId, ← hclear]

/-- A payloader and the depacketizer that is fed its payloads, after one more frame. -/
def step (s : Vp9Payloader × Vp9Packet) (call : Nat × List Byte) : Vp9Payloader × Vp9Packet :=
  match s.1.payload call.1 call.2 with
  | .ok (p, payloads) => (p, fed Vp9Packet.depacketize s.2 payloads)
  | .error _ => s

/-- The frame is carried under the picture id of the payloader, which goes on by one. -/
def Carried (s : Vp9Payloader × Vp9Packet) (mtu : Nat) (frame : List Byte) : Prop :=
  ∃ p payloads, s.1.payload mtu frame = .ok (p, payloads) ∧
    Carries Vp9Packet.depacketize mtu (Mark s.1.currentId) s.2 payloads frame ∧ (frame = [] → p = s.1) ∧
    (frame ≠ [] → p.currentId.toNat = (s.1.currentId.toNat + 1) % 2 ^ 15)

variable {s : Vp9Payloader × Vp9Packet} {mtu : Nat}

theorem currentId_step (h : s.1.currentId ≠ 0xFFFF#16) (call : Nat × List Byte) :
    (step s call).1.currentId ≠ 0xFFFF#16 := by
  have hnext : nextPictureId s.1.currentId ≠ 0xFFFF#16 := by
    intro heq
    have hid := toNat_nextPictureId s.1.currentId
    rw [heq] at hid
    simp at hid
    omega
  simp only [step, payload]
  split_ifs
  · exact h
  · exact h
  · exact hnext

theorem carried (h : s.1.currentId ≠ 0xFFFF#16) (hmtu : 3 < mtu) (frame : List Byte) : Carried s mtu frame := by
  by_cases hframe : frame = []
  · subst hframe
    exact ⟨s.1, [], if_pos (.inl rfl), carries_nil, fun _ => rfl, fun hne => absurd rfl hne⟩
  have hlen := List.length_pos_iff.mpr hframe
  have hpayload := show s.1.payload mtu frame = _ by
    rw [payload, if_neg (by simp [hframe]; omega), if_neg (by omega), if_neg h]
  refine ⟨_, _, hpayload, ?_, fun hnil => absurd hnil hframe, fun _ => toNat_nextPictureId _⟩
  refine carries_emitFragments (I := fun _ => True) (by omega) (fun _ _ => ?_) (fun d f l part _ _ => ?_) trivial
    (.inr (Nat.zero_le _))
  · simp [descriptor]
    omega
  · obtain ⟨t, ht, hmark⟩ := depacketize_descriptor s.1.currentId d f l part
    exact ⟨t, ht, trivial, hmark⟩

end Vp9Payloader

/-! ## Frames -/

/-- After every history, VP8 frames are carried exactly if the descriptor has the picture id or the last fragment has
    at least three bytes, and all VP9 frames exactly if the first picture id can be counted up. -/
theorem frames_carried_iff (enable : Bool) (history : List (Nat × List Byte)) (mtu : Nat) (frame : List Byte)
    (initial : BitVec 16) :
    ((run Vp8Payloader.step (.new enable, {}) history).1.usingHeaderSize < mtu →
      (Vp8Payloader.Carried (run Vp8Payloader.step (.new enable, {}) history) mtu frame ↔
        enable = true ∨ frame = [] ∨ 3 ≤ (frame.length - 1) % (mtu - 1) + 1)) ∧
    ((∀ (history : List (Nat × List Byte)) (mtu : Nat) (frame : List Byte), 3 < mtu →
        Vp9Payloader.Carried (run Vp9Payloader.step ({ initialPictureId := initial }, {}) history) mtu frame) ↔
      initial ≠ 0xFFFF#16) := by
  refine ⟨fun hmtu => ?_, fun h heq => ?_, fun h history mtu frame hmtu => ?_⟩
  · have hstart : Vp8Payloader.Quiet enable (.new enable, {}) := ⟨rfl, fun _ => by simp [Vp8Packet.Clear]⟩
    exact (inv_run_of_step Vp8Payloader.step (fun _ call hs => hs.step call) hstart history).carried_iff hmtu frame
  · subst heq
    obtain ⟨p, payloads, hpayload, -⟩ := h [] 4 [0#8] (by decide)
    cases hpayload
  · have hstart : (({ initialPictureId := initial }, {}) : Vp9Payloader × Vp9Packet).1.currentId ≠ 0xFFFF#16 := h
    have hrun := inv_run_of_step (I := fun s : Vp9Payloader × Vp9Packet => s.1.currentId ≠ 0xFFFF#16) Vp9Payloader.step
      (fun _ call hs => Vp9Payloader.currentId_step hs call) hstart history
    exact Vp9Payloader.carried hrun hmtu frame

/-- A second frame with picture ids. -/
theorem frames_carried_second :
    Vp8Payloader.Carried (run Vp8Payloader.step (.new true, {}) [(9, [1#8, 2#8])]) 5 [3#8, 4#8, 5#8] ∧
    Vp9Payloader.Carried (run Vp9Payloader.step ({ initialPictureId := 0x7FFF#16 }, {}) [(9, [1#8])]) 5 [3#8, 4#8, 5#8] :=
  have hcarried := frames_carried_iff true [(9, [1#8, 2#8])] 5 [3#8, 4#8, 5#8] 0x7FFF#16
  ⟨(hcarried.1 (by decide)).2 (.inl rfl), hcarried.2.2 (by decide) _ 5 _ (by decide)⟩

/-- A frame of one byte is not read back, and the payloader panics on a first picture id of `0xFFFF`. -/
theorem frame_of_one_byte_lost :
    feed Vp8Packet.depacketize {} ((Vp8Payloader.new false).payload 1200 [7#8]).2 = [short {}] ∧
    Vp9Payloader.payload { initialPictureId := 0xFFFF#16 } 1200 [7#8] = .error .panicked :=
  ⟨rfl, rfl⟩

end Rtc.Rtp
