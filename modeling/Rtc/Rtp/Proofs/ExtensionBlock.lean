import Rtc.Rtp.Proofs.HeaderLength

/-!
# The elements of an extension block

The two element forms of an extension block, with one relation for what either walk of the parser does. An element
fits its form if its bytes are read back as this element; the walk yields only such elements.
-/

namespace Rtc.Rtp
open Bytes Shared

inductive ElementForm where
  | oneByte
  | twoByte
  deriving DecidableEq, Repr

namespace ElementForm

variable {f : ElementForm} {left : Nat} {raw : List Byte} {s : ExtensionScan}

def profile : ElementForm → BitVec 16
  | oneByte => extensionProfileOneByte
  | twoByte => extensionProfileTwoByte

def overhead : ElementForm → Nat
  | oneByte => 1
  | twoByte => 2

def bytes : ElementForm → Extension → List Byte
  | oneByte => Header.oneByteElement
  | twoByte => Header.twoByteElement

/-- The walk of the parser over elements of this form. -/
def scan : ElementForm → (fuel left : Nat) → List Byte → Except Error ExtensionScan
  | oneByte => oneByteExtensions
  | twoByte => twoByteExtensions

/-- The elements that the form can carry. With the id 0 the first byte of a one-byte element has to
    hold a length that is not written as zero. -/
def Fits : ElementForm → Extension → Prop
  | oneByte, e =>
    e.id < 15#8 ∧ (1 ≤ e.payload.length ∧ e.payload.length ≤ 16) ∧
      ¬ (e.id = 0#8 ∧ e.payload.length = 1)
  | twoByte, e => e.id ≠ 0#8 ∧ e.payload.length ≤ 255

@[simp] theorem length_bytes (f : ElementForm) (e : Extension) :
    (f.bytes e).length = f.overhead + e.payload.length := by
  cases f with
  | oneByte => exact Nat.add_comm _ 1
  | twoByte => exact Nat.add_comm _ 2

theorem overhead_pos (f : ElementForm) : 0 < f.overhead := by
  cases f <;> decide

theorem Fits.length_le {e : Extension} (h : f.Fits e) : f.overhead + e.payload.length ≤ 257 := by
  cases f with
  | oneByte =>
    obtain ⟨-, ⟨-, hlen⟩, -⟩ := h
    rw [overhead]
    omega
  | twoByte =>
    obtain ⟨-, hlen⟩ := h
    rw [overhead]
    omega

/-! ## The first byte of a one-byte element -/

/-- The byte before a payload of `len` bytes. -/
def oneByteTag (id : Byte) (len : Nat) : Byte := (id <<< 4) ||| (BitVec.ofNat 8 len - 1#8)

theorem oneByteTag_spec {id : Byte} {len : Nat} (hid : id < 15#8) (hpos : 1 ≤ len) (hlen : len ≤ 16)
    (hzero : ¬ (id = 0#8 ∧ len = 1)) :
    oneByteTag id len ≠ 0#8 ∧ oneByteTag id len >>> 4 = id ∧ oneByteLen (oneByteTag id len) = len := by
  have hall : ∀ id : Byte, id < 15#8 → ∀ n < 17, 1 ≤ n → ¬ (id = 0#8 ∧ n = 1) →
      oneByteTag id n ≠ 0#8 ∧ oneByteTag id n >>> 4 = id ∧ oneByteLen (oneByteTag id n) = n := by
    decide +kernel
  exact hall id hid len (by omega) hpos hzero

theorem oneByteTag_of_byte {b : Byte} (hzero : b ≠ 0#8) (hres : b >>> 4 ≠ extensionIdReserved) :
    oneByteTag (b >>> 4) (oneByteLen b) = b ∧ b >>> 4 < 15#8 ∧
      (1 ≤ oneByteLen b ∧ oneByteLen b ≤ 16) ∧ ¬ (b >>> 4 = 0#8 ∧ oneByteLen b = 1) := by
  revert b
  decide +kernel

/-! ## The walk -/

theorem scan_pad (f : ElementForm) (fuel left : Nat) (raw : List Byte) :
    f.scan (fuel + 1) (left + 1) (0#8 :: raw) = (f.scan fuel left raw).map ExtensionScan.pad := by
  cases f <;> rfl

theorem scan_zero (f : ElementForm) (fuel : Nat) (raw : List Byte) : f.scan fuel 0 raw = .ok ⟨[], 0, raw⟩ := by
  cases f <;> cases fuel <;> rfl

/-- What the walk over the `left` bytes of a block does. -/
inductive Walk (f : ElementForm) : Nat → List Byte → ExtensionScan → Prop where
  | done (raw : List Byte) : Walk f 0 raw ⟨[], 0, raw⟩
  | pad {left : Nat} {raw : List Byte} {s : ExtensionScan} (h : Walk f left raw s) :
      Walk f (left + 1) (0#8 :: raw) s.pad
  | reserved {left : Nat} {b : Byte} {raw : List Byte} (hform : f = oneByte)
      (hb : b >>> 4 = extensionIdReserved) : Walk f (left + 1) (b :: raw) ⟨[], 0, raw⟩
  | element {left : Nat} {e : Extension} {raw : List Byte} {s : ExtensionScan} (he : f.Fits e)
      (hleft : f.overhead ≤ left) (h : Walk f (left - (f.overhead + e.payload.length)) raw s) :
      Walk f left (f.bytes e ++ raw) (s.push e)

theorem scan_round {fuel : Nat} {b : Byte} (hb : b ≠ 0#8) (hraw : left ≤ raw.length)
    (h : f.scan (fuel + 1) (left + 1) (b :: raw) = .ok s) :
    (f = oneByte ∧ b >>> 4 = extensionIdReserved ∧ s = ⟨[], 0, raw⟩) ∨
      ∃ e rest s', f.Fits e ∧ f.overhead ≤ left + 1 ∧ b :: raw = f.bytes e ++ rest ∧ s = s'.push e ∧
        f.scan fuel (left + 1 - (f.overhead + e.payload.length)) rest = .ok s' := by
  cases f with
  | oneByte =>
    change oneByteExtensions _ _ _ = _ at h
    by_cases hres : b >>> 4 = extensionIdReserved
    · rw [oneByteExtensions_reserved _ _ _ hb hres] at h
      exact .inl ⟨rfl, hres, (Except.ok.inj h).symm⟩
    rw [oneByteExtensions_element _ _ _ hb hres] at h
    split at h
    case isTrue => cases h
    case isFalse hlen =>
      obtain ⟨s', hs, rfl⟩ := map_eq_ok h
      obtain ⟨htag, hfits⟩ := oneByteTag_of_byte hb hres
      have hpayload : (raw.take (oneByteLen b)).length = oneByteLen b := List.length_take_of_le (by omega)
      refine .inr ⟨⟨b >>> 4, raw.take (oneByteLen b)⟩, raw.drop (oneByteLen b), s', ?_, Nat.le_add_left 1 left, ?_, rfl, ?_⟩
      · rwa [Fits, hpayload]
      · rw [bytes, Header.oneByteElement, hpayload, ← oneByteTag, htag, List.cons_append, List.take_append_drop]
      · rw [hpayload, overhead, Nat.add_comm 1, Nat.add_sub_add_right]
        exact hs
  | twoByte =>
    change twoByteExtensions _ _ _ = _ at h
    cases left with
    | zero =>
      rw [Nat.zero_add, twoByteExtensions_last _ _ hb] at h
      cases h
    | succ left =>
      cases raw with
      | nil => simp at hraw
      | cons len raw =>
        rw [twoByteExtensions_element _ _ _ _ hb] at h
        split at h
        case isTrue => cases h
        case isFalse hlen =>
          obtain ⟨s', hs, rfl⟩ := map_eq_ok h
          have hlt := len.isLt
          have hpayload : (raw.take len.toNat).length = len.toNat := List.length_take_of_le (by omega)
          refine .inr ⟨⟨b, raw.take len.toNat⟩, raw.drop len.toNat, s', ⟨hb, by rw [hpayload]; omega⟩,
            Nat.le_add_left 2 left, ?_, rfl, ?_⟩
          · rw [bytes, Header.twoByteElement, hpayload, BitVec.ofNat_toNat, BitVec.setWidth_eq, List.cons_append,
              List.cons_append, List.take_append_drop]
          · rw [hpayload, overhead, Nat.add_comm 2, show left + 1 + 1 = left + 2 from rfl, Nat.add_sub_add_right]
            exact hs

theorem walk_of_scan {fuel : Nat} (hfuel : left ≤ fuel) (hraw : left ≤ raw.length)
    (h : f.scan fuel left raw = .ok s) : Walk f left raw s := by
  induction fuel generalizing left raw s with
  | zero =>
    obtain rfl : left = 0 := by omega
    rw [scan_zero] at h
    obtain rfl := Except.ok.inj h
    exact .done raw
  | succ fuel ih =>
    cases left with
    | zero =>
      rw [scan_zero] at h
      obtain rfl := Except.ok.inj h
      exact .done raw
    | succ left =>
      cases raw with
      | nil => simp at hraw
      | cons b raw =>
        rw [List.length_cons] at hraw
        by_cases hzero : b = 0#8
        · subst hzero
          rw [scan_pad] at h
          obtain ⟨s', hs, rfl⟩ := map_eq_ok h
          exact .pad (ih (by omega) (by omega) hs)
        rcases scan_round hzero (by omega) h with ⟨rfl, hres, rfl⟩ | ⟨e, rest, s', he, hleft, heq, rfl, hs⟩
        · exact .reserved rfl hres
        · have hlen := congrArg List.length heq
          have hpos := f.overhead_pos
          rw [List.length_cons, List.length_append, length_bytes] at hlen
          rw [heq]
          exact .element he hleft (ih (by omega) (by omega) hs)

/-! ### What a walk reads -/

def blockSize (f : ElementForm) (s : ExtensionScan) : Nat := s.blockSize f.overhead

@[simp] theorem blockSize_empty (f : ElementForm) (rest : List Byte) : f.blockSize ⟨[], 0, rest⟩ = 0 := by
  simp [blockSize, ExtensionScan.blockSize]

@[simp] theorem blockSize_pad (f : ElementForm) (s : ExtensionScan) :
    f.blockSize s.pad = f.blockSize s + 1 := s.blockSize_pad _

@[simp] theorem blockSize_push (f : ElementForm) (e : Extension) (s : ExtensionScan) :
    f.blockSize (s.push e) = f.blockSize s + (f.overhead + e.payload.length) := by
  rw [blockSize, ExtensionScan.blockSize_push, blockSize]
  omega

theorem Walk.fits (h : Walk f left raw s) : ∀ e ∈ s.extensions, f.Fits e := by
  induction h with
  | done raw => exact nofun
  | pad _ ih => exact ih
  | reserved _ _ => exact nofun
  | element he _ _ ih =>
    intro e hmem
    rcases List.mem_cons.mp hmem with rfl | hmem
    · exact he
    · exact ih e hmem

theorem Walk.blockSize_le (h : Walk f left raw s) : f.blockSize s ≤ left + 256 := by
  induction h with
  | done raw => simp
  | pad _ ih =>
    rw [blockSize_pad]
    omega
  | reserved _ _ => simp
  | @element left e raw s he hleft h ih =>
    have hle := he.length_le
    have hpos := f.overhead_pos
    rw [blockSize_push]
    by_cases hin : f.overhead + e.payload.length ≤ left
    · omega
    · rw [Nat.sub_eq_zero_of_le (by omega)] at h
      cases h with
      | done raw =>
        rw [blockSize_empty]
        omega
      | element he' hleft' _ => omega

end ElementForm

/-! ## The pieces of a block -/

inductive Piece where
  | pad
  | element (e : Extension)
  deriving DecidableEq, Repr

namespace Piece

def bytes (f : ElementForm) : Piece → List Byte
  | pad => [0#8]
  | element e => f.bytes e

def Fits (f : ElementForm) : Piece → Prop
  | pad => True
  | element e => f.Fits e

def element? : Piece → Option Extension
  | pad => none
  | element e => some e

end Piece

/-- What a walk over the pieces yields, before the bytes `rest`. -/
def scanOf (pieces : List Piece) (rest : List Byte) : ExtensionScan where
  extensions := pieces.filterMap Piece.element?
  extensionsPadding := pieces.count .pad
  rest := rest

@[simp] theorem scanOf_pad (pieces : List Piece) (rest : List Byte) :
    scanOf (.pad :: pieces) rest = (scanOf pieces rest).pad := by
  simp only [scanOf, ExtensionScan.pad, List.count_cons_self]
  rfl

@[simp] theorem scanOf_element (e : Extension) (pieces : List Piece) (rest : List Byte) :
    scanOf (.element e :: pieces) rest = (scanOf pieces rest).push e := by
  simp only [scanOf, ExtensionScan.push, List.count_cons_of_ne (by simp : Piece.element e ≠ .pad)]
  rfl

namespace ElementForm

variable {f : ElementForm}

theorem length_flatMap_bytes (pieces : List Piece) (rest : List Byte) :
    (pieces.flatMap (Piece.bytes f)).length = f.blockSize (scanOf pieces rest) := by
  induction pieces with
  | nil => exact (f.blockSize_empty rest).symm
  | cons piece pieces ih =>
    rw [List.flatMap_cons, List.length_append, ih]
    cases piece with
    | pad =>
      rw [scanOf_pad, blockSize_pad, Piece.bytes, List.length_singleton, Nat.add_comm]
    | element e =>
      rw [scanOf_element, blockSize_push, Piece.bytes, length_bytes, Nat.add_comm]

theorem Walk.pieces {left : Nat} {raw : List Byte} {s : ExtensionScan} (h : Walk f left raw s) :
    ∃ pieces : List Piece, (∀ p ∈ pieces, p.Fits f) ∧ s = scanOf pieces s.rest ∧
      (raw = pieces.flatMap (Piece.bytes f) ++ s.rest ∨
        ∃ b, raw = pieces.flatMap (Piece.bytes f) ++ b :: s.rest) := by
  induction h with
  | done raw => exact ⟨[], nofun, rfl, .inl rfl⟩
  | @pad left raw s _ ih =>
    obtain ⟨pieces, hfits, hs, hraw⟩ := ih
    refine ⟨.pad :: pieces, ?_, ?_, ?_⟩
    · intro p hp
      rcases List.mem_cons.mp hp with rfl | hp
      · trivial
      · exact hfits p hp
    · rw [scanOf_pad, hs]
      rfl
    · rw [List.flatMap_cons, Piece.bytes]
      rcases hraw with hraw | ⟨b, hraw⟩
      · exact .inl (congrArg (List.cons 0#8) hraw)
      · exact .inr ⟨b, congrArg (List.cons 0#8) hraw⟩
  | @reserved left b raw _ _ => exact ⟨[], nofun, rfl, .inr ⟨b, rfl⟩⟩
  | @element left e raw s he _ _ ih =>
    obtain ⟨pieces, hfits, hs, hraw⟩ := ih
    refine ⟨.element e :: pieces, ?_, ?_, ?_⟩
    · intro p hp
      rcases List.mem_cons.mp hp with rfl | hp
      · exact he
      · exact hfits p hp
    · rw [scanOf_element, hs]
      rfl
    · simp only [List.flatMap_cons, Piece.bytes, List.append_assoc]
      rcases hraw with hraw | ⟨b, hraw⟩
      · exact .inl (congrArg (f.bytes e ++ ·) hraw)
      · exact .inr ⟨b, congrArg (f.bytes e ++ ·) hraw⟩

theorem scan_element {e : Extension} (he : f.Fits e) {fuel left : Nat} (raw : List Byte) :
    f.scan (fuel + 1) (f.overhead + e.payload.length + left) (f.bytes e ++ raw) =
      (f.scan fuel left raw).map (ExtensionScan.push e) := by
  obtain ⟨id, payload⟩ := e
  cases f with
  | oneByte =>
    obtain ⟨hid, ⟨hpos, hlen⟩, hne⟩ := he
    dsimp only at hid hpos hlen hne ⊢
    obtain ⟨hzero, hshift, htag⟩ := oneByteTag_spec hid hpos hlen hne
    have hres : oneByteTag id payload.length >>> 4 ≠ extensionIdReserved := by
      rw [hshift]
      exact BitVec.ne_of_lt hid
    rw [show oneByte.overhead + payload.length + left = payload.length + left + 1 by
      rw [overhead]; omega]
    change oneByteExtensions _ _ (oneByteTag id payload.length :: (payload ++ raw)) = _
    rw [oneByteExtensions_element _ _ _ hzero hres, htag, hshift,
      if_neg (by rw [List.length_append]; omega), List.take_left, List.drop_left,
      Nat.add_sub_cancel_left]
    rfl
  | twoByte =>
    obtain ⟨hid, hlen⟩ := he
    dsimp only at hid hlen ⊢
    have htoNat : (BitVec.ofNat 8 payload.length).toNat = payload.length := by
      rw [BitVec.toNat_ofNat]
      exact Nat.mod_eq_of_lt (by omega)
    rw [show twoByte.overhead + payload.length + left = payload.length + left + 2 by
      rw [overhead]; omega]
    change twoByteExtensions _ _ (id :: BitVec.ofNat 8 payload.length :: (payload ++ raw)) = _
    rw [twoByteExtensions_element _ _ _ _ hid, htoNat, if_neg (by rw [List.length_append]; omega),
      List.take_left, List.drop_left, Nat.add_sub_cancel_left]
    rfl

theorem scan_pieces {pieces : List Piece} (h : ∀ p ∈ pieces, p.Fits f) (rest : List Byte) {fuel : Nat}
    (hfuel : (pieces.flatMap (Piece.bytes f)).length ≤ fuel) :
    f.scan fuel (pieces.flatMap (Piece.bytes f)).length
      (pieces.flatMap (Piece.bytes f) ++ rest) = .ok (scanOf pieces rest) := by
  induction pieces generalizing fuel with
  | nil => exact f.scan_zero fuel rest
  | cons piece pieces ih =>
    have hrest : ∀ p ∈ pieces, p.Fits f := fun p hp => h p (List.mem_cons_of_mem _ hp)
    have hfits := h piece List.mem_cons_self
    rw [List.flatMap_cons, List.length_append] at hfuel ⊢
    rw [List.append_assoc]
    obtain ⟨fuel, rfl⟩ : ∃ n, fuel = n + 1 := by
      refine ⟨fuel - 1, ?_⟩
      have hpos : 0 < (piece.bytes f).length := by
        cases piece with
        | pad => exact Nat.one_pos
        | element e =>
          have := f.overhead_pos
          rw [Piece.bytes, length_bytes]
          omega
      omega
    cases piece with
    | pad =>
      rw [show (Piece.pad.bytes f).length = 1 from rfl] at hfuel ⊢
      rw [Nat.add_comm 1, show Piece.pad.bytes f = [0#8] from rfl, List.singleton_append, scan_pad,
        ih hrest (by omega), scanOf_pad]
      rfl
    | element e =>
      rw [Piece.bytes, length_bytes] at hfuel ⊢
      have := f.overhead_pos
      rw [scan_element hfits, ih hrest (by omega), scanOf_element]
      rfl

/-- A walk over a block that it does not overrun does not depend on what follows the block. -/
theorem Walk.scan_append {left : Nat} {raw blk a : List Byte} {s : ExtensionScan} (h : Walk f left raw s)
    (hraw : raw = blk ++ a) (hblk : blk.length = left) (hsize : f.blockSize s ≤ left) (b : List Byte) {fuel : Nat}
    (hfuel : left ≤ fuel) : ∃ rest, f.scan fuel left (blk ++ b) = .ok (s.withRest rest) := by
  induction h generalizing blk fuel with
  | done raw => exact ⟨blk ++ b, f.scan_zero fuel _⟩
  | @pad left raw s _ ih =>
    obtain ⟨y, blk, rfl⟩ := List.exists_cons_of_length_eq_add_one hblk
    obtain ⟨rfl, rfl⟩ := List.cons.inj hraw
    obtain ⟨n, rfl⟩ : ∃ n, fuel = n + 1 := ⟨fuel - 1, by omega⟩
    rw [blockSize_pad] at hsize
    obtain ⟨rest, hrest⟩ := ih rfl (Nat.succ.inj hblk) (by omega) (Nat.le_of_succ_le_succ hfuel)
    exact ⟨rest, by rw [List.cons_append, scan_pad, hrest]; rfl⟩
  | @reserved left c raw hform hc =>
    obtain ⟨y, blk, rfl⟩ := List.exists_cons_of_length_eq_add_one hblk
    obtain ⟨rfl, rfl⟩ := List.cons.inj hraw
    obtain ⟨n, rfl⟩ : ∃ n, fuel = n + 1 := ⟨fuel - 1, by omega⟩
    subst hform
    refine ⟨blk ++ b, oneByteExtensions_reserved _ _ _ ?_ hc⟩
    rintro rfl
    exact absurd hc (by decide)
  | @element left e raw s he hleft _ ih =>
    have hpos := f.overhead_pos
    rw [blockSize_push] at hsize
    obtain ⟨blk, rfl⟩ : f.bytes e <+: blk :=
      List.prefix_of_prefix_length_le ⟨raw, hraw⟩ ⟨a, rfl⟩ (by rw [length_bytes]; omega)
    rw [List.append_assoc, List.append_cancel_left_eq] at hraw
    rw [List.length_append, length_bytes] at hblk
    obtain ⟨n, rfl⟩ : ∃ n, fuel = n + 1 := ⟨fuel - 1, by omega⟩
    obtain ⟨rest, hrest⟩ := @ih blk hraw (by omega) (by omega) n (by omega)
    refine ⟨rest, ?_⟩
    rw [← hblk, Nat.add_sub_cancel_left] at hrest
    rw [List.append_assoc, ← hblk, scan_element he, hrest]
    rfl

end ElementForm

namespace Header

theorem scanExtensions_form (f : ElementForm) (n : Nat) (raw : List Byte) :
    scanExtensions f.profile n raw = f.scan n n raw := by
  cases f <;> rfl

@[simp] theorem elementOverhead_form (f : ElementForm) : elementOverhead f.profile = f.overhead := by
  cases f <;> rfl

theorem profile_cases (profile : BitVec 16) : (∃ f : ElementForm, profile = f.profile) ∨
    (profile ≠ extensionProfileOneByte ∧ profile ≠ extensionProfileTwoByte) := by
  by_cases hone : profile = extensionProfileOneByte
  · exact .inl ⟨.oneByte, hone⟩
  by_cases htwo : profile = extensionProfileTwoByte
  · exact .inl ⟨.twoByte, htwo⟩
  exact .inr ⟨hone, htwo⟩

end Header

theorem scanExtensions_append {profile : BitVec 16} {blk a : List Byte} {scan : ExtensionScan} (b : List Byte)
    (h : scanExtensions profile blk.length (blk ++ a) = .ok scan)
    (hsize : scan.blockSize (Header.elementOverhead profile) ≤ blk.length) :
    ∃ rest, scanExtensions profile blk.length (blk ++ b) = .ok (scan.withRest rest) := by
  rcases Header.profile_cases profile with ⟨f, rfl⟩ | ⟨hone, htwo⟩
  · rw [Header.scanExtensions_form] at h ⊢
    rw [Header.elementOverhead_form] at hsize
    exact (ElementForm.walk_of_scan le_rfl (by simp) h).scan_append rfl rfl hsize b le_rfl
  · unfold scanExtensions at h ⊢
    rw [if_neg hone, if_neg htwo, if_neg (by rw [List.length_append]; omega)] at h ⊢
    obtain rfl := Except.ok.inj h
    refine ⟨b, ?_⟩
    rw [List.take_left, List.take_left, List.drop_left]
    rfl

/-- A header whose `marshal_size` is its declared length is parsed from the declared bytes alone. -/
theorem unmarshal_append {hdr a rest : List Byte} {header : Header} (b : List Byte)
    (h : Header.unmarshal (hdr ++ a) = .ok (header, rest))
    (hlen : hdr.length = headerLength (hdr ++ a)) (hsize : header.marshalSize = headerLength (hdr ++ a)) :
    ∃ rest', Header.unmarshal (hdr ++ b) = .ok (header, rest') := by
  have hcsrc : csrcEnd (hdr ++ a) ≤ hdr.length := by rw [hlen]; unfold headerLength; omega
  have hpos : 0 < hdr.length := by unfold csrcEnd at hcsrc; omega
  unfold headerLength at hlen hsize
  simp only [csrcEnd_append hpos, extensionBit_append hpos] at hlen hsize hcsrc
  unfold Header.unmarshal at h ⊢
  simp only [csrcEnd_append hpos, extensionBit_append hpos, List.length_append] at h ⊢
  have h12 : 12 ≤ hdr.length := by unfold csrcEnd at hcsrc; omega
  rw [if_neg (by omega), if_neg (by omega)] at h ⊢
  cases hbit : extensionBit hdr with
  | false =>
    simp only [hbit, Bool.false_eq_true, if_false] at h ⊢
    obtain ⟨rfl, rfl⟩ := Prod.mk.inj (Except.ok.inj h)
    refine ⟨(hdr ++ b).drop (csrcEnd hdr), ?_⟩
    rw [headerOf_append hcsrc, headerOf_append hcsrc]
    rfl
  | true =>
    simp only [hbit, if_true] at h hlen hsize ⊢
    have hfour : csrcEnd hdr + 4 ≤ hdr.length := by omega
    rw [extensionLength_append hfour] at h hlen hsize ⊢
    rw [if_neg (by omega), if_neg (by omega), readU16_append (by omega)] at h ⊢
    obtain ⟨scan, hscan, hpair⟩ := map_eq_ok h
    obtain ⟨rfl, rfl⟩ := Prod.mk.inj hpair
    rw [headerOf_append hcsrc, marshalSize_headerOf, if_pos hbit] at hsize
    have hblk : (hdr.drop (csrcEnd hdr + 4)).length = extensionLength hdr := by
      rw [List.length_drop]
      omega
    rw [List.drop_append_of_le_length hfour, ← hblk] at hscan
    obtain ⟨rest', hrest⟩ := scanExtensions_append b hscan (by omega)
    refine ⟨rest', ?_⟩
    rw [List.drop_append_of_le_length hfour, ← hblk, hrest, headerOf_append hcsrc]
    simp only [Except.map, headerOf_append hcsrc]
    rfl

end Rtc.Rtp
