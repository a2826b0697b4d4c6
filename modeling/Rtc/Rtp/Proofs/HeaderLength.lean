import Mathlib.Data.List.GetD
import Rtc.Rtp.Header

/-!
# Where the RTP header ends

`marshal_size` of a parsed header is computed from the elements the parser kept. It is the length that the header
declares when the elements and the padding fill the block; then the parser has read nothing past the declared end.
-/

namespace Rtc.Rtp
open Bytes Shared

/-- The length the header at the start of `raw` declares. -/
def headerLength (raw : List Byte) : Nat :=
  csrcEnd raw + if extensionBit raw then 4 + extensionLength raw else 0

/-- The bytes of the block that a walk accounts for, with `overhead` bytes before each payload. -/
def ExtensionScan.blockSize (overhead : Nat) (scan : ExtensionScan) : Nat :=
  (scan.extensions.map fun e => e.payload.length).sum + scan.extensions.length * overhead +
    scan.extensionsPadding

namespace ExtensionScan

@[simp] theorem blockSize_pad (overhead : Nat) (scan : ExtensionScan) :
    scan.pad.blockSize overhead = scan.blockSize overhead + 1 := by
  simp only [blockSize, pad]
  omega

@[simp] theorem blockSize_push (overhead : Nat) (e : Extension) (scan : ExtensionScan) :
    (scan.push e).blockSize overhead = scan.blockSize overhead + e.payload.length + overhead := by
  simp only [blockSize, push, List.map_cons, List.sum_cons, List.length_cons]
  rw [Nat.add_mul, Nat.one_mul]
  omega

def withRest (scan : ExtensionScan) (rest : List Byte) : ExtensionScan := { scan with rest := rest }

end ExtensionScan

theorem map_eq_ok {α β ε : Type} {r : Except ε α} {f : α → β} {b : β} (h : r.map f = .ok b) :
    ∃ a, r = .ok a ∧ f a = b := by
  cases r with
  | error e => cases h
  | ok a => exact ⟨a, rfl, Except.ok.inj h⟩

/-! ## The rounds of a walk -/

theorem oneByteExtensions_pad (fuel left : Nat) (raw : List Byte) :
    oneByteExtensions (fuel + 1) (left + 1) (0#8 :: raw) =
      (oneByteExtensions fuel left raw).map ExtensionScan.pad := rfl

variable {x : Byte} {hdr : List Byte}

theorem oneByteExtensions_reserved (fuel left : Nat) (raw : List Byte) (hx : x ≠ 0#8)
    (hres : x >>> 4 = extensionIdReserved) :
    oneByteExtensions (fuel + 1) (left + 1) (x :: raw) = .ok ⟨[], 0, raw⟩ := by
  unfold oneByteExtensions
  rw [if_neg (Nat.succ_ne_zero left)]
  exact (if_neg hx).trans (if_pos hres)

/-- The payload length an element of a one-byte block announces. -/
def oneByteLen (x : Byte) : Nat := ((x &&& 0x0F#8) + 1#8).toNat

theorem oneByteExtensions_element (fuel left : Nat) (raw : List Byte) (hx : x ≠ 0#8)
    (hres : x >>> 4 ≠ extensionIdReserved) :
    oneByteExtensions (fuel + 1) (left + 1) (x :: raw) =
      if raw.length < oneByteLen x then .error .errHeaderSizeInsufficientForExtension
      else (oneByteExtensions fuel (left - oneByteLen x) (raw.drop (oneByteLen x))).map
        (ExtensionScan.push ⟨x >>> 4, raw.take (oneByteLen x)⟩) := by
  rw [oneByteExtensions, if_neg (Nat.succ_ne_zero left)]
  exact (if_neg hx).trans (if_neg hres)

theorem twoByteExtensions_pad (fuel left : Nat) (raw : List Byte) :
    twoByteExtensions (fuel + 1) (left + 1) (0#8 :: raw) =
      (twoByteExtensions fuel left raw).map ExtensionScan.pad := rfl

theorem twoByteExtensions_last (fuel : Nat) (raw : List Byte) (hx : x ≠ 0#8) :
    twoByteExtensions (fuel + 1) 1 (x :: raw) =
      .error .errHeaderSizeInsufficientForExtension := by
  rw [twoByteExtensions, if_neg Nat.one_ne_zero]
  exact (if_neg hx).trans (if_pos rfl)

theorem twoByteExtensions_element (fuel left : Nat) (y : Byte) (raw : List Byte)
    (hx : x ≠ 0#8) : twoByteExtensions (fuel + 1) (left + 2) (x :: y :: raw) =
      if raw.length < y.toNat then .error .errHeaderSizeInsufficientForExtension
      else (twoByteExtensions fuel (left - y.toNat) (raw.drop y.toNat)).map
        (ExtensionScan.push ⟨x, raw.take y.toNat⟩) := by
  rw [twoByteExtensions, if_neg (Nat.succ_ne_zero (left + 1))]
  exact (if_neg hx).trans (if_neg (Nat.succ_ne_zero left))

/-! ## The fixed part -/

theorem csrcCount_append (h : 0 < hdr.length) (a : List Byte) : csrcCount (hdr ++ a) = csrcCount hdr := by
  unfold csrcCount
  rw [List.getD_append _ _ _ _ h]

theorem csrcEnd_append (h : 0 < hdr.length) (a : List Byte) : csrcEnd (hdr ++ a) = csrcEnd hdr := by
  unfold csrcEnd
  rw [csrcCount_append h]

theorem extensionBit_append (h : 0 < hdr.length) (a : List Byte) :
    extensionBit (hdr ++ a) = extensionBit hdr := by
  unfold extensionBit
  rw [List.getD_append _ _ _ _ h]

theorem readU16_append {i : Nat} (h : i + 2 ≤ hdr.length) (a : List Byte) :
    readU16 (hdr ++ a) i = readU16 hdr i := by
  unfold readU16
  rw [List.getD_append _ _ _ _ (by omega), List.getD_append _ _ _ _ (by omega)]

theorem readU32_append {i : Nat} (h : i + 4 ≤ hdr.length) (a : List Byte) :
    readU32 (hdr ++ a) i = readU32 hdr i := by
  unfold readU32
  rw [List.getD_append _ _ _ _ (by omega), List.getD_append _ _ _ _ (by omega),
    List.getD_append _ _ _ _ (by omega), List.getD_append _ _ _ _ (by omega)]

theorem extensionLength_append (h : csrcEnd hdr + 4 ≤ hdr.length)
    (a : List Byte) : extensionLength (hdr ++ a) = extensionLength hdr := by
  unfold extensionLength
  rw [csrcEnd_append (by omega), readU16_append (by omega)]

theorem headerOf_append (h : csrcEnd hdr ≤ hdr.length) (a : List Byte)
    (profile : BitVec 16) (scan : ExtensionScan) :
    headerOf (hdr ++ a) profile scan = headerOf hdr profile scan := by
  have hlen : 12 ≤ hdr.length := by unfold csrcEnd at h; omega
  unfold headerOf
  rw [extensionBit_append (by omega), csrcCount_append (by omega), readU16_append (by omega),
    readU32_append (by omega), readU32_append (by omega), List.getD_append _ _ _ _ (by omega),
    List.getD_append _ _ _ _ (by omega)]
  congr 1
  refine List.map_congr_left fun i hi => readU32_append ?_ a
  rw [List.mem_range] at hi
  unfold csrcEnd at h
  omega

theorem marshalSize_headerOf (raw : List Byte) (profile : BitVec 16) (scan : ExtensionScan) :
    (headerOf raw profile scan).marshalSize = csrcEnd raw + if extensionBit raw then
      4 + (scan.blockSize (Header.elementOverhead profile) + 3) / 4 * 4 else 0 := by
  have hext : (headerOf raw profile scan).extension = extensionBit raw := rfl
  have hcsrc : (headerOf raw profile scan).csrc.length = csrcCount raw := by
    rw [headerOf, List.length_map, List.length_range]
  unfold Header.marshalSize Header.marshalSizeFor csrcEnd
  rw [hext, hcsrc]
  by_cases hbit : extensionBit raw = true
  · rw [if_pos hbit, if_pos hbit, if_pos hbit]
    rfl
  · rw [if_neg hbit, if_neg hbit]
    rfl

theorem headerLength_le {raw rest : List Byte} {header : Header} (h : Header.unmarshal raw = .ok (header, rest)) : headerLength raw ≤ raw.length := by
  unfold Header.unmarshal at h
  unfold headerLength
  split_ifs at h ⊢ <;> omega

end Rtc.Rtp
