import Rtc.Sctp.Proofs.WireHeader

/-!
# Parsing a packet without a panic

Every reader of a parameter and of a chunk stays within its bytes, but for the one of error causes, which cuts out as
many bytes as a length field says. An INIT at the start is read before its length is looked at.
-/

namespace Rtc.Sctp.Wire
open Shared Parse

/-! ## Parameters -/

namespace ParamHeader

variable {raw : List Byte}

theorem unmarshal_of_length (h : 4 ≤ raw.length) : unmarshal raw =
    if lengthField raw < 4 ∨ raw.length < lengthField raw then fail .errParamHeaderTooShort
    else .ok ⟨Bytes.readU16 raw 0, Bytes.readU16 raw 2 - 4#16⟩ := by
  match raw, h with
  | a :: b :: c :: d :: rest, _ => rfl

theorem safe_unmarshal (raw : List Byte) : Safe (unmarshal raw) := by
  by_cases h : raw.length < 4
  · rw [unmarshal, if_pos h]
    exact safe_fail _
  · rw [unmarshal_of_length (not_lt.mp h)]
    split
    · exact safe_fail _
    · exact safe_ok _

theorem of_unmarshal {header : ParamHeader} (h : unmarshal raw = .ok header) :
    4 + header.valueLength.toNat ≤ raw.length := by
  by_cases hlen : raw.length < 4
  · rw [unmarshal, if_pos hlen] at h
    cases h
  · rw [unmarshal_of_length (not_lt.mp hlen)] at h
    split at h
    case isTrue => cases h
    case isFalse hfits =>
      cases h
      have hfour : 4 ≤ (Bytes.readU16 raw 2).toNat := by
        unfold lengthField at hfits
        omega
      unfold lengthField at hfits
      rw [toNat_sub_four hfour]
      omega

end ParamHeader

namespace Param

variable (raw)

theorem safe_unmarshalBytes : Safe (unmarshalBytes raw) := by
  refine (ParamHeader.safe_unmarshal raw).bind fun header hheader => ?_
  exact safe_slice (Nat.le_add_right _ _) (ParamHeader.of_unmarshal hheader)

theorem safe_unmarshalChunkList : Safe (unmarshalChunkList raw) := by
  refine (ParamHeader.safe_unmarshal raw).bind fun header hheader => ?_
  refine .guard fun _ => ?_
  exact safe_slice (Nat.le_add_right _ _) (ParamHeader.of_unmarshal hheader)

theorem safe_availableAlgorithms (reader : List Byte) : Safe (availableAlgorithms reader) := by
  induction reader using availableAlgorithms.induct with
  | case1 a b reader algorithm haccepted ih =>
    rw [availableAlgorithms, if_pos haccepted]
    exact ih.bind fun _ _ => safe_ok _
  | case2 a b reader algorithm hrejected =>
    rw [availableAlgorithms, if_neg hrejected]
    exact safe_fail _
  | case3 reader hshort =>
    rw [availableAlgorithms]
    · exact safe_ok _
    · exact hshort

theorem safe_unmarshalOutgoingResetRequest : Safe (unmarshalOutgoingResetRequest raw) := by
  refine (ParamHeader.safe_unmarshal raw).bind fun header hheader => ?_
  have hfits := ParamHeader.of_unmarshal hheader
  refine .guard fun hlen => ?_
  refine .guard fun _ => ?_
  refine safe_slice_bind (Nat.le_add_right _ _) hfits fun reader hreader => ?_
  refine takes_getU32.safe_bind (by omega) fun _ reader₁ hreader₁ => ?_
  refine takes_getU32.safe_bind (by omega) fun _ reader₂ hreader₂ => ?_
  refine takes_getU32.safe_bind (by omega) fun _ reader₃ hreader₃ => ?_
  refine (takes_getU16.getMany _).safe_bind (by omega) fun _ _ _ => ?_
  exact safe_ok _

theorem safe_unmarshalReconfigResponse : Safe (unmarshalReconfigResponse raw) := by
  refine (ParamHeader.safe_unmarshal raw).bind fun header hheader => ?_
  have hfits := ParamHeader.of_unmarshal hheader
  refine .guard fun hlen => ?_
  refine .guard fun _ => ?_
  refine safe_slice_bind (Nat.le_add_right _ _) hfits fun reader hreader => ?_
  refine takes_getU32.safe_bind (by omega) fun _ reader₁ hreader₁ => ?_
  refine takes_getU32.safe_bind (by omega) fun _ reader₂ _ => ?_
  exact safe_ok _

theorem safe_unmarshal (typ : BitVec 16) (raw : List Byte) : Safe (unmarshal typ raw) := by
  have hbytes := safe_unmarshalBytes raw
  refine .ite (fun _ => (ParamHeader.safe_unmarshal raw).bind fun _ _ => safe_ok _) fun _ => ?_
  refine .ite (fun _ => safe_map.mpr hbytes) fun _ => ?_
  refine .ite (fun _ => safe_map.mpr hbytes) fun _ => ?_
  refine .ite (fun _ => hbytes.bind fun reader _ => safe_map.mpr (safe_availableAlgorithms reader))
    fun _ => ?_
  refine .ite (fun _ => safe_map.mpr (safe_unmarshalChunkList raw)) fun _ => ?_
  refine .ite (fun _ => safe_map.mpr hbytes) fun _ => ?_
  refine .ite (fun _ => safe_map.mpr hbytes) fun _ => ?_
  refine .ite (fun _ => safe_map.mpr (safe_unmarshalOutgoingResetRequest raw)) fun _ => ?_
  refine .ite (fun _ => safe_map.mpr (safe_unmarshalReconfigResponse raw)) fun _ => ?_
  exact .dite (fun _ => safe_map.mpr hbytes) fun _ => safe_fail _

theorem safe_build : Safe (build raw) := by
  refine .guard fun hlen => ?_
  refine safe_slice_bind (Nat.zero_le _) (by omega) fun reader hreader => ?_
  exact takes_getU16.safe_bind (by omega) fun typ _ _ => safe_unmarshal typ raw

end Param

/-! ## Chunks -/

/-- The bytes of one chunk: as many as its length field says. -/
structure Exact (buf : List Byte) : Prop where
  four_le : 4 ≤ buf.length
  field_eq : lengthField buf = buf.length

namespace Exact

variable {buf : List Byte}

theorem headerFits (h : Exact buf) : HeaderFits buf where
  four_le := h.four_le
  four_le_field := h.field_eq ▸ h.four_le
  field_le := h.field_eq.le
  padding _ b hb := by
    rw [h.field_eq, List.drop_length] at hb
    exact absurd hb List.not_mem_nil

theorem unmarshal (h : Exact buf) : ChunkHeader.unmarshal buf = .ok (headerOf buf) :=
  (ChunkHeader.unmarshal_eq_ok buf _).mpr ⟨h.headerFits, rfl⟩

theorem valueLength (h : Exact buf) : 4 + (headerOf buf).valueLength.toNat = buf.length :=
  h.headerFits.valueLength.trans h.field_eq

end Exact

/-- An error cause of the list that `bs` starts with says that it is longer than what is left. -/
inductive CauseOverruns : List Byte → Prop
  | here {bs : List Byte} (hlen : 4 ≤ bs.length) (hfield : bs.length < lengthField bs) : CauseOverruns bs
  | later {bs : List Byte} (hfour : 4 ≤ lengthField bs) (hfield : lengthField bs ≤ bs.length)
      (hrest : CauseOverruns (bs.drop (lengthField bs))) : CauseOverruns bs

variable {bs buf raw : List Byte}

theorem causeOverruns_drop (hfour : 4 ≤ lengthField bs) (hfield : lengthField bs ≤ bs.length) :
    CauseOverruns (bs.drop (lengthField bs)) ↔ CauseOverruns bs := by
  constructor
  · exact .later hfour hfield
  · intro h
    cases h with
    | here _ hover => omega
    | later _ _ hrest => exact hrest

theorem CauseOverruns.four_le (h : CauseOverruns bs) : 4 ≤ bs.length := by
  cases h with
  | here hlen _ => exact hlen
  | later hfour hfield _ => omega

namespace ErrorCause

theorem unmarshal_of_length {buf : List Byte} (h : 4 ≤ buf.length) : unmarshal buf =
    if lengthField buf < 4 then fail .errErrorCauseTooSmall
    else (do
      let raw ← slice buf 4 (4 + (lengthField buf - 4))
      .ok ⟨Bytes.readU16 buf 0, raw⟩) := by
  match buf, h with
  | a :: b :: c :: d :: rest, _ => rfl

theorem safe_unmarshalAll {raw : List Byte} {rounds offset : Nat} (hoffset : offset ≤ raw.length)
    (hrounds : raw.length < rounds + offset) :
    Safe (unmarshalAll raw raw.length rounds offset) ↔ ¬ CauseOverruns (raw.drop offset) := by
  induction rounds generalizing offset with
  | zero => omega
  | succ rounds ih =>
    have hdrop : (raw.drop offset).length = raw.length - offset := List.length_drop
    rw [unmarshalAll]
    split
    case isFalse hshort =>
      refine ⟨fun _ hover => ?_, fun _ => safe_ok _⟩
      have hfour := hover.four_le
      omega
    case isTrue hfour =>
      have hbuf : (slice raw offset raw.length : Parse Error _) = .ok (raw.drop offset) := by
        rw [slice_eq hoffset le_rfl, List.take_of_length_le hdrop.le]
      rw [hbuf, ok_bind, unmarshal_of_length (by omega)]
      have hrest : raw.drop (offset + lengthField (raw.drop offset)) =
          (raw.drop offset).drop (lengthField (raw.drop offset)) := List.drop_drop.symm
      generalize raw.drop offset = bs at hdrop hrest ⊢
      by_cases hsmall : lengthField bs < 4
      · rw [if_pos hsmall, fail_bind]
        refine ⟨fun _ hover => ?_, fun _ => safe_fail _⟩
        cases hover with
        | here hlen hfield => omega
        | later hfield _ _ => omega
      · rw [if_neg hsmall]
        by_cases hover : bs.length < lengthField bs
        · have hpanic : (slice bs 4 (4 + (lengthField bs - 4)) : Parse Error _) = .error .panicked :=
            if_neg (by omega)
          rw [hpanic]
          exact iff_of_false not_safe_panicked fun h => h (.here (by omega) hover)
        · have hslice : (slice bs 4 (4 + (lengthField bs - 4)) : Parse Error _) =
              .ok ((bs.drop 4).take (lengthField bs - 4)) := by
            rw [slice_eq (by omega) (by omega), Nat.add_sub_cancel_left]
          have hlength : length ⟨Bytes.readU16 bs 0, (bs.drop 4).take (lengthField bs - 4)⟩ =
              lengthField bs := by
            rw [length, List.length_take, List.length_drop]
            omega
          rw [hslice, ok_bind, ok_bind, hlength]
          refine safe_bind_ok.trans ((ih (by omega) (by omega)).trans ?_)
          rw [hrest, causeOverruns_drop (by omega) (by omega)]

end ErrorCause

theorem safe_unmarshalCauses (h : Exact buf) {ct : Byte} (hct : (headerOf buf).typ = ct) (mismatch : Error) :
    Safe (unmarshalCauses ct mismatch buf) ↔ ¬ CauseOverruns (buf.drop 4) := by
  rw [unmarshalCauses, h.unmarshal, ok_bind, if_neg (not_not.mpr hct), h.valueLength]
  exact ErrorCause.safe_unmarshalAll h.four_le (by omega)

theorem safe_unmarshalEmpty (ct : Byte) (mismatch : Error) (c : Chunk) (raw : List Byte) :
    Safe (unmarshalEmpty ct mismatch c raw) :=
  (ChunkHeader.safe_unmarshal raw).bind fun _ _ => .ite (fun _ => safe_fail _) fun _ => safe_ok c

theorem ChunkInit.safe_unmarshalParams {rounds offset : Nat}
    (hrounds : raw.length < rounds + offset) (hfuel : 0 < rounds) :
    Safe (unmarshalParams raw raw.length rounds offset) := by
  induction rounds generalizing offset with
  | zero => omega
  | succ rounds ih =>
    refine .ite (fun hmore => ?_) fun _ => safe_ok _
    refine safe_slice_bind (by omega) le_rfl fun buf _ => ?_
    refine (Param.safe_build buf).bind fun p _ => ?_
    exact safe_bind_ok.mpr (ih (by omega) (by omega))

theorem ChunkInit.safe_unmarshal (h : Exact buf) : Safe (ChunkInit.unmarshal buf) := by
  have hvalue := h.valueLength
  rw [ChunkInit.unmarshal, h.unmarshal, ok_bind]
  refine .guard fun _ => ?_
  refine .guard fun _ => ?_
  refine .guard fun hlen => ?_
  refine .guard fun _ => ?_
  refine safe_slice_bind (Nat.le_add_right _ _) hvalue.le fun reader hreader => ?_
  refine takes_getU32.safe_bind (by omega) fun _ reader₁ hreader₁ => ?_
  refine takes_getU32.safe_bind (by omega) fun _ reader₂ hreader₂ => ?_
  refine takes_getU16.safe_bind (by omega) fun _ reader₃ hreader₃ => ?_
  refine takes_getU16.safe_bind (by omega) fun _ reader₄ hreader₄ => ?_
  refine takes_getU32.safe_bind (by omega) fun _ reader₅ _ => ?_
  rw [hvalue]
  exact safe_bind_ok.mpr (safe_unmarshalParams (by omega) (by omega))

namespace Chunk

variable {buf : List Byte}

theorem safe_unmarshalCookieEcho (h : Exact buf) : Safe (unmarshalCookieEcho buf) := by
  rw [unmarshalCookieEcho, h.unmarshal, ok_bind]
  refine .guard fun _ => ?_
  exact safe_map.mpr (safe_slice (Nat.le_add_right _ _) h.valueLength.le)

theorem safe_unmarshalHeartbeat (h : Exact buf) : Safe (unmarshalHeartbeat buf) := by
  rw [unmarshalHeartbeat, h.unmarshal, ok_bind]
  refine .guard fun _ => ?_
  refine .guard fun _ => ?_
  refine safe_slice_bind (Nat.le_add_right _ _) h.valueLength.le fun part _ => ?_
  refine (Param.safe_build part).bind fun p _ => ?_
  exact .guard fun _ => safe_ok _

theorem safe_unmarshalPayloadData (h : Exact buf) : Safe (unmarshalPayloadData buf) := by
  have hvalue := h.valueLength
  rw [unmarshalPayloadData, h.unmarshal, ok_bind]
  refine .guard fun _ => ?_
  refine .guard fun _ => ?_
  refine .guard fun hlen => ?_
  refine safe_slice_bind (Nat.le_add_right _ _) hvalue.le fun reader hreader => ?_
  refine takes_getU32.safe_bind (by omega) fun _ reader₁ hreader₁ => ?_
  refine takes_getU16.safe_bind (by omega) fun _ reader₂ hreader₂ => ?_
  refine takes_getU16.safe_bind (by omega) fun _ reader₃ hreader₃ => ?_
  refine takes_getU32.safe_bind (by omega) fun _ reader₄ _ => ?_
  exact safe_slice_bind (by omega) hvalue.le fun _ _ => safe_ok _

theorem takes_getPair : Takes 4 getPair
  | _ :: _ :: _ :: _ :: rest, _ => ⟨_, rest, rfl, rfl⟩

theorem safe_unmarshalSelectiveAck (h : Exact buf) : Safe (unmarshalSelectiveAck buf) := by
  have hvalue := h.valueLength
  rw [unmarshalSelectiveAck, h.unmarshal, ok_bind]
  refine .guard fun _ => ?_
  refine .guard fun hlen => ?_
  refine .guard fun _ => ?_
  refine safe_slice_bind (Nat.le_add_right _ _) hvalue.le fun reader hreader => ?_
  refine takes_getU32.safe_bind (by omega) fun _ reader₁ hreader₁ => ?_
  refine takes_getU32.safe_bind (by omega) fun _ reader₂ hreader₂ => ?_
  refine takes_getU16.safe_bind (by omega) fun gaps reader₃ hreader₃ => ?_
  refine takes_getU16.safe_bind (by omega) fun dups reader₄ hreader₄ => ?_
  -- The blocks and the duplicates counted by the header lie in what is left of the value.
  refine .guard fun hcount => ?_
  refine .guard fun _ => ?_
  refine (takes_getPair.getMany _).safe_bind (by omega) fun _ reader₅ hreader₅ => ?_
  exact (takes_getU32.getMany _).safe_bind (by omega) fun _ _ _ => safe_ok _

theorem safe_unmarshalReconfig (h : Exact buf) : Safe (unmarshalReconfig buf) := by
  have hvalue := h.valueLength
  rw [unmarshalReconfig, h.unmarshal, ok_bind]
  refine .guard fun _ => ?_
  refine safe_slice_bind (Nat.le_add_right _ _) hvalue.le fun partA _ => ?_
  refine (Param.safe_build partA).bind fun paramA _ => ?_
  refine .ite (fun hmore => ?_) fun _ => safe_ok _
  refine safe_slice_bind hmore.le hvalue.le fun partB _ => ?_
  exact (Param.safe_build partB).bind fun _ _ => safe_ok _

theorem safe_unmarshalForwardTsnStream (part : List Byte) : Safe (unmarshalForwardTsnStream part) := by
  refine .guard fun hlen => ?_
  obtain ⟨x, rest, hpair, _⟩ := takes_getPair _ (not_lt.mp hlen)
  rw [hpair]
  exact safe_ok _

theorem safe_unmarshalForwardTsnStreams {rounds offset remaining : Nat}
    (hremaining : offset + remaining = buf.length) (hrounds : remaining < rounds) :
    Safe (unmarshalForwardTsnStreams buf buf.length rounds offset remaining) := by
  induction rounds generalizing offset remaining with
  | zero => omega
  | succ rounds ih =>
    refine .ite (fun hmore => ?_) fun _ => safe_ok _
    refine safe_slice_bind (by omega) le_rfl fun part hpart => ?_
    refine (safe_unmarshalForwardTsnStream part).bind fun s hs => ?_
    have hfour : 4 ≤ part.length := by
      by_contra hshort
      rw [unmarshalForwardTsnStream, if_pos (by omega)] at hs
      cases hs
    exact safe_bind_ok.mpr (ih (by omega) (by omega))

theorem safe_unmarshalForwardTsn (h : Exact buf) : Safe (unmarshalForwardTsn buf) := by
  have hvalue := h.valueLength
  rw [unmarshalForwardTsn, h.unmarshal, ok_bind]
  refine .guard fun _ => ?_
  refine .guard fun hlen => ?_
  rw [hvalue]
  refine safe_slice_bind h.four_le le_rfl fun reader hreader => ?_
  refine takes_getU32.safe_bind (by omega) fun _ _ _ => ?_
  exact safe_bind_ok.mpr (safe_unmarshalForwardTsnStreams (by omega) (by omega))

theorem safe_unmarshalShutdown (h : Exact buf) : Safe (unmarshalShutdown buf) := by
  rw [unmarshalShutdown, h.unmarshal, ok_bind]
  refine .guard fun _ => ?_
  refine .guard fun hlen => ?_
  refine .guard fun _ => ?_
  refine safe_slice_bind (Nat.le_add_right _ _) h.valueLength.le fun reader hreader => ?_
  exact takes_getU32.safe_bind (by omega) fun _ _ _ => safe_ok _

/-- The bytes of one chunk are read without a panic, unless they are an ABORT or an ERROR with a cause that
    overruns the chunk. -/
theorem safe_unmarshal_iff (h : Exact buf) : Safe (unmarshal (headerOf buf).typ buf) ↔
    ((headerOf buf).typ = ctAbort ∨ (headerOf buf).typ = ctError → ¬ CauseOverruns (buf.drop 4)) := by
  by_cases habort : (headerOf buf).typ = ctAbort
  · have heq : unmarshal (headerOf buf).typ buf =
        .abort <$> unmarshalCauses ctAbort .errChunkTypeNotAbort buf := by
      rw [habort]
      rfl
    rw [heq, safe_map, safe_unmarshalCauses h habort]
    exact ⟨fun hno _ => hno, fun hno => hno (.inl habort)⟩
  by_cases herror : (headerOf buf).typ = ctError
  · have heq : unmarshal (headerOf buf).typ buf =
        .error <$> unmarshalCauses ctError .errChunkTypeNotCt buf := by
      rw [herror]
      rfl
    rw [heq, safe_map, safe_unmarshalCauses h herror]
    exact ⟨fun hno _ => hno, fun hno => hno (.inr herror)⟩
  refine iff_of_true ?_ fun hct => absurd hct (not_or.mpr ⟨habort, herror⟩)
  refine .ite (fun _ => safe_map.mpr (ChunkInit.safe_unmarshal h)) fun _ => ?_
  refine .ite (fun _ => safe_map.mpr (ChunkInit.safe_unmarshal h)) fun _ => ?_
  refine .ite (fun hct => absurd hct habort) fun _ => ?_
  refine .ite (fun _ => safe_unmarshalCookieEcho h) fun _ => ?_
  refine .ite (fun _ => safe_unmarshalEmpty _ _ _ _) fun _ => ?_
  refine .ite (fun _ => safe_unmarshalHeartbeat h) fun _ => ?_
  refine .ite (fun _ => safe_unmarshalPayloadData h) fun _ => ?_
  refine .ite (fun _ => safe_unmarshalSelectiveAck h) fun _ => ?_
  refine .ite (fun _ => safe_unmarshalReconfig h) fun _ => ?_
  refine .ite (fun _ => safe_unmarshalForwardTsn h) fun _ => ?_
  refine .ite (fun hct => absurd hct herror) fun _ => ?_
  refine .ite (fun _ => safe_unmarshalShutdown h) fun _ => ?_
  refine .ite (fun _ => safe_unmarshalEmpty _ _ _ _) fun _ => ?_
  exact .ite (fun _ => safe_unmarshalEmpty _ _ _ _) fun _ => safe_fail _

end Chunk

/-! ## Packets -/

theorem readU16_take {n i : Nat} (h : i + 2 ≤ n) : Bytes.readU16 (bs.take n) i = Bytes.readU16 bs i := by
  simp only [Bytes.readU16, List.getD_eq_getElem?_getD]
  rw [List.getElem?_take_of_lt (by omega), List.getElem?_take_of_lt (by omega)]

theorem index_eq {offset i : Nat} (h : offset + i < raw.length) :
    (index raw (offset + i) : Parse Error _) = .ok ((raw.drop offset).getD i 0#8) := by
  rw [index, List.getElem?_eq_getElem h, List.getD_eq_getElem?_getD, List.getElem?_drop,
    List.getElem?_eq_getElem h]
  rfl

namespace PartialDecode

variable {remaining buf : List Byte} {offset : Nat}

theorem sliceChunk_of_length (h : offset + 4 ≤ remaining.length) : sliceChunk remaining offset =
    if lengthField (remaining.drop offset) < 4 then fail .errChunkHeaderInvalidLength
    else if remaining.length < offset + lengthField (remaining.drop offset) then
      fail .errChunkHeaderNotEnoughSpace
    else .ok ((remaining.drop offset).take (lengthField (remaining.drop offset))) := by
  rw [sliceChunk, index_eq (by omega), ok_bind, index_eq (by omega), ok_bind]
  change (if lengthField (remaining.drop offset) < 4 then fail Error.errChunkHeaderInvalidLength
    else if remaining.length < offset + lengthField (remaining.drop offset) then
      fail Error.errChunkHeaderNotEnoughSpace
    else slice remaining offset (offset + lengthField (remaining.drop offset))) = _
  split
  · rfl
  · split
    · rfl
    · rw [slice_eq (by omega) (by omega), Nat.add_sub_cancel_left]

theorem sliceChunk_cases (h : offset + 4 ≤ remaining.length) :
    (∃ e, sliceChunk remaining offset = fail e) ∨
      (sliceChunk remaining offset =
          .ok ((remaining.drop offset).take (lengthField (remaining.drop offset))) ∧
        4 ≤ lengthField (remaining.drop offset) ∧
        offset + lengthField (remaining.drop offset) ≤ remaining.length) := by
  rw [sliceChunk_of_length h]
  split
  · exact .inl ⟨_, rfl⟩
  · split
    · exact .inl ⟨_, rfl⟩
    · exact .inr ⟨rfl, by omega, by omega⟩

theorem of_sliceChunk (h : sliceChunk remaining offset = .ok buf) :
    offset + 4 ≤ remaining.length ∧ Exact buf ∧
      (index remaining offset : Parse Error _) = .ok (headerOf buf).typ := by
  have hlen : offset + 4 ≤ remaining.length := by
    by_contra hshort
    by_cases hhigh : offset + 2 < remaining.length
    · have hlow : (index remaining (offset + 3) : Parse Error _) = .error .panicked := by
        rw [index, List.getElem?_eq_none (by omega)]
      rw [sliceChunk, index_eq hhigh, ok_bind, hlow] at h
      cases h
    · have hnone : (index remaining (offset + 2) : Parse Error _) = .error .panicked := by
        rw [index, List.getElem?_eq_none (by omega)]
      rw [sliceChunk, hnone] at h
      cases h
  rcases sliceChunk_cases hlen with ⟨e, hfail⟩ | ⟨hok, hfour, hfits⟩
  · rw [hfail] at h
    cases h
  · rw [hok] at h
    cases h
    have hdrop : (remaining.drop offset).length = remaining.length - offset := List.length_drop
    have hindex := @index_eq remaining offset 0 (by omega)
    generalize remaining.drop offset = bs at hfour hfits hdrop hindex ⊢
    have hfield : lengthField (bs.take (lengthField bs)) = lengthField bs :=
      congrArg BitVec.toNat (readU16_take hfour)
    have htake : (bs.take (lengthField bs)).length = lengthField bs := by
      rw [List.length_take]
      omega
    refine ⟨hlen, ⟨by omega, by omega⟩, hindex.trans ?_⟩
    rw [headerOf, List.getD_eq_getElem?_getD, List.getD_eq_getElem?_getD,
      List.getElem?_take_of_lt (by omega)]

/-- The offsets at which `finish` reads a chunk: the start, and behind a chunk that was read. -/
inductive ChunkAt (remaining : List Byte) : Nat → Prop
  | first : ChunkAt remaining 0
  | next {offset : Nat} {buf : List Byte} {c : Chunk} (hat : ChunkAt remaining offset)
      (hslice : sliceChunk remaining offset = .ok buf)
      (hchunk : Chunk.unmarshal (headerOf buf).typ buf = .ok c) :
      ChunkAt remaining (offset + (4 + c.valueLength + getPaddingSize c.valueLength))

/-- No ABORT or ERROR that `finish` reads has a cause that overruns it. -/
def CausesFit (remaining : List Byte) : Prop :=
  ∀ offset buf, ChunkAt remaining offset → sliceChunk remaining offset = .ok buf →
    (headerOf buf).typ = ctAbort ∨ (headerOf buf).typ = ctError → ¬ CauseOverruns (buf.drop 4)

theorem finishFrom_succ (h : sliceChunk remaining offset = .ok buf) (rounds : Nat) :
    finishFrom remaining (rounds + 1) offset = (do
      let c ← Chunk.unmarshal (headerOf buf).typ buf
      let chunks ← finishFrom remaining rounds
        (offset + (4 + c.valueLength + getPaddingSize c.valueLength))
      .ok (c :: chunks)) := by
  obtain ⟨hlen, _, hindex⟩ := of_sliceChunk h
  rw [finishFrom, if_neg (by omega), if_neg (by omega), h, ok_bind, hindex, ok_bind]

theorem safe_finishFrom (hfit : CausesFit remaining) {rounds : Nat} (hat : ChunkAt remaining offset)
    (hrounds : remaining.length < rounds + offset) (hpos : 0 < rounds) :
    Safe (finishFrom remaining rounds offset) := by
  induction rounds generalizing offset with
  | zero => omega
  | succ rounds ih =>
    by_cases hend : offset = remaining.length
    · rw [finishFrom, if_pos hend]
      exact safe_ok _
    by_cases hshort : remaining.length < offset + 4
    · rw [finishFrom, if_neg hend, if_pos hshort]
      exact safe_fail _
    rcases sliceChunk_cases (not_lt.mp hshort) with ⟨e, hfail⟩ | ⟨hok, _, _⟩
    · rw [finishFrom, if_neg hend, if_neg hshort, hfail]
      exact safe_fail e
    · obtain ⟨_, hexact, _⟩ := of_sliceChunk hok
      rw [finishFrom_succ hok]
      refine ((Chunk.safe_unmarshal_iff hexact).mpr (hfit _ _ hat hok)).bind fun c hchunk => ?_
      exact safe_bind_ok.mpr (ih (hat.next hok hchunk) (by omega) (by omega))

theorem ChunkAt.safe (hsafe : Safe (finishFrom remaining (remaining.length + 1) 0))
    (hat : ChunkAt remaining offset) :
    ∃ rounds, remaining.length < rounds + offset ∧ Safe (finishFrom remaining rounds offset) := by
  induction hat with
  | first => exact ⟨remaining.length + 1, by omega, hsafe⟩
  | @next offset buf c hat hslice hchunk ih =>
    obtain ⟨rounds, hrounds, hsafe'⟩ := ih
    have hlen := (of_sliceChunk hslice).1
    obtain ⟨n, rfl⟩ : ∃ n, rounds = n + 1 := ⟨rounds - 1, by omega⟩
    rw [finishFrom_succ hslice, hchunk, ok_bind] at hsafe'
    exact ⟨n, by omega, safe_bind_ok.mp hsafe'⟩

theorem safe_finish_iff (d : PartialDecode) : Safe d.finish ↔ CausesFit d.remaining := by
  refine safe_bind_ok.trans ⟨fun hsafe offset buf hat hslice => ?_, fun hfit => ?_⟩
  · obtain ⟨rounds, hrounds, hsafe'⟩ := hat.safe hsafe
    obtain ⟨hlen, hexact, _⟩ := of_sliceChunk hslice
    obtain ⟨n, rfl⟩ : ∃ n, rounds = n + 1 := ⟨rounds - 1, by omega⟩
    refine (Chunk.safe_unmarshal_iff hexact).mp fun hpanic => ?_
    rw [finishFrom_succ hslice, hpanic] at hsafe'
    exact not_safe_panicked hsafe'
  · exact safe_finishFrom hfit .first (by omega) (by omega)

/-- The first chunk is an INIT or an INIT ACK that ends before its initiate tag does. -/
def InitCut (remaining : List Byte) : Prop :=
  ((headerOf remaining).typ = ctInit ∨ (headerOf remaining).typ = ctInitAck) ∧ remaining.length < 8

theorem peek_cases {raw : List Byte} (hfits : HeaderFits (raw.drop 12)) :
    (InitCut (raw.drop 12) ∧
        peek raw (raw.drop 16) (headerOf (raw.drop 12)) = .error .panicked) ∨
      (¬ InitCut (raw.drop 12) ∧
        ∃ shown, peek raw (raw.drop 16) (headerOf (raw.drop 12)) = .ok shown) := by
  have hvalue := hfits.valueLength
  have hfield := hfits.field_le
  have hfour := hfits.four_le
  have hdrop : (raw.drop 12).length = raw.length - 12 := List.length_drop
  have hdrop' : (raw.drop 16).length = raw.length - 16 := List.length_drop
  unfold peek
  by_cases hinit : (headerOf (raw.drop 12)).typ = ctInit ∨ (headerOf (raw.drop 12)).typ = ctInitAck
  · rw [if_pos hinit]
    by_cases hcut : (raw.drop 12).length < 8
    · have hpanic : (getU32 (raw.drop 16) : Parse Error _) = .error .panicked := by
        match raw.drop 16, (show (raw.drop 16).length < 4 by omega) with
        | [], _ => rfl
        | [_], _ => rfl
        | [_, _], _ => rfl
        | [_, _, _], _ => rfl
      rw [hpanic]
      exact .inl ⟨⟨hinit, hcut⟩, rfl⟩
    · obtain ⟨tag, rest, htag, _⟩ := @takes_getU32 Error (raw.drop 16) (by omega)
      rw [htag]
      exact .inr ⟨fun h => hcut h.2, _, rfl⟩
  · rw [if_neg hinit]
    refine .inr ⟨fun h => hinit h.1, ?_⟩
    split
    · rw [slice_eq (by omega) (by omega)]
      exact ⟨_, rfl⟩
    · exact ⟨_, rfl⟩

variable (crc32c : List Byte → BitVec 32)

/-- Neither half of the parse of a packet panics. -/
def ParsesSafely (raw : List Byte) : Prop :=
  Safe (unmarshal crc32c raw) ∧ ∀ d, unmarshal crc32c raw = .ok d → Safe d.finish

/-- A packet with a correct checksum is parsed without a panic exactly if its first chunk, when its header
    is accepted, is no INIT cut before its initiate tag, and no ABORT or ERROR that is read has a cause
    longer than what is left of the chunk. -/
theorem parsesSafely_iff (raw : List Byte) (hsum : CorrectChecksum crc32c raw) :
    ParsesSafely crc32c raw ↔
      (HeaderFits (raw.drop 12) → ¬ InitCut (raw.drop 12) ∧ CausesFit (raw.drop 12)) := by
  have hdrop : (raw.drop 12).length = raw.length - 12 := List.length_drop
  by_cases hlen : raw.length < 12
  · have hfail : unmarshal crc32c raw = fail .errPacketRawTooSmall := if_pos hlen
    refine iff_of_true ⟨?_, fun d hd => ?_⟩ fun hfits => ?_
    · rw [hfail]
      exact safe_fail _
    · rw [hfail] at hd
      cases hd
    · have hfour := hfits.four_le
      omega
  have heq := unmarshal_eq crc32c (not_lt.mp hlen) hsum
  by_cases hfits : HeaderFits (raw.drop 12)
  · have hfour := hfits.four_le
    rw [if_neg (by omega), (ChunkHeader.unmarshal_eq_ok _ _).mpr ⟨hfits, rfl⟩, ok_bind] at heq
    rcases peek_cases hfits with ⟨hcut, hpeek⟩ | ⟨hcut, shown, hpeek⟩
    · rw [hpeek, error_bind] at heq
      exact iff_of_false (fun h => h.1 heq) fun h => (h hfits).1 hcut
    · rw [hpeek, ok_bind] at heq
      rw [ParsesSafely, heq]
      constructor
      · rintro ⟨_, hfinish⟩ _
        exact ⟨hcut, (safe_finish_iff _).mp (hfinish _ rfl)⟩
      · refine fun h => ⟨safe_ok _, fun d hd => ?_⟩
        cases hd
        exact (safe_finish_iff _).mpr (h hfits).2
  · refine iff_of_true ?_ fun h => absurd h hfits
    have hfail : ∃ e, unmarshal crc32c raw = fail e := by
      by_cases hshort : (raw.drop 12).length < 4
      · rw [if_pos hshort] at heq
        exact ⟨_, heq⟩
      rw [if_neg hshort] at heq
      have hsafe := ChunkHeader.safe_unmarshal (raw.drop 12)
      cases hheader : ChunkHeader.unmarshal (raw.drop 12) with
      | ok header => exact absurd ((ChunkHeader.unmarshal_eq_ok _ _).mp hheader).1 hfits
      | error e =>
        rw [hheader, error_bind] at heq
        cases e with
        | err e => exact ⟨e, heq⟩
        | panicked => exact absurd hheader hsafe
    obtain ⟨e, hfail⟩ := hfail
    rw [ParsesSafely, hfail]
    exact ⟨safe_fail e, fun d hd => nomatch hd⟩

def cookieAckPacket : List Byte := framed (fun _ => 0#32) ⟨5000, 5000, 1⟩ [11, 0, 0, 4]

theorem parsesSafely_cookieAck : CorrectChecksum (fun _ => 0#32) cookieAckPacket ∧
    ¬ InitCut (cookieAckPacket.drop 12) ∧ CausesFit (cookieAckPacket.drop 12) := by
  have hparsed : unmarshal (fun _ => 0#32) cookieAckPacket =
      .ok ⟨⟨5000, 5000, 1⟩, [11, 0, 0, 4], 11, none, none⟩ := by decide
  have hsafe : ParsesSafely (fun _ => 0#32) cookieAckPacket := by
    rw [ParsesSafely, hparsed]
    refine ⟨safe_ok _, fun d hd => ?_⟩
    cases hd
    exact fun hpanic => absurd hpanic (by decide)
  have hsum := correctChecksum_framed (fun _ => 0#32) ⟨5000, 5000, 1⟩ [11, 0, 0, 4]
  exact ⟨hsum, (parsesSafely_iff (fun _ => 0#32) cookieAckPacket hsum).mp hsafe
    ⟨by decide, by decide, by decide, by decide⟩⟩

/-- An INIT that is only a chunk header stops the first half of the parse with a panic; an ABORT whose cause
    says that it has 8 bytes where 4 are left stops the second. The checksum of both is right. -/
theorem parse_panics :
    let crc32c : List Byte → BitVec 32 := fun _ => 0#32
    let h : CommonHeader := ⟨5000, 5000, 0⟩
    CorrectChecksum crc32c (framed crc32c h [1, 0, 0, 4]) ∧
    unmarshal crc32c (framed crc32c h [1, 0, 0, 4]) = .error .panicked ∧
    CorrectChecksum crc32c (framed crc32c h [6, 0, 0, 8, 0, 12, 0, 8]) ∧
    (unmarshal crc32c (framed crc32c h [6, 0, 0, 8, 0, 12, 0, 8]) >>= finish) = .error .panicked := by
  intro crc32c h
  refine ⟨correctChecksum_framed crc32c h _, ?_, correctChecksum_framed crc32c h _, ?_⟩
  · rw [unmarshal_framed]
    rfl
  · rw [unmarshal_framed]
    rfl

end PartialDecode

end Rtc.Sctp.Wire
