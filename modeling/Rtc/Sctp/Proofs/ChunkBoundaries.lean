import Rtc.Sctp.Proofs.WireRoundTrip

/-!
# Where a chunk ends

`finish` goes on behind a chunk by the length that the parsed chunk would be written with. That is the declared length
as long as the reader keeps every byte of the chunk: `Filled`.
-/

namespace Rtc.Sctp.Wire
open Shared Parse

/-! ## Parameters -/

/-- The bytes of the value that the reader of a parameter of type `typ` with the length field `field` keeps.
    FORWARD-TSN-SUPPORTED has none, the HMAC algorithms come in pairs of bytes, and a re-configuration response
    is cut to two words. -/
def keptOf (typ : BitVec 16) (field : Nat) : Nat :=
  if typ = paramForwardTsnSupp then 0
  else if typ = paramReqHmacAlgo then 2 * ((field - 4) / 2)
  else if typ = paramReconfigResp then 8
  else field - 4

/-- The bytes that are kept of the value of the parameter that `raw` starts with. -/
def keptLength (raw : List Byte) : Nat := keptOf (Bytes.readU16 raw 0) (lengthField raw)

namespace Param

variable {raw : List Byte} {value : List Byte} {p : Param}

theorem unmarshal_header_ok {header : ParamHeader} (h : ParamHeader.unmarshal raw = .ok header) :
    header.valueLength.toNat = lengthField raw - 4 ∧ lengthField raw ≤ raw.length := by
  by_cases hlen : raw.length < 4
  · rw [ParamHeader.unmarshal, if_pos hlen] at h
    cases h
  · rw [ParamHeader.unmarshal_of_length (not_lt.mp hlen)] at h
    split at h
    case isTrue => cases h
    case isFalse hfits =>
      obtain ⟨hfour, hfield⟩ := not_or.mp hfits
      cases h
      exact ⟨toNat_sub_four (not_lt.mp hfour), not_lt.mp hfield⟩

theorem length_unmarshalBytes (h : unmarshalBytes raw = .ok value) : value.length = lengthField raw - 4 := by
  obtain ⟨header, hheader, hslice⟩ := exists_of_bind_eq_ok h
  have hlength := (unmarshal_header_ok hheader).1
  have hvalue := (length_of_slice hslice).2.2
  omega

theorem length_unmarshalChunkList (h : unmarshalChunkList raw = .ok value) :
    value.length = lengthField raw - 4 := by
  obtain ⟨header, hheader, hrest⟩ := exists_of_bind_eq_ok h
  have hlength := (unmarshal_header_ok hheader).1
  split at hrest
  · cases hrest
  · have hvalue := (length_of_slice hrest).2.2
    omega

theorem length_availableAlgorithms {reader : List Byte} {algorithms : List HmacAlgorithm}
    (h : availableAlgorithms reader = .ok algorithms) : algorithms.length = reader.length / 2 := by
  match reader, h with
  | [], h =>
    cases h
    rfl
  | [_], h =>
    cases h
    simp
  | a :: b :: reader, h =>
    rw [availableAlgorithms] at h
    split at h
    · obtain ⟨rest, hrest, h⟩ := exists_of_bind_eq_ok h
      cases h
      have ih := length_availableAlgorithms hrest
      simp only [List.length_cons]
      omega
    · cases h

theorem length_unmarshalOutgoingResetRequest {p : ParamOutgoingResetRequest}
    (h : unmarshalOutgoingResetRequest raw = .ok p) : 12 + p.streamIdentifiers.length * 2 = lengthField raw - 4 := by
  obtain ⟨header, hheader, h⟩ := exists_of_bind_eq_ok h
  have hlength := (unmarshal_header_ok hheader).1
  dsimp only at h
  split at h
  case isTrue => cases h
  case isFalse heven =>
    split at h
    · cases h
    · obtain ⟨_, -, h⟩ := exists_of_bind_eq_ok h
      obtain ⟨_, -, h⟩ := exists_of_bind_eq_ok h
      obtain ⟨_, -, h⟩ := exists_of_bind_eq_ok h
      obtain ⟨_, -, h⟩ := exists_of_bind_eq_ok h
      obtain ⟨⟨ids, rest⟩, hids, h⟩ := exists_of_bind_eq_ok h
      cases h
      have hcount := length_getMany hids
      dsimp only
      omega

theorem build_of_length (h : 4 ≤ raw.length) : build raw = unmarshal (Bytes.readU16 raw 0) raw := by
  match raw, h with
  | a :: b :: c :: d :: rest, h => rw [build, if_neg (by omega)]; rfl

theorem valueLength_unmarshal {typ : BitVec 16} (h : unmarshal typ raw = .ok p) :
    p.valueLength = keptOf typ (lengthField raw) := by
  rw [unmarshal] at h
  split_ifs at h with hforward hextensions hrandom hhmac hlist hcookie hinfo hreset hresponse hunknown
  · obtain ⟨_, -, h⟩ := exists_of_bind_eq_ok h
    cases h
    rw [hforward]
    rfl
  · obtain ⟨value, hvalue, rfl⟩ := exists_of_map_eq_ok h
    rw [hextensions]
    exact length_unmarshalBytes hvalue
  · obtain ⟨value, hvalue, rfl⟩ := exists_of_map_eq_ok h
    rw [hrandom]
    exact length_unmarshalBytes hvalue
  · obtain ⟨value, hvalue, h⟩ := exists_of_bind_eq_ok h
    obtain ⟨algorithms, halgorithms, rfl⟩ := exists_of_map_eq_ok h
    rw [hhmac]
    change 2 * algorithms.length = 2 * ((lengthField raw - 4) / 2)
    rw [length_availableAlgorithms halgorithms, length_unmarshalBytes hvalue]
  · obtain ⟨value, hvalue, rfl⟩ := exists_of_map_eq_ok h
    rw [hlist]
    exact length_unmarshalChunkList hvalue
  · obtain ⟨value, hvalue, rfl⟩ := exists_of_map_eq_ok h
    rw [hcookie]
    exact length_unmarshalBytes hvalue
  · obtain ⟨value, hvalue, rfl⟩ := exists_of_map_eq_ok h
    rw [hinfo]
    exact length_unmarshalBytes hvalue
  · obtain ⟨p, hp, rfl⟩ := exists_of_map_eq_ok h
    rw [hreset]
    exact length_unmarshalOutgoingResetRequest hp
  · obtain ⟨_, -, rfl⟩ := exists_of_map_eq_ok h
    rw [hresponse]
    rfl
  · obtain ⟨value, hvalue, rfl⟩ := exists_of_map_eq_ok h
    rw [keptOf, if_neg hforward, if_neg hhmac, if_neg hresponse]
    exact length_unmarshalBytes hvalue
  · cases h

theorem valueLength_build (h : build raw = .ok p) : p.valueLength = keptLength raw := by
  have hlen : 4 ≤ raw.length := by
    by_contra hshort
    rw [build, if_pos (not_le.mp hshort)] at h
    cases h
  rw [build_of_length hlen] at h
  exact valueLength_unmarshal h

end Param

/-! ## Chunks -/

/-- The causes of an ABORT or an ERROR follow each other to its end. -/
inductive CausesFill : List Byte → Prop
  | none : CausesFill []
  | cause {bs : List Byte} (hfour : 4 ≤ lengthField bs) (hfield : lengthField bs ≤ bs.length)
      (hrest : CausesFill (bs.drop (lengthField bs))) : CausesFill bs

theorem CausesFill.cases {bs : List Byte} (h : CausesFill bs) :
    bs = [] ∨ (4 ≤ lengthField bs ∧ lengthField bs ≤ bs.length ∧ CausesFill (bs.drop (lengthField bs))) := by
  cases h with
  | none => exact .inl rfl
  | cause hfour hfield hrest => exact .inr ⟨hfour, hfield, hrest⟩

/-- The bytes of a parameter that are kept, with the padding behind them. -/
def paddedParam (bs : List Byte) : Nat := 4 + keptLength bs + getPaddingSize (4 + keptLength bs)

/-- The parameters of an INIT follow each other to its end. The reader stops where no more than a header is
    left, so that the last parameter has to be longer than that. -/
inductive ParamsFill : List Byte → Prop
  | none : ParamsFill []
  | last {bs : List Byte} (hread : 4 < bs.length) (hend : 4 + keptLength bs = bs.length) : ParamsFill bs
  | more {bs : List Byte} (hread : paddedParam bs + 4 < bs.length)
      (hrest : ParamsFill (bs.drop (paddedParam bs))) : ParamsFill bs

/-- The one or two parameters of a RECONFIG reach to its end. -/
def ReconfigFills (bs : List Byte) : Prop :=
  if paddedParam bs < bs.length then
    paddedParam bs + (4 + keptLength (bs.drop (paddedParam bs))) = bs.length
  else 4 + keptLength bs = bs.length

/-- The reader of a chunk of type `typ` keeps all of the bytes `buf` of the chunk: nothing stands behind what
    its counts, parameters or causes cover. Of DATA, COOKIE ECHO, FORWARD TSN and SHUTDOWN it always does. -/
def FilledAs (typ : Byte) (buf : List Byte) : Prop :=
  if typ = ctInit ∨ typ = ctInitAck then ParamsFill (buf.drop 20)
  else if typ = ctAbort ∨ typ = ctError then CausesFill (buf.drop 4)
  else if typ = ctHeartbeat then 8 + keptLength (buf.drop 4) = buf.length
  else if typ = ctSack then
    16 + 4 * (Bytes.readU16 buf 12).toNat + 4 * (Bytes.readU16 buf 14).toNat = buf.length
  else if typ = ctReconfig then ReconfigFills (buf.drop 4)
  else if typ = ctCookieAck ∨ typ = ctShutdownAck ∨ typ = ctShutdownComplete then buf.length = 4
  else True

theorem ErrorCause.length_unmarshal {buf : List Byte} {e : ErrorCause} (h : unmarshal buf = .ok e) :
    e.length = lengthField buf ∧ 4 ≤ lengthField buf ∧ lengthField buf ≤ buf.length := by
  have hlen : 4 ≤ buf.length := by
    by_contra hshort
    rw [unmarshal, if_pos (not_le.mp hshort)] at h
    cases h
  rw [unmarshal_of_length hlen] at h
  split at h
  case isTrue => cases h
  case isFalse hfour =>
    obtain ⟨raw, hraw, h⟩ := exists_of_bind_eq_ok h
    obtain ⟨_, hstop, hlength⟩ := length_of_slice hraw
    cases h
    refine ⟨?_, by omega, by omega⟩
    rw [ErrorCause.length, hlength]
    omega

theorem ErrorCause.sum_eq_iff {raw : List Byte} {rounds offset : Nat} {causes : List ErrorCause}
    (hoffset : offset ≤ raw.length) (h : unmarshalAll raw raw.length rounds offset = .ok causes) :
    offset + (causes.map ErrorCause.length).sum = raw.length ↔ CausesFill (raw.drop offset) := by
  induction rounds generalizing offset causes with
  | zero => cases h
  | succ rounds ih =>
    have hdrop : (raw.drop offset).length = raw.length - offset := List.length_drop
    rw [unmarshalAll] at h
    split at h
    case isFalse hshort =>
      cases h
      constructor
      · intro hend
        rw [List.drop_of_length_le (by simpa using hend.ge)]
        exact .none
      · intro hfill
        rcases hfill.cases with hnil | ⟨hfour, hfield, _⟩
        · rw [hnil] at hdrop
          simp only [List.map_nil, List.sum_nil, List.length_nil] at hdrop ⊢
          omega
        · omega
    case isTrue =>
      rw [slice_to_end hoffset, ok_bind] at h
      obtain ⟨e, he, h⟩ := exists_of_bind_eq_ok h
      obtain ⟨rest, hrest, h⟩ := exists_of_bind_eq_ok h
      cases h
      obtain ⟨hlength, hfour, hfield⟩ := length_unmarshal he
      have hiff := ih (by omega) hrest
      rw [hlength, ← List.drop_drop] at hiff
      rw [List.map_cons, List.sum_cons, hlength, ← Nat.add_assoc, hiff]
      constructor
      · exact .cause hfour hfield
      · intro hfill
        rcases hfill.cases with hnil | ⟨_, _, hrest⟩
        · rw [hnil, List.length_nil] at hdrop
          omega
        · exact hrest

theorem ParamsFill.cases {bs : List Byte} (h : ParamsFill bs) : bs = [] ∨
    (4 < bs.length ∧ 4 + keptLength bs = bs.length) ∨
      (paddedParam bs + 4 < bs.length ∧ ParamsFill (bs.drop (paddedParam bs))) := by
  cases h with
  | none => exact .inl rfl
  | last hread hend => exact .inr (.inl ⟨hread, hend⟩)
  | more hread hrest => exact .inr (.inr ⟨hread, hrest⟩)

namespace ChunkInit

variable {raw : List Byte} {rounds offset : Nat} {params : List Param}

theorem of_unmarshalParams (hread : offset + 4 < raw.length)
    (h : unmarshalParams raw raw.length (rounds + 1) offset = .ok params) :
    ∃ p rest, params = p :: rest ∧ p.valueLength = keptLength (raw.drop offset) ∧
      unmarshalParams raw raw.length rounds (offset + paddedParam (raw.drop offset)) = .ok rest := by
  rw [unmarshalParams, if_pos ⟨hread, by omega⟩, slice_to_end (by omega), ok_bind] at h
  obtain ⟨p, hp, h⟩ := exists_of_bind_eq_ok h
  obtain ⟨rest, hrest, h⟩ := exists_of_bind_eq_ok h
  cases h
  have hkept := Param.valueLength_build hp
  rw [hkept] at hrest
  exact ⟨p, rest, rfl, hkept, hrest⟩

theorem of_unmarshalParams_end (hread : ¬ offset + 4 < raw.length)
    (h : unmarshalParams raw raw.length rounds offset = .ok params) : params = [] := by
  cases rounds with
  | zero => cases h
  | succ rounds =>
    rw [unmarshalParams, if_neg fun hgo => hread hgo.1] at h
    cases h
    rfl

theorem lengthAll_eq_iff (hoffset : offset ≤ raw.length)
    (h : unmarshalParams raw raw.length rounds offset = .ok params) :
    offset + Param.lengthAll params = raw.length ↔ ParamsFill (raw.drop offset) := by
  induction rounds generalizing offset params with
  | zero => cases h
  | succ rounds ih =>
    have hdrop : (raw.drop offset).length = raw.length - offset := List.length_drop
    by_cases hread : offset + 4 < raw.length
    case neg =>
      rw [of_unmarshalParams_end hread h]
      constructor
      · intro hend
        rw [List.drop_of_length_le (by simpa [Param.lengthAll] using hend.ge)]
        exact .none
      · intro hfill
        rcases hfill.cases with hnil | ⟨hlast, _⟩ | ⟨hmore, _⟩
        · rw [hnil, List.length_nil] at hdrop
          rw [Param.lengthAll]
          omega
        · omega
        · omega
    case pos =>
      obtain ⟨p, rest, rfl, hkept, hrest⟩ := of_unmarshalParams hread h
      by_cases hnext : offset + paddedParam (raw.drop offset) + 4 < raw.length
      case pos =>
        -- Another parameter follows, so that the padding of this one counts.
        have hiff := ih (by omega) hrest
        obtain ⟨n, rfl⟩ : ∃ n, rounds = n + 1 := by
          cases rounds with
          | zero => cases hrest
          | succ n => exact ⟨n, rfl⟩
        obtain ⟨q, rest', rfl, -, -⟩ := of_unmarshalParams hnext hrest
        have hlength : Param.lengthAll (p :: q :: rest') =
            paddedParam (raw.drop offset) + Param.lengthAll (q :: rest') := by
          rw [Param.lengthAll, hkept, paddedParam]
          exact List.cons_ne_nil _ _
        rw [hlength, ← Nat.add_assoc, hiff, ← List.drop_drop]
        constructor
        · exact .more (by omega)
        · intro hfill
          rcases hfill.cases with hnil | ⟨_, hend⟩ | ⟨_, hrest⟩
          · rw [hnil, List.length_nil] at hdrop
            omega
          · rw [paddedParam] at hnext
            omega
          · exact hrest
      case neg =>
        rw [of_unmarshalParams_end hnext hrest, Param.lengthAll, hkept]
        constructor
        · intro hend
          exact .last (by omega) (by omega)
        · intro hfill
          rcases hfill.cases with hnil | ⟨_, hend⟩ | ⟨hmore, _⟩
          · rw [hnil, List.length_nil] at hdrop
            omega
          · omega
          · omega

theorem filled_iff {buf : List Byte} {c : ChunkInit} (hexact : Exact buf) (h : unmarshal buf = .ok c) :
    4 + (Chunk.init c).valueLength = buf.length ↔ ParamsFill (buf.drop 20) := by
  rw [unmarshal, hexact.unmarshal, ok_bind, hexact.valueLength] at h
  split_ifs at h with htype hlen hvalue hflags
  all_goals try cases h
  obtain ⟨_, -, h⟩ := exists_of_bind_eq_ok h
  obtain ⟨_, -, h⟩ := exists_of_bind_eq_ok h
  obtain ⟨_, -, h⟩ := exists_of_bind_eq_ok h
  obtain ⟨_, -, h⟩ := exists_of_bind_eq_ok h
  obtain ⟨_, -, h⟩ := exists_of_bind_eq_ok h
  obtain ⟨_, -, h⟩ := exists_of_bind_eq_ok h
  obtain ⟨params, hparams, h⟩ := exists_of_bind_eq_ok h
  cases h
  rw [← lengthAll_eq_iff (by omega) hparams, Chunk.valueLength]
  dsimp only
  omega

end ChunkInit

theorem of_getU16 {reader rest : List Byte} {x : BitVec 16} (h : (getU16 reader : Parse Error _) = .ok (x, rest)) :
    x = Bytes.readU16 reader 0 ∧ rest = reader.drop 2 := by
  match reader, h with
  | a :: b :: reader, h =>
    cases h
    exact ⟨rfl, rfl⟩

theorem of_getU32 {reader rest : List Byte} {x : BitVec 32} (h : (getU32 reader : Parse Error _) = .ok (x, rest)) :
    rest = reader.drop 4 := by
  match reader, h with
  | a :: b :: c :: d :: reader, h =>
    cases h
    rfl

theorem readU16_drop (bs : List Byte) (n i : Nat) : Bytes.readU16 (bs.drop n) i = Bytes.readU16 bs (n + i) := by
  simp only [Bytes.readU16, List.getD_eq_getElem?_getD, List.getElem?_drop, Nat.add_assoc]

theorem of_ite {α : Type} {cond : Prop} [Decidable cond] {p q : Parse Error α} {x : α}
    (h : (if cond then p else q) = .ok x) : (cond ∧ p = .ok x) ∨ (¬ cond ∧ q = .ok x) := by
  by_cases hcond : cond
  · exact .inl ⟨hcond, (if_pos hcond).symm.trans h⟩
  · exact .inr ⟨hcond, (if_neg hcond).symm.trans h⟩

namespace Chunk

variable {buf : List Byte} {c : Chunk} {ct : Byte} {mismatch : Error}

section

variable (hexact : Exact buf)
include hexact

theorem unmarshalHeartbeat_filled (h : unmarshalHeartbeat buf = .ok c) :
    4 + c.valueLength = 8 + keptLength (buf.drop 4) := by
  rw [unmarshalHeartbeat, hexact.unmarshal, ok_bind, hexact.valueLength, slice_to_end hexact.four_le] at h
  split_ifs at h
  all_goals try cases h
  rw [ok_bind] at h
  obtain ⟨p, hp, h⟩ := exists_of_bind_eq_ok h
  split_ifs at h
  all_goals try cases h
  have hkept := Param.valueLength_build hp
  simp only [valueLength, List.map_cons, List.map_nil, List.sum_cons, List.sum_nil]
  omega

theorem unmarshalPayloadData_filled (h : unmarshalPayloadData buf = .ok c) : 4 + c.valueLength = buf.length := by
  rw [unmarshalPayloadData, hexact.unmarshal, ok_bind, hexact.valueLength] at h
  split_ifs at h
  all_goals try cases h
  obtain ⟨_, -, h⟩ := exists_of_bind_eq_ok h
  obtain ⟨_, -, h⟩ := exists_of_bind_eq_ok h
  obtain ⟨_, -, h⟩ := exists_of_bind_eq_ok h
  obtain ⟨_, -, h⟩ := exists_of_bind_eq_ok h
  obtain ⟨_, -, h⟩ := exists_of_bind_eq_ok h
  obtain ⟨userData, hdata, h⟩ := exists_of_bind_eq_ok h
  cases h
  obtain ⟨hle, -, hlength⟩ := length_of_slice hdata
  rw [valueLength]
  dsimp only
  omega

theorem unmarshalCookieEcho_filled (h : unmarshalCookieEcho buf = .ok c) : 4 + c.valueLength = buf.length := by
  rw [unmarshalCookieEcho, hexact.unmarshal, ok_bind, hexact.valueLength] at h
  split_ifs at h
  · cases h
  · obtain ⟨cookie, hcookie, rfl⟩ := exists_of_map_eq_ok h
    obtain ⟨hle, -, hlength⟩ := length_of_slice hcookie
    rw [valueLength]
    omega

theorem unmarshalSelectiveAck_filled (h : unmarshalSelectiveAck buf = .ok c) :
    4 + c.valueLength = 16 + 4 * (Bytes.readU16 buf 12).toNat + 4 * (Bytes.readU16 buf 14).toNat := by
  rw [unmarshalSelectiveAck, hexact.unmarshal, ok_bind, hexact.valueLength, slice_to_end hexact.four_le,
    ok_bind] at h
  split_ifs at h
  all_goals try cases h
  obtain ⟨⟨_, reader⟩, h₁, h⟩ := exists_of_bind_eq_ok h
  obtain ⟨⟨_, reader₂⟩, h₂, h⟩ := exists_of_bind_eq_ok h
  obtain ⟨⟨gaps, reader₃⟩, h₃, h⟩ := exists_of_bind_eq_ok h
  obtain ⟨⟨duplicates, reader₄⟩, h₄, h⟩ := exists_of_bind_eq_ok h
  obtain ⟨hgaps, hrest⟩ := of_getU16 h₃
  have hduplicates := (of_getU16 h₄).1
  rw [of_getU32 h₂, of_getU32 h₁, List.drop_drop, List.drop_drop] at hgaps hrest
  rw [hrest, List.drop_drop, readU16_drop] at hduplicates
  rw [readU16_drop] at hgaps
  norm_num only at hgaps hduplicates
  dsimp only at h
  split_ifs at h
  all_goals try cases h
  obtain ⟨⟨blocks, _⟩, hblocks, h⟩ := exists_of_bind_eq_ok h
  obtain ⟨⟨tsns, _⟩, htsns, h⟩ := exists_of_bind_eq_ok h
  cases h
  simp only [valueLength, List.length_map, length_getMany hblocks, length_getMany htsns, hgaps, hduplicates]
  omega

theorem unmarshalReconfig_filled (h : unmarshalReconfig buf = .ok c) :
    4 + c.valueLength = buf.length ↔ ReconfigFills (buf.drop 4) := by
  have hdrop : (buf.drop 4).length = buf.length - 4 := List.length_drop
  have hfour := hexact.four_le
  rw [unmarshalReconfig, hexact.unmarshal, ok_bind, hexact.valueLength] at h
  dsimp only at h
  rw [slice_to_end hexact.four_le] at h
  split_ifs at h
  · cases h
  rw [ok_bind] at h
  obtain ⟨a, ha, h⟩ := exists_of_bind_eq_ok h
  have hkept := Param.valueLength_build ha
  have hoffset : 4 + 4 + a.valueLength + getPaddingSize (4 + a.valueLength) = 4 + paddedParam (buf.drop 4) := by
    rw [paddedParam, hkept]
    omega
  rw [hoffset] at h
  rw [ReconfigFills]
  split_ifs at h with hmore
  · rw [if_pos (by omega)]
    rw [slice_to_end hmore.le, ok_bind] at h
    obtain ⟨b, hb, h⟩ := exists_of_bind_eq_ok h
    cases h
    have hkept' := Param.valueLength_build hb
    rw [← List.drop_drop] at hkept'
    simp only [valueLength, Option.map_some, Option.getD_some, ← hkept']
    omega
  · rw [if_neg (by omega)]
    cases h
    simp only [valueLength, Option.map_some, Option.getD_some, ← hkept]
    omega

end

theorem length_unmarshalForwardTsnStreams {rounds offset : Nat} {streams : List (StreamId × Ssn)}
    (hoffset : offset ≤ buf.length)
    (h : unmarshalForwardTsnStreams buf buf.length rounds offset (buf.length - offset) = .ok streams) :
    offset + 4 * streams.length = buf.length := by
  induction rounds generalizing offset streams with
  | zero => cases h
  | succ rounds ih =>
    rw [unmarshalForwardTsnStreams] at h
    split_ifs at h
    · rw [slice_to_end hoffset, ok_bind] at h
      obtain ⟨s, hs, h⟩ := exists_of_bind_eq_ok h
      obtain ⟨rest, hrest, h⟩ := exists_of_bind_eq_ok h
      cases h
      have hfour : 4 ≤ (buf.drop offset).length := by
        by_contra hshort
        rw [unmarshalForwardTsnStream, if_pos (not_le.mp hshort)] at hs
        cases hs
      rw [List.length_drop] at hfour
      rw [Nat.sub_sub] at hrest
      have hlength := ih (by omega) hrest
      rw [List.length_cons]
      omega
    · cases h
      rw [List.length_nil]
      omega

theorem unmarshalForwardTsn_filled (hexact : Exact buf) (h : unmarshalForwardTsn buf = .ok c) :
    4 + c.valueLength = buf.length := by
  rw [unmarshalForwardTsn, hexact.unmarshal, ok_bind, hexact.valueLength] at h
  split_ifs at h with htype hlen
  all_goals try cases h
  obtain ⟨_, -, h⟩ := exists_of_bind_eq_ok h
  obtain ⟨_, -, h⟩ := exists_of_bind_eq_ok h
  obtain ⟨streams, hstreams, h⟩ := exists_of_bind_eq_ok h
  cases h
  have hlength := length_unmarshalForwardTsnStreams (by omega) hstreams
  rw [valueLength]
  dsimp only
  omega

theorem unmarshalShutdown_filled (hexact : Exact buf) (h : unmarshalShutdown buf = .ok c) :
    4 + c.valueLength = buf.length := by
  rw [unmarshalShutdown, hexact.unmarshal, ok_bind] at h
  split_ifs at h with htype hvalue hlen
  all_goals try cases h
  obtain ⟨_, -, h⟩ := exists_of_bind_eq_ok h
  obtain ⟨_, -, h⟩ := exists_of_bind_eq_ok h
  cases h
  exact (not_not.mp hlen).symm

theorem of_unmarshalEmpty {empty : Chunk} (h : unmarshalEmpty ct mismatch empty buf = .ok c) : c = empty := by
  obtain ⟨header, -, h⟩ := exists_of_bind_eq_ok h
  split_ifs at h
  · cases h
  · cases h
    rfl

theorem unmarshalCauses_filled {causes : List ErrorCause} (hexact : Exact buf)
    (h : unmarshalCauses ct mismatch buf = .ok causes) :
    4 + (causes.map ErrorCause.length).sum = buf.length ↔ CausesFill (buf.drop 4) := by
  rw [unmarshalCauses, hexact.unmarshal, ok_bind, hexact.valueLength] at h
  split_ifs at h
  · cases h
  · exact ErrorCause.sum_eq_iff hexact.four_le h

/-- A chunk that was read would be written with the length it declares exactly if its reader kept all of
    its bytes. -/
theorem filledAs_iff {typ : Byte} (hexact : Exact buf) (h : unmarshal typ buf = .ok c) :
    4 + c.valueLength = buf.length ↔ FilledAs typ buf := by
  rcases of_ite h with ⟨rfl, h⟩ | ⟨-, h⟩
  · obtain ⟨c, hc, rfl⟩ := exists_of_map_eq_ok h
    exact ChunkInit.filled_iff hexact hc
  rcases of_ite h with ⟨rfl, h⟩ | ⟨-, h⟩
  · obtain ⟨c, hc, rfl⟩ := exists_of_map_eq_ok h
    exact ChunkInit.filled_iff hexact hc
  rcases of_ite h with ⟨rfl, h⟩ | ⟨-, h⟩
  · obtain ⟨c, hc, rfl⟩ := exists_of_map_eq_ok h
    exact unmarshalCauses_filled hexact hc
  rcases of_ite h with ⟨rfl, h⟩ | ⟨-, h⟩
  · exact iff_of_true (unmarshalCookieEcho_filled hexact h) trivial
  rcases of_ite h with ⟨rfl, h⟩ | ⟨-, h⟩
  · rw [of_unmarshalEmpty h]
    exact eq_comm
  rcases of_ite h with ⟨rfl, h⟩ | ⟨-, h⟩
  · rw [unmarshalHeartbeat_filled hexact h]
    exact Iff.rfl
  rcases of_ite h with ⟨rfl, h⟩ | ⟨-, h⟩
  · exact iff_of_true (unmarshalPayloadData_filled hexact h) trivial
  rcases of_ite h with ⟨rfl, h⟩ | ⟨-, h⟩
  · rw [unmarshalSelectiveAck_filled hexact h]
    exact Iff.rfl
  rcases of_ite h with ⟨rfl, h⟩ | ⟨-, h⟩
  · exact unmarshalReconfig_filled hexact h
  rcases of_ite h with ⟨rfl, h⟩ | ⟨-, h⟩
  · exact iff_of_true (unmarshalForwardTsn_filled hexact h) trivial
  rcases of_ite h with ⟨rfl, h⟩ | ⟨-, h⟩
  · obtain ⟨c, hc, rfl⟩ := exists_of_map_eq_ok h
    exact unmarshalCauses_filled hexact hc
  rcases of_ite h with ⟨rfl, h⟩ | ⟨-, h⟩
  · exact iff_of_true (unmarshalShutdown_filled hexact h) trivial
  rcases of_ite h with ⟨rfl, h⟩ | ⟨-, h⟩
  · rw [of_unmarshalEmpty h]
    exact eq_comm
  rcases of_ite h with ⟨rfl, h⟩ | ⟨-, h⟩
  · rw [of_unmarshalEmpty h]
    exact eq_comm
  cases h

end Chunk

/-! ## Packets -/

/-- A length rounded up to where a word ends. -/
def roundUp (n : Nat) : Nat := n + getPaddingSize n

namespace PartialDecode

variable {remaining : List Byte} {offset : Nat} {chunks : List Chunk}

/-- The chunks are read from `offset` on where the declared lengths put them: each one from the bytes that its
    length field covers, all of which it accounts for, and the next one behind them at a word. -/
inductive Follows (remaining : List Byte) : Nat → List Chunk → Prop
  | done : Follows remaining remaining.length []
  | chunk {offset : Nat} {buf : List Byte} {c : Chunk} {chunks : List Chunk}
      (hslice : sliceChunk remaining offset = .ok buf)
      (hparse : Chunk.unmarshal (headerOf buf).typ buf = .ok c)
      (hlength : c.valueLength = lengthField buf - 4)
      (hrest : Follows remaining (offset + roundUp (lengthField buf)) chunks) :
      Follows remaining offset (c :: chunks)

/-- Every chunk from `offset` on, by the declared lengths, is one of which the reader keeps all bytes. -/
inductive AllFilled (remaining : List Byte) : Nat → Prop
  | done : AllFilled remaining remaining.length
  | chunk {offset : Nat} {buf : List Byte} (hslice : sliceChunk remaining offset = .ok buf)
      (hfilled : FilledAs (headerOf buf).typ buf)
      (hrest : AllFilled remaining (offset + roundUp (lengthField buf))) : AllFilled remaining offset

theorem roundUp_of_filled {buf : List Byte} {c : Chunk} (hexact : Exact buf)
    (h : 4 + c.valueLength = buf.length) :
    4 + c.valueLength + getPaddingSize c.valueLength = roundUp (lengthField buf) := by
  rw [← getPaddingSize_four_add, h, roundUp, hexact.field_eq]

theorem follows_iff_allFilled {rounds : Nat} (h : finishFrom remaining rounds offset = .ok chunks) :
    Follows remaining offset chunks ↔ AllFilled remaining offset := by
  induction rounds generalizing offset chunks with
  | zero => cases h
  | succ rounds ih =>
    by_cases hend : offset = remaining.length
    · rw [finishFrom, if_pos hend] at h
      cases h
      subst hend
      exact iff_of_true .done .done
    rw [finishFrom, if_neg hend] at h
    split_ifs at h
    · cases h
    obtain ⟨buf, hslice, h⟩ := exists_of_bind_eq_ok h
    obtain ⟨-, hexact, hindex⟩ := of_sliceChunk hslice
    rw [hindex, ok_bind] at h
    obtain ⟨c, hparse, h⟩ := exists_of_bind_eq_ok h
    obtain ⟨rest, hrest, h⟩ := exists_of_bind_eq_ok h
    cases h
    have hfilled := Chunk.filledAs_iff hexact hparse
    constructor
    · intro hfollows
      cases hfollows with
      | @chunk _ buf' _ _ hslice' _ hlength hfollows =>
        cases hslice.symm.trans hslice'
        have hfull : 4 + c.valueLength = buf.length := by
          rw [hlength, hexact.field_eq]
          exact Nat.add_sub_cancel' hexact.four_le
        rw [roundUp_of_filled hexact hfull] at hrest
        exact .chunk hslice (hfilled.mp hfull) ((ih hrest).mp hfollows)
    · intro hall
      cases hall with
      | done => exact absurd rfl hend
      | chunk hslice' hfill hall =>
        cases hslice.symm.trans hslice'
        have hfull := hfilled.mpr hfill
        rw [roundUp_of_filled hexact hfull] at hrest
        refine .chunk hslice hparse ?_ ((ih hrest).mpr hall)
        rw [hexact.field_eq]
        exact Nat.eq_sub_of_add_eq' hfull

/-- The chunks that `finish` returns are those that the declared lengths delimit exactly if the reader of each
    of them keeps all of its bytes. -/
theorem boundaries_follow_lengths_iff (d : PartialDecode) (p : Packet) (h : d.finish = .ok p) :
    Follows d.remaining 0 p.chunks ↔ AllFilled d.remaining 0 := by
  obtain ⟨chunks, hchunks, h⟩ := exists_of_bind_eq_ok h
  cases h
  exact follows_iff_allFilled hchunks

def ofChunks (remaining : List Byte) : PartialDecode :=
  ⟨⟨5000, 5000, 1⟩, remaining, remaining.getD 0 0#8, none, none⟩

def bundle : List Byte := [11, 0, 0, 4, 3, 0, 0, 16, 0, 0, 0, 7, 0, 0, 5, 220, 0, 0, 0, 0]

theorem boundaries_of_bundle :
    (ofChunks bundle).finish = .ok ⟨⟨5000, 5000, 1⟩, [.cookieAck, .selectiveAck ⟨7, 1500, [], []⟩]⟩ ∧
      Follows bundle 0 [.cookieAck, .selectiveAck ⟨7, 1500, [], []⟩] := by
  have hfinish : (ofChunks bundle).finish =
      .ok ⟨⟨5000, 5000, 1⟩, [.cookieAck, .selectiveAck ⟨7, 1500, [], []⟩]⟩ := by decide +kernel
  have hack : sliceChunk bundle 0 = .ok [11, 0, 0, 4] := by decide +kernel
  have hsack : sliceChunk bundle 4 = .ok [3, 0, 0, 16, 0, 0, 0, 7, 0, 0, 5, 220, 0, 0, 0, 0] := by
    decide +kernel
  have hfilled : AllFilled bundle 0 := by
    refine .chunk hack ?_ (.chunk hsack ?_ .done)
    · exact (by decide +kernel : [11, 0, 0, 4].length = 4)
    · exact (by decide +kernel : 16 + 4 * (0#16).toNat + 4 * (0#16).toNat = 16)
  exact ⟨hfinish, (boundaries_follow_lengths_iff _ _ hfinish).mpr hfilled⟩

/-- A COOKIE ACK that declares four bytes of value, which are then read as a SHUTDOWN COMPLETE. -/
theorem value_read_as_chunk :
    (ofChunks [11, 0, 0, 8, 14, 0, 0, 4]).finish = .ok ⟨⟨5000, 5000, 1⟩, [.cookieAck, .shutdownComplete]⟩ ∧
      ¬ Follows [11, 0, 0, 8, 14, 0, 0, 4] 0 [.cookieAck, .shutdownComplete] := by
  refine ⟨by decide +kernel, fun hfollows => ?_⟩
  cases hfollows with
  | chunk hslice _ hlength _ =>
    have hbuf : sliceChunk [11, 0, 0, 8, 14, 0, 0, 4] 0 = .ok [11, 0, 0, 8, 14, 0, 0, 4] := by decide +kernel
    cases hbuf.symm.trans hslice
    exact absurd hlength (by decide +kernel)

end PartialDecode
end Rtc.Sctp.Wire
