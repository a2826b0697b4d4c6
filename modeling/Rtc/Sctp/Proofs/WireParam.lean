import Rtc.Sctp.Proofs.WireSafety

/-!
# Parameters read back

What `marshal` writes for a parameter, `build_param` reads back, whatever follows it; and the parameters of
an INIT are read back in their order, unless the last one has no value.
-/

namespace Rtc.Sctp.Wire
open Shared Parse

/-- The parameter can be read back. The reader of the HMAC algorithms accepts two of them only. -/
def Param.Accepted : Param → Prop
  | .requestedHmacAlgorithm algorithms => ∀ a ∈ algorithms, a = .hmacSha128 ∨ a = .hmacSha256
  | _ => True

theorem HmacAlgorithm.ofU16_toU16 {a : HmacAlgorithm} (h : a = .hmacSha128 ∨ a = .hmacSha256) :
    HmacAlgorithm.ofU16 a.toU16 = a := by
  rcases h with rfl | rfl <;> rfl

theorem reconfigResultOfU32_toU32 (r : ReconfigResult) : reconfigResultOfU32 (reconfigResultToU32 r) = r := by
  cases r <;> rfl

namespace Param

variable {p : Param}

theorem length_value (p : Param) : p.value.length = p.valueLength := by
  cases p with
  | requestedHmacAlgorithm algorithms =>
    simp only [value, valueLength, List.length_flatMap, Bytes.length_toBe16, List.map_const',
      List.sum_replicate, smul_eq_mul]
    omega
  | outgoingResetRequest p =>
    simp only [value, valueLength, List.length_append, List.length_flatMap, Bytes.length_toBe16,
      Bytes.length_toBe32, List.map_const', List.sum_replicate, smul_eq_mul]
    omega
  | reconfigResponse number result => rfl
  | _ => rfl

theorem length_marshal (p : Param) : p.marshal.length = 4 + p.valueLength := by
  rw [marshal, List.length_append, List.length_append, length_value]
  simp only [Bytes.length_toBe16]
  omega

theorem toNat_ofNat_add_four {n : Nat} (h : 4 + n < 2 ^ 16) : (BitVec.ofNat 16 n + 4#16).toNat = 4 + n := by
  rw [BitVec.toNat_add, BitVec.toNat_ofNat]
  change (n % 2 ^ 16 + 4) % 2 ^ 16 = 4 + n
  omega

section

variable (hfits : 4 + p.valueLength < 2 ^ 16)
include hfits

variable (rest : List Byte)

theorem lengthField_marshal : lengthField (p.marshal ++ rest) = 4 + p.valueLength := by
  have hread : Bytes.readU16 (p.marshal ++ rest) 2 = BitVec.ofNat 16 p.valueLength + 4#16 :=
    Bytes.be16_toBe16 _
  rw [lengthField, hread, toNat_ofNat_add_four hfits]

theorem unmarshal_header :
    ParamHeader.unmarshal (p.marshal ++ rest) = .ok ⟨p.typ, BitVec.ofNat 16 p.valueLength⟩ := by
  have hlen : (p.marshal ++ rest).length = 4 + p.valueLength + rest.length := by
    rw [List.length_append, length_marshal]
  have htyp : Bytes.readU16 (p.marshal ++ rest) 0 = p.typ := Bytes.be16_toBe16 _
  have hfield : Bytes.readU16 (p.marshal ++ rest) 2 = BitVec.ofNat 16 p.valueLength + 4#16 :=
    Bytes.be16_toBe16 _
  rw [ParamHeader.unmarshal_of_length (by omega), lengthField_marshal hfits, if_neg (by omega), htyp,
    hfield, BitVec.add_sub_cancel]

theorem toNat_valueLength : (BitVec.ofNat 16 p.valueLength).toNat = p.valueLength := by
  rw [BitVec.toNat_ofNat, Nat.mod_eq_of_lt (by omega)]

theorem slice_value :
    (slice (p.marshal ++ rest) 4 (4 + (BitVec.ofNat 16 p.valueLength).toNat) : Parse Error _) =
      .ok p.value := by
  have hsplit : p.marshal ++ rest = (Bytes.toBe16 p.typ ++
      Bytes.toBe16 (BitVec.ofNat 16 p.valueLength + 4#16)) ++ (p.value ++ rest) := by
    simp only [marshal, List.append_assoc]
  rw [hsplit, toNat_valueLength hfits]
  exact slice_append _ _ _ rfl (by rw [length_value]; rfl)

theorem unmarshalBytes_marshal : unmarshalBytes (p.marshal ++ rest) = .ok p.value := by
  rw [unmarshalBytes, unmarshal_header hfits, ok_bind]
  exact slice_value hfits rest

end

theorem availableAlgorithms_flatMap {algorithms : List HmacAlgorithm}
    (h : ∀ a ∈ algorithms, a = .hmacSha128 ∨ a = .hmacSha256) :
    availableAlgorithms (algorithms.flatMap fun a => Bytes.toBe16 a.toU16) = .ok algorithms := by
  induction algorithms with
  | nil => rfl
  | cons a algorithms ih =>
    obtain ⟨ha, hrest⟩ := List.forall_mem_cons.mp h
    have hread : HmacAlgorithm.ofU16 (Bytes.be16 (a.toU16.extractLsb' 8 8) (a.toU16.extractLsb' 0 8)) =
        a := by
      rw [Bytes.be16_toBe16, HmacAlgorithm.ofU16_toU16 ha]
    rw [List.flatMap_cons, Bytes.toBe16, List.cons_append, List.cons_append, List.nil_append,
      availableAlgorithms, hread, if_pos ha, ih hrest, ok_bind]

theorem unmarshalOutgoingResetRequest_marshal {r : ParamOutgoingResetRequest}
    (hfits : 4 + (outgoingResetRequest r).valueLength < 2 ^ 16) (rest : List Byte) :
    unmarshalOutgoingResetRequest ((outgoingResetRequest r).marshal ++ rest) = .ok r := by
  have hlen : ((outgoingResetRequest r).marshal ++ rest).length =
      4 + (12 + r.streamIdentifiers.length * 2) + rest.length := by
    rw [List.length_append, length_marshal]
    rfl
  have hslice := slice_value hfits rest
  have hvalue : (BitVec.ofNat 16 (outgoingResetRequest r).valueLength).toNat =
      12 + r.streamIdentifiers.length * 2 := toNat_valueLength hfits
  have hcount : (12 + r.streamIdentifiers.length * 2 - 12) / 2 = r.streamIdentifiers.length := by
    omega
  have hmany := getMany_flatMap (fun x rest => @getU16_toBe16 Error x rest) r.streamIdentifiers []
  rw [List.append_nil] at hmany
  rw [unmarshalOutgoingResetRequest, unmarshal_header hfits, ok_bind]
  dsimp only
  rw [if_neg (by omega), if_neg (by omega), hslice, ok_bind, hvalue, hcount]
  simp only [value, getU32_toBe32, ok_bind, hmany]

theorem unmarshalReconfigResponse_marshal (number : BitVec 32) (result : ReconfigResult) (rest : List Byte) :
    unmarshalReconfigResponse ((reconfigResponse number result).marshal ++ rest) =
      .ok (number, result) := by
  have hfits : 4 + (reconfigResponse number result).valueLength < 2 ^ 16 := by
    rw [valueLength]
    omega
  have hlen : ((reconfigResponse number result).marshal ++ rest).length = 12 + rest.length := by
    rw [List.length_append, length_marshal]
    rfl
  have hslice := slice_value hfits rest
  have hvalue : (BitVec.ofNat 16 (reconfigResponse number result).valueLength).toNat = 8 := rfl
  have hlast := @getU32_toBe32 Error (reconfigResultToU32 result) []
  rw [List.append_nil] at hlast
  rw [unmarshalReconfigResponse, unmarshal_header hfits, ok_bind]
  dsimp only
  rw [if_neg (by omega), if_neg (by omega), hslice, ok_bind]
  simp only [value, getU32_toBe32, ok_bind, hlast, reconfigResultOfU32_toU32]

theorem build_eq_unmarshal (p : Param) (rest : List Byte) :
    build (p.marshal ++ rest) = unmarshal p.typ (p.marshal ++ rest) := by
  have hlen : (p.marshal ++ rest).length = 4 + p.valueLength + rest.length := by
    rw [List.length_append, length_marshal]
  have hslice : (slice (p.marshal ++ rest) 0 2 : Parse Error _) = .ok (Bytes.toBe16 p.typ) := by
    rw [slice_eq (Nat.zero_le 2) (by omega)]
    rfl
  have hget := @getU16_toBe16 Error p.typ []
  rw [List.append_nil] at hget
  rw [build, if_neg (by omega), hslice, ok_bind, hget, ok_bind]

/-- A type that no reader knows, and whose top bit says to go on, is kept with its bytes. -/
theorem unmarshal_unknown {t : BitVec 16} (h : t ∉ handledTypes ∧ t.msb = true) (raw : List Byte) :
    unmarshal t raw = unknown ⟨t, h⟩ <$> unmarshalBytes raw := by
  have hne := h.1
  simp only [handledTypes, List.mem_cons, List.not_mem_nil, or_false, not_or] at hne
  obtain ⟨h1, h2, h3, h4, h5, h6, h7, h8, h9⟩ := hne
  rw [unmarshal, if_neg h1, if_neg h2, if_neg h3, if_neg h4, if_neg h5, if_neg h6, if_neg h7,
    if_neg h8, if_neg h9, dif_pos h]

theorem build_marshal (hok : p.Accepted) (hfits : 4 + p.valueLength < 2 ^ 16) (rest : List Byte) :
    build (p.marshal ++ rest) = .ok p := by
  have hheader := unmarshal_header hfits rest
  have hbytes := unmarshalBytes_marshal hfits rest
  rw [build_eq_unmarshal]
  cases p with
  | forwardTsnSupported =>
    change (ParamHeader.unmarshal _ >>= fun _ => .ok forwardTsnSupported) = _
    rw [hheader, ok_bind]
  | supportedExtensions types =>
    change supportedExtensions <$> unmarshalBytes _ = _
    rw [hbytes]
    rfl
  | random data =>
    change random <$> unmarshalBytes _ = _
    rw [hbytes]
    rfl
  | requestedHmacAlgorithm algorithms =>
    change (unmarshalBytes _ >>= fun reader => requestedHmacAlgorithm <$> availableAlgorithms reader) = _
    rw [hbytes, ok_bind, value, availableAlgorithms_flatMap hok]
    rfl
  | chunkList types =>
    change chunkList <$> unmarshalChunkList _ = _
    rw [unmarshalChunkList, hheader, ok_bind]
    dsimp only
    rw [if_neg (not_not.mpr (show (chunkList types).typ = paramChunkList from rfl)),
      slice_value hfits rest]
    rfl
  | stateCookie cookie =>
    change stateCookie <$> unmarshalBytes _ = _
    rw [hbytes]
    rfl
  | heartbeatInfo information =>
    change heartbeatInfo <$> unmarshalBytes _ = _
    rw [hbytes]
    rfl
  | outgoingResetRequest r =>
    change outgoingResetRequest <$> unmarshalOutgoingResetRequest _ = _
    rw [unmarshalOutgoingResetRequest_marshal hfits rest]
    rfl
  | reconfigResponse number result =>
    change (fun r => reconfigResponse r.1 r.2) <$> unmarshalReconfigResponse _ = _
    rw [unmarshalReconfigResponse_marshal number result rest]
    rfl
  | unknown t bytes =>
    change unmarshal t.1 _ = _
    rw [unmarshal_unknown t.2, hbytes]
    rfl

/-! ## The parameters of an INIT -/

theorem length_marshalAll (ps : List Param) : (marshalAll ps).length = lengthAll ps := by
  induction ps with
  | nil => rfl
  | cons p ps ih =>
    cases ps with
    | nil => exact length_marshal p
    | cons q ps =>
      rw [marshalAll, lengthAll, List.length_append, List.length_append, ih, length_marshal, zeros,
        List.length_replicate]
      · omega
      · exact nofun
      · exact nofun

theorem lengthAll_cons (p : Param) (ps : List Param) :
    4 + p.valueLength + lengthAll ps ≤ lengthAll (p :: ps) := by
  cases ps with
  | nil => exact le_rfl
  | cons q ps =>
    have heq : lengthAll (p :: q :: ps) =
        4 + p.valueLength + getPaddingSize (4 + p.valueLength) + lengthAll (q :: ps) := rfl
    omega

theorem length_le_lengthAll (ps : List Param) : ps.length ≤ lengthAll ps := by
  induction ps with
  | nil => exact le_rfl
  | cons p ps ih =>
    have hcons := lengthAll_cons p ps
    rw [List.length_cons]
    omega

theorem marshalAll_cons (p : Param) (ps : List Param) :
    ∃ rest, marshalAll (p :: ps) = p.marshal ++ rest ∧
      (p.marshal ++ rest).drop (4 + p.valueLength + getPaddingSize (4 + p.valueLength)) =
        marshalAll ps := by
  have hlen := length_marshal p
  cases ps with
  | nil =>
    refine ⟨[], (List.append_nil _).symm, ?_⟩
    rw [List.append_nil]
    exact List.drop_eq_nil_of_le (by omega)
  | cons q ps =>
    refine ⟨zeros (getPaddingSize p.marshal.length) ++ marshalAll (q :: ps), ?_, ?_⟩
    · rw [marshalAll]
      exact nofun
    · rw [← List.append_assoc, List.drop_left']
      rw [List.length_append, zeros, List.length_replicate, hlen]

end Param

theorem ChunkInit.unmarshalParams_marshalAll {ps : List Param} (hok : ∀ p ∈ ps, p.Accepted)
    (hfits : Param.lengthAll ps + 20 < 2 ^ 16) (hlast : ∀ p ∈ ps.getLast?, p.valueLength ≠ 0)
    {raw : List Byte} {rounds offset : Nat} (hraw : raw.drop offset = Param.marshalAll ps)
    (hrounds : ps.length < rounds) : unmarshalParams raw raw.length rounds offset = .ok ps := by
  induction ps generalizing rounds offset with
  | nil =>
    obtain ⟨n, rfl⟩ : ∃ n, rounds = n + 1 := ⟨rounds - 1, by omega⟩
    have hend := List.drop_eq_nil_iff.mp hraw
    rw [unmarshalParams, if_neg (by omega)]
  | cons p ps ih =>
    obtain ⟨n, rfl⟩ : ∃ n, rounds = n + 1 := ⟨rounds - 1, by omega⟩
    obtain ⟨hp, hps⟩ := List.forall_mem_cons.mp hok
    have hlength := Param.lengthAll_cons p ps
    -- With the value of the last parameter, more than four bytes are left.
    have hmore : 4 < Param.lengthAll (p :: ps) := by
      cases ps with
      | nil =>
        have hvalue := hlast p rfl
        rw [Param.lengthAll]
        omega
      | cons q ps =>
        have hrest := Param.lengthAll_cons q ps
        omega
    have hdrop : raw.length - offset = Param.lengthAll (p :: ps) := by
      rw [← Param.length_marshalAll, ← hraw, List.length_drop]
    obtain ⟨rest, hfirst, hothers⟩ := Param.marshalAll_cons p ps
    have hnext : raw.drop (offset + (4 + p.valueLength + getPaddingSize (4 + p.valueLength))) =
        Param.marshalAll ps := by
      rw [← List.drop_drop, hraw, hfirst, hothers]
    have hlast' : ∀ q ∈ ps.getLast?, q.valueLength ≠ 0 := by
      cases ps with
      | nil => exact fun q hq => nomatch hq
      | cons q ps => exact fun r hr => hlast r (by rw [List.getLast?_cons_cons]; exact hr)
    have hcount : ps.length < n := by
      rw [List.length_cons] at hrounds
      omega
    rw [unmarshalParams, if_pos ⟨by omega, by omega⟩, slice_to_end (by omega), ok_bind, hraw, hfirst,
      Param.build_marshal hp (by omega), ok_bind]
    dsimp only
    rw [ih hps (by omega) hlast' hnext hcount, ok_bind]

end Rtc.Sctp.Wire
