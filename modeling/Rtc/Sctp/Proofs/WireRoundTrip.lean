import Rtc.Sctp.Proofs.WireParam

/-!
# Packets read back

What `marshal` writes for a packet, `PartialDecode::unmarshal` and `finish` read back. Each chunk is written with its
header and value, `Written`; its reader gives it back; and the loop of `finish` finds the chunks behind the padding.
-/

namespace Rtc.Sctp.Wire
open Shared Parse

namespace Chunk

/-- The chunk with its wire fields only: what the association adds to a DATA chunk is not sent. -/
def onWire : Chunk → Chunk
  | .payloadData c => .payloadData
    { unordered := c.unordered
      beginningFragment := c.beginningFragment
      endingFragment := c.endingFragment
      immediateSack := c.immediateSack
      tsn := c.tsn
      streamIdentifier := c.streamIdentifier
      streamSequenceNumber := c.streamSequenceNumber
      payloadType := c.payloadType
      userData := c.userData }
  | c => c

/-- The chunk can be written and read back. A HEARTBEAT holds one Heartbeat Info, a RECONFIG its first
    parameter, and the last parameter of an INIT a value. -/
def Readable : Chunk → Prop
  | .init c => (∀ p ∈ c.params, p.Accepted) ∧ ∀ p ∈ c.params.getLast?, p.valueLength ≠ 0
  | .heartbeat params => ∃ information, params = [.heartbeatInfo information]
  | .reconfig paramA paramB => paramA.isSome ∧ (∀ p ∈ paramA, p.Accepted) ∧ ∀ p ∈ paramB, p.Accepted
  | _ => True

/-- The length of the chunk fits its length field. -/
def Fits (c : Chunk) : Prop := 4 + c.valueLength < 2 ^ 16

instance (c : Chunk) : Decidable c.Fits := inferInstanceAs (Decidable (_ < _))

theorem valueLength_onWire (c : Chunk) : c.onWire.valueLength = c.valueLength := by
  cases c <;> rfl

/-! ## The bytes of a chunk -/

theorem length_flatMap_causes (causes : List ErrorCause) :
    (causes.flatMap ErrorCause.marshal).length = (causes.map ErrorCause.length).sum := by
  induction causes with
  | nil => rfl
  | cons e causes ih =>
    have hlen : e.marshal.length = e.length := by
      simp only [ErrorCause.marshal, ErrorCause.length, List.length_append, Bytes.length_toBe16]
      omega
    rw [List.flatMap_cons, List.length_append, ih, hlen, List.map_cons, List.sum_cons]

variable {c : Chunk} {v bytes : List Byte} {causes : List ErrorCause}

theorem length_value (h : c.value = .ok v) : v.length = c.valueLength := by
  cases c with
  | init c =>
    cases h
    simp only [valueLength, List.length_append, Bytes.length_toBe16, Bytes.length_toBe32,
      Param.length_marshalAll]
    omega
  | abort causes =>
    cases h
    exact length_flatMap_causes causes
  | error causes =>
    cases h
    exact length_flatMap_causes causes
  | heartbeat params =>
    cases h
    simp only [valueLength, List.length_flatMap, Param.length_marshal]
  | payloadData c =>
    cases h
    simp only [valueLength, List.length_append, Bytes.length_toBe16, Bytes.length_toBe32]
    omega
  | selectiveAck c =>
    cases h
    simp only [valueLength, List.length_append, List.length_flatMap, Bytes.length_toBe16,
      Bytes.length_toBe32, List.map_const', List.sum_replicate, smul_eq_mul]
    omega
  | reconfig paramA paramB =>
    cases paramA with
    | none => cases h
    | some a =>
      cases paramB with
      | none =>
        cases h
        exact Param.length_marshal a
      | some b =>
        cases h
        simp only [valueLength, Option.map_some, Option.getD_some, List.length_append,
          Param.length_marshal, zeros, List.length_replicate]
        omega
  | forwardTsn c =>
    cases h
    simp only [valueLength, List.length_append, List.length_flatMap, Bytes.length_toBe16,
      Bytes.length_toBe32, List.map_const', List.sum_replicate, smul_eq_mul]
    omega
  | cookieEcho cookie =>
    cases h
    rfl
  | shutdown tsn =>
    cases h
    rfl
  | cookieAck =>
    cases h
    rfl
  | shutdownAck =>
    cases h
    rfl
  | shutdownComplete =>
    cases h
    rfl

/-- `bytes` are the header of `c` and the value `v`, and are read so. -/
structure Written (c : Chunk) (v bytes : List Byte) : Prop where
  exact : Exact bytes
  headerOf_eq : headerOf bytes = c.header
  unmarshal : ChunkHeader.unmarshal bytes = .ok c.header
  length : bytes.length = 4 + c.valueLength
  toNat_eq : c.header.valueLength.toNat = c.valueLength
  slice_eq : (slice bytes 4 (4 + c.valueLength) : Parse Error _) = .ok v
  drop_eq : bytes.drop 4 = v

theorem written (hv : c.value = .ok v) (hfits : c.Fits) : Written c v (c.header.marshal ++ v) := by
  have hlen : (c.header.marshal ++ v).length = 4 + c.valueLength := by
    rw [List.length_append, length_value hv]
    rfl
  have hread : Bytes.readU16 (c.header.marshal ++ v) 2 = BitVec.ofNat 16 c.valueLength + 4#16 :=
    Bytes.be16_toBe16 _
  have hfield : lengthField (c.header.marshal ++ v) = 4 + c.valueLength := by
    rw [lengthField, hread, Param.toNat_ofNat_add_four hfits]
  have hexact : Exact (c.header.marshal ++ v) := ⟨by omega, by omega⟩
  have hheader : headerOf (c.header.marshal ++ v) = c.header := by
    rw [headerOf, hread, BitVec.add_sub_cancel]
    rfl
  refine ⟨hexact, hheader, hexact.unmarshal.trans (congrArg Except.ok hheader), hlen, ?_, ?_, rfl⟩
  · have hlt : c.valueLength < 2 ^ 16 := lt_of_le_of_lt (Nat.le_add_left _ 4) hfits
    exact (BitVec.toNat_ofNat _ _).trans (Nat.mod_eq_of_lt hlt)
  · have hslice := @slice_append Error 4 (4 + c.valueLength) c.header.marshal v [] rfl
      (by rw [length_value hv]; rfl)
    rwa [List.append_nil] at hslice

/-! ## One chunk read back -/

theorem unmarshalAll_marshal {raw : List Byte} {rounds offset : Nat}
    (hraw : raw.drop offset = causes.flatMap ErrorCause.marshal)
    (hfits : (causes.map ErrorCause.length).sum < 2 ^ 16) (hrounds : causes.length < rounds) :
    ErrorCause.unmarshalAll raw raw.length rounds offset = .ok causes := by
  induction causes generalizing rounds offset with
  | nil =>
    obtain ⟨n, rfl⟩ : ∃ n, rounds = n + 1 := ⟨rounds - 1, by omega⟩
    have hend := List.drop_eq_nil_iff.mp hraw
    rw [ErrorCause.unmarshalAll, if_neg (by omega)]
  | cons e causes ih =>
    obtain ⟨n, rfl⟩ : ∃ n, rounds = n + 1 := ⟨rounds - 1, by omega⟩
    rw [List.map_cons, List.sum_cons] at hfits
    rw [List.flatMap_cons] at hraw
    have hlen : e.marshal.length = e.length := by
      simp only [ErrorCause.marshal, ErrorCause.length, List.length_append, Bytes.length_toBe16]
      omega
    have hfour : e.length = e.raw.length + 4 := rfl
    have hdrop : raw.length - offset = e.length + (causes.flatMap ErrorCause.marshal).length := by
      rw [← hlen, ← List.length_append, ← hraw, List.length_drop]
    have hcause : ErrorCause.unmarshal (e.marshal ++ causes.flatMap ErrorCause.marshal) = .ok e := by
      have hfield : lengthField (e.marshal ++ causes.flatMap ErrorCause.marshal) = e.length := by
        have hread : Bytes.readU16 (e.marshal ++ causes.flatMap ErrorCause.marshal) 2 =
            BitVec.ofNat 16 (e.raw.length + 4) := Bytes.be16_toBe16 _
        rw [lengthField, hread, BitVec.toNat_ofNat, Nat.mod_eq_of_lt (by omega)]
        rfl
      have hcode : Bytes.readU16 (e.marshal ++ causes.flatMap ErrorCause.marshal) 0 = e.code :=
        Bytes.be16_toBe16 _
      have hraw' : (slice (e.marshal ++ causes.flatMap ErrorCause.marshal) 4
          (4 + (e.length - 4)) : Parse Error _) = .ok e.raw := by
        rw [ErrorCause.marshal, List.append_assoc, List.append_assoc, ← List.append_assoc]
        exact slice_append _ _ _ rfl (by simp only [List.length_append, Bytes.length_toBe16]; omega)
      rw [ErrorCause.unmarshal_of_length (by rw [List.length_append, hlen]; omega), hfield,
        if_neg (by omega), hraw', ok_bind, hcode]
    have hnext : raw.drop (offset + e.length) = causes.flatMap ErrorCause.marshal := by
      rw [← List.drop_drop, hraw, ← hlen, List.drop_left]
    have hcount : causes.length < n := by
      rw [List.length_cons] at hrounds
      omega
    rw [ErrorCause.unmarshalAll, if_pos (by omega), slice_to_end (by omega), ok_bind, hraw, hcause, ok_bind,
      ih hnext (by omega) hcount, ok_bind]

theorem length_causes_le (causes : List ErrorCause) : causes.length ≤ (causes.map ErrorCause.length).sum := by
  induction causes with
  | nil => exact le_rfl
  | cons e causes ih =>
    rw [List.length_cons, List.map_cons, List.sum_cons, ErrorCause.length]
    omega

theorem unmarshalCauses_written (h : Written c (causes.flatMap ErrorCause.marshal) bytes) (hfits : c.Fits)
    (hlength : c.valueLength = (causes.map ErrorCause.length).sum) (mismatch : Error) :
    unmarshalCauses c.typ mismatch bytes = .ok causes := by
  have hlen := h.length
  have hcount := length_causes_le causes
  have htyp : c.header.typ = c.typ := rfl
  unfold Fits at hfits
  rw [unmarshalCauses, h.unmarshal, ok_bind, if_neg (not_not.mpr htyp), h.toNat_eq, ← hlen]
  exact unmarshalAll_marshal h.drop_eq (by omega) (by omega)

theorem unmarshalEmpty_written (h : Written c v bytes)
    (mismatch : Error) : unmarshalEmpty c.typ mismatch c bytes = .ok c := by
  have htyp : c.header.typ = c.typ := rfl
  rw [unmarshalEmpty, h.unmarshal, ok_bind, if_neg (not_not.mpr htyp)]

theorem unmarshal_init {c : ChunkInit} (hv : (init c).value = .ok v)
    (h : Written (init c) v bytes) (hok : (init c).Readable) (hfits : (init c).Fits) :
    ChunkInit.unmarshal bytes = .ok c := by
  have hlen := h.length
  have hvalue : (init c).valueLength = 16 + Param.lengthAll c.params := rfl
  have htyp : (init c).header.typ = ctInit ∨ (init c).header.typ = ctInitAck := by
    change (if c.isAck then ctInitAck else ctInit) = _ ∨ (if c.isAck then ctInitAck else ctInit) = _
    cases c.isAck
    · exact .inl rfl
    · exact .inr rfl
  have hack : ((init c).header.typ == ctInitAck) = c.isAck := by
    change ((if c.isAck then ctInitAck else ctInit) == ctInitAck) = _
    cases c.isAck <;> rfl
  have hflags : (init c).header.flags = 0#8 := rfl
  have hcount := Param.length_le_lengthAll c.params
  unfold Fits at hfits
  cases hv
  have hdrop : bytes.drop (4 + 16) = Param.marshalAll c.params := by
    rw [← List.drop_drop, h.drop_eq]
    rfl
  have hparams := @ChunkInit.unmarshalParams_marshalAll c.params hok.1 (by omega) hok.2 bytes
    (bytes.length + 1) (4 + 16) hdrop (by omega)
  rw [ChunkInit.unmarshal, h.unmarshal, ok_bind, if_neg (not_not.mpr htyp), if_neg (by omega),
    h.toNat_eq, if_neg (by omega), if_neg (not_not.mpr hflags), h.slice_eq, ok_bind, ← hlen]
  simp only [getU32_toBe32, getU16_toBe16, ok_bind, hparams, hack]

theorem unmarshal_cookieEcho {cookie : List Byte} (h : Written (cookieEcho cookie) cookie bytes) :
    unmarshalCookieEcho bytes = .ok (cookieEcho cookie) := by
  have htyp : (cookieEcho cookie).header.typ = ctCookieEcho := rfl
  rw [unmarshalCookieEcho, h.unmarshal, ok_bind, if_neg (not_not.mpr htyp), h.toNat_eq, h.slice_eq]
  rfl

theorem unmarshal_heartbeat {information : List Byte}
    (h : Written (heartbeat [.heartbeatInfo information]) (Param.heartbeatInfo information).marshal bytes)
    (hfits : (heartbeat [.heartbeatInfo information]).Fits) :
    unmarshalHeartbeat bytes = .ok (heartbeat [.heartbeatInfo information]) := by
  have hlen := h.length
  have hvalue : (heartbeat [.heartbeatInfo information]).valueLength = 4 + information.length := rfl
  have htyp : (heartbeat [.heartbeatInfo information]).header.typ = ctHeartbeat := rfl
  unfold Fits at hfits
  have hbuild := @Param.build_marshal (.heartbeatInfo information) trivial
    (by rw [Param.valueLength]; omega) []
  rw [List.append_nil] at hbuild
  rw [unmarshalHeartbeat, h.unmarshal, ok_bind, if_neg (not_not.mpr htyp), if_neg (by omega),
    h.toNat_eq, h.slice_eq, ok_bind, hbuild, ok_bind]
  rfl

theorem ppiOfU32_ppiToU32 (ppi : PayloadProtocolIdentifier) : ppiOfU32 (ppiToU32 ppi) = ppi := by
  cases ppi <;> rfl

theorem unmarshal_payloadData {c : ChunkPayloadData}
    (hv : (payloadData c).value = .ok v) (h : Written (payloadData c) v bytes) :
    unmarshalPayloadData bytes = .ok (payloadData c).onWire := by
  have hlen := h.length
  have hvalue : (payloadData c).valueLength = 12 + c.userData.length := rfl
  have htyp : (payloadData c).header.typ = ctPayloadData := rfl
  cases hv
  have huser : (slice bytes (4 + 12) (4 + (payloadData c).valueLength) : Parse Error _) =
      .ok c.userData := by
    rw [Parse.slice_eq (by omega) (by omega), ← List.drop_drop, h.drop_eq]
    change Except.ok (c.userData.take _) = _
    rw [List.take_of_length_le (by omega)]
  rw [unmarshalPayloadData, h.unmarshal, ok_bind, if_neg (not_not.mpr htyp), if_neg (by omega),
    h.toNat_eq, if_neg (by omega), h.slice_eq, ok_bind]
  simp only [getU32_toBe32, getU16_toBe16, ok_bind, huser, ppiOfU32_ppiToU32]
  -- Each flag is a bit of its own.
  simp only [onWire, header, flags]
  cases c.unordered <;> cases c.beginningFragment <;> cases c.endingFragment <;>
    cases c.immediateSack <;> rfl

theorem getPair_toBe16 (s : BitVec 16 × BitVec 16) (rest : List Byte) :
    getPair (Bytes.toBe16 s.1 ++ Bytes.toBe16 s.2 ++ rest) = .ok (s, rest) := by
  rw [getPair, List.append_assoc, getU16_toBe16, ok_bind]
  dsimp only
  rw [getU16_toBe16, ok_bind]

theorem unmarshal_selectiveAck {c : ChunkSelectiveAck}
    (hv : (selectiveAck c).value = .ok v) (h : Written (selectiveAck c) v bytes)
    (hfits : (selectiveAck c).Fits) : unmarshalSelectiveAck bytes = .ok (selectiveAck c) := by
  have hlen := h.length
  have hvalue : (selectiveAck c).valueLength =
      12 + c.gapAckBlocks.length * 4 + c.duplicateTsn.length * 4 := rfl
  have htyp : (selectiveAck c).header.typ = ctSack := rfl
  unfold Fits at hfits
  cases hv
  have hgaps : (BitVec.ofNat 16 c.gapAckBlocks.length).toNat = c.gapAckBlocks.length := by
    rw [BitVec.toNat_ofNat, Nat.mod_eq_of_lt (by omega)]
  have hdups : (BitVec.ofNat 16 c.duplicateTsn.length).toNat = c.duplicateTsn.length := by
    rw [BitVec.toNat_ofNat, Nat.mod_eq_of_lt (by omega)]
  have hblocks := getMany_flatMap getPair_toBe16 (c.gapAckBlocks.map fun g => (g.start, g.end))
    (c.duplicateTsn.flatMap Bytes.toBe32)
  have htsns := getMany_flatMap (fun x rest => @getU32_toBe32 Error x rest) c.duplicateTsn []
  rw [List.length_map, List.flatMap_map] at hblocks
  rw [List.append_nil] at htsns
  rw [unmarshalSelectiveAck, h.unmarshal, ok_bind, if_neg (not_not.mpr htyp), h.toNat_eq,
    if_neg (by omega), if_neg (by omega), h.slice_eq, ok_bind]
  simp only [getU32_toBe32, getU16_toBe16, ok_bind, hgaps, hdups]
  rw [if_neg (by omega), if_neg (by omega)]
  simp only [hblocks, ok_bind, htsns, List.map_map]
  change Except.ok (selectiveAck ⟨_, _, c.gapAckBlocks.map id, _⟩) = _
  rw [List.map_id]

theorem unmarshal_reconfig {paramA paramB : Option Param}
    (hv : (reconfig paramA paramB).value = .ok v) (h : Written (reconfig paramA paramB) v bytes)
    (hok : (reconfig paramA paramB).Readable) (hfits : (reconfig paramA paramB).Fits) :
    unmarshalReconfig bytes = .ok (reconfig paramA paramB) := by
  have hlen := h.length
  have htyp : (reconfig paramA paramB).header.typ = ctReconfig := rfl
  unfold Fits at hfits
  obtain ⟨hsome, hokA, hokB⟩ := hok
  obtain ⟨a, rfl⟩ := Option.isSome_iff_exists.mp hsome
  have haccepted := hokA a rfl
  cases paramB with
  | none =>
    cases hv
    have hvalue : (reconfig (some a) none).valueLength = 4 + a.valueLength := rfl
    have hbuild := Param.build_marshal haccepted (by omega) []
    rw [List.append_nil] at hbuild
    rw [unmarshalReconfig, h.unmarshal, ok_bind, if_neg (not_not.mpr htyp), h.toNat_eq]
    dsimp only
    rw [h.slice_eq, ok_bind, hbuild, ok_bind, if_neg (by omega)]
  | some b =>
    cases hv
    have hvalue : (reconfig (some a) (some b)).valueLength =
        4 + a.valueLength + (4 + b.valueLength + getPaddingSize (4 + a.valueLength)) := rfl
    have hacceptedB := hokB b rfl
    have hbuild := Param.build_marshal haccepted (by omega)
      (zeros (getPaddingSize (4 + a.valueLength)) ++ b.marshal)
    have hbuildB := Param.build_marshal hacceptedB (by omega) []
    rw [List.append_nil] at hbuildB
    have hslice : (slice bytes (4 + 4 + a.valueLength + getPaddingSize (4 + a.valueLength))
        (4 + (reconfig (some a) (some b)).valueLength) : Parse Error _) = .ok b.marshal := by
      rw [← hlen, slice_to_end (by omega), show 4 + 4 + a.valueLength + getPaddingSize (4 + a.valueLength) =
        4 + (4 + a.valueLength + getPaddingSize (4 + a.valueLength)) by omega, ← List.drop_drop, h.drop_eq,
        ← List.append_assoc, List.drop_left']
      rw [List.length_append, Param.length_marshal, zeros, List.length_replicate]
    rw [unmarshalReconfig, h.unmarshal, ok_bind, if_neg (not_not.mpr htyp), h.toNat_eq]
    dsimp only
    rw [h.slice_eq, ok_bind, hbuild, ok_bind, if_pos (by omega), hslice, ok_bind, hbuildB, ok_bind]

theorem unmarshalForwardTsnStreams_flatMap {streams : List (StreamId × Ssn)} {buf : List Byte}
    {rounds offset remaining : Nat} (hremaining : remaining = 4 * streams.length)
    (hbuf : buf.drop offset = streams.flatMap fun s => Bytes.toBe16 s.1 ++ Bytes.toBe16 s.2)
    (hrounds : streams.length < rounds) :
    unmarshalForwardTsnStreams buf buf.length rounds offset remaining = .ok streams := by
  induction streams generalizing rounds offset remaining with
  | nil =>
    obtain ⟨n, rfl⟩ : ∃ n, rounds = n + 1 := ⟨rounds - 1, by omega⟩
    subst hremaining
    rfl
  | cons s streams ih =>
    obtain ⟨n, rfl⟩ : ∃ n, rounds = n + 1 := ⟨rounds - 1, by omega⟩
    rw [List.length_cons] at hremaining hrounds
    rw [List.flatMap_cons] at hbuf
    generalize htail : (streams.flatMap fun s => Bytes.toBe16 s.1 ++ Bytes.toBe16 s.2) = tail at hbuf ih
    have hfour : (Bytes.toBe16 s.1 ++ Bytes.toBe16 s.2).length = 4 := rfl
    have hlen : buf.length - offset = 4 + tail.length := by
      rw [← List.length_drop, hbuf, List.length_append, hfour]
    have hstream : unmarshalForwardTsnStream (Bytes.toBe16 s.1 ++ Bytes.toBe16 s.2 ++ tail) = .ok s := by
      rw [unmarshalForwardTsnStream, if_neg (by rw [List.length_append, hfour]; omega), getPair_toBe16,
        ok_bind]
    have hnext : buf.drop (offset + 4) = tail := by
      rw [← List.drop_drop, hbuf, List.drop_left' hfour]
    rw [unmarshalForwardTsnStreams, if_pos (by omega), slice_to_end (by omega), ok_bind, hbuf, hstream, ok_bind,
      ih (by omega) hnext (by omega), ok_bind]

theorem unmarshal_forwardTsn {c : ChunkForwardTsn}
    (hv : (forwardTsn c).value = .ok v) (h : Written (forwardTsn c) v bytes) :
    unmarshalForwardTsn bytes = .ok (forwardTsn c) := by
  have hlen := h.length
  have hvalue : (forwardTsn c).valueLength = 4 + 4 * c.streams.length := rfl
  have htyp : (forwardTsn c).header.typ = ctForwardTsn := rfl
  cases hv
  have hdrop : bytes.drop (4 + 4) = c.streams.flatMap fun s => Bytes.toBe16 s.1 ++ Bytes.toBe16 s.2 := by
    rw [← List.drop_drop, h.drop_eq]
    rfl
  have hstreams := @unmarshalForwardTsnStreams_flatMap c.streams bytes (bytes.length + 1) (4 + 4)
    (bytes.length - (4 + 4)) (by omega) hdrop (by omega)
  rw [unmarshalForwardTsn, h.unmarshal, ok_bind, if_neg (not_not.mpr htyp), if_neg (by omega), h.toNat_eq]
  dsimp only
  rw [h.slice_eq, ok_bind, getU32_toBe32, ok_bind, ← hlen, hstreams, ok_bind]

theorem unmarshal_shutdown {tsn : Tsn} (h : Written (shutdown tsn) (Bytes.toBe32 tsn) bytes) :
    unmarshalShutdown bytes = .ok (shutdown tsn) := by
  have hlen : bytes.length = 4 + 4 := h.length
  have hvalue : (shutdown tsn).header.valueLength.toNat = 4 := rfl
  have htyp : (shutdown tsn).header.typ = ctShutdown := rfl
  have hslice : (slice bytes 4 (4 + 4) : Parse Error _) = .ok (Bytes.toBe32 tsn) := h.slice_eq
  have hget := @getU32_toBe32 Error tsn []
  rw [List.append_nil] at hget
  rw [unmarshalShutdown, h.unmarshal, ok_bind, if_neg (not_not.mpr htyp), hvalue, if_neg (by omega),
    if_neg (by omega), hslice, ok_bind, hget, ok_bind]

theorem unmarshal_written (hv : c.value = .ok v) (h : Written c v bytes) (hok : c.Readable) (hfits : c.Fits) :
    unmarshal c.typ bytes = .ok c.onWire := by
  cases c with
  | init c =>
    have hread := unmarshal_init hv h hok hfits
    have heq : unmarshal (init c).typ bytes = init <$> ChunkInit.unmarshal bytes := by
      rw [typ]
      cases c.isAck <;> rfl
    rw [heq, hread]
    rfl
  | abort causes =>
    cases hv
    change abort <$> unmarshalCauses (abort causes).typ .errChunkTypeNotAbort bytes = _
    rw [unmarshalCauses_written h hfits rfl]
    rfl
  | error causes =>
    cases hv
    change Chunk.error <$> unmarshalCauses (Chunk.error causes).typ .errChunkTypeNotCt bytes = _
    rw [unmarshalCauses_written h hfits rfl]
    rfl
  | cookieEcho cookie =>
    cases hv
    exact unmarshal_cookieEcho h
  | cookieAck => exact unmarshalEmpty_written h .errChunkTypeNotCookieAck
  | heartbeat params =>
    obtain ⟨information, rfl⟩ := hok
    cases hv
    have hvalue : [Param.heartbeatInfo information].flatMap Param.marshal =
        (Param.heartbeatInfo information).marshal := List.append_nil _
    rw [hvalue] at h
    exact unmarshal_heartbeat h hfits
  | payloadData c => exact unmarshal_payloadData hv h
  | selectiveAck c => exact unmarshal_selectiveAck hv h hfits
  | reconfig paramA paramB => exact unmarshal_reconfig hv h hok hfits
  | forwardTsn c => exact unmarshal_forwardTsn hv h
  | shutdown tsn =>
    cases hv
    exact unmarshal_shutdown h
  | shutdownAck => exact unmarshalEmpty_written h .errChunkTypeNotShutdownAck
  | shutdownComplete => exact unmarshalEmpty_written h .errChunkTypeNotShutdownComplete

theorem value_of_readable (h : c.Readable) : ∃ v, c.value = .ok v := by
  cases c with
  | reconfig paramA paramB =>
    obtain ⟨a, rfl⟩ := Option.isSome_iff_exists.mp h.1
    cases paramB with
    | none => exact ⟨_, rfl⟩
    | some b => exact ⟨_, rfl⟩
  | _ => exact ⟨_, rfl⟩

theorem le_valueLength_of_typ (h : c.typ = ctInit ∨ c.typ = ctInitAck) : 16 ≤ c.valueLength := by
  cases c with
  | init c => exact Nat.le_add_right 16 _
  | _ => exact absurd h (by simp only [typ]; decide)

/-- A chunk as it stands in a packet, with its padding. -/
def padded (c : Chunk) : List Byte :=
  match c.marshal with
  | .ok bytes => bytes ++ zeros (getPaddingSize bytes.length)
  | .error _ => []

theorem marshal_of_readable (hok : c.Readable) (hfits : c.Fits) :
    ∃ v bytes, c.value = .ok v ∧ c.marshal = .ok bytes ∧ Written c v bytes ∧
      c.padded = bytes ++ zeros (getPaddingSize (4 + c.valueLength)) := by
  obtain ⟨v, hv⟩ := value_of_readable hok
  have hmarshal : c.marshal = .ok (c.header.marshal ++ v) := by
    rw [marshal, hv]
    rfl
  have hwritten := written hv hfits
  refine ⟨v, _, hv, hmarshal, hwritten, ?_⟩
  rw [padded, hmarshal, ← hwritten.length]

end Chunk

/-! ## Packets -/

theorem getPaddingSize_four_add (n : Nat) : getPaddingSize (4 + n) = getPaddingSize n := by
  unfold getPaddingSize
  omega

theorem add_getPaddingSize_mod (n : Nat) : (n + getPaddingSize n) % 4 = 0 := by
  unfold getPaddingSize
  omega

theorem length_zeros (n : Nat) : (zeros n).length = n := List.length_replicate

theorem readU16_append {bs rest : List Byte} {i : Nat} (h : i + 2 ≤ bs.length) :
    Bytes.readU16 (bs ++ rest) i = Bytes.readU16 bs i := by
  simp only [Bytes.readU16, List.getD_eq_getElem?_getD]
  rw [List.getElem?_append_left (by omega), List.getElem?_append_left (by omega)]

variable {bytes : List Byte} {chunks : List Chunk}

theorem Exact.lengthField_append (h : Exact bytes) (rest : List Byte) :
    lengthField (bytes ++ rest) = bytes.length :=
  (congrArg BitVec.toNat (readU16_append h.four_le)).trans h.field_eq

theorem Exact.typ_append (h : Exact bytes) (rest : List Byte) :
    (headerOf (bytes ++ rest)).typ = (headerOf bytes).typ := by
  have hpos : 0 < bytes.length := lt_of_lt_of_le (by decide) h.four_le
  change (bytes ++ rest).getD 0 0#8 = bytes.getD 0 0#8
  rw [List.getD_eq_getElem?_getD, List.getElem?_append_left hpos, ← List.getD_eq_getElem?_getD]

/-- Every chunk of the list can be written and read back, and fits its length field. -/
def AllReadable (chunks : List Chunk) : Prop := ∀ c ∈ chunks, c.Readable ∧ c.Fits

theorem length_padded {c : Chunk} (hok : c.Readable) (hfits : c.Fits) :
    c.padded.length = 4 + c.valueLength + getPaddingSize (4 + c.valueLength) := by
  obtain ⟨v, bytes, _, _, hwritten, hpadded⟩ := Chunk.marshal_of_readable hok hfits
  rw [hpadded, List.length_append, hwritten.length, length_zeros]

section

variable (h : AllReadable chunks)
include h

theorem Packet.writeChunks_eq {writer : List Byte} (hwriter : writer.length % 4 = 0) :
    writeChunks writer chunks = .ok (writer ++ chunks.flatMap Chunk.padded) := by
  induction chunks generalizing writer with
  | nil => rw [writeChunks, List.flatMap_nil, List.append_nil]
  | cons c chunks ih =>
    obtain ⟨⟨hok, hfits⟩, hrest⟩ := List.forall_mem_cons.mp h
    obtain ⟨v, bytes, _, hmarshal, hwritten, hpadded⟩ := Chunk.marshal_of_readable hok hfits
    have hsame : getPaddingSize (writer ++ bytes).length = getPaddingSize (4 + c.valueLength) := by
      rw [List.length_append, hwritten.length]
      unfold getPaddingSize
      omega
    have hnext : (writer ++ c.padded).length % 4 = 0 := by
      have hmod := add_getPaddingSize_mod (4 + c.valueLength)
      rw [List.length_append, length_padded hok hfits]
      omega
    have heq : writer ++ bytes ++ zeros (getPaddingSize (writer ++ bytes).length) = writer ++ c.padded := by
      rw [hsame, hpadded, List.append_assoc]
    rw [writeChunks, hmarshal]
    change writeChunks (writer ++ bytes ++ zeros (getPaddingSize (writer ++ bytes).length)) chunks = _
    rw [heq, ih hrest hnext, List.flatMap_cons, List.append_assoc]

theorem length_flatMap_padded :
    (chunks.flatMap Chunk.padded).length =
      (chunks.map fun c => 4 + c.valueLength + getPaddingSize (4 + c.valueLength)).sum := by
  induction chunks with
  | nil => rfl
  | cons c chunks ih =>
    obtain ⟨⟨hok, hfits⟩, hrest⟩ := List.forall_mem_cons.mp h
    rw [List.flatMap_cons, List.length_append, ih hrest, length_padded hok hfits, List.map_cons,
      List.sum_cons]

theorem length_le_flatMap_padded : chunks.length ≤ (chunks.flatMap Chunk.padded).length := by
  induction chunks with
  | nil => exact le_rfl
  | cons c chunks ih =>
    obtain ⟨⟨hok, hfits⟩, hrest⟩ := List.forall_mem_cons.mp h
    have hmore := ih hrest
    rw [List.flatMap_cons, List.length_append, length_padded hok hfits, List.length_cons]
    omega

theorem PartialDecode.finishFrom_padded
    {remaining : List Byte} {rounds offset : Nat} (hoffset : offset ≤ remaining.length)
    (hremaining : remaining.drop offset = chunks.flatMap Chunk.padded) (hrounds : chunks.length < rounds) :
    finishFrom remaining rounds offset = .ok (chunks.map Chunk.onWire) := by
  induction chunks generalizing rounds offset with
  | nil =>
    obtain ⟨n, rfl⟩ : ∃ n, rounds = n + 1 := ⟨rounds - 1, by omega⟩
    have hend := List.drop_eq_nil_iff.mp hremaining
    rw [finishFrom, if_pos (by omega)]
    rfl
  | cons c chunks ih =>
    obtain ⟨n, rfl⟩ : ∃ n, rounds = n + 1 := ⟨rounds - 1, by omega⟩
    obtain ⟨⟨hok, hfits⟩, hrest⟩ := List.forall_mem_cons.mp h
    obtain ⟨v, bytes, hv, _, hwritten, hpadded⟩ := Chunk.marshal_of_readable hok hfits
    rw [List.flatMap_cons] at hremaining
    have hsplit : remaining.drop offset =
        bytes ++ (zeros (getPaddingSize (4 + c.valueLength)) ++ chunks.flatMap Chunk.padded) := by
      rw [hremaining, hpadded, List.append_assoc]
    have hlength : remaining.length - offset = 4 + c.valueLength +
        getPaddingSize (4 + c.valueLength) + (chunks.flatMap Chunk.padded).length := by
      rw [← List.length_drop, hremaining, List.length_append, length_padded hok hfits]
    have hfield : lengthField (remaining.drop offset) = bytes.length := by
      rw [hsplit, hwritten.exact.lengthField_append]
    have hlen := hwritten.length
    have hslice : sliceChunk remaining offset = .ok bytes := by
      rw [sliceChunk_of_length (by omega), hfield, if_neg (by omega), if_neg (by omega), hsplit,
        List.take_left]
    have hnext : remaining.drop (offset +
        (4 + c.onWire.valueLength + getPaddingSize c.onWire.valueLength)) =
          chunks.flatMap Chunk.padded := by
      rw [Chunk.valueLength_onWire, ← getPaddingSize_four_add, ← List.drop_drop, hremaining,
        List.drop_left' (length_padded hok hfits)]
    have hcount : chunks.length < n := by
      rw [List.length_cons] at hrounds
      omega
    have hpos : offset + (4 + c.onWire.valueLength + getPaddingSize c.onWire.valueLength) ≤
        remaining.length := by
      rw [Chunk.valueLength_onWire, ← getPaddingSize_four_add]
      omega
    have htyp : (headerOf bytes).typ = c.typ := congrArg ChunkHeader.typ hwritten.headerOf_eq
    rw [finishFrom_succ hslice, htyp, Chunk.unmarshal_written hv hwritten hok hfits, ok_bind,
      ih hrest hpos hnext hcount, ok_bind]
    rfl

theorem headerFits_flatMap_padded (hne : chunks ≠ []) :
    HeaderFits (chunks.flatMap Chunk.padded) ∧
      ¬ PartialDecode.InitCut (chunks.flatMap Chunk.padded) := by
  cases chunks with
  | nil => exact absurd rfl hne
  | cons c chunks =>
    obtain ⟨⟨hok, hfits⟩, hrest⟩ := List.forall_mem_cons.mp h
    obtain ⟨v, bytes, _, _, hwritten, hpadded⟩ := Chunk.marshal_of_readable hok hfits
    have hlen := hwritten.length
    have htotal : ((c :: chunks).flatMap Chunk.padded).length =
        4 + c.valueLength + getPaddingSize (4 + c.valueLength) +
          (chunks.flatMap Chunk.padded).length := by
      rw [List.flatMap_cons, List.length_append, length_padded hok hfits]
    have hsplit : (c :: chunks).flatMap Chunk.padded =
        bytes ++ (zeros (getPaddingSize (4 + c.valueLength)) ++ chunks.flatMap Chunk.padded) := by
      rw [List.flatMap_cons, hpadded, List.append_assoc]
    have hfield : lengthField ((c :: chunks).flatMap Chunk.padded) = bytes.length := by
      rw [hsplit, hwritten.exact.lengthField_append]
    refine ⟨⟨by omega, by omega, by omega, ?_⟩, ?_⟩
    · -- Only the last chunk has less than a header behind it, which is its own padding.
      intro hclose b hb
      have hnil : chunks = [] := by
        cases chunks with
        | nil => rfl
        | cons c' chunks =>
          obtain ⟨⟨hok', hfits'⟩, _⟩ := List.forall_mem_cons.mp hrest
          have hmore : 4 ≤ ((c' :: chunks).flatMap Chunk.padded).length := by
            rw [List.flatMap_cons, List.length_append, length_padded hok' hfits']
            omega
          omega
      subst hnil
      rw [hfield, hsplit, List.drop_left, List.flatMap_nil, List.append_nil] at hb
      exact (List.mem_replicate.mp hb).2
    · rintro ⟨htyp, hcut⟩
      rw [hsplit, hwritten.exact.typ_append, hwritten.headerOf_eq] at htyp
      have hvalue := Chunk.le_valueLength_of_typ htyp
      omega

end

/-- Packets of chunks that can be read back, at least one, make a round trip: `marshal` writes
    `marshaled_len` bytes, and `unmarshal` and `finish` give the header and the wire fields of every chunk
    back. -/
theorem Packet.roundTrip (crc32c : List Byte → BitVec 32) (p : Packet) (hne : p.chunks ≠ [])
    (h : AllReadable p.chunks) :
    ∃ raw, p.marshal crc32c = .ok raw ∧ raw.length = p.marshaledLen ∧
      (PartialDecode.unmarshal crc32c raw >>= PartialDecode.finish) =
        .ok ⟨p.commonHeader, p.chunks.map Chunk.onWire⟩ := by
  have hwrite : Packet.writeChunks [] p.chunks = .ok (p.chunks.flatMap Chunk.padded) :=
    Packet.writeChunks_eq h rfl
  obtain ⟨hfits, hcut⟩ := headerFits_flatMap_padded h hne
  refine ⟨framed crc32c p.commonHeader (p.chunks.flatMap Chunk.padded), ?_, ?_, ?_⟩
  · rw [Packet.marshal, hwrite]
    rfl
  · rw [length_framed, length_flatMap_padded h]
    rfl
  · have hfour := hfits.four_le
    have hheader := (ChunkHeader.unmarshal_eq_ok _ _).mpr ⟨hfits, rfl⟩
    have hcount := length_le_flatMap_padded h
    have hfinish := @PartialDecode.finishFrom_padded p.chunks h (p.chunks.flatMap Chunk.padded)
      ((p.chunks.flatMap Chunk.padded).length + 1) 0 (Nat.zero_le _) rfl (by omega)
    rw [PartialDecode.unmarshal_framed, if_neg (by omega), hheader, ok_bind]
    rcases @PartialDecode.peek_cases (framed crc32c p.commonHeader (p.chunks.flatMap Chunk.padded)) hfits
      with ⟨hcut', _⟩ | ⟨_, shown, hpeek⟩
    · exact absurd hcut' hcut
    · have hpeek' : PartialDecode.peek (framed crc32c p.commonHeader (p.chunks.flatMap Chunk.padded))
          ((p.chunks.flatMap Chunk.padded).drop 4) (headerOf (p.chunks.flatMap Chunk.padded)) =
            .ok shown := hpeek
      rw [hpeek', ok_bind]
      dsimp only
      rw [ok_bind, PartialDecode.finish, hfinish, ok_bind]

/-- An INIT with three bytes of random data and a COOKIE ECHO behind its padding. -/
def bundledPacket : Packet :=
  ⟨⟨5000, 5000, 0⟩, [.init { initiateTag := 7, params := [.forwardTsnSupported, .random [1, 2, 3]] },
    .cookieEcho [9]]⟩

theorem Packet.roundTrip_bundled : bundledPacket.chunks ≠ [] ∧ AllReadable bundledPacket.chunks ∧
    ∃ raw, bundledPacket.marshal (fun _ => 0#32) = .ok raw ∧ raw.length = bundledPacket.marshaledLen ∧
      (PartialDecode.unmarshal (fun _ => 0#32) raw >>= PartialDecode.finish) =
        .ok ⟨bundledPacket.commonHeader, bundledPacket.chunks.map Chunk.onWire⟩ := by
  have hne : bundledPacket.chunks ≠ [] := List.cons_ne_nil _ _
  have hall : AllReadable bundledPacket.chunks := by
    intro c hc
    rcases List.mem_cons.mp hc with rfl | hc
    · refine ⟨⟨fun p hp => ?_, fun p hp => ?_⟩, by decide⟩
      · rcases List.mem_cons.mp hp with rfl | hp
        · trivial
        · rw [List.mem_singleton.mp hp]
          trivial
      · cases hp
        decide
    · rw [List.mem_singleton.mp hc]
      exact ⟨trivial, by decide⟩
  exact ⟨hne, hall, Packet.roundTrip (fun _ => 0#32) bundledPacket hne hall⟩

/-- A packet without a chunk, a HEARTBEAT without a parameter and an INIT that asks for a reserved HMAC
    algorithm are written and refused by the reader; a RECONFIG without its first parameter is not
    written. -/
theorem Packet.roundTrip_refused :
    let crc32c : List Byte → BitVec 32 := fun _ => 0#32
    let h : CommonHeader := ⟨5000, 5000, 0⟩
    let parse (p : Packet) : Except Error (Parse Error Packet) :=
      (fun raw => PartialDecode.unmarshal crc32c raw >>= PartialDecode.finish) <$> p.marshal crc32c
    parse ⟨h, []⟩ = .ok (fail .errParseSctpChunkNotEnoughData) ∧
    parse ⟨h, [.heartbeat []]⟩ = .ok (fail .errHeartbeatNotLongEnoughInfo) ∧
    parse ⟨h, [.init { params := [.requestedHmacAlgorithm [.hmacResv1]] }]⟩ =
      .ok (fail .errInvalidAlgorithmType) ∧
    parse ⟨h, [.reconfig none none]⟩ = .error .errChunkReconfigInvalidParamA := by
  intro crc32c h parse
  have hparse : ∀ p chunks, Packet.writeChunks [] p.chunks = .ok chunks → parse p =
      .ok (PartialDecode.unmarshal crc32c (framed crc32c p.commonHeader chunks) >>=
        PartialDecode.finish) := by
    intro p chunks hwrite
    change _ <$> p.marshal crc32c = _
    rw [Packet.marshal, hwrite]
    rfl
  refine ⟨?_, ?_, ?_, rfl⟩
  · rw [hparse _ [] rfl, PartialDecode.unmarshal_framed]
    rfl
  · rw [hparse _ [4, 0, 0, 4] rfl, PartialDecode.unmarshal_framed]
    rfl
  · rw [hparse _ [1, 0, 0, 26, 0, 0, 0, 0, 0, 0, 0, 0, 0, 0, 0, 0, 0, 0, 0, 0, 128, 4, 0, 6, 0, 0, 0, 0]
      rfl, PartialDecode.unmarshal_framed]
    rfl

end Rtc.Sctp.Wire
