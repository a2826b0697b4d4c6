import Rtc.Rtp.Proofs.HeaderRoundTrip

/-!
# Header extensions as a map

A run of `set_extension` and `del_extension` calls against the map from ids to payloads that the calls describe. The
map survives the wire only if it can be written in the profile that the first call selected, which checks neither its
id nor for an empty payload.
-/

namespace Rtc.Rtp
open Bytes Shared

inductive ExtensionCall where
  | set (id : Byte) (payload : List Byte)
  | del (id : Byte)
  deriving DecidableEq, Repr

namespace ExtensionCall

def apply (h : Header) : ExtensionCall → Except Error Header
  | set id payload => h.setExtension id payload
  | del id => h.delExtension id

/-- What the call means for the map from ids to payloads. -/
def update (m : Byte → Option (List Byte)) : ExtensionCall → Byte → Option (List Byte)
  | set id payload => Function.update m id (some payload)
  | del id => Function.update m id none

end ExtensionCall

/-- The payload last set for an id and not deleted since. -/
def lastSet (calls : List ExtensionCall) : Byte → Option (List Byte) :=
  calls.foldl ExtensionCall.update fun _ => none

/-- The header after the calls, if every one of them succeeds. -/
def Header.applyAll (h : Header) (calls : List ExtensionCall) : Except Error Header :=
  calls.foldlM ExtensionCall.apply h

/-! ## Lookup in the list of elements -/

/-- The payload of the first element with this id. -/
def payloadOf (es : List Extension) (id : Byte) : Option (List Byte) :=
  (es.find? fun e => e.id = id).map Extension.payload

@[simp] theorem payloadOf_nil (id : Byte) : payloadOf [] id = none := rfl

theorem payloadOf_cons (e : Extension) (es : List Extension) (id : Byte) :
    payloadOf (e :: es) id = if id = e.id then some e.payload else payloadOf es id := by
  unfold payloadOf
  by_cases h : id = e.id
  · simp [h]
  · simp [h, Ne.symm h]

def payloadBytes (es : List Extension) : Nat := (es.map fun e => e.payload.length).sum

@[simp] theorem payloadBytes_nil : payloadBytes [] = 0 := rfl

@[simp] theorem payloadBytes_cons (e : Extension) (es : List Extension) :
    payloadBytes (e :: es) = e.payload.length + payloadBytes es := rfl

variable {es : List Extension} {id : Byte} {old : Extension}

theorem payloadOf_append_of_none (hid : payloadOf es id = none) (payload : List Byte) (j : Byte) :
    payloadOf (es ++ [⟨id, payload⟩]) j = if j = id then some payload else payloadOf es j := by
  induction es with
  | nil => rw [List.nil_append, payloadOf_cons]
  | cons e es ih =>
    rw [payloadOf_cons] at hid
    have hne : id ≠ e.id := by
      rintro rfl
      simp at hid
    rw [if_neg hne] at hid
    rw [List.cons_append, payloadOf_cons, payloadOf_cons, ih hid]
    by_cases hj : j = e.id
    · simp [hj, Ne.symm hne]
    · simp [hj]

theorem payloadOf_replacePayload (hid : payloadOf es id ≠ none) (payload : List Byte) (j : Byte) :
    payloadOf (Header.replacePayload id payload es) j =
      if j = id then some payload else payloadOf es j := by
  induction es with
  | nil => exact absurd rfl hid
  | cons e es ih =>
    rw [Header.replacePayload]
    by_cases he : e.id = id
    · subst he
      simp only [if_true, payloadOf_cons]
      split <;> rfl
    · rw [payloadOf_cons, if_neg (Ne.symm he)] at hid
      simp only [if_neg he, payloadOf_cons, ih hid]
      by_cases hj : j = e.id
      · simp [hj, he]
      · simp [hj]

theorem map_id_replacePayload (id : Byte) (payload : List Byte) (es : List Extension) :
    (Header.replacePayload id payload es).map Extension.id = es.map Extension.id := by
  induction es with
  | nil => rfl
  | cons e es ih =>
    rw [Header.replacePayload]
    split
    · rfl
    · rw [List.map_cons, List.map_cons, ih]

theorem payloadBytes_replacePayload (hold : es.find? (fun e => e.id = id) = some old) (payload : List Byte) :
    payloadBytes (Header.replacePayload id payload es) + old.payload.length =
      payloadBytes es + payload.length := by
  induction es with
  | nil => simp at hold
  | cons e es ih =>
    rw [Header.replacePayload]
    by_cases he : e.id = id
    · rw [List.find?_cons_of_pos (by simpa using he)] at hold
      obtain rfl := Option.some.inj hold
      rw [if_pos he, payloadBytes_cons, payloadBytes_cons]
      dsimp only
      omega
    · rw [List.find?_cons_of_neg (by simpa using he)] at hold
      have := ih hold
      rw [if_neg he, payloadBytes_cons, payloadBytes_cons]
      omega

theorem payloadOf_eraseP (hnodup : (es.map Extension.id).Nodup) (id j : Byte) :
    payloadOf (es.eraseP fun e => e.id = id) j = if j = id then none else payloadOf es j := by
  induction es with
  | nil => simp
  | cons e es ih =>
    obtain ⟨hnot, hnodup⟩ := List.nodup_cons.mp hnodup
    by_cases he : e.id = id
    · subst he
      rw [List.eraseP_cons_of_pos (by simp), payloadOf_cons]
      by_cases hj : j = e.id
      · subst hj
        -- no other element has the id
        have hnone : es.find? (fun x => x.id = e.id) = none := by
          refine List.find?_eq_none.mpr fun x hx => ?_
          rw [decide_eq_true_eq]
          exact fun heq => hnot (heq ▸ List.mem_map_of_mem hx)
        simp [payloadOf, hnone]
      · simp [hj]
    · rw [List.eraseP_cons_of_neg (by simpa using he), payloadOf_cons, payloadOf_cons, ih hnodup]
      by_cases hj : j = e.id
      · simp [hj, he]
      · simp [hj]

theorem payloadBytes_eraseP (hold : es.find? (fun e => e.id = id) = some old) :
    payloadBytes (es.eraseP fun e => e.id = id) + old.payload.length = payloadBytes es ∧
      (es.eraseP fun e => e.id = id).length + 1 = es.length := by
  induction es with
  | nil => simp at hold
  | cons e es ih =>
    by_cases he : e.id = id
    · rw [List.find?_cons_of_pos (by simpa using he)] at hold
      obtain rfl := Option.some.inj hold
      rw [List.eraseP_cons_of_pos (by simpa using he), payloadBytes_cons, List.length_cons]
      exact ⟨Nat.add_comm _ _, rfl⟩
    · rw [List.find?_cons_of_neg (by simpa using he)] at hold
      obtain ⟨hbytes, hlength⟩ := ih hold
      rw [List.eraseP_cons_of_neg (by simpa using he), payloadBytes_cons, payloadBytes_cons,
        List.length_cons, List.length_cons]
      omega

theorem mem_iff_payloadOf (hnodup : (es.map Extension.id).Nodup)
    (e : Extension) : e ∈ es ↔ payloadOf es e.id = some e.payload := by
  induction es with
  | nil => simp
  | cons x es ih =>
    obtain ⟨hnot, hnodup⟩ := List.nodup_cons.mp hnodup
    rw [List.mem_cons, payloadOf_cons, ih hnodup]
    by_cases hx : e.id = x.id
    · have hnone : e ∉ es := fun hmem => hnot (hx ▸ List.mem_map_of_mem hmem)
      rw [if_pos hx]
      constructor
      · rintro (rfl | hmem)
        · rfl
        · exact absurd ((ih hnodup).mpr hmem) hnone
      · intro heq
        refine .inl ?_
        obtain ⟨id, payload⟩ := x
        obtain ⟨id', payload'⟩ := e
        simp_all
    · rw [if_neg hx]
      constructor
      · rintro (rfl | hmem)
        · exact absurd rfl hx
        · exact hmem
      · exact .inr

/-! ## Padding -/

theorem takePadding_spec {padding : Nat} (h : padding < 4) (grown : Nat) :
    Header.takePadding padding grown < 4 ∧
      (grown + Header.takePadding padding grown) % 4 = padding := by
  unfold Header.takePadding
  split <;> omega

theorem shiftPadding_spec {padding size : Nat} (h : padding < 4)
    (haligned : (size + padding) % 4 = 0) {size' : Nat} {delta : Int} (hsize : (size' : Int) = size + delta) :
    Header.shiftPadding padding delta < 4 ∧
      (size' + Header.shiftPadding padding delta) % 4 = 0 := by
  unfold Header.shiftPadding Header.takePadding
  split
  · omega
  · split
    · split <;> omega
    · omega

/-! ## One call -/

namespace Header

structure NoExtensions (h : Header) : Prop where
  extension : h.extension = false
  extensionProfile : h.extensionProfile = 0#16
  extensions : h.extensions = []
  extensionsPadding : h.extensionsPadding = 0

/-- A header with a block of this profile holds the map `m`, and is otherwise the header `start`. -/
structure Holds (start : Header) (profile : BitVec 16) (m : Byte → Option (List Byte))
    (h : Header) : Prop where
  extension : h.extension = true
  extensionProfile : h.extensionProfile = profile
  payloadOf : ∀ id, payloadOf h.extensions id = m id
  nodup : (h.extensions.map Extension.id).Nodup
  padding : h.extensionsPadding < 4
  aligned : (h.getExtensionPayloadLen + h.extensionsPadding) % 4 = 0
  version : h.version = start.version
  payloadType : h.payloadType = start.payloadType
  csrc : h.csrc = start.csrc

theorem getExtensionPayloadLen_eq (h : Header) : h.getExtensionPayloadLen =
    payloadBytes h.extensions + h.extensions.length * elementOverhead h.extensionProfile := rfl

variable {id : Byte} {payload : List Byte} {f : ElementForm}

theorem NoExtensions.holds {h : Header} (hnone : h.NoExtensions)
    {h' : Header} (hset : h.setExtension id payload = .ok h') :
    Holds h (selectProfile 0#16 payload.length)
      (ExtensionCall.update (fun _ => none) (.set id payload)) h' := by
  rw [setExtension, hnone.extension, if_neg Bool.false_ne_true, hnone.extensionProfile,
    hnone.extensions, hnone.extensionsPadding] at hset
  obtain rfl := Except.ok.inj hset
  have hoverhead : elementOverhead (selectProfile 0#16 payload.length) =
      selectOverhead payload.length := by
    unfold selectProfile selectOverhead
    split
    · rfl
    · split <;> rfl
  obtain ⟨hlt, haligned⟩ :=
    takePadding_spec (Nat.zero_lt_succ 3) (payload.length + selectOverhead payload.length)
  refine ⟨rfl, rfl, fun j => ?_, List.nodup_singleton _, hlt, ?_, rfl, rfl, rfl⟩
  · rw [List.nil_append, payloadOf_cons, payloadOf_nil, ExtensionCall.update,
      Function.update_apply]
  · rw [getExtensionPayloadLen_eq]
    dsimp only
    rw [hoverhead, List.nil_append, payloadBytes_cons, payloadBytes_nil, List.length_singleton,
      Nat.one_mul]
    exact haligned

variable {start : Header} {profile : BitVec 16} {m : Byte → Option (List Byte)} {h h' : Header}

section

variable (hh : Holds start profile m h)
include hh

theorem Holds.set (hset : h.setExtension id payload = .ok h') :
    Holds start profile (ExtensionCall.update m (.set id payload)) h' := by
  rw [setExtension, if_pos hh.extension] at hset
  have hmap : ∀ j, (if j = id then some payload else Rtp.payloadOf h.extensions j) =
      ExtensionCall.update m (.set id payload) j := by
    intro j
    rw [ExtensionCall.update, Function.update_apply, hh.payloadOf]
  have haligned := hh.aligned
  rw [getExtensionPayloadLen_eq] at haligned
  cases hcheck : checkExtension h.extensionProfile id payload.length with
  | some e =>
    rw [hcheck] at hset
    cases hset
  | none =>
    rw [hcheck] at hset
    dsimp only at hset
    cases hold : h.extensions.find? fun e => e.id = id with
    | some old =>
      rw [hold] at hset
      obtain rfl := Except.ok.inj hset
      have hbytes := payloadBytes_replacePayload hold payload
      have hlength := congrArg List.length (map_id_replacePayload id payload h.extensions)
      rw [List.length_map, List.length_map] at hlength
      have hsize : ((payloadBytes (replacePayload id payload h.extensions) +
          h.extensions.length * elementOverhead h.extensionProfile : Nat) : Int) =
          (payloadBytes h.extensions + h.extensions.length * elementOverhead h.extensionProfile : Nat) +
            ((payload.length : Int) - old.payload.length) := by
        omega
      obtain ⟨hlt, hpad⟩ := shiftPadding_spec hh.padding haligned hsize
      refine ⟨hh.extension, hh.extensionProfile, fun j => ?_, ?_, hlt, ?_, hh.version,
        hh.payloadType, hh.csrc⟩
      · rw [← hmap j]
        exact payloadOf_replacePayload (by simp [Rtp.payloadOf, hold]) payload j
      · rw [map_id_replacePayload]
        exact hh.nodup
      · rw [getExtensionPayloadLen_eq]
        dsimp only
        rwa [hlength]
    | none =>
      rw [hold] at hset
      obtain rfl := Except.ok.inj hset
      have hnone : Rtp.payloadOf h.extensions id = none := by simp [Rtp.payloadOf, hold]
      have hbytes : payloadBytes (h.extensions ++ [⟨id, payload⟩]) =
          payloadBytes h.extensions + payload.length := by
        simp [payloadBytes]
      have hsize : ((payloadBytes (h.extensions ++ [⟨id, payload⟩]) +
          (h.extensions ++ [(⟨id, payload⟩ : Extension)]).length *
            elementOverhead h.extensionProfile : Nat) : Int) =
          (payloadBytes h.extensions + h.extensions.length * elementOverhead h.extensionProfile : Nat) +
            ((payload.length : Int) + elementOverhead h.extensionProfile) := by
        rw [hbytes, List.length_append, List.length_singleton, Nat.add_mul, Nat.one_mul]
        omega
      obtain ⟨hlt, hpad⟩ := shiftPadding_spec hh.padding haligned hsize
      refine ⟨hh.extension, hh.extensionProfile, fun j => ?_, ?_, hlt, hpad, hh.version,
        hh.payloadType, hh.csrc⟩
      · rw [← hmap j]
        exact payloadOf_append_of_none hnone payload j
      · rw [List.map_append, List.nodup_append]
        refine ⟨hh.nodup, List.nodup_singleton _, ?_⟩
        rintro x hx y hy rfl
        obtain ⟨e, he, rfl⟩ := List.mem_map.mp hx
        have hid : e.id = id := by simpa using hy
        have := (mem_iff_payloadOf hh.nodup e).mp he
        rw [hid, hnone] at this
        cases this

theorem Holds.del (hdel : h.delExtension id = .ok h') :
    Holds start profile (ExtensionCall.update m (.del id)) h' := by
  rw [delExtension, if_pos hh.extension] at hdel
  cases hold : h.extensions.find? fun e => e.id = id with
  | none =>
    rw [hold] at hdel
    cases hdel
  | some old =>
    rw [hold] at hdel
    obtain rfl := Except.ok.inj hdel
    obtain ⟨hbytes, hlength⟩ := payloadBytes_eraseP hold
    have haligned := hh.aligned
    rw [getExtensionPayloadLen_eq, ← hlength, ← hbytes, Nat.add_mul, Nat.one_mul] at haligned
    refine ⟨hh.extension, hh.extensionProfile, fun j => ?_, ?_, Nat.mod_lt _ (by decide), ?_,
      hh.version, hh.payloadType, hh.csrc⟩
    · rw [payloadOf_eraseP hh.nodup, hh.payloadOf, ExtensionCall.update, Function.update_apply]
    · exact (List.Sublist.map Extension.id (List.eraseP_sublist)).nodup hh.nodup
    · rw [getExtensionPayloadLen_eq]
      dsimp only
      omega

theorem Holds.apply {call : ExtensionCall}
    (happly : call.apply h = .ok h') : Holds start profile (call.update m) h' := by
  cases call with
  | set id payload => exact hh.set happly
  | del id => exact hh.del happly

theorem Holds.applyAll {calls : List ExtensionCall} (hrun : h.applyAll calls = .ok h') :
    Holds start profile (calls.foldl ExtensionCall.update m) h' := by
  induction calls generalizing h m with
  | nil =>
    obtain rfl := Except.ok.inj hrun
    exact hh
  | cons call calls ih =>
    rw [Header.applyAll, List.foldlM_cons] at hrun
    cases hcall : call.apply h with
    | error e =>
      rw [hcall] at hrun
      cases hrun
    | ok next =>
      rw [hcall] at hrun
      exact ih (hh.apply hcall) hrun

/-! ## Which maps can be written -/

theorem Holds.fits_iff (f : ElementForm) :
    (∀ e ∈ h.extensions, f.Fits e) ↔ ∀ id payload, m id = some payload → f.Fits ⟨id, payload⟩ := by
  constructor
  · intro hfits id payload hm
    exact hfits _ ((mem_iff_payloadOf hh.nodup ⟨id, payload⟩).mpr ((hh.payloadOf id).trans hm))
  · intro hfits e he
    exact hfits e.id e.payload ((hh.payloadOf e.id).symm.trans ((mem_iff_payloadOf hh.nodup e).mp he))

end

/-- Elements with different ids that fit their form are short enough for the length field. -/
theorem flatMap_form_lt {es : List Extension} (hnodup : (es.map Extension.id).Nodup)
    (hfits : ∀ e ∈ es, f.Fits e) : (es.flatMap f.bytes).length < 2 ^ 16 := by
  have hbound : ∀ bound, (∀ e ∈ es, (f.bytes e).length ≤ bound) →
      (es.flatMap f.bytes).length ≤ es.length * bound := by
    intro bound hle
    rw [List.length_flatMap, ← List.length_map (f := fun e => (f.bytes e).length)]
    refine List.sum_le_card_nsmul _ bound ?_
    intro n hn
    obtain ⟨e, he, rfl⟩ := List.mem_map.mp hn
    exact hle e he
  have hcount : ∀ ids : Finset Nat, (∀ e ∈ es, e.id.toNat ∈ ids) → es.length ≤ ids.card := by
    intro ids hmem
    have hnodup' : ((es.map Extension.id).map BitVec.toNat).Nodup :=
      hnodup.map fun _ _ => BitVec.eq_of_toNat_eq
    rw [← List.length_map Extension.id, ← List.length_map BitVec.toNat,
      ← List.toFinset_card_of_nodup hnodup', List.map_map]
    refine Finset.card_le_card fun id hid => ?_
    obtain ⟨e, he, rfl⟩ := List.mem_map.mp (List.mem_toFinset.mp hid)
    exact hmem e he
  cases f with
  | oneByte =>
    have hlen := hcount (Finset.range 256) fun e _ => Finset.mem_range.mpr e.id.isLt
    rw [Finset.card_range] at hlen
    have hle := hbound 17 fun e he => by
      obtain ⟨-, ⟨-, hle⟩, -⟩ := hfits e he
      rw [ElementForm.length_bytes, ElementForm.overhead]
      omega
    omega
  | twoByte =>
    have hlen := hcount (Finset.Ico 1 256) fun e he => by
      have hpos : e.id.toNat ≠ 0 := fun hzero => (hfits e he).1 (BitVec.eq_of_toNat_eq hzero)
      exact Finset.mem_Ico.mpr ⟨by omega, e.id.isLt⟩
    rw [Nat.card_Ico] at hlen
    have hle := hbound 257 fun e he => by
      rw [ElementForm.length_bytes]
      exact (hfits e he).length_le
    omega

theorem Holds.formWritable_iff (hh : Holds start f.profile m h) :
    FormWritable f h ↔ ∀ id payload, m id = some payload → f.Fits ⟨id, payload⟩ := by
  rw [← hh.fits_iff]
  refine ⟨FormWritable.fits, fun hfits => ⟨hfits, hh.aligned, hh.padding, ?_⟩⟩
  rw [← length_elements hh.extensionProfile]
  exact flatMap_form_lt hh.nodup hfits

/-- A map with one entry, at the id 0, in whole words. -/
def OnePlain (m : Byte → Option (List Byte)) : Prop :=
  ∃ payload, m 0#8 = some payload ∧ payload.length % 4 = 0 ∧ payload.length < 2 ^ 16 ∧
    ∀ id, id ≠ 0#8 → m id = none

theorem Holds.plainWritable_iff (hh : Holds start profile m h)
    (hone : profile ≠ extensionProfileOneByte) (htwo : profile ≠ extensionProfileTwoByte) :
    PlainWritable h ↔ OnePlain m := by
  have hmem := mem_iff_payloadOf hh.nodup
  constructor
  · rintro ⟨⟨payload, hes, haligned, hshort⟩, -⟩
    have hm : ∀ id, m id = if id = 0#8 then some payload else none := by
      intro id
      rw [← hh.payloadOf, hes, payloadOf_cons, payloadOf_nil]
    exact ⟨payload, by simp [hm], haligned, hshort, fun id hid => by simp [hm, hid]⟩
  · rintro ⟨payload, hzero, haligned, hshort, hothers⟩
    have hall : ∀ e ∈ h.extensions, e = ⟨0#8, payload⟩ := by
      rintro ⟨id, p⟩ he
      have hp := (hh.payloadOf id).symm.trans ((hmem ⟨id, p⟩).mp he)
      by_cases hid : id = 0#8
      · subst hid
        rw [hzero] at hp
        rw [Option.some.inj hp]
      · rw [hothers id hid] at hp
        cases hp
    have hin : (⟨0#8, payload⟩ : Extension) ∈ h.extensions :=
      (hmem ⟨0#8, payload⟩).mpr ((hh.payloadOf 0#8).trans hzero)
    have hes : h.extensions = [⟨0#8, payload⟩] := by
      have hrep := List.eq_replicate_of_mem hall
      have hlen : h.extensions.length = 1 := by
        have hnodup := hh.nodup
        have hpos := List.length_pos_of_mem hin
        rw [hrep, List.map_replicate, List.nodup_replicate] at hnodup
        omega
      rw [hrep, hlen]
      rfl
    refine ⟨⟨payload, hes, haligned, hshort⟩, ?_⟩
    have := hh.aligned
    have := hh.padding
    rw [getExtensionPayloadLen_eq, hes, hh.extensionProfile, elementOverhead, if_neg hone,
      if_neg htwo, payloadBytes_cons, payloadBytes_nil] at *
    dsimp only at *
    omega

/-! ## Runs of calls -/

/-- The map that the calls leave can be written in the profile that the first of them selects. -/
def CallsFit (calls : List ExtensionCall) : Prop :=
  match calls with
  | .set _ payload :: _ =>
    if payload.length ≤ 16 then
      ∀ id p, lastSet calls id = some p → ElementForm.oneByte.Fits ⟨id, p⟩
    else if payload.length ≤ 255 then
      ∀ id p, lastSet calls id = some p → ElementForm.twoByte.Fits ⟨id, p⟩
    else OnePlain (lastSet calls)
  | _ => True

/-- The header is written in `marshal_size` bytes, read back from them with none left, and then gives
    the payloads of `m`. -/
def SurvivesWire (h : Header) (m : Byte → Option (List Byte)) : Prop :=
  ∃ out, h.marshal = .ok out ∧ out.length = h.marshalSize ∧ unmarshal out = .ok (h, []) ∧
    ∀ id, h.getExtension id = m id

theorem survivesWire_iff_writable (hget : ∀ id, h.getExtension id = m id) : h.SurvivesWire m ↔ h.Writable := by
  constructor
  · rintro ⟨out, hm, -, hu, -⟩
    rw [← List.append_nil out] at hu
    exact writable_of_round_trip hm hu
  · intro hw
    obtain ⟨out, hm, hu⟩ := hw.round_trip
    have hall := hu []
    rw [List.append_nil] at hall
    exact ⟨out, hm, (marshal_eq_ok_iff.mp hm).2, hall, hget⟩

theorem Holds.blockWritable_iff {first : List Byte} (hh : Holds start (selectProfile 0#16 first.length) m h) :
    h.BlockWritable ↔
      if first.length ≤ 16 then ∀ id p, m id = some p → ElementForm.oneByte.Fits ⟨id, p⟩
      else if first.length ≤ 255 then ∀ id p, m id = some p → ElementForm.twoByte.Fits ⟨id, p⟩
      else OnePlain m := by
  rw [selectProfile] at hh
  split
  case isTrue hshort =>
    rw [if_pos hshort] at hh
    rw [blockWritable_form (f := .oneByte) hh.extension hh.extensionProfile]
    exact Holds.formWritable_iff (f := .oneByte) hh
  case isFalse hlong =>
    rw [if_neg hlong] at hh
    split
    case isTrue hmiddle =>
      rw [if_pos hmiddle] at hh
      rw [blockWritable_form (f := .twoByte) hh.extension hh.extensionProfile]
      exact Holds.formWritable_iff (f := .twoByte) hh
    case isFalse hlarge =>
      rw [if_neg hlarge] at hh
      have hone : h.extensionProfile ≠ extensionProfileOneByte := by
        rw [hh.extensionProfile]
        decide
      have htwo : h.extensionProfile ≠ extensionProfileTwoByte := by
        rw [hh.extensionProfile]
        decide
      rw [blockWritable_plain hh.extension hone htwo]
      exact hh.plainWritable_iff (by decide) (by decide)

/-- A header to which every call succeeded survives the wire, and keeps the map of the calls, exactly
    if its version and payload type fit their places and the map fits the profile of the first call. -/
theorem survivesWire_iff {h h' : Header} {calls : List ExtensionCall} (hcsrc : h.csrc.length ≤ 15)
    (hnone : h.NoExtensions) (hrun : h.applyAll calls = .ok h') :
    h'.SurvivesWire (lastSet calls) ↔
      (h.version < 4#8 ∧ h.payloadType < 128#8) ∧ CallsFit calls := by
  cases calls with
  | nil =>
    obtain rfl := Except.ok.inj hrun
    rw [survivesWire_iff_writable (by
      intro id
      rw [getExtension, hnone.extension]
      rfl)]
    constructor
    · intro hw
      exact ⟨⟨hw.fields.version, hw.fields.payloadType⟩, trivial⟩
    · rintro ⟨⟨hversion, htype⟩, -⟩
      refine ⟨⟨hversion, htype, hcsrc⟩, ?_⟩
      rw [BlockWritable, hnone.extension, if_neg Bool.false_ne_true]
      exact ⟨hnone.extensionProfile, hnone.extensions, hnone.extensionsPadding⟩
  | cons call calls =>
    rw [applyAll, List.foldlM_cons] at hrun
    cases call with
    | del id =>
      have hdel : ExtensionCall.apply h (.del id) = .error .errHeaderExtensionsNotEnabled := by
        rw [ExtensionCall.apply, delExtension, hnone.extension]
        rfl
      rw [hdel] at hrun
      cases hrun
    | set id payload =>
      cases hset : ExtensionCall.apply h (.set id payload) with
      | error e =>
        rw [hset] at hrun
        cases hrun
      | ok next =>
        rw [hset] at hrun
        have hh : Holds h (selectProfile 0#16 payload.length) (lastSet (.set id payload :: calls)) h' :=
          (hnone.holds hset).applyAll hrun
        rw [survivesWire_iff_writable (by
          intro id
          rw [getExtension, if_pos hh.extension]
          exact hh.payloadOf id)]
        have hblock := hh.blockWritable_iff
        constructor
        · intro hw
          exact ⟨⟨hh.version ▸ hw.fields.version, hh.payloadType ▸ hw.fields.payloadType⟩,
            hblock.mp hw.block⟩
        · rintro ⟨⟨hversion, htype⟩, hfit⟩
          exact ⟨⟨hh.version.symm ▸ hversion, hh.payloadType.symm ▸ htype, hh.csrc.symm ▸ hcsrc⟩,
            hblock.mpr hfit⟩

/-- A header of an audio packet, without extensions. -/
def audioHeader : Header where
  version := 2#8
  padding := false
  extension := false
  marker := true
  payloadType := 111#8
  sequenceNumber := 17#16
  timestamp := 960#32
  ssrc := 0xCAFE#32
  csrc := []
  extensionProfile := 0#16
  extensions := []
  extensionsPadding := 0

theorem audioHeader_noExtensions : audioHeader.NoExtensions := ⟨rfl, rfl, rfl, rfl⟩

/-- Two extensions are set, the second is set again with another length, and the first is deleted. -/
theorem survivesWire_audioHeader : ∃ h', audioHeader.applyAll
      [.set 1#8 [0x30#8], .set 5#8 [1#8, 2#8], .set 5#8 [7#8, 8#8, 9#8], .del 1#8] = .ok h' ∧
    h'.SurvivesWire (lastSet
      [.set 1#8 [0x30#8], .set 5#8 [1#8, 2#8], .set 5#8 [7#8, 8#8, 9#8], .del 1#8]) := by
  refine ⟨_, rfl, (survivesWire_iff (Nat.zero_le _) audioHeader_noExtensions rfl).mpr ?_⟩
  refine ⟨by decide, fun id p hp => ?_⟩
  have hmap : lastSet [.set 1#8 [0x30#8], .set 5#8 [1#8, 2#8], .set 5#8 [7#8, 8#8, 9#8], .del 1#8] =
      Function.update (fun _ => none) 5#8 (some [7#8, 8#8, 9#8]) := by
    funext id
    simp only [lastSet, List.foldl_cons, List.foldl_nil, ExtensionCall.update, Function.update_apply]
    split_ifs <;> simp_all
  rw [hmap, Function.update_apply] at hp
  split at hp
  case isTrue heq =>
    obtain rfl := Option.some.inj hp
    subst heq
    exact ⟨by decide, by decide, by decide⟩
  case isFalse => cases hp

/-- The reserved id and the empty payload are accepted by the call that opens the block. The first is
    where the parser stops; for the second the length field of the element is that of the reserved
    id. -/
theorem reserved_and_empty_lost :
    [[ExtensionCall.set 15#8 [0xAA#8]], [ExtensionCall.set 1#8 []]].Forall fun calls =>
      ∃ h', audioHeader.applyAll calls = .ok h' ∧ ¬ h'.SurvivesWire (lastSet calls) := by
  refine ⟨⟨_, rfl, ?_⟩, ⟨_, rfl, ?_⟩⟩
  all_goals
    rintro ⟨out, hm, -, hu, -⟩
    obtain rfl := Except.ok.inj hm
    exact absurd hu (by decide)

end Header
end Rtc.Rtp
