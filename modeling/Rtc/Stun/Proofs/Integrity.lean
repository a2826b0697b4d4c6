import Rtc.Stun.Integrity
import Rtc.Stun.Proofs.MessageRoundTrip

/-!
# What the integrity of a STUN message covers

The check of a message finds the first MESSAGE-INTEGRITY and verifies it over the attributes before it. The attributes
after it stay in the message: one of a type that does not occur before is returned unverified.
-/

namespace Rtc.Stun
open Bytes Shared Message

/-! ## Messages that were decoded -/

/-- A message with the attributes `xs`, which it was decoded from. -/
structure Decodes (m : Message) (typ : BitVec 16) (xs : List Tlv) (trailing : List Byte) : Prop where
  lt : (xs.flatMap Tlv.encode).length < 2 ^ 16
  raw : m.raw = header typ (xs.flatMap Tlv.encode).length m.transactionId ++
    (xs.flatMap Tlv.encode ++ trailing)
  length : m.length = (xs.flatMap Tlv.encode).length
  attributes : m.attributes = xs.map Tlv.rawAttribute

theorem exists_decodes {m m' : Message} (h : m.decode = .ok m') :
    ∃ typ xs trailing, Decodes m' typ xs trailing := by
  obtain ⟨typ, id, xs, trailing, hlt, hraw, rfl⟩ := exists_of_decode h
  exact ⟨typ, xs, trailing, hlt, hraw, rfl, rfl⟩

variable {typ : BitVec 16} {rest : List Byte}

theorem writeLength_eq {m : Message} {old : Nat} (h : m.raw = header typ old m.transactionId ++ rest) :
    m.writeLength = { m with raw := header typ m.length m.transactionId ++ rest } := by
  rw [writeLength, h, grow_header (by decide), overwrite_length]

theorem writeLength_and_back {m : Message} (h : m.raw = header typ m.length m.transactionId ++ rest) (n : Nat) :
    writeLength { m with length := n } = { m with length := n, raw := header typ n m.transactionId ++ rest } ∧
      writeLength { m with raw := header typ n m.transactionId ++ rest } = m := by
  refine ⟨writeLength_eq (m := { m with length := n }) h, ?_⟩
  rw [writeLength_eq (m := { m with raw := _ }) rfl, ← h]

abbrev Tlv.IsIntegrity (x : Tlv) : Prop := x.rawAttribute.typ = attrMessageIntegrity

namespace MessageIntegrity

theorem sizeReduced_true (ys : List Tlv) :
    sizeReduced true (ys.map Tlv.rawAttribute) = (ys.flatMap Tlv.encode).length := by
  induction ys with
  | nil => rfl
  | cons y ys ih =>
    rw [List.map_cons, sizeReduced, Bool.true_or, ih, List.flatMap_cons, List.length_append, y.length_encode,
      if_pos rfl, Tlv.rawAttribute, y.toNat_length, Nat.add_comm attributeHeaderSize]

variable {x : Tlv} {crypto : Crypto} {m : Message} {typ : BitVec 16} {trailing : List Byte}
  {attributes : List RawAttribute} {t : AttrType}

theorem sizeReduced_append {pre post : List Tlv} (hpre : ∀ y ∈ pre, ¬ y.IsIntegrity) (hx : x.IsIntegrity) :
    sizeReduced false ((pre ++ x :: post).map Tlv.rawAttribute) = (post.flatMap Tlv.encode).length := by
  induction pre with
  | nil =>
    rw [List.nil_append, List.map_cons, sizeReduced, decide_eq_true hx, Bool.or_true, sizeReduced_true]
    simp
  | cons y pre ih =>
    rw [List.cons_append, List.map_cons, sizeReduced, decide_eq_false (hpre y List.mem_cons_self), Bool.or_false,
      ih fun z hz => hpre z (List.mem_cons_of_mem y hz)]
    simp

def verdict (crypto : Crypto) (key b v : List Byte) : Parse Error Unit :=
  match crypto.newHmac key with
  | .error message => Parse.fail (.crypto message)
  | .ok mac =>
    match mac.verify b v with
    | .ok () => .ok ()
    | .error .authenticationFailed => Parse.fail .errIntegrityMismatch
    | .error .invalidTagLength => Parse.fail .errIntegrityMismatch
    | .error (.other message) => Parse.fail (.crypto message)

theorem verdict_of_length {key v : List Byte} (hv : v.length ≠ messageIntegritySize)
    (b b' : List Byte) : verdict crypto key b v = verdict crypto key b' v := by
  rw [verdict, verdict]
  cases crypto.newHmac key with
  | error message => rfl
  | ok mac => simp only [Mac.verify, if_pos hv]

/-- What the tag `x` of a message covers: the header, with the length up to the tag, and what stands before
    the tag. -/
def covered (typ : BitVec 16) (id : TransactionId) (pre : List Tlv) : List Byte :=
  header typ ((pre.flatMap Tlv.encode).length + 24) id ++ pre.flatMap Tlv.encode

theorem get_integrity {pre post : List Tlv}
    (h : Decodes m typ (pre ++ x :: post) trailing) (hpre : ∀ y ∈ pre, ¬ y.IsIntegrity) (hx : x.IsIntegrity) :
    m.get attrMessageIntegrity = .ok x.value := by
  have hnone : (pre.map Tlv.rawAttribute).find? (·.typ = attrMessageIntegrity) = none := by
    rw [List.find?_eq_none]
    rintro _ ha
    obtain ⟨y, hy, rfl⟩ := List.mem_map.mp ha
    simpa using hpre y hy
  rw [Message.get, h.attributes, List.map_append, List.find?_append, hnone, List.map_cons,
    List.find?_cons_of_pos (by simpa using hx)]
  rfl

/-- The check in terms of what it subtracts from the length; at the end the length is back. -/
theorem check_of_get {body v : List Byte} {reduced : Nat} (hget : m.get attrMessageIntegrity = .ok v)
    (hraw : m.raw = header typ m.length m.transactionId ++ body)
    (hreduced : sizeReduced false m.attributes % 2 ^ 32 = reduced) (hle : reduced + 4 ≤ m.length)
    (hbody : m.length ≤ body.length) (crypto : Crypto) (key : List Byte) :
    check crypto m key = (verdict crypto key
      ((header typ (m.length - reduced) m.transactionId ++ body).take (20 + (m.length - reduced) - 24)) v, m) := by
  obtain ⟨hshort, hback⟩ := writeLength_and_back hraw (m.length - reduced)
  have hslice : Parse.slice (header typ (m.length - reduced) m.transactionId ++ body) 0
      (20 + (m.length - reduced) - 24) =
      (.ok ((header typ (m.length - reduced) m.transactionId ++ body).take (20 + (m.length - reduced) - 24)) :
        Parse Error _) :=
    Parse.slice_eq (Nat.zero_le _) (by rw [List.length_append, length_header]; omega)
  rw [check, hget]
  simp only [hreduced, if_neg (show ¬ m.length < reduced by omega), hshort,
    if_neg (show ¬ messageHeaderSize + (m.length - reduced) < attributeHeaderSize + messageIntegritySize by
      simp only [messageHeaderSize, attributeHeaderSize, messageIntegritySize]; omega)]
  rw [show messageHeaderSize + (m.length - reduced) - (attributeHeaderSize + messageIntegritySize) =
    20 + (m.length - reduced) - 24 from rfl, hslice]
  simp only [hback, verdict]
  cases crypto.newHmac key with
  | error message => rfl
  | ok mac =>
    dsimp only
    cases mac.verify _ v with
    | ok u => rfl
    | error e => cases e <;> rfl

/-- The check verifies the first MESSAGE-INTEGRITY over what stands before it, and leaves the message as it
    was. -/
theorem check_eq {pre post : List Tlv}
    (h : Decodes m typ (pre ++ x :: post) trailing) (hpre : ∀ y ∈ pre, ¬ y.IsIntegrity) (hx : x.IsIntegrity)
    (crypto : Crypto) (key : List Byte) :
    check crypto m key = (verdict crypto key (covered typ m.transactionId pre) x.value, m) := by
  have hbytes : (pre ++ x :: post).flatMap Tlv.encode =
      pre.flatMap Tlv.encode ++ (x.encode ++ post.flatMap Tlv.encode) := by
    rw [List.flatMap_append, List.flatMap_cons]
  have hlength : m.length = (pre.flatMap Tlv.encode).length + (4 + nearestPaddedValueLength x.value.length +
      (post.flatMap Tlv.encode).length) := by
    rw [h.length, hbytes, List.length_append, List.length_append, x.length_encode]
  have hreduced : sizeReduced false m.attributes % 2 ^ 32 = (post.flatMap Tlv.encode).length := by
    have hlt := h.lt
    rw [← h.length] at hlt
    rw [h.attributes, sizeReduced_append hpre hx, Nat.mod_eq_of_lt (by omega)]
  rw [check_of_get (get_integrity h hpre hx) (h.length ▸ h.raw) hreduced (by omega)
    (by rw [List.length_append, h.length]; omega)]
  by_cases hv : x.value.length = messageIntegritySize
  · have hpadded : nearestPaddedValueLength x.value.length = 20 := by rw [hv]; rfl
    rw [show m.length - (post.flatMap Tlv.encode).length = (pre.flatMap Tlv.encode).length + 24 by omega, hbytes,
      List.append_assoc, ← List.append_assoc (header _ _ _),
      List.take_left' (by rw [List.length_append, length_header]; omega)]
    rfl
  · rw [verdict_of_length hv]

theorem verdict_eq_ok_iff {key b v : List Byte} :
    verdict crypto key b v = .ok () ↔
      ∃ mac tag, crypto.newHmac key = .ok mac ∧ mac.sign b = .ok tag ∧ v = tag.toList := by
  rw [verdict]
  constructor
  · intro h
    cases hmac : crypto.newHmac key with
    | error message =>
      rw [hmac] at h
      cases h
    | ok mac =>
      simp only [hmac, Mac.verify] at h
      by_cases hv : v.length = messageIntegritySize
      · rw [if_neg (not_not.mpr hv)] at h
        cases hsign : mac.sign b with
        | error message =>
          rw [hsign] at h
          cases h
        | ok tag =>
          simp only [hsign] at h
          by_cases htag : tag.toList = v
          · exact ⟨mac, tag, rfl, hsign, htag.symm⟩
          · rw [if_neg htag] at h
            cases h
      · rw [if_pos hv] at h
        cases h
  · rintro ⟨mac, tag, hmac, hsign, rfl⟩
    simp only [hmac, Mac.verify, hsign]
    rw [if_neg (not_not.mpr tag.length_toList), if_pos trivial]

theorem safe_verdict (crypto : Crypto) (key b v : List Byte) : Parse.Safe (verdict crypto key b v) := by
  rw [verdict]
  split
  case h_1 => exact Parse.safe_fail _
  case h_2 =>
    split
    · exact Parse.safe_ok _
    all_goals exact Parse.safe_fail _

theorem exists_first (xs : List Tlv) : (∀ y ∈ xs, ¬ y.IsIntegrity) ∨
    ∃ pre x post, xs = pre ++ x :: post ∧ (∀ y ∈ pre, ¬ y.IsIntegrity) ∧ x.IsIntegrity := by
  cases hfind : xs.find? (fun y => decide y.IsIntegrity) with
  | none => exact .inl fun y hy => by simpa using List.find?_eq_none.mp hfind y hy
  | some x =>
    obtain ⟨hx, pre, post, rfl, hpre⟩ := List.find?_eq_some_iff_append.mp hfind
    exact .inr ⟨pre, x, post, rfl, fun y hy => by simpa using hpre y hy, by simpa using hx⟩

theorem check_of_not_mem {xs : List Tlv}
    (h : Decodes m typ xs trailing) (hxs : ∀ y ∈ xs, ¬ y.IsIntegrity) (crypto : Crypto) (key : List Byte) :
    check crypto m key = (Parse.fail .errAttributeNotFound, m) := by
  have hnone : m.attributes.find? (·.typ = attrMessageIntegrity) = none := by
    rw [h.attributes, List.find?_eq_none]
    rintro _ ha
    obtain ⟨y, hy, rfl⟩ := List.mem_map.mp ha
    simpa using hxs y hy
  rw [check, Message.get, hnone]

theorem check_safe {m' : Message} (h : m.decode = .ok m') (crypto : Crypto) (key : List Byte) :
    Parse.Safe (check crypto m' key).1 ∧ (check crypto m' key).2 = m' := by
  obtain ⟨typ, xs, trailing, hdecodes⟩ := exists_decodes h
  rcases exists_first xs with hxs | ⟨pre, x, post, rfl, hpre, hx⟩
  · rw [check_of_not_mem hdecodes hxs]
    exact ⟨Parse.safe_fail _, rfl⟩
  · rw [check_eq hdecodes hpre hx]
    exact ⟨safe_verdict _ _ _ _, rfl⟩

/-! ## What is covered -/

/-- The place of the first attribute of a type. -/
def firstIndex (attributes : List RawAttribute) (t : AttrType) : Nat := attributes.findIdx (·.typ = t)

def tagStart (m : Message) : Nat := attributeStart m.attributes (firstIndex m.attributes attrMessageIntegrity)

/-- The bytes before the tag, with the length up to the tag in the header. -/
def authenticated (m : Message) : List Byte :=
  (writeLength { m with length := tagStart m + attributeHeaderSize }).raw.take (tagStart m)

/-- Every attribute that `get` returns, other than the tag and the fingerprint, ends before the tag. -/
def Covered (m : Message) : Prop :=
  ∀ t value, t ≠ attrMessageIntegrity → t ≠ attrFingerprint → m.get t = .ok value →
    attributeStart m.attributes (firstIndex m.attributes t + 1) ≤ tagStart m

/-- After the first MESSAGE-INTEGRITY only types occur that occur before it, and the fingerprint. -/
def NoneLate (attributes : List RawAttribute) : Prop :=
  ∀ a ∈ attributes.drop (firstIndex attributes attrMessageIntegrity), a.typ ≠ attrMessageIntegrity →
    a.typ ≠ attrFingerprint → ∃ b ∈ attributes.take (firstIndex attributes attrMessageIntegrity), b.typ = a.typ

theorem attributeStart_succ {i : Nat} (hi : i < attributes.length) :
    attributeStart attributes (i + 1) =
      attributeStart attributes i + (attributeHeaderSize + nearestPaddedValueLength attributes[i].length.toNat) := by
  rw [attributeStart, attributeStart, List.take_succ_eq_append_getElem hi, List.map_append, List.sum_append,
    Nat.add_assoc]
  rfl

theorem attributeStart_mono (attributes : List RawAttribute) : Monotone (attributeStart attributes) := by
  refine monotone_nat_of_le_succ fun i => ?_
  by_cases hi : i < attributes.length
  · rw [attributeStart_succ hi]
    exact Nat.le_add_right _ _
  · rw [attributeStart, attributeStart, List.take_of_length_le (by omega), List.take_of_length_le (by omega)]

theorem attributeStart_le_iff {i k : Nat} (hi : i < attributes.length) :
    attributeStart attributes (i + 1) ≤ attributeStart attributes k ↔ i < k := by
  constructor
  · intro hle
    by_contra hge
    have hmono := attributeStart_mono attributes (Nat.le_of_not_lt hge)
    rw [attributeStart_succ hi] at hle
    simp only [attributeHeaderSize] at hle
    omega
  · exact fun hlt => attributeStart_mono attributes hlt

theorem firstIndex_lt : firstIndex attributes t < attributes.length ↔ ∃ a ∈ attributes, a.typ = t := by
  rw [firstIndex, List.findIdx_lt_length]
  simp only [decide_eq_true_eq]

theorem typ_firstIndex
    (h : firstIndex attributes t < attributes.length) : attributes[firstIndex attributes t].typ = t :=
  of_decide_eq_true (List.findIdx_getElem (w := h))

theorem get_eq_ok_iff : (∃ value, m.get t = .ok value) ↔ ∃ a ∈ m.attributes, a.typ = t := by
  rw [Message.get]
  cases hfind : m.attributes.find? (·.typ = t) with
  | none =>
    rw [List.find?_eq_none] at hfind
    refine iff_of_false (fun ⟨_, h⟩ => nomatch h) ?_
    rintro ⟨a, ha, rfl⟩
    exact hfind a ha (by simp)
  | some a =>
    exact iff_of_true ⟨a.value, rfl⟩ ⟨a, List.mem_of_find?_eq_some hfind, by simpa using List.find?_some hfind⟩

/-- A type occurs among the first `k` attributes exactly if its first index is below `k`. -/
theorem exists_mem_take_iff {k : Nat} :
    (∃ b ∈ attributes.take k, b.typ = t) ↔ firstIndex attributes t < k ∧ firstIndex attributes t < attributes.length := by
  constructor
  · rintro ⟨b, hb, rfl⟩
    obtain ⟨i, hi, rfl⟩ := List.mem_take_iff_getElem.mp hb
    have hle : firstIndex attributes attributes[i].typ ≤ i := by
      by_contra hlt
      have := List.not_of_lt_findIdx (Nat.lt_of_not_le hlt)
      simp at this
    omega
  · rintro ⟨hk, hlt⟩
    exact ⟨_, List.mem_take_iff_getElem.mpr ⟨firstIndex attributes t, by omega, rfl⟩, typ_firstIndex hlt⟩

theorem covered_iff (m : Message) : Covered m ↔ NoneLate m.attributes := by
  constructor
  · intro h a ha hint hfp
    have hmem := List.mem_of_mem_drop ha
    obtain ⟨value, hget⟩ := get_eq_ok_iff.mpr ⟨a, hmem, rfl⟩
    have hlt := firstIndex_lt.mpr ⟨a, hmem, rfl⟩
    exact exists_mem_take_iff.mpr ⟨(attributeStart_le_iff hlt).mp (h a.typ value hint hfp hget), hlt⟩
  · intro h t value hint hfp hget
    have hlt := firstIndex_lt.mpr (get_eq_ok_iff.mp ⟨value, hget⟩)
    refine (attributeStart_le_iff hlt).mpr ?_
    by_contra hge
    have htyp := typ_firstIndex hlt
    have hdrop : m.attributes[firstIndex m.attributes t] ∈
        m.attributes.drop (firstIndex m.attributes attrMessageIntegrity) :=
      List.mem_drop_iff_getElem.mpr ⟨firstIndex m.attributes t - firstIndex m.attributes attrMessageIntegrity,
        by omega, by simp only [Nat.add_sub_of_le (Nat.le_of_not_lt hge)]⟩
    have hfirst := exists_mem_take_iff.mp (h _ hdrop (by rwa [htyp]) (by rwa [htyp]))
    rw [htyp] at hfirst
    exact hge hfirst.1

theorem firstIndex_append {pre post : List Tlv} (hpre : ∀ y ∈ pre, ¬ y.IsIntegrity) (hx : x.IsIntegrity) :
    firstIndex ((pre ++ x :: post).map Tlv.rawAttribute) attrMessageIntegrity = pre.length := by
  induction pre with
  | nil =>
    rw [firstIndex, List.nil_append, List.map_cons, List.findIdx_cons, decide_eq_true hx]
    rfl
  | cons y pre ih =>
    rw [firstIndex, List.cons_append, List.map_cons, List.findIdx_cons,
      decide_eq_false (hpre y List.mem_cons_self)]
    exact congrArg (· + 1) (ih fun z hz => hpre z (List.mem_cons_of_mem y hz))

theorem authenticated_eq {pre post : List Tlv}
    (h : Decodes m typ (pre ++ x :: post) trailing) (hpre : ∀ y ∈ pre, ¬ y.IsIntegrity) (hx : x.IsIntegrity) :
    authenticated m = covered typ m.transactionId pre := by
  have hstart : tagStart m = 20 + (pre.flatMap Tlv.encode).length := by
    rw [tagStart, h.attributes, firstIndex_append hpre hx, attributeStart_eq, List.take_left]
  have hraw := h.raw
  rw [List.flatMap_append, List.append_assoc] at hraw
  rw [authenticated, writeLength_eq (m := { m with length := tagStart m + attributeHeaderSize }) hraw]
  dsimp only
  rw [hstart, ← List.append_assoc, List.take_left' (by rw [List.length_append, length_header]), covered,
    show 20 + (pre.flatMap Tlv.encode).length + attributeHeaderSize = (pre.flatMap Tlv.encode).length + 24 by
      simp only [attributeHeaderSize]; omega]

theorem exists_of_check {m' : Message} (h : m.decode = .ok m') {key : List Byte}
    (hcheck : (check crypto m' key).1 = .ok ()) :
    ∃ mac tag, crypto.newHmac key = .ok mac ∧ mac.sign (authenticated m') = .ok tag ∧
      m'.get attrMessageIntegrity = .ok tag.toList := by
  obtain ⟨typ, xs, trailing, hdecodes⟩ := exists_decodes h
  rcases exists_first xs with hxs | ⟨pre, x, post, rfl, hpre, hx⟩
  · rw [check_of_not_mem hdecodes hxs] at hcheck
    cases hcheck
  · rw [check_eq hdecodes hpre hx] at hcheck
    obtain ⟨mac, tag, hmac, hsign, hvalue⟩ := verdict_eq_ok_iff.mp hcheck
    refine ⟨mac, tag, hmac, ?_, ?_⟩
    · rw [authenticated_eq hdecodes hpre hx, hsign]
    · rw [get_integrity hdecodes hpre hx, hvalue]

end MessageIntegrity
end Rtc.Stun
