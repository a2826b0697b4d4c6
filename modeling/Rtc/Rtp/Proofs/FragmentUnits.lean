import Rtc.Lib.Runs
import Rtc.Rtp.Codec.H264

/-!
# Units reassembled from fragments

The buffer of an `H264Packet` collects the fragments since the last end fragment; the start bit is not looked at. A
unit is made of the fragments since the last start fragment exactly if the first one collected, and no other, is one.
-/

namespace Rtc.Rtp.H264Packet
open Bytes Shared

/-- A fragment (FU-A) that the depacketizer takes in. -/
structure Fragment where
  isStart : Bool
  isEnd : Bool
  data : List Byte

/-- The fragment that a payload is, if it is one and has data. -/
def fragment? : List Byte → Option Fragment
  | b0 :: b1 :: data =>
    if data ≠ [] ∧ b0 &&& 0x1F#8 = fuaNaluType then some ⟨b1 &&& 0x80#8 ≠ 0#8, b1 &&& 0x40#8 ≠ 0#8, data⟩ else none
  | _ => none

def step (self : H264Packet) (packet : List Byte) : H264Packet := (self.depacketize packet).2

/-- The fragments after the last end fragment. -/
def pending (fragments : List Fragment) : List Fragment :=
  fragments.foldl (fun held f => if f.isEnd then [] else held ++ [f]) []

/-- The fragments from the most recent start fragment on. -/
def sinceStart (fragments : List Fragment) : Option (List Fragment) :=
  fragments.foldl (fun held f => if f.isStart then some [f] else held.map (· ++ [f])) none

/-- The first fragment is a start fragment, and the only one. -/
def StartsOnce : List Fragment → Prop
  | [] => False
  | f :: rest => f.isStart = true ∧ ∀ g ∈ rest, g.isStart = false

instance : ∀ fragments, Decidable (StartsOnce fragments)
  | [] => inferInstanceAs (Decidable False)
  | _ :: _ => inferInstanceAs (Decidable (_ ∧ _))

theorem pending_append_singleton (fs : List Fragment) (f : Fragment) :
    pending (fs ++ [f]) = if f.isEnd then [] else pending fs ++ [f] := by
  simp [pending, List.foldl_append]

theorem sinceStart_append_singleton (fs : List Fragment) (f : Fragment) :
    sinceStart (fs ++ [f]) = if f.isStart then some [f] else (sinceStart fs).map (· ++ [f]) := by
  simp [sinceStart, List.foldl_append]

theorem suffix_append_singleton {as fs : List Fragment} (h : as <:+ fs) (f : Fragment) : as ++ [f] <:+ fs ++ [f] := by
  obtain ⟨front, rfl⟩ := h
  exact ⟨front, by rw [List.append_assoc]⟩

theorem pending_suffix (fs : List Fragment) : pending fs <:+ fs := by
  induction fs using List.reverseRecOn with
  | nil => exact List.suffix_rfl
  | append_singleton fs f ih =>
    rw [pending_append_singleton]
    split
    · exact List.nil_suffix
    · exact suffix_append_singleton ih f

theorem StartsOnce.append_singleton {fs : List Fragment} (h : StartsOnce fs) {f : Fragment} (hf : f.isStart = false) :
    StartsOnce (fs ++ [f]) := by
  cases fs with
  | nil => exact h.elim
  | cons g rest =>
    refine ⟨h.1, fun x hx => ?_⟩
    rcases List.mem_append.mp hx with hx | hx
    · exact h.2 x hx
    · rw [List.mem_singleton.mp hx]
      exact hf

theorem sinceStart_spec {fs since : List Fragment} (h : sinceStart fs = some since) :
    since <:+ fs ∧ StartsOnce since := by
  induction fs using List.reverseRecOn generalizing since with
  | nil => cases h
  | append_singleton fs f ih =>
    rw [sinceStart_append_singleton] at h
    split at h
    case isTrue hstart =>
      cases h
      exact ⟨List.suffix_append fs [f], hstart, by simp⟩
    case isFalse hstart =>
      obtain ⟨held, hheld, rfl⟩ := Option.map_eq_some_iff.mp h
      obtain ⟨hsuffix, honce⟩ := ih hheld
      exact ⟨suffix_append_singleton hsuffix f, honce.append_singleton (by simpa using hstart)⟩

theorem sinceStart_append {fs since : List Fragment} (h : StartsOnce since) :
    sinceStart (fs ++ since) = some since := by
  induction since using List.reverseRecOn with
  | nil => exact h.elim
  | append_singleton since f ih =>
    rw [← List.append_assoc, sinceStart_append_singleton]
    cases since with
    | nil => rw [if_pos h.1, List.nil_append]
    | cons g rest =>
      have hf : f.isStart = false := h.2 f (by simp)
      have honce : StartsOnce (g :: rest) := ⟨h.1, fun x hx => h.2 x (List.mem_append_left _ hx)⟩
      rw [if_neg (by simp [hf]), ih honce, Option.map_some]

theorem suffix_eq_of_data {fs as bs : List Fragment} (hdata : ∀ f ∈ fs, f.data ≠ []) (ha : as <:+ fs) (hb : bs <:+ fs)
    (heq : as.flatMap Fragment.data = bs.flatMap Fragment.data) : as = bs := by
  wlog hle : as.length ≤ bs.length generalizing as bs
  · exact (this hb ha heq.symm (by omega)).symm
  obtain ⟨front, rfl⟩ := List.suffix_of_suffix_length_le ha hb hle
  cases front with
  | nil => rfl
  | cons f front =>
    have hf : f.data ≠ [] := hdata f (hb.subset (by simp))
    have hlen := congrArg List.length heq
    simp only [List.cons_append, List.flatMap_cons, List.flatMap_append, List.length_append] at hlen
    have := List.length_pos_iff.mpr hf
    omega

/-! ## Every history -/

theorem depacketize_fragment (self : H264Packet) {b0 b1 : Byte} {data : List Byte} (hdata : data ≠ [])
    (htype : b0 &&& 0x1F#8 = fuaNaluType) :
    self.depacketize (b0 :: b1 :: data) =
      let held := self.fuaBuffer.getD [] ++ data
      if b1 &&& 0x40#8 ≠ 0#8 then
        (.ok (unitMark self.isAvc (held.length + 1) ++ ((b0 &&& 0x60#8) ||| (b1 &&& 0x1F#8)) :: held),
          { self with fuaBuffer := none })
      else (.ok [], { self with fuaBuffer := some held }) := by
  have hunit : ¬ (1 ≤ fuaNaluType.toNat ∧ fuaNaluType.toNat ≤ 23) := by decide
  simp only [depacketize, htype]
  rw [if_neg (by simp [hdata]), if_neg hunit, if_neg (by decide), if_pos trivial]

theorem step_of_no_fragment (self : H264Packet) {packet : List Byte} (h : fragment? packet = none) :
    self.step packet = self := by
  match packet with
  | [] | [_] => rfl
  | b0 :: b1 :: data =>
    simp only [fragment?, ite_eq_right_iff, reduceCtorEq, imp_false, not_and] at h
    simp only [step, depacketize]
    split_ifs with hshort hunit hstapa hfua
    all_goals try rfl
    all_goals
      exfalso
      refine h (fun hnil => hshort ⟨hnil, ?_⟩) hfua
      rw [hfua]
      decide

theorem fuaBuffer_step (self : H264Packet) (packet : List Byte) (fs : List Fragment)
    (hbuffer : self.fuaBuffer.getD [] = (pending fs).flatMap Fragment.data) :
    (self.step packet).isAvc = self.isAvc ∧
      (self.step packet).fuaBuffer.getD [] =
        (pending (fs ++ (fragment? packet).toList)).flatMap Fragment.data := by
  cases hf : fragment? packet with
  | none => simpa [step_of_no_fragment self hf] using hbuffer
  | some f =>
    match packet with
    | [] | [_] => cases hf
    | b0 :: b1 :: data =>
      simp only [fragment?, Option.ite_none_right_eq_some, Option.some.injEq] at hf
      obtain ⟨⟨hdata, htype⟩, rfl⟩ := hf
      rw [step, depacketize_fragment self hdata htype, Option.toList_some, pending_append_singleton]
      dsimp only
      by_cases hend : b1 &&& 0x40#8 ≠ 0#8
      · rw [if_pos hend, if_pos (by simpa using hend)]
        exact ⟨rfl, rfl⟩
      · rw [if_neg hend, if_neg (by simpa using hend)]
        exact ⟨rfl, by simp [hbuffer]⟩

theorem fuaBuffer_run (isAvc : Bool) (history : List (List Byte)) :
    (Runs.run step ⟨isAvc, none⟩ history).isAvc = isAvc ∧
      (Runs.run step ⟨isAvc, none⟩ history).fuaBuffer.getD [] =
        (pending (history.filterMap fragment?)).flatMap Fragment.data := by
  induction history using List.reverseRecOn with
  | nil => exact ⟨rfl, rfl⟩
  | append_singleton history packet ih =>
    have hstep := fuaBuffer_step _ packet _ ih.2
    rw [Runs.run_append, List.filterMap_append]
    refine ⟨hstep.1.trans ih.1, hstep.2.trans ?_⟩
    cases hf : fragment? packet <;> simp [hf]

theorem data_ne_nil {packet : List Byte} {f : Fragment} (h : fragment? packet = some f) : f.data ≠ [] := by
  match packet with
  | [] | [_] => cases h
  | b0 :: b1 :: data =>
    simp only [fragment?, Option.ite_none_right_eq_some, Option.some.injEq] at h
    obtain ⟨⟨hdata, -⟩, rfl⟩ := h
    exact hdata

/-- After any payloads, an end fragment returns the unit of its header and the data since the most recent start
    fragment exactly if the fragments since the last end fragment start with their only start fragment. -/
theorem unit_since_start_iff (isAvc : Bool) (history : List (List Byte)) (b0 b1 : Byte) (data : List Byte)
    (hdata : data ≠ []) (htype : b0 &&& 0x1F#8 = fuaNaluType) (hend : b1 &&& 0x40#8 ≠ 0#8) :
    let received := (history ++ [b0 :: b1 :: data]).filterMap fragment?
    let collected := pending (history.filterMap fragment?) ++ [⟨b1 &&& 0x80#8 ≠ 0#8, true, data⟩]
    (∃ since, sinceStart received = some since ∧
      ((Runs.run step ⟨isAvc, none⟩ history).depacketize (b0 :: b1 :: data)).1 =
        .ok (unitMark isAvc ((since.flatMap Fragment.data).length + 1) ++
          ((b0 &&& 0x60#8) ||| (b1 &&& 0x1F#8)) :: since.flatMap Fragment.data)) ↔
      StartsOnce collected := by
  intro received collected
  obtain ⟨havc, hbuffer⟩ := fuaBuffer_run isAvc history
  have hcollected : (pending (history.filterMap fragment?)).flatMap Fragment.data ++ data =
      collected.flatMap Fragment.data := by simp [collected]
  have hreceived : received = history.filterMap fragment? ++ [⟨b1 &&& 0x80#8 ≠ 0#8, true, data⟩] := by
    simp [received, fragment?, hdata, htype, hend]
  have hsuffix : collected <:+ received := by
    rw [hreceived]
    exact suffix_append_singleton (pending_suffix _) _
  have hcarry : ∀ f ∈ received, f.data ≠ [] := by
    intro f hf
    obtain ⟨packet, -, hpacket⟩ := List.mem_filterMap.mp hf
    exact data_ne_nil hpacket
  rw [depacketize_fragment _ hdata htype, havc, hbuffer, hcollected]
  dsimp only
  rw [if_pos hend]
  constructor
  · rintro ⟨since, hsince, hout⟩
    obtain ⟨hsuffix', honce⟩ := sinceStart_spec hsince
    have hmark : ∀ size, (unitMark isAvc size).length = 4 := by
      intro size
      cases isAvc <;> rfl
    have htail := (List.append_inj (Except.ok.inj hout) (by rw [hmark, hmark])).2
    rwa [suffix_eq_of_data hcarry hsuffix hsuffix' (List.cons.inj htail).2]
  · intro honce
    obtain ⟨front, hfront⟩ := hsuffix
    exact ⟨collected, hfront ▸ sinceStart_append honce, rfl⟩

/-- A unit in three fragments after one that is complete. -/
theorem unit_since_start_three :
    ((Runs.run step ⟨false, none⟩
      [[0x7C#8, 0x85#8, 1#8], [0x7C#8, 0x45#8, 2#8], [0x7C#8, 0x81#8, 3#8], [0x7C#8, 0x01#8, 4#8]]).depacketize
        [0x7C#8, 0x41#8, 5#8]).1 = .ok [0#8, 0#8, 0#8, 1#8, 0x61#8, 3#8, 4#8, 5#8] := by
  obtain ⟨since, hsince, hout⟩ := (unit_since_start_iff false
    [[0x7C#8, 0x85#8, 1#8], [0x7C#8, 0x45#8, 2#8], [0x7C#8, 0x81#8, 3#8], [0x7C#8, 0x01#8, 4#8]]
    0x7C#8 0x41#8 [5#8] (by decide) (by decide) (by decide)).mpr (by decide)
  cases hsince
  exact hout

/-- The first unit's end is lost: its byte stands at the front of the second unit. -/
theorem unit_keeps_lost_start :
    ((Runs.run step ⟨false, none⟩ [[0x7C#8, 0x85#8, 1#8], [0x7C#8, 0x81#8, 3#8]]).depacketize
        [0x7C#8, 0x41#8, 5#8]).1 = .ok [0#8, 0#8, 0#8, 1#8, 0x61#8, 1#8, 3#8, 5#8] := by
  decide +kernel

end Rtc.Rtp.H264Packet
