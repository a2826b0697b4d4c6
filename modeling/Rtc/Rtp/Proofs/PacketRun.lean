import Mathlib.Data.BitVec
import Rtc.Lib.Runs
import Rtc.Rtp.Packetizer
import Rtc.Rtp.Proofs.PacketForward

/-!
# Runs of a packetizer

What the packets of a run have in common, for any payloader that keeps to the size it is given.
-/

namespace Rtc.Rtp
open Shared Runs

@[simp] theorem Sequencer.nextSequenceNumber_spec (c : Sequencer) :
    c.nextSequenceNumber.1 = c.sequenceNumber + 1#16 ∧
      c.nextSequenceNumber.2.sequenceNumber = c.sequenceNumber + 1#16 := by
  unfold nextSequenceNumber
  split <;> simp_all

/-- The sequence numbers go on one after the other. -/
def Consecutive (numbers : List (BitVec 16)) : Prop := numbers.IsChain fun m n => n = m + 1#16

theorem consecutive_cons_cons {a b : BitVec 16} {l : List (BitVec 16)} :
    Consecutive (a :: b :: l) ↔ b = a + 1#16 ∧ Consecutive (b :: l) := List.isChain_cons_cons

def numbersOf (ps : List Packet) : List (BitVec 16) := ps.map fun q => q.header.sequenceNumber

namespace PacketizerImpl

variable {σ : Type} (payload : Payload σ)

/-- The payloads of a call: none if the payloader fails. -/
def payloads (p : PacketizerImpl σ) : PacketizerCall → List (List Byte)
  | .packetize _ bytes _ => (payload p.payloader (p.mtu - 12) bytes).1.toOption.getD []
  | .skipSamples _ => []

/-- The samples of a call on which the payloader fails. -/
def lostBy (p : PacketizerImpl σ) : PacketizerCall → BitVec 32
  | .packetize _ bytes samples =>
    if (payload p.payloader (p.mtu - 12) bytes).1.toOption.isNone then samples else 0#32
  | .skipSamples _ => 0#32

def lost : PacketizerImpl σ → List PacketizerCall → BitVec 32
  | _, [] => 0#32
  | p, c :: cs => p.lostBy payload c + lost (p.call payload c) cs

/-- The packets of a run as a well-formed RTP sequence. -/
structure WellFormed (p : PacketizerImpl σ) (calls : List PacketizerCall) : Prop where
  within_mtu : ∀ ps ∈ p.sent payload calls, ∀ q ∈ ps, ∃ out, q.marshal = .ok out ∧ out.length ≤ p.mtu
  consecutive : Consecutive (numbersOf (p.sent payload calls).flatten)
  timestamps : ∀ k ps, (p.sent payload calls)[k]? = some ps → ∀ q ∈ ps,
    q.header.timestamp = p.timestamp + ((calls.take k).map PacketizerCall.samples).sum
  marked : ∀ ps ∈ p.sent payload calls,
    (∀ q ∈ ps.dropLast, q.header.marker = false) ∧ ∀ q ∈ ps.getLast?, q.header.marker = true

/-- At every call with a last payload, that payload leaves room for the send time if it is enabled, and the calls on
    which the payloader failed before have announced no samples. -/
def Kept (p : PacketizerImpl σ) (calls : List PacketizerCall) : Prop :=
  ∀ k c, calls[k]? = some c → ∀ x ∈ ((run (call payload) p (calls.take k)).payloads payload c).getLast?,
    (p.absSendTimeExtId = 0#8 ∨ x.length + 20 ≤ p.mtu) ∧ p.lost payload (calls.take k) = 0#32

/-! ## One packet -/

section

variable {p : PacketizerImpl σ} (n : BitVec 16) (x : List Byte) (ntp : BitVec 64)

def stamped (h : Header) (id : Byte) (ntp : BitVec 64) : Header :=
  { h with
    extension := true
    extensionProfile := extensionProfileOneByte
    extensions := [⟨id, absSendTime ntp⟩] }

@[simp] theorem getExtensionPayloadLen_stamped (h : Header) (id : Byte) :
    (stamped h id ntp).getExtensionPayloadLen = 4 := by
  simp [stamped, Header.getExtensionPayloadLen, Header.elementOverhead, absSendTime]

def lastPacket (p : PacketizerImpl σ) (n : BitVec 16) (x : List Byte) (ntp : BitVec 64) : Packet :=
  if p.absSendTimeExtId = 0#8 then p.packet true n x
  else ⟨stamped (p.packet true n x).header p.absSendTimeExtId ntp, x⟩

@[simp] theorem lastPacket_fields : (p.lastPacket n x ntp).header.timestamp = p.timestamp ∧
    (p.lastPacket n x ntp).header.marker = true ∧ (p.lastPacket n x ntp).header.sequenceNumber = n := by
  unfold lastPacket
  split <;> exact ⟨rfl, rfl, rfl⟩

theorem stampLast_concat (front : List Packet) :
    stampLast p.absSendTimeExtId ntp (front ++ [p.packet true n x]) = .ok (front ++ [p.lastPacket n x ntp]) := by
  have hset : ∀ id, (p.packet true n x).header.setExtension id (absSendTime ntp) =
      .ok (stamped (p.packet true n x).header id ntp) := by
    simp [Header.setExtension, packet, stamped, absSendTime, Header.selectProfile, Header.takePadding,
      Header.selectOverhead]
  rw [stampLast, List.getLast?_concat, List.dropLast_concat, lastPacket]
  dsimp only
  split
  case isTrue => rfl
  case isFalse => rw [hset]; rfl

theorem marshal_packet (marker : Bool) :
    ∃ out, (p.packet marker n x).marshal = .ok out ∧ out.length = 12 + x.length := by
  refine ⟨_, Packet.marshal_eq_ok_iff.mpr ⟨(p.packet marker n x).header.marshalFixed,
    Header.marshal_eq_ok_iff.mpr ⟨rfl, rfl⟩, rfl⟩, ?_⟩
  simp [Header.length_marshalFixed, Packet.length_paddingBytes, Packet.paddingLen, packet]

theorem marshal_stamped (id : Byte) : ∃ out,
    (⟨stamped (p.packet true n x).header id ntp, x⟩ : Packet).marshal = .ok out ∧ out.length = 20 + x.length := by
  refine ⟨_, Packet.marshal_eq_ok_iff.mpr ⟨_, (Header.marshal_block_iff rfl).mpr
    ⟨Header.oneByteElement ⟨id, absSendTime ntp⟩, rfl, rfl, by simp, ?_⟩, rfl⟩, ?_⟩
  · have hpad : (stamped (p.packet true n x).header id ntp).extensionsPadding = 0 := rfl
    simp [Header.blockWords, Header.oneByteElement, absSendTime, hpad]
  · simp [Header.length_marshalFixed, Packet.length_paddingBytes, Packet.paddingLen, Header.blockBytes,
      Header.blockWords, Header.oneByteElement, absSendTime]
    simp [stamped, packet]
    omega

end

/-! ## One call -/

/-- The packets for these payloads: the ones before the last, and the last. -/
inductive Returned (p : PacketizerImpl σ) : List (List Byte) → List Packet → Prop
  | nil : Returned p [] []
  | concat {xs : List (List Byte)} {x : List Byte} {front : List Packet} (n : BitVec 16) (ntp : BitVec 64)
      (hfront : ∀ q ∈ front, ∃ m, ∃ y ∈ xs, q = p.packet false m y) :
      Returned p (xs ++ [x]) (front ++ [p.lastPacket n x ntp])

namespace Returned

variable {p : PacketizerImpl σ} {xs : List (List Byte)} {ps : List Packet} (h : p.Returned xs ps)
include h

theorem timestamps_iff (t : BitVec 32) :
    (∀ q ∈ ps, q.header.timestamp = t) ↔ ∀ x ∈ xs.getLast?, p.timestamp = t := by
  cases h with
  | nil => simp
  | concat n ntp hfront =>
    simp only [List.mem_append, List.mem_singleton, or_imp, forall_and, forall_eq, lastPacket_fields,
      Option.mem_some_iff, forall_eq', List.getLast?_concat]
    refine ⟨And.right, fun ht => ⟨fun q hq => ?_, ht⟩⟩
    obtain ⟨m, y, -, rfl⟩ := hfront q hq
    exact ht

theorem marked : (∀ q ∈ ps.dropLast, q.header.marker = false) ∧ ∀ q ∈ ps.getLast?, q.header.marker = true := by
  cases h with
  | nil => simp
  | concat n ntp hfront =>
    simp only [List.dropLast_concat, List.getLast?_concat, Option.mem_some_iff]
    refine ⟨fun q hq => ?_, by rintro q rfl; simp⟩
    obtain ⟨m, y, -, rfl⟩ := hfront q hq
    rfl

/-- Every packet is within the MTU exactly if the last payload leaves the room of the send time. -/
theorem within_mtu_iff (hmtu : 12 ≤ p.mtu) (hxs : ∀ x ∈ xs, x.length ≤ p.mtu - 12) :
    (∀ q ∈ ps, ∃ out, q.marshal = .ok out ∧ out.length ≤ p.mtu) ↔
      ∀ x ∈ xs.getLast?, p.absSendTimeExtId = 0#8 ∨ x.length + 20 ≤ p.mtu := by
  have hplain : ∀ marker m, ∀ y ∈ xs, ∃ out, (p.packet marker m y).marshal = .ok out ∧ out.length ≤ p.mtu := by
    intro marker m y hy
    obtain ⟨out, hout, hlen⟩ := marshal_packet (p := p) m y marker
    have := hxs y hy
    exact ⟨out, hout, by omega⟩
  cases h with
  | nil => simp
  | @concat xs x front n ntp hfront =>
    have hlast : (∃ out, (p.lastPacket n x ntp).marshal = .ok out ∧ out.length ≤ p.mtu) ↔
        p.absSendTimeExtId = 0#8 ∨ x.length + 20 ≤ p.mtu := by
      unfold lastPacket
      split
      case isTrue hid => simpa [hid] using hplain true n x (by simp)
      case isFalse hid =>
        obtain ⟨out, hout, hlen⟩ := marshal_stamped (p := p) n x ntp p.absSendTimeExtId
        simp only [hout, Except.ok.injEq, exists_eq_left', hlen, hid, false_or]
        omega
    simp only [List.mem_append, List.mem_singleton, or_imp, forall_and, forall_eq, hlast, Option.mem_some_iff,
      forall_eq', List.getLast?_concat]
    refine and_iff_right fun q hq => ?_
    obtain ⟨m, y, hy, rfl⟩ := hfront q hq
    exact hplain false m y (List.mem_append_left _ hy)

end Returned

theorem packets_concat (p : PacketizerImpl σ) (xs : List (List Byte)) (x : List Byte) (c : Sequencer) :
    ∃ front n, (p.packets c (xs ++ [x])).1 = front ++ [p.packet true n x] ∧
      (∀ q ∈ front, ∃ m, ∃ y ∈ xs, q = p.packet false m y) ∧
      ∀ l, Consecutive ((p.packets c (xs ++ [x])).2.sequenceNumber :: l) →
        Consecutive (c.sequenceNumber :: (numbersOf front ++ n :: l)) := by
  induction xs generalizing c with
  | nil => exact ⟨[], _, rfl, by simp, fun l h => consecutive_cons_cons.mpr ⟨by simp, by simpa [packets] using h⟩⟩
  | cons y xs ih =>
    obtain ⟨front, n, heq, hfront, hchain⟩ := ih c.nextSequenceNumber.2
    refine ⟨p.packet (xs ++ [x]).isEmpty c.nextSequenceNumber.1 y :: front, n, by simp [packets, heq], ?_, ?_⟩
    · intro q hq
      rcases List.mem_cons.mp hq with rfl | hq
      · exact ⟨_, y, by simp, by cases xs <;> rfl⟩
      · obtain ⟨m, z, hz, rfl⟩ := hfront q hq
        exact ⟨m, z, List.mem_cons_of_mem _ hz, rfl⟩
    · intro l h
      exact consecutive_cons_cons.mpr ⟨by simp [packet], by simpa [packet, numbersOf] using hchain l h⟩

theorem stampLast_packets (p : PacketizerImpl σ) (xs : List (List Byte)) (c : Sequencer) (ntp : BitVec 64) :
    ∃ ps, stampLast p.absSendTimeExtId ntp (p.packets c xs).1 = .ok ps ∧ p.Returned xs ps ∧
      ∀ l, Consecutive ((p.packets c xs).2.sequenceNumber :: l) →
        Consecutive (c.sequenceNumber :: (numbersOf ps ++ l)) := by
  rcases List.eq_nil_or_concat' xs with rfl | ⟨xs, x, rfl⟩
  · exact ⟨[], rfl, .nil, fun _ => id⟩
  · obtain ⟨front, n, heq, hfront, hchain⟩ := p.packets_concat xs x c
    refine ⟨_, heq ▸ stampLast_concat n x ntp front, .concat n ntp hfront, fun l h => ?_⟩
    simpa [numbersOf] using hchain l h

def returned (p : PacketizerImpl σ) (c : PacketizerCall) : List Packet := (p.answer payload c).1.toOption.getD []

structure Answered (p : PacketizerImpl σ) (c : PacketizerCall) : Prop where
  returned : p.Returned (p.payloads payload c) (p.returned payload c)
  timestamp : (p.call payload c).timestamp + p.lostBy payload c = p.timestamp + c.samples
  limits : (p.call payload c).mtu = p.mtu ∧ (p.call payload c).absSendTimeExtId = p.absSendTimeExtId
  numbers : ∀ l, Consecutive ((p.call payload c).sequencer.sequenceNumber :: l) →
    Consecutive (p.sequencer.sequenceNumber :: (numbersOf (p.returned payload c) ++ l))

theorem answered (p : PacketizerImpl σ) (c : PacketizerCall) : p.Answered payload c := by
  cases c with
  | skipSamples n => exact ⟨.nil, BitVec.add_zero _, ⟨rfl, rfl⟩, fun _ => id⟩
  | packetize ntp bytes samples =>
    rcases hpay : payload p.payloader (p.mtu - 12) bytes with ⟨_ | xs, s⟩
    · constructor <;> simp only [payloads, returned, call, answer, packetize, lostBy, hpay]
      · exact .nil
      · rfl
      · trivial
      · exact fun _ => id
    · obtain ⟨ps, hps, hret, hnumbers⟩ := p.stampLast_packets xs p.sequencer ntp
      constructor <;> simp only [payloads, returned, call, answer, packetize, lostBy, hpay, hps]
      · exact hret
      · exact BitVec.add_zero _
      · trivial
      · exact hnumbers

/-! ## Runs -/

variable (p : PacketizerImpl σ) (calls : List PacketizerCall)

theorem getElem?_sent (k : Nat) : (p.sent payload calls)[k]? =
    calls[k]?.map fun c => (run (call payload) p (calls.take k)).returned payload c := by
  induction calls generalizing p k with
  | nil => simp [sent]
  | cons c cs ih =>
    cases k with
    | zero => rfl
    | succ k => exact ih (p.call payload c) k

theorem exists_of_mem_sent {ps : List Packet} (h : ps ∈ p.sent payload calls) :
    ∃ k c, calls[k]? = some c ∧ ps = (run (call payload) p (calls.take k)).returned payload c := by
  obtain ⟨k, hk⟩ := List.mem_iff_getElem?.mp h
  rw [getElem?_sent] at hk
  obtain ⟨c, hc, rfl⟩ := Option.map_eq_some_iff.mp hk
  exact ⟨k, c, hc, rfl⟩

theorem timestamp_run : (run (call payload) p calls).timestamp + p.lost payload calls =
    p.timestamp + (calls.map PacketizerCall.samples).sum := by
  induction calls generalizing p with
  | nil => rfl
  | cons c cs ih =>
    have hcall := (p.answered payload c).timestamp
    have hrest := ih (p.call payload c)
    simp only [run_cons, lost, List.map_cons, List.sum_cons]
    grind

theorem consecutive_sent :
    Consecutive (p.sequencer.sequenceNumber :: numbersOf (p.sent payload calls).flatten) := by
  induction calls generalizing p with
  | nil => simp [sent, numbersOf, Consecutive]
  | cons c cs ih =>
    rw [sent, List.flatten_cons, numbersOf, List.map_append]
    exact (p.answered payload c).numbers _ (ih _)

theorem limits_run : (run (call payload) p calls).mtu = p.mtu ∧
    (run (call payload) p calls).absSendTimeExtId = p.absSendTimeExtId := by
  induction calls generalizing p with
  | nil => exact ⟨rfl, rfl⟩
  | cons c cs ih =>
    obtain ⟨hmtu, hid⟩ := (p.answered payload c).limits
    exact ⟨(ih _).1.trans hmtu, (ih _).2.trans hid⟩

variable {payload} in
theorem length_payloads (hpayload : ∀ s mtu bytes xs, (payload s mtu bytes).1 = .ok xs → ∀ x ∈ xs, x.length ≤ mtu)
    (c : PacketizerCall) : ∀ x ∈ p.payloads payload c, x.length ≤ p.mtu - 12 := by
  cases c with
  | skipSamples n => simp [payloads]
  | packetize ntp bytes samples =>
    rw [payloads]
    cases hpay : (payload p.payloader (p.mtu - 12) bytes).1 with
    | error e => simp [Except.toOption]
    | ok xs => exact hpayload _ _ _ _ hpay

/-- A run is well formed exactly if the last payloads leave room for the send time and no samples are lost. -/
theorem wellFormed_iff (hpayload : ∀ s mtu bytes xs, (payload s mtu bytes).1 = .ok xs → ∀ x ∈ xs, x.length ≤ mtu)
    (hmtu : 12 ≤ p.mtu) : p.WellFormed payload calls ↔ p.Kept payload calls := by
  have hroom := fun k c => ((run (call payload) p (calls.take k)).answered payload c).returned.within_mtu_iff
    (by rw [(p.limits_run payload _).1]; exact hmtu) (length_payloads _ hpayload c)
  have htime : ∀ k c, (∀ q ∈ (run (call payload) p (calls.take k)).returned payload c,
      q.header.timestamp = p.timestamp + ((calls.take k).map PacketizerCall.samples).sum) ↔
      ∀ x ∈ ((run (call payload) p (calls.take k)).payloads payload c).getLast?,
        p.lost payload (calls.take k) = 0#32 := by
    intro k c
    rw [(answered payload _ c).returned.timestamps_iff, ← p.timestamp_run payload (calls.take k)]
    simp only [BitVec.self_eq_add_right]
  simp only [limits_run] at hroom
  constructor
  · intro h k c hc x hx
    have hsent : (p.sent payload calls)[k]? = some ((run (call payload) p (calls.take k)).returned payload c) := by
      rw [getElem?_sent, hc]
      rfl
    exact ⟨(hroom k c).mp (h.within_mtu _ (List.mem_of_getElem? hsent)) x hx,
      (htime k c).mp (h.timestamps k _ hsent) x hx⟩
  · intro h
    refine ⟨fun ps hps => ?_, (p.consecutive_sent payload calls).tail, fun k ps hps => ?_, fun ps hps => ?_⟩
    · obtain ⟨k, c, hc, rfl⟩ := p.exists_of_mem_sent payload calls hps
      exact (hroom k c).mpr fun x hx => (h k c hc x hx).1
    · rw [getElem?_sent] at hps
      obtain ⟨c, hc, rfl⟩ := Option.map_eq_some_iff.mp hps
      exact (htime k c).mpr fun x hx => (h k c hc x hx).2
    · obtain ⟨k, c, hc, rfl⟩ := p.exists_of_mem_sent payload calls hps
      exact (answered payload _ c).returned.marked

/-- A payloader that sends the start of a frame and refuses an empty one. -/
def startPayload : Payload Unit := fun s mtu bytes =>
  (if bytes = [] then .error .errShortPacket else .ok [bytes.take mtu], s)

/-- A packetizer over it with an MTU of 28 bytes. -/
def startPacketizer (absSendTimeExtId : Byte) : PacketizerImpl Unit :=
  { mtu := 28, payloadType := 96#8, ssrc := 1#32, payloader := (), sequencer := ⟨0xFFFF#16, 0#64⟩, timestamp := 0#32
    absSendTimeExtId }

theorem wellFormed_startPacketizer :
    WellFormed startPayload (startPacketizer 1#8) [.skipSamples 160#32, .packetize 0#64 [1#8, 2#8] 160#32] := by
  refine (wellFormed_iff startPayload (startPacketizer 1#8) _ ?_ (by decide)).mpr ?_
  · intro s mtu bytes xs h x hx
    unfold startPayload at h
    split at h
    · cases h
    · cases h
      rw [List.mem_singleton.mp hx]
      exact List.length_take_le _ _
  · rintro (_ | _ | k) c hc x hx
    · cases hc
      cases hx
    · cases hc
      cases hx
      decide
    · simp at hc

/-- With the send time on, a payload of the size that the payloader was given makes a packet of 36 bytes; and a call on
    which the payloader fails loses its samples. -/
theorem startPacketizer_beyond_mtu :
    (¬ WellFormed startPayload (startPacketizer 1#8) [.packetize 0#64 (List.replicate 16 0#8) 160#32]) ∧
      ¬ WellFormed startPayload (startPacketizer 0#8) [.packetize 0#64 [] 160#32, .packetize 0#64 [1#8] 160#32] := by
  constructor
  · intro h
    obtain ⟨out, hout, hlen⟩ := h.within_mtu _ (List.mem_singleton.mpr rfl) _ (List.mem_singleton.mpr rfl)
    obtain ⟨out', hout', hlen'⟩ := marshal_stamped (p := startPacketizer 1#8) 0#16 (List.replicate 16 0#8) 0#64 1#8
    cases hout.symm.trans hout'
    rw [hlen'] at hlen
    exact absurd hlen (by decide)
  · intro h
    have := h.timestamps 1 _ rfl _ (List.mem_singleton.mpr rfl)
    revert this
    decide

end PacketizerImpl
end Rtc.Rtp
