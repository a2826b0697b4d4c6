import Rtc.Srtp.Proofs.Keystream
import Rtc.Srtp.Proofs.RoundTrip

/-!
# Streams over a network that loses packets

A sender and a receiver with the same keys, and a network that delivers a packet in its turn or loses it. The receiver
guesses the rollover counter from the last packet it has got. It guesses the sender's as long as less than half the
sequence space is lost in a row, and then every packet that arrives comes back as it was sent.
-/

namespace Rtc.Srtp
open SrtpSsrcState (advance seqOf)

/-! ## One stream -/

/-- The state `b` of the receiver is behind the state `a` of the sender. -/
structure Trails (a b : SrtpSsrcState) : Prop where
  valid : a.Valid
  unheard : b.rolloverHasProcessed = false → b.index = 0
  behind : b.rolloverHasProcessed = true → a.rolloverHasProcessed = true ∧ b.index ≤ a.index

/-- The sequence number lies ahead of the last one sent, and an index is left for it. -/
structure Follows (a : SrtpSsrcState) (seq : BitVec 16) : Prop where
  ahead : a.rolloverHasProcessed = true → 1 ≤ advance (seqOf a.index) seq ∧ advance (seqOf a.index) seq < 2 ^ 15
  notRefused : (a.nextRolloverCount seq).2.2 = false

/-- The receiver has not missed half the sequence space before the packet, nor all packets of the first rollover. -/
def Reaches (a b : SrtpSsrcState) (seq : BitVec 16) : Prop :=
  (a.receive seq).index < if b.rolloverHasProcessed then b.index + 2 ^ 15 else 2 ^ 16

namespace Trails

variable {a b : SrtpSsrcState} {seq : BitVec 16} (h : Trails a b) (hnext : Follows a seq)
include h hnext

theorem sent : (a.receive seq).rolloverHasProcessed = true ∧ seq = seqOf (a.receive seq).index ∧
    (a.nextRolloverCount seq).1 = BitVec.ofNat 32 ((a.receive seq).index / 2 ^ 16) ∧
    (b.rolloverHasProcessed = true → b.index < (a.receive seq).index) := by
  obtain ⟨hdone, hindex, hlt⟩ : (a.receive seq).rolloverHasProcessed = true ∧
      (a.receive seq).index = (a.nextRolloverCount seq).1.toNat * 2 ^ 16 + seq.toNat ∧
      (b.rolloverHasProcessed = true → b.index < (a.receive seq).index) := by
    cases hproc : a.rolloverHasProcessed with
    | false =>
      obtain ⟨hdone, hindex⟩ := SrtpSsrcState.receive_first hproc h.valid seq
      exact ⟨hdone, hindex, fun hb => by simp [(h.behind hb).1] at hproc⟩
    | true =>
      obtain ⟨hlow, hhigh⟩ := hnext.ahead hproc
      obtain ⟨hdone, hlt, hindex⟩ := SrtpSsrcState.receive_ahead hproc h.valid hlow hhigh hnext.notRefused
      exact ⟨hdone, hindex, fun hb => (h.behind hb).2.trans_lt hlt⟩
  have hseq := seq.isLt
  have hroc := (a.nextRolloverCount seq).1.isLt
  refine ⟨hdone, ?_, ?_, hlt⟩
  · apply BitVec.eq_of_toNat_eq
    rw [SrtpSsrcState.toNat_seqOf]
    omega
  · apply BitVec.eq_of_toNat_eq
    rw [BitVec.toNat_ofNat]
    omega

theorem lost : Trails (a.receive seq) b := by
  obtain ⟨hdone, -, -, hlt⟩ := h.sent hnext
  exact ⟨h.valid.receive hnext.notRefused, h.unheard, fun hb => ⟨hdone, (hlt hb).le⟩⟩

theorem heard (hreach : Reaches a b seq) : (b.nextRolloverCount seq).1 = (a.nextRolloverCount seq).1 ∧
    (b.receive seq).rolloverHasProcessed = true ∧ (b.receive seq).index = (a.receive seq).index := by
  obtain ⟨-, hseq, hroc, hlt⟩ := h.sent hnext
  have hbound := (h.valid.receive hnext.notRefused).index_lt
  unfold Reaches at hreach
  generalize (a.receive seq).index = i at *
  subst hseq
  cases hproc : b.rolloverHasProcessed with
  | false =>
    have hzero : b.index = (0#32).toNat * 2 ^ 16 := h.unheard hproc
    rw [hproc] at hreach
    have hfirst : i / 2 ^ 16 = 0 := Nat.div_eq_of_lt hreach
    rw [hroc, hfirst, SrtpSsrcState.nextRolloverCount_of_first hproc hzero,
      SrtpSsrcState.receive_of_first hproc hzero hfirst]
    exact ⟨rfl, rfl, rfl⟩
  | true =>
    have hlow := hlt hproc
    rw [if_pos hproc] at hreach
    rw [hroc, SrtpSsrcState.nextRolloverCount,
      SrtpSsrcState.guess_of_near hproc (by omega) hbound (by omega) hreach,
      SrtpSsrcState.receive_of_near hproc (by omega) hbound (by omega) hreach]
    exact ⟨rfl, hproc, rfl⟩

end Trails

/-! ## One packet -/

namespace Context

variable {ctx : Context} {p out rest : List Byte} {header : Rtp.Header}

theorem after_encryptRtp (hp : Rtp.Header.unmarshal p = .ok (header, rest)) (hout : (ctx.encryptRtp p).1 = .ok out) :
    (ctx.encryptRtp p).2.cipher = ctx.cipher ∧ ∀ ssrc, (ctx.encryptRtp p).2.srtpSsrcState ssrc =
      if ssrc = header.ssrc then (ctx.srtpSsrcState header.ssrc).receive header.sequenceNumber
      else ctx.srtpSsrcState ssrc := by
  simp only [encryptRtp, hp, encryptRtpWithHeader] at hout ⊢
  rcases ctx.encryptRtpUnderState_cases header _ with ⟨⟨e, herror⟩, -⟩ | ⟨_, -, -, -, hctx⟩
  · cases herror.symm.trans hout
  · rw [hctx]
    refine ⟨rfl, fun ssrc => ?_⟩
    rw [srtpSsrcState_setSrtpSsrcState, srtpSsrcState_setSrtpSsrcState]
    split <;> rfl

theorem after_decryptRtp (hout : Rtp.Header.unmarshal out = .ok (header, rest))
    (hp : (ctx.decryptRtp out).1 = .ok p) : (ctx.decryptRtp out).2.cipher = ctx.cipher ∧
      ∀ ssrc, (ctx.decryptRtp out).2.srtpSsrcState ssrc = if ssrc = header.ssrc then
        let b := ctx.srtpSsrcState header.ssrc
        { b.receive header.sequenceNumber with
          replayDetector := (checkReplay b.replayDetector header.sequenceNumber.toNat).2.map Shared.ReplayDetector.accept }
      else ctx.srtpSsrcState ssrc := by
  simp only [decryptRtp, hout, decryptRtpWithHeader] at hp ⊢
  split at hp
  · cases hp
  · rw [if_neg ‹_›]
    rcases ctx.decryptRtpUnderState_cases header _ with ⟨e, heq⟩ | ⟨_, -, -, heq⟩
    · rw [heq] at hp
      cases hp
    · rw [heq]
      refine ⟨rfl, fun ssrc => ?_⟩
      rw [srtpSsrcState_setSrtpSsrcState]
      split
      · unfold SrtpSsrcState.receive SrtpSsrcState.updateRolloverCount
        dsimp only
        split <;> rfl
      · rfl

end Context

/-! ## The session -/

structure Session where
  sender : Context
  peer : Context

namespace Session

/-- A packet is sent, and delivered or lost. -/
def step (s : Session) (e : List Byte × Bool) : Session :=
  match s.sender.encryptRtp e.1 with
  | (.ok out, sender) => ⟨sender, if e.2 then (s.peer.decryptRtp out).2 else s.peer⟩
  | (.error _, sender) => { s with sender }

/-- The packet has a header of its declared length and is in its turn; if it is delivered, the receiver has not missed
    too much before it and does not take it for a replay. -/
def Orderly (s : Session) (e : List Byte × Bool) : Prop :=
  ∃ header rest, Rtp.Header.unmarshal e.1 = .ok (header, rest) ∧ header.marshalSize = Rtp.headerLength e.1 ∧
    let a := s.sender.srtpSsrcState header.ssrc
    let b := s.peer.srtpSsrcState header.ssrc
    Follows a header.sequenceNumber ∧ (e.2 = true → Reaches a b header.sequenceNumber ∧
      (checkReplay b.replayDetector header.sequenceNumber.toNat).1 = true)

/-- The packet is sent, and comes back as it was if it is delivered. -/
def Arrives (s : Session) (e : List Byte × Bool) : Prop :=
  ∃ out, (s.sender.encryptRtp e.1).1 = .ok out ∧ (e.2 = true → (s.peer.decryptRtp out).1 = .ok e.1)

/-- Both have the keys, and the receiver's states are behind the sender's. -/
structure InStep (cipher : Cipher) (s : Session) : Prop where
  sender : s.sender.cipher = cipher
  peer : s.peer.cipher = cipher
  trails : ∀ ssrc, Trails (s.sender.srtpSsrcState ssrc) (s.peer.srtpSsrcState ssrc)

variable {s : Session} {cipher : Cipher} {e : List Byte × Bool}

theorem InStep.step (h : s.InStep cipher) (hc : cipher.Inverts) (he : s.Orderly e) :
    s.Arrives e ∧ (s.step e).InStep cipher := by
  obtain ⟨p, delivered⟩ := e
  obtain ⟨header, rest, hp, hsize, hnext, hdelivered⟩ := he
  have htrails := h.trails header.ssrc
  -- the packet comes back to a receiver with the state of the sender
  have hpeers : Context.Peers cipher header s.sender (s.peer.setSrtpSsrcState header.ssrc
      { s.sender.srtpSsrcState header.ssrc with replayDetector := none }) := by
    refine ⟨h.sender, h.peer, ?_, ?_, hnext.notRefused, ?_⟩ <;>
      rw [Context.srtpSsrcState_setSrtpSsrcState, if_pos rfl]
    rfl
  obtain ⟨out, hout, -, htake, hback⟩ :=
    Context.protectsPayload_of_marshalSize_eq hc hp hsize header rest _ _ hp hpeers
  obtain ⟨rest', hrest⟩ : ∃ rest', Rtp.Header.unmarshal out = .ok (header, rest') := by
    have hsplit : p.take (Rtp.headerLength p) ++ p.drop (Rtp.headerLength p) = p := List.take_append_drop _ _
    rw [← List.take_append_drop (Rtp.headerLength p) out, htake]
    exact Rtp.unmarshal_append _ (by rw [hsplit]; exact hp)
      (by rw [hsplit]; exact List.length_take_of_le (Rtp.headerLength_le hp)) (by rw [hsplit]; exact hsize)
  have harrive : delivered = true → (s.peer.decryptRtp out).1 = .ok p := by
    intro hd
    obtain ⟨hreach, hvalid⟩ := hdelivered hd
    simp only [Context.decryptRtp, hrest, Context.decryptRtpWithHeader] at hback ⊢
    rw [hpeers.peerCipher] at hback
    rw [h.peer]
    split at hback
    · cases hback
    · rw [Context.decryptRtpUnderState_fst, if_pos hpeers.notReplayed, Context.nextRolloverCount_peer hpeers,
        hpeers.peerCipher] at hback
      rw [if_neg ‹_›, Context.decryptRtpUnderState_fst, if_pos hvalid, h.peer, (htrails.heard hnext hreach).1, hback]
  refine ⟨⟨out, hout, harrive⟩, ?_⟩
  obtain ⟨hcipher, hsender⟩ := Context.after_encryptRtp hp hout
  have hstep : s.step (p, delivered) =
      ⟨(s.sender.encryptRtp p).2, if delivered then (s.peer.decryptRtp out).2 else s.peer⟩ := by
    rw [Session.step, ← Prod.mk.eta (p := s.sender.encryptRtp p), hout]
  rw [hstep]
  cases delivered with
  | false =>
    refine ⟨hcipher.trans h.sender, h.peer, fun ssrc => ?_⟩
    rw [hsender]
    split
    · subst ssrc
      exact htrails.lost hnext
    · exact h.trails ssrc
  | true =>
    obtain ⟨hcipher', hpeer⟩ := Context.after_decryptRtp hrest (harrive rfl)
    refine ⟨hcipher.trans h.sender, hcipher'.trans h.peer, fun ssrc => ?_⟩
    dsimp only
    rw [if_pos rfl, hsender, hpeer]
    split
    · obtain ⟨-, hdone, hindex⟩ := htrails.heard hnext (hdelivered rfl).1
      exact ⟨(htrails.lost hnext).valid, fun hnot => by simp [hdone] at hnot,
        fun _ => ⟨(htrails.sent hnext).1, hindex.le⟩⟩
    · exact h.trails ssrc

theorem inStep_new (cipher : Cipher) (srtp srtcp srtp' srtcp' : Option Shared.ReplayDetector) :
    InStep cipher ⟨.new cipher srtp srtcp, .new cipher srtp' srtcp'⟩ := by
  refine ⟨rfl, rfl, fun ssrc => ⟨⟨?_, fun _ => ⟨0#32, rfl⟩⟩, fun _ => rfl, fun hb => by cases hb⟩⟩
  exact Nat.two_pow_pos 48

theorem InStep.arrives (h : s.InStep cipher) (hc : cipher.Inverts) {events : List (List Byte × Bool)}
    (hevents : Runs.Meets Session.step Orderly s events) : Runs.Meets Session.step Arrives s events := by
  induction events generalizing s with
  | nil => trivial
  | cons e events ih =>
    obtain ⟨harrives, hnext⟩ := h.step hc hevents.1
    exact ⟨harrives, ih hnext hevents.2⟩

/-- Whatever packets are lost, those that arrive in their turn come back as they were sent, with any replay protection
    that lets them through. -/
theorem arrives_run {cipher : Cipher} (hc : cipher.Inverts) (srtp srtcp srtp' srtcp' : Option Shared.ReplayDetector)
    {events : List (List Byte × Bool)}
    (hevents : Runs.Meets step Orderly ⟨.new cipher srtp srtcp, .new cipher srtp' srtcp'⟩ events) :
    Runs.Meets step Arrives ⟨.new cipher srtp srtcp, .new cipher srtp' srtcp'⟩ events :=
  (inStep_new cipher srtp srtcp srtp' srtcp').arrives hc hevents

/-- A packet of SSRC 7. -/
def plainRtp (seq : Byte) : List Byte :=
  [0x80#8, 96#8, 0#8, seq, 0#8, 0#8, 0#8, 0#8, 0#8, 0#8, 0#8, 7#8, 5#8]

theorem arrives_after_loss :
    Runs.Meets step Arrives ⟨.new (Context.flippingCipher .aeadAes128Gcm) none none,
        .new (Context.flippingCipher .aeadAes128Gcm) (some (srtpReplayProtection 64)) none⟩
      [(plainRtp 1, true), (plainRtp 2, false), (plainRtp 3, true)] := by
  refine arrives_run (Context.inverts_flippingCipher _) none none _ none ⟨?_, ?_, ?_, trivial⟩
  all_goals
    refine ⟨_, _, rfl, by decide +kernel, ⟨by decide +kernel, by decide +kernel⟩, fun _ => ⟨?_, by decide +kernel⟩⟩
    unfold Reaches
    decide +kernel

end Session

end Rtc.Srtp
