import Rtc.Lib.Runs
import Rtc.Srtp.Proofs.Rejection
import Rtc.Srtp.Proofs.RolloverCount

/-!
# What the sender hands to the cipher

The counter or nonce of a packet is determined by its SSRC, rollover counter and sequence number, or by its SSRC and
SRTCP index. While every sequence number lies ahead of the stored index, and no SRTCP index has reached its maximum,
the stored index only grows and no record of a run repeats.
-/

namespace Rtc.Srtp
open Bytes Shared

/-- What determines the keystream of a packet. -/
inductive CipherInput where
  | rtp (ssrc roc : BitVec 32) (sequenceNumber : BitVec 16)
  | rtcp (ssrc : BitVec 32) (index : Nat)
  deriving DecidableEq, Repr

/-- A call on a context used for encryption. -/
inductive EncryptCall where
  | rtp (plaintext : List Byte)
  | rtpWithHeader (plaintext : List Byte) (header : Rtp.Header)
  | rtpPacket (packet : Rtp.Packet)
  | rtcp (decrypted : List Byte)

/-- What a call does once its bytes are parsed or marshalled. -/
inductive EncryptJob where
  | fail (e : Error)
  | rtp (header : Rtp.Header) (buf : List Byte)
  | rtcp (decrypted : List Byte)

namespace EncryptCall

/-- The part of a call before it reaches the state of an SSRC. -/
def job : EncryptCall → EncryptJob
  | .rtp plaintext =>
    match Rtp.Header.unmarshal plaintext with
    | .error e => .fail e
    | .ok (header, _) => .rtp header plaintext
  | .rtpWithHeader plaintext header => .rtp header plaintext
  | .rtpPacket packet =>
    match Context.marshalled packet with
    | .error e => .fail e
    | .ok buf => .rtp packet.header buf
  | .rtcp decrypted => .rtcp decrypted

/-- The sequence number of an RTP call that reaches the state of `ssrc`. -/
def seqFor (ssrc : BitVec 32) (call : EncryptCall) : Option (BitVec 16) :=
  match call.job with
  | .rtp header _ => if header.ssrc = ssrc then some header.sequenceNumber else none
  | _ => none

end EncryptCall

namespace Context

def encrypt (ctx : Context) : EncryptCall → Except Error (List Byte) × Context
  | .rtp plaintext => ctx.encryptRtp plaintext
  | .rtpWithHeader plaintext header => ctx.encryptRtpWithHeader plaintext header
  | .rtpPacket packet => ctx.encryptRtpPacket packet
  | .rtcp decrypted => ctx.encryptRtcp decrypted

/-- The call with a record of what the cipher was given. -/
def encryptRecorded (ctx : Context) (call : EncryptCall) :
    Except Error (List Byte × CipherInput) × Context :=
  match call.job with
  | .fail e => (.error e, ctx)
  | .rtp header buf =>
    ctx.encryptRtpUnderState header fun cipher roc =>
      (cipher.encryptRtpInPlace buf header roc).map fun out =>
        (out, .rtp header.ssrc roc header.sequenceNumber)
  | .rtcp decrypted =>
    ctx.encryptRtcpUnderState decrypted fun cipher index ssrc =>
      (cipher.encryptRtcp decrypted index ssrc).map fun out => (out, .rtcp ssrc index)

variable {α : Type} {input : CipherInput} {call : EncryptCall} {calls : List EncryptCall} {ssrc : BitVec 32}
  {seq : BitVec 16}

theorem encryptRtpUnderState_record {β : Type} (ctx : Context) (header : Rtp.Header)
    (f : Cipher → BitVec 32 → Except Error α) (g : BitVec 32 → β) :
    ((ctx.encryptRtpUnderState header fun c roc => (f c roc).map fun a => (a, g roc)).2 =
      (ctx.encryptRtpUnderState header f).2) ∧
    ((ctx.encryptRtpUnderState header fun c roc => (f c roc).map fun a => (a, g roc)).1.map
      Prod.fst = (ctx.encryptRtpUnderState header f).1) := by
  simp only [encryptRtpUnderState]
  split
  · exact ⟨rfl, rfl⟩
  · cases f _ _ with
    | error e => exact ⟨rfl, rfl⟩
    | ok a => exact ⟨rfl, rfl⟩

theorem encryptRtcpUnderState_record {β : Type} (ctx : Context) (decrypted : List Byte)
    (f : Cipher → Nat → BitVec 32 → Except Error α) (g : Nat → BitVec 32 → β) :
    ((ctx.encryptRtcpUnderState decrypted fun c i s => (f c i s).map fun a => (a, g i s)).2 =
      (ctx.encryptRtcpUnderState decrypted f).2) ∧
    ((ctx.encryptRtcpUnderState decrypted fun c i s => (f c i s).map fun a => (a, g i s)).1.map
      Prod.fst = (ctx.encryptRtcpUnderState decrypted f).1) := by
  simp only [encryptRtcpUnderState]
  split
  · exact ⟨rfl, rfl⟩
  · split
    · exact ⟨rfl, rfl⟩
    · refine ⟨rfl, ?_⟩
      cases f _ _ _ <;> rfl

theorem encryptRecorded_eq (ctx : Context) (call : EncryptCall) :
    (ctx.encryptRecorded call).2 = (ctx.encrypt call).2 ∧
    (ctx.encryptRecorded call).1.map Prod.fst = (ctx.encrypt call).1 := by
  unfold encryptRecorded
  cases call with
  | rtp plaintext =>
    simp only [EncryptCall.job, encrypt, encryptRtp]
    cases Rtp.Header.unmarshal plaintext with
    | error e => exact ⟨rfl, rfl⟩
    | ok parsed => exact ctx.encryptRtpUnderState_record _ _ _
  | rtpWithHeader plaintext header => exact ctx.encryptRtpUnderState_record _ _ _
  | rtpPacket packet =>
    simp only [EncryptCall.job, encrypt, encryptRtpPacket]
    cases marshalled packet with
    | error e => exact ⟨rfl, rfl⟩
    | ok buf => exact ctx.encryptRtpUnderState_record _ _ _
  | rtcp decrypted => exact ctx.encryptRtcpUnderState_record _ _ _

def afterEncrypt (ctx : Context) (call : EncryptCall) : Context := (ctx.encrypt call).2

theorem afterEncrypt_eq (ctx : Context) (call : EncryptCall) :
    ctx.afterEncrypt call = (ctx.encryptRecorded call).2 := (ctx.encryptRecorded_eq call).1.symm

/-- What the successful calls of a run gave to the cipher, in order. -/
def cipherInputs (ctx : Context) : List EncryptCall → List CipherInput
  | [] => []
  | call :: calls =>
    match (ctx.encryptRecorded call).1 with
    | .ok (_, input) => input :: (ctx.afterEncrypt call).cipherInputs calls
    | .error _ => (ctx.afterEncrypt call).cipherInputs calls

/-! ## What a call does to the states -/

variable {ctx ctx' : Context}

theorem srtpSsrcState_setSrtpSsrcState (ctx : Context) (ssrc ssrc' : BitVec 32)
    (s : SrtpSsrcState) : (ctx.setSrtpSsrcState ssrc s).srtpSsrcState ssrc' =
      if ssrc' = ssrc then s else ctx.srtpSsrcState ssrc' := by
  unfold srtpSsrcState
  rw [lookup_setSrtpSsrcState]
  split <;> rfl

theorem srtcpSsrcState_setSrtcpSsrcState (ctx : Context) (ssrc ssrc' : BitVec 32)
    (s : SrtcpSsrcState) : (ctx.setSrtcpSsrcState ssrc s).srtcpSsrcState ssrc' =
      if ssrc' = ssrc then s else ctx.srtcpSsrcState ssrc' := by
  unfold srtcpSsrcState
  rw [lookup_setSrtcpSsrcState]
  split <;> rfl

/-- An SRTP call is refused, fails in the cipher, or succeeds and moves the state of its SSRC. -/
theorem encryptRtpUnderState_cases (ctx : Context) (header : Rtp.Header)
    (f : Cipher → BitVec 32 → Except Error α) :
    let s := ctx.srtpSsrcState header.ssrc
    let seq := header.sequenceNumber
    let r := ctx.encryptRtpUnderState header f
    ((∃ e, r.1 = .error e) ∧ r.2 = ctx.setSrtpSsrcState header.ssrc s ∨
      ∃ out, (s.nextRolloverCount seq).2.2 = false ∧
        f ctx.cipher (s.nextRolloverCount seq).1 = .ok out ∧ r.1 = .ok out ∧
        r.2 = (ctx.setSrtpSsrcState header.ssrc s).setSrtpSsrcState header.ssrc (s.receive seq)) := by
  intro s seq r
  simp only [r, encryptRtpUnderState]
  split
  · exact .inl ⟨⟨_, rfl⟩, rfl⟩
  · rename_i hovf
    rw [Bool.not_eq_true] at hovf
    have hcipher : (ctx.setSrtpSsrcState header.ssrc (ctx.srtpSsrcState header.ssrc)).cipher =
      ctx.cipher := rfl
    rw [hcipher]
    cases hf : f ctx.cipher ((ctx.srtpSsrcState header.ssrc).nextRolloverCount
        header.sequenceNumber).1 with
    | error e => exact .inl ⟨⟨e, rfl⟩, rfl⟩
    | ok out => exact .inr ⟨out, hovf, rfl, rfl, rfl⟩

/-- An SRTCP call fails before it reaches the state of its SSRC, or moves the index on. -/
theorem encryptRtcpUnderState_cases (ctx : Context) (b : List Byte)
    (f : Cipher → Nat → BitVec 32 → Except Error α) :
    let s := ctx.srtcpSsrcState (readU32 b 4)
    let index := nextSrtcpIndex s.srtcpIndex
    let r := ctx.encryptRtcpUnderState b f
    ((∃ e, r.1 = .error e) ∧ r.2 = ctx ∨
      r.1 = f ctx.cipher index (readU32 b 4) ∧
        r.2 = ctx.setSrtcpSsrcState (readU32 b 4) { s with srtcpIndex := index }) := by
  intro s index r
  simp only [r, encryptRtcpUnderState]
  split
  · exact .inl ⟨⟨_, rfl⟩, rfl⟩
  · split
    · exact .inl ⟨⟨_, rfl⟩, rfl⟩
    · exact .inr ⟨rfl, rfl⟩

/-- The states after a call that changes none. -/
def SameStates (ctx ctx' : Context) : Prop :=
  (∀ ssrc, ctx'.srtpSsrcState ssrc = ctx.srtpSsrcState ssrc) ∧
  ∀ ssrc, ctx'.srtcpSsrcState ssrc = ctx.srtcpSsrcState ssrc

/-- What a recorded SRTP call that succeeds does. -/
structure SendsRtp (ctx : Context) (header : Rtp.Header)
    (r : Except Error (List Byte × CipherInput) × Context) : Prop where
  notRefused :
    ((ctx.srtpSsrcState header.ssrc).nextRolloverCount header.sequenceNumber).2.2 = false
  input : ∃ out, r.1 = .ok (out, .rtp header.ssrc
    ((ctx.srtpSsrcState header.ssrc).nextRolloverCount header.sequenceNumber).1
    header.sequenceNumber)
  srtp : ∀ ssrc, r.2.srtpSsrcState ssrc =
    if ssrc = header.ssrc then (ctx.srtpSsrcState header.ssrc).receive header.sequenceNumber
    else ctx.srtpSsrcState ssrc
  srtcp : ∀ ssrc, r.2.srtcpSsrcState ssrc = ctx.srtcpSsrcState ssrc

/-- What a recorded SRTCP call that reaches the state of its SSRC does. -/
structure SendsRtcp (ctx : Context) (ssrc : BitVec 32)
    (r : Except Error (List Byte × CipherInput) × Context) : Prop where
  input : ∀ out input, r.1 = .ok (out, input) →
    input = .rtcp ssrc (nextSrtcpIndex (ctx.srtcpSsrcState ssrc).srtcpIndex)
  srtp : ∀ ssrc', r.2.srtpSsrcState ssrc' = ctx.srtpSsrcState ssrc'
  srtcp : ∀ ssrc', r.2.srtcpSsrcState ssrc' =
    if ssrc' = ssrc then { ctx.srtcpSsrcState ssrc with
      srtcpIndex := nextSrtcpIndex (ctx.srtcpSsrcState ssrc).srtcpIndex }
    else ctx.srtcpSsrcState ssrc'

theorem encryptRecorded_cases (ctx : Context) (call : EncryptCall) :
    let r := ctx.encryptRecorded call
    (∃ e, r.1 = .error e) ∧ SameStates ctx r.2 ∨
    (∃ header buf, call.job = .rtp header buf ∧ SendsRtp ctx header r) ∨
    (∃ b, call.job = .rtcp b ∧ SendsRtcp ctx (readU32 b 4) r) := by
  intro r
  have hr : r = ctx.encryptRecorded call := rfl
  unfold encryptRecorded at hr
  cases hjob : call.job with
  | fail e =>
    simp only [hjob] at hr
    rw [hr]
    exact .inl ⟨⟨e, rfl⟩, fun _ => rfl, fun _ => rfl⟩
  | rtp header buf =>
    simp only [hjob] at hr
    have hcases := ctx.encryptRtpUnderState_cases header fun cipher roc =>
      (cipher.encryptRtpInPlace buf header roc).map fun out =>
        (out, CipherInput.rtp header.ssrc roc header.sequenceNumber)
    dsimp only at hcases
    rw [← hr] at hcases
    obtain ⟨herr, hctx⟩ | ⟨out, hovf, hf, hres, hctx⟩ := hcases
    · refine .inl ⟨herr, fun ssrc => ?_, fun ssrc => by rw [hctx]; rfl⟩
      rw [hctx, srtpSsrcState_setSrtpSsrcState]
      split
      · rename_i heq; rw [heq]
      · rfl
    · refine .inr (.inl ⟨header, buf, rfl, hovf, ?_, fun ssrc => ?_, fun ssrc => by rw [hctx]; rfl⟩)
      · rw [hres]
        cases hbytes : ctx.cipher.encryptRtpInPlace buf header
            ((ctx.srtpSsrcState header.ssrc).nextRolloverCount header.sequenceNumber).1 with
        | error e =>
          rw [hbytes] at hf
          cases hf
        | ok bytes =>
          rw [hbytes] at hf
          exact ⟨bytes, hf.symm⟩
      · rw [hctx, srtpSsrcState_setSrtpSsrcState, srtpSsrcState_setSrtpSsrcState]
        split <;> rfl
  | rtcp b =>
    simp only [hjob] at hr
    have hcases := ctx.encryptRtcpUnderState_cases b fun cipher index ssrc =>
      (cipher.encryptRtcp b index ssrc).map fun out => (out, CipherInput.rtcp ssrc index)
    dsimp only at hcases
    rw [← hr] at hcases
    obtain ⟨herr, hctx⟩ | ⟨hres, hctx⟩ := hcases
    · exact .inl ⟨herr, fun ssrc => by rw [hctx], fun ssrc => by rw [hctx]⟩
    · refine .inr (.inr ⟨b, rfl, fun out input hok => ?_, fun ssrc => by rw [hctx]; rfl,
        fun ssrc => by rw [hctx, srtcpSsrcState_setSrtcpSsrcState]⟩)
      rw [hres] at hok
      cases hbytes : ctx.cipher.encryptRtcp b
          (nextSrtcpIndex (ctx.srtcpSsrcState (readU32 b 4)).srtcpIndex) (readU32 b 4) with
      | error e =>
        rw [hbytes] at hok
        cases hok
      | ok bytes =>
        rw [hbytes] at hok
        cases hok
        rfl

/-! ## Indices only grow -/

def Valid (ctx : Context) : Prop := ∀ ssrc, (ctx.srtpSsrcState ssrc).Valid

/-- No index of `ctx'` lies below that of `ctx`. -/
structure Grows (ctx ctx' : Context) : Prop where
  processed : ∀ ssrc, (ctx.srtpSsrcState ssrc).rolloverHasProcessed = true →
    (ctx'.srtpSsrcState ssrc).rolloverHasProcessed = true
  index : ∀ ssrc, (ctx.srtpSsrcState ssrc).rolloverHasProcessed = true →
    (ctx.srtpSsrcState ssrc).index ≤ (ctx'.srtpSsrcState ssrc).index
  srtcpIndex : ∀ ssrc, (ctx.srtcpSsrcState ssrc).srtcpIndex ≤ (ctx'.srtcpSsrcState ssrc).srtcpIndex

/-- The input lies above what the context has stored for its SSRC. -/
def Fresh (ctx : Context) : CipherInput → Prop
  | .rtp ssrc roc seq => (ctx.srtpSsrcState ssrc).rolloverHasProcessed = true →
      (ctx.srtpSsrcState ssrc).index < roc.toNat * 2 ^ 16 + seq.toNat
  | .rtcp ssrc index => (ctx.srtcpSsrcState ssrc).srtcpIndex < index

theorem Grows.fresh (h : Grows ctx ctx') (hfresh : ctx'.Fresh input) : ctx.Fresh input := by
  cases input with
  | rtp ssrc roc seq =>
    intro hproc
    exact lt_of_le_of_lt (h.index ssrc hproc) (hfresh (h.processed ssrc hproc))
  | rtcp ssrc index => exact lt_of_le_of_lt (h.srtcpIndex ssrc) hfresh

/-- The call lies ahead of the stored state: an SRTP sequence number 1 to `2 ^ 15 - 1` beyond the
    stored one, an SRTCP index that has not reached its maximum. -/
def Ahead (ctx : Context) (call : EncryptCall) : Prop :=
  match call.job with
  | .fail _ => True
  | .rtp header _ =>
    let s := ctx.srtpSsrcState header.ssrc
    let a := SrtpSsrcState.advance (SrtpSsrcState.seqOf s.index) header.sequenceNumber
    s.rolloverHasProcessed = true → 1 ≤ a ∧ a < 2 ^ 15
  | .rtcp decrypted => (ctx.srtcpSsrcState (readU32 decrypted 4)).srtcpIndex < maxSrtcpIndex

theorem Valid.afterEncrypt (h : ctx.Valid) (call : EncryptCall) : (ctx.afterEncrypt call).Valid := by
  intro ssrc
  rw [afterEncrypt_eq]
  obtain ⟨-, hsame⟩ | ⟨header, buf, -, hsends⟩ | ⟨b, -, hsends⟩ := ctx.encryptRecorded_cases call
  · rw [hsame.1]
    exact h ssrc
  · rw [hsends.srtp]
    split
    · exact (h header.ssrc).receive hsends.notRefused
    · exact h ssrc
  · rw [hsends.srtp]
    exact h ssrc

theorem nextSrtcpIndex_of_lt {index : Nat} (h : index < maxSrtcpIndex) : nextSrtcpIndex index = index + 1 := by
  unfold nextSrtcpIndex
  rw [if_neg (by omega)]

theorem SameStates.grows (h : SameStates ctx ctx') : Grows ctx ctx' :=
  ⟨fun ssrc hproc => by rw [h.1]; exact hproc, fun ssrc _ => by rw [h.1],
    fun ssrc => by rw [h.2]⟩

theorem grows_afterEncrypt (h : ctx.Valid) (hahead : ctx.Ahead call) : Grows ctx (ctx.afterEncrypt call) := by
  unfold Ahead at hahead
  rw [afterEncrypt_eq]
  obtain ⟨-, hsame⟩ | ⟨header, buf, hjob, hsends⟩ | ⟨b, hjob, hsends⟩ :=
    ctx.encryptRecorded_cases call
  · exact hsame.grows
  · simp only [hjob] at hahead
    refine ⟨fun ssrc hproc => ?_, fun ssrc hproc => ?_, fun ssrc => by rw [hsends.srtcp]⟩
    · rw [hsends.srtp]
      split
      · subst ssrc
        obtain ⟨hlow, hhigh⟩ := hahead hproc
        exact (SrtpSsrcState.receive_ahead hproc (h _) hlow hhigh hsends.notRefused).1
      · exact hproc
    · rw [hsends.srtp]
      split
      · subst ssrc
        obtain ⟨hlow, hhigh⟩ := hahead hproc
        exact (SrtpSsrcState.receive_ahead hproc (h _) hlow hhigh hsends.notRefused).2.1.le
      · exact le_rfl
  · simp only [hjob] at hahead
    refine ⟨fun ssrc hproc => by rw [hsends.srtp]; exact hproc, fun ssrc _ => by rw [hsends.srtp],
      fun ssrc => ?_⟩
    rw [hsends.srtcp]
    split
    · subst ssrc
      simp only [nextSrtcpIndex_of_lt hahead]
      omega
    · exact le_rfl

theorem fresh_of_encryptRecorded (h : ctx.Valid) (hahead : ctx.Ahead call)
    {out : List Byte} (hok : (ctx.encryptRecorded call).1 = .ok (out, input)) :
    ctx.Fresh input ∧ ¬ (ctx.afterEncrypt call).Fresh input := by
  unfold Ahead at hahead
  rw [afterEncrypt_eq]
  obtain ⟨⟨e, herr⟩, -⟩ | ⟨header, buf, hjob, hsends⟩ | ⟨b, hjob, hsends⟩ :=
    ctx.encryptRecorded_cases call
  · rw [herr] at hok
    cases hok
  · simp only [hjob] at hahead
    obtain ⟨out', hout⟩ := hsends.input
    rw [hout] at hok
    cases hok
    simp only [Fresh, hsends.srtp, if_true]
    cases hproc : (ctx.srtpSsrcState header.ssrc).rolloverHasProcessed with
    | false =>
      obtain ⟨hdone, hindex⟩ := SrtpSsrcState.receive_first hproc (h _) header.sequenceNumber
      rw [hdone, hindex]
      simp
    | true =>
      obtain ⟨hlow, hhigh⟩ := hahead hproc
      obtain ⟨hdone, hlt, hindex⟩ :=
        SrtpSsrcState.receive_ahead hproc (h _) hlow hhigh hsends.notRefused
      rw [hdone, ← hindex]
      simp [hlt]
  · simp only [hjob] at hahead
    rw [hsends.input out input hok]
    simp only [Fresh, hsends.srtcp, if_true, nextSrtcpIndex_of_lt hahead]
    simp

theorem fresh_of_mem_cipherInputs (h : ctx.Valid) (hahead : Runs.Meets afterEncrypt Ahead ctx calls)
    (hmem : input ∈ ctx.cipherInputs calls) : ctx.Fresh input := by
  induction calls generalizing ctx with
  | nil => cases hmem
  | cons call calls ih =>
    have hgrows := grows_afterEncrypt h hahead.1
    have htail := fun hmem => hgrows.fresh (ih (h.afterEncrypt call) hahead.2 hmem)
    unfold cipherInputs at hmem
    split at hmem
    · rename_i out head hok
      obtain rfl | hmem := List.mem_cons.mp hmem
      · exact (fresh_of_encryptRecorded h hahead.1 hok).1
      · exact htail hmem
    · exact htail hmem

theorem nodup_cipherInputs (h : ctx.Valid)
    (hahead : Runs.Meets afterEncrypt Ahead ctx calls) : (ctx.cipherInputs calls).Nodup := by
  induction calls generalizing ctx with
  | nil => exact List.nodup_nil
  | cons call calls ih =>
    have htail := ih (h.afterEncrypt call) hahead.2
    unfold cipherInputs
    split
    · rename_i out head hok
      -- the head is spent by its own call, the rest is fresh after it
      refine List.nodup_cons.mpr ⟨fun hmem => ?_, htail⟩
      exact (fresh_of_encryptRecorded h hahead.1 hok).2
        (fresh_of_mem_cipherInputs (h.afterEncrypt call) hahead.2 hmem)
    · exact htail

/-! ## The end of the index space -/

/-- Successive sequence numbers of every SSRC advance by 1 to `2 ^ 15 - 1`. -/
def Advancing (calls : List EncryptCall) : Prop :=
  ∀ ssrc, List.IsChain
    (fun a b => 1 ≤ SrtpSsrcState.advance a b ∧ SrtpSsrcState.advance a b < 2 ^ 15)
    (calls.filterMap (EncryptCall.seqFor ssrc))

/-- `seq` lies past the last index of `ssrc`. -/
def Exhausts (ctx : Context) (ssrc : BitVec 32) (seq : BitVec 16) : Prop :=
  let s := ctx.srtpSsrcState ssrc
  s.rolloverHasProcessed = true ∧
    2 ^ 48 ≤ s.index + SrtpSsrcState.advance (SrtpSsrcState.seqOf s.index) seq

/-- The call fails if it is an SRTP call for `ssrc`. -/
def FailsFor (ssrc : BitVec 32) (ctx : Context) (call : EncryptCall) : Prop :=
  (call.seqFor ssrc).isSome = true → ∃ e, (ctx.encrypt call).1 = .error e

theorem job_of_seqFor (h : call.seqFor ssrc = some seq) : ∃ header buf, call.job = .rtp header buf ∧
      header.ssrc = ssrc ∧ header.sequenceNumber = seq := by
  unfold EncryptCall.seqFor at h
  split at h
  · rename_i header buf hjob
    split at h
    · exact ⟨header, buf, hjob, ‹_›, Option.some.inj h⟩
    · cases h
  · cases h

theorem encrypt_error_of_recorded
    (h : ∃ e, (ctx.encryptRecorded call).1 = .error e) : ∃ e, (ctx.encrypt call).1 = .error e := by
  obtain ⟨e, he⟩ := h
  refine ⟨e, ?_⟩
  rw [← (ctx.encryptRecorded_eq call).2, he]
  rfl

theorem exhausted_call (h : ctx.Valid)
    (hseq : call.seqFor ssrc = some seq) (hahead : ctx.Ahead call) (hex : ctx.Exhausts ssrc seq) :
    (∃ e, (ctx.encryptRecorded call).1 = .error e) ∧
      (ctx.afterEncrypt call).srtpSsrcState ssrc = ctx.srtpSsrcState ssrc := by
  obtain ⟨header, buf, hjob, rfl, rfl⟩ := job_of_seqFor hseq
  simp only [Ahead, hjob] at hahead
  obtain ⟨hproc, hover⟩ := hex
  have hovf := SrtpSsrcState.nextRolloverCount_of_exhausted hproc (h _).index_lt rfl
    (hahead hproc).2 hover
  rw [afterEncrypt_eq]
  obtain ⟨herr, hsame⟩ | ⟨header', buf', hjob', hsends⟩ | ⟨b, hjob', -⟩ :=
    ctx.encryptRecorded_cases call
  · exact ⟨herr, hsame.1 _⟩
  · rw [hjob'] at hjob
    cases hjob
    rw [hsends.notRefused] at hovf
    cases hovf
  · rw [hjob'] at hjob
    cases hjob

theorem srtpSsrcState_afterEncrypt_of_ne (ctx : Context) (hseq : call.seqFor ssrc = none) :
    (ctx.afterEncrypt call).srtpSsrcState ssrc = ctx.srtpSsrcState ssrc := by
  rw [afterEncrypt_eq]
  obtain ⟨-, hsame⟩ | ⟨header, buf, hjob, hsends⟩ | ⟨b, -, hsends⟩ :=
    ctx.encryptRecorded_cases call
  · exact hsame.1 ssrc
  · simp only [EncryptCall.seqFor, hjob] at hseq
    rw [hsends.srtp, if_neg fun heq => ?_]
    rw [if_pos heq.symm] at hseq
    cases hseq
  · exact hsends.srtp ssrc

/-- A sequence number ahead of one past the last index, and ahead of the stored one, is itself past
    the last index. -/
theorem Exhausts.of_advance {a b : BitVec 16} (h : ctx.Exhausts ssrc a)
    (hstep : 1 ≤ SrtpSsrcState.advance a b ∧ SrtpSsrcState.advance a b < 2 ^ 15)
    (hahead : SrtpSsrcState.advance (SrtpSsrcState.seqOf (ctx.srtpSsrcState ssrc).index) a < 2 ^ 15)
    : ctx.Exhausts ssrc b := by
  obtain ⟨hproc, hover⟩ := h
  refine ⟨hproc, ?_⟩
  simp only [SrtpSsrcState.advance, BitVec.toNat_sub, SrtpSsrcState.toNat_seqOf]
    at hover hstep hahead ⊢
  have ha := a.isLt
  have hb := b.isLt
  omega

theorem failsFor_of_exhausts (h : ctx.Valid) (hex : ctx.Exhausts ssrc seq)
    (hnear : SrtpSsrcState.advance (SrtpSsrcState.seqOf (ctx.srtpSsrcState ssrc).index) seq < 2 ^ 15)
    (hadv : List.IsChain (fun a b => 1 ≤ SrtpSsrcState.advance a b ∧ SrtpSsrcState.advance a b < 2 ^ 15)
    (seq :: calls.filterMap (EncryptCall.seqFor ssrc))) (hahead : Runs.Meets afterEncrypt Ahead ctx calls) :
    Runs.Meets afterEncrypt (FailsFor ssrc) ctx calls := by
  induction calls generalizing ctx seq with
  | nil => trivial
  | cons call calls ih =>
    cases hseq : call.seqFor ssrc with
    | none =>
      rw [List.filterMap_cons_none hseq] at hadv
      have hstate := srtpSsrcState_afterEncrypt_of_ne ctx hseq
      have hother : FailsFor ssrc ctx call := by
        intro hsome
        rw [hseq] at hsome
        cases hsome
      refine ⟨hother, ih (h.afterEncrypt call) ?_ ?_ hadv hahead.2⟩
      · unfold Exhausts
        rw [hstate]
        exact hex
      · rw [hstate]
        exact hnear
    | some next =>
      rw [List.filterMap_cons_some hseq, List.isChain_cons_cons] at hadv
      have hex' := hex.of_advance hadv.1 hnear
      obtain ⟨hfail, hstate⟩ := exhausted_call h hseq hahead.1 hex'
      have hnear' : SrtpSsrcState.advance
          (SrtpSsrcState.seqOf (ctx.srtpSsrcState ssrc).index) next < 2 ^ 15 := by
        obtain ⟨header, buf, hjob, rfl, rfl⟩ := job_of_seqFor hseq
        have hcall := hahead.1
        simp only [Ahead, hjob] at hcall
        exact (hcall hex.1).2
      refine ⟨fun _ => encrypt_error_of_recorded hfail, ?_⟩
      refine ih (h.afterEncrypt call) ?_ ?_ hadv.2 hahead.2
      · unfold Exhausts
        rw [hstate]
        exact hex'
      · rw [hstate]
        exact hnear'

/-! ## Senders -/

/-- What the owner of a sending context may do with it. -/
inductive SenderOp where
  | setRoc (ssrc roc : BitVec 32)
  | setIndex (ssrc : BitVec 32) (index : Nat)
  | encrypt (call : EncryptCall)

/-- The context after an operation of its owner. -/
def afterSenderOp (ctx : Context) : SenderOp → Context
  | .setRoc ssrc roc => ctx.setRoc ssrc roc
  | .setIndex ssrc index => ctx.setIndex ssrc index
  | .encrypt call => ctx.afterEncrypt call

def SenderReachable (ctx : Context) : Prop :=
  ∃ cipher srtpOpt srtcpOpt ops, ctx = Runs.run afterSenderOp (new cipher srtpOpt srtcpOpt) ops

theorem valid_new (cipher : Cipher) (srtpOpt srtcpOpt : Option ReplayDetector) :
    (new cipher srtpOpt srtcpOpt).Valid :=
  fun _ => ⟨Nat.two_pow_pos 48, fun _ => ⟨0#32, rfl⟩⟩

theorem Valid.setRoc (h : ctx.Valid) (ssrc roc : BitVec 32) : (ctx.setRoc ssrc roc).Valid := by
  intro ssrc'
  unfold Context.setRoc
  rw [srtpSsrcState_setSrtpSsrcState]
  split
  · have hlt := roc.isLt
    exact ⟨by dsimp only; omega, fun _ => ⟨roc, rfl⟩⟩
  · exact h ssrc'

theorem SenderReachable.valid (h : SenderReachable ctx) : ctx.Valid := by
  obtain ⟨cipher, srtpOpt, srtcpOpt, ops, rfl⟩ := h
  refine Runs.inv_run_of_step afterSenderOp (fun c op hc => ?_) (valid_new cipher srtpOpt srtcpOpt)
    ops
  cases op with
  | setRoc ssrc roc => exact hc.setRoc ssrc roc
  | setIndex ssrc index => exact hc
  | encrypt call => exact hc.afterEncrypt call

/-- While every call lies ahead of the stored state, no keystream is used twice, and once a
    sequence number has passed the last index of an SSRC, that call and every later one for the SSRC
    fail. -/
theorem keystream_never_reused (ctx : Context) (hctx : SenderReachable ctx)
    (calls : List EncryptCall) (hadv : Advancing calls)
    (hahead : Runs.Meets afterEncrypt Ahead ctx calls) :
    (ctx.cipherInputs calls).Nodup ∧
    ∀ ssrc seq pre call post, calls = pre ++ call :: post → call.seqFor ssrc = some seq →
      (Runs.run afterEncrypt ctx pre).Exhausts ssrc seq →
      Runs.Meets afterEncrypt (FailsFor ssrc) (Runs.run afterEncrypt ctx pre) (call :: post) := by
  refine ⟨nodup_cipherInputs hctx.valid hahead, ?_⟩
  rintro ssrc seq pre call post rfl hseq hex
  have hvalid : (Runs.run afterEncrypt ctx pre).Valid :=
    Runs.inv_run_of_step afterEncrypt (fun c call hc => hc.afterEncrypt call) hctx.valid pre
  have hrest := Runs.meets_of_append hahead
  have hchain := hadv ssrc
  rw [List.filterMap_append, List.filterMap_cons_some hseq] at hchain
  have hchain := hchain.right_of_append
  obtain ⟨hfail, hstate⟩ := exhausted_call hvalid hseq hrest.1 hex
  have hnear : SrtpSsrcState.advance (SrtpSsrcState.seqOf
      ((Runs.run afterEncrypt ctx pre).srtpSsrcState ssrc).index) seq < 2 ^ 15 := by
    obtain ⟨header, buf, hjob, rfl, rfl⟩ := job_of_seqFor hseq
    have hcall := hrest.1
    simp only [Ahead, hjob] at hcall
    exact (hcall hex.1).2
  have hex' : ((Runs.run afterEncrypt ctx pre).afterEncrypt call).Exhausts ssrc seq := by
    unfold Exhausts
    rw [hstate]
    exact hex
  refine ⟨fun _ => encrypt_error_of_recorded hfail, ?_⟩
  refine failsFor_of_exhausts (hvalid.afterEncrypt call) hex' ?_ hchain hrest.2
  rw [hstate]
  exact hnear

/-- The bytes of an RTP packet of SSRC 7 with an empty payload. -/
def bareRtp (seq : BitVec 16) : List Byte :=
  [0x80#8, 96#8] ++ toBe16 seq ++ toBe32 0#32 ++ toBe32 7#32

theorem seqFor_bareRtp (ssrc : BitVec 32) (seq : BitVec 16) :
    (EncryptCall.rtp (bareRtp seq)).seqFor ssrc = if 7#32 = ssrc then some seq else none := by
  have hparse : Rtp.Header.unmarshal (bareRtp seq) =
      .ok (Rtp.headerOf (bareRtp seq) 0#16 ⟨[], 0, []⟩, []) := by
    simp [Rtp.Header.unmarshal, Rtp.csrcEnd, Rtp.csrcCount, Rtp.extensionBit, bareRtp, toBe16,
      toBe32]
  have hseq : (Rtp.headerOf (bareRtp seq) 0#16 ⟨[], 0, []⟩).sequenceNumber = seq := be16_toBe16 seq
  have hssrc : (Rtp.headerOf (bareRtp seq) 0#16 ⟨[], 0, []⟩).ssrc = 7#32 := by
    simp [Rtp.headerOf, readU32, be32, bareRtp, toBe16, toBe32]
  simp only [EncryptCall.seqFor, EncryptCall.job, hparse, hseq, hssrc]

theorem advancing_bareRtp {seqs : List (BitVec 16)} (h : List.IsChain
    (fun a b => 1 ≤ SrtpSsrcState.advance a b ∧ SrtpSsrcState.advance a b < 2 ^ 15) seqs) :
    Advancing (seqs.map fun seq => .rtp (bareRtp seq)) := by
  intro ssrc
  rw [List.filterMap_map]
  by_cases hssrc : 7#32 = ssrc
  · have hsome : (EncryptCall.seqFor ssrc ∘ fun seq => .rtp (bareRtp seq)) = some := by
      funext seq
      rw [Function.comp, seqFor_bareRtp, if_pos hssrc]
    rw [hsome, List.filterMap_some]
    exact h
  · have hnone : (EncryptCall.seqFor ssrc ∘ fun seq => .rtp (bareRtp seq)) = fun _ => none := by
      funext seq
      rw [Function.comp, seqFor_bareRtp, if_neg hssrc]
    rw [hnone, List.filterMap_none]
    exact List.IsChain.nil

/-- A sender whose SSRC 7 is at the last rollover counter and has used every SRTCP index. -/
def lastRocSender : Context :=
  ((new (.aesCmHmacSha1
    (.ofOperations .aes128CmHmacSha1_80 rfl (.constant 0#8) (.constant 0#8))) none none).setRoc
      7#32 maxRoc).setIndex 7#32 maxSrtcpIndex

theorem senderReachable_lastRocSender : SenderReachable lastRocSender :=
  ⟨_, none, none, [.setRoc 7#32 maxRoc, .setIndex 7#32 maxSrtcpIndex], rfl⟩

/-- Two packets of the last rollover counter, and one past it that is refused. -/
theorem keystream_never_reused_last_roc :
    let calls := [32770#16, 65000#16, 100#16].map fun seq => EncryptCall.rtp (bareRtp seq)
    SenderReachable lastRocSender ∧ Advancing calls ∧
      Runs.Meets afterEncrypt Ahead lastRocSender calls ∧
      (lastRocSender.cipherInputs calls).Nodup := by
  intro calls
  have hadv : Advancing calls := advancing_bareRtp (by decide)
  have hahead : Runs.Meets afterEncrypt Ahead lastRocSender calls := by
    refine ⟨fun hproc => ?_, fun _ => ?_, fun _ => ?_, trivial⟩
    · exact absurd hproc (by decide +kernel)
    · decide +kernel
    · decide +kernel
  exact ⟨senderReachable_lastRocSender, hadv, hahead,
    (keystream_never_reused _ senderReachable_lastRocSender calls hadv hahead).1⟩

/-- Past the last index the refusal does not last: a packet half the sequence space later is
    encrypted with a keystream already used. An exhausted SRTCP index starts again at zero. -/
theorem keystream_reused_after_refusal :
    (let calls := [32770#16, 65000#16, 100#16, 32770#16].map fun seq =>
       EncryptCall.rtp (bareRtp seq)
     SenderReachable lastRocSender ∧ Advancing calls ∧
       lastRocSender.cipherInputs calls = [.rtp 7#32 maxRoc 32770#16, .rtp 7#32 maxRoc 65000#16,
         .rtp 7#32 maxRoc 32770#16]) ∧
    lastRocSender.cipherInputs [.rtcp ([0x80#8, 201#8, 0#8, 1#8] ++ toBe32 7#32)] =
      [.rtcp 7#32 0] := by
  refine ⟨⟨senderReachable_lastRocSender, advancing_bareRtp (by decide), ?_⟩, ?_⟩
  · decide +kernel
  · decide +kernel

end Context
end Rtc.Srtp
