import Rtc.Lib.Table
import Rtc.Shared.Proofs.DetectorWindow
import Rtc.Srtp.Context

/-!
# Rejected packets leave no trace

Contexts are compared up to what a replay `check` notes in a detector (`Alike`). A decryption call that fails leaves a
context alike to the one before it, and alike contexts answer every further sequence of calls alike. The detectors
must be initialised (`Settled`), which they are in every context that has only decrypted.
-/

namespace Rtc.Srtp
open Bytes Shared

/-- The state without what the last replay `check` noted. -/
def SrtpSsrcState.forget (s : SrtpSsrcState) : SrtpSsrcState :=
  { s with replayDetector := s.replayDetector.map ReplayDetector.forget }

/-- The state without what the last replay `check` noted. -/
def SrtcpSsrcState.forget (s : SrtcpSsrcState) : SrtcpSsrcState :=
  { s with replayDetector := s.replayDetector.map ReplayDetector.forget }

/-! ## The replay check -/

/-- The detector, if there is one, is initialised. -/
def DetectorSettled (detector : Option ReplayDetector) : Prop :=
  ∀ d, detector = some d → d.Initialised

variable {d : Option ReplayDetector}

theorem checkReplay_fst_congr {d' : Option ReplayDetector}
    (h : d.map ReplayDetector.forget = d'.map ReplayDetector.forget) (seq : Nat) :
    (checkReplay d seq).1 = (checkReplay d' seq).1 := by
  cases d with
  | none =>
    cases d' with
    | none => rfl
    | some d' => simp at h
  | some d =>
    cases d' with
    | none => simp at h
    | some d' => exact ReplayDetector.check_fst_congr (Option.some.inj h) seq

theorem checkReplay_snd_congr {d' : Option ReplayDetector}
    (h : d.map ReplayDetector.forget = d'.map ReplayDetector.forget) {seq : Nat}
    (hvalid : (checkReplay d seq).1 = true) : (checkReplay d seq).2 = (checkReplay d' seq).2 := by
  cases d with
  | none =>
    cases d' with
    | none => rfl
    | some d' => simp at h
  | some d =>
    cases d' with
    | none => simp at h
    | some d' =>
      exact congrArg some (ReplayDetector.check_snd_congr (Option.some.inj h) hvalid)

theorem forget_checkReplay_snd (hd : DetectorSettled d) (seq : Nat) :
    (checkReplay d seq).2.map ReplayDetector.forget = d.map ReplayDetector.forget := by
  cases d with
  | none => rfl
  | some d => exact congrArg some (ReplayDetector.forget_check_snd (hd d rfl) seq)

theorem detectorSettled_checkReplay (hd : DetectorSettled d)
    (seq : Nat) : DetectorSettled (checkReplay d seq).2 := by
  cases d with
  | none => exact hd
  | some d =>
    rintro d' hd'
    obtain rfl := Option.some.inj hd'
    exact ReplayDetector.initialised_check (hd d rfl) seq

theorem detectorSettled_accept {seq : Nat} (hvalid : (checkReplay d seq).1 = true) :
    DetectorSettled ((checkReplay d seq).2.map ReplayDetector.accept) := by
  cases d with
  | none => simp [DetectorSettled, checkReplay]
  | some d =>
    rintro d' hd'
    obtain rfl := Option.some.inj hd'
    exact ReplayDetector.initialised_accept hvalid

namespace Context

variable {ctx ctx' ctx'' : Context} {ssrc : BitVec 32} {α : Type} {header : Rtp.Header} {e : Error} {b : List Byte}

structure Alike (ctx ctx' : Context) : Prop where
  cipher : ctx.cipher = ctx'.cipher
  newSrtp : ctx.newSrtpReplayDetector = ctx'.newSrtpReplayDetector
  newSrtcp : ctx.newSrtcpReplayDetector = ctx'.newSrtcpReplayDetector
  srtp : ∀ ssrc, (ctx.srtpSsrcStates.lookup ssrc).map SrtpSsrcState.forget =
    (ctx'.srtpSsrcStates.lookup ssrc).map SrtpSsrcState.forget
  srtcp : ∀ ssrc, (ctx.srtcpSsrcStates.lookup ssrc).map SrtcpSsrcState.forget =
    (ctx'.srtcpSsrcStates.lookup ssrc).map SrtcpSsrcState.forget

structure Settled (ctx : Context) : Prop where
  srtp : ∀ ssrc s, ctx.srtpSsrcStates.lookup ssrc = some s → DetectorSettled s.replayDetector
  srtcp : ∀ ssrc s, ctx.srtcpSsrcStates.lookup ssrc = some s → DetectorSettled s.replayDetector

theorem Alike.refl (ctx : Context) : Alike ctx ctx :=
  ⟨rfl, rfl, rfl, fun _ => rfl, fun _ => rfl⟩

section

variable (h : Alike ctx ctx')
include h

theorem Alike.symm : Alike ctx' ctx :=
  ⟨h.cipher.symm, h.newSrtp.symm, h.newSrtcp.symm, fun s => (h.srtp s).symm,
    fun s => (h.srtcp s).symm⟩

theorem Alike.trans (h' : Alike ctx' ctx'') : Alike ctx ctx'' :=
  ⟨h.cipher.trans h'.cipher, h.newSrtp.trans h'.newSrtp, h.newSrtcp.trans h'.newSrtcp,
    fun s => (h.srtp s).trans (h'.srtp s), fun s => (h.srtcp s).trans (h'.srtcp s)⟩

theorem Alike.isSome_lookup (ssrc : BitVec 32) :
    (ctx.srtpSsrcStates.lookup ssrc).isSome = (ctx'.srtpSsrcStates.lookup ssrc).isSome ∧
    (ctx.srtcpSsrcStates.lookup ssrc).isSome = (ctx'.srtcpSsrcStates.lookup ssrc).isSome := by
  constructor
  · simpa using congrArg Option.isSome (h.srtp ssrc)
  · simpa using congrArg Option.isSome (h.srtcp ssrc)

theorem Alike.srtpSsrcState (ssrc : BitVec 32) :
    (ctx.srtpSsrcState ssrc).forget = (ctx'.srtpSsrcState ssrc).forget := by
  unfold Context.srtpSsrcState newSrtpSsrcState
  rw [h.newSrtp, ← Option.getD_map SrtpSsrcState.forget, ← Option.getD_map SrtpSsrcState.forget, h.srtp ssrc]

theorem Alike.srtcpSsrcState (ssrc : BitVec 32) :
    (ctx.srtcpSsrcState ssrc).forget = (ctx'.srtcpSsrcState ssrc).forget := by
  unfold Context.srtcpSsrcState newSrtcpSsrcState
  rw [h.newSrtcp, ← Option.getD_map SrtcpSsrcState.forget, ← Option.getD_map SrtcpSsrcState.forget, h.srtcp ssrc]

end

theorem lookup_setSrtpSsrcState (ctx : Context) (ssrc ssrc' : BitVec 32) (s : SrtpSsrcState) :
    (ctx.setSrtpSsrcState ssrc s).srtpSsrcStates.lookup ssrc' =
      if ssrc' = ssrc then some s else ctx.srtpSsrcStates.lookup ssrc' :=
  Table.lookup_insert _ _ _ _

theorem lookup_setSrtcpSsrcState (ctx : Context) (ssrc ssrc' : BitVec 32) (s : SrtcpSsrcState) :
    (ctx.setSrtcpSsrcState ssrc s).srtcpSsrcStates.lookup ssrc' =
      if ssrc' = ssrc then some s else ctx.srtcpSsrcStates.lookup ssrc' :=
  Table.lookup_insert _ _ _ _

theorem Alike.setSrtpSsrcState (h : Alike ctx ctx') (ssrc : BitVec 32) (s : SrtpSsrcState) :
    Alike (ctx.setSrtpSsrcState ssrc s) (ctx'.setSrtpSsrcState ssrc s) := by
  refine ⟨h.cipher, h.newSrtp, h.newSrtcp, fun ssrc' => ?_, h.srtcp⟩
  rw [lookup_setSrtpSsrcState, lookup_setSrtpSsrcState]
  split
  · rfl
  · exact h.srtp ssrc'

theorem Alike.setSrtcpSsrcState (h : Alike ctx ctx') (ssrc : BitVec 32) (s : SrtcpSsrcState) :
    Alike (ctx.setSrtcpSsrcState ssrc s) (ctx'.setSrtcpSsrcState ssrc s) := by
  refine ⟨h.cipher, h.newSrtp, h.newSrtcp, h.srtp, fun ssrc' => ?_⟩
  rw [lookup_setSrtcpSsrcState, lookup_setSrtcpSsrcState]
  split
  · rfl
  · exact h.srtcp ssrc'

theorem lookup_of_isSome (h : (ctx.srtpSsrcStates.lookup ssrc).isSome) :
    ctx.srtpSsrcStates.lookup ssrc = some (ctx.srtpSsrcState ssrc) := by
  obtain ⟨s, hs⟩ := Option.isSome_iff_exists.mp h
  rw [srtpSsrcState, hs, Option.getD_some]

theorem lookup_of_isSome' (h : (ctx.srtcpSsrcStates.lookup ssrc).isSome) :
    ctx.srtcpSsrcStates.lookup ssrc = some (ctx.srtcpSsrcState ssrc) := by
  obtain ⟨s, hs⟩ := Option.isSome_iff_exists.mp h
  rw [srtcpSsrcState, hs, Option.getD_some]

section

variable (hctx : Settled ctx)
include hctx

/-- What a call leaves of the state of `ssrc` after a replay check that leads to nothing. -/
theorem alike_touchSrtpSsrcState (ssrc : BitVec 32) (seq : Nat) :
    Alike ctx (ctx.touchSrtpSsrcState ssrc { ctx.srtpSsrcState ssrc with
      replayDetector := (checkReplay (ctx.srtpSsrcState ssrc).replayDetector seq).2 }) := by
  unfold touchSrtpSsrcState
  split
  case isTrue hsome =>
    have hs := lookup_of_isSome hsome
    refine ⟨rfl, rfl, rfl, Table.map_lookup_insert ?_, fun _ => rfl⟩
    rw [hs, Option.map_some, SrtpSsrcState.forget, SrtpSsrcState.forget, forget_checkReplay_snd (hctx.srtp ssrc _ hs)]
  case isFalse => exact Alike.refl ctx

theorem alike_touchSrtcpSsrcState (ssrc : BitVec 32) (seq : Nat) :
    Alike ctx (ctx.touchSrtcpSsrcState ssrc { ctx.srtcpSsrcState ssrc with
      replayDetector := (checkReplay (ctx.srtcpSsrcState ssrc).replayDetector seq).2 }) := by
  unfold touchSrtcpSsrcState
  split
  case isTrue hsome =>
    have hs := lookup_of_isSome' hsome
    refine ⟨rfl, rfl, rfl, fun _ => rfl, Table.map_lookup_insert ?_⟩
    rw [hs, Option.map_some, SrtcpSsrcState.forget, SrtcpSsrcState.forget,
      forget_checkReplay_snd (hctx.srtcp ssrc _ hs)]
  case isFalse => exact Alike.refl ctx

theorem Settled.setSrtpSsrcState {s : SrtpSsrcState}
    (hs : DetectorSettled s.replayDetector) : Settled (ctx.setSrtpSsrcState ssrc s) :=
  ⟨fun ssrc' _ hs' => Table.forall_lookup_insert hctx.srtp hs ssrc' hs', hctx.srtcp⟩

theorem Settled.setSrtcpSsrcState {s : SrtcpSsrcState}
    (hs : DetectorSettled s.replayDetector) : Settled (ctx.setSrtcpSsrcState ssrc s) :=
  ⟨hctx.srtp, fun ssrc' _ hs' => Table.forall_lookup_insert hctx.srtcp hs ssrc' hs'⟩

theorem Settled.touchSrtpSsrcState (ssrc : BitVec 32) (seq : Nat) :
    Settled (ctx.touchSrtpSsrcState ssrc { ctx.srtpSsrcState ssrc with
      replayDetector := (checkReplay (ctx.srtpSsrcState ssrc).replayDetector seq).2 }) := by
  unfold Context.touchSrtpSsrcState
  split
  case isTrue hsome =>
    exact hctx.setSrtpSsrcState (detectorSettled_checkReplay (hctx.srtp ssrc _ (lookup_of_isSome hsome)) seq)
  case isFalse => exact hctx

theorem Settled.touchSrtcpSsrcState (ssrc : BitVec 32) (seq : Nat) :
    Settled (ctx.touchSrtcpSsrcState ssrc { ctx.srtcpSsrcState ssrc with
      replayDetector := (checkReplay (ctx.srtcpSsrcState ssrc).replayDetector seq).2 }) := by
  unfold Context.touchSrtcpSsrcState
  split
  case isTrue hsome =>
    exact hctx.setSrtcpSsrcState (detectorSettled_checkReplay (hctx.srtcp ssrc _ (lookup_of_isSome' hsome)) seq)
  case isFalse => exact hctx

end

/-! ## One call -/

theorem decryptRtpUnderState_fst (ctx : Context) (header : Rtp.Header)
    (decrypt : Cipher → BitVec 32 → Except Error α) :
    (ctx.decryptRtpUnderState header decrypt).1 =
      if (checkReplay (ctx.srtpSsrcState header.ssrc).replayDetector
          header.sequenceNumber.toNat).1 then
        decrypt ctx.cipher
          ((ctx.srtpSsrcState header.ssrc).nextRolloverCount header.sequenceNumber).1
      else .error (.srtpSsrcDuplicated header.ssrc header.sequenceNumber) := by
  simp only [decryptRtpUnderState]
  split
  · split <;> simp_all
  · rfl

/-- What `decrypt_rtp_under_state` does: fail and leave at most the note of a replay check, or
    authenticate and commit. -/
theorem decryptRtpUnderState_cases (ctx : Context) (header : Rtp.Header)
    (decrypt : Cipher → BitVec 32 → Except Error α) :
    let state := ctx.srtpSsrcState header.ssrc
    let next := state.nextRolloverCount header.sequenceNumber
    let check := checkReplay state.replayDetector header.sequenceNumber.toNat
    (∃ e, ctx.decryptRtpUnderState header decrypt = (.error e,
        ctx.touchSrtpSsrcState header.ssrc { state with replayDetector := check.2 })) ∨
    (∃ out, check.1 = true ∧ decrypt ctx.cipher next.1 = .ok out ∧
      ctx.decryptRtpUnderState header decrypt = (.ok out,
        ctx.setSrtpSsrcState header.ssrc (SrtpSsrcState.updateRolloverCount
          { state with replayDetector := check.2.map ReplayDetector.accept }
          header.sequenceNumber next.2.1))) := by
  intro state next check
  by_cases hvalid : check.1 = true
  · cases hdec : decrypt ctx.cipher next.1 with
    | error e =>
      left
      refine ⟨e, ?_⟩
      simp only [decryptRtpUnderState, state, next, check] at hvalid hdec ⊢
      rw [if_pos hvalid, hdec]
    | ok out =>
      right
      refine ⟨out, hvalid, rfl, ?_⟩
      simp only [decryptRtpUnderState, state, next, check] at hvalid hdec ⊢
      rw [if_pos hvalid, hdec]
  · left
    refine ⟨.srtpSsrcDuplicated header.ssrc header.sequenceNumber, ?_⟩
    simp only [decryptRtpUnderState, check] at hvalid ⊢
    rw [if_neg hvalid]

theorem alike_of_decryptRtpUnderState_error (hctx : Settled ctx) {decrypt : Cipher → BitVec 32 → Except Error α}
    (herr : (ctx.decryptRtpUnderState header decrypt).1 = .error e) :
    Alike ctx (ctx.decryptRtpUnderState header decrypt).2 := by
  rcases ctx.decryptRtpUnderState_cases header decrypt with ⟨e', heq⟩ | ⟨out, -, -, heq⟩
  · rw [heq]
    exact alike_touchSrtpSsrcState hctx _ _
  · rw [heq] at herr
    cases herr

theorem Settled.decryptRtpUnderState (hctx : Settled ctx) (header : Rtp.Header)
    (decrypt : Cipher → BitVec 32 → Except Error α) : Settled (ctx.decryptRtpUnderState header decrypt).2 := by
  rcases ctx.decryptRtpUnderState_cases header decrypt with ⟨e', heq⟩ | ⟨out, hvalid, -, heq⟩
  · rw [heq]
    exact hctx.touchSrtpSsrcState _ _
  · rw [heq]
    refine hctx.setSrtpSsrcState ?_
    have haccept := detectorSettled_accept hvalid
    unfold SrtpSsrcState.updateRolloverCount
    split <;> exact haccept

theorem nextRolloverCount_congr {s s' : SrtpSsrcState} (h : s.forget = s'.forget)
    (seq : BitVec 16) : s.nextRolloverCount seq = s'.nextRolloverCount seq := by
  have hforget : ∀ t : SrtpSsrcState, t.forget.nextRolloverCount seq = t.nextRolloverCount seq :=
    fun _ => rfl
  rw [← hforget s, ← hforget s', h]

theorem forget_replayDetector_congr {s s' : SrtpSsrcState} (h : s.forget = s'.forget) :
    s.replayDetector.map ReplayDetector.forget = s'.replayDetector.map ReplayDetector.forget :=
  congrArg SrtpSsrcState.replayDetector h

theorem setDetector_congr {s s' : SrtpSsrcState} (h : s.forget = s'.forget)
    (d : Option ReplayDetector) : { s with replayDetector := d } = { s' with replayDetector := d } := by
  have hssrc := congrArg SrtpSsrcState.ssrc h
  have hindex := congrArg SrtpSsrcState.index h
  have hproc := congrArg SrtpSsrcState.rolloverHasProcessed h
  simp only [SrtpSsrcState.forget] at hssrc hindex hproc
  rw [hssrc, hindex, hproc]

theorem setDetector_congr' {s s' : SrtcpSsrcState} (h : s.forget = s'.forget)
    (d : Option ReplayDetector) : { s with replayDetector := d } = { s' with replayDetector := d } := by
  have hssrc := congrArg SrtcpSsrcState.ssrc h
  have hindex := congrArg SrtcpSsrcState.srtcpIndex h
  simp only [SrtcpSsrcState.forget] at hssrc hindex
  rw [hssrc, hindex]

theorem Alike.decryptRtpUnderState (h : Alike ctx ctx') (hctx : Settled ctx)
    (hctx' : Settled ctx') (header : Rtp.Header) (decrypt : Cipher → BitVec 32 → Except Error α) :
    (ctx.decryptRtpUnderState header decrypt).1 = (ctx'.decryptRtpUnderState header decrypt).1 ∧
      Alike (ctx.decryptRtpUnderState header decrypt).2
        (ctx'.decryptRtpUnderState header decrypt).2 := by
  have hstate := h.srtpSsrcState header.ssrc
  have hnext := nextRolloverCount_congr hstate header.sequenceNumber
  have hfst := checkReplay_fst_congr (forget_replayDetector_congr hstate)
    header.sequenceNumber.toNat
  have hres : (ctx.decryptRtpUnderState header decrypt).1 =
      (ctx'.decryptRtpUnderState header decrypt).1 := by
    rw [decryptRtpUnderState_fst, decryptRtpUnderState_fst, hfst, hnext, h.cipher]
  refine ⟨hres, ?_⟩
  rcases ctx.decryptRtpUnderState_cases header decrypt with ⟨e, heq⟩ | ⟨out, hvalid, -, heq⟩
  · have herr : (ctx.decryptRtpUnderState header decrypt).1 = .error e := by rw [heq]
    exact ((alike_of_decryptRtpUnderState_error hctx herr).symm.trans h).trans
      (alike_of_decryptRtpUnderState_error hctx' (hres ▸ herr))
  · rcases ctx'.decryptRtpUnderState_cases header decrypt with ⟨e', heq'⟩ | ⟨out', -, -, heq'⟩
    · rw [heq, heq'] at hres
      cases hres
    · rw [heq, heq', ← hnext, setDetector_congr hstate,
        checkReplay_snd_congr (forget_replayDetector_congr hstate) hvalid]
      exact h.setSrtpSsrcState _ _

/-! ## SRTCP -/

theorem decryptRtcp_fst (ctx : Context) (b : List Byte) :
    (ctx.decryptRtcp b).1 =
      if b.length < minRtcpLen ctx.cipher then .error .errTooShortRtcp
      else match Rtcp.Header.unmarshal b with
        | .error e => .error e
        | .ok _ =>
          if (checkReplay (ctx.srtcpSsrcState (readU32 b 4)).replayDetector
              (ctx.cipher.getRtcpIndex b)).1 then
            ctx.cipher.decryptRtcp b (ctx.cipher.getRtcpIndex b) (readU32 b 4)
          else .error (.srtcpSsrcDuplicated (readU32 b 4) (ctx.cipher.getRtcpIndex b)) := by
  simp only [decryptRtcp]
  split
  · rfl
  · cases Rtcp.Header.unmarshal b with
    | error e => rfl
    | ok header =>
      dsimp only
      split
      · split <;> simp_all
      · rfl

/-- What `decrypt_rtcp` does: fail before or after the replay check, or authenticate and commit. -/
theorem decryptRtcp_cases (ctx : Context) (b : List Byte) :
    let state := ctx.srtcpSsrcState (readU32 b 4)
    let index := ctx.cipher.getRtcpIndex b
    let check := checkReplay state.replayDetector index
    (∃ e, ctx.decryptRtcp b = (.error e, ctx)) ∨
    (∃ e, ctx.decryptRtcp b = (.error e,
      ctx.touchSrtcpSsrcState (readU32 b 4) { state with replayDetector := check.2 })) ∨
    (∃ out, check.1 = true ∧ ctx.cipher.decryptRtcp b index (readU32 b 4) = .ok out ∧
      ctx.decryptRtcp b = (.ok out, ctx.setSrtcpSsrcState (readU32 b 4)
        { state with replayDetector := check.2.map ReplayDetector.accept })) := by
  intro state index check
  by_cases hlen : b.length < minRtcpLen ctx.cipher
  · left
    exact ⟨.errTooShortRtcp, by simp [decryptRtcp, hlen]⟩
  cases hhdr : Rtcp.Header.unmarshal b with
  | error e =>
    left
    exact ⟨e, by simp [decryptRtcp, hlen, hhdr]⟩
  | ok header =>
    right
    simp only [decryptRtcp, hlen, hhdr, if_false]
    by_cases hvalid : check.1 = true
    · cases hdec : ctx.cipher.decryptRtcp b index (readU32 b 4) with
      | error e =>
        left
        refine ⟨e, ?_⟩
        simp only [state, index, check] at hvalid ⊢
        rw [if_pos hvalid]
      | ok out =>
        right
        refine ⟨out, hvalid, rfl, ?_⟩
        simp only [state, index, check] at hvalid ⊢
        rw [if_pos hvalid]
    · left
      refine ⟨.srtcpSsrcDuplicated (readU32 b 4) index, ?_⟩
      simp only [state, index, check] at hvalid ⊢
      rw [if_neg hvalid]

theorem alike_of_decryptRtcp_error (hctx : Settled ctx)
    (herr : (ctx.decryptRtcp b).1 = .error e) : Alike ctx (ctx.decryptRtcp b).2 := by
  rcases ctx.decryptRtcp_cases b with ⟨e', heq⟩ | ⟨e', heq⟩ | ⟨out, -, -, heq⟩
  · rw [heq]
    exact Alike.refl ctx
  · rw [heq]
    exact alike_touchSrtcpSsrcState hctx _ _
  · rw [heq] at herr
    cases herr

theorem Settled.decryptRtcp (hctx : Settled ctx) (b : List Byte) : Settled (ctx.decryptRtcp b).2 := by
  rcases ctx.decryptRtcp_cases b with ⟨e', heq⟩ | ⟨e', heq⟩ | ⟨out, hvalid, -, heq⟩
  · rw [heq]
    exact hctx
  · rw [heq]
    exact hctx.touchSrtcpSsrcState _ _
  · rw [heq]
    exact hctx.setSrtcpSsrcState (detectorSettled_accept hvalid)

theorem Alike.decryptRtcp (h : Alike ctx ctx') (hctx : Settled ctx) (hctx' : Settled ctx')
    (b : List Byte) : (ctx.decryptRtcp b).1 = (ctx'.decryptRtcp b).1 ∧
      Alike (ctx.decryptRtcp b).2 (ctx'.decryptRtcp b).2 := by
  have hstate := h.srtcpSsrcState (readU32 b 4)
  have hdet : (ctx.srtcpSsrcState (readU32 b 4)).replayDetector.map ReplayDetector.forget =
      (ctx'.srtcpSsrcState (readU32 b 4)).replayDetector.map ReplayDetector.forget :=
    congrArg SrtcpSsrcState.replayDetector hstate
  have hres : (ctx.decryptRtcp b).1 = (ctx'.decryptRtcp b).1 := by
    rw [decryptRtcp_fst, decryptRtcp_fst, checkReplay_fst_congr hdet, h.cipher]
  have hboth : ∀ e, (ctx.decryptRtcp b).1 = .error e →
      Alike (ctx.decryptRtcp b).2 (ctx'.decryptRtcp b).2 := fun e herr =>
    ((alike_of_decryptRtcp_error hctx herr).symm.trans h).trans
      (alike_of_decryptRtcp_error hctx' (hres ▸ herr))
  refine ⟨hres, ?_⟩
  rcases ctx.decryptRtcp_cases b with ⟨e, heq⟩ | ⟨e, heq⟩ | ⟨out, hvalid, -, heq⟩
  · exact hboth e (by rw [heq])
  · exact hboth e (by rw [heq])
  · rcases ctx'.decryptRtcp_cases b with ⟨e', heq'⟩ | ⟨e', heq'⟩ | ⟨out', -, -, heq'⟩
    · rw [heq, heq'] at hres
      cases hres
    · rw [heq, heq'] at hres
      cases hres
    · rw [heq, heq', setDetector_congr' hstate, ← h.cipher, checkReplay_snd_congr hdet hvalid]
      exact h.setSrtcpSsrcState _ _

/-! ## Runs of decryption calls -/

/-- A call on a context used for decryption. -/
inductive DecryptCall where
  | rtp (encrypted : List Byte)
  | rtpWithHeader (encrypted : List Byte) (header : Rtp.Header)
  | rtpPacket (encrypted : List Byte)
  | rtcp (encrypted : List Byte)

inductive DecryptResult where
  | bytes (result : Except Error (List Byte))
  | packet (result : Except Error Rtp.Packet)

/-- The call on `ctx`. -/
def decrypt (ctx : Context) : DecryptCall → DecryptResult × Context
  | .rtp b => (.bytes (ctx.decryptRtp b).1, (ctx.decryptRtp b).2)
  | .rtpWithHeader b h => (.bytes (ctx.decryptRtpWithHeader b h).1, (ctx.decryptRtpWithHeader b h).2)
  | .rtpPacket b => (.packet (ctx.decryptRtpPacket b).1, (ctx.decryptRtpPacket b).2)
  | .rtcp b => (.bytes (ctx.decryptRtcp b).1, (ctx.decryptRtcp b).2)

def afterDecrypt (ctx : Context) (call : DecryptCall) : Context := (ctx.decrypt call).2

def decryptResults (ctx : Context) : List DecryptCall → List DecryptResult
  | [] => []
  | call :: calls => (ctx.decrypt call).1 :: (ctx.afterDecrypt call).decryptResults calls

/-- The call fails at or before authentication. `decrypt_rtp_packet` authenticates as `decrypt_rtp`
    does and removes the padding afterwards. -/
def Rejects (ctx : Context) : DecryptCall → Prop
  | .rtp b => ∃ e, (ctx.decryptRtp b).1 = .error e
  | .rtpWithHeader b h => ∃ e, (ctx.decryptRtpWithHeader b h).1 = .error e
  | .rtpPacket b => ∃ e, (ctx.decryptRtp b).1 = .error e
  | .rtcp b => ∃ e, (ctx.decryptRtcp b).1 = .error e

theorem settled_new (cipher : Cipher) (srtpOpt srtcpOpt : Option ReplayDetector) :
    Settled (new cipher srtpOpt srtcpOpt) :=
  ⟨fun _ _ hs => by simp [new] at hs, fun _ _ hs => by simp [new] at hs⟩

theorem Settled.decryptRtpWithHeader (hctx : Settled ctx) (b : List Byte) (header : Rtp.Header) :
    Settled (ctx.decryptRtpWithHeader b header).2 := by
  unfold Context.decryptRtpWithHeader
  split
  · exact hctx
  · exact hctx.decryptRtpUnderState _ _

theorem Alike.decryptRtpWithHeader (h : Alike ctx ctx') (hctx : Settled ctx)
    (hctx' : Settled ctx') (b : List Byte) (header : Rtp.Header) :
    (ctx.decryptRtpWithHeader b header).1 = (ctx'.decryptRtpWithHeader b header).1 ∧
      Alike (ctx.decryptRtpWithHeader b header).2 (ctx'.decryptRtpWithHeader b header).2 := by
  unfold Context.decryptRtpWithHeader
  rw [h.cipher]
  split
  · exact ⟨rfl, h⟩
  · exact h.decryptRtpUnderState hctx hctx' _ _

theorem alike_of_decryptRtpWithHeader_error (hctx : Settled ctx)
    (herr : (ctx.decryptRtpWithHeader b header).1 = .error e) :
    Alike ctx (ctx.decryptRtpWithHeader b header).2 := by
  unfold Context.decryptRtpWithHeader at herr ⊢
  split
  · exact Alike.refl ctx
  · rename_i hlen
    rw [if_neg hlen] at herr
    exact alike_of_decryptRtpUnderState_error hctx herr

theorem decryptRtpPacket_eq (ctx : Context) (b : List Byte) :
    (ctx.decryptRtpPacket b).2 = (ctx.decryptRtp b).2 ∧
    (ctx.decryptRtpPacket b).1 = match Rtp.Header.unmarshal b with
      | .error e => .error e
      | .ok (header, rest) =>
        match (ctx.decryptRtp b).1 with
        | .error e => .error e
        | .ok out => packetOfDecrypted header (b.length - rest.length) out := by
  unfold Context.decryptRtpPacket Context.decryptRtp
  cases Rtp.Header.unmarshal b with
  | error e => exact ⟨rfl, rfl⟩
  | ok parsed =>
    obtain ⟨header, rest⟩ := parsed
    simp only [Context.decryptRtpWithHeader]
    split
    · exact ⟨rfl, rfl⟩
    · generalize ctx.decryptRtpUnderState header _ = r
      obtain ⟨res, after⟩ := r
      cases res with
      | error e => exact ⟨rfl, rfl⟩
      | ok out => exact ⟨rfl, rfl⟩

theorem Settled.decryptRtp (hctx : Settled ctx) (b : List Byte) : Settled (ctx.decryptRtp b).2 := by
  unfold Context.decryptRtp
  split
  · exact hctx
  · exact hctx.decryptRtpWithHeader _ _

theorem Alike.decryptRtp (h : Alike ctx ctx') (hctx : Settled ctx) (hctx' : Settled ctx')
    (b : List Byte) : (ctx.decryptRtp b).1 = (ctx'.decryptRtp b).1 ∧
      Alike (ctx.decryptRtp b).2 (ctx'.decryptRtp b).2 := by
  unfold Context.decryptRtp
  split
  · exact ⟨rfl, h⟩
  · exact h.decryptRtpWithHeader hctx hctx' _ _

theorem alike_of_decryptRtp_error (hctx : Settled ctx)
    (herr : (ctx.decryptRtp b).1 = .error e) : Alike ctx (ctx.decryptRtp b).2 := by
  unfold Context.decryptRtp at herr ⊢
  split
  · exact Alike.refl ctx
  · rename_i hhdr
    rw [hhdr] at herr
    exact alike_of_decryptRtpWithHeader_error hctx herr

theorem Settled.afterDecrypt (hctx : Settled ctx) (call : DecryptCall) : Settled (ctx.afterDecrypt call) := by
  cases call with
  | rtp b => exact hctx.decryptRtp b
  | rtpWithHeader b header => exact hctx.decryptRtpWithHeader b header
  | rtpPacket b =>
    change Settled (ctx.decryptRtpPacket b).2
    rw [(ctx.decryptRtpPacket_eq b).1]
    exact hctx.decryptRtp b
  | rtcp b => exact hctx.decryptRtcp b

theorem Alike.decrypt (h : Alike ctx ctx') (hctx : Settled ctx) (hctx' : Settled ctx')
    (call : DecryptCall) : (ctx.decrypt call).1 = (ctx'.decrypt call).1 ∧
      Alike (ctx.afterDecrypt call) (ctx'.afterDecrypt call) := by
  cases call with
  | rtp b =>
    obtain ⟨hres, halike⟩ := h.decryptRtp hctx hctx' b
    exact ⟨congrArg DecryptResult.bytes hres, halike⟩
  | rtpWithHeader b header =>
    obtain ⟨hres, halike⟩ := h.decryptRtpWithHeader hctx hctx' b header
    exact ⟨congrArg DecryptResult.bytes hres, halike⟩
  | rtpPacket b =>
    obtain ⟨hres, halike⟩ := h.decryptRtp hctx hctx' b
    obtain ⟨hsnd, hfst⟩ := ctx.decryptRtpPacket_eq b
    obtain ⟨hsnd', hfst'⟩ := ctx'.decryptRtpPacket_eq b
    constructor
    · change DecryptResult.packet _ = DecryptResult.packet _
      rw [hfst, hfst', hres]
    · change Alike (ctx.decryptRtpPacket b).2 (ctx'.decryptRtpPacket b).2
      rwa [hsnd, hsnd']
  | rtcp b =>
    obtain ⟨hres, halike⟩ := h.decryptRtcp hctx hctx' b
    exact ⟨congrArg DecryptResult.bytes hres, halike⟩

theorem Alike.decryptResults (h : Alike ctx ctx') (hctx : Settled ctx) (hctx' : Settled ctx')
    (calls : List DecryptCall) : ctx.decryptResults calls = ctx'.decryptResults calls := by
  induction calls generalizing ctx ctx' with
  | nil => rfl
  | cons call calls ih =>
    obtain ⟨hres, halike⟩ := h.decrypt hctx hctx' call
    simp only [Context.decryptResults, hres]
    rw [ih halike (hctx.afterDecrypt call) (hctx'.afterDecrypt call)]

theorem alike_of_rejects (hctx : Settled ctx) {call : DecryptCall} (h : ctx.Rejects call) :
    Alike ctx (ctx.afterDecrypt call) := by
  cases call with
  | rtp b =>
    obtain ⟨e, herr⟩ := h
    exact alike_of_decryptRtp_error hctx herr
  | rtpWithHeader b header =>
    obtain ⟨e, herr⟩ := h
    exact alike_of_decryptRtpWithHeader_error hctx herr
  | rtpPacket b =>
    obtain ⟨e, herr⟩ := h
    change Alike ctx (ctx.decryptRtpPacket b).2
    rw [(ctx.decryptRtpPacket_eq b).1]
    exact alike_of_decryptRtp_error hctx herr
  | rtcp b =>
    obtain ⟨e, herr⟩ := h
    exact alike_of_decryptRtcp_error hctx herr

def DecryptReachable (ctx : Context) : Prop :=
  ∃ cipher srtpOpt srtcpOpt calls, ctx = Runs.run afterDecrypt (new cipher srtpOpt srtcpOpt) calls

theorem DecryptReachable.settled (h : DecryptReachable ctx) : Settled ctx := by
  obtain ⟨cipher, srtpOpt, srtcpOpt, calls, rfl⟩ := h
  exact Runs.inv_run_of_step afterDecrypt (fun c call hc => hc.afterDecrypt call)
    (settled_new cipher srtpOpt srtcpOpt) calls

/-- A packet rejected at or before authentication leaves no trace: in every reachable context, the
    results of every later sequence of calls are those without it, and no map entry has appeared
    or gone. -/
theorem rejected_packet_leaves_no_trace (ctx : Context) (hctx : DecryptReachable ctx)
    (call : DecryptCall) (hreject : ctx.Rejects call) :
    (∀ later, (ctx.afterDecrypt call).decryptResults later = ctx.decryptResults later) ∧
    ∀ ssrc,
      ((ctx.afterDecrypt call).srtpSsrcStates.lookup ssrc).isSome =
        (ctx.srtpSsrcStates.lookup ssrc).isSome ∧
      ((ctx.afterDecrypt call).srtcpSsrcStates.lookup ssrc).isSome =
        (ctx.srtcpSsrcStates.lookup ssrc).isSome := by
  have halike := (alike_of_rejects hctx.settled hreject).symm
  refine ⟨fun later => ?_, halike.isSome_lookup⟩
  exact halike.decryptResults (hctx.settled.afterDecrypt call) hctx.settled later

/-- A packet with a wrong tag, offered to a new context. -/
theorem rejected_packet_wrong_tag :
    let cipher := Cipher.aesCmHmacSha1
      (.ofOperations .aes128CmHmacSha1_80 rfl (.constant 0#8) (.constant 0#8))
    let ctx := new cipher (some (srtpReplayProtection 64)) (some (srtcpReplayProtection 64))
    let call := DecryptCall.rtp (0x80#8 :: List.replicate 20 0#8 ++ [1#8])
    DecryptReachable ctx ∧ ctx.Rejects call ∧
      ∀ later, (ctx.afterDecrypt call).decryptResults later = ctx.decryptResults later := by
  intro cipher ctx call
  have hreach : DecryptReachable ctx := ⟨cipher, _, _, [], rfl⟩
  have hreject : ctx.Rejects call := ⟨.rtpFailedToVerifyAuthTag, by rfl⟩
  exact ⟨hreach, hreject, (rejected_packet_leaves_no_trace ctx hreach call hreject).1⟩

end Context
end Rtc.Srtp
