import Rtc.Sctp.Proofs.SenderStep

/-!
# SACK processing and the in-flight window

The cumulative loop of `process_selective_ack` takes chunks off the front of the in-flight window up to the cumulative
TSN, or fails; everything else happens in place. An accepted SACK leaves the window after the new ack point.
-/

namespace Rtc.Sctp
open Shared Serial Loop PayloadQueue

namespace Association

/-! ## The parts that change chunks in place -/

namespace SteadyStep

variable (a)

theorem measureRtt (c : ChunkPayloadData) (now : Instant) : SteadyStep a (a.measureRtt c now) := by
  unfold Association.measureRtt
  split <;> exact of_frame rfl rfl rfl

theorem countPopped (s : CumAck) (c : ChunkPayloadData) (now : Instant) :
    SteadyStep s.assoc (countPopped s c now).assoc := by
  unfold Association.countPopped
  split
  · split
    · exact measureRtt s.assoc c now
    · exact refl s.assoc
  · exact refl s.assoc

theorem gapAckTsn {now : Instant} {s s' : GapAck} {tsn : Tsn} (h : gapAckTsn now s tsn = some s') :
    SteadyStep s.assoc s'.assoc := by
  unfold Association.gapAckTsn at h
  split at h
  · cases h
  dsimp only at h
  have hack : InPlace s.assoc.inflightQueue (s.assoc.inflightQueue.acknowledge tsn).2 := .acknowledge _ _
  split at h
  · split at h
    · cases h
      unfold noteGapAcked
      refine trans (inflight (hack.trans (.releasePayload _ tsn))) ?_
      split
      · exact measureRtt _ _ _
      · exact refl _
    · cases h
  · cases h
    exact inflight hack

theorem gapAck (now : Instant) (tsns : List Tsn) (s : GapAck) :
    SteadyStep s.assoc (gapAck now tsns s).2.assoc := by
  induction tsns generalizing s with
  | nil => exact refl s.assoc
  | cons tsn rest ih =>
    unfold Association.gapAck
    split
    case _ heq => exact (gapAckTsn heq).trans (ih _)
    · exact refl s.assoc

theorem restartT3 (earliest : Option Tsn) (d : ChunkSelectiveAck)
    (newlyAckedData : Bool) : SteadyStep a (a.restartT3 earliest d newlyAckedData) := by
  unfold Association.restartT3
  dsimp only
  split_ifs <;> exact of_frame rfl rfl rfl

theorem onCumulativeTsnAckPointAdvanced (totalBytesAcked : Nat) (now : Instant) :
    SteadyStep a (a.onCumulativeTsnAckPointAdvanced totalBytesAcked now) := by
  unfold Association.onCumulativeTsnAckPointAdvanced
  dsimp only
  split <;> split <;> exact of_frame rfl rfl rfl

theorem advanceForwardTsn : SteadyStep a a.advanceForwardTsn := by
  unfold Association.advanceForwardTsn
  split
  · split
    · exact trans (b := { a with
        advancedPeerTsnAckPoint := a.cumulativeTsnAckPoint, fwdTsnStreamMap := ∅ })
        (of_frame rfl rfl rfl) (advancePeerAckPoint _)
    · exact advancePeerAckPoint a
  · exact refl a

end SteadyStep

namespace QuietAck

theorem leaveFastRecovery (a : Association) (tsn : Tsn) : QuietAck a (a.leaveFastRecovery tsn) := by
  unfold Association.leaveFastRecovery
  split
  · exact of_frame rfl rfl
  · exact refl a

theorem notePopped (s : CumAck) (c : ChunkPayloadData) (now : Instant) :
    QuietAck s.assoc (notePopped s c now).assoc :=
  (SteadyStep.countPopped s c now).quiet.trans (leaveFastRecovery _ _)

theorem missRound (htna maxTsn : Tsn) (s : MissScan) :
    QuietAck s.assoc (missRound htna maxTsn s).value.assoc := by
  unfold Association.missRound
  split
  · split
    · dsimp only [ForInStep.value]
      split
      · have hmiss := (SteadyStep.inflight (a := s.assoc) (InPlace.modify
          (f := fun c => { c with missIndicator := c.missIndicator + 1 }) (fun _ => rfl)
          s.assoc.inflightQueue s.tsn)).quiet
        split
        · exact hmiss.trans (of_frame rfl rfl)
        · exact hmiss
      · exact refl s.assoc
    · exact refl s.assoc
  · exact refl s.assoc

theorem processFastRetransmission (a : Association) (cumTsnAckPoint htna : Tsn) (cumTsnAckPointAdvanced : Bool) :
    QuietAck a (a.processFastRetransmission cumTsnAckPoint htna cumTsnAckPointAdvanced).2 := by
  unfold Association.processFastRetransmission
  dsimp only
  generalize hs : (if (!a.inFastRecovery || cumTsnAckPointAdvanced) = true then _ else _ : MissScan) = s
  have hscan : QuietAck a s.assoc := by
    rw [← hs]
    split
    · exact loop_rel (R := fun s s' : MissScan => QuietAck s.assoc s'.assoc) (fun s => refl s.assoc)
        trans (missRound _ _) _ { assoc := a, tsn := cumTsnAckPoint + 1#32 }
    · exact refl a
  split
  · exact hscan
  · refine hscan.trans ?_
    split
    · exact of_frame rfl rfl
    · exact refl _

end QuietAck

/-! ## The cumulative loop -/

@[simp] theorem notePopped_i (s : CumAck) (c : ChunkPayloadData) (now : Instant) :
    (notePopped s c now).i = s.i := by
  unfold notePopped countPopped
  split <;> rfl

@[simp] theorem notePopped_error (s : CumAck) (c : ChunkPayloadData) (now : Instant) :
    (notePopped s c now).error = s.error := by
  unfold notePopped countPopped
  split <;> rfl

theorem kept_cumAck (a : Association) (d : ChunkSelectiveAck) (now : Instant) :
    Kept a (a.cumAck d now).assoc := by
  refine loop_rel (R := fun s s' : CumAck => Kept s.assoc s'.assoc)
    (fun s => .refl s.assoc) Kept.trans (fun s => ?_) _ { assoc := a, i := _ }
  have hpopped : ∀ q, Kept s.assoc { s.assoc with inflightQueue := q } :=
    fun q => ⟨⟨rfl, rfl, rfl, .of_streams rfl, id, rfl⟩, .of_streams rfl⟩
  unfold cumAckRound
  split
  · split
    case _ c q _ =>
      exact (hpopped q).trans (QuietAck.notePopped { s with assoc := { s.assoc with inflightQueue := q } } c now).kept
    · exact hpopped _
  · exact .refl s.assoc

/-- What the cumulative loop of a SACK leaves unchanged in `a`, and where it stands. -/
structure CumAckState (a : Association) (d : ChunkSelectiveAck) (s : CumAck) : Prop where
  error_eq : s.error = none
  cum_eq : s.assoc.cumulativeTsnAckPoint = a.cumulativeTsnAckPoint
  window : Window s.i s.assoc.inflightQueue s.assoc.myNextTsn
  position : s.i = d.cumulativeTsnAck + 1#32 ∨ ahead s.i d.cumulativeTsnAck < 2 ^ 31

/-- How many TSNs the loop has still to pop. -/
def cumAckLeft (d : ChunkSelectiveAck) (s : CumAck) : Nat :=
  if s.i = d.cumulativeTsnAck + 1#32 then 0 else ahead s.i d.cumulativeTsnAck + 1

theorem ahead_succ_self (x : Tsn) : ahead (x + 1#32) x = 2 ^ 32 - 1 := by
  have hone : ahead x (x + 1#32) = 1 := ahead_add x (by omega)
  rw [ahead_of_lt x (by rw [ahead_self, hone]; omega), hone, ahead_self]

variable {a a' : Association} {d : ChunkSelectiveAck} {now : Instant}

theorem cumAckRound_yield {s s' : CumAck} (hinv : CumAckState a d s) (h : cumAckRound d now s = .yield s') :
    ahead s.i d.cumulativeTsnAck < 2 ^ 31 ∧ s'.i = s.i + 1#32 ∧ s'.error = none ∧
      s'.assoc.cumulativeTsnAckPoint = a.cumulativeTsnAckPoint ∧
      Window s'.i s'.assoc.inflightQueue s'.assoc.myNextTsn := by
  unfold cumAckRound at h
  split at h
  case _ hlte =>
    rw [sna32lte_iff] at hlte
    split at h
    case _ c q hpop =>
      have hpos : 0 < s.assoc.inflightQueue.sorted.length := by
        by_contra hzero
        have hnil : s.assoc.inflightQueue.sorted = [] := List.eq_nil_of_length_eq_zero (by omega)
        simp [PayloadQueue.pop, hnil] at hpop
      obtain ⟨-, -, -, -, hwin⟩ := hinv.window.pop hpos
      rw [hpop] at hwin
      have hstep := QuietAck.notePopped { s with assoc := { s.assoc with inflightQueue := q } } c now
      have hi := notePopped_i { s with assoc := { s.assoc with inflightQueue := q } } c now
      have herr := notePopped_error { s with assoc := { s.assoc with inflightQueue := q } } c now
      generalize notePopped { s with assoc := { s.assoc with inflightQueue := q } } c now = s₁
        at h hstep hi herr
      cases h
      refine ⟨hlte, by rw [hi], herr.trans hinv.error_eq, hstep.cum_eq.trans hinv.cum_eq, ?_⟩
      have hkept := hstep.inPlace.window _ _ hwin
      rw [hi, hstep.next_eq]
      exact hkept
    · cases h
  · cases h

theorem cumAck_spec (now : Instant) (hw : Window (a.cumulativeTsnAckPoint + 1#32) a.inflightQueue a.myNextTsn)
    (hd : sna32gt a.cumulativeTsnAckPoint d.cumulativeTsnAck = false) :
    (a.cumAck d now).error ≠ none ∨
      (CumAckState a d (a.cumAck d now) ∧ (a.cumAck d now).i = d.cumulativeTsnAck + 1#32) := by
  unfold cumAck
  refine loop_post (I := CumAckState a d)
    (P := fun s => s.error ≠ none ∨ (CumAckState a d s ∧ s.i = d.cumulativeTsnAck + 1#32))
    (cumAckLeft d) ?_ ?_ ⟨rfl, rfl, hw, ?_⟩ ?_
  -- a round that goes on is one TSN closer
  · intro s s' hinv hround
    obtain ⟨hlt, hi, herr, hcum, hwin⟩ := cumAckRound_yield hinv hround
    have hne : s.i ≠ d.cumulativeTsnAck + 1#32 := by
      intro heq
      rw [heq, ahead_succ_self] at hlt
      omega
    have hleft : cumAckLeft d s = ahead s.i d.cumulativeTsnAck + 1 := if_neg hne
    by_cases hlast : s.i = d.cumulativeTsnAck
    · have hi' : s'.i = d.cumulativeTsnAck + 1#32 := by rw [hi, hlast]
      refine ⟨⟨herr, hcum, hwin, Or.inl hi'⟩, ?_⟩
      rw [hleft, cumAckLeft, if_pos hi']
      omega
    · have hpos : 0 < ahead s.i d.cumulativeTsnAck :=
        Nat.pos_of_ne_zero fun h => hlast (ahead_eq_zero.mp h)
      have hsucc : ahead s'.i d.cumulativeTsnAck = ahead s.i d.cumulativeTsnAck - 1 := by
        rw [hi, ahead_succ hlast]
      refine ⟨⟨herr, hcum, hwin, Or.inr (by omega)⟩, ?_⟩
      rw [hleft, cumAckLeft]
      split <;> omega
  -- the round that leaves has failed to pop or is past the cumulative TSN
  · intro s s' hinv hround
    unfold cumAckRound at hround
    split at hround
    · split at hround
      · cases hround
      · cases hround
        left
        exact Option.some_ne_none _
    case _ hnot =>
      cases hround
      right
      refine ⟨hinv, hinv.position.resolve_right fun hlt => hnot ?_⟩
      rw [sna32lte_iff]
      exact hlt
  · have hback : ¬ (0 < ahead d.cumulativeTsnAck a.cumulativeTsnAckPoint ∧
        ahead d.cumulativeTsnAck a.cumulativeTsnAckPoint ≤ 2 ^ 31) := by
      rw [← sna32gt_iff, hd]
      exact Bool.false_ne_true
    by_cases heq : a.cumulativeTsnAckPoint = d.cumulativeTsnAck
    · exact Or.inl (by rw [heq])
    · right
      have hpos : 0 < ahead d.cumulativeTsnAck a.cumulativeTsnAckPoint :=
        Nat.pos_of_ne_zero fun h => heq (ahead_eq_zero.mp h).symm
      have hfwd : ahead a.cumulativeTsnAckPoint d.cumulativeTsnAck
          = 2 ^ 32 - ahead d.cumulativeTsnAck a.cumulativeTsnAckPoint := by
        rw [ahead_of_lt d.cumulativeTsnAck (by rwa [ahead_self]), ahead_self, Nat.sub_zero]
      rw [ahead_succ heq]
      omega
  · unfold cumAckLeft
    split <;> simp

/-! ## handle_sack -/

theorem kept_processSelectiveAck (a : Association) (d : ChunkSelectiveAck) (now : Instant) :
    Kept a (a.processSelectiveAck d now).2 := by
  unfold processSelectiveAck
  have hcum := kept_cumAck a d now
  dsimp only
  generalize a.cumAck d now = s at hcum
  split
  · exact hcum
  have hgap := SteadyStep.gapAck now (gapTsns d)
    { assoc := s.assoc, tally := s.tally, htna := d.cumulativeTsnAck }
  split
  case _ heq =>
    rw [heq] at hgap
    exact hcum.trans hgap.quiet.kept
  case _ heq =>
    rw [heq] at hgap
    exact hcum.trans (hgap.trans (.restartT3 _ _ _ _)).quiet.kept

/-- After `process_selective_ack` has succeeded the window begins after the SACK's cumulative TSN. -/
theorem window_processSelectiveAck (hw : Window (a.cumulativeTsnAckPoint + 1#32) a.inflightQueue a.myNextTsn)
    (hd : sna32gt a.cumulativeTsnAckPoint d.cumulativeTsnAck = false) {v : Table StreamId Nat × Nat × Tsn}
    (h : a.processSelectiveAck d now = (.ok v, a')) :
    a'.cumulativeTsnAckPoint = a.cumulativeTsnAckPoint ∧
      Window (d.cumulativeTsnAck + 1#32) a'.inflightQueue a'.myNextTsn := by
  unfold processSelectiveAck at h
  have hspec := cumAck_spec now hw hd
  dsimp only at h
  generalize a.cumAck d now = s at h hspec
  split at h
  · cases h
  case _ hnone =>
    obtain ⟨hstate, hi⟩ := hspec.resolve_left fun hne => hne hnone
    have hgap := SteadyStep.gapAck now (gapTsns d)
      { assoc := s.assoc, tally := s.tally, htna := d.cumulativeTsnAck }
    split at h
    · cases h
    case _ g heq =>
      rw [heq] at hgap
      cases h
      have hstep := hgap.trans (SteadyStep.restartT3 g.assoc a.earliestOutstanding d g.tally.newlyAckedData)
      refine ⟨hstep.cum_eq.trans hstate.cum_eq, ?_⟩
      rw [hstep.next_eq]
      exact hstep.inPlace.window _ _ (hi ▸ hstate.window)

theorem advanceCumulativeTsn_spec (a : Association) (d : ChunkSelectiveAck) (total : Nat) (now : Instant) :
    Kept a (a.advanceCumulativeTsn d total now).2 ∧
      (a.advanceCumulativeTsn d total now).2.recovery = a.recovery ∧
      (a.advanceCumulativeTsn d total now).2.myNextTsn = a.myNextTsn ∧
      InPlace a.inflightQueue (a.advanceCumulativeTsn d total now).2.inflightQueue ∧
      (sna32gt a.cumulativeTsnAckPoint d.cumulativeTsnAck = false →
        (a.advanceCumulativeTsn d total now).2.cumulativeTsnAckPoint = d.cumulativeTsnAck) := by
  unfold advanceCumulativeTsn
  split
  · have hstep := SteadyStep.onCumulativeTsnAckPointAdvanced
      { a with cumulativeTsnAckPoint := d.cumulativeTsnAck } total now
    have hkept : Kept a { a with cumulativeTsnAckPoint := d.cumulativeTsnAck } :=
      ⟨⟨rfl, rfl, rfl, .of_streams rfl, id, rfl⟩, .of_streams rfl⟩
    exact ⟨hkept.trans hstep.quiet.kept, hstep.recovery_eq, hstep.next_eq, hstep.inPlace, fun _ => hstep.cum_eq⟩
  case _ hlt =>
    refine ⟨.refl a, rfl, rfl, .refl _, fun hgt => ?_⟩
    rw [sna32lt_iff] at hlt
    rw [← Bool.not_eq_true, sna32gt_iff] at hgt
    by_contra hne
    have hpos : 0 < ahead a.cumulativeTsnAckPoint d.cumulativeTsnAck :=
      Nat.pos_of_ne_zero fun h => hne (ahead_eq_zero.mp h)
    rw [ahead_of_lt a.cumulativeTsnAckPoint (by rwa [ahead_self]), ahead_self] at hgt
    have := ahead_lt a.cumulativeTsnAckPoint d.cumulativeTsnAck
    omega

theorem finishSack_spec (d : ChunkSelectiveAck) (now : Instant) (v : Table StreamId Nat × Nat × Tsn) :
    QuietAck (a.advanceCumulativeTsn d v.2.1 now).2
      ((((a.advanceCumulativeTsn d v.2.1 now).2.releaseStreamBuffers v.1).updateRwnd
        d).processFastRetransmission d.cumulativeTsnAck v.2.2
          (a.advanceCumulativeTsn d v.2.1 now).1).2 := by
  refine (QuietAck.releaseStreamBuffers _ v.1).1.trans (.trans ?_ (.processFastRetransmission _ _ _ _))
  exact .of_frame rfl rfl

theorem postprocessSack_spec (a : Association) (state : AssociationState) (now : Instant) :
    Untouched a (a.postprocessSack state now) ∧
      (a.postprocessSack state now).payloadQueue = a.payloadQueue ∧
      (a.postprocessSack state now).peerLastTsn = a.peerLastTsn ∧
      (a.postprocessSack state now).reconfigRequests = a.reconfigRequests ∧
      (a.postprocessSack state now).cumulativeTsnAckPoint = a.cumulativeTsnAckPoint ∧
      (a.postprocessSack state now).inflightQueue = a.inflightQueue ∧
      (a.postprocessSack state now).myNextTsn = a.myNextTsn := by
  unfold postprocessSack
  split_ifs <;> exact ⟨⟨rfl, rfl⟩, rfl, rfl, rfl, rfl, rfl, rfl⟩

theorem kept_handleSack (a : Association) (d : ChunkSelectiveAck) (now : Instant) :
    Kept a (a.handleSack d now).2 := by
  unfold handleSack
  split
  · exact .refl a
  case _ hstate =>
  split
  · exact .refl a
  have hprocess := kept_processSelectiveAck a d now
  split
  case _ heq =>
    rw [heq] at hprocess
    exact hprocess
  case _ bytes total htna a₁ heq =>
    rw [heq] at hprocess
    have hadv := (advanceCumulativeTsn_spec a₁ d total now).1
    have hfinish := finishSack_spec (a := a₁) d now (bytes, total, htna)
    dsimp only at hfinish ⊢
    split
    case _ heq' =>
      rw [heq'] at hfinish
      exact hprocess.trans (hadv.trans hfinish.kept)
    case _ a₂ heq' =>
      rw [heq'] at hfinish
      have hkept := hprocess.trans (hadv.trans
        (hfinish.trans (SteadyStep.advanceForwardTsn a₂).quiet).kept)
      obtain ⟨hsame, hpayload, hpeer, hrequests, -⟩ := postprocessSack_spec a₂.advanceForwardTsn a.state now
      refine ⟨⟨hpayload ▸ hkept.sorted_eq, hpayload ▸ hkept.chunkMap_eq, hpeer.trans hkept.peerLastTsn_eq,
        hkept.queues.trans (.of_streams hsame.streams_eq), fun hclosed => ?_, hrequests.trans hkept.requests_eq⟩,
        hkept.numbers.trans (.of_streams hsame.streams_eq)⟩
      -- a closed association takes no SACK
      simp [hclosed] at hstate

theorem window_handleSack (hw : Window (a.cumulativeTsnAckPoint + 1#32) a.inflightQueue a.myNextTsn)
    (h : a.handleSack d now = (.ok (), a')) :
    Window (a'.cumulativeTsnAckPoint + 1#32) a'.inflightQueue a'.myNextTsn := by
  unfold handleSack at h
  split at h
  · cases h
    exact hw
  split at h
  · cases h
    exact hw
  case _ hgt =>
  split at h
  · cases h
  case _ bytes total htna a₁ heq =>
    obtain ⟨hcum₁, hw₁⟩ := window_processSelectiveAck hw (Bool.eq_false_iff.mpr hgt) heq
    obtain ⟨-, -, hnext, hinPlace, hcum⟩ := advanceCumulativeTsn_spec a₁ d total now
    have hcum₂ := hcum (by rw [hcum₁]; exact Bool.eq_false_iff.mpr hgt)
    have hfinish := finishSack_spec (a := a₁) d now (bytes, total, htna)
    dsimp only at hfinish h
    split at h
    · cases h
    case _ a₂ heq' =>
      rw [heq'] at hfinish
      cases h
      have hstep := hfinish.trans (SteadyStep.advanceForwardTsn a₂).quiet
      obtain ⟨-, -, -, -, hcum₃, hinflight, hnext₃⟩ := postprocessSack_spec a₂.advanceForwardTsn a.state now
      rw [hcum₃, hinflight, hnext₃, hstep.cum_eq, hstep.next_eq, hcum₂, hnext]
      exact hstep.inPlace.window _ _ (hinPlace.window _ _ hw₁)

end Association
end Rtc.Sctp
