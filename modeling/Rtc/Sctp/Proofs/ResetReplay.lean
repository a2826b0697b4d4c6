import Rtc.Sctp.Association.Receive

/-!
# Reset requests that arrive again

A peer sends its Outgoing SSN Reset Request once more when the response is lost. The handler keeps no record of the
requests it has performed and resets what is now open under the same ids.
-/

namespace Rtc.Sctp
open Shared

namespace Association

/-- The request `p` is processed without effect: no stream changes, and it is not kept to be performed later. -/
def ResetIgnored (a : Association) (p : ParamOutgoingResetRequest) : Prop :=
  let a' := (a.handleReconfigParam (some (.outgoingResetRequest p))).2
  a'.streams = a.streams ∧ p.reconfigRequestSequenceNumber ∉ a'.reconfigRequests

/-- The request `p` has been performed: it is processed and not kept. -/
def ResetPerformed (a : Association) (p : ParamOutgoingResetRequest) : Prop :=
  p.reconfigRequestSequenceNumber ∉ (a.handleReconfigParam (some (.outgoingResetRequest p))).2.reconfigRequests

theorem resetStreamsIfAny_frame (a : Association) (p : ParamOutgoingResetRequest) (respond : Bool) :
    (a.resetStreamsIfAny p respond).2.streams = (a.performReset p respond).2.streams ∧
      (a.resetStreamsIfAny p respond).2.reconfigRequests = (a.performReset p respond).2.reconfigRequests := by
  unfold resetStreamsIfAny
  dsimp only
  split <;> exact ⟨rfl, rfl⟩

theorem reconfigRequests_unregisterStream (a : Association) (id : StreamId) (reason : AssociationError) :
    (a.unregisterStream id reason).reconfigRequests = a.reconfigRequests := by
  unfold unregisterStream
  split <;> rfl

variable (respond : Bool)

theorem reconfigRequests_resetStreams (draining ids : List StreamId) (a : Association) :
    (resetStreams respond draining ids a).2.reconfigRequests = a.reconfigRequests := by
  induction ids generalizing a with
  | nil => rfl
  | cons id ids ih =>
    unfold resetStreams
    split
    · exact ih a
    split
    · exact (ih _).trans (reconfigRequests_unregisterStream a id .reset)
    · exact ih a

theorem lookup_unregisterStream (a : Association) (id : StreamId) (reason : AssociationError) (id' : StreamId) :
    (a.unregisterStream id reason).streams.lookup id' = if id' = id then none else a.streams.lookup id' := by
  unfold unregisterStream
  split
  · change (a.streams.erase id).lookup id' = _
    split
    case isTrue heq => rw [heq, AList.lookup_erase]
    case isFalse hne => exact AList.lookup_erase_ne hne
  case isFalse hclosed =>
    split
    case isTrue heq =>
      rw [heq]
      exact Option.not_isSome_iff_eq_none.mp hclosed
    · rfl

theorem lookup_resetStreams_of_none {id : StreamId} (draining ids : List StreamId)
    {a : Association} (h : a.streams.lookup id = none) :
    (resetStreams respond draining ids a).2.streams.lookup id = none := by
  induction ids generalizing a with
  | nil => exact h
  | cons id' ids ih =>
    unfold resetStreams
    split
    · exact ih h
    split
    · refine ih ?_
      rw [lookup_unregisterStream, h, ite_self]
    · exact ih h

theorem lookup_resetStreams {id : StreamId} {draining ids : List StreamId}
    (hid : id ∈ ids) (hdraining : id ∉ draining) (a : Association) :
    (resetStreams respond draining ids a).2.streams.lookup id = none := by
  induction ids generalizing a with
  | nil => cases hid
  | cons id' ids ih =>
    unfold resetStreams
    rcases List.mem_cons.mp hid with rfl | hid
    · rw [if_neg (by simpa using hdraining)]
      split
      · refine lookup_resetStreams_of_none respond draining ids ?_
        rw [lookup_unregisterStream, if_pos rfl]
      case isFalse hclosed =>
        exact lookup_resetStreams_of_none respond draining ids (Option.not_isSome_iff_eq_none.mp hclosed)
    · split
      · exact ih hid a
      split
      · exact ih hid _
      · exact ih hid a

theorem resetStreams_of_none (draining : List StreamId) {ids : List StreamId}
    {a : Association} (h : ∀ id ∈ ids, a.streams.lookup id = none) :
    resetStreams respond draining ids a = ([], a) := by
  induction ids with
  | nil => rfl
  | cons id ids ih =>
    obtain ⟨hid, hids⟩ := List.forall_mem_cons.mp h
    unfold resetStreams
    rw [ih hids, hid]
    simp

/-- A reset request that is processed has no effect, now or later, exactly if the cumulative TSN has reached its
    last TSN and none of the streams it names is open. -/
theorem resetIgnored_iff (a : Association) (p : ParamOutgoingResetRequest) :
    ResetIgnored a p ↔
      sna32lte p.senderLastTsn a.peerLastTsn = true ∧ ∀ id ∈ p.streamIdentifiers, a.streams.lookup id = none := by
  obtain ⟨hstreams, hrequests⟩ := resetStreamsIfAny_frame { a with
    reconfigRequests := a.reconfigRequests.insert p.reconfigRequestSequenceNumber p } p true
  unfold ResetIgnored handleReconfigParam
  dsimp only
  rw [hstreams, hrequests]
  unfold performReset
  cases hreached : sna32lte p.senderLastTsn a.peerLastTsn with
  | false => simp
  | true =>
    dsimp only
    rw [if_pos rfl]
    have hrequests' := reconfigRequests_resetStreams true
      (({ a with reconfigRequests := a.reconfigRequests.insert p.reconfigRequestSequenceNumber p } :
        Association).streamsAwaitingDrain p) p.streamIdentifiers
      { a with reconfigRequests := a.reconfigRequests.insert p.reconfigRequestSequenceNumber p }
    constructor
    · rintro ⟨hsame, hgone⟩
      refine ⟨rfl, fun id hid => ?_⟩
      split at hgone
      case isTrue hempty =>
        rw [if_pos hempty] at hsame
        rw [← hsame, List.isEmpty_iff.mp hempty]
        exact lookup_resetStreams true hid List.not_mem_nil _
      case isFalse hempty =>
        rw [hrequests'] at hgone
        exact absurd ((AList.mem_insert _).mpr (.inl rfl)) hgone
    · rintro ⟨-, hnone⟩
      have hdraining : ({ a with reconfigRequests := a.reconfigRequests.insert p.reconfigRequestSequenceNumber p } :
          Association).streamsAwaitingDrain p = [] := by
        refine List.filter_eq_nil_iff.mpr fun id hid => ?_
        change ¬ (a.streams.lookup id).any _ = true
        rw [hnone id hid]
        exact Bool.false_ne_true
      rw [hdraining, resetStreams_of_none true [] (a := { a with
        reconfigRequests := a.reconfigRequests.insert p.reconfigRequestSequenceNumber p }) hnone]
      exact ⟨rfl, fun hmem => (AList.mem_erase.mp hmem).1 rfl⟩

/-- The peer asks for a reset of stream 1, which is performed; the application opens stream 1 again; the request
    arrives once more and removes it. -/
theorem reset_replayed_removes_stream :
    let p : ParamOutgoingResetRequest := { reconfigRequestSequenceNumber := 7, streamIdentifiers := [1] }
    let a := ((new ⟨2 ^ 20, 2 ^ 16, 1200, fun _ => 5⟩ 1).establish 1 (2 ^ 20) true |>.openStream 1).2
    let performed := (a.handleReconfigParam (some (.outgoingResetRequest p))).2
    let reopened := (performed.openStream 1).2
    let replayed := (reopened.handleReconfigParam (some (.outgoingResetRequest p))).2
    ResetPerformed a p ∧ (reopened.streams.lookup 1).isSome = true ∧ replayed.streams.lookup 1 = none := by
  unfold ResetPerformed
  decide

end Association
end Rtc.Sctp
