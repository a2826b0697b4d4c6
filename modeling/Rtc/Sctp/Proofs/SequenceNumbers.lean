import Rtc.Sctp.Proofs.ActionSteps

/-!
# Who changes the sequence number of a stream

Only `write_source` does. Every other action keeps the numbers of the streams that it leaves
(`NumbersKept`), apart from the stream it may create, which starts at zero (`NumbersStep`).
-/

namespace Rtc.Sctp
open Shared Loop Wire

namespace Association

variable {a a' b : Association}

namespace NumbersKept

theorem replace {id : StreamId} {s s' : StreamState} (hs : a.streams.lookup id = some s)
    (hnumber : s'.sequenceNumber = s.sequenceNumber) :
    NumbersKept a { a with streams := Table.adjust id (fun _ => s') a.streams } := by
  refine adjust (f := fun _ => s') rfl fun t ht => ?_
  rw [← Option.some.inj (hs.symm.trans ht)]
  exact hnumber

theorem respects : RespectsReceipt NumbersKept where
  refl := refl
  trans := trans
  unregistered a id := unregisterStream a id .reset
  requested _ _ := of_streams rfl
  performed _ _ := of_streams rfl
  advanced _ := of_streams rfl
  stopped _ _ _ := of_streams rfl
  replied _ _ _ _ _ _ _ _ := of_streams rfl
  noted _ _ _ := of_streams rfl
  replaced _ _ _ _ := replace
  updated _ _ hf := update rfl fun id s _ => hf id s

end NumbersKept

/-! ## Actions -/

/-- Every stream was there before with the same sequence number, or it is new and starts at zero. -/
def NumbersStep (a a' : Association) : Prop :=
  ∀ id s', a'.streams.lookup id = some s' →
    (∃ s, a.streams.lookup id = some s ∧ s'.sequenceNumber = s.sequenceNumber) ∨
      (a.streams.lookup id = none ∧ s'.sequenceNumber = 0#16)

theorem NumbersKept.step (h : NumbersKept a a') : NumbersStep a a' := fun id s' hs' => .inl (h id s' hs')

theorem NumbersStep.trans_kept (h : NumbersStep a b) (h' : NumbersKept b a') : NumbersStep a a' := by
  intro id s' hs'
  obtain ⟨s, hs, heq⟩ := h' id s' hs'
  rw [heq]
  exact h id s hs

theorem NumbersStep.createStream {id : StreamId} (hnone : a.streams.lookup id = none) (accept : Bool) :
    NumbersStep a (a.createStream id accept) := by
  intro id' s' hs'
  rw [streams_createStream] at hs'
  by_cases heq : id' = id
  · subst heq
    rw [AList.lookup_insert] at hs'
    cases hs'
    exact .inr ⟨hnone, rfl⟩
  · rw [AList.lookup_insert_ne heq] at hs'
    exact .inl ⟨s', hs', rfl⟩

theorem NumbersStep.openStream (a : Association) (id : StreamId) : NumbersStep a (a.openStream id).2 := by
  unfold Association.openStream
  split
  · exact (NumbersKept.refl a).step
  case _ hnone => exact createStream (Option.not_isSome_iff_eq_none.mp hnone) false

theorem NumbersStep.handleData (a : Association) (d : ChunkPayloadData) : NumbersStep a (a.handleData d).2 := by
  unfold Association.handleData
  dsimp only
  refine trans_kept ?_ (NumbersKept.respects.handlePeerLastTsnAndAcknowledgement _ _)
  split
  · have hcreate : NumbersStep a (a.getOrCreateStream d.streamIdentifier) := by
      unfold Association.getOrCreateStream
      split
      · exact (NumbersKept.refl a).step
      case _ hnone => exact createStream (Option.not_isSome_iff_eq_none.mp hnone) true
    refine hcreate.trans_kept ?_
    split
    · exact (NumbersKept.of_streams rfl).trans (NumbersKept.respects.deliver _ d)
    · exact .refl _
  · exact (NumbersKept.refl a).step

theorem NumbersStep.dispatch (a : Association) (now : Instant) (c : InChunk) :
    NumbersStep a (a.dispatch now c).2 := by
  cases c with
  | payloadData c => exact handleData a c
  | selectiveAck c =>
    have hsack := (kept_handleSack a c now).numbers
    unfold Association.dispatch
    dsimp only
    split
    case _ heq =>
      rw [heq] at hsack
      exact hsack.step
    case _ heq =>
      rw [heq] at hsack
      exact hsack.step
  | reconfig c => exact (NumbersKept.respects.handleReconfig a c).step
  | forwardTsn c => exact (NumbersKept.respects.handleForwardTsn a c).step
  | shutdown =>
    refine (NumbersKept.of_streams ?_).step
    change a.handleShutdown.streams = a.streams
    unfold handleShutdown
    split_ifs <;> rfl
  | shutdownAck =>
    refine (NumbersKept.of_streams ?_).step
    change a.handleShutdownAck.streams = a.streams
    unfold handleShutdownAck
    split_ifs <;> rfl
  | shutdownComplete =>
    refine NumbersKept.step ?_
    change NumbersKept a a.handleShutdownComplete
    unfold handleShutdownComplete
    split
    · exact (NumbersKept.of_streams rfl).trans (.close _ _)
    · exact .refl a

end Association

namespace HandshakeAssociation
open Association

variable {a : HandshakeAssociation}

variable (a)

theorem numbersStep_dispatch (now : Instant) (c : InChunk) :
    NumbersStep a.toAssociation (a.dispatch now c).2.toAssociation := by
  have hdispatch := NumbersStep.dispatch a.toAssociation now c
  unfold dispatch
  split
  case _ heq =>
    rw [heq] at hdispatch
    exact hdispatch
  case _ heq =>
    rw [heq] at hdispatch
    exact hdispatch.trans_kept (.of_streams rfl)

theorem numbersStep_handleChunk (p : Wire.Packet) (now : Instant) (random : List Byte) (c : Chunk) :
    NumbersStep a.toAssociation (a.handleChunk p now random c).2.toAssociation := by
  have hsame : ∀ b : HandshakeAssociation, b.streams = a.streams → NumbersStep a.toAssociation b.toAssociation :=
    fun b hb => (NumbersKept.of_streams hb).step
  cases c with
  | init c =>
    unfold handleChunk
    dsimp only
    split
    · exact hsame a rfl
    split
    · exact hsame _ (handleInitAck_frame a p c now).1.streams_eq
    · exact hsame _ (handleInit_frame a p c random).1.streams_eq
  | abort causes =>
    unfold handleChunk
    dsimp only
    split
    · exact (NumbersKept.close a.toAssociation .reset).step
    · exact hsame a rfl
  | error causes => exact hsame a rfl
  | heartbeat params =>
    exact hsame _ (congrArg Association.streams (toAssociation_handleHeartbeat a params))
  | cookieEcho cookie => exact hsame _ (handleCookieEcho_frame a cookie).1.streams_eq
  | cookieAck => exact hsame _ (handleCookieAck_frame a).1.streams_eq
  -- the chunks of an established association
  | _ => exact numbersStep_dispatch a now _

theorem numbersStep_act {action : Action} (hwrite : ∀ id now raw ppi, action ≠ .write id now raw ppi) :
    NumbersStep a.toAssociation (a.act action).toAssociation := by
  cases action with
  | openStream id => exact .openStream a.toAssociation id
  | setReliabilityParams id unordered relType relVal =>
    exact (QuietStep.setReliabilityParams a.toAssociation id unordered relType relVal).numbers.step
  | write id now raw ppi => exact absurd rfl (hwrite id now raw ppi)
  | read id => exact (NumbersKept.respects.readSctp a.toAssociation id).step
  | stop id now => exact (QuietStep.stop a.toAssociation id now).numbers.step
  | gatherOutbound now => exact (QuietStep.gatherOutbound a.toAssociation now).numbers.step
  | timeout now => exact (quietStep_handleTimeout a now).numbers.step
  | shutdown =>
    refine (NumbersKept.of_streams ?_).step
    change a.toAssociation.shutdown.2.streams = a.streams
    unfold Association.shutdown
    split
    · rfl
    · dsimp only
      split <;> rfl
  | close reason => exact (NumbersKept.close a.toAssociation reason).step
  | packetStart => exact (NumbersKept.of_streams rfl).step
  | chunk p now random c => exact numbersStep_handleChunk a p now random c
  | packetEnd now =>
    refine (NumbersKept.of_streams ?_).step
    change (a.toAssociation.handleChunkEnd now).streams = a.streams
    unfold Association.handleChunkEnd
    split_ifs <;> rfl

end HandshakeAssociation
end Rtc.Sctp
