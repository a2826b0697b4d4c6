import Rtc.Sctp.Association.Actions
import Rtc.Sctp.Proofs.SackWindow

/-!
# What the actions do to an association

Apart from SACKs and the chunks of the handshake every action is a step of one of the two sides. The handshake
leaves all queues alone, but may adopt the TSN of the peer.
-/

namespace Rtc.Sctp
open Shared Wire

namespace Association

/-- A step of one of the two sides. SACKs are not among them: they take TSNs back. -/
def SideStep (a a' : Association) : Prop := ReceiverStep a a' ∨ SenderStep a a'

variable {a b : Association}

theorem sideStep_dispatch (a : Association) (now : Instant) {c : InChunk} (hc : ∀ d, c ≠ .selectiveAck d) :
    SideStep a (a.dispatch now c).2 := by
  cases c with
  | payloadData c => exact .inl (.handleData a c)
  | selectiveAck c => exact absurd rfl (hc c)
  | reconfig c => exact .inl (ReceiverStep.respects.handleReconfig a c)
  | forwardTsn c => exact .inl (ReceiverStep.respects.handleForwardTsn a c)
  | shutdown =>
    right
    change SenderStep a a.handleShutdown
    unfold handleShutdown
    split
    case _ hstate =>
      have hopen : a.state ≠ .closed := by rw [hstate]; exact nofun
      split <;> exact .of_open hopen rfl rfl rfl rfl rfl rfl rfl rfl
    split
    case _ hstate =>
      have hopen : a.state ≠ .closed := by rw [hstate]; exact nofun
      exact .of_open hopen rfl rfl rfl rfl rfl rfl rfl rfl
    · exact .refl a
  | shutdownAck =>
    right
    change SenderStep a a.handleShutdownAck
    unfold handleShutdownAck
    split
    · exact .of_frame rfl rfl (.of_streams rfl)
    · exact .refl a
  | shutdownComplete =>
    right
    change SenderStep a a.handleShutdownComplete
    unfold handleShutdownComplete
    split
    · refine SenderStep.trans ?_ (.close _ _)
      exact .of_frame rfl rfl (.of_streams rfl)
    · exact .refl a

/-- What the chunks of the handshake leave alone. -/
structure HandshakeFrame (a a' : Association) : Prop where
  streams_eq : a'.streams = a.streams
  inflight_eq : a'.inflightQueue = a.inflightQueue
  next_eq : a'.myNextTsn = a.myNextTsn
  cum_eq : a'.cumulativeTsnAckPoint = a.cumulativeTsnAckPoint
  recovery_eq : a'.recovery = a.recovery
  payloadQueue_eq : a'.payloadQueue = a.payloadQueue
  requests_eq : a'.reconfigRequests = a.reconfigRequests

theorem HandshakeFrame.refl (a : Association) : HandshakeFrame a a := ⟨rfl, rfl, rfl, rfl, rfl, rfl, rfl⟩

end Association

namespace HandshakeAssociation
open Association

variable {a : HandshakeAssociation}

/-- The states in which an INIT or an INIT ACK may be taken. -/
def inHandshake (a : HandshakeAssociation) : Bool :=
  a.state = .closed || a.state = .cookieWait || a.state = .cookieEchoed

/-! ## Timers -/

variable (a)

theorem quietStep_onRetransmissionTimeout (now : Instant) (timer : Timer) :
    QuietStep a.toAssociation (a.onRetransmissionTimeout now timer).toAssociation := by
  cases timer with
  | t1Init =>
    change QuietStep a.toAssociation a.sendInit.2.toAssociation
    unfold sendInit
    split <;> exact .refl _
  | t1Cookie =>
    change QuietStep a.toAssociation a.sendCookieEcho.2.toAssociation
    unfold sendCookieEcho
    split <;> exact .refl _
  | t2Shutdown => exact .onRetransmissionTimeout a.toAssociation now .t2Shutdown
  | t3Rtx => exact .onRetransmissionTimeout a.toAssociation now .t3Rtx
  | reconfig => exact .onRetransmissionTimeout a.toAssociation now .reconfig
  | ack => exact .onRetransmissionTimeout a.toAssociation now .ack

theorem quietStep_expireTimer (now : Instant) (timer : Timer) :
    QuietStep a.toAssociation (a.expireTimer now timer).2.toAssociation := by
  unfold expireTimer
  generalize a.timers.isExpired timer now = expiry
  obtain ⟨⟨expired, failure, n⟩, timers⟩ := expiry
  dsimp only
  split
  · exact .of_frame rfl rfl rfl
  split
  · exact .of_frame rfl rfl rfl
  split
  · exact .of_frame rfl rfl rfl
  have hexpired := quietStep_onRetransmissionTimeout { a with timers := timers.set timer none } now timer
  have hstart : QuietStep a.toAssociation { a.toAssociation with timers := timers.set timer none } :=
    .of_frame rfl rfl rfl
  split
  · exact hstart.trans hexpired
  · exact (hstart.trans hexpired).trans (.of_frame rfl rfl rfl)

theorem quietStep_expireTimers (now : Instant) (timers : List Timer) (a : HandshakeAssociation) :
    QuietStep a.toAssociation (expireTimers now timers a).toAssociation := by
  induction timers generalizing a with
  | nil => exact .refl _
  | cons timer rest ih =>
    unfold expireTimers
    have hexpire := quietStep_expireTimer a now timer
    split
    case _ heq =>
      rw [heq] at hexpire
      exact hexpire.trans (ih _)
    case _ heq =>
      rw [heq] at hexpire
      exact hexpire

theorem quietStep_handleTimeout (now : Instant) :
    QuietStep a.toAssociation (a.handleTimeout now).toAssociation :=
  quietStep_expireTimers now Timer.values a

/-! ## The chunks of the handshake -/

theorem handleInit_frame (p : Wire.Packet) (i : ChunkInit) (random : List Byte) :
    HandshakeFrame a.toAssociation (a.handleInit p i random).2.toAssociation ∧
      (a.handleInit p i random).2.state = a.state ∧
      ((a.handleInit p i random).2.peerLastTsn = a.peerLastTsn ∨ a.inHandshake = true) := by
  unfold handleInit
  split
  · exact ⟨.refl _, rfl, .inl rfl⟩
  case _ hstate =>
    refine ⟨⟨rfl, rfl, rfl, rfl, rfl, rfl, rfl⟩, rfl, .inr ?_⟩
    unfold inHandshake
    simp only [Bool.or_eq_true, decide_eq_true_eq]
    tauto

theorem handleInitAck_frame (p : Wire.Packet) (i : ChunkInit) (now : Instant) :
    HandshakeFrame a.toAssociation (a.handleInitAck p i now).2.toAssociation ∧
      (a.state = .closed → (a.handleInitAck p i now).2.state = .closed) ∧
      ((a.handleInitAck p i now).2.peerLastTsn = a.peerLastTsn ∨ a.inHandshake = true) := by
  unfold handleInitAck
  split
  · exact ⟨.refl _, id, .inl rfl⟩
  case _ hstate =>
    have hwaits : a.inHandshake = true := by
      unfold inHandshake
      rw [Decidable.not_not.mp hstate]
      rfl
    refine ⟨?_, fun hclosed => ?_, .inr hwaits⟩
    on_goal 2 =>
      rw [Decidable.not_not.mp hstate] at hclosed
      cases hclosed
    dsimp only
    split
    · exact ⟨rfl, rfl, rfl, rfl, rfl, rfl, rfl⟩
    split
    · exact ⟨rfl, rfl, rfl, rfl, rfl, rfl, rfl⟩
    · unfold sendCookieEcho
      exact ⟨rfl, rfl, rfl, rfl, rfl, rfl, rfl⟩

theorem handleCookieEcho_frame (cookie : List Byte) :
    HandshakeFrame a.toAssociation (a.handleCookieEcho cookie).toAssociation ∧
      (a.handleCookieEcho cookie).peerLastTsn = a.peerLastTsn := by
  unfold handleCookieEcho
  split
  · exact ⟨.refl _, rfl⟩
  split
  all_goals first
    | exact ⟨.refl _, rfl⟩
    | (split <;> exact ⟨⟨rfl, rfl, rfl, rfl, rfl, rfl, rfl⟩, rfl⟩)

theorem handleCookieAck_frame :
    HandshakeFrame a.toAssociation a.handleCookieAck.toAssociation ∧
      (a.state = .closed → a.handleCookieAck.state = .closed) ∧
      a.handleCookieAck.peerLastTsn = a.peerLastTsn := by
  unfold handleCookieAck
  split
  · exact ⟨.refl _, id, rfl⟩
  case _ hstate =>
    refine ⟨⟨rfl, rfl, rfl, rfl, rfl, rfl, rfl⟩, fun hclosed => ?_, rfl⟩
    rw [Decidable.not_not.mp hstate] at hclosed
    cases hclosed

theorem toAssociation_handleHeartbeat (params : List Param) :
    (a.handleHeartbeat params).toAssociation = a.toAssociation := by
  unfold handleHeartbeat
  split <;> rfl

/-! ## Actions -/

def isInit : Action → Bool
  | .chunk _ _ _ (.init _) => true
  | _ => false

def isChunk : Action → Bool
  | .chunk .. => true
  | _ => false

theorem sideStep_act {action : Action} (h : isChunk action = false) :
    SideStep a.toAssociation (a.act action).toAssociation := by
  cases action with
  | openStream id =>
    right
    change SenderStep a.toAssociation (a.toAssociation.openStream id).2
    unfold Association.openStream
    split
    · exact .refl _
    · exact .createStream _ id false
  | setReliabilityParams id unordered relType relVal =>
    exact .inr (QuietStep.setReliabilityParams a.toAssociation id unordered relType relVal).toSenderStep
  | write id now raw ppi => exact .inr (.writeSource a.toAssociation id now raw ppi)
  | read id => exact .inl (ReceiverStep.respects.readSctp a.toAssociation id)
  | stop id now => exact .inr (QuietStep.stop a.toAssociation id now).toSenderStep
  | gatherOutbound now => exact .inr (QuietStep.gatherOutbound a.toAssociation now).toSenderStep
  | timeout now => exact .inr (quietStep_handleTimeout a now).toSenderStep
  | shutdown =>
    right
    change SenderStep a.toAssociation a.toAssociation.shutdown.2
    unfold Association.shutdown
    split
    · exact .refl _
    case _ hstate =>
      have hopen : a.state ≠ .closed := by
        intro hclosed
        simp [hclosed] at hstate
      dsimp only
      split <;> exact .of_open hopen rfl rfl rfl rfl rfl rfl rfl rfl
  | close reason => exact .inr (.close a.toAssociation reason)
  | packetStart => exact .inr (.of_frame rfl rfl (.of_streams rfl))
  | packetEnd now =>
    right
    change SenderStep a.toAssociation (a.toAssociation.handleChunkEnd now)
    unfold Association.handleChunkEnd
    split_ifs <;> exact .of_frame rfl rfl (.of_streams rfl)
  | chunk p now random c => cases h

end HandshakeAssociation
end Rtc.Sctp
