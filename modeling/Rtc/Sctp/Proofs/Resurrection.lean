import Rtc.Sctp.Association.Handshake
import Rtc.Sctp.Proofs.ReceiverStep

/-!
# A closed association and the packets it still gets

A server starts closed, and `close` leaves that state. An INIT or a COOKIE ECHO is taken in both, and `close` keeps
the cookie, so a COOKIE ECHO with it establishes the association again. No other packet does.
-/

namespace Rtc.Sctp
open Shared Wire Runs

namespace HandshakeAssociation

/-- The packet carries the cookie of the association in a COOKIE ECHO. -/
def Echoes (a : HandshakeAssociation) (p : Wire.Packet) : Prop :=
  ∃ cookie, a.myCookie = some cookie ∧ Chunk.cookieEcho cookie ∈ p.chunks

/-- The association is closed, as `a` was: its handshake is not completed again and no `Connected` is
    added. -/
structure StaysClosed (a b : HandshakeAssociation) : Prop where
  closed : b.state = .closed
  completed_eq : b.handshakeCompleted = a.handshakeCompleted
  connections_eq : b.connections = a.connections

namespace StaysClosed

variable {a b c : HandshakeAssociation}

theorem refl (h : a.state = .closed) : StaysClosed a a := ⟨h, rfl, rfl⟩

theorem trans (h : StaysClosed a b) (h' : StaysClosed b c) : StaysClosed a c where
  closed := h'.closed
  completed_eq := h'.completed_eq.trans h.completed_eq
  connections_eq := h'.connections_eq.trans h.connections_eq

theorem of_receiverStep {b : Association} (h : a.state = .closed)
    (hstep : Association.ReceiverStep a.toAssociation b) :
    StaysClosed a { a with toAssociation := b } :=
  ⟨hstep.closed h, rfl, hstep.connections_eq⟩

theorem close (h : a.state = .closed) (reason : AssociationError) : StaysClosed a (a.close reason) := by
  have heq : a.close reason = a := by
    rw [HandshakeAssociation.close, Association.close, if_pos h]
  rw [heq]
  exact refl h

end StaysClosed

variable {a : HandshakeAssociation}

theorem toAssociation_dispatch_of_closed (h : a.state = .closed) (now : Instant) (c : InChunk) :
    StaysClosed a { a with toAssociation := (a.toAssociation.dispatch now c).2 } := by
  cases c with
  | payloadData c => exact .of_receiverStep h (.handleData a.toAssociation c)
  | selectiveAck c =>
    -- A SACK is not looked at in the closed state.
    have heq : a.toAssociation.handleSack c now = (.ok (), a.toAssociation) := by
      rw [Association.handleSack, h]
      rfl
    rw [Association.dispatch, heq]
    exact .refl h
  | reconfig c => exact .of_receiverStep h (Association.ReceiverStep.respects.handleReconfig a.toAssociation c)
  | forwardTsn c => exact .of_receiverStep h (Association.ReceiverStep.respects.handleForwardTsn a.toAssociation c)
  | shutdown =>
    have heq : a.toAssociation.handleShutdown = a.toAssociation := by
      rw [Association.handleShutdown, h]
      rfl
    rw [Association.dispatch, heq]
    exact .refl h
  | shutdownAck =>
    have heq : a.toAssociation.handleShutdownAck = a.toAssociation := by
      rw [Association.handleShutdownAck, h]
      rfl
    rw [Association.dispatch, heq]
    exact .refl h
  | shutdownComplete =>
    have heq : a.toAssociation.handleShutdownComplete = a.toAssociation := by
      rw [Association.handleShutdownComplete, h]
      rfl
    rw [Association.dispatch, heq]
    exact .refl h

theorem dispatch_of_closed (h : a.state = .closed) (now : Instant) (c : InChunk) :
    StaysClosed a (a.dispatch now c).2 := by
  have hstays := toAssociation_dispatch_of_closed h now c
  unfold dispatch
  split
  case _ heq =>
    rw [heq] at hstays
    exact hstays
  case _ heq =>
    rw [heq] at hstays
    exact ⟨hstays.closed, hstays.completed_eq, hstays.connections_eq⟩

theorem myCookie_dispatch (a : HandshakeAssociation) (now : Instant) (c : InChunk) :
    (a.dispatch now c).2.myCookie = a.myCookie := by
  unfold dispatch
  split <;> rfl

theorem handleInit_of_closed (h : a.state = .closed) (p : Wire.Packet) (i : ChunkInit)
    (random : List Byte) : StaysClosed a (a.handleInit p i random).2 := by
  rw [handleInit, if_neg (fun hne => hne.1 h)]
  exact ⟨h, rfl, rfl⟩

theorem handleCookieEcho_of_ne {cookie : List Byte}
    (h : ∀ mine, a.myCookie = some mine → mine ≠ cookie) : a.handleCookieEcho cookie = a := by
  unfold handleCookieEcho
  split
  · rfl
  case _ mine heq =>
    have hne := h mine heq
    split <;> first | exact if_neg hne | rfl

theorem handleChunk_of_closed (h : a.state = .closed) (p : Wire.Packet) (now : Instant)
    (random : List Byte) {c : Chunk} (hc : ∀ cookie, a.myCookie = some cookie → c ≠ .cookieEcho cookie) :
    StaysClosed a (a.handleChunk p now random c).2 := by
  cases c with
  | init c =>
    simp only [handleChunk]
    split
    · exact .refl h
    · split
      · rw [handleInitAck, if_pos (by rw [h]; exact nofun)]
        exact .refl h
      · exact handleInit_of_closed h p c random
  | abort causes =>
    simp only [handleChunk]
    split
    · exact .close h .reset
    · exact .refl h
  | error causes => exact .refl h
  | heartbeat params =>
    simp only [handleChunk, handleHeartbeat]
    split <;> exact ⟨h, rfl, rfl⟩
  | cookieEcho cookie =>
    have heq := handleCookieEcho_of_ne fun mine hmine hsame =>
      hc mine hmine (congrArg Chunk.cookieEcho hsame.symm)
    simp only [handleChunk, heq]
    exact .refl h
  | cookieAck =>
    have heq : a.handleCookieAck = a := if_pos (by rw [h]; exact nofun)
    simp only [handleChunk, heq]
    exact .refl h
  -- the chunks of an established association
  | _ => exact dispatch_of_closed h now _

theorem myCookie_handleChunk (a : HandshakeAssociation) (p : Wire.Packet) (now : Instant)
    (random : List Byte) {c : Chunk} (hc : ∀ i, c = .init i → i.isAck = true) :
    (a.handleChunk p now random c).2.myCookie = a.myCookie := by
  cases c with
  | init c =>
    simp only [handleChunk, hc c rfl, if_true]
    split
    · rfl
    · unfold handleInitAck
      split
      · rfl
      · dsimp only
        split
        · rfl
        · split <;> rfl
  | abort causes =>
    simp only [handleChunk]
    split <;> rfl
  | error causes => rfl
  | heartbeat params =>
    simp only [handleChunk, handleHeartbeat]
    split <;> rfl
  | cookieEcho cookie =>
    simp only [handleChunk, handleCookieEcho]
    split
    · rfl
    · split
      · split <;> rfl
      · split <;> rfl
      · split <;> rfl
      · split <;> rfl
      · rfl
  | cookieAck =>
    simp only [handleChunk, handleCookieAck]
    split <;> rfl
  -- the chunks of an established association
  | _ => exact myCookie_dispatch a now _

theorem handleChunks_of_closed (h : a.state = .closed) (p : Wire.Packet) (now : Instant)
    (random : List Byte) {chunks : List Chunk} (hinit : ∀ i, .init i ∈ chunks → i.isAck = true)
    (hecho : ∀ cookie, a.myCookie = some cookie → .cookieEcho cookie ∉ chunks) :
    StaysClosed a (handleChunks p now random chunks a).2 := by
  induction chunks generalizing a with
  | nil => exact .refl h
  | cons c chunks ih =>
    have hfirst := handleChunk_of_closed h p now random (c := c) fun cookie hmine hc =>
      hecho cookie hmine (hc ▸ List.mem_cons_self)
    have hcookie := myCookie_handleChunk a p now random (c := c) fun i hc =>
      hinit i (hc ▸ List.mem_cons_self)
    rw [handleChunks]
    split
    case _ b heq =>
      rw [heq] at hfirst
      exact hfirst
    case _ b heq =>
      rw [heq] at hfirst hcookie
      refine hfirst.trans (ih hfirst.closed (fun i hi => hinit i (List.mem_cons_of_mem c hi)) ?_)
      intro cookie hmine hmem
      rw [hcookie] at hmine
      exact hecho cookie hmine (List.mem_cons_of_mem c hmem)

theorem length_of_checkChunks {p : Wire.Packet} {chunks : List Chunk} {i : ChunkInit}
    (h : p.checkChunks chunks = .ok ()) (hi : .init i ∈ chunks) (hack : i.isAck = false) :
    p.chunks.length = 1 := by
  induction chunks with
  | nil => exact absurd hi List.not_mem_nil
  | cons c chunks ih =>
    rcases List.mem_cons.mp hi with rfl | hi
    · rw [Packet.checkChunks, hack, if_neg Bool.false_ne_true] at h
      split at h
      · cases h
      case isFalse hone => exact not_not.mp hone
    · refine ih ?_ hi
      cases c with
      | init c =>
        rw [Packet.checkChunks] at h
        split at h
        · exact h
        · split at h
          · cases h
          · split at h
            · cases h
            · exact h
      | _ => exact h

theorem handleChunks_singleton (a : HandshakeAssociation) (p : Wire.Packet) (now : Instant)
    (random : List Byte) (c : Chunk) :
    (handleChunks p now random [c] a).2 = (a.handleChunk p now random c).2 := by
  simp only [handleChunks]
  split
  case _ heq => rw [heq]
  case _ heq => rw [heq]

theorem handleChunkEnd_of_closed (h : a.state = .closed) (now : Instant) :
    StaysClosed a { a with toAssociation := a.toAssociation.handleChunkEnd now } := by
  unfold Association.handleChunkEnd
  split
  · exact ⟨h, rfl, rfl⟩
  · split <;> exact ⟨h, rfl, rfl⟩

/-- An inbound packet that does not carry the cookie leaves a closed association closed. -/
theorem handleInbound_of_closed (h : a.state = .closed) {p : Wire.Packet} (now : Instant)
    (random : List Byte) (hecho : ¬ a.Echoes p) : StaysClosed a (a.handleInbound p now random) := by
  have hnone : ∀ cookie, a.myCookie = some cookie → .cookieEcho cookie ∉ p.chunks :=
    fun cookie hmine hmem => hecho ⟨cookie, hmine, hmem⟩
  rw [handleInbound]
  split
  · exact .refl h
  case _ hpacket =>
    have hcheck : p.checkChunks p.chunks = .ok () := by
      rw [Packet.checkPacket] at hpacket
      split at hpacket
      · cases hpacket
      · split at hpacket
        · cases hpacket
        · exact hpacket
    generalize hb : ({ a with delayedAckTriggered := false, immediateAckTriggered := false } :
      HandshakeAssociation) = b
    have hstart : StaysClosed a b := by
      rw [← hb]
      exact ⟨h, rfl, rfl⟩
    have hmine : b.myCookie = a.myCookie := by rw [← hb]
    have hloop : StaysClosed b (handleChunks p now random p.chunks b).2 := by
      by_cases hinit : ∀ i, .init i ∈ p.chunks → i.isAck = true
      · exact handleChunks_of_closed hstart.closed p now random hinit fun cookie hcookie =>
          hnone cookie (hmine ▸ hcookie)
      · -- An INIT is the only chunk of its packet: the cookie it draws is not echoed there.
        obtain ⟨i, hmem, hack⟩ : ∃ i, .init i ∈ p.chunks ∧ i.isAck = false := by
          by_contra hno
          refine hinit fun i hmem => ?_
          by_contra hack
          exact hno ⟨i, hmem, Bool.eq_false_of_not_eq_true hack⟩
        obtain ⟨c, hone⟩ := List.length_eq_one_iff.mp (length_of_checkChunks hcheck hmem hack)
        rw [hone] at hmem ⊢
        rw [← List.mem_singleton.mp hmem, handleChunks_singleton]
        exact handleChunk_of_closed hstart.closed p now random nofun
    split
    case _ c heq =>
      rw [heq] at hloop
      exact (hstart.trans hloop).trans (handleChunkEnd_of_closed hloop.closed now)
    case _ c heq =>
      rw [heq] at hloop
      exact (hstart.trans hloop).trans (.close hloop.closed .transportError)

/-! ## Runs -/

/-- An inbound packet, the time it comes in and the cookie that would be drawn for it. -/
structure Delivery where
  packet : Wire.Packet
  now : Instant
  random : List Byte

/-- The association after an inbound packet. -/
def receive (a : HandshakeAssociation) (d : Delivery) : HandshakeAssociation :=
  a.handleInbound d.packet d.now d.random

/-- A closed association stays closed, its handshake is not completed again and no second `Connected` is
    emitted, in every run of inbound packets none of which echoes the cookie the association then has. -/
theorem closed_stays_closed (a : HandshakeAssociation) (hclosed : a.state = .closed)
    (deliveries : List Delivery) (h : Meets receive (fun b d => ¬ b.Echoes d.packet) a deliveries) :
    (run receive a deliveries).state = .closed ∧
      (run receive a deliveries).handshakeCompleted = a.handshakeCompleted ∧
      (run receive a deliveries).connections = a.connections := by
  have hstays : StaysClosed a (run receive a deliveries) := by
    refine inv_run receive (I := StaysClosed a) (fun b d hb hd => ?_) (.refl hclosed) h
    exact hb.trans (handleInbound_of_closed hb.closed d.now d.random hd)
  exact ⟨hstays.closed, hstays.completed_eq, hstays.connections_eq⟩

def peerInitChunk : ChunkInit where
  initiateTag := 9
  advertisedReceiverWindowCredit := 65536
  numOutboundStreams := 16
  numInboundStreams := 16
  initialTsn := 100

@[inherit_doc peerInitChunk]
def peerInit : Delivery := ⟨⟨⟨5000, 5000, 0⟩, [.init peerInitChunk]⟩, 0, [1, 2, 3, 4]⟩

/-- The COOKIE ECHO of the same handshake. -/
def peerCookieEcho : Delivery := ⟨⟨⟨5000, 5000, 7⟩, [.cookieEcho [1, 2, 3, 4]]⟩, 0, []⟩

def server : HandshakeAssociation := new ⟨2 ^ 20, 2 ^ 16, 1200, fun _ => 5⟩ 16 16 false 1 7 0

/-- The server after its handshake, closed. -/
def closedServer : HandshakeAssociation :=
  (run receive server [peerInit, peerCookieEcho]).close .associationClosed

theorem closed_stays_closed_init : closedServer.state = .closed ∧
    Meets receive (fun b d => ¬ b.Echoes d.packet) closedServer [peerInit] ∧
    (run receive closedServer [peerInit]).state = .closed ∧
    (run receive closedServer [peerInit]).handshakeCompleted = true ∧
    (run receive closedServer [peerInit]).connections = [.connected] := by
  have hclosed : closedServer.state = .closed := by decide
  have hmeets : Meets receive (fun b d => ¬ b.Echoes d.packet) closedServer [peerInit] := by
    refine ⟨?_, trivial⟩
    rintro ⟨cookie, -, hmem⟩
    have heq : Chunk.cookieEcho cookie = .init peerInitChunk := List.mem_singleton.mp hmem
    cases heq
  have hstays := closed_stays_closed closedServer hclosed [peerInit] hmeets
  exact ⟨hclosed, hmeets, hstays⟩

/-- The COOKIE ECHO of the handshake, delivered again after `close`, establishes the association a second
    time. -/
theorem cookieEcho_reopens :
    closedServer.state = .closed ∧ closedServer.connections = [.connected] ∧
    (receive closedServer peerCookieEcho).state = .established ∧
    (receive closedServer peerCookieEcho).connections = [.connected, .connected] := by
  refine ⟨?_, ?_, ?_, ?_⟩ <;> decide

end HandshakeAssociation
end Rtc.Sctp
