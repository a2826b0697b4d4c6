import Rtc.Sctp.Proofs.ReceiverStep
import Rtc.Sctp.Proofs.Window

/-!
# What the sending side does to the association

`SenderStep a a'`: the receiving side and the cumulative ack point of `a'` are those of `a`, and the in-flight queue
has evolved. It is a preorder, with one lemma for each function of the sending side other than SACK processing. Where
no TSN is given out `AckStep` holds; all functions but `create_stream` and `write_source` keep the sequence numbers of
the streams (`QuietStep`).
-/

namespace Rtc.Sctp
open Shared Loop PayloadQueue

namespace Association

/-! ## The reassembly queues -/

/-- The reassembly queue of a stream, which is empty as long as there is no such stream. -/
def queueOf (a : Association) (id : StreamId) : ReassemblyQueue :=
  ((a.streams.lookup id).map StreamState.reassemblyQueue).getD (.new id)

/-- Every stream keeps its reassembly queue or is gone. -/
def QueuesKept (a a' : Association) : Prop :=
  ∀ id, a'.queueOf id = a.queueOf id ∨ a'.queueOf id = .new id

theorem QueuesKept.refl (a : Association) : QueuesKept a a := fun _ => .inl rfl

variable {a : Association} {id : StreamId}

theorem QueuesKept.trans {b c : Association} (h : QueuesKept a b) (h' : QueuesKept b c) : QueuesKept a c := by
  intro id
  rcases h' id with heq | heq
  · rw [heq]
    exact h id
  · exact .inr heq

theorem queueOf_of_streams {a' : Association} (h : a'.streams = a.streams) (id : StreamId) :
    a'.queueOf id = a.queueOf id := by
  unfold queueOf
  rw [h]

theorem QueuesKept.of_streams {a' : Association} (h : a'.streams = a.streams) : QueuesKept a a' :=
  fun id => .inl (queueOf_of_streams h id)

theorem queueOf_adjust {a' : Association} {s : StreamState} (q : ReassemblyQueue)
    (hs : a.streams.lookup id = some s)
    (h : a'.streams = Table.adjust id (fun _ => { s with reassemblyQueue := q }) a.streams)
    (id' : StreamId) : a'.queueOf id' = if id' = id then q else a.queueOf id' := by
  unfold queueOf
  rw [h, Table.lookup_adjust]
  split
  case isTrue heq =>
    rw [heq, hs]
    rfl
  · rfl

theorem streams_createStream (a : Association) (id : StreamId) (accept : Bool) :
    (a.createStream id accept).streams = a.streams.insert id
      { StreamState.new id a.maxPayloadSize with generation := a.nextStreamGeneration } := by
  cases accept <;> rfl

theorem queueOf_createStream (h : a.streams.lookup id = none)
    (accept : Bool) (id' : StreamId) : (a.createStream id accept).queueOf id' = a.queueOf id' := by
  unfold queueOf
  rw [streams_createStream]
  by_cases heq : id' = id
  · rw [heq, AList.lookup_insert, h]
    rfl
  · rw [AList.lookup_insert_ne heq]

theorem QueuesKept.createStream (accept : Bool) : QueuesKept a (a.createStream id accept) := by
  intro id'
  unfold queueOf
  rw [streams_createStream]
  by_cases heq : id' = id
  · right
    rw [heq, AList.lookup_insert]
    rfl
  · left
    rw [AList.lookup_insert_ne heq]

theorem QueuesKept.unregisterStream (a : Association) (id : StreamId) (reason : AssociationError) :
    QueuesKept a (a.unregisterStream id reason) := by
  intro id'
  unfold Association.unregisterStream
  split
  · change (({ a with streams := a.streams.erase id } : Association).queueOf id' = _) ∨
      ({ a with streams := a.streams.erase id } : Association).queueOf id' = _
    unfold queueOf
    by_cases heq : id' = id
    · right
      rw [heq, AList.lookup_erase]
      rfl
    · left
      rw [AList.lookup_erase_ne heq]
  · exact .inl rfl

theorem QueuesKept.adjust {a' : Association} {f : StreamState → StreamState}
    (h : a'.streams = Table.adjust id f a.streams)
    (hf : ∀ s, a.streams.lookup id = some s → (f s).reassemblyQueue = s.reassemblyQueue) : QueuesKept a a' := by
  intro id'
  left
  unfold queueOf
  rw [h, Table.lookup_adjust]
  split
  case isTrue heq =>
    rw [heq]
    cases hs : a.streams.lookup id with
    | none => rfl
    | some s => exact hf s hs
  · rfl

/-! ## The sequence numbers -/

/-- Every stream that is left was there before, with the same sequence number. -/
def NumbersKept (a a' : Association) : Prop :=
  ∀ id s', a'.streams.lookup id = some s' →
    ∃ s, a.streams.lookup id = some s ∧ s'.sequenceNumber = s.sequenceNumber

namespace NumbersKept

variable {a a' : Association}

theorem refl (a : Association) : NumbersKept a a := fun _ s hs => ⟨s, hs, rfl⟩

theorem trans {b c : Association} (h : NumbersKept a b) (h' : NumbersKept b c) : NumbersKept a c := by
  intro id s'' hs''
  obtain ⟨s', hs', heq'⟩ := h' id s'' hs''
  obtain ⟨s, hs, heq⟩ := h id s' hs'
  exact ⟨s, hs, heq'.trans heq⟩

theorem of_streams (h : a'.streams = a.streams) : NumbersKept a a' := fun _ s hs => ⟨s, h ▸ hs, rfl⟩

theorem unregisterStream (a : Association) (id : StreamId) (reason : AssociationError) :
    NumbersKept a (a.unregisterStream id reason) := by
  unfold Association.unregisterStream
  split
  · intro id' s hs
    change (a.streams.erase id).lookup id' = some s at hs
    by_cases heq : id' = id
    · rw [heq, AList.lookup_erase] at hs
      cases hs
    · rw [AList.lookup_erase_ne heq] at hs
      exact ⟨s, hs, rfl⟩
  · exact refl a

theorem update {f : StreamId → StreamState → StreamState} (h : a'.streams = Table.update f a.streams)
    (hf : ∀ id s, a.streams.lookup id = some s → (f id s).sequenceNumber = s.sequenceNumber) :
    NumbersKept a a' := by
  intro id s' hs'
  rw [h, Table.lookup_update] at hs'
  obtain ⟨s, hs, rfl⟩ := Option.map_eq_some_iff.mp hs'
  exact ⟨s, hs, hf id s hs⟩

theorem adjust {id : StreamId} {f : StreamState → StreamState} (h : a'.streams = Table.adjust id f a.streams)
    (hf : ∀ s, a.streams.lookup id = some s → (f s).sequenceNumber = s.sequenceNumber) : NumbersKept a a' := by
  intro id' s' hs'
  rw [h, Table.lookup_adjust] at hs'
  split at hs'
  case isTrue heq =>
    subst heq
    obtain ⟨s, hs, rfl⟩ := Option.map_eq_some_iff.mp hs'
    exact ⟨s, hs, hf s hs⟩
  case isFalse => exact ⟨s', hs', rfl⟩

theorem close (a : Association) (reason : AssociationError) : NumbersKept a (a.close reason) := by
  unfold Association.close
  split
  · exact refl a
  · refine trans (b := { a with state := .closed }.closeAllTimers) (of_streams rfl) ?_
    exact foldl_rel refl trans (fun a id => unregisterStream a id reason) _ _

end NumbersKept

/-! ## Steps -/

/-- What most calls leave alone: both queues, the numbers and the state. -/
def frame (a : Association) :=
  (a.payloadQueue, a.peerLastTsn, a.state, a.reconfigRequests, a.cumulativeTsnAckPoint, a.myNextTsn,
    a.inflightQueue)

/-- The receiving side is not touched, and a closed association stays closed. -/
structure ReceiverKept (a a' : Association) : Prop where
  sorted_eq : a'.payloadQueue.sorted = a.payloadQueue.sorted
  chunkMap_eq : a'.payloadQueue.chunkMap = a.payloadQueue.chunkMap
  peerLastTsn_eq : a'.peerLastTsn = a.peerLastTsn
  queues : QueuesKept a a'
  closed : a.state = .closed → a'.state = .closed
  requests_eq : a'.reconfigRequests = a.reconfigRequests

/-- A step of the sending side that gives out no TSN and takes none back. -/
structure AckStep (a a' : Association) : Prop extends ReceiverKept a a' where
  cum_eq : a'.cumulativeTsnAckPoint = a.cumulativeTsnAckPoint
  next_eq : a'.myNextTsn = a.myNextTsn
  inPlace : InPlace a.inflightQueue a'.inflightQueue

/-- The receiving side and the sequence numbers are not touched. -/
structure Kept (a a' : Association) : Prop extends ReceiverKept a a' where
  numbers : NumbersKept a a'

/-- The streams and fast recovery are left alone. -/
structure Untouched (a a' : Association) : Prop where
  streams_eq : a'.streams = a.streams
  recovery_eq : a'.recovery = a.recovery

/-- A step that gives out no TSN and keeps the sequence numbers. -/
structure QuietAck (a a' : Association) : Prop extends AckStep a a' where
  numbers : NumbersKept a a'

/-- A step that gives out no TSN and leaves the streams and fast recovery alone. -/
structure SteadyStep (a a' : Association) : Prop extends AckStep a a', Untouched a a'

/-- A step of the sending side between two cumulative acknowledgements. -/
structure SenderStep (a a' : Association) : Prop extends ReceiverKept a a' where
  cum_eq : a'.cumulativeTsnAckPoint = a.cumulativeTsnAckPoint
  evolves : Evolves a.inflightQueue a.myNextTsn a'.inflightQueue a'.myNextTsn
  recovery_eq : a'.recovery = a.recovery

variable {a a' b c : Association}

theorem ReceiverKept.refl (a : Association) : ReceiverKept a a := ⟨rfl, rfl, rfl, .of_streams rfl, id, rfl⟩

theorem ReceiverKept.trans (h : ReceiverKept a b) (h' : ReceiverKept b c) : ReceiverKept a c where
  sorted_eq := h'.sorted_eq.trans h.sorted_eq
  chunkMap_eq := h'.chunkMap_eq.trans h.chunkMap_eq
  peerLastTsn_eq := h'.peerLastTsn_eq.trans h.peerLastTsn_eq
  queues := h.queues.trans h'.queues
  closed := h'.closed ∘ h.closed
  requests_eq := h'.requests_eq.trans h.requests_eq

theorem Kept.refl (a : Association) : Kept a a := ⟨.refl a, .refl a⟩

theorem Kept.trans (h : Kept a b) (h' : Kept b c) : Kept a c :=
  ⟨h.toReceiverKept.trans h'.toReceiverKept, h.numbers.trans h'.numbers⟩

namespace AckStep

theorem refl (a : Association) : AckStep a a := ⟨.refl a, rfl, rfl, .refl _⟩

theorem trans (h : AckStep a b) (h' : AckStep b c) : AckStep a c where
  toReceiverKept := h.toReceiverKept.trans h'.toReceiverKept
  cum_eq := h'.cum_eq.trans h.cum_eq
  next_eq := h'.next_eq.trans h.next_eq
  inPlace := h.inPlace.trans h'.inPlace

theorem of_frame (h : a'.frame = a.frame) (hqueues : QueuesKept a a') : AckStep a a' := by
  simp only [frame, Prod.mk.injEq] at h
  obtain ⟨hpayload, hpeer, hstate, hrequests, hcum, hnext, hinflight⟩ := h
  refine ⟨⟨by rw [hpayload], by rw [hpayload], hpeer, hqueues, hstate.trans, hrequests⟩, hcum, hnext, ?_⟩
  rw [hinflight]
  exact .refl _

theorem inflight {q : PayloadQueue} (h : InPlace a.inflightQueue q) :
    AckStep a { a with inflightQueue := q } :=
  ⟨⟨rfl, rfl, rfl, .of_streams rfl, id, rfl⟩, rfl, rfl, h⟩

end AckStep

namespace SteadyStep

theorem refl (a : Association) : SteadyStep a a := ⟨.refl a, rfl, rfl⟩

theorem trans (h : SteadyStep a b) (h' : SteadyStep b c) : SteadyStep a c :=
  ⟨h.toAckStep.trans h'.toAckStep, h'.streams_eq.trans h.streams_eq, h'.recovery_eq.trans h.recovery_eq⟩

theorem of_frame (h : a'.frame = a.frame) (hrecovery : a'.recovery = a.recovery)
    (hstreams : a'.streams = a.streams) : SteadyStep a a' :=
  ⟨.of_frame h (.of_streams hstreams), hstreams, hrecovery⟩

theorem inflight {q : PayloadQueue} (h : InPlace a.inflightQueue q) :
    SteadyStep a { a with inflightQueue := q } := ⟨.inflight h, rfl, rfl⟩

theorem noteAbandonedForForwardTsn (a : Association) (unordered : Bool) (si : StreamId) (ssn : Ssn) :
    SteadyStep a (a.noteAbandonedForForwardTsn unordered si ssn) := by
  cases unordered <;> exact of_frame rfl rfl rfl

theorem advanceOverAbandoned (a : Association) : SteadyStep a a.advanceOverAbandoned := by
  apply loop_rel refl trans
  intro a
  dsimp only
  split
  · split
    · exact refl a
    · exact trans (b := { a with advancedPeerTsnAckPoint := a.advancedPeerTsnAckPoint + 1#32 })
        (of_frame rfl rfl rfl) (noteAbandonedForForwardTsn _ _ _ _)
  · exact refl a

theorem advancePeerAckPoint (a : Association) : SteadyStep a a.advancePeerAckPoint := by
  unfold Association.advancePeerAckPoint
  refine (advanceOverAbandoned a).trans ?_
  dsimp only
  split <;> exact of_frame rfl rfl rfl

theorem quiet (h : SteadyStep a a') : QuietAck a a' := ⟨h.toAckStep, .of_streams h.streams_eq⟩

end SteadyStep

namespace QuietAck

theorem refl (a : Association) : QuietAck a a := (SteadyStep.refl a).quiet

theorem trans (h : QuietAck a b) (h' : QuietAck b c) : QuietAck a c :=
  ⟨h.toAckStep.trans h'.toAckStep, h.numbers.trans h'.numbers⟩

theorem kept (h : QuietAck a a') : Kept a a' := ⟨h.toReceiverKept, h.numbers⟩

theorem of_frame (h : a'.frame = a.frame) (hstreams : a'.streams = a.streams) : QuietAck a a' :=
  ⟨.of_frame h (.of_streams hstreams), .of_streams hstreams⟩

theorem releaseStreamBuffers (a : Association) (m : Table StreamId Nat) :
    QuietAck a (a.releaseStreamBuffers m) ∧ (a.releaseStreamBuffers m).recovery = a.recovery := by
  apply foldl_rel (R := fun a a' : Association => QuietAck a a' ∧ a'.recovery = a.recovery)
    (fun a => ⟨refl a, rfl⟩) (fun h h' => ⟨h.1.trans h'.1, h'.2.trans h.2⟩)
  intro a e
  dsimp only
  generalize ha : (if 0 < e.2 then _ else a : Association) = a₁
  have h₁ : QuietAck a a₁ ∧ a₁.recovery = a.recovery := by
    rw [← ha]
    split
    · exact ⟨of_frame rfl rfl, rfl⟩
    · exact ⟨refl a, rfl⟩
  have hreleased : ∀ s : StreamState, (s.onBufferReleased e.2).2.reassemblyQueue = s.reassemblyQueue ∧
      (s.onBufferReleased e.2).2.sequenceNumber = s.sequenceNumber := by
    intro s
    unfold StreamState.onBufferReleased
    split <;> exact ⟨rfl, rfl⟩
  split
  case _ s hs =>
    split
    all_goals
      refine ⟨h₁.1.trans ⟨.of_frame rfl ?_, ?_⟩, h₁.2⟩
      · refine .adjust (f := fun _ => (s.onBufferReleased e.2).2) rfl fun s' hs' => ?_
        rw [← Option.some.inj (hs.symm.trans hs')]
        exact (hreleased s).1
      · refine .adjust (f := fun _ => (s.onBufferReleased e.2).2) rfl fun s' hs' => ?_
        rw [← Option.some.inj (hs.symm.trans hs')]
        exact (hreleased s).2
  · exact h₁

end QuietAck

theorem AckStep.senderStep (h : AckStep a a') (hrecovery : a'.recovery = a.recovery) :
    SenderStep a a' where
  toReceiverKept := h.toReceiverKept
  cum_eq := h.cum_eq
  evolves := by rw [h.next_eq]; exact .of_inPlace h.inPlace _
  recovery_eq := hrecovery

namespace SenderStep

theorem refl (a : Association) : SenderStep a a := (AckStep.refl a).senderStep rfl

theorem trans (h : SenderStep a b) (h' : SenderStep b c) : SenderStep a c where
  toReceiverKept := h.toReceiverKept.trans h'.toReceiverKept
  cum_eq := h'.cum_eq.trans h.cum_eq
  evolves := h.evolves.trans h'.evolves
  recovery_eq := h'.recovery_eq.trans h.recovery_eq

theorem of_frame (h : a'.frame = a.frame) (hrecovery : a'.recovery = a.recovery)
    (hqueues : QueuesKept a a') : SenderStep a a' :=
  (AckStep.of_frame h hqueues).senderStep hrecovery

theorem of_open (hopen : a.state ≠ .closed) (hpayload : a'.payloadQueue = a.payloadQueue)
    (hpeer : a'.peerLastTsn = a.peerLastTsn) (hcum : a'.cumulativeTsnAckPoint = a.cumulativeTsnAckPoint)
    (hinflight : a'.inflightQueue = a.inflightQueue) (hnext : a'.myNextTsn = a.myNextTsn)
    (hstreams : a'.streams = a.streams) (hrequests : a'.reconfigRequests = a.reconfigRequests)
    (hrecovery : a'.recovery = a.recovery) : SenderStep a a' where
  sorted_eq := by rw [hpayload]
  chunkMap_eq := by rw [hpayload]
  peerLastTsn_eq := hpeer
  queues := .of_streams hstreams
  closed := fun hclosed => absurd hclosed hopen
  requests_eq := hrequests
  cum_eq := hcum
  evolves := by rw [hinflight, hnext]; exact .of_inPlace (.refl _) _
  recovery_eq := hrecovery

theorem putInFlight (a : Association) {c : ChunkPayloadData} (hc : c.tsn = a.myNextTsn) :
    SenderStep a { a with
      myNextTsn := a.myNextTsn + 1#32
      inflightQueue := a.inflightQueue.pushNoCheck c } :=
  ⟨⟨rfl, rfl, rfl, .of_streams rfl, id, rfl⟩, rfl, .pushNoCheck _ hc, rfl⟩

/-! ## Shared helpers -/

theorem createStream (a : Association) (id : StreamId) (accept : Bool) :
    SenderStep a (a.createStream id accept) := by
  have hqueues := @QueuesKept.createStream a id accept
  cases accept <;> exact of_frame rfl rfl hqueues

theorem unregisterStream (a : Association) (id : StreamId) (reason : AssociationError) :
    SenderStep a (a.unregisterStream id reason) := by
  have hqueues := QueuesKept.unregisterStream a id reason
  unfold Association.unregisterStream at hqueues ⊢
  split
  case isTrue h =>
    rw [if_pos h] at hqueues
    exact of_frame rfl rfl hqueues
  · exact refl a

theorem close (a : Association) (reason : AssociationError) : SenderStep a (a.close reason) := by
  unfold Association.close
  split
  · exact refl a
  · refine trans (b := { a with state := .closed }.closeAllTimers) ?_ ?_
    · exact ⟨⟨rfl, rfl, rfl, .of_streams rfl, fun _ => rfl, rfl⟩, rfl, .of_inPlace (.refl _) _, rfl⟩
    · exact foldl_rel refl trans (fun a id => unregisterStream a id reason) _ _

end SenderStep

theorem state_close (a : Association) (reason : AssociationError) : (a.close reason).state = .closed := by
  unfold close
  split
  · assumption
  · refine (foldl_rel (R := fun a a' => SenderStep a a') SenderStep.refl SenderStep.trans
      (fun a id => SenderStep.unregisterStream a id reason) _ _).closed rfl

/-- A step of the sending side that neither creates a stream nor takes a message. -/
structure QuietStep (a a' : Association) : Prop extends SenderStep a a' where
  numbers : NumbersKept a a'

namespace QuietStep

theorem refl (a : Association) : QuietStep a a := ⟨.refl a, .refl a⟩

theorem trans (h : QuietStep a b) (h' : QuietStep b c) : QuietStep a c :=
  ⟨h.toSenderStep.trans h'.toSenderStep, h.numbers.trans h'.numbers⟩

theorem of_streams (h : SenderStep a a') (hstreams : a'.streams = a.streams) : QuietStep a a' :=
  ⟨h, .of_streams hstreams⟩

theorem of_frame (h : a'.frame = a.frame) (hrecovery : a'.recovery = a.recovery)
    (hstreams : a'.streams = a.streams) : QuietStep a a' :=
  of_streams (.of_frame h hrecovery (.of_streams hstreams)) hstreams

theorem inflight {q : PayloadQueue} (h : InPlace a.inflightQueue q) :
    QuietStep a { a with inflightQueue := q } :=
  of_streams ((AckStep.inflight h).senderStep rfl) rfl

variable (a)

theorem putInFlight {c : ChunkPayloadData} (hc : c.tsn = a.myNextTsn) :
    QuietStep a { a with
      myNextTsn := a.myNextTsn + 1#32
      inflightQueue := a.inflightQueue.pushNoCheck c } :=
  of_streams (.putInFlight a hc) rfl

theorem releaseStreamBuffers (m : Table StreamId Nat) :
    QuietStep a (a.releaseStreamBuffers m) :=
  have h := QuietAck.releaseStreamBuffers a m
  ⟨h.1.senderStep h.2, h.1.numbers⟩

theorem adjust (id : StreamId) {f : StreamState → StreamState}
    (hqueue : ∀ s, a.streams.lookup id = some s → (f s).reassemblyQueue = s.reassemblyQueue)
    (hnumber : ∀ s, a.streams.lookup id = some s → (f s).sequenceNumber = s.sequenceNumber) :
    QuietStep a { a with streams := Table.adjust id f a.streams } :=
  ⟨.of_frame rfl rfl (.adjust rfl hqueue), .adjust rfl hnumber⟩

theorem advancePeerAckPoint : QuietStep a a.advancePeerAckPoint :=
  have h := SteadyStep.advancePeerAckPoint a
  of_streams (h.senderStep h.recovery_eq) h.streams_eq

theorem close (reason : AssociationError) : QuietStep a (a.close reason) :=
  ⟨.close a reason, .close a reason⟩

end QuietStep

theorem QuietStep.failMessageQueue (a : Association) : QuietStep a a.failMessageQueue :=
  (QuietStep.close a .transportError).trans (of_frame rfl rfl rfl)

namespace QuietStep

/-! ## Abandonment -/

variable (a)

theorem onMessagesAbandoned (now : Instant) : QuietStep a (a.onMessagesAbandoned now) := by
  unfold Association.onMessagesAbandoned
  refine (advancePeerAckPoint a).trans ?_
  dsimp only
  split
  · exact of_frame rfl rfl rfl
  · exact refl _

theorem abandonPending (assignTsns : Bool) (s : Abandonment) (c : ChunkPayloadData) :
    QuietStep s.assoc (abandonPending assignTsns s c).assoc := by
  cases assignTsns
  · exact refl s.assoc
  · exact putInFlight s.assoc rfl

theorem abandonInflight (s : Abandonment) (tsn : Tsn) : QuietStep s.assoc (abandonInflight s tsn).assoc := by
  unfold Association.abandonInflight
  split
  · refine inflight ?_
    exact (InPlace.modify (f := ChunkPayloadData.markAbandoned) (fun _ => rfl) _ _).trans
      (.releasePayload _ _)
  · exact refl s.assoc

theorem abandonFragments (s : Abandonment) (tail : List ChunkPayloadData) :
    QuietStep s.assoc (abandonFragments s tail).2 := by
  unfold Association.abandonFragments
  dsimp only
  generalize (s.inflight.isSome || _) = assignTsns
  have htail : QuietStep s.assoc (tail.foldl (Association.abandonPending assignTsns) s).assoc :=
    foldl_rel (R := fun s s' : Abandonment => QuietStep s.assoc s'.assoc) (fun s => refl s.assoc)
      trans (abandonPending assignTsns) tail s
  generalize tail.foldl (Association.abandonPending assignTsns) s = s₁ at htail
  refine htail.trans (trans ?_ (releaseStreamBuffers _ _))
  split
  · exact foldl_rel (R := fun s s' : Abandonment => QuietStep s.assoc s'.assoc)
      (fun s => refl s.assoc) trans abandonInflight _ s₁
  · exact refl s₁.assoc

theorem abandonMessage (message : MessageToAbandon) : QuietStep a (a.abandonMessage message).2 := by
  unfold Association.abandonMessage
  split
  · split
    · exact of_frame rfl rfl rfl
    case _ tail q _ =>
      exact trans (b := { a with pendingQueue := q }) (of_frame rfl rfl rfl)
        (abandonFragments { assoc := { a with pendingQueue := q }, inflight := message.inflight } tail)
  · exact abandonFragments { assoc := a, inflight := message.inflight } []

theorem abandonRetransmitCandidate (tsn : Tsn) (now : Instant) :
    QuietStep a (a.abandonRetransmitCandidate tsn now).2 := by
  unfold Association.abandonRetransmitCandidate
  split
  · exact refl a
  split
  · exact refl a
  split
  · exact refl a
  case _ message _ =>
    have hmessage := abandonMessage a message
    split
    case _ heq =>
      rw [heq] at hmessage
      exact hmessage
    case _ changed a' heq =>
      rw [heq] at hmessage
      refine hmessage.trans ?_
      cases changed
      · exact refl a'
      · exact onMessagesAbandoned a' now

theorem abandonMessages (changed : Bool) (messages : List MessageToAbandon) (a : Association) :
    QuietStep a (abandonMessages changed messages a).2 := by
  induction messages generalizing changed a with
  | nil => exact refl a
  | cons message rest ih =>
    unfold Association.abandonMessages
    have hmessage := abandonMessage a message
    split
    case _ heq =>
      rw [heq] at hmessage
      exact hmessage
    case _ heq =>
      rw [heq] at hmessage
      exact hmessage.trans (ih _ _)

theorem abandonUnretransmittableMessages (now : Instant) (isCandidate : ChunkPayloadData → Bool) :
    QuietStep a (a.abandonUnretransmittableMessages now isCandidate).2 := by
  unfold Association.abandonUnretransmittableMessages
  split
  · exact refl a
  case _ messages _ =>
    have hmessages := abandonMessages false messages a
    split
    case _ heq =>
      rw [heq] at hmessages
      exact hmessages
    case _ changed a' heq =>
      rw [heq] at hmessages
      refine hmessages.trans ?_
      cases changed
      · exact refl a'
      · exact onMessagesAbandoned a' now

/-! ## Calls of the application -/

theorem setReliabilityParams (id : StreamId) (unordered : Bool) (relType : ReliabilityType) (relVal : Nat) :
    QuietStep a (a.setReliabilityParams id unordered relType relVal).2 := by
  unfold Association.setReliabilityParams
  split
  case _ s hs =>
    refine adjust a id (fun s' hs' => ?_) fun s' hs' => ?_
    all_goals rw [← Option.some.inj (hs.symm.trans hs')]
  · exact refl a

theorem sendPayloadData (chunks : List ChunkPayloadData) : QuietStep a (a.sendPayloadData chunks).2 := by
  unfold Association.sendPayloadData
  split
  · exact refl a
  · exact of_frame rfl rfl rfl

theorem sendResetRequest (now : Instant) (id : StreamId) : QuietStep a (a.sendResetRequest now id).2 := by
  unfold Association.sendResetRequest
  split
  · exact refl a
  · exact of_frame rfl rfl rfl

theorem stop (id : StreamId) (now : Instant) : QuietStep a (a.stop id now).2 := by
  unfold Association.stop
  split
  · split
    · refine trans (b := { a with
        streams := Table.adjust id (fun s => { s with state := s.state.withoutRead }) a.streams }) ?_ ?_
      · exact adjust a id (fun _ _ => rfl) fun _ _ => rfl
      · exact sendResetRequest _ now id
    · exact adjust a id (fun _ _ => rfl) fun _ _ => rfl
  · exact refl a

/-! ## gather_outbound -/

theorem t3Round (awnd : Nat) (now : Instant) (s : T3Scan) :
    QuietStep s.assoc (t3Round awnd now s).value.assoc := by
  unfold Association.t3Round
  dsimp only
  split
  · exact refl s.assoc
  split
  · exact refl s.assoc
  have habandon := abandonRetransmitCandidate s.assoc
    (s.assoc.cumulativeTsnAckPoint + BitVec.ofNat 32 (s.i + 1)) now
  split
  case _ heq =>
    rw [heq] at habandon
    exact habandon
  case _ heq =>
    rw [heq] at habandon
    exact habandon
  case _ heq =>
    rw [heq] at habandon
    split
    · exact habandon
    · unfold takeT3
      split
      · exact habandon
      split <;> exact habandon

variable {f : ChunkPayloadData → ChunkPayloadData}

theorem countAttempt
    (hf : ∀ c, (f c).userData = c.userData ∧ (f c).tsn = c.tsn) (s : List ChunkPayloadData × Association) (chunk : ChunkPayloadData) :
    QuietStep s.2 (countAttempt f s chunk).2 := by
  unfold Association.countAttempt
  split
  · refine inflight (InPlace.modify ?_ _ _ fun c => (hf c).2)
    intro c
    exact congrArg List.length (hf c).1
  · exact refl s.2

theorem countAttempts
    (hf : ∀ c, (f c).userData = c.userData ∧ (f c).tsn = c.tsn) (chunks : List ChunkPayloadData) (s : List ChunkPayloadData × Association) :
    QuietStep s.2 (chunks.foldl (Association.countAttempt f) s).2 :=
  foldl_rel (R := fun s s' : List ChunkPayloadData × Association => QuietStep s.2 s'.2)
    (fun s => refl s.2) trans (countAttempt hf) chunks s

theorem getDataPacketsToRetransmit (now : Instant) : QuietStep a (a.getDataPacketsToRetransmit now).2 := by
  unfold Association.getDataPacketsToRetransmit
  dsimp only
  have hloop : QuietStep a (loop (Association.t3Round (min a.cwnd a.rwnd) now) a.windowBound
      { assoc := a }).assoc :=
    loop_rel (R := fun s s' : T3Scan => QuietStep s.assoc s'.assoc) (fun s => refl s.assoc) trans
      (t3Round (min a.cwnd a.rwnd) now) a.windowBound { assoc := a }
  generalize loop (Association.t3Round (min a.cwnd a.rwnd) now) a.windowBound { assoc := a } = s at hloop
  split
  · exact hloop
  · refine hloop.trans (trans (b := { s.assoc with t3RetransmitPending := s.chunksRemaining }) ?_ ?_)
    · exact of_frame rfl rfl rfl
    · exact countAttempts (f := fun c => { c with retransmit := false }) (fun _ => ⟨rfl, rfl⟩) _
        ([], { s.assoc with t3RetransmitPending := s.chunksRemaining })

theorem gatherDataPacketsToRetransmit (packets : List Packet) (now : Instant) :
    QuietStep a (a.gatherDataPacketsToRetransmit packets now).2 := by
  unfold Association.gatherDataPacketsToRetransmit
  split
  · have hdata := getDataPacketsToRetransmit a now
    split
    case _ heq =>
      rw [heq] at hdata
      exact hdata.trans (failMessageQueue _)
    case _ heq =>
      rw [heq] at hdata
      exact hdata
  · exact refl a

theorem movePendingDataChunkToInflightQueue (beginningFragment unordered : Bool) (now : Instant) :
    QuietStep a (a.movePendingDataChunkToInflightQueue beginningFragment unordered now).2 := by
  unfold Association.movePendingDataChunkToInflightQueue
  split
  case _ c q _ =>
    refine trans (b := { a with pendingQueue := q }) (of_frame rfl rfl rfl) ?_
    exact putInFlight { a with pendingQueue := q } (c := { c with
      tsn := a.myNextTsn, since := some now, nsent := 1 }) rfl
  · exact of_frame rfl rfl rfl

theorem movePending (s : PendingScan) (c : ChunkPayloadData) (now : Instant) :
    QuietStep s.assoc (movePending s c now).assoc := by
  unfold Association.movePending
  have hmove := movePendingDataChunkToInflightQueue s.assoc c.beginningFragment c.unordered now
  split
  case _ heq =>
    rw [heq] at hmove
    exact hmove
  case _ heq =>
    rw [heq] at hmove
    exact hmove

theorem abandonPendingMessage (s : PendingScan) (now : Instant) :
    QuietStep s.assoc (abandonPendingMessage s now).value.assoc := by
  unfold Association.abandonPendingMessage
  split
  · exact failMessageQueue s.assoc
  case _ message _ =>
    have hmessage := abandonMessage s.assoc message
    split
    case _ heq =>
      rw [heq] at hmessage
      exact hmessage.trans (failMessageQueue _)
    case _ changed a' heq =>
      rw [heq] at hmessage
      refine hmessage.trans ?_
      cases changed
      · exact refl a'
      · exact onMessagesAbandoned a' now

theorem pendingRound (now : Instant) (s : PendingScan) : QuietStep s.assoc (pendingRound now s).value.assoc := by
  unfold Association.pendingRound
  split
  · exact refl s.assoc
  case _ c _ =>
    split
    · exact of_frame rfl rfl rfl
    split
    · exact abandonPendingMessage s now
    split
    · exact refl s.assoc
    split
    · exact refl s.assoc
    · refine trans (b := { s.assoc with rwnd := s.assoc.rwnd - c.userData.length }) ?_ ?_
      · exact of_frame rfl rfl rfl
      · exact movePending
          { s with assoc := { s.assoc with rwnd := s.assoc.rwnd - c.userData.length } } c now

theorem probe (s : PendingScan) (now : Instant) : QuietStep s.assoc (probe s now).assoc := by
  unfold Association.probe
  split
  · split
    · exact movePending s _ now
    · exact refl s.assoc
  · exact refl s.assoc

theorem popPendingDataChunksToSend (now : Instant) : QuietStep a (a.popPendingDataChunksToSend now).2 := by
  unfold Association.popPendingDataChunksToSend
  split
  · exact refl a
  dsimp only
  have hloop : QuietStep a (loop (Association.pendingRound now) a.windowBound { assoc := a }).assoc :=
    loop_rel (R := fun s s' : PendingScan => QuietStep s.assoc s'.assoc) (fun s => refl s.assoc) trans
      (pendingRound now) a.windowBound { assoc := a }
  split
  · exact hloop
  · exact hloop.trans (probe _ now)

theorem gatherReconfig (sisToReset : List StreamId) (now : Instant) :
    QuietStep a (a.gatherReconfig sisToReset now).2 := by
  unfold Association.gatherReconfig
  split
  · exact refl a
  dsimp only
  have hrequest : QuietStep a ({ a with willRetransmitReconfig := false }.requestReset sisToReset).2 := by
    unfold Association.requestReset
    split <;> exact of_frame rfl rfl rfl
  refine hrequest.trans ?_
  split
  · exact refl _
  · exact of_frame rfl rfl rfl

theorem gatherOutboundDataAndReconfigPackets (packets : List Packet) (now : Instant) :
    QuietStep a (a.gatherOutboundDataAndReconfigPackets packets now).2 := by
  unfold Association.gatherOutboundDataAndReconfigPackets
  have hpop := popPendingDataChunksToSend a now
  generalize a.popPendingDataChunksToSend now = popped at hpop
  obtain ⟨⟨chunks, sisToReset⟩, a₁⟩ := popped
  dsimp only at hpop ⊢
  split
  · exact hpop
  split
  · exact hpop.trans (gatherReconfig _ _ _)
  · refine hpop.trans (trans (b := { a₁ with
      timers := a₁.timers.startIfIdle .t3Rtx now a₁.rtoMgr.getRto }) ?_ (gatherReconfig _ _ _))
    exact of_frame rfl rfl rfl

theorem fastRound (now : Instant) (s : FastScan) : QuietStep s.assoc (fastRound now s).value.assoc := by
  unfold Association.fastRound
  dsimp only
  split
  · exact refl s.assoc
  split
  · exact refl s.assoc
  have habandon := abandonRetransmitCandidate s.assoc
    (s.assoc.cumulativeTsnAckPoint + BitVec.ofNat 32 (s.i + 1)) now
  split
  case _ heq =>
    rw [heq] at habandon
    exact habandon.trans (failMessageQueue _)
  case _ heq =>
    rw [heq] at habandon
    exact habandon
  case _ heq =>
    rw [heq] at habandon
    split
    · exact habandon
    split <;> exact habandon

theorem gatherOutboundFastRetransmissionPackets (packets : List Packet)
    (now : Instant) : QuietStep a (a.gatherOutboundFastRetransmissionPackets packets now).2 := by
  unfold Association.gatherOutboundFastRetransmissionPackets
  split
  · dsimp only
    have hloop : QuietStep a (loop (Association.fastRound now) a.windowBound
        { assoc := { a with willRetransmitFast := false } }).assoc := by
      refine trans (b := { a with willRetransmitFast := false }) ?_ ?_
      · exact of_frame rfl rfl rfl
      · exact loop_rel (R := fun s s' : FastScan => QuietStep s.assoc s'.assoc)
          (fun s => refl s.assoc) trans (fastRound now) a.windowBound
          { assoc := { a with willRetransmitFast := false } }
    split
    · exact hloop
    · exact hloop.trans (countAttempts (f := id) (fun _ => ⟨rfl, rfl⟩) _ ([], _))
  · exact refl a

theorem gatherOutboundSackPackets (packets : List Packet) :
    QuietStep a (a.gatherOutboundSackPackets packets).2 := by
  unfold Association.gatherOutboundSackPackets
  split
  · exact of_streams ⟨⟨rfl, rfl, rfl, .of_streams rfl, id, rfl⟩, rfl, .of_inPlace (.refl _) _, rfl⟩ rfl
  · exact refl a

theorem gatherOutboundForwardTsnPackets (packets : List Packet) :
    QuietStep a (a.gatherOutboundForwardTsnPackets packets).2 := by
  unfold Association.gatherOutboundForwardTsnPackets
  split
  · dsimp only
    split <;> exact of_frame rfl rfl rfl
  · exact refl a

theorem gatherOutboundShutdownPackets (packets : List Packet) (now : Instant) :
    QuietStep a (a.gatherOutboundShutdownPackets packets now).2 := by
  unfold Association.gatherOutboundShutdownPackets
  split
  · exact of_frame rfl rfl rfl
  split
  · exact of_frame rfl rfl rfl
  split
  · exact of_frame rfl rfl rfl
  · exact refl a

theorem gatherEstablished (packets : List Packet) (now : Instant) :
    QuietStep a (a.gatherEstablished packets now).2 := by
  unfold Association.gatherEstablished
  have h₁ := gatherDataPacketsToRetransmit a packets now
  generalize a.gatherDataPacketsToRetransmit packets now = r₁ at h₁
  dsimp only
  split
  · exact h₁
  have h₂ := gatherOutboundDataAndReconfigPackets r₁.2 r₁.1 now
  generalize r₁.2.gatherOutboundDataAndReconfigPackets r₁.1 now = r₂ at h₂
  split
  · exact h₁.trans h₂
  have h₃ := gatherOutboundFastRetransmissionPackets r₂.2 r₂.1 now
  generalize r₂.2.gatherOutboundFastRetransmissionPackets r₂.1 now = r₃ at h₃
  split
  · exact (h₁.trans h₂).trans h₃
  · exact ((h₁.trans h₂).trans h₃).trans
      ((gatherOutboundSackPackets _ _).trans (gatherOutboundForwardTsnPackets _ _))

theorem gatherShutdown (packets : List Packet) (now : Instant) :
    QuietStep a (a.gatherShutdown packets now).2 := by
  unfold Association.gatherShutdown
  have h₁ := gatherDataPacketsToRetransmit a packets now
  generalize a.gatherDataPacketsToRetransmit packets now = r₁ at h₁
  dsimp only
  split
  · exact h₁
  have h₂ := gatherOutboundFastRetransmissionPackets r₁.2 r₁.1 now
  generalize r₁.2.gatherOutboundFastRetransmissionPackets r₁.1 now = r₂ at h₂
  split
  · exact h₁.trans h₂
  · exact (h₁.trans h₂).trans ((gatherOutboundSackPackets _ _).trans
      ((gatherOutboundForwardTsnPackets _ _).trans (gatherOutboundShutdownPackets _ _ _)))

theorem gatherOutbound (now : Instant) : QuietStep a (a.gatherOutbound now).2 := by
  refine trans (b := { a with controlQueue := [] }) (of_frame rfl rfl rfl) ?_
  unfold Association.gatherOutbound
  dsimp only
  split
  · exact gatherEstablished { a with controlQueue := [] } _ now
  · exact gatherShutdown { a with controlQueue := [] } _ now
  · exact gatherShutdown { a with controlQueue := [] } _ now
  · exact gatherShutdown { a with controlQueue := [] } _ now
  · exact gatherOutboundShutdownPackets { a with controlQueue := [] } _ now
  all_goals exact refl _

/-! ## Timers -/

theorem onT3Timeout (now : Instant) : QuietStep a (a.onT3Timeout now) := by
  unfold Association.onT3Timeout
  have habandon : QuietStep a ({ a with rtoMgr := a.rtoMgr.backoff }.abandonUnretransmittableMessages
      now ChunkPayloadData.isOutstanding).2 := by
    refine trans (b := { a with rtoMgr := a.rtoMgr.backoff }) (of_frame rfl rfl rfl) ?_
    exact abandonUnretransmittableMessages _ _ _
  split
  case _ heq =>
    rw [heq] at habandon
    exact habandon.trans (failMessageQueue _)
  case _ a₁ heq =>
    rw [heq] at habandon
    refine habandon.trans ?_
    dsimp only
    generalize ha : (if a₁.useForwardTsn = true then _ else _ : Association) = a₂
    have h₂ : QuietStep a₁ a₂ := by
      rw [← ha]
      refine trans (b := { a₁ with
        ssthresh := max (a₁.cwnd / 2) (4 * a₁.mtu % 2 ^ 32), cwnd := a₁.mtu }) ?_ ?_
      · exact of_frame rfl rfl rfl
      · split
        · exact advancePeerAckPoint _
        · exact refl _
    refine h₂.trans ?_
    exact of_streams ⟨⟨rfl, rfl, rfl, .of_streams rfl, id, rfl⟩, rfl, .of_inPlace (.markAllToRetransmit _) _, rfl⟩ rfl

theorem onRetransmissionTimeout (now : Instant) (timer : Timer) :
    QuietStep a (a.onRetransmissionTimeout now timer) := by
  cases timer with
  | t1Init => exact refl a
  | t1Cookie => exact refl a
  | ack => exact refl a
  | t2Shutdown =>
    unfold Association.onRetransmissionTimeout
    dsimp only
    split
    · exact of_frame rfl rfl rfl
    · exact of_frame rfl rfl rfl
    · exact refl a
  | t3Rtx => exact onT3Timeout a now
  | reconfig => exact of_frame rfl rfl rfl

theorem expireTimer (now : Instant) (timer : Timer) : QuietStep a (a.expireTimer now timer).2 := by
  unfold Association.expireTimer
  generalize a.timers.isExpired timer now = expiry
  obtain ⟨⟨expired, failure, n⟩, timers⟩ := expiry
  dsimp only
  split
  · exact of_frame rfl rfl rfl
  split
  · exact of_frame rfl rfl rfl
  split
  · exact of_frame rfl rfl rfl
  have hexpired : QuietStep a ({ a with timers := timers.set timer none }.onRetransmissionTimeout
      now timer) :=
    trans (b := { a with timers := timers.set timer none }) (of_frame rfl rfl rfl)
      (onRetransmissionTimeout _ now timer)
  split
  · exact hexpired
  · exact hexpired.trans (of_frame rfl rfl rfl)

theorem handleTimeout (now : Instant) : QuietStep a (a.handleTimeout now) := by
  have htimers : ∀ timers a, QuietStep a (expireTimers now timers a) := by
    intro timers
    induction timers with
    | nil => exact refl
    | cons timer rest ih =>
      intro a
      unfold expireTimers
      have hexpire := expireTimer a now timer
      split
      case _ heq =>
        rw [heq] at hexpire
        exact hexpire.trans (ih _)
      case _ heq =>
        rw [heq] at hexpire
        exact hexpire
  exact htimers Timer.values a

end QuietStep

/-! ## Writes -/

theorem SenderStep.writeSource (a : Association) (id : StreamId) (now : Instant) (raw : List Byte)
    (ppi : PayloadProtocolIdentifier) : SenderStep a (a.writeSource id now raw ppi).2 := by
  unfold Association.writeSource
  split
  case _ s hs =>
    split
    · exact .refl a
    split
    · exact .refl a
    split
    · exact .refl a
    have hqueue : (s.packetize now raw ppi).2.reassemblyQueue = s.reassemblyQueue := rfl
    generalize s.packetize now raw ppi = packet at hqueue
    obtain ⟨⟨high, chunks⟩, s'⟩ := packet
    dsimp only at hqueue ⊢
    generalize ha : (if high = true then _ else _ : Association) = a₁
    have h₁ : SenderStep a a₁ := by
      rw [← ha]
      split
      all_goals
        refine .of_frame rfl rfl (.adjust (f := fun _ => s') rfl fun s₀ hs₀ => ?_)
        rw [← Option.some.inj (hs.symm.trans hs₀)]
        exact hqueue
    have h₂ := (QuietStep.sendPayloadData a₁ chunks).toSenderStep
    split
    case _ heq =>
      rw [heq] at h₂
      exact h₁.trans h₂
    case _ heq =>
      rw [heq] at h₂
      exact h₁.trans h₂
  · exact .refl a

end Association
end Rtc.Sctp
