import Rtc.Sctp.Association.Step

/-!
# What the receiving side does to the association

`Received cum q`: the queue of the receiver lists, in serial order, TSNs ahead of the cumulative one by at most half
the space, and holds exactly these. Every function of the receiving side keeps it (`ReceiverStep`).
-/

namespace Rtc.Sctp
open Shared Serial Loop SortedInsert

namespace PayloadQueue

/-- The receiver's queue beyond its cumulative TSN. -/
structure Received (cum : Tsn) (q : PayloadQueue) : Prop where
  increasing : Increasing (ahead cum) q.sorted
  near : ∀ tsn ∈ q.sorted, 0 < ahead cum tsn ∧ ahead cum tsn ≤ 2 ^ 31
  mem_iff : ∀ tsn, tsn ∈ q.chunkMap ↔ tsn ∈ q.sorted

theorem canPush_iff (q : PayloadQueue) (p : ChunkPayloadData) (cum : Tsn) :
    q.canPush p cum = true ↔
      p.tsn ∉ q.chunkMap ∧ 0 < ahead cum p.tsn ∧ ahead cum p.tsn ≤ 2 ^ 31 := by
  have hlte : sna32lte p.tsn cum = false ↔ 0 < ahead cum p.tsn ∧ ahead cum p.tsn ≤ 2 ^ 31 := by
    rw [← Bool.not_eq_true, sna32lte_iff]
    by_cases heq : p.tsn = cum
    · rw [heq, ahead_self]
      omega
    · have hpos : 0 < ahead cum p.tsn :=
        Nat.pos_of_ne_zero fun h => heq (ahead_eq_zero.mp h).symm
      rw [ahead_of_lt cum (by rwa [ahead_self]), ahead_self]
      have := ahead_lt cum p.tsn
      omega
  unfold canPush
  rw [Bool.not_eq_true', Bool.or_eq_false_iff, hlte, ← Bool.not_eq_true, AList.lookup_isSome]

namespace Received

variable {cum : Tsn} {q : PayloadQueue}

theorem new (cum : Tsn) : Received cum PayloadQueue.new where
  increasing := .nil
  near := fun _ h => absurd h List.not_mem_nil
  mem_iff := fun _ => Iff.rfl

theorem of_eq {q' : PayloadQueue} (h : Received cum q) (hsorted : q'.sorted = q.sorted)
    (hmap : q'.chunkMap = q.chunkMap) : Received cum q' := by
  refine ⟨hsorted ▸ h.increasing, hsorted ▸ h.near, fun tsn => ?_⟩
  rw [hsorted, hmap]
  exact h.mem_iff tsn

/-- Among received TSNs the serial order is the order of their distances from the cumulative one. -/
theorem sna32lt_iff {x y : Tsn} (hx : 0 < ahead cum x ∧ ahead cum x ≤ 2 ^ 31)
    (hy : 0 < ahead cum y ∧ ahead cum y ≤ 2 ^ 31) :
    sna32lt x y = true ↔ ahead cum x < ahead cum y :=
  sna32lt_iff_of_near cum (by omega) (by omega)

theorem pushNoCheck (h : Received cum q) {p : ChunkPayloadData} (hp : q.canPush p cum = true) :
    Received cum (q.pushNoCheck p) := by
  obtain ⟨hnew, hnear⟩ := (canPush_iff q p cum).mp hp
  constructor
  · apply h.increasing.insertBy
    · intro tsn htsn
      exact sna32lt_iff (h.near tsn htsn) hnear
    · intro tsn htsn heq
      exact hnew ((h.mem_iff p.tsn).mpr (ahead_inj heq ▸ htsn))
  · intro tsn htsn
    rcases mem_insertBy.mp htsn with rfl | htsn
    · exact hnear
    · exact h.near tsn htsn
  · intro tsn
    exact (AList.mem_insert _).trans ((or_congr_right (h.mem_iff tsn)).trans mem_insertBy.symm)

theorem push (h : Received cum q) (p : ChunkPayloadData) : Received cum (q.push p cum).2 := by
  unfold PayloadQueue.push
  split
  · exact h.of_eq rfl rfl
  case _ hnot =>
    apply h.pushNoCheck
    unfold canPush
    rwa [Bool.not_eq_true', ← Bool.not_eq_true]

theorem shift {l : List Tsn} (hl : Increasing (ahead cum) l)
    (hnear : ∀ tsn ∈ l, 0 < ahead cum tsn ∧ ahead cum tsn ≤ 2 ^ 31) (hnot : cum + 1#32 ∉ l) :
    Increasing (ahead (cum + 1#32)) l ∧
      ∀ tsn ∈ l, 0 < ahead (cum + 1#32) tsn ∧ ahead (cum + 1#32) tsn ≤ 2 ^ 31 := by
  have hsucc : ∀ tsn ∈ l, ahead (cum + 1#32) tsn = ahead cum tsn - 1 ∧ 1 < ahead cum tsn := by
    intro tsn htsn
    have hpos := (hnear tsn htsn).1
    have hne : cum ≠ tsn := fun heq => by rw [heq, ahead_self] at hpos; omega
    have hone : ahead cum (cum + 1#32) = 1 := ahead_add cum (by omega)
    have hne' : ahead cum tsn ≠ 1 := fun heq => hnot (ahead_inj (heq.trans hone.symm) ▸ htsn)
    exact ⟨ahead_succ hne, by omega⟩
  constructor
  · refine hl.imp_of_mem fun {x y} hx hy hlt => ?_
    have hx' := hsucc x hx
    have hy' := hsucc y hy
    rw [hx'.1, hy'.1]
    omega
  · intro tsn htsn
    have h := hsucc tsn htsn
    have hle := (hnear tsn htsn).2
    rw [h.1]
    omega

/-- `pop` of the next TSN takes it off the queue if it is there, and does nothing otherwise. -/
theorem pop_cases (h : Received cum q) :
    (∃ c rest, q.sorted = (cum + 1#32) :: rest ∧ q.get (cum + 1#32) = some c ∧
      q.pop (cum + 1#32) = (some c, { q with
        sorted := rest
        chunkMap := q.chunkMap.erase (cum + 1#32)
        nBytes := q.nBytes - c.userData.length })) ∨
    (cum + 1#32 ∉ q.sorted ∧ q.pop (cum + 1#32) = (none, q)) := by
  have hone : ahead cum (cum + 1#32) = 1 := ahead_add cum (by omega)
  by_cases hhead : q.sorted.head? = some (cum + 1#32)
  · left
    obtain ⟨rest, hsorted⟩ : ∃ rest, q.sorted = (cum + 1#32) :: rest := by
      cases hl : q.sorted with
      | nil => rw [hl] at hhead; cases hhead
      | cons x rest =>
        rw [hl] at hhead
        exact ⟨rest, by rw [Option.some.inj hhead]⟩
    have hmem : cum + 1#32 ∈ q.chunkMap := (h.mem_iff _).mpr (hsorted ▸ List.mem_cons_self)
    obtain ⟨c, hc⟩ := Table.mem_iff_lookup.mp hmem
    exact ⟨c, rest, hsorted, hc, pop_eq hsorted hc⟩
  · right
    refine ⟨fun hmem => ?_, if_neg hhead⟩
    cases hl : q.sorted with
    | nil => rw [hl] at hmem; cases hmem
    | cons x rest =>
      rw [hl] at hmem hhead
      have hinc := h.increasing
      rw [hl] at hinc
      rcases List.mem_cons.mp hmem with heq | hrest
      · exact hhead (by rw [heq]; rfl)
      · have hlt := (List.pairwise_cons.mp hinc).1 _ hrest
        have hpos := (h.near x (hl ▸ List.mem_cons_self)).1
        omega

theorem pop_succ (h : Received cum q) : Received (cum + 1#32) (q.pop (cum + 1#32)).2 := by
  rcases h.pop_cases with ⟨c, rest, hsorted, -, hpop⟩ | ⟨hnot, hpop⟩
  · have hinc := h.increasing
    rw [hsorted] at hinc
    obtain ⟨hfirst, hrest⟩ := List.pairwise_cons.mp hinc
    have hnot : cum + 1#32 ∉ rest := fun hmem => Nat.lt_irrefl _ (hfirst _ hmem)
    obtain ⟨hinc', hnear'⟩ := shift hrest
      (fun tsn htsn => h.near tsn (hsorted ▸ List.mem_cons_of_mem _ htsn)) hnot
    rw [hpop]
    refine ⟨hinc', hnear', fun tsn => ?_⟩
    rw [AList.mem_erase, h.mem_iff, hsorted, List.mem_cons]
    constructor
    · rintro ⟨hne, heq | hmem⟩
      · exact absurd heq hne
      · exact hmem
    · intro hmem
      exact ⟨fun heq => hnot (heq ▸ hmem), Or.inr hmem⟩
  · obtain ⟨hinc', hnear'⟩ := shift h.increasing h.near hnot
    rw [hpop]
    exact ⟨hinc', hnear', h.mem_iff⟩

end Received
end PayloadQueue

namespace Association

open PayloadQueue

/-- The `Connected` events in the queue. -/
def connections (a : Association) : List Event := a.events.filter fun e => e = .connected

theorem connections_pushEvent (a : Association) {e : Event} (h : e ≠ .connected) :
    (a.pushEvent e).connections = a.connections := by
  rw [connections, connections, pushEvent, List.filter_append, List.filter_singleton, decide_eq_false h]
  exact List.append_nil _

/-- The exit point of fast recovery, while it lasts. -/
def recovery (a : Association) : Option Tsn := if a.inFastRecovery then some a.fastRecoverExitPoint else none

/-- Every reset request that waits is kept under its own number. -/
def RequestsKeyed (a : Association) : Prop :=
  ∀ n p, a.reconfigRequests.lookup n = some p → p.reconfigRequestSequenceNumber = n

theorem RequestsKeyed.erase {a : Association} (h : a.RequestsKeyed) (n : BitVec 32) :
    RequestsKeyed { a with reconfigRequests := a.reconfigRequests.erase n } := by
  intro n' p hp
  by_cases heq : n' = n
  · rw [heq, AList.lookup_erase] at hp
    cases hp
  · rw [AList.lookup_erase_ne heq] at hp
    exact h n' p hp

theorem RequestsKeyed.insert {a : Association} (h : a.RequestsKeyed) (p : ParamOutgoingResetRequest) :
    RequestsKeyed { a with reconfigRequests := a.reconfigRequests.insert p.reconfigRequestSequenceNumber p } := by
  intro n p' hp'
  by_cases heq : n = p.reconfigRequestSequenceNumber
  · rw [heq, AList.lookup_insert] at hp'
    rw [← Option.some.inj hp', heq]
  · rw [AList.lookup_insert_ne heq] at hp'
    exact h n p' hp'

/-! ## What relates the states around a reset

A preorder that the single updates respect relates the associations around the functions made of them. -/

/-- A preorder that stream resets and the advance of the cumulative TSN respect. -/
structure RespectsResets (R : Association → Association → Prop) : Prop where
  refl : ∀ a, R a a
  trans : ∀ {a b c}, R a b → R b c → R a c
  unregistered : ∀ a id, R a (a.unregisterStream id .reset)
  requested : ∀ (a : Association) (p : ParamOutgoingResetRequest),
    R a { a with reconfigRequests := a.reconfigRequests.insert p.reconfigRequestSequenceNumber p }
  performed : ∀ (a : Association) n, R a { a with reconfigRequests := a.reconfigRequests.erase n }
  advanced : ∀ a : Association, R a { a with
    payloadQueue := (a.payloadQueue.pop (a.peerLastTsn + 1#32)).2, peerLastTsn := a.peerLastTsn + 1#32 }
  stopped : ∀ (a : Association) q, a.payloadQueue.pop (a.peerLastTsn + 1#32) = (none, q) →
    R a { a with payloadQueue := q }
  replied : ∀ (a : Association) rsn reconfigs timers queue delayed immediate ack, R a { a with
    myNextRsn := rsn, reconfigs := reconfigs, timers := timers, controlQueue := queue,
    delayedAckTriggered := delayed, immediateAckTriggered := immediate, ackState := ack }

namespace RespectsResets

variable {R : Association → Association → Prop} (hR : RespectsResets R)
include hR

theorem resetStreams (respond : Bool) (draining ids : List StreamId) (a : Association) :
    R a (resetStreams respond draining ids a).2 := by
  induction ids generalizing a with
  | nil => exact hR.refl a
  | cons id ids ih =>
    unfold Association.resetStreams
    split
    · exact ih a
    split
    · exact hR.trans (hR.unregistered a id) (ih _)
    · exact ih a

variable (a : Association)

theorem performReset (p : ParamOutgoingResetRequest) (respond : Bool) : R a (a.performReset p respond).2 := by
  unfold Association.performReset
  split
  · have hreset := hR.resetStreams respond (a.streamsAwaitingDrain p) p.streamIdentifiers a
    dsimp only
    split
    · exact hR.trans hreset (hR.performed _ _)
    · exact hreset
  · exact hR.refl a

theorem resetStreamsIfAny (p : ParamOutgoingResetRequest) (respond : Bool) :
    R a (a.resetStreamsIfAny p respond).2 := by
  unfold Association.resetStreamsIfAny
  have hperform := hR.performReset a p respond
  dsimp only
  split
  · exact hperform
  · exact hR.trans hperform (hR.replied _ _ _ _ _ _ _ _)

theorem resetAll (respond : Bool) (ps : List ParamOutgoingResetRequest) (a : Association) :
    R a (resetAll respond ps a).2 := by
  induction ps generalizing a with
  | nil => exact hR.refl a
  | cons p ps ih => exact hR.trans (hR.resetStreamsIfAny a p respond) (ih _)

theorem retryDeferredResets (id : StreamId) : R a (a.retryDeferredResets id) :=
  hR.trans (hR.resetAll true _ a) (hR.replied _ _ _ _ _ _ _ _)

theorem handleReconfigParam (param : Option ReconfigParam) : R a (a.handleReconfigParam param).2 := by
  unfold Association.handleReconfigParam
  split
  · exact hR.refl a
  case _ p => exact hR.trans (hR.requested a p) (hR.resetStreamsIfAny _ p true)
  · dsimp only
    split <;> exact hR.replied a _ _ _ _ _ _ _
  · exact hR.refl a

theorem handleReconfig (c : ChunkReconfig) : R a (a.handleReconfig c).2 := by
  unfold Association.handleReconfig
  have hA := hR.handleReconfigParam a c.paramA
  split
  case _ heq =>
    rw [heq] at hA
    exact hA
  case _ a₁ heq =>
    rw [heq] at hA
    have hB := hR.handleReconfigParam a₁ c.paramB
    split
    case _ heq' =>
      rw [heq'] at hB
      exact hR.trans hA hB
    case _ heq' =>
      rw [heq'] at hB
      exact hR.trans hA hB

theorem advanceRound (s : List Packet × Association) : R s.2 (advanceRound s).value.2 := by
  have hadvanced := hR.advanced s.2
  unfold Association.advanceRound
  split
  case _ heq =>
    rw [heq] at hadvanced
    exact hR.trans hadvanced (hR.resetAll false _ _)
  case _ q heq => exact hR.stopped s.2 q heq

theorem handlePeerLastTsnAndAcknowledgement (sackImmediately : Bool) :
    R a (a.handlePeerLastTsnAndAcknowledgement sackImmediately).2 := by
  have hloop : R a a.advancePeerLastTsn.2 :=
    loop_rel (R := fun s s' : List Packet × Association => R s.2 s'.2) (fun s => hR.refl s.2)
      hR.trans hR.advanceRound _ ([], a)
  refine hR.trans hloop ?_
  unfold Association.handlePeerLastTsnAndAcknowledgement Association.triggerAck
  dsimp only
  split
  · split <;> exact hR.replied _ _ _ _ _ _ _ _
  · exact hR.replied _ _ _ _ _ _ _ _

theorem forwardPeerLastTsn (newCumulativeTsn : Tsn) : R a (a.forwardPeerLastTsn newCumulativeTsn) := by
  apply loop_rel hR.refl hR.trans
  intro a
  split
  · exact hR.advanced a
  · exact hR.refl a

end RespectsResets

/-- A preorder that the receiving side respects as far as it creates no stream: events are noted, and streams
    change, but not their sequence numbers. -/
structure RespectsReceipt (R : Association → Association → Prop) : Prop extends RespectsResets R where
  noted : ∀ (a : Association) {e : Event}, e ≠ .connected → R a (a.pushEvent e)
  replaced : ∀ (a : Association) {id : StreamId} {s t : StreamState}, a.streams.lookup id = some s →
    t.sequenceNumber = s.sequenceNumber → R a { a with streams := Table.adjust id (fun _ => t) a.streams }
  updated : ∀ (a : Association) {f : StreamId → StreamState → StreamState},
    (∀ id s, (f id s).sequenceNumber = s.sequenceNumber) → R a { a with streams := Table.update f a.streams }

namespace RespectsReceipt

variable {R : Association → Association → Prop} (hR : RespectsReceipt R)
include hR

variable (a : Association)

theorem deliver (d : ChunkPayloadData) : R a (a.deliver d) := by
  unfold Association.deliver
  split
  case _ s hs =>
    have hnoted := hR.trans (hR.replaced a (t := (s.handleData d).2) hs rfl)
      (hR.noted _ (e := .datagramReceived) nofun)
    dsimp only
    split
    · exact hR.trans hnoted (hR.noted _ nofun)
    · exact hnoted
  · exact hR.refl a

theorem noteReadable (s : StreamState) : R a (a.noteReadable s) := by
  unfold Association.noteReadable
  split
  · exact hR.noted a nofun
  · exact hR.refl a

theorem forwardOrdered (forwarded : StreamId × Ssn) : R a (a.forwardOrdered forwarded) := by
  unfold Association.forwardOrdered
  split
  case _ s hs =>
    refine hR.trans (hR.replaced a hs ?_) (hR.noteReadable _ _)
    unfold StreamState.handleForwardTsnForOrdered
    split <;> rfl
  · exact hR.refl a

theorem forwardUnordered (newCumulativeTsn : Tsn) : R a (a.forwardUnordered newCumulativeTsn) := by
  refine hR.trans (hR.updated a fun id s => ?_) (foldl_rel hR.refl hR.trans hR.noteReadable _ _)
  unfold StreamState.handleForwardTsnForUnordered
  split <;> rfl

theorem handleForwardTsn (c : ChunkForwardTsn) : R a (a.handleForwardTsn c).2 := by
  unfold Association.handleForwardTsn
  split
  · exact hR.refl a
  split
  · exact hR.replied a _ _ _ _ _ _ _
  · have hforward := hR.forwardPeerLastTsn a c.newCumulativeTsn
    have hordered := foldl_rel hR.refl hR.trans hR.forwardOrdered c.streams
      (a.forwardPeerLastTsn c.newCumulativeTsn)
    exact hR.trans (hR.trans hforward hordered)
      (hR.trans (hR.forwardUnordered _ _) (hR.handlePeerLastTsnAndAcknowledgement _ _))

theorem readSctp (id : StreamId) : R a (a.readSctp id).2 := by
  unfold Association.readSctp
  split
  case _ s hs =>
    split
    · have hread := hR.replaced a (t := { s with reassemblyQueue := s.reassemblyQueue.read.2 }) hs rfl
      dsimp only
      split
      · exact hread
      · exact hR.trans hread (hR.retryDeferredResets _ id)
    · exact hR.refl a
  · exact hR.refl a

end RespectsReceipt

/-! ## Steps of the receiving side -/

structure ReceiverStep (a a' : Association) : Prop where
  inflight_eq : a'.inflightQueue = a.inflightQueue
  next_eq : a'.myNextTsn = a.myNextTsn
  cum_eq : a'.cumulativeTsnAckPoint = a.cumulativeTsnAckPoint
  connections_eq : a'.connections = a.connections
  closed : a.state = .closed → a'.state = .closed
  received : Received a.peerLastTsn a.payloadQueue → Received a'.peerLastTsn a'.payloadQueue
  recovery_eq : a'.recovery = a.recovery
  keyed : a.RequestsKeyed → a'.RequestsKeyed

namespace ReceiverStep

variable {a a' b c : Association}

theorem refl (a : Association) : ReceiverStep a a := ⟨rfl, rfl, rfl, rfl, id, id, rfl, id⟩

theorem trans (h : ReceiverStep a b) (h' : ReceiverStep b c) : ReceiverStep a c where
  inflight_eq := h'.inflight_eq.trans h.inflight_eq
  next_eq := h'.next_eq.trans h.next_eq
  cum_eq := h'.cum_eq.trans h.cum_eq
  connections_eq := h'.connections_eq.trans h.connections_eq
  closed := h'.closed ∘ h.closed
  received := h'.received ∘ h.received
  recovery_eq := h'.recovery_eq.trans h.recovery_eq
  keyed := h'.keyed ∘ h.keyed

theorem unregisterStream (a : Association) (id : StreamId) (reason : AssociationError) :
    ReceiverStep a (a.unregisterStream id reason) := by
  unfold Association.unregisterStream
  split
  · exact ⟨rfl, rfl, rfl, connections_pushEvent _ nofun, fun h => h, fun h => h, rfl, fun h => h⟩
  · exact refl a

theorem respects : RespectsReceipt ReceiverStep where
  refl := refl
  trans := trans
  unregistered a id := unregisterStream a id .reset
  requested _ p := ⟨rfl, rfl, rfl, rfl, id, id, rfl, fun h => h.insert p⟩
  performed _ n := ⟨rfl, rfl, rfl, rfl, id, id, rfl, fun h => h.erase n⟩
  advanced _ := ⟨rfl, rfl, rfl, rfl, id, fun h => h.pop_succ, rfl, id⟩
  stopped a q heq := by
    refine ⟨rfl, rfl, rfl, rfl, id, fun h => ?_, rfl, id⟩
    rcases h.pop_cases with ⟨c, rest, -, -, hpop⟩ | ⟨-, hpop⟩
    · cases hpop.symm.trans heq
    · cases hpop.symm.trans heq
      exact h
  replied _ _ _ _ _ _ _ _ := ⟨rfl, rfl, rfl, rfl, id, id, rfl, id⟩
  noted _ _ he := ⟨rfl, rfl, rfl, connections_pushEvent _ he, id, id, rfl, id⟩
  replaced _ _ _ _ _ _ := ⟨rfl, rfl, rfl, rfl, id, id, rfl, id⟩
  updated _ _ _ := ⟨rfl, rfl, rfl, rfl, id, id, rfl, id⟩

theorem getOrCreateStream (a : Association) (id : StreamId) : ReceiverStep a (a.getOrCreateStream id) := by
  unfold Association.getOrCreateStream
  split
  · exact refl a
  · exact ⟨rfl, rfl, rfl, connections_pushEvent _ nofun, fun h => h, fun h => h, rfl, fun h => h⟩

theorem handleData (a : Association) (d : ChunkPayloadData) : ReceiverStep a (a.handleData d).2 := by
  unfold Association.handleData
  dsimp only
  refine trans ?_ (respects.handlePeerLastTsnAndAcknowledgement _ _)
  split
  · have hstream := getOrCreateStream a d.streamIdentifier
    generalize a.getOrCreateStream d.streamIdentifier = a₁ at hstream
    refine hstream.trans ?_
    split
    · refine trans (b := { a₁ with payloadQueue := (a₁.payloadQueue.push d a₁.peerLastTsn).2 }) ?_
        (respects.deliver _ d)
      exact ⟨rfl, rfl, rfl, rfl, id, fun h => h.push d, rfl, id⟩
    · exact refl a₁
  · exact refl a

end ReceiverStep
end Association
end Rtc.Sctp
