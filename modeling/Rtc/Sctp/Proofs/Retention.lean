import Rtc.Lib.Runs
import Rtc.Sctp.Proofs.Reassembly
import Rtc.Sctp.Proofs.InFlight

/-!
# What is acknowledged is kept until it is read

`handle_data` decides by TSN, window and gap whether it takes a chunk, and acknowledges those it takes. The reassembly
queue then drops the chunk if its SSN looks old. The two decisions agree as long as no SSN is half the number space
away from the oldest unread one.
-/

namespace Rtc.Sctp
open Shared Serial Loop Runs

/-- The calls and chunks that change what the receiving side holds. -/
inductive ReceiverOp where
  | openStream (id : StreamId)
  | data (d : ChunkPayloadData)
  | forwardTsn (c : ChunkForwardTsn)
  | reconfig (c : ChunkReconfig)
  | read (id : StreamId)

def ReceiverOp.isDataOrRead : ReceiverOp → Bool
  | .data _ | .read _ => true
  | .openStream _ | .forwardTsn _ | .reconfig _ => false

/-- A chunk that a queue keeps in its place: it is unordered, or its SSN is not behind the next one and less than
    half the number space ahead of the oldest, and no unread chunk of its set has its TSN. -/
def ReassemblyQueue.Fits (q : ReassemblyQueue) (d : ChunkPayloadData) : Prop :=
  d.unordered = true ∨
    (sna16lt d.streamSequenceNumber q.nextSsn = false ∧ ahead q.oldest d.streamSequenceNumber < 2 ^ 15 ∧
      ∀ s ∈ q.ordered, s.ssn = d.streamSequenceNumber → ∀ e ∈ s.chunks, e.tsn ≠ d.tsn)

namespace ReassemblyQueue

instance (q : ReassemblyQueue) (d : ChunkPayloadData) : Decidable (q.Fits d) :=
  inferInstanceAs (Decidable (_ ∨ _))

/-- The queue of stream `id`, with its ordered sets in one half of the number space. -/
structure Orderly (id : StreamId) (q : ReassemblyQueue) : Prop where
  si_eq : q.si = id
  window : ∃ base, InWindow base q

namespace Orderly

variable {id : StreamId} {q : ReassemblyQueue}

theorem new (id : StreamId) : Orderly id (.new id) :=
  ⟨rfl, 0, fun _ hs => (nomatch hs), .nil, (ahead_self (0 : Ssn)).trans_lt (by decide), fun _ hs => (nomatch hs)⟩

variable (h : Orderly id q)
include h

theorem from_oldest : InWindow q.oldest q := by
  obtain ⟨base, hbase⟩ := h.window
  exact hbase.from_oldest

theorem push {d : ChunkPayloadData} (hid : d.streamIdentifier = id) (hfits : q.Fits d) :
    Orderly id (q.push d).2 ∧ (q.push d).2.held.Perm (d :: q.held) := by
  unfold ReassemblyQueue.push
  rw [if_neg (by rw [h.si_eq, hid]; exact not_not_intro rfl)]
  cases hunordered : d.unordered with
  | true =>
    obtain ⟨hsi, hnext, hordered, hheld⟩ := q.pushUnordered_eq d
    obtain ⟨base, hbase⟩ := h.window
    exact ⟨⟨hsi.trans h.si_eq, base, hbase.of_eq hordered hnext⟩, hheld⟩
  | false =>
    obtain ⟨hnext, hnear, hfresh⟩ := hfits.resolve_left (by rw [hunordered]; exact Bool.false_ne_true)
    have hsi : (q.pushOrdered d).2.si = q.si := by
      obtain ⟨before, after, set, arrival, heq, -⟩ := pushOrdered_eq hnext
      rw [heq]
    exact ⟨⟨hsi.trans h.si_eq, q.oldest, h.from_oldest.pushOrdered hnear hnext⟩,
      held_pushOrdered hnext hfresh⟩

theorem read {s : Option Chunks} {q' : ReassemblyQueue} (hread : q.read = (s, q')) : Orderly id q' := by
  obtain ⟨base, hbase⟩ := h.window
  exact ⟨(held_read hread).1.trans h.si_eq, hbase.read hread⟩

theorem forwardTsnForOrdered {lastSsn : Ssn}
    (hlast : sna16lte q.nextSsn lastSsn = true → ahead q.oldest lastSsn + 1 < 2 ^ 15) :
    Orderly id (q.forwardTsnForOrdered lastSsn) :=
  ⟨h.si_eq, q.oldest, h.from_oldest.forwardTsnForOrdered hlast⟩

theorem forwardTsnForUnordered (newCumulativeTsn : Tsn) :
    Orderly id (q.forwardTsnForUnordered newCumulativeTsn) := by
  have hfold : ∀ (l : List ChunkPayloadData) (q : ReassemblyQueue),
      (l.foldl (fun q c => q.subtractNumBytes c.userData.length) q).si = q.si ∧
      (l.foldl (fun q c => q.subtractNumBytes c.userData.length) q).ordered = q.ordered ∧
      (l.foldl (fun q c => q.subtractNumBytes c.userData.length) q).nextSsn = q.nextSsn := by
    intro l
    induction l with
    | nil => exact fun q => ⟨rfl, rfl, rfl⟩
    | cons c l ih => exact fun q => ih (q.subtractNumBytes c.userData.length)
  obtain ⟨hsi, hordered, hnext⟩ := hfold
    (q.unorderedChunks.takeWhile fun c => !sna32gt c.tsn newCumulativeTsn) q
  obtain ⟨base, hbase⟩ := h.window
  exact ⟨hsi.trans h.si_eq, base, hbase.of_eq hordered hnext⟩

end Orderly
end ReassemblyQueue

namespace Association

def receive (a : Association) : ReceiverOp → Association
  | .openStream id => (a.openStream id).2
  | .data d => (a.handleData d).2
  | .forwardTsn c => (a.handleForwardTsn c).2
  | .reconfig c => (a.handleReconfig c).2
  | .read id => (a.readSctp id).2

/-- `handle_data` puts the chunk in `payload_queue`. -/
def accepts (a : Association) (d : ChunkPayloadData) : Bool :=
  a.payloadQueue.canPush d a.peerLastTsn && (a.getOrCreateStream d.streamIdentifier).admits d

/-- The chunks of a stream that `handle_data` accepts in a run. -/
def accepted (id : StreamId) : Association → List ReceiverOp → List ChunkPayloadData
  | _, [] => []
  | a, op :: ops =>
    (match op with
      | .data d => if d.streamIdentifier = id && a.accepts d then [d] else []
      | _ => [])
    ++ accepted id (a.receive op) ops

/-- The chunks of the messages that reads of a stream return in a run. -/
def returned (id : StreamId) : Association → List ReceiverOp → List ChunkPayloadData
  | _, [] => []
  | a, op :: ops =>
    (match op with
      | .read id' =>
        match (a.readSctp id').1 with
        | .ok (some s) => if id' = id then s.chunks else []
        | _ => []
      | _ => [])
    ++ returned id (a.receive op) ops

/-- A stream entry of a FORWARD TSN that does not skip to the other half of the number space. -/
def ForwardFits (a : Association) (forwarded : StreamId × Ssn) : Prop :=
  sna16lte (a.queueOf forwarded.1).nextSsn forwarded.2 = true →
    ahead (a.queueOf forwarded.1).oldest forwarded.2 + 1 < 2 ^ 15

/-- Every chunk accepted finds its place, and every FORWARD TSN stays near. -/
def Fits (a : Association) : ReceiverOp → Prop
  | .data d => a.accepts d = true → (a.queueOf d.streamIdentifier).Fits d
  | .forwardTsn c =>
    Meets forwardOrdered ForwardFits (a.forwardPeerLastTsn c.newCumulativeTsn) c.streams
  | .openStream _ | .reconfig _ | .read _ => True

/-! ## The queues after each call -/

theorem queueOf_openStream (a : Association) (id id' : StreamId) :
    (a.openStream id).2.queueOf id' = a.queueOf id' := by
  unfold openStream
  split
  · rfl
  · rename_i hnone
    exact queueOf_createStream (Option.not_isSome_iff_eq_none.mp hnone) false id'

theorem queueOf_getOrCreateStream (a : Association) (id id' : StreamId) :
    (a.getOrCreateStream id).queueOf id' = a.queueOf id' := by
  unfold getOrCreateStream
  split
  · rfl
  · rename_i hnone
    exact queueOf_createStream (Option.not_isSome_iff_eq_none.mp hnone) true id'

theorem QueuesKept.respects : RespectsResets QueuesKept where
  refl := refl
  trans := trans
  unregistered a id := unregisterStream a id .reset
  requested _ _ := of_streams rfl
  performed _ _ := of_streams rfl
  advanced _ := of_streams rfl
  stopped _ _ _ := of_streams rfl
  replied _ _ _ _ _ _ _ _ := of_streams rfl

theorem streams_triggerAck (a : Association) (sackImmediately : Bool) :
    (a.triggerAck sackImmediately).streams = a.streams ∧
      (a.triggerAck sackImmediately).reconfigRequests = a.reconfigRequests := by
  unfold triggerAck
  dsimp only
  split
  · split <;> exact ⟨rfl, rfl⟩
  · exact ⟨rfl, rfl⟩

variable {a : Association}

/-- With no reset request waiting, the advance of the cumulative TSN leaves the streams alone. -/
theorem streams_handlePeerLastTsnAndAcknowledgement (h : a.reconfigRequests = ∅) (sackImmediately : Bool) :
    (a.handlePeerLastTsnAndAcknowledgement sackImmediately).2.streams = a.streams ∧
      (a.handlePeerLastTsnAndAcknowledgement sackImmediately).2.reconfigRequests = ∅ := by
  have hloop : a.advancePeerLastTsn.2.streams = a.streams ∧ a.advancePeerLastTsn.2.reconfigRequests = ∅ := by
    refine loop_inv (I := fun s : List Packet × Association =>
      s.2.streams = a.streams ∧ s.2.reconfigRequests = ∅) (fun s hs => ?_) ⟨rfl, h⟩ _
    unfold advanceRound
    split
    · have hnone : Table.values s.2.reconfigRequests = [] := by
        rw [hs.2]
        rfl
      dsimp only
      rw [hnone]
      exact hs
    · exact hs
  have hack := streams_triggerAck a.advancePeerLastTsn.2 sackImmediately
  exact ⟨hack.1.trans hloop.1, hack.2.trans hloop.2⟩

/-! ## DATA -/

theorem queueOf_deliver {d : ChunkPayloadData} {s : StreamState}
    (hs : a.streams.lookup d.streamIdentifier = some s) (id : StreamId) :
    (a.deliver d).queueOf id
      = if id = d.streamIdentifier then ((a.queueOf id).push d).2 else a.queueOf id := by
  have hq : a.queueOf d.streamIdentifier = s.reassemblyQueue := by
    unfold queueOf
    rw [hs]
    rfl
  have hstreams : (a.deliver d).streams = Table.adjust d.streamIdentifier
      (fun _ => { s with reassemblyQueue := (s.reassemblyQueue.push d).2 }) a.streams := by
    unfold deliver
    rw [hs]
    dsimp only [StreamState.handleData]
    split <;> rfl
  rw [queueOf_adjust _ hs hstreams]
  split
  case isTrue heq => rw [heq, hq]
  · rfl

theorem handleData_eq (a : Association) (d : ChunkPayloadData) :
    ∃ b : Association, a.handleData d = b.handlePeerLastTsnAndAcknowledgement d.immediateSack ∧
      b.reconfigRequests = a.reconfigRequests ∧
      ∀ id, b.queueOf id = if d.streamIdentifier = id ∧ a.accepts d = true then ((a.queueOf id).push d).2
        else a.queueOf id := by
  unfold handleData accepts
  cases hpush : a.payloadQueue.canPush d a.peerLastTsn with
  | false => exact ⟨a, rfl, rfl, fun id => by simp⟩
  | true =>
    have hqueue := queueOf_getOrCreateStream a d.streamIdentifier
    obtain ⟨s, hs⟩ : ∃ s, (a.getOrCreateStream d.streamIdentifier).streams.lookup d.streamIdentifier
        = some s := by
      unfold getOrCreateStream
      split
      · rename_i hsome
        exact Option.isSome_iff_exists.mp hsome
      · exact ⟨_, AList.lookup_insert _⟩
    have hrequests : (a.getOrCreateStream d.streamIdentifier).reconfigRequests = a.reconfigRequests := by
      unfold getOrCreateStream
      split <;> rfl
    generalize a.getOrCreateStream d.streamIdentifier = a₁ at hqueue hs hrequests
    cases hadmits : a₁.admits d with
    | false => exact ⟨a₁, by simp [hadmits], hrequests, fun id => by simp [hqueue]⟩
    | true =>
      refine ⟨{ a₁ with payloadQueue := (a₁.payloadQueue.push d a₁.peerLastTsn).2 }.deliver d,
        by simp [hadmits], ?_, fun id => ?_⟩
      · rw [← hrequests]
        unfold deliver
        split
        · dsimp only
          split <;> rfl
        · rfl
      · have hdeliver := queueOf_deliver
          (a := { a₁ with payloadQueue := (a₁.payloadQueue.push d a₁.peerLastTsn).2 }) hs id
        have hsame : ({ a₁ with payloadQueue := (a₁.payloadQueue.push d a₁.peerLastTsn).2 } :
            Association).queueOf id = a.queueOf id := hqueue id
        rw [hdeliver, hsame]
        simp [eq_comm]

/-! ## Reads -/

theorem readSctp_cases (a : Association) (id : StreamId) :
    (∃ e, a.readSctp id = (.error e, a)) ∨
    ∃ (s : Option Chunks) (q : ReassemblyQueue) (b : Association), (a.queueOf id).read = (s, q) ∧
      b.reconfigRequests = a.reconfigRequests ∧
      (∀ id', b.queueOf id' = if id' = id then q else a.queueOf id') ∧
      (a.readSctp id = (.ok s, b) ∨ a.readSctp id = (.ok s, b.retryDeferredResets id)) := by
  unfold readSctp
  cases hs : a.streams.lookup id with
  | none => exact .inl ⟨_, rfl⟩
  | some s =>
    dsimp only
    split
    · right
      have hq : a.queueOf id = s.reassemblyQueue := by
        unfold queueOf
        rw [hs]
        rfl
      refine ⟨s.reassemblyQueue.read.1, s.reassemblyQueue.read.2, { a with
          streams := Table.adjust id (fun _ => { s with reassemblyQueue := s.reassemblyQueue.read.2 })
            a.streams }, by rw [hq], rfl, queueOf_adjust _ hs rfl, ?_⟩
      cases s.reassemblyQueue.read.2.isReadable with
      | true => exact .inl rfl
      | false => exact .inr rfl
    · exact .inl ⟨_, rfl⟩

theorem retryDeferredResets_of_empty (h : a.reconfigRequests = ∅) (id : StreamId) :
    (a.retryDeferredResets id).streams = a.streams ∧ (a.retryDeferredResets id).reconfigRequests = ∅ := by
  have hnone : (Table.values a.reconfigRequests).filter (fun p => p.streamIdentifiers.contains id) = [] := by
    rw [h]
    rfl
  unfold retryDeferredResets
  rw [hnone]
  exact ⟨rfl, h⟩

/-! ## FORWARD TSN -/

theorem queueOf_forwardOrdered (a : Association) (forwarded : StreamId × Ssn) (id : StreamId) :
    (a.forwardOrdered forwarded).queueOf id = a.queueOf id ∨
      id = forwarded.1 ∧
        (a.forwardOrdered forwarded).queueOf id = (a.queueOf id).forwardTsnForOrdered forwarded.2 := by
  unfold forwardOrdered
  cases hs : a.streams.lookup forwarded.1 with
  | none => exact .inl rfl
  | some s =>
    have hnote : ∀ (b : Association) (t : StreamState), (b.noteReadable t).queueOf id = b.queueOf id := by
      intro b t
      unfold noteReadable
      split <;> rfl
    rw [hnote]
    unfold queueOf
    rw [Table.lookup_adjust]
    by_cases heq : id = forwarded.1
    · rw [if_pos heq, heq, hs]
      unfold StreamState.handleForwardTsnForOrdered
      split
      · exact .inl rfl
      · exact .inr ⟨rfl, rfl⟩
    · rw [if_neg heq]
      exact .inl rfl

theorem queueOf_forwardUnordered (a : Association) (newCumulativeTsn : Tsn) (id : StreamId) :
    (a.forwardUnordered newCumulativeTsn).queueOf id = a.queueOf id ∨
      (a.forwardUnordered newCumulativeTsn).queueOf id
        = (a.queueOf id).forwardTsnForUnordered newCumulativeTsn := by
  have hfold : ∀ (l : List StreamState) (b : Association), (l.foldl noteReadable b).streams = b.streams := by
    intro l b
    refine foldl_rel (R := fun b b' : Association => b'.streams = b.streams) (fun _ => rfl)
      (fun h h' => h'.trans h) (fun b t => ?_) l b
    unfold noteReadable
    split <;> rfl
  unfold forwardUnordered
  rw [queueOf_of_streams (hfold _ _)]
  unfold queueOf
  rw [Table.lookup_update]
  cases a.streams.lookup id with
  | none => exact .inl rfl
  | some s =>
    dsimp only [Option.map_some, Option.getD_some]
    unfold StreamState.handleForwardTsnForUnordered
    split
    · exact .inl rfl
    · exact .inr rfl

/-! ## Runs -/

def Orderly (a : Association) : Prop := ∀ id, (a.queueOf id).Orderly id

namespace Orderly

variable {a a' : Association}

theorem start (config : AssociationConfig) (tsn peerTsn : Tsn) (peerRwnd : Nat) (forwardTsn : Bool) :
    Orderly (start config tsn peerTsn peerRwnd forwardTsn) :=
  fun id => .new id

variable (h : Orderly a)
include h

theorem of_kept (hkept : QueuesKept a a') : Orderly a' := by
  intro id
  rcases hkept id with heq | heq
  · rw [heq]
    exact h id
  · rw [heq]
    exact .new id

theorem handleData {d : ChunkPayloadData} (hfits : Fits a (.data d)) : Orderly (a.handleData d).2 := by
  obtain ⟨b, heq, -, hqueue⟩ := handleData_eq a d
  rw [heq]
  refine of_kept (fun id => ?_) (QueuesKept.respects.handlePeerLastTsnAndAcknowledgement b _)
  rw [hqueue]
  split
  case isTrue hd =>
    obtain ⟨rfl, haccepts⟩ := hd
    exact ((h _).push rfl (hfits haccepts)).1
  · exact h id

theorem handleForwardTsn {c : ChunkForwardTsn} (hfits : Fits a (.forwardTsn c)) :
    Orderly (a.handleForwardTsn c).2 := by
  have hmove : Orderly (a.forwardPeerLastTsn c.newCumulativeTsn) := by
    refine h.of_kept (loop_rel QueuesKept.refl QueuesKept.trans (fun a => ?_) _ a)
    split <;> exact .of_streams rfl
  have hordered : Orderly (c.streams.foldl forwardOrdered (a.forwardPeerLastTsn c.newCumulativeTsn)) := by
    refine inv_run forwardOrdered (fun b forwarded hb hfits id => ?_) hmove hfits
    rcases queueOf_forwardOrdered b forwarded id with heq | ⟨rfl, heq⟩
    · rw [heq]
      exact hb id
    · rw [heq]
      exact (hb _).forwardTsnForOrdered hfits
  unfold Association.handleForwardTsn
  split
  · exact h
  split
  · exact h.of_kept (.of_streams rfl)
  · refine of_kept (fun id => ?_) (QueuesKept.respects.handlePeerLastTsnAndAcknowledgement _ _)
    rcases queueOf_forwardUnordered _ c.newCumulativeTsn id with heq | heq
    · rw [heq]
      exact hordered id
    · rw [heq]
      exact (hordered id).forwardTsnForUnordered _

theorem readSctp (id : StreamId) : Orderly (a.readSctp id).2 := by
  rcases a.readSctp_cases id with ⟨e, heq⟩ | ⟨s, q, b, hread, -, hqueue, heq⟩
  · rw [heq]
    exact h
  · have hb : Orderly b := by
      intro id'
      rw [hqueue]
      split
      case isTrue hid =>
        rw [hid]
        exact (h id).read hread
      · exact h id'
    rcases heq with heq | heq
    · rw [heq]
      exact hb
    · rw [heq]
      exact hb.of_kept (QueuesKept.respects.retryDeferredResets b id)

theorem receive {op : ReceiverOp} (hfits : Fits a op) : Orderly (a.receive op) := by
  cases op with
  | openStream id =>
    intro id'
    change ((a.openStream id).2.queueOf id').Orderly id'
    rw [queueOf_openStream]
    exact h id'
  | data d => exact h.handleData hfits
  | forwardTsn c => exact h.handleForwardTsn hfits
  | reconfig c => exact h.of_kept (QueuesKept.respects.handleReconfig a c)
  | read id => exact h.readSctp id

theorem isReadable {id : StreamId} {s : Chunks} (hs : s ∈ (a.queueOf id).ordered)
    (hnext : s.ssn = (a.queueOf id).nextSsn) (hcomplete : s.isComplete = true) :
    (a.queueOf id).isReadable = true :=
  (h id).from_oldest.isReadable hs hnext hcomplete

end Orderly

theorem held_receive {op : ReceiverOp} (h : Orderly a) (hfits : Fits a op)
    (hop : op.isDataOrRead = true) (hrequests : a.reconfigRequests = ∅) (id : StreamId) :
    ((a.queueOf id).held ++ accepted id a [op]).Perm
        (returned id a [op] ++ ((a.receive op).queueOf id).held) ∧
      (a.receive op).reconfigRequests = ∅ := by
  cases op with
  | openStream id => cases hop
  | forwardTsn c => cases hop
  | reconfig c => cases hop
  | data d =>
    obtain ⟨b, heq, hb, hqueue⟩ := handleData_eq a d
    have hstreams := streams_handlePeerLastTsnAndAcknowledgement (hb.trans hrequests) d.immediateSack
    rw [← heq] at hstreams
    refine ⟨?_, hstreams.2⟩
    have hafter : (a.receive (.data d)).queueOf id = b.queueOf id := queueOf_of_streams hstreams.1 id
    rw [hafter, hqueue]
    dsimp only [accepted, returned]
    by_cases hd : d.streamIdentifier = id ∧ a.accepts d = true
    · rw [if_pos hd, if_pos (by simp [hd])]
      obtain ⟨rfl, haccepts⟩ := hd
      exact (List.perm_append_singleton _ _).trans ((h _).push rfl (hfits haccepts)).2.symm
    · rw [if_neg hd, if_neg (by simpa using hd)]
      simp
  | read id' =>
    rcases a.readSctp_cases id' with ⟨e, heq⟩ | ⟨s, q, b, hread, hb, hqueue, heq⟩
    · have hafter : a.receive (.read id') = a := by
        change (a.readSctp id').2 = a
        rw [heq]
      rw [hafter]
      refine ⟨?_, hrequests⟩
      simp [accepted, returned, heq]
    · have hretry := retryDeferredResets_of_empty (hb.trans hrequests) id'
      obtain ⟨hresult, hstreams, hrequests'⟩ : (a.readSctp id').1 = .ok s ∧
          (a.receive (.read id')).streams = b.streams ∧ (a.receive (.read id')).reconfigRequests = ∅ := by
        change _ ∧ (a.readSctp id').2.streams = _ ∧ (a.readSctp id').2.reconfigRequests = _
        rcases heq with heq | heq
        · rw [heq]
          exact ⟨rfl, rfl, hb.trans hrequests⟩
        · rw [heq]
          exact ⟨rfl, hretry⟩
      refine ⟨?_, hrequests'⟩
      rw [queueOf_of_streams hstreams, hqueue]
      dsimp only [accepted, returned]
      rw [hresult]
      by_cases hid : id = id'
      · subst hid
        rw [if_pos rfl]
        have hheld := (ReassemblyQueue.held_read hread).2
        cases s with
        | none => simpa using hheld
        | some s => simpa using hheld
      · rw [if_neg hid]
        cases s with
        | none => simp
        | some s => simp [Ne.symm hid]

theorem accepted_cons (id : StreamId) (a : Association) (op : ReceiverOp) (ops : List ReceiverOp) :
    accepted id a (op :: ops) = accepted id a [op] ++ accepted id (a.receive op) ops := by
  simp [accepted]

theorem returned_cons (id : StreamId) (a : Association) (op : ReceiverOp) (ops : List ReceiverOp) :
    returned id a (op :: ops) = returned id a [op] ++ returned id (a.receive op) ops := by
  simp [returned]

/-- Over a run of DATA chunks and reads, what a stream held and accepted is what it returned and still holds. -/
theorem held_run {ops : List ReceiverOp} (h : Orderly a) (hfits : Meets receive Fits a ops)
    (hops : ∀ op ∈ ops, op.isDataOrRead = true) (hrequests : a.reconfigRequests = ∅) (id : StreamId) :
    ((a.queueOf id).held ++ accepted id a ops).Perm
      (returned id a ops ++ ((run receive a ops).queueOf id).held) := by
  induction ops generalizing a with
  | nil => simp [accepted, returned]
  | cons op ops ih =>
    obtain ⟨hop, hrest⟩ := List.forall_mem_cons.mp hops
    obtain ⟨hone, hrequests'⟩ := held_receive h hfits.1 hop hrequests id
    have hih := ih (h.receive hfits.1) hfits.2 hrest hrequests'
    rw [accepted_cons, returned_cons, run_cons, ← List.append_assoc, List.append_assoc (returned id a [op])]
    refine (hone.append_right _).trans ?_
    rw [List.append_assoc]
    exact hih.append_left _

/-- In every run in which each accepted ordered chunk has an SSN that is not behind the next one and less than
    half the number space ahead of the oldest, every stream holds what it accepted until a read returns it, and
    the next message can be read once it is complete. -/
theorem acknowledged_data_retained (config : AssociationConfig) (tsn peerTsn : Tsn) (peerRwnd : Nat)
    (forwardTsn : Bool) (before ops : List ReceiverOp)
    (hfits : Meets receive Fits (start config tsn peerTsn peerRwnd forwardTsn) (before ++ ops))
    (hops : ∀ op ∈ ops, op.isDataOrRead = true)
    (hrequests : (run receive (start config tsn peerTsn peerRwnd forwardTsn) before).reconfigRequests = ∅)
    (id : StreamId) :
    let a := run receive (start config tsn peerTsn peerRwnd forwardTsn) before
    ((a.queueOf id).held ++ accepted id a ops).Perm
        (returned id a ops ++ ((run receive a ops).queueOf id).held) ∧
      ∀ s ∈ ((run receive a ops).queueOf id).ordered, s.ssn = ((run receive a ops).queueOf id).nextSsn →
        s.isComplete = true → ((run receive a ops).queueOf id).isReadable = true := by
  intro a
  have hbefore : Meets receive Fits (Association.start config tsn peerTsn peerRwnd forwardTsn) before :=
    meets_of_append_left hfits
  have ha : Orderly a := inv_run receive (fun _ _ h hfits => h.receive hfits)
    (Orderly.start config tsn peerTsn peerRwnd forwardTsn) hbefore
  have hafter := meets_of_append hfits
  have hend : Orderly (run receive a ops) := inv_run receive (fun _ _ h hfits => h.receive hfits) ha hafter
  exact ⟨held_run ha hafter hops hrequests id, fun s hs => hend.isReadable hs⟩

def oneByteMessage (tsn : Tsn) (ssn : Ssn) : ChunkPayloadData where
  tsn := tsn
  streamSequenceNumber := ssn
  beginningFragment := true
  endingFragment := true
  userData := [7]

theorem acknowledged_data_retained_oneMessage :
    let a := start ⟨2 ^ 20, 2 ^ 16, 1200, fun _ => 5⟩ 1 1 (2 ^ 20) true
    let ops : List ReceiverOp := [.data (oneByteMessage 1 0), .read 0]
    Meets receive Fits a ops ∧ (accepted 0 a ops).length = 1 ∧
      ((a.queueOf 0).held ++ accepted 0 a ops).Perm
        (returned 0 a ops ++ ((run receive a ops).queueOf 0).held) := by
  intro a ops
  have hfits : Meets receive Fits a ([] ++ ops) := ⟨by unfold Fits; decide, trivial, trivial⟩
  refine ⟨hfits, by decide, ?_⟩
  exact (acknowledged_data_retained ⟨2 ^ 20, 2 ^ 16, 1200, fun _ => 5⟩ 1 1 (2 ^ 20) true [] ops hfits
    (by decide) rfl 0).1

/-- A first chunk whose SSN is more than half the number space ahead is acknowledged and dropped; two messages
    half the number space apart hide the one that is next. -/
theorem acknowledged_data_dropped :
    let a := start ⟨2 ^ 20, 2 ^ 16, 1200, fun _ => 5⟩ 1 1 (2 ^ 20) true
    let dropped := a.receive (.data (oneByteMessage 1 0x8001))
    let hidden := run receive a [.data (oneByteMessage 1 0), .data (oneByteMessage 2 0x8000)]
    (a.accepts (oneByteMessage 1 0x8001) = true ∧ dropped.peerLastTsn = 1 ∧ (dropped.queueOf 0).held = []) ∧
      ((hidden.queueOf 0).ordered.any (fun s => s.ssn == (hidden.queueOf 0).nextSsn && s.isComplete) = true ∧
        (hidden.queueOf 0).isReadable = false) := by
  decide

end Association
end Rtc.Sctp
