import Rtc.Sctp.Association.Basic

/-!
# Abandonment of messages

Partial reliability (RFC 3758) on the sending side: which messages have used up their policy, and how a whole message
is abandoned. A tail that was never sent is given TSNs and put in flight, so that the peer can be told to skip it.
-/

namespace Rtc.Sctp
open Shared Serial Loop

/-- `MessageToAbandon` (`mod.rs:128-131`): the TSNs in flight, first and last, and the position of the
    unsent tail. -/
structure MessageToAbandon where
  inflight : Option (Tsn × Tsn)
  pending : Option PendingPosition
  deriving DecidableEq

/-- The TSNs from `first` to `last`, both included. -/
def tsnRange (first last : Tsn) : List Tsn := interval first (ahead first last + 1)

namespace Association

/-! ## The advanced ack point -/

/-- `note_abandoned_for_forward_tsn` (`mod.rs:3166-3179`). -/
def noteAbandonedForForwardTsn (a : Association) (unordered : Bool) (si : StreamId) (ssn : Ssn) :
    Association :=
  if unordered then a
  else { a with fwdTsnStreamMap :=
    Table.upsert si (fun cur => if sna16lt cur ssn then ssn else cur) ssn a.fwdTsnStreamMap }

/-- The loop of `advance_peer_ack_point` (`mod.rs:2665-2674`). -/
def advanceOverAbandoned (a : Association) : Association :=
  loop (fun a =>
      let tsn := a.advancedPeerTsnAckPoint + 1#32
      match a.inflightQueue.get tsn with
      | some c =>
        if !c.abandoned then .done a
        else .yield ({ a with advancedPeerTsnAckPoint := tsn }.noteAbandonedForForwardTsn c.unordered
          c.streamIdentifier c.streamSequenceNumber)
      | none => .done a)
    (a.inflightQueue.len + 1) a

/-- `advance_peer_ack_point` (`mod.rs:2664-2683`). -/
def advancePeerAckPoint (a : Association) : Association :=
  let a := a.advanceOverAbandoned
  if sna32gt a.advancedPeerTsnAckPoint a.cumulativeTsnAckPoint then { a with willSendForwardTsn := true }
  else { a with fwdTsnStreamMap := ∅ }

/-- `on_messages_abandoned` (`mod.rs:2891-2901`). -/
def onMessagesAbandoned (a : Association) (now : Instant) : Association :=
  let a := a.advancePeerAckPoint
  if sna32gt a.advancedPeerTsnAckPoint a.cumulativeTsnAckPoint then
    { a with timers := a.timers.startIfIdle .t3Rtx now a.rtoMgr.getRto }
  else a

/-! ## The reliability policy -/

/-- `timed_data_expired` (`mod.rs:2685-2690`). -/
def timedDataExpired (a : Association) (c : ChunkPayloadData) (now : Instant) : Bool :=
  a.useForwardTsn && c.reliability.deadline.any fun deadline => decide (deadline ≤ now)

/-- `retransmission_policy_exhausted` (`mod.rs:2700-2720`). -/
def retransmissionPolicyExhausted (a : Association) (c : ChunkPayloadData) (now : Instant)
    (isCandidate : Bool) : Bool :=
  if !a.useForwardTsn then false
  else
    match c.reliability with
    | .reliable => false
    | .timed deadline => decide (deadline ≤ now) && (some deadline ≠ c.createdAt || isCandidate)
    | .rexmit maxRetransmits => isCandidate && decide (maxRetransmits < c.nsent)

/-- `pending_message_expired` (`mod.rs:2920-2924`). -/
def pendingMessageExpired (a : Association) (c : ChunkPayloadData) (now : Instant) : Bool :=
  (!c.beginningFragment || c.unordered) && c.reliability.deadline ≠ c.createdAt
    && a.timedDataExpired c now

/-! ## Locating a message -/

/-- `same_message` of `retransmit_message_to_abandon` (`mod.rs:2727-2732`). -/
def sameMessage (candidate c : ChunkPayloadData) : Bool :=
  c.streamIdentifier == candidate.streamIdentifier
    && c.streamSequenceNumber == candidate.streamSequenceNumber
    && c.streamGeneration == candidate.streamGeneration
    && c.unordered == candidate.unordered

/-- The error of `retransmit_message_to_abandon`. -/
def inconsistentMessage : Error := .otherSctpErr "inconsistent retransmission message"

/-- The walk back to the first retained fragment (`mod.rs:2734-2742`), from the fragment `c` at `first`. -/
def firstFragment (a : Association) (candidate : ChunkPayloadData) :
    Nat → Tsn → ChunkPayloadData → Except Error Tsn
  | 0, first, _ => .ok first
  | n + 1, first, c =>
    if !c.beginningFragment && first ≠ a.cumulativeTsnAckPoint + 1#32 then
      match a.inflightQueue.get (first - 1#32) with
      | some c' =>
        if c'.endingFragment || !sameMessage candidate c' then .error inconsistentMessage
        else firstFragment a candidate n (first - 1#32) c'
      | none => .error inconsistentMessage
    else .ok first

/-- The walk on to the last fragment in flight (`mod.rs:2744-2761`), from the fragment `c` at `last`,
    with the position of the tail if the message ends in the pending queue. -/
def lastFragment (a : Association) (candidate : ChunkPayloadData) :
    Nat → Tsn → ChunkPayloadData → Except Error (Tsn × Option PendingPosition)
  | 0, last, _ => .ok (last, none)
  | n + 1, last, c =>
    if c.endingFragment then .ok (last, none)
    else
      match a.inflightQueue.get (last + 1#32) with
      | some c' =>
        if c'.beginningFragment || !sameMessage candidate c' then .error inconsistentMessage
        else lastFragment a candidate n (last + 1#32) c'
      | none =>
        match a.pendingQueue.peek with
        | some tail =>
          if tail.beginningFragment || !sameMessage candidate tail then .error inconsistentMessage
          else .ok (last, a.pendingQueue.frontPosition)
        | none => .error inconsistentMessage

/-- `retransmit_message_to_abandon` (`mod.rs:2724-2766`). Both walks stay within the chunks in flight. -/
def retransmitMessageToAbandon (a : Association) (tsn : Tsn) : Except Error MessageToAbandon :=
  match a.inflightQueue.get tsn with
  | some candidate => do
    let bound := a.inflightQueue.len + 1
    let first ← a.firstFragment candidate bound tsn candidate
    let (last, pending) ← a.lastFragment candidate bound tsn candidate
    return { inflight := some (first, last), pending := pending }
  | none => .error inconsistentMessage

/-- The state of the scan of `unretransmittable_messages`: the first and last TSN of the message under
    way, and whether one of its chunks has exhausted its policy. -/
structure MessageScan where
  first : Option Tsn := none
  last : Option Tsn := none
  exhausted : Bool := false

/-- The scan of `unretransmittable_messages` (`mod.rs:2796-2828`) over the TSNs in flight. -/
def scanMessages (a : Association) (now : Instant) (isCandidate : ChunkPayloadData → Bool) :
    MessageScan → List Tsn → Except Error (List MessageToAbandon)
  | scan, [] =>
    match scan.first, scan.last with
    | some first, some last =>
      .ok (if scan.exhausted then
        [{ inflight := some (first, last), pending := a.pendingQueue.frontPosition }] else [])
    | _, _ => .ok []
  | scan, tsn :: rest =>
    match a.inflightQueue.get tsn with
    | none => .error (.otherSctpErr "missing inflight message fragment")
    | some c =>
      let first := scan.first.getD tsn
      let exhausted := scan.exhausted ||
        (c.isOutstanding && a.retransmissionPolicyExhausted c now (isCandidate c))
      if c.endingFragment then
        (scanMessages a now isCandidate {} rest).map fun messages =>
          if exhausted then { inflight := some (first, tsn), pending := none } :: messages
          else messages
      else
        scanMessages a now isCandidate
          { first := some first, last := some tsn, exhausted := exhausted } rest

/-- `unretransmittable_messages` (`mod.rs:2789-2826`). -/
def unretransmittableMessages (a : Association) (now : Instant)
    (isCandidate : ChunkPayloadData → Bool) : Except Error (List MessageToAbandon) :=
  a.scanMessages now isCandidate {} a.inflightQueue.sorted

/-- The scan of `pending_message_to_abandon` (`mod.rs:2933-2946`) over the TSNs in flight, last first. -/
def scanPrefix (a : Association) : Option (Tsn × Tsn) → List Tsn → Except Error (Option (Tsn × Tsn))
  | inflight, [] => .ok inflight
  | inflight, tsn :: rest =>
    match a.inflightQueue.get tsn with
    | none => .error (.otherSctpErr "missing inflight message fragment")
    | some c =>
      if c.endingFragment then .ok inflight
      else
        let inflight := some (tsn, (inflight.map Prod.snd).getD tsn)
        if c.beginningFragment then .ok inflight else a.scanPrefix inflight rest

/-- `pending_message_to_abandon` (`mod.rs:2926-2952`). -/
def pendingMessageToAbandon (a : Association) : Except Error MessageToAbandon := do
  let inflight ←
    if a.pendingQueue.peek.any fun c => !c.beginningFragment then
      a.scanPrefix none a.inflightQueue.sorted.reverse
    else pure none
  return { inflight := inflight, pending := a.pendingQueue.frontPosition }

/-! ## Abandoning it -/

/-- The state of `abandon_message`. -/
structure Abandonment where
  assoc : Association
  inflight : Option (Tsn × Tsn)
  releasedPerStream : Table StreamId Nat := ∅
  changed : Bool := false

/-- `entry(si).or_default() += n`. -/
def addBytes (si : StreamId) (n : Nat) (m : Table StreamId Nat) : Table StreamId Nat :=
  Table.upsert si (fun k => k + n) n m

/-- One fragment of the pending tail (`mod.rs:2842-2857`): it is given a TSN and put in flight, or, for
    an unordered message of which nothing was sent, dropped. -/
def abandonPending (assignTsns : Bool) (s : Abandonment) (c : ChunkPayloadData) : Abandonment :=
  if assignTsns then
    let (tsn, a) := s.assoc.generateNextTsn
    { s with
      inflight := some ((s.inflight.map Prod.fst).getD tsn, tsn)
      assoc := { a with inflightQueue := a.inflightQueue.pushNoCheck { c with tsn := tsn } } }
  else
    { s with
      releasedPerStream :=
        if s.assoc.isCurrentStreamData c then
          addBytes c.streamIdentifier c.userData.length s.releasedPerStream
        else s.releasedPerStream
      changed := true }

/-- One TSN in flight (`mod.rs:2861-2874`): its chunk is marked and its payload released. -/
def abandonInflight (s : Abandonment) (tsn : Tsn) : Abandonment :=
  match s.assoc.inflightQueue.get tsn with
  | some c =>
    let (released, q) := (s.assoc.inflightQueue.modify tsn ChunkPayloadData.markAbandoned).releasePayload tsn
    { assoc := { s.assoc with inflightQueue := q }
      inflight := s.inflight
      releasedPerStream :=
        if 0 < released && s.assoc.isCurrentStreamData c then
          addBytes c.streamIdentifier released s.releasedPerStream
        else s.releasedPerStream
      changed := s.changed || !c.abandoned }
  | none => s

/-- The part of `abandon_message` after the tail is drained (`mod.rs:2838-2880`). -/
def abandonFragments (s : Abandonment) (tail : List ChunkPayloadData) : Bool × Association :=
  let assignTsns := s.inflight.isSome ||
    tail.head?.any fun c => !c.beginningFragment || !c.unordered
  let s := tail.foldl (abandonPending assignTsns) s
  let s :=
    match s.inflight with
    | some (first, last) => (tsnRange first last).foldl abandonInflight s
    | none => s
  (s.changed, s.assoc.releaseStreamBuffers s.releasedPerStream)

/-- `abandon_message` (`mod.rs:2831-2880`). -/
def abandonMessage (a : Association) (message : MessageToAbandon) : Except Error Bool × Association :=
  match message.pending with
  | some position =>
    match a.pendingQueue.drainMessage position with
    | (.error e, q) => (.error e, { a with pendingQueue := q })
    | (.ok tail, q) =>
      let (changed, a) := abandonFragments
        { assoc := { a with pendingQueue := q }, inflight := message.inflight } tail
      (.ok changed, a)
  | none =>
    let (changed, a) := abandonFragments { assoc := a, inflight := message.inflight } []
    (.ok changed, a)

/-- `abandon_retransmit_candidate` (`mod.rs:2768-2782`). -/
def abandonRetransmitCandidate (a : Association) (tsn : Tsn) (now : Instant) :
    Except Error Bool × Association :=
  match a.inflightQueue.get tsn with
  | none => (.error (.otherSctpErr "missing retransmission candidate"), a)
  | some c =>
    if !a.retransmissionPolicyExhausted c now true then (.ok false, a)
    else
      match a.retransmitMessageToAbandon tsn with
      | .error e => (.error e, a)
      | .ok message =>
        match a.abandonMessage message with
        | (.error e, a) => (.error e, a)
        | (.ok changed, a) => (.ok true, if changed then a.onMessagesAbandoned now else a)

/-- The loop of `abandon_unretransmittable_messages` (`mod.rs:2909-2911`). -/
def abandonMessages : Bool → List MessageToAbandon → Association → Except Error Bool × Association
  | changed, [], a => (.ok changed, a)
  | changed, message :: rest, a =>
    match a.abandonMessage message with
    | (.error e, a) => (.error e, a)
    | (.ok changed', a) => abandonMessages (changed || changed') rest a

/-- `abandon_unretransmittable_messages` (`mod.rs:2903-2916`). -/
def abandonUnretransmittableMessages (a : Association) (now : Instant)
    (isCandidate : ChunkPayloadData → Bool) : Except Error Unit × Association :=
  match a.unretransmittableMessages now isCandidate with
  | .error e => (.error e, a)
  | .ok messages =>
    match abandonMessages false messages a with
    | (.error e, a) => (.error e, a)
    | (.ok changed, a) => (.ok (), if changed then a.onMessagesAbandoned now else a)

end Association
end Rtc.Sctp
