import Rtc.Sctp.Chunk

/-!
# The pending queue

`PendingQueue` of `rtc-sctp/src/queue/pending_queue.rs`: chunks that wait for a TSN, unordered ones
before ordered ones, except that a message whose first fragment has left is finished first.
-/

namespace Rtc.Sctp
open Shared

/-- `PendingPosition` (`pending_queue.rs:10-14`). -/
structure PendingPosition where
  unordered : Bool
  position : BitVec 64
  deriving DecidableEq

/-- `PendingQueue` (`pending_queue.rs:17-27`). -/
structure PendingQueue where
  unorderedQueue : List ChunkPayloadData := []
  orderedQueue : List ChunkPayloadData := []
  orderedPopped : BitVec 64 := 0
  unorderedPopped : BitVec 64 := 0
  queueLen : Nat := 0
  nBytes : Nat := 0
  selected : Bool := false
  unorderedIsSelected : Bool := false
  deriving DecidableEq

namespace PendingQueue

/-- `PendingQueue::new` (`pending_queue.rs:30-32`). -/
def new : PendingQueue := {}

/-- `push` (`pending_queue.rs:34-42`). -/
def push (q : PendingQueue) (c : ChunkPayloadData) : PendingQueue :=
  let q := { q with nBytes := q.nBytes + c.userData.length, queueLen := q.queueLen + 1 }
  if c.unordered then { q with unorderedQueue := q.unorderedQueue ++ [c] }
  else { q with orderedQueue := q.orderedQueue ++ [c] }

/-- `peek` (`pending_queue.rs:44-60`). -/
def peek (q : PendingQueue) : Option ChunkPayloadData :=
  if q.selected then
    if q.unorderedIsSelected then q.unorderedQueue.head? else q.orderedQueue.head?
  else
    match q.unorderedQueue.head? with
    | some c => some c
    | none => q.orderedQueue.head?

/-- `front_position` (`pending_queue.rs:62-72`). -/
def frontPosition (q : PendingQueue) : Option PendingPosition :=
  q.peek.map fun c =>
    { unordered := c.unordered
      position := if c.unordered then q.unorderedPopped else q.orderedPopped }

/-- The fragments `drain_message` takes from the front of the queue (`pending_queue.rs:99-120`): those
    of the message of `first`, up to its last one. `atFront` holds for index 0 only. -/
def messageTail (unordered : Bool) (first : ChunkPayloadData) :
    Bool → List ChunkPayloadData → Except Error (List ChunkPayloadData)
  | _, [] => .error (.otherSctpErr "pending message has no ending fragment")
  | atFront, c :: rest =>
    if (!atFront && c.beginningFragment)
        || c.streamIdentifier ≠ first.streamIdentifier
        || c.streamSequenceNumber ≠ first.streamSequenceNumber
        || c.streamGeneration ≠ first.streamGeneration
        || c.unordered ≠ unordered then
      .error (.otherSctpErr "invalid pending message fragments")
    else if c.endingFragment then .ok [c]
    else (messageTail unordered first false rest).map (c :: ·)

/-- `drain_message` (`pending_queue.rs:76-136`). -/
def drainMessage (q : PendingQueue) (position : PendingPosition) :
    Except Error (List ChunkPayloadData) × PendingQueue :=
  if q.frontPosition ≠ some position then (.ok [], q)
  else
    let queue := if position.unordered then q.unorderedQueue else q.orderedQueue
    match queue with
    | [] => (.error (.otherSctpErr "missing pending message"), q)
    | first :: _ =>
      if !q.selected && !first.beginningFragment then
        (.error (.otherSctpErr "missing pending message beginning"), q)
      else
        match messageTail position.unordered first true queue with
        | .error e => (.error e, q)
        | .ok chunks =>
          let bytes := (chunks.map fun c => c.userData.length).sum
          if q.queueLen < chunks.length || q.nBytes < bytes then
            (.error (.otherSctpErr "invalid pending message accounting"), q)
          else
            let q := { q with
              queueLen := q.queueLen - chunks.length
              nBytes := q.nBytes - bytes
              selected := false }
            if position.unordered then
              (.ok chunks, { q with
                unorderedQueue := q.unorderedQueue.drop chunks.length
                unorderedPopped := q.unorderedPopped + BitVec.ofNat 64 chunks.length })
            else
              (.ok chunks, { q with
                orderedQueue := q.orderedQueue.drop chunks.length
                orderedPopped := q.orderedPopped + BitVec.ofNat 64 chunks.length })

/-- The bookkeeping at the end of `pop` (`pending_queue.rs:180-188`). -/
def notePopped (q : PendingQueue) (p : ChunkPayloadData) : PendingQueue :=
  let q := { q with nBytes := q.nBytes - p.userData.length, queueLen := q.queueLen - 1 }
  if p.unordered then { q with unorderedPopped := q.unorderedPopped + 1#64 }
  else { q with orderedPopped := q.orderedPopped + 1#64 }

/-- The front of the unordered or the ordered queue, taken off it. -/
def popFront (q : PendingQueue) (unordered : Bool) : Option ChunkPayloadData × PendingQueue :=
  if unordered then (q.unorderedQueue.head?, { q with unorderedQueue := q.unorderedQueue.tail })
  else (q.orderedQueue.head?, { q with orderedQueue := q.orderedQueue.tail })

/-- `pop` (`pending_queue.rs:138-191`). -/
def pop (q : PendingQueue) (beginningFragment unordered : Bool) :
    Option ChunkPayloadData × PendingQueue :=
  if q.selected then
    match q.popFront q.unorderedIsSelected with
    | (some p, q) =>
      let q := if p.endingFragment then { q with selected := false } else q
      (some p, q.notePopped p)
    | (none, q) => (none, q)
  else if !beginningFragment then (none, q)
  else
    match q.popFront unordered with
    | (some p, q) =>
      let q := if p.endingFragment then q
        else { q with selected := true, unorderedIsSelected := unordered }
      (some p, q.notePopped p)
    | (none, q) => (none, q)

/-- `len` (`pending_queue.rs:197-199`). -/
def len (q : PendingQueue) : Nat := q.queueLen

/-- `is_empty` (`pending_queue.rs:201-203`). -/
def isEmpty (q : PendingQueue) : Bool := q.len == 0

end PendingQueue
end Rtc.Sctp
