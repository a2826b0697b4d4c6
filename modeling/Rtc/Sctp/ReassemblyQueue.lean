import Rtc.Lib.SortedInsert
import Rtc.Sctp.Chunk
import Rtc.Sctp.Util

/-!
# The reassembly queue

`Chunks` and `ReassemblyQueue` of `rtc-sctp/src/queue/reassembly_queue.rs`: the fragments a stream has received and
the messages that wait to be read, without the cursor of `Chunks::next`. `u64` arrival stamps are natural numbers;
`last_tsn + 1` wraps, as it does where overflow checks are off.
-/

namespace Rtc.Sctp
open SortedInsert

/-- `Chunks` (`reassembly_queue.rs:18-30`). -/
structure Chunks where
  ssn : Ssn
  ppi : PayloadProtocolIdentifier
  chunks : List ChunkPayloadData
  arrival : Nat
  deriving DecidableEq

/-- The TSNs of the fragments are consecutive (`reassembly_queue.rs:174-190`). -/
def contiguousTsns : List ChunkPayloadData → Bool
  | c :: c' :: rest => c'.tsn == c.tsn + 1#32 && contiguousTsns (c' :: rest)
  | _ => true

namespace Chunks

/-- `Chunks::len` (`reassembly_queue.rs:39-45`). -/
def len (s : Chunks) : Nat := (s.chunks.map fun c => c.userData.length).sum

/-- The bytes of `to_payload` and `read` (`reassembly_queue.rs:56-86`) for a buffer that holds them. -/
def payload (s : Chunks) : List Byte := s.chunks.flatMap fun c => c.userData

/-- `is_complete` (`reassembly_queue.rs:150-193`). -/
def isComplete (s : Chunks) : Bool :=
  match s.chunks.head?, s.chunks.getLast? with
  | some first, some last =>
    first.beginningFragment && last.endingFragment && contiguousTsns s.chunks
  | _, _ => false

/-- `Chunks::push` (`reassembly_queue.rs:136-148`). -/
def push (s : Chunks) (chunk : ChunkPayloadData) : Bool × Chunks :=
  let before (c : ChunkPayloadData) : Bool := sna32lt c.tsn chunk.tsn
  if (s.chunks[partitionPoint before s.chunks]?).any fun c => c.tsn == chunk.tsn then (false, s)
  else
    let s := { s with chunks := insertBy before chunk s.chunks }
    (s.isComplete, s)

end Chunks

/-- `ReassemblyQueue` (`reassembly_queue.rs:197-211`). -/
structure ReassemblyQueue where
  si : StreamId
  nextSsn : Ssn := 0
  ordered : List Chunks := []
  unordered : List Chunks := []
  unorderedChunks : List ChunkPayloadData := []
  nBytes : Nat := 0
  nextArrival : Nat := 0
  deriving DecidableEq

namespace ReassemblyQueue

/-- `ReassemblyQueue::new` (`reassembly_queue.rs:219-229`). -/
def new (si : StreamId) : ReassemblyQueue := { si := si }

/-- The scan of `find_complete_unordered_chunk_set` (`reassembly_queue.rs:284-320`) from index `i` on.
    `start` holds the start index, the number of fragments and the last TSN of the set being
    followed; the result is the start index and the number of fragments of the set found. -/
def scanUnordered : Nat → Option (Nat × Nat × Tsn) → List ChunkPayloadData → Option (Nat × Nat)
  | _, _, [] => none
  | i, start, c :: rest =>
    if c.beginningFragment then
      if c.endingFragment then some (i, 1)
      else scanUnordered (i + 1) (some (i, 1, c.tsn)) rest
    else
      match start with
      | none => scanUnordered (i + 1) none rest
      | some (startIdx, nChunks, lastTsn) =>
        if c.tsn ≠ lastTsn + 1#32 then scanUnordered (i + 1) none rest
        else if c.endingFragment then some (startIdx, nChunks + 1)
        else scanUnordered (i + 1) (some (startIdx, nChunks + 1, c.tsn)) rest

/-- `find_complete_unordered_chunk_set` (`reassembly_queue.rs:283-334`). -/
def findCompleteUnorderedChunkSet (q : ReassemblyQueue) : Option Chunks × ReassemblyQueue :=
  match scanUnordered 0 none q.unorderedChunks with
  | none => (none, q)
  | some (startIdx, nChunks) =>
    let chunks := (q.unorderedChunks.drop startIdx).take nChunks
    (some { ssn := 0, ppi := (chunks.head?.map (·.payloadType)).getD .unknown, chunks := chunks,
            arrival := q.nextArrival },
      { q with
        unorderedChunks := q.unorderedChunks.take startIdx
          ++ q.unorderedChunks.drop (startIdx + nChunks)
        nextArrival := q.nextArrival + 1 })

/-- The branch of `push` for an unordered chunk (`reassembly_queue.rs:236-252`). -/
def pushUnordered (q : ReassemblyQueue) (chunk : ChunkPayloadData) : Bool × ReassemblyQueue :=
  let q := { q with
    nBytes := q.nBytes + chunk.userData.length
    unorderedChunks := insertBy (fun c => sna32lt c.tsn chunk.tsn) chunk q.unorderedChunks }
  match q.findCompleteUnorderedChunkSet with
  | (some cset, q) => (true, { q with unordered := q.unordered ++ [cset] })
  | (none, q) => (false, q)

/-- A new set for `chunk`, put in SSN order (`reassembly_queue.rs:274-279`). -/
def insertNewSet (q : ReassemblyQueue) (before : Chunks → Bool) (chunk : ChunkPayloadData) :
    Bool × ReassemblyQueue :=
  let cset : Chunks :=
    { ssn := chunk.streamSequenceNumber, ppi := chunk.payloadType, chunks := [],
      arrival := q.nextArrival }
  let (ok, cset) := cset.push chunk
  (ok, { q with ordered := insertBy before cset q.ordered, nextArrival := q.nextArrival + 1 })

/-- The branch of `push` for an ordered chunk (`reassembly_queue.rs:254-280`). -/
def pushOrdered (q : ReassemblyQueue) (chunk : ChunkPayloadData) : Bool × ReassemblyQueue :=
  let ssn := chunk.streamSequenceNumber
  if sna16lt ssn q.nextSsn then (false, q)
  else
    let q := { q with nBytes := q.nBytes + chunk.userData.length }
    let before (s : Chunks) : Bool := sna16lt s.ssn ssn
    let idx := partitionPoint before q.ordered
    match q.ordered[idx]? with
    | some s =>
      if s.ssn = ssn then
        let (ok, s) := s.push chunk
        (ok, { q with ordered := q.ordered.set idx s })
      else q.insertNewSet before chunk
    | none => q.insertNewSet before chunk

/-- `ReassemblyQueue::push` (`reassembly_queue.rs:231-281`). -/
def push (q : ReassemblyQueue) (chunk : ChunkPayloadData) : Bool × ReassemblyQueue :=
  if chunk.streamIdentifier ≠ q.si then (false, q)
  else if chunk.unordered then q.pushUnordered chunk
  else q.pushOrdered chunk

/-- `is_readable` (`reassembly_queue.rs:336-351`). -/
def isReadable (q : ReassemblyQueue) : Bool :=
  !q.unordered.isEmpty || q.ordered.head?.any fun cset => cset.isComplete && sna16lte cset.ssn q.nextSsn

/-- `readable_unordered_chunks` (`reassembly_queue.rs:353-355`). -/
def readableUnorderedChunks (q : ReassemblyQueue) : Option Chunks := q.unordered.head?

/-- `readable_ordered_chunks` (`reassembly_queue.rs:357-370`); the checks of `read` on the first ordered
    set when nothing unordered is ready are the same. -/
def readableOrderedChunks (q : ReassemblyQueue) : Option Chunks :=
  q.ordered.head?.filter fun chunks => chunks.isComplete && !sna16gt chunks.ssn q.nextSsn

/-- `subtract_num_bytes` (`reassembly_queue.rs:454-460`). -/
def subtractNumBytes (q : ReassemblyQueue) (nBytes : Nat) : ReassemblyQueue :=
  { q with nBytes := q.nBytes - nBytes }

/-- The first unordered set leaves the queue. -/
def takeUnordered (q : ReassemblyQueue) : ReassemblyQueue := { q with unordered := q.unordered.tail }

/-- The first ordered set leaves the queue, and the next SSN is expected if it was its turn. -/
def takeOrdered (q : ReassemblyQueue) (chunks : Chunks) : ReassemblyQueue :=
  { q with
    nextSsn := if chunks.ssn = q.nextSsn then q.nextSsn + 1#16 else q.nextSsn
    ordered := q.ordered.tail }

/-- `ReassemblyQueue::read` (`reassembly_queue.rs:372-410`). -/
def read (q : ReassemblyQueue) : Option Chunks × ReassemblyQueue :=
  match q.readableUnorderedChunks, q.readableOrderedChunks with
  | some u, some o =>
    if u.arrival < o.arrival then (some u, q.takeUnordered.subtractNumBytes u.len)
    else (some o, (q.takeOrdered o).subtractNumBytes o.len)
  | some u, none => (some u, q.takeUnordered.subtractNumBytes u.len)
  | none, some o => (some o, (q.takeOrdered o).subtractNumBytes o.len)
  | none, none => (none, q)

/-- `forward_tsn_for_ordered` (`reassembly_queue.rs:414-431`). -/
def forwardTsnForOrdered (q : ReassemblyQueue) (lastSsn : Ssn) : ReassemblyQueue :=
  let skipped (s : Chunks) : Bool := sna16lte s.ssn lastSsn && !s.isComplete
  let q := q.subtractNumBytes (((q.ordered.filter skipped).map Chunks.len).sum)
  { q with
    ordered := q.ordered.filter fun s => !skipped s
    nextSsn := if sna16lte q.nextSsn lastSsn then lastSsn + 1#16 else q.nextSsn }

/-- `forward_tsn_for_unordered` (`reassembly_queue.rs:438-452`). -/
def forwardTsnForUnordered (q : ReassemblyQueue) (newCumulativeTsn : Tsn) : ReassemblyQueue :=
  let skipped := q.unorderedChunks.takeWhile fun c => !sna32gt c.tsn newCumulativeTsn
  let q := skipped.foldl (fun q c => q.subtractNumBytes c.userData.length) q
  { q with unorderedChunks := q.unorderedChunks.drop skipped.length }

/-- `get_num_bytes` (`reassembly_queue.rs:462-464`). -/
def getNumBytes (q : ReassemblyQueue) : Nat := q.nBytes

end ReassemblyQueue
end Rtc.Sctp
