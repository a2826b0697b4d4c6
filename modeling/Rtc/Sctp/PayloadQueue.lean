import Rtc.Lib.SortedInsert
import Rtc.Sctp.Chunk
import Rtc.Sctp.Util

/-!
# The payload queue

`PayloadQueue` of `rtc-sctp/src/queue/payload_queue.rs`: DATA chunks keyed by TSN, with the TSNs in serial order
beside them. `VecDeque::partition_point` is `SortedInsert.partitionPoint`, the length of the longest run that
satisfies the predicate; a binary search returns the same index where the elements that satisfy it come first, and
promises nothing otherwise. The subtraction of `n_bytes` stops at zero.
-/

namespace Rtc.Sctp
open SortedInsert

/-- `PayloadQueue` (`payload_queue.rs:9-26`). -/
structure PayloadQueue where
  chunkMap : Table Tsn ChunkPayloadData := ∅
  sorted : List Tsn := []
  dupTsn : List Tsn := []
  nBytes : Nat := 0

namespace PayloadQueue

/-- `PayloadQueue::new` (`payload_queue.rs:29-31`). -/
def new : PayloadQueue := {}

/-- `insert_sorted` (`payload_queue.rs:38-41`). -/
def insertSorted (sorted : List Tsn) (tsn : Tsn) : List Tsn :=
  insertBy (fun x => sna32lt x tsn) tsn sorted

/-- `can_push` (`payload_queue.rs:43-45`). -/
def canPush (q : PayloadQueue) (p : ChunkPayloadData) (cumulativeTsn : Tsn) : Bool :=
  !((q.chunkMap.lookup p.tsn).isSome || sna32lte p.tsn cumulativeTsn)

/-- `push_no_check` (`payload_queue.rs:47-52`). -/
def pushNoCheck (q : PayloadQueue) (p : ChunkPayloadData) : PayloadQueue :=
  { q with
    nBytes := q.nBytes + p.userData.length
    sorted := insertSorted q.sorted p.tsn
    chunkMap := q.chunkMap.insert p.tsn p }

/-- `push` (`payload_queue.rs:57-71`). -/
def push (q : PayloadQueue) (p : ChunkPayloadData) (cumulativeTsn : Tsn) : Bool × PayloadQueue :=
  if (q.chunkMap.lookup p.tsn).isSome || sna32lte p.tsn cumulativeTsn then
    (false, { q with dupTsn := q.dupTsn ++ [p.tsn] })
  else
    (true, q.pushNoCheck p)

/-- `pop` (`payload_queue.rs:74-85`): pops only if the oldest chunk's TSN matches. -/
def pop (q : PayloadQueue) (tsn : Tsn) : Option ChunkPayloadData × PayloadQueue :=
  if q.sorted.head? = some tsn then
    match q.chunkMap.lookup tsn with
    | some c =>
      (some c, { q with
        sorted := q.sorted.tail
        chunkMap := q.chunkMap.erase tsn
        nBytes := q.nBytes - c.userData.length })
    | none => (none, { q with sorted := q.sorted.tail })
  else (none, q)

/-- `get` (`payload_queue.rs:88-94`). -/
def get (q : PayloadQueue) (tsn : Tsn) : Option ChunkPayloadData := q.chunkMap.lookup tsn

/-- An update through `get_mut` (`payload_queue.rs:95-101`). -/
def modify (q : PayloadQueue) (tsn : Tsn) (f : ChunkPayloadData → ChunkPayloadData) : PayloadQueue :=
  { q with chunkMap := Table.adjust tsn f q.chunkMap }

/-- `pop_duplicates` (`payload_queue.rs:104-106`). -/
def popDuplicates (q : PayloadQueue) : List Tsn × PayloadQueue :=
  (q.dupTsn, { q with dupTsn := [] })

/-- The offset `get_gap_ack_blocks` computes for one TSN (`payload_queue.rs:116-120`): a plain
    comparison and difference, cut to 16 bits. -/
def gapOffset (cumulativeTsn tsn : Tsn) : BitVec 16 :=
  if cumulativeTsn.toNat ≤ tsn.toNat then (tsn - cumulativeTsn).setWidth 16 else 0#16

/-- The loop of `get_gap_ack_blocks` after its first round (`payload_queue.rs:115-135`), with the
    current block `b`; the last block is pushed after the loop. -/
def gapAckBlocksFrom (cumulativeTsn : Tsn) (b : GapAckBlock) : List Tsn → List GapAckBlock
  | [] => [b]
  | tsn :: rest =>
    let diff := gapOffset cumulativeTsn tsn
    if b.end + 1#16 = diff then
      gapAckBlocksFrom cumulativeTsn { b with «end» := b.end + 1#16 } rest
    else
      b :: gapAckBlocksFrom cumulativeTsn { start := diff, «end» := diff } rest

/-- `get_gap_ack_blocks` (`payload_queue.rs:108-138`). -/
def getGapAckBlocks (q : PayloadQueue) (cumulativeTsn : Tsn) : List GapAckBlock :=
  if q.chunkMap.entries.isEmpty then []
  else
    match q.sorted with
    | [] => [{}]
    | tsn :: rest =>
      let diff := gapOffset cumulativeTsn tsn
      gapAckBlocksFrom cumulativeTsn { start := diff, «end» := diff } rest

/-- `acknowledge` (`payload_queue.rs:148-152`). -/
def acknowledge (q : PayloadQueue) (tsn : Tsn) : Bool × PayloadQueue :=
  match q.get tsn with
  | some c => (c.acknowledge.1, q.modify tsn fun c => c.acknowledge.2)
  | none => (false, q)

/-- `release_payload` (`payload_queue.rs:155-164`). -/
def releasePayload (q : PayloadQueue) (tsn : Tsn) : Nat × PayloadQueue :=
  match q.get tsn with
  | some c =>
    (c.userData.length, { (q.modify tsn fun c => { c with userData := [] }) with
      nBytes := q.nBytes - c.userData.length })
  | none => (0, q)

/-- `get_last_tsn_received` (`payload_queue.rs:166-168`). -/
def getLastTsnReceived (q : PayloadQueue) : Option Tsn := q.sorted.getLast?

/-- `mark_all_to_retrasmit` (`payload_queue.rs:170-177`). -/
def markAllToRetransmit (q : PayloadQueue) : PayloadQueue :=
  let mark (_ : Tsn) (c : ChunkPayloadData) : ChunkPayloadData :=
    if c.isOutstanding then { c with retransmit := true } else c
  { q with chunkMap := Table.update mark q.chunkMap }

/-- `get_num_bytes` (`payload_queue.rs:179-181`). -/
def getNumBytes (q : PayloadQueue) : Nat := q.nBytes

/-- `len` (`payload_queue.rs:183-186`). -/
def len (q : PayloadQueue) : Nat := q.chunkMap.entries.length

/-- `is_empty` (`payload_queue.rs:188-190`). -/
def isEmpty (q : PayloadQueue) : Bool := q.len == 0

theorem get_modify (q : PayloadQueue) (tsn : Tsn) (f : ChunkPayloadData → ChunkPayloadData)
    (t : Tsn) : (q.modify tsn f).get t = if t = tsn then (q.get t).map f else q.get t :=
  Table.lookup_adjust tsn f q.chunkMap t

theorem pop_eq {q : PayloadQueue} {tsn : Tsn} {rest : List Tsn} {c : ChunkPayloadData}
    (hsorted : q.sorted = tsn :: rest) (hc : q.get tsn = some c) :
    q.pop tsn = (some c, { q with
      sorted := rest
      chunkMap := q.chunkMap.erase tsn
      nBytes := q.nBytes - c.userData.length }) := by
  have hhead : q.sorted.head? = some tsn := by rw [hsorted]; rfl
  have hlookup : q.chunkMap.lookup tsn = some c := hc
  unfold pop
  rw [if_pos hhead]
  simp only [hlookup]
  rw [hsorted]
  rfl

end PayloadQueue
end Rtc.Sctp
