import Rtc.Lib.Blocks
import Rtc.Sctp.Proofs.ReceiverStep
import Rtc.Sctp.Proofs.SackWindow

/-!
# Gap ack blocks

What the gap ack blocks of a queue say, and what `process_selective_ack` makes of them. The encoder computes the
offsets from the cumulative TSN by a plain difference; the decoder adds them modulo `2 ^ 32`.
-/

namespace Rtc.Sctp
open Shared Serial Loop SortedInsert Blocks

def GapAckBlock.bounds (b : GapAckBlock) : Nat × Nat := (b.start.toNat, b.end.toNat)

namespace PayloadQueue

variable {cum : Tsn} {q : PayloadQueue}

/-! ## The encoder -/

/-- The offsets `get_gap_ack_blocks` computes. -/
def gapOffsets (cum : Tsn) (l : List Tsn) : List Nat := l.map fun tsn => (gapOffset cum tsn).toNat

theorem gapOffset_le (cum tsn : Tsn) : (gapOffset cum tsn).toNat ≤ ahead cum tsn := by
  unfold gapOffset
  split
  · rw [BitVec.toNat_setWidth]
    exact Nat.mod_le _ _
  · exact Nat.zero_le _

theorem gapOffset_eq {tsn : Tsn} (hle : cum.toNat ≤ tsn.toNat) (hnear : ahead cum tsn ≤ 65535) :
    (gapOffset cum tsn).toNat = ahead cum tsn := by
  unfold gapOffset
  rw [if_pos hle, BitVec.toNat_setWidth]
  exact Nat.mod_eq_of_lt (Nat.lt_succ_of_le hnear)

theorem gapOffset_of_lt {tsn : Tsn} (hlt : tsn.toNat < cum.toNat) : (gapOffset cum tsn).toNat = 0 := by
  unfold gapOffset
  rw [if_neg (Nat.not_le.mpr hlt)]
  rfl

/-- As long as no block is extended past `u16::MAX`, the loop writes the blocks of the offsets. -/
theorem bounds_gapAckBlocksFrom (b : GapAckBlock) {l : List Tsn}
    (h : (b.end.toNat :: gapOffsets cum l).Pairwise fun n _ => n + 1 < 2 ^ 16) :
    (gapAckBlocksFrom cum b l).map GapAckBlock.bounds
      = blocksFrom b.start.toNat b.end.toNat (gapOffsets cum l) := by
  induction l generalizing b with
  | nil => rfl
  | cons tsn rest ih =>
    obtain ⟨hend, hrest⟩ := List.pairwise_cons.mp h
    have hlt : b.end.toNat + 1 < 2 ^ 16 := hend _ List.mem_cons_self
    have hsucc : (b.end + 1#16).toNat = b.end.toNat + 1 := by
      rw [BitVec.toNat_add]
      exact Nat.mod_eq_of_lt hlt
    change List.map _ (if b.end + 1#16 = gapOffset cum tsn then _ else _) =
      blocksFrom _ _ ((gapOffset cum tsn).toNat :: gapOffsets cum rest)
    unfold blocksFrom
    by_cases hnext : b.end + 1#16 = gapOffset cum tsn
    · have hnext' : b.end.toNat + 1 = (gapOffset cum tsn).toNat := by rw [← hsucc, hnext]
      rw [if_pos hnext, if_pos hnext', hnext]
      exact ih { b with «end» := gapOffset cum tsn } hrest
    · have hnext' : ¬ b.end.toNat + 1 = (gapOffset cum tsn).toNat := by
        intro heq
        exact hnext (BitVec.eq_of_toNat_eq (hsucc.trans heq))
      rw [if_neg hnext, if_neg hnext', List.map_cons]
      exact congrArg _ (ih { start := gapOffset cum tsn, «end» := gapOffset cum tsn } hrest)

variable (h : Received cum q)
include h

theorem Received.sorted_eq_nil_iff : q.chunkMap.entries.isEmpty = true ↔ q.sorted = [] := by
  rw [List.isEmpty_iff]
  constructor
  · intro hempty
    refine List.eq_nil_iff_forall_not_mem.mpr fun tsn htsn => ?_
    have hmem := (h.mem_iff tsn).mpr htsn
    rw [AList.mem_keys, AList.keys, hempty] at hmem
    exact List.not_mem_nil hmem
  · intro hnil
    refine List.eq_nil_iff_forall_not_mem.mpr fun e he => ?_
    have hmem : e.1 ∈ q.chunkMap := AList.mem_keys.mpr (List.mem_map_of_mem he)
    rw [h.mem_iff, hnil] at hmem
    exact List.not_mem_nil hmem

variable (hnear : ∀ tsn ∈ q.sorted, ahead cum tsn ≤ 65535)
include hnear

/-- Of a queue that reaches no further than a block can say, the blocks are those of its offsets. -/
theorem Received.bounds_getGapAckBlocks :
    (q.getGapAckBlocks cum).map GapAckBlock.bounds = blocks (gapOffsets cum q.sorted) := by
  have hlast : (gapOffsets cum q.sorted).Pairwise fun n _ => n + 1 < 2 ^ 16 := by
    refine List.pairwise_map.mpr (h.increasing.imp_of_mem ?_)
    intro x y hx hy hlt
    have := gapOffset_le cum x
    have := hnear y hy
    omega
  unfold getGapAckBlocks
  split
  case isTrue hempty =>
    rw [h.sorted_eq_nil_iff.mp hempty]
    rfl
  case isFalse hne =>
    cases hsorted : q.sorted with
    | nil => exact absurd (h.sorted_eq_nil_iff.mpr hsorted) hne
    | cons tsn rest =>
      rw [hsorted] at hlast
      exact bounds_gapAckBlocksFrom _ hlast

theorem Received.covered_iff (n : Nat) :
    (∃ g ∈ q.getGapAckBlocks cum, g.start.toNat ≤ n ∧ n ≤ g.end.toNat) ↔
      ∃ tsn ∈ q.sorted, (gapOffset cum tsn).toNat = n := by
  have hblocks := exists_covers_blocks (gapOffsets cum q.sorted) n
  rw [← h.bounds_getGapAckBlocks hnear] at hblocks
  simp only [List.mem_map, exists_exists_and_eq_and, gapOffsets] at hblocks
  exact hblocks

theorem Received.start_le_end : ∀ g ∈ q.getGapAckBlocks cum, g.start.toNat ≤ g.end.toNat := by
  intro g hg
  refine first_le_last_of_mem_blocks (l := gapOffsets cum q.sorted) g.bounds ?_
  rw [← h.bounds_getGapAckBlocks hnear]
  exact List.mem_map_of_mem hg

theorem Received.pairwise_apart (hwrap : ∀ tsn ∈ q.sorted, cum.toNat ≤ tsn.toNat) :
    (q.getGapAckBlocks cum).Pairwise fun g g' => g.end.toNat + 1 < g'.start.toNat := by
  have hlt : (gapOffsets cum q.sorted).Pairwise (· < ·) := by
    refine List.pairwise_map.mpr (h.increasing.imp_of_mem ?_)
    intro x y hx hy hlt
    rwa [gapOffset_eq (hwrap x hx) (hnear x hx), gapOffset_eq (hwrap y hy) (hnear y hy)]
  have hapart := blocks_pairwise_apart hlt
  rw [← h.bounds_getGapAckBlocks hnear] at hapart
  exact List.pairwise_map.mp hapart

end PayloadQueue

/-! ## Acknowledgement in place -/

namespace PayloadQueue

/-- Whether a chunk of the queue is acknowledged; `none` if it is not in the queue. -/
def ackedAt (q : PayloadQueue) (tsn : Tsn) : Option Bool :=
  (q.get tsn).map ChunkPayloadData.acknowledged

theorem ackedAt_modify (q : PayloadQueue) (tsn : Tsn) {f : ChunkPayloadData → ChunkPayloadData}
    {g : Bool → Bool} (h : ∀ c, (f c).acknowledged = g c.acknowledged) (t : Tsn) :
    (q.modify tsn f).ackedAt t = if t = tsn then (q.ackedAt t).map g else q.ackedAt t := by
  unfold ackedAt
  rw [get_modify]
  split
  · rw [Option.map_map, Option.map_map]
    exact congrArg (fun k => Option.map k (q.get t)) (funext h)
  · rfl

theorem ackedAt_acknowledge (q : PayloadQueue) (tsn t : Tsn) :
    (q.acknowledge tsn).2.ackedAt t = (q.ackedAt t).map fun acked => acked || decide (t = tsn) := by
  unfold acknowledge
  split
  · rw [ackedAt_modify q tsn (g := fun _ => true) (fun _ => rfl) t]
    split
    case isTrue heq => simp [heq]
    case isFalse hne => simp [hne]
  case _ hnone =>
    by_cases heq : t = tsn
    · simp [ackedAt, heq, hnone]
    · simp [heq]

theorem ackedAt_releasePayload (q : PayloadQueue) (tsn t : Tsn) :
    (q.releasePayload tsn).2.ackedAt t = q.ackedAt t := by
  unfold releasePayload
  split
  · refine (ackedAt_modify q tsn (f := fun c => { c with userData := [] }) (g := id)
      (fun _ => rfl) t).trans ?_
    split
    · exact Option.map_id_apply
    · rfl
  · rfl

end PayloadQueue

/-- The SACK acknowledges the TSN in one of its gap ack blocks. -/
def ChunkSelectiveAck.Acks (d : ChunkSelectiveAck) (tsn : Tsn) : Prop :=
  ∃ g ∈ d.gapAckBlocks, ∃ n, g.start.toNat ≤ n ∧ n ≤ g.end.toNat ∧
    tsn = d.cumulativeTsnAck + BitVec.ofNat 32 n

namespace Association
open PayloadQueue

/-! ## The decoder -/

theorem mem_gapTsns {d : ChunkSelectiveAck} {tsn : Tsn} : tsn ∈ gapTsns d ↔ d.Acks tsn := by
  unfold gapTsns ChunkSelectiveAck.Acks
  rw [List.mem_flatMap]
  refine exists_congr fun g => and_congr_right fun _ => ?_
  rw [List.mem_map]
  refine exists_congr fun n => ?_
  rw [List.mem_range'_1, eq_comm, ← and_assoc]
  refine and_congr_left fun _ => ?_
  omega

theorem inflightQueue_notePopped (s : CumAck) (c : ChunkPayloadData) (now : Instant) :
    (notePopped s c now).assoc.inflightQueue = s.assoc.inflightQueue ∧
      (notePopped s c now).assoc.myNextTsn = s.assoc.myNextTsn := by
  have hrtt : ∀ a : Association, (a.measureRtt c now).inflightQueue = a.inflightQueue ∧
      (a.measureRtt c now).myNextTsn = a.myNextTsn := by
    intro a
    unfold measureRtt
    split <;> exact ⟨rfl, rfl⟩
  unfold notePopped countPopped leaveFastRecovery
  dsimp only
  split
  · split
    · split <;> exact hrtt s.assoc
    · split <;> exact ⟨rfl, rfl⟩
  · split <;> exact ⟨rfl, rfl⟩

/-- The cumulative loop after `j` rounds: the first `j` chunks of the window are gone. -/
structure Popped (a : Association) (j : Nat) (s : CumAck) : Prop where
  error_eq : s.error = none
  i_eq : s.i = a.cumulativeTsnAckPoint + 1#32 + BitVec.ofNat 32 j
  next_eq : s.assoc.myNextTsn = a.myNextTsn
  window : Window s.i s.assoc.inflightQueue s.assoc.myNextTsn
  get_eq : ∀ tsn, s.assoc.inflightQueue.get tsn =
    if ahead (a.cumulativeTsnAckPoint + 1#32) tsn < j then none else a.inflightQueue.get tsn

variable {a : Association} {d : ChunkSelectiveAck} (now : Instant)

theorem Popped.round {j : Nat} {s : CumAck} (h : Popped a j s) (now : Instant)
    (hw : Window (a.cumulativeTsnAckPoint + 1#32) a.inflightQueue a.myNextTsn)
    (hj : j < ahead a.cumulativeTsnAckPoint d.cumulativeTsnAck)
    (hk : ahead a.cumulativeTsnAckPoint d.cumulativeTsnAck ≤ a.inflightQueue.sorted.length) :
    ∃ s', cumAckRound d now s = .yield s' ∧ Popped a (j + 1) s' := by
  have hlen := hw.length_le
  unfold maxWindow at hlen
  have hne : a.cumulativeTsnAckPoint ≠ d.cumulativeTsnAck := by
    intro heq
    rw [heq, ahead_self] at hj
    omega
  have hbase := ahead_succ hne
  have hi : ahead (a.cumulativeTsnAckPoint + 1#32) s.i = j := by
    rw [h.i_eq, ahead_add _ (by omega)]
  have hlte : sna32lte s.i d.cumulativeTsnAck = true := by
    rw [sna32lte_iff, ahead_eq_sub (a.cumulativeTsnAckPoint + 1#32) (by omega), hbase, hi]
    omega
  have hpos : 0 < s.assoc.inflightQueue.sorted.length := by
    rw [← h.window.ahead_next, h.next_eq,
      ahead_eq_sub (a.cumulativeTsnAckPoint + 1#32) (by rw [hi, hw.ahead_next]; omega), hi, hw.ahead_next]
    omega
  obtain ⟨c, -, hpop, hmap, hwin⟩ := h.window.pop hpos
  unfold cumAckRound
  rw [if_pos hlte]
  generalize s.assoc.inflightQueue.pop s.i = popped at hpop hmap hwin
  obtain ⟨p, q⟩ := popped
  obtain rfl : p = some c := hpop
  obtain ⟨hqueue, hnext⟩ :=
    inflightQueue_notePopped { s with assoc := { s.assoc with inflightQueue := q } } c now
  refine ⟨_, rfl, (notePopped_error _ c now).trans h.error_eq, ?_, hnext.trans h.next_eq, ?_, ?_⟩
  · rw [notePopped_i, h.i_eq, ← add_add, ]
  · rw [notePopped_i, hqueue, hnext]
    exact hwin
  · intro tsn
    change (notePopped { s with assoc := { s.assoc with inflightQueue := q } } c
      now).assoc.inflightQueue.get tsn = _
    rw [hqueue]
    change q.chunkMap.lookup tsn = _
    rw [hmap]
    by_cases heq : tsn = s.i
    · rw [heq, AList.lookup_erase, if_pos (by omega)]
    · have hold := h.get_eq tsn
      have hne' : ahead (a.cumulativeTsnAckPoint + 1#32) tsn ≠ j := fun hj' =>
        heq (ahead_inj (hj'.trans hi.symm))
      rw [AList.lookup_erase_ne heq]
      refine hold.trans (if_congr ?_ rfl rfl)
      omega

theorem cumAck_popped (hw : Window (a.cumulativeTsnAckPoint + 1#32) a.inflightQueue a.myNextTsn)
    (hk : ahead a.cumulativeTsnAckPoint d.cumulativeTsnAck ≤ a.inflightQueue.sorted.length) :
    Popped a (ahead a.cumulativeTsnAckPoint d.cumulativeTsnAck) (a.cumAck d now) := by
  have hlen := hw.length_le
  unfold maxWindow at hlen
  have hend : a.cumulativeTsnAckPoint + 1#32
      + BitVec.ofNat 32 (ahead a.cumulativeTsnAckPoint d.cumulativeTsnAck)
      = d.cumulativeTsnAck + 1#32 := by
    rw [BitVec.add_assoc, BitVec.add_comm 1#32, ← BitVec.add_assoc, add_ahead]
  have hstop : sna32lte (d.cumulativeTsnAck + 1#32) d.cumulativeTsnAck = false := by
    rw [← Bool.not_eq_true, sna32lte_iff, ahead_succ_self]
    omega
  have hleft : ∀ {j s}, j ≤ ahead a.cumulativeTsnAckPoint d.cumulativeTsnAck → Popped a j s →
      ahead s.i (d.cumulativeTsnAck + 1#32)
        = ahead a.cumulativeTsnAckPoint d.cumulativeTsnAck - j := by
    intro j s hj hs
    have hi := ahead_add (a.cumulativeTsnAckPoint + 1#32) (n := j) (by omega)
    have hto := ahead_add (a.cumulativeTsnAckPoint + 1#32)
      (n := ahead a.cumulativeTsnAckPoint d.cumulativeTsnAck) (by omega)
    rw [hs.i_eq, ← hend, ahead_eq_sub (a.cumulativeTsnAckPoint + 1#32) (by omega), hi, hto]
  unfold cumAck
  refine loop_post (fun s => ahead s.i (d.cumulativeTsnAck + 1#32))
    (I := fun s => ∃ j ≤ ahead a.cumulativeTsnAckPoint d.cumulativeTsnAck, Popped a j s)
    (P := Popped a (ahead a.cumulativeTsnAckPoint d.cumulativeTsnAck)) ?_ ?_ ?_ ?_
  -- a round that goes on is one TSN closer
  · rintro s s' ⟨j, hj, hs⟩ hround
    rcases Nat.lt_or_eq_of_le hj with hlt | heq
    · obtain ⟨t, ht, hpopped⟩ := hs.round now hw hlt hk
      obtain rfl : t = s' := ForInStep.yield.inj (ht.symm.trans hround)
      refine ⟨⟨j + 1, hlt, hpopped⟩, ?_⟩
      rw [hleft hj hs, hleft hlt hpopped]
      omega
    · unfold cumAckRound at hround
      rw [hs.i_eq, heq, hend, hstop, if_neg Bool.false_ne_true] at hround
      cases hround
  · rintro s s' ⟨j, hj, hs⟩ hround
    rcases Nat.lt_or_eq_of_le hj with hlt | heq
    · obtain ⟨t, ht, -⟩ := hs.round now hw hlt hk
      cases ht.symm.trans hround
    · unfold cumAckRound at hround
      rw [hs.i_eq, heq, hend, hstop, if_neg Bool.false_ne_true] at hround
      obtain rfl := ForInStep.done.inj hround
      exact heq ▸ hs
  · refine ⟨0, Nat.zero_le _, rfl, (BitVec.add_zero _).symm, rfl, hw, fun tsn => ?_⟩
    rw [if_neg (Nat.not_lt_zero _)]
  · rw [← hend, ahead_add _ (by omega)]
    by_cases heq : a.cumulativeTsnAckPoint = d.cumulativeTsnAck
    · rw [heq, ahead_self]
      omega
    · rw [ahead_succ heq]
      omega

theorem inflightQueue_noteGapAcked (s : GapAck) (c : ChunkPayloadData) (tsn : Tsn) (n : Nat)
    (now : Instant) : (noteGapAcked s c tsn n now).assoc.inflightQueue = s.assoc.inflightQueue := by
  unfold noteGapAcked
  split
  · unfold measureRtt
    split <;> rfl
  · rfl

theorem gapAckTsn_of_ackedAt {s : GapAck} {tsn : Tsn} (h : (s.assoc.inflightQueue.ackedAt tsn).isSome = true) :
    ∃ s', gapAckTsn now s tsn = some s' ∧ ∀ t, s'.assoc.inflightQueue.ackedAt t =
      (s.assoc.inflightQueue.ackedAt t).map fun acked => acked || decide (t = tsn) := by
  obtain ⟨c, hc⟩ : ∃ c, s.assoc.inflightQueue.get tsn = some c := by
    rw [PayloadQueue.ackedAt, Option.isSome_map] at h
    exact Option.isSome_iff_exists.mp h
  have hack := s.assoc.inflightQueue.ackedAt_acknowledge tsn
  unfold gapAckTsn
  rw [hc]
  generalize s.assoc.inflightQueue.acknowledge tsn = acknowledged at hack
  obtain ⟨newly, q⟩ := acknowledged
  dsimp only at hack ⊢
  split
  · have hrelease := q.ackedAt_releasePayload tsn
    generalize q.releasePayload tsn = released at hrelease
    obtain ⟨n, q'⟩ := released
    obtain ⟨c', hc'⟩ : ∃ c', q'.get tsn = some c' := by
      rw [← Option.isSome_iff_exists, ← Option.isSome_map (f := ChunkPayloadData.acknowledged)]
      change (q'.ackedAt tsn).isSome = true
      rw [hrelease, hack, Option.isSome_map]
      exact h
    rw [hc']
    refine ⟨_, rfl, fun t => ?_⟩
    rw [inflightQueue_noteGapAcked]
    exact (hrelease t).trans (hack t)
  · exact ⟨_, rfl, hack⟩

theorem gapAck_of_forall_ackedAt (tsns : List Tsn) {s : GapAck}
    (h : ∀ tsn ∈ tsns, (s.assoc.inflightQueue.ackedAt tsn).isSome = true) :
    ∃ s', gapAck now tsns s = (.ok (), s') ∧ ∀ t, s'.assoc.inflightQueue.ackedAt t =
      (s.assoc.inflightQueue.ackedAt t).map fun acked => acked || decide (t ∈ tsns) := by
  induction tsns generalizing s with
  | nil => exact ⟨s, rfl, fun t => by simp⟩
  | cons tsn rest ih =>
    obtain ⟨htsn, hrest⟩ := List.forall_mem_cons.mp h
    obtain ⟨s₁, hround, hacked⟩ := gapAckTsn_of_ackedAt now htsn
    obtain ⟨s₂, hgap, hacked'⟩ := ih (s := s₁) fun t ht => by
      rw [hacked, Option.isSome_map]
      exact hrest t ht
    refine ⟨s₂, ?_, fun t => ?_⟩
    · unfold gapAck
      rw [hround]
      exact hgap
    · rw [hacked', hacked, Option.map_map]
      congr 1
      funext acked
      simp [Bool.or_assoc]

/-- `process_selective_ack` of a SACK that acknowledges only what is in flight: the chunks up to its
    cumulative TSN leave the queue, and those in its blocks are marked. -/
theorem ackedAt_processSelectiveAck (hw : Window (a.cumulativeTsnAckPoint + 1#32) a.inflightQueue a.myNextTsn)
    (hk : ahead a.cumulativeTsnAckPoint d.cumulativeTsnAck ≤ a.inflightQueue.sorted.length)
    (hgap : ∀ tsn, d.Acks tsn → tsn ∈ a.inflightQueue.chunkMap ∧
    ahead a.cumulativeTsnAckPoint d.cumulativeTsnAck ≤ ahead (a.cumulativeTsnAckPoint + 1#32) tsn) :
    ∃ v a', a.processSelectiveAck d now = (.ok v, a') ∧ ∀ tsn, a'.inflightQueue.ackedAt tsn =
      if ahead (a.cumulativeTsnAckPoint + 1#32) tsn
          < ahead a.cumulativeTsnAckPoint d.cumulativeTsnAck then none
      else (a.inflightQueue.ackedAt tsn).map fun acked => acked || decide (tsn ∈ gapTsns d) := by
  have hpopped := cumAck_popped (d := d) now hw hk
  have hcum : ∀ tsn, (a.cumAck d now).assoc.inflightQueue.ackedAt tsn =
      if ahead (a.cumulativeTsnAckPoint + 1#32) tsn
          < ahead a.cumulativeTsnAckPoint d.cumulativeTsnAck then none
      else a.inflightQueue.ackedAt tsn := by
    intro tsn
    unfold PayloadQueue.ackedAt
    rw [hpopped.get_eq]
    split <;> rfl
  unfold processSelectiveAck
  dsimp only
  rw [hpopped.error_eq]
  obtain ⟨g, hg, hacked⟩ := gapAck_of_forall_ackedAt now (gapTsns d)
    (s := { assoc := (a.cumAck d now).assoc, tally := (a.cumAck d now).tally,
            htna := d.cumulativeTsnAck }) fun tsn htsn => by
      obtain ⟨hmem, hle⟩ := hgap tsn (mem_gapTsns.mp htsn)
      rw [hcum, if_neg (Nat.not_lt.mpr hle), PayloadQueue.ackedAt, Option.isSome_map]
      exact AList.lookup_isSome.mpr hmem
  rw [hg]
  refine ⟨_, _, rfl, fun tsn => ?_⟩
  have hrest : (g.assoc.restartT3 a.earliestOutstanding d g.tally.newlyAckedData).inflightQueue
      = g.assoc.inflightQueue := by
    unfold restartT3
    dsimp only
    split <;> split <;> rfl
  rw [hrest, hacked]
  rw [hcum]
  split <;> rfl

end Association

end Rtc.Sctp
