import Rtc.Sctp.Proofs.GapAck
import Rtc.Sctp.Proofs.InFlight

/-!
# Truthful SACKs

In every run the receiving side keeps its queue in serial order beyond `peer_last_tsn`. The SACK is truthful exactly
when no queued TSN is numerically below `peer_last_tsn`: `get_gap_ack_blocks` compares TSNs as plain numbers and
writes offset 0 for those beyond the wrap.
-/

namespace Rtc.Sctp
open Shared Serial Runs PayloadQueue

namespace Association

variable {a a' : Association}

/-! ## The received queue over runs -/

def ReceivedInv (a : Association) : Prop := Received a.peerLastTsn a.payloadQueue

section

variable (h : ReceivedInv a)
include h

theorem ReceivedInv.of_kept (hkept : ReceiverKept a a') : ReceivedInv a' := by
  unfold ReceivedInv
  rw [hkept.peerLastTsn_eq]
  exact Received.of_eq h hkept.sorted_eq hkept.chunkMap_eq

theorem ReceivedInv.of_frame (hqueue : a'.payloadQueue = a.payloadQueue)
    (hpeer : a'.peerLastTsn = a.peerLastTsn) : ReceivedInv a' := by
  unfold ReceivedInv
  rw [hqueue, hpeer]
  exact h

theorem ReceivedInv.close (reason : AssociationError) :
    ReceivedInv (a.close reason) :=
  h.of_kept (SenderStep.close a reason).toReceiverKept

theorem ReceivedInv.dispatch (now : Instant) (c : InChunk) : ReceivedInv (a.dispatch now c).2 := by
  cases c with
  | payloadData c => exact (ReceiverStep.handleData a c).received h
  | selectiveAck c =>
    have hkept := (kept_handleSack a c now).toReceiverKept
    unfold Association.dispatch
    dsimp only
    split
    case _ heq =>
      rw [heq] at hkept
      exact h.of_kept hkept
    case _ heq =>
      rw [heq] at hkept
      exact h.of_kept hkept
  | reconfig c => exact (ReceiverStep.respects.handleReconfig a c).received h
  | forwardTsn c => exact (ReceiverStep.respects.handleForwardTsn a c).received h
  | shutdown =>
    change ReceivedInv a.handleShutdown
    unfold Association.handleShutdown
    split
    · split <;> exact h.of_frame rfl rfl
    split
    · exact h.of_frame rfl rfl
    · exact h
  | shutdownAck =>
    change ReceivedInv a.handleShutdownAck
    unfold Association.handleShutdownAck
    split
    · exact h.of_frame rfl rfl
    · exact h
  | shutdownComplete =>
    change ReceivedInv a.handleShutdownComplete
    unfold Association.handleShutdownComplete
    split
    · refine ReceivedInv.close ?_ _
      exact h.of_frame rfl rfl
    · exact h

theorem ReceivedInv.handleChunks (now : Instant) (chunks : List InChunk) :
    ReceivedInv (handleChunks now chunks a).2 := by
  induction chunks generalizing a with
  | nil => exact h
  | cons c rest ih =>
    have hdispatch := h.dispatch now c
    unfold Association.handleChunks
    split
    case _ heq =>
      rw [heq] at hdispatch
      exact hdispatch
    case _ packets a₁ heq =>
      rw [heq] at hdispatch
      exact ih (hdispatch.of_frame rfl rfl)

theorem ReceivedInv.handleInbound (chunks : List InChunk) (now : Instant) :
    ReceivedInv (a.handleInbound chunks now) := by
  have hstart : ReceivedInv { a with delayedAckTriggered := false, immediateAckTriggered := false } :=
    h.of_frame rfl rfl
  have hchunks := hstart.handleChunks now chunks
  unfold Association.handleInbound
  dsimp only
  split
  case _ heq =>
    rw [heq] at hchunks
    unfold Association.handleChunkEnd
    split
    · exact hchunks.of_frame rfl rfl
    split
    · exact hchunks.of_frame rfl rfl
    · exact hchunks
  case _ heq =>
    rw [heq] at hchunks
    exact hchunks.close _

theorem ReceivedInv.step (input : Input) : ReceivedInv (a.step input) := by
  cases input with
  | openStream id =>
    refine h.of_kept ?_
    change ReceiverKept a (a.openStream id).2
    unfold Association.openStream
    split
    · exact .refl a
    · exact (SenderStep.createStream a id false).toReceiverKept
  | setReliabilityParams id unordered relType relVal =>
    exact h.of_kept (QuietStep.setReliabilityParams a id unordered relType relVal).toReceiverKept
  | write id now raw ppi => exact h.of_kept (SenderStep.writeSource a id now raw ppi).toReceiverKept
  | read id => exact (ReceiverStep.respects.readSctp a id).received h
  | stop id now => exact h.of_kept (QuietStep.stop a id now).toReceiverKept
  | inbound chunks now => exact h.handleInbound chunks now
  | gatherOutbound now => exact h.of_kept (QuietStep.gatherOutbound a now).toReceiverKept
  | timeout now => exact h.of_kept (QuietStep.handleTimeout a now).toReceiverKept
  | shutdown =>
    change ReceivedInv a.shutdown.2
    unfold Association.shutdown
    split
    · exact h
    · dsimp only
      split <;> exact h.of_frame rfl rfl

end

theorem receivedInv_run (config : AssociationConfig) (tsn peerTsn : Tsn) (peerRwnd : Nat)
    (forwardTsn : Bool) (inputs : List Input) :
    ReceivedInv (run step (start config tsn peerTsn peerRwnd forwardTsn) inputs) :=
  inv_run_of_step step (fun _ input h => h.step input) (Received.new _) inputs

/-! ## Truthful SACKs -/

def sack (a : Association) : ChunkSelectiveAck := a.createSelectiveAckChunk.1

/-- A sender `b` that has in flight what `a` would acknowledge: its window goes at least to `a`'s
    cumulative TSN, and holds the chunks in `a`'s queue. -/
structure SentBy (a b : Association) : Prop where
  window : Window (b.cumulativeTsnAckPoint + 1#32) b.inflightQueue b.myNextTsn
  cum_le : ahead b.cumulativeTsnAckPoint a.peerLastTsn ≤ b.inflightQueue.sorted.length
  sent : ∀ tsn ∈ a.payloadQueue.chunkMap, tsn ∈ b.inflightQueue.chunkMap

/-- The SACK acknowledges in its gap ack blocks the TSNs held in the queue and no others, in blocks that
    are not empty, increase and do not touch, and the sender takes it so: what is at or below the
    cumulative TSN leaves its window, and of the rest what is in the queue is marked. -/
structure SackTruthful (a : Association) : Prop where
  acks_iff : ∀ tsn, a.sack.Acks tsn ↔ tsn ∈ a.payloadQueue.chunkMap
  start_le_end : ∀ g ∈ a.sack.gapAckBlocks, g.start.toNat ≤ g.end.toNat
  apart : a.sack.gapAckBlocks.Pairwise fun g g' => g.end.toNat + 1 < g'.start.toNat
  peer : ∀ b now, SentBy a b → ∃ v b', b.processSelectiveAck a.sack now = (.ok v, b') ∧
    ∀ tsn, b'.inflightQueue.ackedAt tsn =
      if tsn ∈ interval (b.cumulativeTsnAckPoint + 1#32) (ahead b.cumulativeTsnAckPoint a.peerLastTsn)
      then none
      else (b.inflightQueue.ackedAt tsn).map fun acked =>
        acked || (a.payloadQueue.get tsn).isSome

theorem ReceivedInv.acks_iff (h : ReceivedInv a)
    (hnear : ∀ tsn ∈ a.payloadQueue.sorted, ahead a.peerLastTsn tsn ≤ 65535) (tsn : Tsn) :
    a.sack.Acks tsn ↔ ∃ t ∈ a.payloadQueue.sorted,
      tsn = a.peerLastTsn + BitVec.ofNat 32 (gapOffset a.peerLastTsn t).toNat := by
  have hcovered := Received.covered_iff h hnear
  constructor
  · rintro ⟨g, hg, n, hstart, hend, htsn⟩
    obtain ⟨t, ht, hoffset⟩ := (hcovered n).mp ⟨g, hg, hstart, hend⟩
    exact ⟨t, ht, hoffset ▸ htsn⟩
  · rintro ⟨t, ht, htsn⟩
    obtain ⟨g, hg, hstart, hend⟩ := (hcovered _).mpr ⟨t, ht, rfl⟩
    exact ⟨g, hg, _, hstart, hend, htsn⟩

theorem ReceivedInv.acks_iff_mem (h : ReceivedInv a)
    (hnear : ∀ tsn ∈ a.payloadQueue.sorted, ahead a.peerLastTsn tsn ≤ 65535)
    (hwrap : ∀ tsn ∈ a.payloadQueue.sorted, a.peerLastTsn.toNat ≤ tsn.toNat) (tsn : Tsn) :
    a.sack.Acks tsn ↔ tsn ∈ a.payloadQueue.chunkMap := by
  have hback : ∀ t ∈ a.payloadQueue.sorted,
      a.peerLastTsn + BitVec.ofNat 32 (gapOffset a.peerLastTsn t).toNat = t := by
    intro t ht
    rw [gapOffset_eq (hwrap t ht) (hnear t ht), add_ahead]
  rw [h.acks_iff hnear, Received.mem_iff h]
  constructor
  · rintro ⟨t, ht, rfl⟩
    rwa [hback t ht]
  · intro htsn
    exact ⟨tsn, htsn, (hback tsn htsn).symm⟩

theorem ReceivedInv.cum_le_ahead (h : ReceivedInv a) {b : Association} (hsent : SentBy a b)
    (hnear : ∀ tsn ∈ a.payloadQueue.sorted, ahead a.peerLastTsn tsn ≤ 65535) {tsn : Tsn}
    (htsn : tsn ∈ a.payloadQueue.chunkMap) :
    ahead b.cumulativeTsnAckPoint a.peerLastTsn ≤ ahead (b.cumulativeTsnAckPoint + 1#32) tsn := by
  have hmem := (Received.mem_iff h tsn).mp htsn
  have hpos := (Received.near h tsn hmem).1
  have hle := hnear tsn hmem
  have hlen := hsent.window.length_le
  have hcum := hsent.cum_le
  unfold maxWindow at hlen
  have hsum : ahead b.cumulativeTsnAckPoint tsn
      = ahead b.cumulativeTsnAckPoint a.peerLastTsn + ahead a.peerLastTsn tsn := by
    have hadd : b.cumulativeTsnAckPoint + BitVec.ofNat 32
        (ahead b.cumulativeTsnAckPoint a.peerLastTsn + ahead a.peerLastTsn tsn) = tsn := by
      rw [← add_add, add_ahead, add_ahead]
    rw [← ahead_add b.cumulativeTsnAckPoint (w := 32) (n := ahead b.cumulativeTsnAckPoint a.peerLastTsn
      + ahead a.peerLastTsn tsn) (by omega), hadd]
  have hne : b.cumulativeTsnAckPoint ≠ tsn := by
    intro heq
    rw [heq, ahead_self] at hsum
    omega
  rw [ahead_succ hne, hsum]
  omega

/-- In every run and for every queue within reach of the blocks, the SACK is truthful if and only if no
    queued TSN is numerically below the cumulative one. -/
theorem sackTruthful_iff (config : AssociationConfig) (tsn peerTsn : Tsn) (peerRwnd : Nat)
    (forwardTsn : Bool) (inputs : List Input) (a : Association)
    (ha : run step (start config tsn peerTsn peerRwnd forwardTsn) inputs = a)
    (hnear : ∀ t ∈ a.payloadQueue.chunkMap, ahead a.peerLastTsn t ≤ 65535) :
    SackTruthful a ↔ ∀ t ∈ a.payloadQueue.chunkMap, a.peerLastTsn.toNat ≤ t.toNat := by
  have h : ReceivedInv a := ha ▸ receivedInv_run config tsn peerTsn peerRwnd forwardTsn inputs
  have hnear' : ∀ t ∈ a.payloadQueue.sorted, ahead a.peerLastTsn t ≤ 65535 := fun t ht =>
    hnear t ((Received.mem_iff h t).mpr ht)
  constructor
  -- a TSN across the wrap is written as offset 0, which acknowledges the cumulative TSN
  · intro htruth t ht
    by_contra hlt
    have hsorted := (Received.mem_iff h t).mp ht
    have hacks : a.sack.Acks a.peerLastTsn := by
      refine (h.acks_iff hnear' _).mpr ⟨t, hsorted, ?_⟩
      rw [gapOffset_of_lt (Nat.not_le.mp hlt), BitVec.add_zero]
    have hcum := (Received.mem_iff h _).mp ((htruth.acks_iff _).mp hacks)
    have hpos := (Received.near h _ hcum).1
    rw [ahead_self] at hpos
    exact Nat.lt_irrefl 0 hpos
  · intro hwrap
    have hwrap' : ∀ t ∈ a.payloadQueue.sorted, a.peerLastTsn.toNat ≤ t.toNat := fun t ht =>
      hwrap t ((Received.mem_iff h t).mpr ht)
    have hacks := h.acks_iff_mem hnear' hwrap'
    refine ⟨hacks, Received.start_le_end h hnear', Received.pairwise_apart h hnear' hwrap', ?_⟩
    intro b now hsent
    obtain ⟨v, b', hprocess, hacked⟩ := ackedAt_processSelectiveAck (d := a.sack) now hsent.window
      hsent.cum_le fun t ht =>
        ⟨hsent.sent t ((hacks t).mp ht), h.cum_le_ahead hsent hnear' ((hacks t).mp ht)⟩
    refine ⟨v, b', hprocess, fun t => ?_⟩
    have hlen := hsent.window.length_le
    have hcum := hsent.cum_le
    unfold maxWindow at hlen
    have hgap : decide (t ∈ gapTsns a.sack) = (a.payloadQueue.get t).isSome := by
      rw [Bool.eq_iff_iff, decide_eq_true_iff, mem_gapTsns, hacks]
      exact AList.lookup_isSome.symm
    rw [hacked, hgap]
    refine if_congr (mem_interval ?_).symm rfl rfl
    exact Nat.le_trans hcum (by omega)

/-- A receiver that expects `peerTsn` and gets the chunk two after it. -/
def gapReceiver (peerTsn : Tsn) : Association :=
  run step (start ⟨2 ^ 20, 2 ^ 16, 1200, fun _ => 5⟩ 1 peerTsn (2 ^ 20) true)
    [.inbound [.payloadData { tsn := peerTsn + 2#32, userData := [7#8] }] 0]

/-- Away from the wrap the queue is acknowledged as it is. -/
theorem sackTruthful_iff_no_wrap : SackTruthful (gapReceiver 10) := by
  have hkeys : (gapReceiver 10).payloadQueue.chunkMap.keys = [12#32] := by decide +kernel
  refine (sackTruthful_iff _ _ _ _ _ _ (gapReceiver 10) rfl ?_).mpr ?_
  · intro t ht
    rw [AList.mem_keys, hkeys, List.mem_singleton] at ht
    rw [ht]
    decide +kernel
  · intro t ht
    rw [AList.mem_keys, hkeys, List.mem_singleton] at ht
    rw [ht]
    decide +kernel

/-- Across the wrap the SACK acknowledges the cumulative TSN once more and not the chunk queued, which is
    three ahead of it. -/
theorem sack_not_truthful_across_wrap :
    (gapReceiver 0xFFFFFFFF).peerLastTsn = 0xFFFFFFFE#32 ∧
      (gapReceiver 0xFFFFFFFF).payloadQueue.chunkMap.keys = [1#32] ∧
      (gapReceiver 0xFFFFFFFF).sack.gapAckBlocks = [{ start := 0, «end» := 0 }] ∧
      ¬ SackTruthful (gapReceiver 0xFFFFFFFF) := by
  have hpeer : (gapReceiver 0xFFFFFFFF).peerLastTsn = 0xFFFFFFFE#32 := by decide +kernel
  have hkeys : (gapReceiver 0xFFFFFFFF).payloadQueue.chunkMap.keys = [1#32] := by decide +kernel
  have hblocks : (gapReceiver 0xFFFFFFFF).sack.gapAckBlocks = [{ start := 0, «end» := 0 }] := by
    decide +kernel
  refine ⟨hpeer, hkeys, hblocks, fun htruth => ?_⟩
  have hmem : 1#32 ∈ (gapReceiver 0xFFFFFFFF).payloadQueue.chunkMap := by
    rw [AList.mem_keys, hkeys]
    exact List.mem_singleton_self _
  obtain ⟨g, hg, n, -, hend, htsn⟩ := (htruth.acks_iff 1#32).mpr hmem
  rw [hblocks, List.mem_singleton] at hg
  rw [hg] at hend
  have hcum : (gapReceiver 0xFFFFFFFF).sack.cumulativeTsnAck = 0xFFFFFFFE#32 := hpeer
  rw [hcum, Nat.le_zero.mp hend] at htsn
  exact absurd htsn (by decide)

end Association

end Rtc.Sctp
