import Rtc.Sctp.Proofs.ReceiverStep
import Rtc.Sctp.Proofs.SackWindow

/-!
# The in-flight window over whole runs

In every run in which at most `2 ^ 31` chunks are in flight at a time, as long as the association is not closed, the
in-flight queue is the window from the cumulative ack point to the next TSN. The association itself bounds only the
bytes in flight, and chunks acknowledged in a gap or abandoned have none left.
-/

namespace Rtc.Sctp
open Shared Serial Runs Loop PayloadQueue

namespace Association

/-- The in-flight queue lists, in serial order and once each, the TSNs from the cumulative ack point to the next
    TSN; the map has exactly these keys, and `n_bytes` is the sum of the payloads. -/
structure InFlightWindow (a : Association) : Prop where
  sorted_eq : a.inflightQueue.sorted
    = interval (a.cumulativeTsnAckPoint + 1#32) (ahead (a.cumulativeTsnAckPoint + 1#32) a.myNextTsn)
  nodup : a.inflightQueue.sorted.Nodup
  serial : a.inflightQueue.sorted.Pairwise fun x y => sna32lt x y = true
  mem_iff : ∀ tsn, tsn ∈ a.inflightQueue.chunkMap ↔ tsn ∈ a.inflightQueue.sorted
  nBytes_eq : a.inflightQueue.nBytes = Table.total payloadLength a.inflightQueue.chunkMap
  payload_le : ∀ tsn c, a.inflightQueue.get tsn = some c → c.userData.length ≤ a.inflightQueue.nBytes

/-- An association right after its handshake. -/
def start (config : AssociationConfig) (tsn peerTsn : Tsn) (peerRwnd : Nat) (forwardTsn : Bool) :
    Association :=
  (new config tsn).establish peerTsn peerRwnd forwardTsn

/-- The invariant of a run: until it is closed, an association has its window. -/
def InFlight (a : Association) : Prop :=
  a.state ≠ .closed → Window (a.cumulativeTsnAckPoint + 1#32) a.inflightQueue a.myNextTsn

variable {a a' : Association} {now : Instant} {s : StreamState} {k n : Nat}

/-! ## From the window to its parts -/

theorem serial_of_window {base next : Tsn} {q : PayloadQueue} (h : Window base q next) :
    q.sorted.Pairwise fun x y => sna32lt x y = true := by
  have hlen := h.length_le
  unfold maxWindow at hlen
  rw [h.sorted_eq]
  refine List.pairwise_map.mpr (List.pairwise_lt_range.imp_of_mem ?_)
  intro i j hi hj hij
  rw [List.mem_range] at hi hj
  have hai : ahead base (base + BitVec.ofNat 32 i) = i := ahead_add base (by omega)
  have haj : ahead base (base + BitVec.ofNat 32 j) = j := ahead_add base (by omega)
  rw [sna32lt_iff_of_near base (by omega) (by omega), hai, haj]
  exact hij

theorem inFlightWindow_of_window
    (h : Window (a.cumulativeTsnAckPoint + 1#32) a.inflightQueue a.myNextTsn) : InFlightWindow a where
  sorted_eq := by rw [h.ahead_next]; exact h.sorted_eq
  nodup := by
    refine (serial_of_window h).imp ?_
    rintro x y hlt rfl
    rw [sna32lt_iff, ahead_self] at hlt
    omega
  serial := serial_of_window h
  mem_iff := h.mem_iff
  nBytes_eq := h.nBytes_eq
  payload_le := fun tsn c hc => by
    rw [h.nBytes_eq]
    exact Table.le_total (g := payloadLength) hc

/-! ## Steps -/

theorem InFlight.of_senderStep (h : InFlight a) (hstep : SenderStep a a')
    (hlen : a'.inflightQueue.sorted.length ≤ maxWindow) : InFlight a' := by
  intro hopen
  rw [hstep.cum_eq]
  exact hstep.evolves.window _ (h fun hclosed => hopen (hstep.closed hclosed)) hlen

theorem InFlight.of_receiverStep (h : InFlight a) (hstep : ReceiverStep a a') : InFlight a' := by
  intro hopen
  rw [hstep.cum_eq, hstep.inflight_eq, hstep.next_eq]
  exact h fun hclosed => hopen (hstep.closed hclosed)

theorem InFlight.of_eq (h : InFlight a) (hclosed : a.state = .closed → a'.state = .closed)
    (hcum : a'.cumulativeTsnAckPoint = a.cumulativeTsnAckPoint)
    (hinflight : a'.inflightQueue = a.inflightQueue) (hnext : a'.myNextTsn = a.myNextTsn) : InFlight a' := by
  intro hopen
  rw [hcum, hinflight, hnext]
  exact h fun hc => hopen (hclosed hc)

theorem InFlight.of_closed (h : a.state = .closed) : InFlight a := fun hopen => absurd h hopen

section

variable (h : InFlight a)
include h

theorem InFlight.handleShutdown : InFlight a.handleShutdown := by
  unfold Association.handleShutdown
  split
  case _ hstate =>
    have hne : a.state ≠ .closed := by rw [hstate]; exact nofun
    split <;> exact h.of_eq (fun hc => absurd hc hne) rfl rfl rfl
  split
  case _ hstate =>
    have hne : a.state ≠ .closed := by rw [hstate]; exact nofun
    exact h.of_eq (fun hc => absurd hc hne) rfl rfl rfl
  · exact h

theorem InFlight.handleShutdownComplete : InFlight a.handleShutdownComplete := by
  unfold Association.handleShutdownComplete
  split
  · exact .of_closed (state_close _ _)
  · exact h

theorem InFlight.dispatch {c : InChunk} {packets : List Packet}
    (heq : a.dispatch now c = (.ok packets, a')) : InFlight a' := by
  cases c with
  | payloadData c =>
    cases heq
    exact h.of_receiverStep (.handleData a c)
  | selectiveAck c =>
    unfold Association.dispatch at heq
    dsimp only at heq
    split at heq
    case _ hsack =>
      cases heq
      have hkept := kept_handleSack a c now
      rw [hsack] at hkept
      intro hopen
      exact window_handleSack (h fun hclosed => hopen (hkept.closed hclosed)) hsack
    · cases heq
  | reconfig c =>
    have hstep := ReceiverStep.respects.handleReconfig a c
    have heq' : a.handleReconfig c = (.ok packets, a') := heq
    rw [heq'] at hstep
    exact h.of_receiverStep hstep
  | forwardTsn c =>
    cases heq
    exact h.of_receiverStep (ReceiverStep.respects.handleForwardTsn a c)
  | shutdown =>
    cases heq
    exact h.handleShutdown
  | shutdownAck =>
    cases heq
    unfold Association.handleShutdownAck
    split
    · exact h.of_eq id rfl rfl rfl
    · exact h
  | shutdownComplete =>
    cases heq
    exact h.handleShutdownComplete

theorem InFlight.handleChunks {chunks : List InChunk}
    (heq : handleChunks now chunks a = (.ok (), a')) : InFlight a' := by
  induction chunks generalizing a with
  | nil =>
    cases heq
    exact h
  | cons c rest ih =>
    unfold Association.handleChunks at heq
    split at heq
    · cases heq
    case _ packets a₁ hdispatch =>
      have h₁ : InFlight { a₁ with controlQueue := a₁.controlQueue ++ packets } :=
        (h.dispatch hdispatch).of_eq id rfl rfl rfl
      exact ih h₁ heq

theorem InFlight.handleInbound (chunks : List InChunk) (now : Instant) :
    InFlight (a.handleInbound chunks now) := by
  unfold Association.handleInbound
  dsimp only
  split
  case _ a₁ heq =>
    have hstart : InFlight { a with delayedAckTriggered := false, immediateAckTriggered := false } :=
      h.of_eq id rfl rfl rfl
    have h₁ := hstart.handleChunks heq
    unfold Association.handleChunkEnd
    split
    · exact h₁.of_eq id rfl rfl rfl
    split
    · exact h₁.of_eq id rfl rfl rfl
    · exact h₁
  · exact .of_closed (state_close _ _)

theorem InFlight.step (input : Input)
    (hlen : (a.step input).inflightQueue.sorted.length ≤ maxWindow) : InFlight (a.step input) := by
  cases input with
  | openStream id =>
    refine h.of_senderStep ?_ hlen
    change SenderStep a (a.openStream id).2
    unfold Association.openStream
    split
    · exact .refl a
    · exact .createStream a id false
  | setReliabilityParams id unordered relType relVal =>
    exact h.of_senderStep (QuietStep.setReliabilityParams a id unordered relType relVal).toSenderStep hlen
  | write id now raw ppi => exact h.of_senderStep (.writeSource a id now raw ppi) hlen
  | read id => exact h.of_receiverStep (ReceiverStep.respects.readSctp a id)
  | stop id now => exact h.of_senderStep (QuietStep.stop a id now).toSenderStep hlen
  | inbound chunks now => exact h.handleInbound chunks now
  | gatherOutbound now => exact h.of_senderStep (QuietStep.gatherOutbound a now).toSenderStep hlen
  | timeout now => exact h.of_senderStep (QuietStep.handleTimeout a now).toSenderStep hlen
  | shutdown =>
    change InFlight a.shutdown.2
    unfold Association.shutdown
    split
    · exact h
    case _ hstate =>
      have hne : a.state ≠ .closed := by
        intro hclosed
        simp [hclosed] at hstate
      dsimp only
      split <;> exact h.of_eq (fun hc => absurd hc hne) rfl rfl rfl

end

/-! ## Runs -/

/-- In every run with at most `2 ^ 31` chunks in flight at a time, the in-flight queue of an association
    that is not closed is the window from its ack point to its next TSN. -/
theorem inFlightWindow_of_run (config : AssociationConfig) (tsn peerTsn : Tsn) (peerRwnd : Nat)
    (forwardTsn : Bool) (inputs : List Input)
    (hrun : Meets step (fun a input => (a.step input).inflightQueue.sorted.length ≤ 2 ^ 31)
      (start config tsn peerTsn peerRwnd forwardTsn) inputs)
    (hopen : (run step (start config tsn peerTsn peerRwnd forwardTsn) inputs).state ≠ .closed) :
    InFlightWindow (run step (start config tsn peerTsn peerRwnd forwardTsn) inputs) := by
  have hstart : InFlight (start config tsn peerTsn peerRwnd forwardTsn) := by
    intro _
    change Window (tsn - 1#32 + 1#32) PayloadQueue.new tsn
    rw [BitVec.sub_add_cancel]
    exact .new tsn
  have hinv := inv_run step (fun a input h hlen => h.step input hlen) hstart hrun
  exact inFlightWindow_of_window (hinv hopen)

/-- A run with one message sent and acknowledged meets the condition, and the window is there. -/
theorem inFlightWindow_of_run_one_message :
    InFlightWindow (run step
      (start ⟨2 ^ 20, 2 ^ 16, 1200, fun _ => 5⟩ 0xFFFFFFFF#32 1 (2 ^ 20) true)
      [.openStream 0, .write 0 0 [1#8, 2#8] .binary, .gatherOutbound 0,
        .write 0 0 [3#8] .binary, .gatherOutbound 0]) :=
  inFlightWindow_of_run _ _ _ _ _ _
    ⟨by decide +kernel, by decide +kernel, by decide +kernel, by decide +kernel, by decide +kernel,
      trivial⟩
    (by decide +kernel)

/-! ## Past the serial order

The window has room for `2 ^ 32 - 1` bytes and one chunk in flight has none left, so `2 ^ 32` chunks of
one byte get a TSN each. Where they are put in the list does not matter: there are more than a window can
have. -/

/-- Settings under which the windows start at the largest `u32`. -/
def wideConfig : AssociationConfig where
  maxReceiveBufferSize := 2 ^ 20
  maxMessageSize := 2 ^ 16
  maxPayloadSize := 2 ^ 32 - 1
  maxRetrans := fun _ => 5

def oneByteWrite : Input := .write 0 0 [0#8] .binary

/-- A SACK that acknowledges the chunk after its cumulative TSN in a gap ack block. -/
def gapAckFirst : ChunkSelectiveAck where
  cumulativeTsnAck := 0
  advertisedReceiverWindowCredit := 2 ^ 32 - 1
  gapAckBlocks := [{ start := 1, «end» := 1 }]
  duplicateTsn := []

/-- One chunk in flight that is acknowledged in a gap. -/
def wideStart : Association :=
  run step (start wideConfig 1 1 (2 ^ 32 - 1) false)
    [.openStream 0, oneByteWrite, .gatherOutbound 0, .inbound [.selectiveAck gapAckFirst] 0]

/-- A message of one byte, to be sent reliably and in order. -/
structure SingleByte (c : ChunkPayloadData) : Prop where
  length_eq : c.userData.length = 1
  beginning : c.beginningFragment = true
  ending : c.endingFragment = true
  ordered : c.unordered = false
  reliable : c.reliability = .reliable

/-- `k` messages of one byte wait, `n` bytes are in flight in `n + 1` chunks, and the windows are as wide
    as they were at the start. -/
structure Backlog (k n : Nat) (a : Association) : Prop where
  state_eq : a.state = .established
  unorderedQueue_eq : a.pendingQueue.unorderedQueue = []
  selected_eq : a.pendingQueue.selected = false
  length_eq : a.pendingQueue.orderedQueue.length = k
  single : ∀ c ∈ a.pendingQueue.orderedQueue, SingleByte c
  sorted_length : a.inflightQueue.sorted.length = n + 1
  nBytes_eq : a.inflightQueue.nBytes = n
  cwnd_eq : a.cwnd = 2 ^ 32 - 1
  rwnd_eq : a.rwnd = 2 ^ 32 - 1 - n
  fast_eq : a.willRetransmitFast = false

structure Writing (k : Nat) (a : Association) : Prop extends Backlog k 0 a where
  queueLen_eq : a.pendingQueue.queueLen = k
  stream : ∃ s, a.streams.lookup 0 = some s ∧ s.state = .readWritable ∧ 0 < s.maxPayloadSize ∧
    s.unordered = false ∧ s.reliabilityType = .reliable
  maxMessageSize_pos : 0 < a.maxMessageSize
  t3_eq : a.t3RetransmitPending = false

theorem writing_wideStart : Writing 0 wideStart where
  state_eq := rfl
  unorderedQueue_eq := rfl
  selected_eq := rfl
  length_eq := rfl
  single := fun _ h => absurd h List.not_mem_nil
  sorted_length := rfl
  nBytes_eq := rfl
  cwnd_eq := rfl
  rwnd_eq := rfl
  queueLen_eq := rfl
  stream := ⟨_, rfl, rfl, by decide, rfl, rfl⟩
  maxMessageSize_pos := by decide
  t3_eq := rfl
  fast_eq := rfl

theorem writeSource_ok {id : StreamId} (now : Instant) (raw : List Byte)
    (ppi : PayloadProtocolIdentifier) (hlookup : a.streams.lookup id = some s)
    (hwritable : s.state = .readWritable) (hlen : raw.length ≤ a.maxMessageSize)
    (hstate : a.state = .established) :
    ∃ events, a.writeSource id now raw ppi = (.ok raw.length, { a with
      streams := Table.adjust id (fun _ => (s.packetize now raw ppi).2) a.streams
      events := events
      pendingQueue := (s.packetize now raw ppi).1.2.foldl PendingQueue.push a.pendingQueue }) := by
  unfold writeSource
  simp only [hlookup]
  rw [if_neg (by simp [hwritable]), if_neg (Nat.not_lt.mpr hlen), if_neg (by simp [hstate])]
  generalize s.packetize now raw ppi = packet
  obtain ⟨⟨high, chunks⟩, s'⟩ := packet
  cases high
  · refine ⟨a.events, ?_⟩
    simp [sendPayloadData, hstate]
  · refine ⟨a.events ++ [.stream (.bufferedAmountHigh id)], ?_⟩
    simp [sendPayloadData, hstate, pushEvent]

theorem packetize_single (now : Instant) (b : Byte) (hsize : 0 < s.maxPayloadSize)
    (hordered : s.unordered = false) (hreliable : s.reliabilityType = .reliable) :
    ∃ c, (s.packetize now [b] .binary).1.2 = [c] ∧ SingleByte c := by
  have hmin : min s.maxPayloadSize 1 = 1 := by omega
  unfold StreamState.packetize
  simp only [StreamState.fragments, List.length_singleton, hmin]
  refine ⟨_, rfl, rfl, rfl, rfl, ?_, ?_⟩
  · simp [hordered]
  · simp [StreamState.messageReliability, hreliable]

theorem Writing.write (h : Writing k a) : Writing (k + 1) (a.step oneByteWrite) := by
  obtain ⟨s, hlookup, hstate, hsize, hordered, hreliable⟩ := h.stream
  obtain ⟨c, hchunks, hc⟩ := packetize_single 0 0#8 hsize hordered hreliable
  obtain ⟨events, hwrite⟩ := writeSource_ok 0 [0#8] .binary hlookup hstate
    h.maxMessageSize_pos h.state_eq
  have hpush : a.pendingQueue.push c = { a.pendingQueue with
      nBytes := a.pendingQueue.nBytes + c.userData.length
      queueLen := a.pendingQueue.queueLen + 1
      orderedQueue := a.pendingQueue.orderedQueue ++ [c] } := by
    simp [PendingQueue.push, hc.ordered]
  rw [hchunks, List.foldl_cons, List.foldl_nil, hpush] at hwrite
  have hstep : a.step oneByteWrite = (a.writeSource 0 0 [0#8] .binary).2 := rfl
  rw [hstep, hwrite]
  constructor
  · constructor
    · exact h.state_eq
    · exact h.unorderedQueue_eq
    · exact h.selected_eq
    · simp [h.length_eq]
    · intro c' hc'
      rcases List.mem_append.mp hc' with hold | hnew
      · exact h.single c' hold
      · rw [List.mem_singleton.mp hnew]
        exact hc
    · exact h.sorted_length
    · exact h.nBytes_eq
    · exact h.cwnd_eq
    · exact h.rwnd_eq
    · exact h.fast_eq
  · simp [h.queueLen_eq]
  · refine ⟨(s.packetize 0 [0#8] .binary).2, ?_, hstate, hsize, hordered, hreliable⟩
    rw [Table.lookup_adjust_self, hlookup]
    rfl
  · exact h.maxMessageSize_pos
  · exact h.t3_eq

theorem Writing.run (h : Writing k a) (n : Nat) :
    Writing (k + n) (run step a (List.replicate n oneByteWrite)) := by
  induction n generalizing k a with
  | zero => exact h
  | succ n ih =>
    rw [List.replicate_succ, run_cons, Nat.add_comm n 1, ← Nat.add_assoc]
    exact ih h.write

/-- While messages wait and there is room, a round of the sending loop puts one in flight. -/
theorem Backlog.pendingRound {s : PendingScan} (h : Backlog (k + 1) n s.assoc)
    (hn : n < 2 ^ 32 - 1) (now : Instant) :
    ∃ s', pendingRound now s = .yield s' ∧ Backlog k (n + 1) s'.assoc ∧ s'.failed = s.failed := by
  obtain ⟨c, rest, hqueue⟩ : ∃ c rest, s.assoc.pendingQueue.orderedQueue = c :: rest := by
    cases hq : s.assoc.pendingQueue.orderedQueue with
    | nil => have := h.length_eq; rw [hq] at this; cases this
    | cons c rest => exact ⟨c, rest, rfl⟩
  have hc := h.single c (hqueue ▸ List.mem_cons_self)
  have hpeek : s.assoc.pendingQueue.peek = some c := by
    simp [PendingQueue.peek, h.selected_eq, h.unorderedQueue_eq, hqueue]
  have hexpired : s.assoc.pendingMessageExpired c now = false := by
    simp [pendingMessageExpired, timedDataExpired, hc.reliable, MessageReliability.deadline]
  have hcwnd : ¬ s.assoc.cwnd < s.assoc.inflightQueue.getNumBytes + c.userData.length := by
    rw [h.cwnd_eq, PayloadQueue.getNumBytes, h.nBytes_eq, hc.length_eq]
    omega
  have hrwnd : ¬ s.assoc.rwnd < c.userData.length := by
    rw [h.rwnd_eq, hc.length_eq]
    omega
  have hpop : s.assoc.pendingQueue.pop c.beginningFragment c.unordered =
      (some c, { s.assoc.pendingQueue with
        orderedQueue := rest
        nBytes := s.assoc.pendingQueue.nBytes - c.userData.length
        queueLen := s.assoc.pendingQueue.queueLen - 1
        orderedPopped := s.assoc.pendingQueue.orderedPopped + 1#64 }) := by
    simp [PendingQueue.pop, h.selected_eq, hc.beginning, hc.ordered, hc.ending, PendingQueue.popFront,
      PendingQueue.notePopped, hqueue]
  unfold Association.pendingRound
  simp only [hpeek, hexpired]
  rw [if_neg (by rw [hc.length_eq]; exact one_ne_zero), if_neg Bool.false_ne_true, if_neg hcwnd,
    if_neg hrwnd]
  refine ⟨_, rfl, ?_, ?_⟩
  · unfold movePending movePendingDataChunkToInflightQueue
    simp only [hpop]
    constructor
    · exact h.state_eq
    · exact h.unorderedQueue_eq
    · exact h.selected_eq
    · have hlen := h.length_eq
      rw [hqueue] at hlen
      exact Nat.succ.inj hlen
    · intro c' hc'
      exact h.single c' (hqueue ▸ List.mem_cons_of_mem c hc')
    · exact (SortedInsert.length_insertBy _ _ _).trans (congrArg (· + 1) h.sorted_length)
    · change s.assoc.inflightQueue.nBytes + c.userData.length = n + 1
      rw [h.nBytes_eq, hc.length_eq]
    · exact h.cwnd_eq
    · change s.assoc.rwnd - c.userData.length = 2 ^ 32 - 1 - (n + 1)
      rw [h.rwnd_eq, hc.length_eq, Nat.sub_sub]
    · exact h.fast_eq
  · unfold movePending
    split <;> rfl

theorem Backlog.peek_eq_none (h : Backlog 0 n a) : a.pendingQueue.peek = none := by
  simp [PendingQueue.peek, h.selected_eq, h.unorderedQueue_eq, List.length_eq_zero_iff.mp h.length_eq]

theorem Writing.popPending (h : Writing k a) (hpos : 0 < k) (hk : k ≤ 2 ^ 32 - 1)
    (now : Instant) : Backlog 0 k (a.popPendingDataChunksToSend now).2 := by
  have hloop : Backlog 0 k (loop (Association.pendingRound now) a.windowBound { assoc := a }).assoc ∧
      (loop (Association.pendingRound now) a.windowBound { assoc := a }).failed = false := by
    -- `j` messages are sent, the others wait
    refine loop_post (fun s : PendingScan => s.assoc.pendingQueue.orderedQueue.length)
      (I := fun s => (∃ i j, i + j = k ∧ Backlog i j s.assoc) ∧ s.failed = false)
      (P := fun s => Backlog 0 k s.assoc ∧ s.failed = false) ?_ ?_
      (s := { assoc := a }) ⟨⟨k, 0, rfl, h.toBacklog⟩, rfl⟩ ?_
    · rintro s s' ⟨⟨i, j, hij, hs⟩, hfailed⟩ hbody
      cases i with
      | zero =>
        unfold Association.pendingRound at hbody
        rw [hs.peek_eq_none] at hbody
        cases hbody
      | succ i =>
        obtain ⟨t, hround, ht, htf⟩ := hs.pendingRound (by omega) now
        obtain rfl : t = s' := by
          rw [hround] at hbody
          exact ForInStep.yield.inj hbody
        refine ⟨⟨⟨i, j + 1, by omega, ht⟩, htf.trans hfailed⟩, ?_⟩
        rw [ht.length_eq, hs.length_eq]
        exact Nat.lt_succ_self i
    · rintro s s' ⟨⟨i, j, hij, hs⟩, hfailed⟩ hbody
      cases i with
      | zero =>
        obtain rfl : j = k := by omega
        unfold Association.pendingRound at hbody
        rw [hs.peek_eq_none] at hbody
        rw [← ForInStep.done.inj hbody]
        exact ⟨hs, hfailed⟩
      | succ i =>
        obtain ⟨t, hround, -, -⟩ := hs.pendingRound (by omega) now
        rw [hround] at hbody
        cases hbody
    · unfold windowBound
      dsimp only
      omega
  have hqueue : a.pendingQueue.isEmpty = false := by
    simp only [PendingQueue.isEmpty, PendingQueue.len, h.queueLen_eq, beq_eq_false_iff_ne]
    omega
  unfold popPendingDataChunksToSend
  rw [hqueue, if_neg Bool.false_ne_true]
  dsimp only
  rw [hloop.2, if_neg Bool.false_ne_true]
  unfold probe
  split
  · rw [hloop.1.peek_eq_none]
    exact hloop.1
  · exact hloop.1

/-- A step that leaves the in-flight queue and the state as they are, and does not ask for a fast
    retransmission. -/
structure Quiet (a a' : Association) : Prop where
  state_eq : a'.state = a.state
  inflightQueue_eq : a'.inflightQueue = a.inflightQueue
  fast_eq : a'.willRetransmitFast = a.willRetransmitFast

theorem Quiet.trans {b c : Association} (h : Quiet a b) (h' : Quiet b c) : Quiet a c :=
  ⟨h'.state_eq.trans h.state_eq, h'.inflightQueue_eq.trans h.inflightQueue_eq,
    h'.fast_eq.trans h.fast_eq⟩

theorem quiet_gatherReconfig (a : Association) (sisToReset : List StreamId) (now : Instant) :
    Quiet a (a.gatherReconfig sisToReset now).2 := by
  unfold gatherReconfig
  split
  · exact ⟨rfl, rfl, rfl⟩
  · unfold requestReset
    dsimp only
    split <;> split <;> exact ⟨rfl, rfl, rfl⟩

theorem quiet_gatherOutboundSackPackets (a : Association) (packets : List Packet) :
    Quiet a (a.gatherOutboundSackPackets packets).2 := by
  unfold gatherOutboundSackPackets
  split <;> exact ⟨rfl, rfl, rfl⟩

theorem quiet_gatherOutboundForwardTsnPackets (a : Association) (packets : List Packet) :
    Quiet a (a.gatherOutboundForwardTsnPackets packets).2 := by
  unfold gatherOutboundForwardTsnPackets
  split
  · dsimp only
    split <;> exact ⟨rfl, rfl, rfl⟩
  · exact ⟨rfl, rfl, rfl⟩

theorem Writing.gatherData (h : Writing k a) (hpos : 0 < k) (hk : k ≤ 2 ^ 32 - 1)
    (packets : List Packet) (now : Instant) :
    ∃ a', Backlog 0 k a' ∧ Quiet a' (a.gatherOutboundDataAndReconfigPackets packets now).2 := by
  have hpop := h.popPending hpos hk now
  unfold gatherOutboundDataAndReconfigPackets
  generalize a.popPendingDataChunksToSend now = popped at hpop
  obtain ⟨⟨chunks, sisToReset⟩, a₁⟩ := popped
  refine ⟨a₁, hpop, ?_⟩
  dsimp only at hpop ⊢
  rw [if_neg (by simp [hpop.state_eq])]
  split
  · exact quiet_gatherReconfig a₁ sisToReset now
  · exact Quiet.trans (b := { a₁ with
      timers := a₁.timers.startIfIdle .t3Rtx now a₁.rtoMgr.getRto }) ⟨rfl, rfl, rfl⟩
      (quiet_gatherReconfig _ sisToReset now)

theorem gatherOutbound_established (h : a.state = .established) (now : Instant) :
    a.gatherOutbound now = { a with controlQueue := [] }.gatherEstablished a.controlQueue now := by
  unfold gatherOutbound
  dsimp only
  split <;> first | rfl | simp_all

theorem Writing.gatherEstablished (h : Writing k a) (hpos : 0 < k) (hk : k ≤ 2 ^ 32 - 1)
    (packets : List Packet) (now : Instant) :
    (a.gatherEstablished packets now).2.state = .established ∧
      (a.gatherEstablished packets now).2.inflightQueue.sorted.length = k + 1 := by
  obtain ⟨a', hbacklog, hquiet⟩ := h.gatherData hpos hk packets now
  unfold Association.gatherEstablished gatherDataPacketsToRetransmit
  rw [h.t3_eq, if_neg Bool.false_ne_true]
  dsimp only
  rw [if_neg (by simp [h.state_eq])]
  generalize a.gatherOutboundDataAndReconfigPackets packets now = data at hquiet
  obtain ⟨packets₁, a₁⟩ := data
  dsimp only at hquiet ⊢
  rw [if_neg (by simp [hquiet.state_eq, hbacklog.state_eq])]
  unfold gatherOutboundFastRetransmissionPackets
  rw [hquiet.fast_eq, hbacklog.fast_eq, if_neg Bool.false_ne_true]
  rw [if_neg (by simp [hquiet.state_eq, hbacklog.state_eq])]
  have hrest := hquiet.trans ((quiet_gatherOutboundSackPackets a₁ packets₁).trans
    (quiet_gatherOutboundForwardTsnPackets _ (a₁.gatherOutboundSackPackets packets₁).1))
  exact ⟨hrest.state_eq.trans hbacklog.state_eq,
    (congrArg (·.sorted.length) hrest.inflightQueue_eq).trans hbacklog.sorted_length⟩

theorem Writing.gatherOutbound (h : Writing k a) (hpos : 0 < k) (hk : k ≤ 2 ^ 32 - 1) :
    (a.step (.gatherOutbound 0)).state = .established ∧
      (a.step (.gatherOutbound 0)).inflightQueue.sorted.length = k + 1 := by
  have ha : Writing k { a with controlQueue := [] } := { h with }
  have hstep : a.step (.gatherOutbound 0) = (a.gatherOutbound 0).2 := rfl
  rw [hstep, gatherOutbound_established h.state_eq]
  exact ha.gatherEstablished hpos hk a.controlQueue 0

/-- With more chunks in flight than there are TSNs, the queue is no window: the list of an ack point and
    a next TSN has fewer than `2 ^ 32` elements. -/
theorem not_inFlightWindow_of_length (h : 2 ^ 32 ≤ a.inflightQueue.sorted.length) : ¬ InFlightWindow a := by
  intro hw
  have hlen := congrArg List.length hw.sorted_eq
  rw [length_interval] at hlen
  have hlt : ahead (a.cumulativeTsnAckPoint + 1#32) a.myNextTsn < 2 ^ 32 := BitVec.isLt _
  omega

/-- One chunk is put in flight and acknowledged in a gap, then `n` messages of one byte are written and
    sent. -/
def fillWindow (n : Nat) : List Input :=
  [.openStream 0, oneByteWrite, .gatherOutbound 0, .inbound [.selectiveAck gapAckFirst] 0]
    ++ List.replicate n oneByteWrite ++ [.gatherOutbound 0]

theorem run_fillWindow (hpos : 0 < n) (hn : n ≤ 2 ^ 32 - 1) :
    (run step (start wideConfig 1 1 (2 ^ 32 - 1) false) (fillWindow n)).state = .established ∧
      (run step (start wideConfig 1 1 (2 ^ 32 - 1) false) (fillWindow n)).inflightQueue.sorted.length
        = n + 1 := by
  have hwritten := writing_wideStart.run n
  rw [Nat.zero_add] at hwritten
  unfold fillWindow
  rw [run_append, run_append]
  exact hwritten.gatherOutbound hpos hn

/-- An open association whose in-flight queue is no window: `2 ^ 32` chunks are in flight at once. -/
theorem inFlightWindow_lost_past_serial_order :
    ∃ inputs, (run step (start wideConfig 1 1 (2 ^ 32 - 1) false) inputs).state = .established ∧
      ¬ InFlightWindow (run step (start wideConfig 1 1 (2 ^ 32 - 1) false) inputs) := by
  obtain ⟨hstate, hlen⟩ := run_fillWindow (n := 2 ^ 32 - 1) (by decide) (Nat.le_refl _)
  exact ⟨fillWindow (2 ^ 32 - 1), hstate, not_inFlightWindow_of_length hlen.ge⟩

end Association
end Rtc.Sctp
