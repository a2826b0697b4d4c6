import Rtc.Sctp.Proofs.Pending
import Rtc.Sctp.Proofs.SequenceNumbers

/-!
# Writes to a stream

`write_source` cuts the message with `packetize`, which counts it in the stream, before the association can still
refuse it; and `packetize` counts an empty ordered message, of which nothing is queued. Either leaves a hole in the
sequence numbers; without such writes they are consecutive from zero (`Tracked`).
-/

namespace Rtc.Sctp
open Shared Runs

/-- `packetize` sends the message ordered (`stream.rs:520-522`): DCEP always is. -/
def StreamState.sendsOrdered (s : StreamState) (ppi : PayloadProtocolIdentifier) : Bool :=
  ppi = .dcep || !s.unordered

namespace StreamState

variable (s : StreamState) (now : Instant) (raw : List Byte) (ppi : PayloadProtocolIdentifier)

theorem sequenceNumber_packetize : (s.packetize now raw ppi).2.sequenceNumber =
    if s.sendsOrdered ppi then s.sequenceNumber + 1#16 else s.sequenceNumber := by
  unfold packetize sendsOrdered
  by_cases hdcep : ppi = .dcep
  · simp [hdcep]
  · cases hunordered : s.unordered <;> simp [hdcep]

theorem bufferedAmount_packetize :
    (s.packetize now raw ppi).2.bufferedAmount = s.bufferedAmount + raw.length := rfl

theorem packetize_nil {ppi : PayloadProtocolIdentifier} (hordered : s.sendsOrdered ppi = false) :
    s.packetize now [] ppi = ((false, []), s) := by
  obtain ⟨hdcep, hunordered⟩ : ppi ≠ .dcep ∧ s.unordered = true := by simpa [sendsOrdered] using hordered
  have hmark : (decide (s.bufferedAmount < s.bufferedAmountHigh) &&
      decide (s.bufferedAmountHigh ≤ s.bufferedAmount)) = false := by
    rw [Bool.and_eq_false_iff, decide_eq_false_iff_not, decide_eq_false_iff_not]
    omega
  obtain ⟨size, id, generation, queue, number, state, unordered, relType, relVal, amount, low, high⟩ := s
  subst hunordered
  simp [packetize, fragments, hdcep, hmark]

/-- The number of the message that is cut, if it is ordered and there is something of it. -/
theorem head_packetize : ((s.packetize now raw ppi).1.2.head?.filter fun c => !c.unordered).map
      ChunkPayloadData.streamSequenceNumber =
    if s.sendsOrdered ppi = true ∧ raw ≠ [] then some s.sequenceNumber else none := by
  cases raw with
  | nil => simp [packetize, fragments]
  | cons b rest =>
    have hhead : ∃ c, (s.packetize now (b :: rest) ppi).1.2.head? = some c ∧
        c.streamSequenceNumber = s.sequenceNumber ∧ c.unordered = !s.sendsOrdered ppi := by
      unfold packetize sendsOrdered fragments
      refine ⟨_, rfl, rfl, ?_⟩
      by_cases hdcep : ppi = .dcep
      · simp [hdcep]
      · simp [hdcep]
    obtain ⟨c, hc, hnumber, hunordered⟩ := hhead
    rw [hc]
    cases hordered : s.sendsOrdered ppi <;> simp [hunordered, hordered, hnumber]

end StreamState

namespace Association

variable {a : Association} {id : StreamId} {s : StreamState} {now : Instant} {raw : List Byte}
  {ppi : PayloadProtocolIdentifier}

/-- The stream of which a write gets to `packetize`: it is writable, the message is not too large, and no
    shutdown is under way. -/
def reachedStream (a : Association) (id : StreamId) (raw : List Byte) : Option StreamState :=
  (a.streams.lookup id).filter fun s =>
    (s.state = .writable || s.state = .readWritable) && decide (raw.length ≤ a.maxMessageSize) &&
      !(a.state = .shutdownSent || a.state = .shutdownAckSent || a.state = .shutdownPending ||
        a.state = .shutdownReceived)

/-- The association once the message is cut. -/
def packetized (a : Association) (id : StreamId) (s : StreamState) (now : Instant) (raw : List Byte)
    (ppi : PayloadProtocolIdentifier) : Association :=
  { a with
    streams := Table.adjust id (fun _ => (s.packetize now raw ppi).2) a.streams
    events := if (s.packetize now raw ppi).1.1 then a.events ++ [.stream (.bufferedAmountHigh id)]
      else a.events }

theorem lookup_of_reachedStream (h : a.reachedStream id raw = some s) : a.streams.lookup id = some s :=
  (Option.filter_eq_some_iff.mp h).1

theorem writeSource_of_not_reached (h : a.reachedStream id raw = none) :
    ∃ e, a.writeSource id now raw ppi = (.error e, a) := by
  unfold writeSource
  split
  case _ s hs =>
    split
    · exact ⟨_, rfl⟩
    case _ hwritable =>
    split
    · exact ⟨_, rfl⟩
    case _ hsize =>
    split
    · exact ⟨_, rfl⟩
    case _ hshutdown =>
      refine absurd h ?_
      rw [reachedStream, hs]
      simp only [Option.filter_some]
      rw [if_pos]
      · exact nofun
      · simp_all
        tauto
  · exact ⟨_, rfl⟩

theorem writeSource_of_reached (h : a.reachedStream id raw = some s) : a.writeSource id now raw ppi =
    if a.state = .established then
      (.ok raw.length, { a.packetized id s now raw ppi with
        pendingQueue := (s.packetize now raw ppi).1.2.foldl PendingQueue.push a.pendingQueue })
    else (.error .errPayloadDataStateNotExist, a.packetized id s now raw ppi) := by
  obtain ⟨hs, hconditions⟩ := Option.filter_eq_some_iff.mp h
  simp only [Bool.and_eq_true, Bool.or_eq_true, decide_eq_true_eq, Bool.not_eq_true', Bool.or_eq_false_iff,
    decide_eq_false_iff_not] at hconditions
  obtain ⟨⟨hwritable, hsize⟩, ⟨⟨hsent, hackSent⟩, hpending⟩, hreceived⟩ := hconditions
  unfold writeSource
  rw [hs]
  dsimp only
  rw [if_neg (by rcases hwritable with hw | hw <;> simp [hw]), if_neg (not_lt.mpr hsize),
    if_neg (by simp [hsent, hackSent, hpending, hreceived])]
  unfold packetized
  rcases s.packetize now raw ppi with ⟨⟨high, chunks⟩, s'⟩
  cases high
  · by_cases hstate : a.state = .established
    · simp [sendPayloadData, hstate]
    · simp [sendPayloadData, hstate]
  · by_cases hstate : a.state = .established
    · simp [sendPayloadData, pushEvent, hstate]
    · simp [sendPayloadData, pushEvent, hstate]

/-! ## Failed writes -/

/-- If the write fails, the stream, the pending queue and the events are as they were. -/
def FailedWriteKeeps (a : Association) (id : StreamId) (now : Instant) (raw : List Byte)
    (ppi : PayloadProtocolIdentifier) : Prop :=
  ∀ e, (a.writeSource id now raw ppi).1 = .error e →
    (a.writeSource id now raw ppi).2.streams.lookup id = a.streams.lookup id ∧
      (a.writeSource id now raw ppi).2.pendingQueue = a.pendingQueue ∧
      (a.writeSource id now raw ppi).2.events = a.events

/-- The write gets to `packetize` in an association that is not established, with something to count: an
    ordered message, or one with payload. -/
def CutThenRefused (a : Association) (id : StreamId) (raw : List Byte) (ppi : PayloadProtocolIdentifier) :
    Prop :=
  ∃ s, a.reachedStream id raw = some s ∧ a.state ≠ .established ∧ (s.sendsOrdered ppi = true ∨ raw ≠ [])

/-- The write takes an ordered message that is empty. -/
def TakesEmpty (a : Association) (id : StreamId) (raw : List Byte) (ppi : PayloadProtocolIdentifier) : Prop :=
  ∃ s, a.reachedStream id raw = some s ∧ a.state = .established ∧ s.sendsOrdered ppi = true ∧ raw = []

theorem lookup_packetized (hs : a.streams.lookup id = some s) (id' : StreamId) :
    (a.packetized id s now raw ppi).streams.lookup id' =
      if id' = id then some (s.packetize now raw ppi).2 else a.streams.lookup id' := by
  change (Table.adjust id (fun _ => (s.packetize now raw ppi).2) a.streams).lookup id' = _
  rw [Table.lookup_adjust]
  split
  case isTrue heq =>
    rw [heq, hs]
    rfl
  · rfl

theorem lookup_writeSource (h : a.reachedStream id raw = some s) (id' : StreamId) :
    (a.writeSource id now raw ppi).2.streams.lookup id' =
      if id' = id then some (s.packetize now raw ppi).2 else a.streams.lookup id' := by
  rw [writeSource_of_reached h, ← @lookup_packetized a id s now raw ppi (lookup_of_reachedStream h)]
  split <;> rfl

theorem failedWriteKeeps_iff (a : Association) (id : StreamId) (now : Instant) (raw : List Byte)
    (ppi : PayloadProtocolIdentifier) : FailedWriteKeeps a id now raw ppi ↔ ¬ CutThenRefused a id raw ppi := by
  cases hreached : a.reachedStream id raw with
  | none =>
    obtain ⟨e, heq⟩ := @writeSource_of_not_reached a id now raw ppi hreached
    refine iff_of_true (fun _ _ => ?_) fun ⟨s, hs, _⟩ => ?_
    · rw [heq]
      exact ⟨rfl, rfl, rfl⟩
    · rw [hreached] at hs
      cases hs
  | some s =>
    have hs := lookup_of_reachedStream hreached
    have heq := @writeSource_of_reached a id s now raw ppi hreached
    have hcut : CutThenRefused a id raw ppi ↔
        a.state ≠ .established ∧ (s.sendsOrdered ppi = true ∨ raw ≠ []) := by
      simp [CutThenRefused, hreached]
    rw [hcut]
    by_cases hstate : a.state = .established
    · rw [if_pos hstate] at heq
      refine iff_of_true (fun e he => ?_) fun h => h.1 hstate
      rw [heq] at he
      cases he
    · rw [if_neg hstate] at heq
      constructor
      · rintro hkeeps ⟨_, hcounts⟩
        obtain ⟨hstream, _⟩ := hkeeps .errPayloadDataStateNotExist (by rw [heq])
        rw [heq, lookup_packetized hs, if_pos rfl, hs] at hstream
        have hsame := Option.some.inj hstream
        rcases hcounts with hordered | hraw
        · have hnumber := congrArg StreamState.sequenceNumber hsame
          rw [StreamState.sequenceNumber_packetize, if_pos hordered] at hnumber
          exact absurd hnumber (by simp)
        · have hamount := congrArg StreamState.bufferedAmount hsame
          rw [StreamState.bufferedAmount_packetize] at hamount
          exact hraw (List.eq_nil_of_length_eq_zero (by omega))
      · intro hnot e _
        obtain ⟨hordered, hraw⟩ : s.sendsOrdered ppi = false ∧ raw = [] := by
          simpa [hstate] using hnot
        subst hraw
        rw [heq]
        refine ⟨?_, rfl, ?_⟩
        · rw [lookup_packetized hs, if_pos rfl, StreamState.packetize_nil s now hordered, hs]
        · rw [packetized, StreamState.packetize_nil s now hordered]
          rfl

end Association

/-! ## The numbers of queued messages -/

/-- The numbers of the first `n` messages of a stream. -/
def firstNumbers (n : Nat) : List Ssn := (List.range n).map (BitVec.ofNat 16)

theorem firstNumbers_succ (n : Nat) : firstNumbers (n + 1) = firstNumbers n ++ [BitVec.ofNat 16 n] := by
  rw [firstNumbers, List.range_succ, List.map_append]
  rfl

/-- An association, and for each stream identifier the numbers of the ordered messages that were queued on
    the stream that has it now. -/
structure Tracked where
  assoc : HandshakeAssociation
  numbers : StreamId → List Ssn

namespace Tracked

def start (a : HandshakeAssociation) : Tracked := ⟨a, fun _ => []⟩

/-- The numbers of the ordered messages that an action puts in the pending queue. -/
def queued (a : Association) : Action → StreamId → List Ssn
  | .write id now raw ppi, id' =>
    match (a.writeSource id now raw ppi).1, a.streams.lookup id with
    | .ok _, some s =>
      if id' = id then
        (((s.packetize now raw ppi).1.2.head?.filter fun c => !c.unordered).map
          ChunkPayloadData.streamSequenceNumber).toList
      else []
    | _, _ => []
  | _, _ => []

/-- One action. The numbers of a stream start again where it is created, and go where it is removed. -/
def step (t : Tracked) (action : Action) : Tracked where
  assoc := t.assoc.act action
  numbers id :=
    (if (t.assoc.streams.lookup id).isSome && ((t.assoc.act action).streams.lookup id).isSome then
      t.numbers id else []) ++ queued t.assoc.toAssociation action id

/-- The sequence number of each stream is the number of ordered messages queued on it, and these have the
    numbers before. -/
structure Inv (t : Tracked) : Prop where
  numbers_eq : ∀ id, t.numbers id = firstNumbers (t.numbers id).length
  nil : ∀ id, t.assoc.streams.lookup id = none → t.numbers id = []
  next : ∀ id s, t.assoc.streams.lookup id = some s →
    s.sequenceNumber = BitVec.ofNat 16 (t.numbers id).length

/-- An ordered message is only counted if it is also queued. -/
def Counted (t : Tracked) : Action → Prop
  | .write id _ raw ppi => ∀ s, t.assoc.reachedStream id raw = some s → s.sendsOrdered ppi = true →
      t.assoc.state = .established ∧ raw ≠ []
  | _ => True

theorem Inv.start (a : HandshakeAssociation) (h : a.streams = ∅) : Inv (start a) where
  numbers_eq _ := rfl
  nil _ _ := rfl
  next id s hs := by
    change a.streams.lookup id = some s at hs
    rw [h] at hs
    cases hs

variable {t : Tracked} {action : Action} {a : Association} {id : StreamId}

theorem Inv.of_numbersStep (h : Inv t)
    (hwrite : ∀ id now raw ppi, action ≠ .write id now raw ppi) : Inv (t.step action) := by
  have hstep := HandshakeAssociation.numbersStep_act t.assoc hwrite
  have hqueued : ∀ id, queued t.assoc.toAssociation action id = [] := by
    intro id
    cases action with
    | write id' now raw ppi => exact absurd rfl (hwrite id' now raw ppi)
    | _ => rfl
  have hnumbers : ∀ id, (t.step action).numbers id =
      if (t.assoc.streams.lookup id).isSome && ((t.assoc.act action).streams.lookup id).isSome then
        t.numbers id else [] := by
    intro id
    change _ ++ _ = _
    rw [hqueued, List.append_nil]
  constructor
  · intro id
    rw [hnumbers]
    split
    · exact h.numbers_eq id
    · rfl
  · intro id hnone
    rw [hnumbers, if_neg]
    rw [show (t.assoc.act action).streams.lookup id = none from hnone]
    simp
  · intro id s' hs'
    rw [hnumbers, show (t.assoc.act action).streams.lookup id = some s' from hs']
    rcases hstep id s' hs' with ⟨s, hs, heq⟩ | ⟨hnone, hzero⟩
    · rw [heq, show t.assoc.streams.lookup id = some s from hs]
      exact h.next id s hs
    · rw [hzero, show t.assoc.streams.lookup id = none from hnone]
      rfl

theorem queued_of_not_reached {now : Instant} {raw : List Byte}
    {ppi : PayloadProtocolIdentifier} (h : a.reachedStream id raw = none) (id' : StreamId) :
    queued a (.write id now raw ppi) id' = [] := by
  obtain ⟨e, heq⟩ := @Association.writeSource_of_not_reached a id now raw ppi h
  rw [queued, heq]

theorem queued_of_reached {s : StreamState} {now : Instant}
    {raw : List Byte} {ppi : PayloadProtocolIdentifier} (h : a.reachedStream id raw = some s) (id' : StreamId) :
    queued a (.write id now raw ppi) id' =
      if a.state = .established ∧ id' = id ∧ s.sendsOrdered ppi = true ∧ raw ≠ [] then [s.sequenceNumber]
      else [] := by
  have hs := Association.lookup_of_reachedStream h
  rw [queued, Association.writeSource_of_reached h, hs]
  by_cases hstate : a.state = .established
  · rw [if_pos hstate]
    dsimp only
    rw [StreamState.head_packetize]
    by_cases hid : id' = id
    · by_cases hcounted : s.sendsOrdered ppi = true ∧ raw ≠ []
      · rw [if_pos hid, if_pos hcounted, if_pos ⟨hstate, hid, hcounted⟩]
        rfl
      · rw [if_pos hid, if_neg hcounted, if_neg fun hall => hcounted hall.2.2]
        rfl
    · rw [if_neg hid, if_neg fun hall => hid hall.2.1]
  · rw [if_neg hstate, if_neg fun hall => hstate hall.1]

theorem Inv.of_write (h : Inv t) {now : Instant} {raw : List Byte}
    {ppi : PayloadProtocolIdentifier} (hcounted : t.Counted (.write id now raw ppi)) :
    Inv (t.step (.write id now raw ppi)) := by
  cases hreached : t.assoc.reachedStream id raw with
  | none =>
    obtain ⟨e, heq⟩ := @Association.writeSource_of_not_reached t.assoc.toAssociation id now raw ppi hreached
    have hstreams : (t.step (.write id now raw ppi)).assoc.streams = t.assoc.streams := by
      change (t.assoc.toAssociation.writeSource id now raw ppi).2.streams = _
      rw [heq]
    have hnumbers : ∀ id', (t.step (.write id now raw ppi)).numbers id' = t.numbers id' := by
      intro id'
      change (if _ && (((t.step (.write id now raw ppi)).assoc.streams.lookup id').isSome) then _ else _) ++
        queued t.assoc.toAssociation _ id' = _
      rw [hstreams, queued_of_not_reached hreached, List.append_nil, Bool.and_self]
      split
      · rfl
      case isFalse hnone => exact (h.nil id' (Option.not_isSome_iff_eq_none.mp hnone)).symm
    constructor
    · intro id'
      rw [hnumbers]
      exact h.numbers_eq id'
    · intro id' hnone
      rw [hnumbers]
      exact h.nil id' (hstreams ▸ hnone)
    · intro id' s' hs'
      rw [hnumbers]
      exact h.next id' s' (hstreams ▸ hs')
  | some s =>
    have hs := Association.lookup_of_reachedStream hreached
    have hlookup : ∀ id', (t.step (.write id now raw ppi)).assoc.streams.lookup id' =
        if id' = id then some (s.packetize now raw ppi).2 else t.assoc.streams.lookup id' :=
      Association.lookup_writeSource hreached
    have hqueued := @queued_of_reached t.assoc.toAssociation id s now raw ppi hreached
    have hnext := h.next id s hs
    -- The numbers of the other streams stay, those of this one are extended by what is queued.
    have hother : ∀ id', id' ≠ id → (t.step (.write id now raw ppi)).numbers id' = t.numbers id' := by
      intro id' hid
      have hnone : queued t.assoc.toAssociation (.write id now raw ppi) id' = [] := by
        rw [hqueued, if_neg fun hall => hid hall.2.1]
      change (if _ && (((t.step (.write id now raw ppi)).assoc.streams.lookup id').isSome) then _ else _) ++
        queued t.assoc.toAssociation _ id' = _
      rw [hnone, hlookup, if_neg hid, List.append_nil, Bool.and_self]
      split
      · rfl
      case isFalse hnone => exact (h.nil id' (Option.not_isSome_iff_eq_none.mp hnone)).symm
    have hthis : (t.step (.write id now raw ppi)).numbers id =
        t.numbers id ++ if s.sendsOrdered ppi then [s.sequenceNumber] else [] := by
      have hcut : queued t.assoc.toAssociation (.write id now raw ppi) id =
          if s.sendsOrdered ppi then [s.sequenceNumber] else [] := by
        rw [hqueued]
        by_cases hordered : s.sendsOrdered ppi = true
        · obtain ⟨hstate, hraw⟩ := hcounted s hreached hordered
          rw [if_pos ⟨hstate, rfl, hordered, hraw⟩, if_pos hordered]
        · rw [if_neg fun hall => hordered hall.2.2.1, if_neg hordered]
      change (if (t.assoc.streams.lookup id).isSome &&
          (((t.step (.write id now raw ppi)).assoc.streams.lookup id).isSome) then _ else _) ++
        queued t.assoc.toAssociation _ id = _
      rw [hcut, hlookup, if_pos rfl, show t.assoc.streams.lookup id = some s from hs]
      rfl
    constructor
    · intro id'
      by_cases hid : id' = id
      · subst hid
        rw [hthis]
        cases s.sendsOrdered ppi
        · simpa using h.numbers_eq id'
        · rw [if_pos rfl, List.length_append, List.length_singleton, firstNumbers_succ, ← h.numbers_eq, hnext]
      · rw [hother id' hid]
        exact h.numbers_eq id'
    · intro id' hnone
      rw [hlookup] at hnone
      split at hnone
      · cases hnone
      case isFalse hid =>
        rw [hother id' hid]
        exact h.nil id' hnone
    · intro id' s' hs'
      rw [hlookup] at hs'
      split at hs'
      case isTrue hid =>
        subst hid
        cases hs'
        rw [hthis, StreamState.sequenceNumber_packetize, hnext]
        cases s.sendsOrdered ppi
        · simp
        · rw [if_pos rfl, if_pos rfl, List.length_append, List.length_singleton, BitVec.ofNat_add]
      case isFalse hid =>
        rw [hother id' hid]
        exact h.next id' s' hs'

theorem Inv.step (h : Inv t) (hcounted : t.Counted action) : Inv (t.step action) := by
  cases action with
  | write id now raw ppi => exact h.of_write hcounted
  | _ => exact h.of_numbersStep nofun

/-- In every run in which ordered messages are only counted if they are queued, their numbers are consecutive
    from zero. -/
theorem numbers_of_run {ok : Tracked → Action → Prop} (hok : ∀ t action, ok t action → t.Counted action)
    {a : HandshakeAssociation} (ha : a.streams = ∅) {actions : List Action}
    (hactions : Meets step ok (start a) actions) (id : StreamId) :
    (run step (start a) actions).numbers id = firstNumbers ((run step (start a) actions).numbers id).length :=
  (inv_run step (fun t action h hmeets => h.step (hok t action hmeets)) (Inv.start a ha) hactions).numbers_eq id

/-- A write leaves nothing behind if it fails, and takes no ordered message that is empty. -/
def LeavesNoHole (t : Tracked) : Action → Prop
  | .write id _ raw ppi => ¬ t.assoc.CutThenRefused id raw ppi ∧ ¬ t.assoc.TakesEmpty id raw ppi
  | _ => True

/-- A write succeeds, with a message that is unordered or not empty. -/
def SucceedsNonempty (t : Tracked) : Action → Prop
  | .write id now raw ppi => (∃ n, (t.assoc.writeSource id now raw ppi).1 = .ok n) ∧
      ∀ s, t.assoc.streams.lookup id = some s → s.sendsOrdered ppi = true → raw ≠ []
  | _ => True

theorem LeavesNoHole.counted (h : t.LeavesNoHole action) : t.Counted action := by
  cases action with
  | write id now raw ppi =>
    intro s hs hordered
    have hstate : t.assoc.state = .established := by
      by_contra hstate
      exact h.1 ⟨s, hs, hstate, .inl hordered⟩
    exact ⟨hstate, fun hraw => h.2 ⟨s, hs, hstate, hordered, hraw⟩⟩
  | _ => trivial

theorem SucceedsNonempty.counted (h : t.SucceedsNonempty action) : t.Counted action := by
  cases action with
  | write id now raw ppi =>
    intro s hs hordered
    obtain ⟨⟨n, hok⟩, hraw⟩ := h
    refine ⟨?_, hraw s (Association.lookup_of_reachedStream hs) hordered⟩
    by_contra hstate
    rw [Association.writeSource_of_reached hs, if_neg hstate] at hok
    cases hok
  | _ => trivial

end Tracked

theorem HandshakeAssociation.streams_new (config : AssociationConfig) (inbound outbound : BitVec 16)
    (client : Bool) (tsn : Tsn) (tag : BitVec 32) (now : Instant) :
    (HandshakeAssociation.new config inbound outbound client tsn tag now).streams = ∅ := by
  cases client <;> rfl

open HandshakeAssociation in
/-- A failed write leaves no trace exactly if it did not get to `packetize` with something to count; and in
    every run without such a write and without an empty ordered message, the sequence numbers of the ordered
    messages that were queued on a stream are consecutive from zero. -/
theorem failed_write_leaves_stream (a : Association) (id : StreamId) (now : Instant) (raw : List Byte)
    (ppi : PayloadProtocolIdentifier) (config : AssociationConfig) (inbound outbound : BitVec 16) (client : Bool)
    (tsn : Tsn) (tag : BitVec 32) (actions : List Action) :
    (a.FailedWriteKeeps id now raw ppi ↔ ¬ a.CutThenRefused id raw ppi) ∧
    (Meets Tracked.step Tracked.LeavesNoHole (.start (new config inbound outbound client tsn tag now)) actions →
      ∀ id, (run Tracked.step (.start (new config inbound outbound client tsn tag now)) actions).numbers id =
        firstNumbers ((run Tracked.step (.start (new config inbound outbound client tsn tag now))
          actions).numbers id).length) := by
  refine ⟨Association.failedWriteKeeps_iff a id now raw ppi, fun hactions id => ?_⟩
  exact Tracked.numbers_of_run (fun _ _ h => h.counted)
    (streams_new config inbound outbound client tsn tag now) hactions id

/-! ### A write before the handshake -/

/-- An association of the server that waits for an INIT. -/
def server : HandshakeAssociation :=
  .new ⟨1048576, 65536, 1200, fun _ => 8⟩ 65535 65535 false 100 1 0

/-- The INIT of a client, and the packet it comes in. -/
def clientInit : Wire.ChunkInit :=
  { initiateTag := 2, advertisedReceiverWindowCredit := 131072, numOutboundStreams := 65535
    numInboundStreams := 65535, initialTsn := 200 }

@[inherit_doc clientInit]
def clientPacket : Wire.Packet := ⟨⟨5000, 5000, 0⟩, [.init clientInit]⟩

/-- The two chunks that make the server an established association. -/
def handshake : List Action :=
  [.chunk clientPacket 0 [9] (.init clientInit), .chunk clientPacket 0 [9] (.cookieEcho [9])]

/-- A write that is refused because the handshake is not over takes number 0: the first message that is
    queued afterwards has number 1. -/
theorem refused_write_takes_number :
    (∃ a : Association, ¬ a.FailedWriteKeeps 1 0 [7] .binary) ∧
    (run Tracked.step (.start server)
      ([.openStream 1, .write 1 0 [7] .binary] ++ handshake ++ [.write 1 0 [7] .binary])).numbers 1 = [1] := by
  refine ⟨⟨(server.toAssociation.openStream 1).2, ?_⟩, by decide +kernel⟩
  rw [Association.failedWriteKeeps_iff, not_not]
  exact ⟨{ StreamState.new 1 1200 with generation := 0 }, by decide +kernel, by decide +kernel, .inl rfl⟩

/-! ## Messages cut into chunks -/

/-- The chunks carry the message: at least one, each of at most the payload size and none empty unless the
    message is, the first and only the first marked as the beginning, the last and only the last as the end,
    all with one sequence number and one unordered flag. -/
structure Carries (maxPayloadSize : Nat) (raw : List Byte) (chunks : List ChunkPayloadData) : Prop where
  nonempty : chunks ≠ []
  payload : chunks.flatMap ChunkPayloadData.userData = raw
  sizes : raw = [] ∨ ∀ c ∈ chunks, 1 ≤ c.userData.length ∧ c.userData.length ≤ maxPayloadSize
  beginning : chunks.map ChunkPayloadData.beginningFragment = true :: List.replicate (chunks.length - 1) false
  ending : chunks.map ChunkPayloadData.endingFragment = List.replicate (chunks.length - 1) false ++ [true]
  shared : ∃ ssn unordered, ∀ c ∈ chunks, c.streamSequenceNumber = ssn ∧ c.unordered = unordered

namespace StreamState

variable {template : ChunkPayloadData} {size : Nat}

theorem fragments_succ {n i : Nat} {rest : List Byte} (h : rest ≠ []) :
    fragments template size (n + 1) i rest = { template with
        userData := rest.take (min size rest.length)
        beginningFragment := i == 0
        endingFragment := rest.length - min size rest.length == 0 } ::
      fragments template size n (i + min size rest.length) (rest.drop (min size rest.length)) := by
  rw [fragments, if_neg (by simpa using h)]

theorem fragments_nil {n i : Nat} : fragments template size n i [] = [] := by
  cases n <;> rfl

theorem flatMap_fragments (hsize : 0 < size) {n i : Nat} {rest : List Byte} (hn : rest.length ≤ n) :
    (fragments template size n i rest).flatMap ChunkPayloadData.userData = rest := by
  induction n generalizing i rest with
  | zero =>
    rw [List.eq_nil_of_length_eq_zero (Nat.le_zero.mp hn)]
    rfl
  | succ n ih =>
    by_cases hrest : rest = []
    · subst hrest
      rfl
    · have hpos := List.length_pos_of_ne_nil hrest
      rw [fragments_succ hrest, List.flatMap_cons, ih (by rw [List.length_drop]; omega), List.take_append_drop]

theorem size_fragments {n i : Nat} {rest : List Byte} {c : ChunkPayloadData}
    (h : c ∈ fragments template size n i rest) : c.userData.length ≤ size := by
  induction n generalizing i rest with
  | zero => cases h
  | succ n ih =>
    by_cases hrest : rest = []
    · subst hrest
      cases h
    · rw [fragments_succ hrest] at h
      rcases List.mem_cons.mp h with rfl | h
      · rw [List.length_take]
        omega
      · exact ih h

theorem beginnings_fragments {n i : Nat} {rest : List Byte} (hi : 0 < i) :
    (fragments template size n i rest).map ChunkPayloadData.beginningFragment =
      List.replicate (fragments template size n i rest).length false := by
  induction n generalizing i rest with
  | zero => rfl
  | succ n ih =>
    by_cases hrest : rest = []
    · subst hrest
      rfl
    · rw [fragments_succ hrest, List.map_cons, List.length_cons, List.replicate_succ, ih (by omega)]
      simp [hi.ne']

theorem endings_fragments (hsize : 0 < size) {n i : Nat} {rest : List Byte} (hrest : rest ≠ [])
    (hn : rest.length ≤ n) :
    (fragments template size n i rest).map ChunkPayloadData.endingFragment =
      List.replicate ((fragments template size n i rest).length - 1) false ++ [true] := by
  induction n generalizing i rest with
  | zero => exact absurd (List.eq_nil_of_length_eq_zero (Nat.le_zero.mp hn)) hrest
  | succ n ih =>
    have hpos := List.length_pos_of_ne_nil hrest
    rw [fragments_succ hrest]
    by_cases hmore : rest.drop (min size rest.length) = []
    · have hlast := List.drop_eq_nil_iff.mp hmore
      rw [hmore, fragments_nil]
      simp [Nat.sub_eq_zero_of_le hlast]
    · have hlast : ¬ rest.length ≤ min size rest.length := fun h => hmore (List.drop_eq_nil_iff.mpr h)
      have hlength : 0 < (fragments template size n (i + min size rest.length)
          (rest.drop (min size rest.length))).length := by
        cases n with
        | zero => omega
        | succ n =>
          rw [fragments_succ hmore]
          exact Nat.succ_pos _
      have hends := @ih (i + min size rest.length) _ hmore (by rw [List.length_drop]; omega)
      rw [List.map_cons, hends, List.length_cons, Nat.add_sub_cancel]
      obtain ⟨m, hm⟩ := Nat.exists_eq_succ_of_ne_zero hlength.ne'
      rw [hm, Nat.succ_sub_one, List.replicate_succ]
      have hflag : (rest.length - min size rest.length == 0) = false := by simp; omega
      simp [hflag]

theorem carries_packetize_iff {s : StreamState} (hsize : 0 < s.maxPayloadSize) (now : Instant)
    (raw : List Byte) (ppi : PayloadProtocolIdentifier) :
    Carries s.maxPayloadSize raw (s.packetize now raw ppi).1.2 ↔ raw ≠ [] := by
  constructor
  · rintro hcarries rfl
    exact hcarries.nonempty rfl
  · intro hraw
    obtain ⟨n, hn⟩ : ∃ n, raw.length = n + 1 :=
      Nat.exists_eq_succ_of_ne_zero (List.length_pos_of_ne_nil hraw).ne'
    constructor
    · unfold packetize
      dsimp only
      rw [hn, fragments_succ hraw]
      exact List.cons_ne_nil _ _
    · exact flatMap_fragments hsize le_rfl
    · exact .inr fun c hc => ⟨List.length_pos_of_ne_nil (userData_fragments hsize hc), size_fragments hc⟩
    · unfold packetize
      dsimp only
      rw [hn, fragments_succ hraw, List.map_cons, List.length_cons, Nat.add_sub_cancel,
        beginnings_fragments (by omega)]
      rfl
    · exact endings_fragments hsize hraw le_rfl
    · refine ⟨s.sequenceNumber, ppi ≠ .dcep && s.unordered, fun c hc => ?_⟩
      rw [mem_packetize hc]
      exact ⟨rfl, rfl⟩

end StreamState

open HandshakeAssociation in
/-- A write that succeeds queues chunks that carry the message exactly if the message is not empty; and in
    every run of writes that succeed, none of them with an empty ordered message, the sequence numbers of the
    ordered messages that were queued on a stream are consecutive from zero. -/
theorem write_carries_message (a : Association) (id : StreamId) (s : StreamState) (now : Instant) (raw : List Byte)
    (ppi : PayloadProtocolIdentifier) (n : Nat) (config : AssociationConfig) (inbound outbound : BitVec 16)
    (client : Bool) (tsn : Tsn) (tag : BitVec 32) (actions : List Action) :
    (a.streams.lookup id = some s → 0 < s.maxPayloadSize →
      (a.writeSource id now raw ppi).1 = .ok n →
      (a.writeSource id now raw ppi).2.pendingQueue =
          (s.packetize now raw ppi).1.2.foldl PendingQueue.push a.pendingQueue ∧
        (Carries s.maxPayloadSize raw (s.packetize now raw ppi).1.2 ↔ raw ≠ [])) ∧
    (Meets Tracked.step Tracked.SucceedsNonempty (.start (new config inbound outbound client tsn tag now))
        actions →
      ∀ id, (run Tracked.step (.start (new config inbound outbound client tsn tag now)) actions).numbers id =
        firstNumbers ((run Tracked.step (.start (new config inbound outbound client tsn tag now))
          actions).numbers id).length) := by
  constructor
  · intro hs hsize hok
    refine ⟨?_, StreamState.carries_packetize_iff hsize now raw ppi⟩
    cases hreached : a.reachedStream id raw with
    | none =>
      obtain ⟨e, heq⟩ := @Association.writeSource_of_not_reached a id now raw ppi hreached
      rw [heq] at hok
      cases hok
    | some s' =>
      cases hs.symm.trans (Association.lookup_of_reachedStream hreached)
      have heq := @Association.writeSource_of_reached a id s now raw ppi hreached
      by_cases hstate : a.state = .established
      · rw [heq, if_pos hstate]
      · rw [heq, if_neg hstate] at hok
        cases hok
  · intro hactions id
    exact Tracked.numbers_of_run (fun _ _ h => h.counted)
      (streams_new config inbound outbound client tsn tag now) hactions id

/-- An empty message is taken and given number 0, but nothing of it is queued: the message behind it has
    number 1. -/
theorem empty_message_takes_number :
    ((run Tracked.step (.start server) (handshake ++ [.openStream 1])).assoc.writeSource 1 0 [] .binary).1
        = .ok 0 ∧
      ¬ Carries 1200 [] ((StreamState.new 1 1200).packetize 0 [] .binary).1.2 ∧
      (run Tracked.step (.start server) (handshake ++ [.openStream 1, .write 1 0 [] .binary,
        .write 1 0 [7] .binary])).numbers 1 = [1] :=
  ⟨by decide +kernel, fun hcarries => hcarries.nonempty rfl, by decide +kernel⟩

end Rtc.Sctp
