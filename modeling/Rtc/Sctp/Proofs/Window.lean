import Rtc.Sctp.PayloadQueue

/-!
# A window of consecutive TSNs

`Window base q next`: `q` lists the TSNs from `base` up to, and not including, `next`, the map has exactly these keys,
and `n_bytes` is the sum of the payloads. The serial order can list at most `2 ^ 31` of them. `InPlace` relates a
queue to a later one with the same TSNs, `Evolves` to one in which chunks were also appended at `next`.
-/

namespace Rtc.Sctp
open Serial SortedInsert

/-- The most TSNs that serial order can sort. -/
def maxWindow : Nat := 2 ^ 31

namespace PayloadQueue

def payloadLength (c : ChunkPayloadData) : Nat := c.userData.length

/-- `q` holds the TSNs from `base` up to `next`. -/
structure Window (base : Tsn) (q : PayloadQueue) (next : Tsn) : Prop where
  sorted_eq : q.sorted = interval base q.sorted.length
  next_eq : next = base + BitVec.ofNat 32 q.sorted.length
  length_le : q.sorted.length ≤ maxWindow
  mem_iff : ∀ tsn, tsn ∈ q.chunkMap ↔ tsn ∈ q.sorted
  nBytes_eq : q.nBytes = Table.total payloadLength q.chunkMap
  tsn_eq : ∀ tsn c, q.get tsn = some c → c.tsn = tsn

namespace Window

variable {base next : Tsn} {q : PayloadQueue}

theorem new (base : Tsn) : Window base PayloadQueue.new base where
  sorted_eq := rfl
  next_eq := (BitVec.add_zero base).symm
  length_le := Nat.zero_le _
  mem_iff := fun _ => Iff.rfl
  nBytes_eq := rfl
  tsn_eq := fun _ _ h => nomatch h

variable (h : Window base q next)
include h

theorem mem_sorted (tsn : Tsn) : tsn ∈ q.sorted ↔ ahead base tsn < q.sorted.length := by
  have hlen := h.length_le
  unfold maxWindow at hlen
  rw [h.sorted_eq, length_interval, mem_interval (by omega)]

theorem ahead_next : ahead base next = q.sorted.length := by
  have hlen := h.length_le
  unfold maxWindow at hlen
  rw [h.next_eq, ahead_add base (by omega)]

theorem next_notMem : next ∉ q.chunkMap := by
  rw [h.mem_iff, h.mem_sorted, h.ahead_next]
  omega

theorem lookup_isSome {tsn : Tsn} : (∃ c, q.get tsn = some c) ↔ ahead base tsn < q.sorted.length := by
  rw [← h.mem_sorted, ← h.mem_iff]
  exact Table.mem_iff_lookup.symm

theorem insertSorted_next (hlt : q.sorted.length < maxWindow) :
    insertSorted q.sorted next = q.sorted ++ [next] := by
  unfold maxWindow at hlt
  refine insertBy_of_forall (fun x hx => ?_) next
  have hx' := (h.mem_sorted x).mp hx
  have hnext := h.ahead_next
  rw [sna32lt_iff_of_near base (by omega) (by omega), hnext]
  exact hx'

theorem pushNoCheck {c : ChunkPayloadData} (hc : c.tsn = next)
    (hlt : q.sorted.length < maxWindow) : Window base (q.pushNoCheck c) (next + 1#32) := by
  have hsorted : (q.pushNoCheck c).sorted = q.sorted ++ [next] := by
    rw [← h.insertSorted_next hlt, ← hc]
    rfl
  have hlen : (q.pushNoCheck c).sorted.length = q.sorted.length + 1 := by
    rw [hsorted, List.length_append, List.length_singleton]
  constructor
  · rw [hlen, interval_succ, hsorted, ← h.next_eq, ← h.sorted_eq]
  · rw [hlen, BitVec.ofNat_add, ← BitVec.add_assoc, ← h.next_eq]
  · rw [hlen]
    exact hlt
  · intro tsn
    rw [hsorted, List.mem_append, List.mem_singleton, ← h.mem_iff]
    change tsn ∈ q.chunkMap.insert c.tsn c ↔ _
    rw [AList.mem_insert, hc]
    exact or_comm
  · have hnot : c.tsn ∉ q.chunkMap := hc ▸ h.next_notMem
    change q.nBytes + c.userData.length = Table.total payloadLength (q.chunkMap.insert c.tsn c)
    rw [Table.total_insert payloadLength hnot, h.nBytes_eq]
    exact Nat.add_comm _ _
  · intro tsn c' hc'
    change (q.chunkMap.insert c.tsn c).lookup tsn = some c' at hc'
    by_cases heq : tsn = c.tsn
    · rw [heq, AList.lookup_insert] at hc'
      rw [heq, ← Option.some.inj hc']
    · rw [AList.lookup_insert_ne heq] at hc'
      exact h.tsn_eq tsn c' hc'

theorem pop (hpos : 0 < q.sorted.length) :
    ∃ c, q.get base = some c ∧ (q.pop base).1 = some c ∧
      (q.pop base).2.chunkMap = q.chunkMap.erase base ∧
      Window (base + 1#32) (q.pop base).2 next := by
  obtain ⟨n, hn⟩ : ∃ n, q.sorted.length = n + 1 := ⟨q.sorted.length - 1, by omega⟩
  have hsorted : q.sorted = base :: interval (base + 1#32) n := by
    rw [h.sorted_eq, hn, interval_cons]
  obtain ⟨c, hc⟩ := h.lookup_isSome.mpr (by rwa [ahead_self])
  have hpop := pop_eq hsorted hc
  refine ⟨c, hc, by rw [hpop], by rw [hpop], ?_⟩
  rw [hpop]
  have hlen := h.length_le
  constructor
  · simp only [length_interval]
  · simp only [length_interval]
    rw [h.next_eq, hn, add_add, Nat.add_comm]
  · simp only [length_interval]
    omega
  · intro tsn
    have hmem := h.mem_iff tsn
    have hnot : base ∉ interval (base + 1#32) n := by
      unfold maxWindow at hlen
      rw [mem_interval (by omega)]
      have hback : ahead (base + 1#32) base = 2 ^ 32 - 1 := by
        have hone : ahead base (base + 1#32) = 1 := ahead_add base (by omega)
        rw [ahead_of_lt base (by rw [ahead_self, hone]; omega), hone, ahead_self]
      omega
    simp only [AList.mem_erase, hmem, hsorted, List.mem_cons]
    constructor
    · rintro ⟨hne, heq | hin⟩
      · exact absurd heq hne
      · exact hin
    · intro hin
      exact ⟨fun heq => hnot (heq ▸ hin), Or.inr hin⟩
  · have hsum := Table.total_erase payloadLength (m := q.chunkMap) hc
    have hbytes := h.nBytes_eq
    simp only [payloadLength] at hsum hbytes ⊢
    omega
  · intro tsn c' hc'
    change (q.chunkMap.erase base).lookup tsn = some c' at hc'
    by_cases heq : tsn = base
    · rw [heq, AList.lookup_erase] at hc'
      cases hc'
    · rw [AList.lookup_erase_ne heq] at hc'
      exact h.tsn_eq tsn c' hc'

end Window

/-! ## Changes in place -/

/-- Chunks of the queue change and the TSNs listed do not. -/
structure InPlace (q q' : PayloadQueue) : Prop where
  sorted_eq : q'.sorted = q.sorted
  window : ∀ base next, Window base q next → Window base q' next

namespace InPlace

variable {q q' q'' : PayloadQueue}

theorem refl (q : PayloadQueue) : InPlace q q := ⟨rfl, fun _ _ h => h⟩

theorem trans (h : InPlace q q') (h' : InPlace q' q'') : InPlace q q'' :=
  ⟨h'.sorted_eq.trans h.sorted_eq, fun base next hw => h'.window base next (h.window base next hw)⟩

theorem update {f : Tsn → ChunkPayloadData → ChunkPayloadData}
    (hf : ∀ tsn c, payloadLength (f tsn c) = payloadLength c) (hf' : ∀ tsn c, (f tsn c).tsn = c.tsn)
    (q : PayloadQueue) : InPlace q { q with chunkMap := Table.update f q.chunkMap } := by
  refine ⟨rfl, fun base next hw => ?_⟩
  constructor
  · exact hw.sorted_eq
  · exact hw.next_eq
  · exact hw.length_le
  · intro tsn
    rw [AList.mem_keys, Table.keys_update, ← AList.mem_keys]
    exact hw.mem_iff tsn
  · exact hw.nBytes_eq.trans (Table.total_update hf q.chunkMap).symm
  · intro tsn c hc
    change (Table.update f q.chunkMap).lookup tsn = some c at hc
    rw [Table.lookup_update] at hc
    obtain ⟨c₀, hc₀, rfl⟩ := Option.map_eq_some_iff.mp hc
    rw [hf']
    exact hw.tsn_eq tsn c₀ hc₀

theorem modify {f : ChunkPayloadData → ChunkPayloadData}
    (hf : ∀ c, payloadLength (f c) = payloadLength c) (q : PayloadQueue) (tsn : Tsn)
    (hf' : ∀ c, (f c).tsn = c.tsn := by exact fun _ => rfl) : InPlace q (q.modify tsn f) := by
  refine update (fun tsn' c => ?_) (fun tsn' c => ?_) q
  · split
    · exact hf c
    · rfl
  · split
    · exact hf' c
    · rfl

theorem markAllToRetransmit (q : PayloadQueue) : InPlace q q.markAllToRetransmit := by
  refine update (fun _ c => ?_) (fun _ c => ?_) q <;> split <;> rfl

theorem acknowledge (q : PayloadQueue) (tsn : Tsn) : InPlace q (q.acknowledge tsn).2 := by
  unfold PayloadQueue.acknowledge
  split
  · exact modify (f := fun c => c.acknowledge.2) (fun _ => rfl) q tsn
  · exact refl q

theorem releasePayload (q : PayloadQueue) (tsn : Tsn) : InPlace q (q.releasePayload tsn).2 := by
  unfold PayloadQueue.releasePayload
  split
  case h_2 => exact refl q
  case h_1 c hc =>
    refine ⟨rfl, fun base next hw => ?_⟩
    constructor
    · exact hw.sorted_eq
    · exact hw.next_eq
    · exact hw.length_le
    · intro tsn'
      exact Table.mem_adjust.trans (hw.mem_iff tsn')
    · have hsum := Table.total_adjust (g := payloadLength)
        (f := fun c : ChunkPayloadData => { c with userData := [] }) hc
      have hbytes := hw.nBytes_eq
      simp only [payloadLength, List.length_nil, Nat.add_zero] at hsum hbytes
      change q.nBytes - c.userData.length = Table.total payloadLength (Table.adjust tsn _ q.chunkMap)
      omega
    · intro tsn' c' hc'
      change (Table.adjust tsn _ q.chunkMap).lookup tsn' = some c' at hc'
      rw [Table.lookup_adjust] at hc'
      split at hc'
      case isTrue heq =>
        subst heq
        obtain ⟨c₀, hc₀, rfl⟩ := Option.map_eq_some_iff.mp hc'
        exact hw.tsn_eq tsn' c₀ hc₀
      case isFalse => exact hw.tsn_eq tsn' c' hc'

end InPlace

/-! ## Evolution -/

/-- What happens to an in-flight queue between cumulative acknowledgements: it only gets longer, and
    stays a window while the serial order reaches. -/
structure Evolves (q : PayloadQueue) (next : Tsn) (q' : PayloadQueue) (next' : Tsn) : Prop where
  length_le : q.sorted.length ≤ q'.sorted.length
  window : ∀ base, Window base q next → q'.sorted.length ≤ maxWindow → Window base q' next'

namespace Evolves

variable {q q' q'' : PayloadQueue} {next next' next'' : Tsn}

theorem trans (h : Evolves q next q' next') (h' : Evolves q' next' q'' next'') : Evolves q next q'' next'' := by
  refine ⟨h.length_le.trans h'.length_le, fun base hw hlen => ?_⟩
  exact h'.window base (h.window base hw (h'.length_le.trans hlen)) hlen

theorem of_inPlace (h : InPlace q q') (next : Tsn) : Evolves q next q' next :=
  ⟨(congrArg List.length h.sorted_eq).ge, fun base hw _ => h.window base next hw⟩

theorem pushNoCheck (q : PayloadQueue) {next : Tsn} {c : ChunkPayloadData} (hc : c.tsn = next) :
    Evolves q next (q.pushNoCheck c) (next + 1#32) := by
  have hlen : (q.pushNoCheck c).sorted.length = q.sorted.length + 1 := length_insertBy _ _ _
  refine ⟨by omega, fun base hw hle => ?_⟩
  exact hw.pushNoCheck hc (by omega)

end Evolves
end PayloadQueue
end Rtc.Sctp
