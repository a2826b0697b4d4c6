import Rtc.Sctp.Proofs.Unordered

/-!
# What a reassembly queue holds

`held` lists the chunks of a reassembly queue. A chunk that `push` takes is held afterwards, and `read` takes the
chunks of the set that it returns. As long as the SSNs of the sets are less than half the number space ahead of the
next one, the sets are in order, and the set that is next is first.
-/

namespace Rtc.Sctp
open Serial SortedInsert

theorem Chunks.push_eq {s : Chunks} {c : ChunkPayloadData} (h : ∀ d ∈ s.chunks, d.tsn ≠ c.tsn) :
    (s.push c).2 = { s with chunks := insertBy (fun d => sna32lt d.tsn c.tsn) c s.chunks } := by
  unfold push
  rw [if_neg]
  rw [Option.any_eq_true]
  rintro ⟨d, hd, heq⟩
  exact h d (List.mem_of_getElem? hd) (beq_iff_eq.mp heq)

theorem Chunks.ssn_push (s : Chunks) (c : ChunkPayloadData) : (s.push c).2.ssn = s.ssn := by
  unfold push
  dsimp only
  split <;> rfl

namespace ReassemblyQueue

variable {q : ReassemblyQueue} {c : ChunkPayloadData}

def held (q : ReassemblyQueue) : List ChunkPayloadData :=
  q.ordered.flatMap Chunks.chunks ++ (q.unordered.flatMap Chunks.chunks ++ q.unorderedChunks)

/-! ## push -/

theorem pushUnordered_eq (q : ReassemblyQueue) (c : ChunkPayloadData) :
    (q.pushUnordered c).2.si = q.si ∧ (q.pushUnordered c).2.nextSsn = q.nextSsn ∧
      (q.pushUnordered c).2.ordered = q.ordered ∧ (q.pushUnordered c).2.held.Perm (c :: q.held) := by
  have hpool := perm_insertBy (fun d => sna32lt d.tsn c.tsn) c q.unorderedChunks
  have hmiddle : ∀ l : List ChunkPayloadData, l.Perm (c :: (q.unordered.flatMap Chunks.chunks
      ++ q.unorderedChunks)) → (q.ordered.flatMap Chunks.chunks ++ l).Perm (c :: q.held) :=
    fun l hl => (hl.append_left _).trans List.perm_middle
  unfold pushUnordered
  dsimp only
  generalize insertBy (fun d => sna32lt d.tsn c.tsn) c q.unorderedChunks = pool at hpool
  rcases findCompleteUnorderedChunkSet_cases { q with
      nBytes := q.nBytes + c.userData.length, unorderedChunks := pool } with
    ⟨heq, -⟩ | ⟨before, run, after, set, hsplit, -, rfl, heq⟩
  · rw [heq]
    exact ⟨rfl, rfl, rfl, hmiddle _ ((hpool.append_left _).trans List.perm_middle)⟩
  · rw [heq]
    dsimp only at hsplit
    rw [hsplit] at hpool
    refine ⟨rfl, rfl, rfl, hmiddle _ ?_⟩
    rw [List.flatMap_append, List.flatMap_singleton, List.append_assoc]
    have hmove : (set.chunks ++ (before ++ after)).Perm (before ++ set.chunks ++ after) := by
      rw [← List.append_assoc]
      exact List.perm_append_comm.append_right after
    exact ((hmove.trans hpool).append_left _).trans List.perm_middle

/-- Where an ordered chunk goes that is not behind the next SSN: into the set of its SSN if that is at the
    place of its SSN, and otherwise into a new one there. -/
theorem pushOrdered_eq (h : sna16lt c.streamSequenceNumber q.nextSsn = false) :
    ∃ before after set arrival, (q.pushOrdered c).2 = { q with
        nBytes := q.nBytes + c.userData.length
        ordered := before ++ set :: after
        nextArrival := arrival } ∧
      before = q.ordered.takeWhile (fun s => sna16lt s.ssn c.streamSequenceNumber) ∧
      set.ssn = c.streamSequenceNumber ∧
      ((∃ old, q.ordered = before ++ old :: after ∧ old.ssn = c.streamSequenceNumber ∧
          set = (old.push c).2) ∨
        (q.ordered = before ++ after ∧ set.chunks = [c] ∧
          after.head?.all (fun s => s.ssn ≠ c.streamSequenceNumber) = true)) := by
  have hnew : ∀ after, q.ordered.dropWhile (fun s => sna16lt s.ssn c.streamSequenceNumber) = after →
      after.head?.all (fun s => s.ssn ≠ c.streamSequenceNumber) = true →
      ∃ before after set arrival, ({ q with
          nBytes := q.nBytes + c.userData.length }.insertNewSet
          (fun s => sna16lt s.ssn c.streamSequenceNumber) c).2 = { q with
        nBytes := q.nBytes + c.userData.length
        ordered := before ++ set :: after
        nextArrival := arrival } ∧
      before = q.ordered.takeWhile (fun s => sna16lt s.ssn c.streamSequenceNumber) ∧
      set.ssn = c.streamSequenceNumber ∧
      ((∃ old, q.ordered = before ++ old :: after ∧ old.ssn = c.streamSequenceNumber ∧
          set = (old.push c).2) ∨
        (q.ordered = before ++ after ∧ set.chunks = [c] ∧
          after.head?.all (fun s => s.ssn ≠ c.streamSequenceNumber) = true)) := by
    intro after hafter hhead
    refine ⟨_, after, ⟨c.streamSequenceNumber, c.payloadType, [c], q.nextArrival⟩, q.nextArrival + 1, ?_,
      rfl, rfl, .inr ⟨?_, rfl, hhead⟩⟩
    · unfold insertNewSet
      dsimp only
      rw [insertBy_eq, hafter]
      rfl
    · rw [← hafter, List.takeWhile_append_dropWhile]
  unfold pushOrdered
  dsimp only
  rw [h, if_neg Bool.false_ne_true, getElem?_partitionPoint]
  cases hdrop : q.ordered.dropWhile (fun s => sna16lt s.ssn c.streamSequenceNumber) with
  | nil => exact hnew [] hdrop rfl
  | cons s rest =>
    dsimp only [List.head?_cons]
    by_cases hssn : s.ssn = c.streamSequenceNumber
    · rw [if_pos hssn]
      refine ⟨_, rest, (s.push c).2, q.nextArrival, ?_, rfl, (s.ssn_push c).trans hssn,
        .inl ⟨s, ?_, hssn, rfl⟩⟩
      · rw [set_partitionPoint hdrop]
      · rw [← hdrop, List.takeWhile_append_dropWhile]
    · rw [if_neg hssn]
      exact hnew (s :: rest) hdrop (by simpa using hssn)

/-- An ordered chunk is held if it is not behind the next SSN and no chunk of its set has its TSN. -/
theorem held_pushOrdered (h : sna16lt c.streamSequenceNumber q.nextSsn = false)
    (hfresh : ∀ s ∈ q.ordered, s.ssn = c.streamSequenceNumber → ∀ d ∈ s.chunks, d.tsn ≠ c.tsn) :
    (q.pushOrdered c).2.held.Perm (c :: q.held) := by
  obtain ⟨before, after, set, arrival, heq, -, -, hset⟩ := pushOrdered_eq h
  rw [heq]
  have hfront : ∀ l l' : List ChunkPayloadData, l.Perm (c :: l') →
      (l ++ (q.unordered.flatMap Chunks.chunks ++ q.unorderedChunks)).Perm
        (c :: (l' ++ (q.unordered.flatMap Chunks.chunks ++ q.unorderedChunks))) :=
    fun l l' hl => hl.append_right _
  refine hfront _ _ ?_
  rcases hset with ⟨old, hold, hssn, rfl⟩ | ⟨hold, hchunks, -⟩
  · rw [hold, Chunks.push_eq (hfresh old (by simp [hold]) hssn), List.flatMap_append,
      List.flatMap_append, List.flatMap_cons, List.flatMap_cons]
    have hjoin := perm_insertBy (fun d => sna32lt d.tsn c.tsn) c old.chunks
    exact ((hjoin.append_right _).append_left _).trans List.perm_middle
  · rw [hold, List.flatMap_append, List.flatMap_append, List.flatMap_cons, hchunks]
    exact List.perm_middle

/-! ## read -/

/-- What `read` does: it returns nothing, the first unordered set, or the first ordered one if that is
    complete and not ahead of the next SSN. -/
theorem read_cases (q : ReassemblyQueue) : q.read = (none, q) ∨
    (∃ s rest nBytes, q.unordered = s :: rest ∧
      q.read = (some s, { q with unordered := rest, nBytes := nBytes })) ∨
    ∃ s rest nBytes, q.ordered = s :: rest ∧ s.isComplete = true ∧ sna16gt s.ssn q.nextSsn = false ∧
      q.read = (some s, { q with
        ordered := rest
        nextSsn := if s.ssn = q.nextSsn then q.nextSsn + 1#16 else q.nextSsn
        nBytes := nBytes }) := by
  have hunordered : ∀ u, q.readableUnorderedChunks = some u → ∃ s rest nBytes, q.unordered = s :: rest ∧
      (some u, q.takeUnordered.subtractNumBytes u.len)
        = (some s, { q with unordered := rest, nBytes := nBytes }) := by
    intro u hu
    obtain ⟨rest, hrest⟩ := List.head?_eq_some_iff.mp hu
    refine ⟨u, rest, q.nBytes - u.len, hrest, ?_⟩
    unfold takeUnordered subtractNumBytes
    rw [hrest]
    rfl
  have hordered : ∀ o, q.readableOrderedChunks = some o → ∃ s rest nBytes, q.ordered = s :: rest ∧
      s.isComplete = true ∧ sna16gt s.ssn q.nextSsn = false ∧
      (some o, (q.takeOrdered o).subtractNumBytes o.len) = (some s, { q with
        ordered := rest
        nextSsn := if s.ssn = q.nextSsn then q.nextSsn + 1#16 else q.nextSsn
        nBytes := nBytes }) := by
    intro o ho
    obtain ⟨hhead, hready⟩ := Option.filter_eq_some_iff.mp ho
    obtain ⟨rest, hrest⟩ := List.head?_eq_some_iff.mp hhead
    obtain ⟨hcomplete, hgt⟩ := Bool.and_eq_true_iff.mp hready
    refine ⟨o, rest, q.nBytes - o.len, hrest, hcomplete, by simpa using hgt, ?_⟩
    unfold takeOrdered subtractNumBytes
    rw [hrest]
    rfl
  unfold read
  cases hu : q.readableUnorderedChunks with
  | some u =>
    cases ho : q.readableOrderedChunks with
    | some o =>
      dsimp only
      split
      · exact .inr (.inl (hunordered u hu))
      · exact .inr (.inr (hordered o ho))
    | none => exact .inr (.inl (hunordered u hu))
  | none =>
    cases ho : q.readableOrderedChunks with
    | some o => exact .inr (.inr (hordered o ho))
    | none => exact .inl rfl

theorem held_read {s : Option Chunks} {q' : ReassemblyQueue} (h : q.read = (s, q')) :
    q'.si = q.si ∧ q.held.Perm ((s.map Chunks.chunks).getD [] ++ q'.held) := by
  rcases q.read_cases with heq | ⟨u, rest, nBytes, hq, heq⟩ | ⟨o, rest, nBytes, hq, -, -, heq⟩
  · rw [heq] at h
    cases h
    exact ⟨rfl, .refl _⟩
  · rw [heq] at h
    cases h
    refine ⟨rfl, ?_⟩
    unfold held
    dsimp only [Option.map_some, Option.getD_some]
    rw [hq, List.flatMap_cons, List.append_assoc, ← List.append_assoc, ← List.append_assoc u.chunks]
    exact List.perm_append_comm.append_right _
  · rw [heq] at h
    cases h
    refine ⟨rfl, ?_⟩
    unfold held
    dsimp only [Option.map_some, Option.getD_some]
    rw [hq, List.flatMap_cons, List.append_assoc]

/-! ## The order of the sets -/

/-- The ordered sets and the next SSN lie in the half of the number space from `base` on, the sets in the order
    of their SSNs, and the sets behind the next SSN, which a FORWARD TSN has left, are complete. -/
structure InWindow (base : Ssn) (q : ReassemblyQueue) : Prop where
  near : ∀ s ∈ q.ordered, ahead base s.ssn < 2 ^ 15
  increasing : Increasing (fun s : Chunks => ahead base s.ssn) q.ordered
  next : ahead base q.nextSsn < 2 ^ 15
  complete : ∀ s ∈ q.ordered, ahead base s.ssn < ahead base q.nextSsn → s.isComplete = true

/-- The oldest SSN that is unread or expected. -/
def oldest (q : ReassemblyQueue) : Ssn :=
  match q.ordered.head? with
  | some s => if sna16lt s.ssn q.nextSsn then s.ssn else q.nextSsn
  | none => q.nextSsn

namespace InWindow

variable {base : Ssn}

theorem of_eq {q' : ReassemblyQueue} (h : InWindow base q) (hordered : q'.ordered = q.ordered)
    (hnext : q'.nextSsn = q.nextSsn) : InWindow base q' := by
  constructor
  · rw [hordered]
    exact h.near
  · rw [hordered]
    exact h.increasing
  · rw [hnext]
    exact h.next
  · rw [hordered, hnext]
    exact h.complete

theorem sna16lt_iff_ahead {x y : Ssn} (hx : ahead base x < 2 ^ 15) (hy : ahead base y < 2 ^ 15) :
    sna16lt x y = true ↔ ahead base x < ahead base y :=
  sna16lt_iff_of_near base (by omega) (by omega)

variable (h : InWindow base q)
include h

theorem move {base' : Ssn} (hnext : ahead base base' ≤ ahead base q.nextSsn)
    (hsets : ∀ s ∈ q.ordered, ahead base base' ≤ ahead base s.ssn) : InWindow base' q := by
  have hahead : ∀ s ∈ q.ordered, ahead base' s.ssn = ahead base s.ssn - ahead base base' :=
    fun s hs => ahead_eq_sub base (hsets s hs)
  have hahead' := ahead_eq_sub base hnext
  constructor
  · intro s hs
    rw [hahead s hs]
    exact (Nat.sub_le _ _).trans_lt (h.near s hs)
  · refine h.increasing.imp_of_mem fun {x y} hx hy hlt => ?_
    change ahead base' x.ssn < ahead base' y.ssn
    rw [hahead x hx, hahead y hy]
    exact Nat.sub_lt_sub_right (hsets x hx) hlt
  · rw [hahead']
    exact (Nat.sub_le _ _).trans_lt h.next
  · intro s hs hlt
    rw [hahead s hs, hahead'] at hlt
    exact h.complete s hs (by omega)

theorem from_oldest : InWindow q.oldest q := by
  unfold oldest
  cases hq : q.ordered with
  | nil => exact h.move le_rfl (by simp [hq])
  | cons first rest =>
    have hfirst : ∀ s ∈ q.ordered, ahead base first.ssn ≤ ahead base s.ssn := by
      have hincreasing := h.increasing
      rw [hq] at hincreasing ⊢
      intro s hs
      rcases List.mem_cons.mp hs with rfl | hs
      · exact le_rfl
      · exact ((List.pairwise_cons.mp hincreasing).1 s hs).le
    have hlt := sna16lt_iff_ahead (h.near first (hq ▸ List.mem_cons_self)) h.next
    dsimp only [List.head?_cons]
    split
    · rename_i hbehind
      exact h.move (hlt.mp hbehind).le hfirst
    · rename_i hnot
      have hle : ahead base q.nextSsn ≤ ahead base first.ssn := Nat.le_of_not_lt fun hb => hnot (hlt.mpr hb)
      exact h.move le_rfl fun s hs => hle.trans (hfirst s hs)

theorem pushOrdered (hc : ahead base c.streamSequenceNumber < 2 ^ 15)
    (hnext : sna16lt c.streamSequenceNumber q.nextSsn = false) : InWindow base (q.pushOrdered c).2 := by
  have hle : ahead base q.nextSsn ≤ ahead base c.streamSequenceNumber := by
    refine Nat.le_of_not_lt fun hlt => ?_
    rw [(sna16lt_iff_ahead hc h.next).mpr hlt] at hnext
    cases hnext
  obtain ⟨before, after, set, arrival, heq, hbefore, hssn, hset⟩ := pushOrdered_eq hnext
  rw [heq]
  have hmem : ∀ s ∈ before ++ set :: after, s = set ∨ s ∈ q.ordered := by
    intro s hs
    rcases hset with ⟨old, hold, -⟩ | ⟨hold, -⟩
    all_goals
      rw [hold]
      simp only [List.mem_append, List.mem_cons] at hs ⊢
      tauto
  refine ⟨fun s hs => ?_, ?_, h.next, fun s hs hlt => ?_⟩
  · rcases hmem s hs with rfl | hs
    · rw [hssn]
      exact hc
    · exact h.near s hs
  · rcases hset with ⟨old, hold, hold', -⟩ | ⟨hold, -, hhead⟩
    · -- the set keeps its place
      have hkeys : (before ++ set :: after).map Chunks.ssn = q.ordered.map Chunks.ssn := by
        rw [hold, List.map_append, List.map_append, List.map_cons, List.map_cons, hssn, hold']
      have hpairs : (q.ordered.map Chunks.ssn).Pairwise fun x y => ahead base x < ahead base y :=
        List.pairwise_map.mpr h.increasing
      rw [← hkeys, List.pairwise_map] at hpairs
      exact hpairs
    · -- a new set goes between those before it and those after it
      have hafter : q.ordered.dropWhile (fun s => sna16lt s.ssn c.streamSequenceNumber) = after := by
        have hjoin := List.takeWhile_append_dropWhile
          (p := fun s : Chunks => sna16lt s.ssn c.streamSequenceNumber) (l := q.ordered)
        rw [← hbefore] at hjoin
        exact List.append_cancel_left (hjoin.trans hold)
      have hsplit := h.increasing.split (x := set) fun s hs => by
        rw [hssn]
        exact sna16lt_iff_ahead (h.near s hs) hc
      rw [← hbefore, hafter] at hsplit
      obtain ⟨hleft, hright⟩ := hsplit
      have hpairs : Increasing (fun s : Chunks => ahead base s.ssn) (before ++ after) :=
        hold ▸ h.increasing
      obtain ⟨hbefore', hafter', hacross⟩ := List.pairwise_append.mp hpairs
      have hgt : ∀ s ∈ after, ahead base set.ssn < ahead base s.ssn := by
        cases after with
        | nil => exact fun s hs => nomatch hs
        | cons s₀ rest =>
          have hne : ahead base set.ssn ≠ ahead base s₀.ssn := fun heq => by
            have := ahead_inj heq
            simp [← this, hssn] at hhead
          have hlt := Nat.lt_of_le_of_ne (hright s₀ List.mem_cons_self) hne
          intro s hs
          rcases List.mem_cons.mp hs with rfl | hs
          · exact hlt
          · exact hlt.trans ((List.pairwise_cons.mp hafter').1 s hs)
      refine List.pairwise_append.mpr ⟨hbefore', List.pairwise_cons.mpr ⟨hgt, hafter'⟩, ?_⟩
      intro s hs s' hs'
      rcases List.mem_cons.mp hs' with rfl | hs'
      · exact hleft s hs
      · exact hacross s hs s' hs'
  · rcases hmem s hs with rfl | hs
    · rw [hssn] at hlt
      exact absurd hlt (Nat.not_lt.mpr hle)
    · exact h.complete s hs hlt

theorem read {s : Option Chunks} {q' : ReassemblyQueue} (hread : q.read = (s, q')) :
    ∃ base', InWindow base' q' := by
  rcases q.read_cases with heq | ⟨u, rest, nBytes, -, heq⟩ | ⟨o, rest, nBytes, hq, -, hgt, heq⟩
  · rw [heq] at hread
    cases hread
    exact ⟨base, h⟩
  · rw [heq] at hread
    cases hread
    exact ⟨base, h.of_eq rfl rfl⟩
  · rw [heq] at hread
    cases hread
    have hnear := h.near
    have hincreasing := h.increasing
    have hcomplete := h.complete
    rw [hq] at hnear hincreasing hcomplete
    have hrest : InWindow base { q with ordered := rest, nBytes := nBytes } :=
      ⟨fun s hs => hnear s (List.mem_cons_of_mem o hs), hincreasing.tail, h.next,
        fun s hs => hcomplete s (List.mem_cons_of_mem o hs)⟩
    by_cases hssn : o.ssn = q.nextSsn
    · rw [if_pos hssn]
      have hsucc : ∀ s ∈ rest, ahead (q.nextSsn + 1#16) s.ssn = ahead base s.ssn - ahead base q.nextSsn - 1 ∧
          ahead base q.nextSsn < ahead base s.ssn := by
        intro s hs
        have hlt : ahead base o.ssn < ahead base s.ssn := (List.pairwise_cons.mp hincreasing).1 s hs
        rw [hssn] at hlt
        have hne : q.nextSsn ≠ s.ssn := fun heq => absurd hlt (by rw [heq]; exact Nat.lt_irrefl _)
        exact ⟨by rw [ahead_succ hne, ahead_eq_sub base hlt.le], hlt⟩
      refine ⟨q.nextSsn + 1#16, fun s hs => ?_, ?_, ?_, fun s hs hlt => ?_⟩
      · have hlt := hrest.near s hs
        rw [(hsucc s hs).1]
        omega
      · refine hincreasing.tail.imp_of_mem fun {x y} hx hy hlt => ?_
        have hx := hsucc x hx
        have hy := hsucc y hy
        have hlt : ahead base x.ssn < ahead base y.ssn := hlt
        change ahead (q.nextSsn + 1#16) x.ssn < ahead (q.nextSsn + 1#16) y.ssn
        omega
      · rw [ahead_self]
        omega
      · rw [ahead_self] at hlt
        exact absurd hlt (Nat.not_lt_zero _)
    · rw [if_neg hssn]
      exact ⟨base, hrest⟩

/-- The next set can be read once it is complete: it is first, or a complete set is before it. -/
theorem isReadable {s : Chunks} (hs : s ∈ q.ordered) (hnext : s.ssn = q.nextSsn)
    (hcomplete : s.isComplete = true) : q.isReadable = true := by
  obtain ⟨first, rest, hq⟩ := List.exists_cons_of_ne_nil (List.ne_nil_of_mem hs)
  have hmem : first ∈ q.ordered := hq ▸ List.mem_cons_self
  have hfirst : first.isComplete = true ∧ sna16lte first.ssn q.nextSsn = true := by
    have hincreasing := h.increasing
    rw [hq] at hs hincreasing
    rcases List.mem_cons.mp hs with rfl | hs
    · exact ⟨hcomplete, by simp [hnext, sna16lte]⟩
    · have hlt : ahead base first.ssn < ahead base s.ssn := (List.pairwise_cons.mp hincreasing).1 s hs
      rw [hnext] at hlt
      refine ⟨h.complete first hmem hlt, ?_⟩
      unfold sna16lte
      rw [(sna16lt_iff_ahead (h.near first hmem) h.next).mpr hlt, Bool.or_true]
  unfold ReassemblyQueue.isReadable
  rw [hq]
  simp [hfirst.1, hfirst.2]

theorem forwardTsnForOrdered {lastSsn : Ssn}
    (hlast : sna16lte q.nextSsn lastSsn = true → ahead base lastSsn + 1 < 2 ^ 15) :
    InWindow base (q.forwardTsnForOrdered lastSsn) := by
  have hsub : (q.forwardTsnForOrdered lastSsn).ordered.Sublist q.ordered := List.filter_sublist
  have hkept : ∀ s ∈ (q.forwardTsnForOrdered lastSsn).ordered, s ∈ q.ordered := fun s hs => hsub.subset hs
  have hnextSsn : (q.forwardTsnForOrdered lastSsn).nextSsn
      = if sna16lte q.nextSsn lastSsn then lastSsn + 1#16 else q.nextSsn := rfl
  refine ⟨fun s hs => h.near s (hkept s hs), h.increasing.sublist hsub, ?_, fun s hs hlt => ?_⟩
  · rw [hnextSsn]
    split
    · rename_i hahead
      have hlast := hlast hahead
      have hstep : lastSsn + 1#16 = base + BitVec.ofNat 16 (ahead base lastSsn + 1) := by
        rw [← add_add, add_ahead]
      rw [hstep, ahead_add base (by omega)]
      exact hlast
    · exact h.next
  · rw [hnextSsn] at hlt
    split at hlt
    · rename_i hahead
      have hlast := hlast hahead
      have hstep : lastSsn + 1#16 = base + BitVec.ofNat 16 (ahead base lastSsn + 1) := by
        rw [← add_add, add_ahead]
      rw [hstep, ahead_add base (by omega)] at hlt
      have hskipped : sna16lte s.ssn lastSsn = true := by
        unfold sna16lte
        rcases Nat.lt_or_eq_of_le (Nat.le_of_lt_succ hlt) with hlt | heq
        · rw [(sna16lt_iff_ahead (h.near s (hkept s hs)) (by omega)).mpr hlt, Bool.or_true]
        · rw [ahead_inj heq, beq_self_eq_true, Bool.true_or]
      by_contra hincomplete
      have hfilter := (List.mem_filter.mp hs).2
      simp [hskipped, hincomplete] at hfilter
    · exact h.complete s (hkept s hs) hlt

end InWindow
end ReassemblyQueue
end Rtc.Sctp
