import Rtc.Lib.Runs
import Rtc.Sctp.Proofs.Pending
import Rtc.Sctp.ReassemblyQueue

/-!
# Unordered delivery

Fragments of unordered messages wait in one pool, sorted by TSN, that is scanned after every arrival. As long as its
TSNs are within half the number space of each other, a message is found when its last fragment arrives, as it was
sent.
-/

namespace Rtc.Sctp
open Serial SortedInsert Runs

/-- The chunks go on after the TSN `last` to the end of a message: their TSNs are consecutive, none begins a
    message and the last one only ends it. -/
def Continues : Tsn → List ChunkPayloadData → Prop
  | _, [] => False
  | last, c :: rest => c.beginningFragment = false ∧ c.tsn = last + 1#32 ∧
      if c.endingFragment then rest = [] else Continues c.tsn rest

/-- A message from its beginning to its end, in chunks with consecutive TSNs. -/
def CompleteRun : List ChunkPayloadData → Prop
  | [] => False
  | c :: rest => c.beginningFragment = true ∧
      if c.endingFragment then rest = [] else Continues c.tsn rest

/-- An unordered message of the stream `si` as it arrives. -/
structure UnorderedMessage (si : StreamId) (m : List ChunkPayloadData) : Prop where
  run : CompleteRun m
  unordered : ∀ c ∈ m, c.unordered = true
  stream : ∀ c ∈ m, c.streamIdentifier = si

/-- What happens to a reassembly queue: a chunk arrives, or the application reads. -/
inductive QueueOp where
  | push (c : ChunkPayloadData)
  | read

def arrivals (ops : List QueueOp) : List ChunkPayloadData :=
  ops.filterMap fun
    | .push c => some c
    | .read => none

/-- A reassembly queue with the sets that were read from it. -/
structure Reader where
  queue : ReassemblyQueue
  returned : List Chunks := []

def Reader.step (r : Reader) : QueueOp → Reader
  | .push c => { r with queue := (r.queue.push c).2 }
  | .read =>
    match r.queue.read with
    | (some s, q) => { queue := q, returned := r.returned ++ [s] }
    | (none, q) => { r with queue := q }

/-- The TSNs of the chunks lie in one half of the number space. -/
def Near (l : List ChunkPayloadData) : Prop := ∃ base : Tsn, ∀ c ∈ l, ahead base c.tsn < 2 ^ 31

/-- An arriving chunk is near those that wait in the pool. -/
def NearPool (r : Reader) (op : QueueOp) : Prop :=
  ∀ c, op = .push c → Near (c :: r.queue.unorderedChunks)

/-- The messages that have arrived whole are the sets that were read or are ready to be, each once; no run
    waits in the pool that is complete; and the count of bytes is right. -/
structure UnorderedDelivery (ms : List (List ChunkPayloadData)) (arrived : List ChunkPayloadData)
    (r : Reader) : Prop where
  once : ((r.returned ++ r.queue.unordered).map Chunks.chunks).Nodup
  complete : ∀ m, m ∈ (r.returned ++ r.queue.unordered).map Chunks.chunks ↔ m ∈ ms ∧ m ⊆ arrived
  none_left : ∀ run, run <:+: r.queue.unorderedChunks → ¬ CompleteRun run
  nBytes_eq : r.queue.getNumBytes = (r.queue.ordered.map Chunks.len).sum
    + (r.queue.unordered.map Chunks.len).sum + payloadSum r.queue.unorderedChunks

/-! ## Runs -/

section Runs

variable {m m' r : List ChunkPayloadData} {ms : List (List ChunkPayloadData)} {c : ChunkPayloadData}
  {last : Tsn} {base : Tsn}

theorem CompleteRun.ne_nil (h : CompleteRun m) : m ≠ [] := by
  rintro rfl
  exact h

theorem Continues.beginningFragment_eq (h : Continues last m) : ∀ c ∈ m, c.beginningFragment = false := by
  induction m generalizing last with
  | nil => exact h.elim
  | cons c m ih =>
    obtain ⟨hbegin, -, hrest⟩ := h
    split at hrest
    · subst hrest
      exact List.forall_mem_cons.mpr ⟨hbegin, fun x hx => absurd hx List.not_mem_nil⟩
    · exact List.forall_mem_cons.mpr ⟨hbegin, ih hrest⟩

theorem Continues.unique (h : if c.endingFragment then m = [] else Continues c.tsn m)
    (h' : if c.endingFragment then m' = [] else Continues c.tsn m')
    (hinj : ∀ c ∈ m, ∀ d ∈ m', c.tsn = d.tsn → c = d) : m = m' := by
  induction m generalizing c m' with
  | nil =>
    split at h
    case _ hends => rw [if_pos hends] at h'; exact h'.symm
    case _ => exact h.elim
  | cons d m ih =>
    have hends : ¬ c.endingFragment := fun hends => by simp [hends] at h
    rw [if_neg hends] at h h'
    cases m' with
    | nil => exact h'.elim
    | cons d' m' =>
      obtain ⟨-, hd, hrest⟩ := h
      obtain ⟨-, hd', hrest'⟩ := h'
      obtain rfl := hinj d List.mem_cons_self d' List.mem_cons_self (hd.trans hd'.symm)
      rw [ih hrest hrest' fun x hx y hy => hinj x (List.mem_cons_of_mem d hx) y (List.mem_cons_of_mem d hy)]

theorem CompleteRun.mem (hr : CompleteRun r) (hsub : r ⊆ ms.flatten)
    (hms : ∀ m ∈ ms, CompleteRun m) (hinj : ∀ c ∈ ms.flatten, ∀ d ∈ ms.flatten, c.tsn = d.tsn → c = d) :
    r ∈ ms := by
  cases r with
  | nil => exact hr.elim
  | cons c rest =>
    obtain ⟨m, hm, hc⟩ := List.mem_flatten.mp (hsub List.mem_cons_self)
    have hflat : m ⊆ ms.flatten := fun x hx => List.mem_flatten_of_mem hm hx
    have hrun := hms m hm
    cases m with
    | nil => exact hrun.elim
    | cons d rest' =>
      obtain ⟨hbegin, hrest⟩ := hr
      obtain ⟨-, hrest'⟩ := hrun
      -- only the first fragment of a message begins it
      obtain rfl : c = d := by
        rcases List.mem_cons.mp hc with rfl | hc
        · rfl
        · split at hrest'
          · rw [hrest'] at hc
            exact absurd hc List.not_mem_nil
          · exact absurd ((hrest'.beginningFragment_eq c hc).symm.trans hbegin) Bool.false_ne_true
      rwa [Continues.unique hrest hrest' fun x hx y hy =>
        hinj x (hsub (List.mem_cons_of_mem c hx)) y (hflat (List.mem_cons_of_mem c hy))]

/-- Seen from a base less than half the space behind, the TSNs of a run are consecutive. -/
theorem Continues.isChain (h : Continues c.tsn m) (hnear : ∀ x ∈ c :: m, ahead base x.tsn < 2 ^ 31) :
    (c :: m).IsChain fun x y => ahead base y.tsn = ahead base x.tsn + 1 := by
  induction m generalizing c with
  | nil => exact h.elim
  | cons d m ih =>
    obtain ⟨hc, hrest⟩ := List.forall_mem_cons.mp hnear
    obtain ⟨-, hd, hgo⟩ := h
    have hkey : ahead base d.tsn = ahead base c.tsn + 1 := by
      have hsum : d.tsn = base + BitVec.ofNat 32 (ahead base c.tsn + 1) := by
        rw [hd, ← add_add, add_ahead]
      rw [hsum, ahead_add base (by omega)]
    refine List.isChain_cons_cons.mpr ⟨hkey, ?_⟩
    split at hgo
    · subst hgo
      exact List.isChain_singleton d
    · exact ih hgo hrest

theorem CompleteRun.isInfix {pool : List ChunkPayloadData}
    (hm : CompleteRun m) (hsub : m ⊆ pool) (hnear : ∀ c ∈ pool, ahead base c.tsn < 2 ^ 31)
    (hsorted : Increasing (fun c => ahead base c.tsn) pool) : m <:+: pool := by
  cases m with
  | nil => exact hm.elim
  | cons c rest =>
    obtain ⟨before, after, rfl⟩ := List.append_of_mem (hsub List.mem_cons_self)
    have hchain : (c :: rest).IsChain fun x y => ahead base y.tsn = ahead base x.tsn + 1 := by
      obtain ⟨-, hrest⟩ := hm
      split at hrest
      · subst hrest
        exact List.isChain_singleton c
      · exact hrest.isChain fun x hx => hnear x (hsub hx)
    obtain ⟨tail, rfl⟩ :=
      hsorted.consecutive (fun x hx => hsub (List.mem_cons_of_mem c hx)) hchain
    exact ⟨before, tail, by simp⟩

end Runs

/-! ## The scan -/

namespace ReassemblyQueue

variable {l : List ChunkPayloadData} {i j n startIdx nChunks : Nat} {last : Tsn} {start : Option (Nat × Nat × Tsn)}

theorem scanUnordered_some (h : scanUnordered i start l = some (j, n)) :
    (∃ before run after, l = before ++ run ++ after ∧ j = i + before.length ∧ n = run.length ∧
      CompleteRun run) ∨
    ∃ startIdx nChunks last run after, start = some (startIdx, nChunks, last) ∧ l = run ++ after ∧
      j = startIdx ∧ n = nChunks + run.length ∧ Continues last run := by
  induction l generalizing i start with
  | nil => cases h
  | cons c l ih =>
    -- what is found later is found after `c`
    have hlater : (∃ before run after, l = before ++ run ++ after ∧ j = i + 1 + before.length ∧
        n = run.length ∧ CompleteRun run) → ∃ before run after, c :: l = before ++ run ++ after ∧
        j = i + before.length ∧ n = run.length ∧ CompleteRun run := by
      rintro ⟨before, run, after, rfl, rfl, rfl, hrun⟩
      exact ⟨c :: before, run, after, rfl, by rw [List.length_cons]; omega, rfl, hrun⟩
    unfold scanUnordered at h
    split at h
    case _ hbegin =>
      split at h
      case _ hends =>
        obtain ⟨rfl, rfl⟩ := Prod.mk.inj (Option.some.inj h)
        refine .inl ⟨[], [c], l, rfl, rfl, rfl, hbegin, ?_⟩
        rw [if_pos hends]
      case _ hends =>
        rcases ih h with hfound | ⟨_, _, _, run, after, heq, rfl, rfl, rfl, hgo⟩
        · exact .inl (hlater hfound)
        · cases heq
          refine .inl ⟨[], c :: run, after, rfl, rfl, Nat.add_comm _ _, hbegin, ?_⟩
          rwa [if_neg hends]
    case _ hbegin =>
      have hmid : c.beginningFragment = false := Bool.eq_false_iff.mpr hbegin
      split at h
      · rcases ih h with hfound | ⟨_, _, _, _, _, heq, -⟩
        · exact .inl (hlater hfound)
        · cases heq
      case _ startIdx nChunks last =>
        split at h
        · rcases ih h with hfound | ⟨_, _, _, _, _, heq, -⟩
          · exact .inl (hlater hfound)
          · cases heq
        case _ hnext =>
          split at h
          case _ hends =>
            obtain ⟨rfl, rfl⟩ := Prod.mk.inj (Option.some.inj h)
            refine .inr ⟨_, _, _, [c], l, rfl, rfl, rfl, rfl, hmid, not_not.mp hnext, ?_⟩
            rw [if_pos hends]
          case _ hends =>
            rcases ih h with hfound | ⟨_, _, _, run, after, heq, rfl, rfl, rfl, hgo⟩
            · exact .inl (hlater hfound)
            · cases heq
              refine .inr ⟨_, _, _, c :: run, after, rfl, rfl, rfl, ?_, hmid, not_not.mp hnext, ?_⟩
              · rw [List.length_cons]
                omega
              · rwa [if_neg hends]

theorem Continues.of_prefix {c : ChunkPayloadData} {run : List ChunkPayloadData} (h : Continues last run)
    (hrun : run <+: c :: l) : c.beginningFragment = false ∧ c.tsn = last + 1#32 ∧
      (¬ c.endingFragment → ∃ rest, rest <+: l ∧ Continues c.tsn rest) := by
  cases run with
  | nil => exact h.elim
  | cons d rest =>
    obtain ⟨rfl, hrest⟩ := List.cons_prefix_cons.mp hrun
    obtain ⟨hbegin, hnext, hgo⟩ := h
    exact ⟨hbegin, hnext, fun hends => ⟨rest, hrest, by rwa [if_neg hends] at hgo⟩⟩

theorem scanUnordered_none (h : scanUnordered i start l = none) :
    (∀ run, run <:+: l → ¬ CompleteRun run) ∧
      ∀ startIdx nChunks last, start = some (startIdx, nChunks, last) →
        ∀ run, run <+: l → ¬ Continues last run := by
  induction l generalizing i start with
  | nil =>
    refine ⟨fun run hrun hcomplete => ?_, fun _ _ _ _ run hrun hgo => ?_⟩
    · exact hcomplete.ne_nil (List.infix_nil.mp hrun)
    · rw [List.prefix_nil.mp hrun] at hgo
      exact hgo
  | cons c l ih =>
    -- a run in `c :: l` starts with `c` or is a run in `l`
    have hsplit : ∀ run, run <:+: c :: l → CompleteRun run →
        (∃ rest, run = c :: rest ∧ rest <+: l) ∨ run <:+: l := by
      intro run hrun hcomplete
      rcases List.infix_cons_iff.mp hrun with hprefix | hinf
      · obtain ⟨d, rest, rfl⟩ := List.exists_cons_of_ne_nil hcomplete.ne_nil
        obtain ⟨rfl, hrest⟩ := List.cons_prefix_cons.mp hprefix
        exact .inl ⟨rest, rfl, hrest⟩
      · exact .inr hinf
    unfold scanUnordered at h
    split at h
    case _ hbegin =>
      split at h
      · cases h
      case _ hends =>
        obtain ⟨hinf, hgo⟩ := ih h
        refine ⟨fun run hrun hcomplete => ?_, fun _ _ last _ run hrun hcont => ?_⟩
        · rcases hsplit run hrun hcomplete with ⟨rest, rfl, hrest⟩ | hrest
          · have hcont := hcomplete.2
            rw [if_neg hends] at hcont
            exact hgo _ _ _ rfl rest hrest hcont
          · exact hinf run hrest hcomplete
        · exact absurd ((Continues.of_prefix hcont hrun).1.symm.trans hbegin) Bool.false_ne_true
    case _ hbegin =>
      -- `c` begins no run
      have hfirst : (∀ run, run <:+: l → ¬ CompleteRun run) →
          ∀ run, run <:+: c :: l → ¬ CompleteRun run := by
        intro hinf run hrun hcomplete
        rcases hsplit run hrun hcomplete with ⟨rest, rfl, hrest⟩ | hrest
        · exact hbegin hcomplete.1
        · exact hinf run hrest hcomplete
      split at h
      · exact ⟨hfirst (ih h).1, fun _ _ _ heq => nomatch heq⟩
      case _ startIdx nChunks last =>
        split at h
        case _ hnext =>
          refine ⟨hfirst (ih h).1, fun _ _ _ heq run hrun hcont => ?_⟩
          cases heq
          exact hnext (Continues.of_prefix hcont hrun).2.1
        case _ hnext =>
          split at h
          · cases h
          case _ hends =>
            obtain ⟨hinf, hgo⟩ := ih h
            refine ⟨hfirst hinf, fun _ _ _ heq run hrun hcont => ?_⟩
            cases heq
            obtain ⟨rest, hrest, hcont'⟩ := (Continues.of_prefix hcont hrun).2.2 hends
            exact hgo _ _ _ rfl rest hrest hcont'

/-- `find_complete_unordered_chunk_set` takes a complete run out of the pool, or there is none. -/
theorem findCompleteUnorderedChunkSet_cases (q : ReassemblyQueue) :
    (q.findCompleteUnorderedChunkSet = (none, q) ∧
      ∀ run, run <:+: q.unorderedChunks → ¬ CompleteRun run) ∨
    ∃ before run after set, q.unorderedChunks = before ++ run ++ after ∧ CompleteRun run ∧
      set.chunks = run ∧ q.findCompleteUnorderedChunkSet = (some set, { q with
        unorderedChunks := before ++ after, nextArrival := q.nextArrival + 1 }) := by
  unfold findCompleteUnorderedChunkSet
  cases hscan : scanUnordered 0 none q.unorderedChunks with
  | none => exact .inl ⟨rfl, (scanUnordered_none hscan).1⟩
  | some found =>
    obtain ⟨j, n⟩ := found
    rcases scanUnordered_some hscan with ⟨before, run, after, heq, rfl, rfl, hrun⟩ | ⟨_, _, _, _, _, h, -⟩
    · refine .inr ⟨before, run, after,
        ⟨0, (run.head?.map (·.payloadType)).getD .unknown, run, q.nextArrival⟩, heq, hrun, rfl, ?_⟩
      dsimp only
      rw [heq, Nat.zero_add, ← List.length_append, List.drop_left, List.append_assoc, List.drop_left,
        List.take_left, List.take_left]
    · cases h

end ReassemblyQueue

/-! ## The invariant -/

/-- Between two operations, when the chunks `arrived` have arrived: every chunk of theirs waits in the pool or
    is in one set, the sets are messages and the pool holds none. -/
structure Reader.Unread (si : StreamId) (ms : List (List ChunkPayloadData))
    (arrived : List ChunkPayloadData) (r : Reader) : Prop where
  si_eq : r.queue.si = si
  sorted : r.queue.unorderedChunks.Pairwise fun c d => Lt c.tsn d.tsn
  perm : arrived.Perm
    (r.queue.unorderedChunks ++ ((r.returned ++ r.queue.unordered).map Chunks.chunks).flatten)
  sets : ∀ s ∈ r.returned ++ r.queue.unordered, s.chunks ∈ ms
  incomplete : ∀ m ∈ ms, ¬ m ⊆ r.queue.unorderedChunks
  ordered_eq : r.queue.ordered = []
  nBytes_eq : r.queue.nBytes
    = (r.queue.unordered.map Chunks.len).sum + payloadSum r.queue.unorderedChunks

/-- Messages of one stream whose TSNs are all different. -/
structure DisjointMessages (si : StreamId) (ms : List (List ChunkPayloadData)) : Prop where
  message : ∀ m ∈ ms, UnorderedMessage si m
  nodup : (ms.flatten.map ChunkPayloadData.tsn).Nodup

variable {ms : List (List ChunkPayloadData)}

theorem DisjointMessages.inj {si : StreamId} (h : DisjointMessages si ms) :
    ∀ c ∈ ms.flatten, ∀ d ∈ ms.flatten, c.tsn = d.tsn → c = d :=
  fun _ hc _ hd heq => List.inj_on_of_nodup_map h.nodup hc hd heq

theorem nodup_of_nodup_flatten {l : List (List ChunkPayloadData)} (hne : ∀ m ∈ l, m ≠ [])
    (h : l.flatten.Nodup) : l.Nodup := by
  refine (List.nodup_flatten.mp h).2.imp_of_mem fun {m m'} hm _ hdis heq => ?_
  obtain ⟨c, hc⟩ := List.exists_mem_of_ne_nil m (hne m hm)
  exact hdis hc (heq ▸ hc)

theorem DisjointMessages.nodup_messages {si : StreamId} (h : DisjointMessages si ms) : ms.Nodup :=
  nodup_of_nodup_flatten (fun m hm => (h.message m hm).run.ne_nil) (h.nodup.of_map _)

/-- Chunks whose TSNs differ, near each other, in the order of their distances from the base. -/
theorem increasing_iff {base : Tsn} {l : List ChunkPayloadData} (hnear : ∀ c ∈ l, ahead base c.tsn < 2 ^ 31) :
    Increasing (fun c : ChunkPayloadData => ahead base c.tsn) l ↔
      l.Pairwise fun c d => Lt c.tsn d.tsn := by
  refine List.Pairwise.iff_of_mem fun {c d} hc hd => ?_
  have hcnear := hnear c hc
  have hdnear := hnear d hd
  exact (lt_iff_of_near base (by omega) (by omega)).symm

namespace Reader.Unread

variable {si : StreamId} {ms : List (List ChunkPayloadData)} {arrived : List ChunkPayloadData}
  {r : Reader} {c : ChunkPayloadData}

theorem sorted_insert (h : r.Unread si ms arrived) (hnear : Near (c :: r.queue.unorderedChunks))
    (hfresh : ∀ d ∈ r.queue.unorderedChunks, d.tsn ≠ c.tsn) :
    ∃ base : Tsn,
      (∀ d ∈ insertBy (fun d => sna32lt d.tsn c.tsn) c r.queue.unorderedChunks,
        ahead base d.tsn < 2 ^ 31) ∧
      Increasing (fun d => ahead base d.tsn)
        (insertBy (fun d => sna32lt d.tsn c.tsn) c r.queue.unorderedChunks) := by
  obtain ⟨base, hbase⟩ := hnear
  obtain ⟨hc, hpool⟩ := List.forall_mem_cons.mp hbase
  refine ⟨base, fun d hd => ?_, ?_⟩
  · rcases mem_insertBy.mp hd with rfl | hd
    · exact hc
    · exact hpool d hd
  · refine ((increasing_iff hpool).mpr h.sorted).insertBy (fun d hd => ?_) fun d hd heq => ?_
    · have hdnear := hpool d hd
      exact sna32lt_iff_of_near base (by omega) (by omega)
    · exact hfresh d hd (ahead_inj heq)

/-- A chunk that arrives is put in the pool, and a message that it completes becomes a set. -/
theorem push (h : r.Unread si ms arrived) (hms : DisjointMessages si ms) (harrived : arrived ⊆ ms.flatten)
    (hc : c ∈ ms.flatten) (hnew : c ∉ arrived) (hnear : Near (c :: r.queue.unorderedChunks)) :
    Reader.Unread si ms (arrived ++ [c]) { r with queue := (r.queue.push c).2 } := by
  obtain ⟨m₀, hm₀, hcm₀⟩ := List.mem_flatten.mp hc
  have hpool : r.queue.unorderedChunks ⊆ arrived := fun d hd =>
    h.perm.symm.subset (List.mem_append_left _ hd)
  have hfresh : ∀ d ∈ r.queue.unorderedChunks, d.tsn ≠ c.tsn := fun d hd heq =>
    hnew (hms.inj d (harrived (hpool hd)) c hc heq ▸ hpool hd)
  have hcpool : c ∉ r.queue.unorderedChunks := fun hmem => hnew (hpool hmem)
  obtain ⟨base, hbase, hincreasing⟩ := h.sorted_insert hnear hfresh
  have hpush : r.queue.push c = r.queue.pushUnordered c := by
    unfold ReassemblyQueue.push
    rw [if_neg (not_not.mpr (((hms.message m₀ hm₀).stream c hcm₀).trans h.si_eq.symm)),
      if_pos ((hms.message m₀ hm₀).unordered c hcm₀)]
  have hperm := perm_insertBy (fun d => sna32lt d.tsn c.tsn) c r.queue.unorderedChunks
  rw [hpush]
  unfold ReassemblyQueue.pushUnordered
  dsimp only
  generalize hpool' : insertBy (fun d => sna32lt d.tsn c.tsn) c r.queue.unorderedChunks = pool
    at hbase hincreasing hperm
  have hsorted := (increasing_iff hbase).mp hincreasing
  have hsub : pool ⊆ ms.flatten := fun d hd => by
    rcases List.mem_cons.mp (hperm.subset hd) with rfl | hd
    · exact hc
    · exact harrived (hpool hd)
  have hbytes : payloadSum pool = c.userData.length + payloadSum r.queue.unorderedChunks := by
    rw [← payloadSum_cons]
    exact (hperm.map _).sum_eq
  -- a message in the pool is one that the new chunk completes
  have hcompleted : ∀ m ∈ ms, m ⊆ pool → c ∈ m := by
    intro m hm hmem
    by_contra hnot
    refine h.incomplete m hm fun d hd => ?_
    rcases List.mem_cons.mp (hperm.subset (hmem hd)) with rfl | hold
    · exact absurd hd hnot
    · exact hold
  have harrive : (arrived ++ [c]).Perm
      (pool ++ ((r.returned ++ r.queue.unordered).map Chunks.chunks).flatten) := by
    refine List.perm_append_comm.trans ((h.perm.cons c).trans ?_)
    exact (hperm.symm.append_right _)
  rcases ReassemblyQueue.findCompleteUnorderedChunkSet_cases { r.queue with
      nBytes := r.queue.nBytes + c.userData.length, unorderedChunks := pool } with
    ⟨heq, hnone⟩ | ⟨before, run, after, set, hsplit, hrun, rfl, heq⟩
  · rw [heq]
    refine ⟨h.si_eq, hsorted, harrive, h.sets, fun m hm hmem => ?_, h.ordered_eq, ?_⟩
    · exact hnone m ((hms.message m hm).run.isInfix hmem hbase hincreasing) (hms.message m hm).run
    · change r.queue.nBytes + c.userData.length
        = (r.queue.unordered.map Chunks.len).sum + payloadSum pool
      rw [h.nBytes_eq, hbytes]
      omega
  · rw [heq]
    dsimp only at hsplit
    rw [hsplit] at hsorted hsub hbytes hcompleted harrive
    have hmem : set.chunks ∈ ms := hrun.mem
      (fun d hd => hsub (List.mem_append_left _ (List.mem_append_right _ hd)))
      (fun m hm => (hms.message m hm).run) hms.inj
    have hnodup : (before ++ set.chunks ++ after).Nodup := by
      refine hsorted.imp fun {x y} hlt heq => ?_
      rw [heq] at hlt
      exact not_lt_self y.tsn hlt
    have hcrun : c ∈ set.chunks := hcompleted set.chunks hmem
      fun d hd => List.mem_append_left _ (List.mem_append_right _ hd)
    have hmove : (before ++ set.chunks ++ after).Perm (before ++ after ++ set.chunks) := by
      rw [List.append_assoc, List.append_assoc]
      exact List.perm_append_comm.append_left before
    constructor
    · exact h.si_eq
    · refine hsorted.sublist ?_
      rw [List.append_assoc]
      exact (List.sublist_append_right _ _).append_left before
    · refine harrive.trans ((hmove.append_right _).trans ?_)
      have hsets : (List.map Chunks.chunks (r.returned ++ (r.queue.unordered ++ [set]))).flatten
          = ((r.returned ++ r.queue.unordered).map Chunks.chunks).flatten ++ set.chunks := by simp
      change List.Perm _ (before ++ after ++
        (List.map Chunks.chunks (r.returned ++ (r.queue.unordered ++ [set]))).flatten)
      rw [hsets, List.append_assoc]
      exact List.perm_append_comm.append_left _
    · intro s hs
      rw [← List.append_assoc] at hs
      rcases List.mem_append.mp hs with hold | hnew
      · exact h.sets s hold
      · rw [List.mem_singleton.mp hnew]
        exact hmem
    · intro m hm hsubset
      have hcm : c ∈ m := hcompleted m hm fun d hd => by
        rcases List.mem_append.mp (hsubset hd) with hd | hd
        · exact List.mem_append_left _ (List.mem_append_left _ hd)
        · exact List.mem_append_right _ hd
      have hdup : (set.chunks ++ (before ++ after)).Nodup :=
        (hmove.trans List.perm_append_comm).nodup_iff.mp hnodup
      exact List.disjoint_of_nodup_append hdup hcrun (hsubset hcm)
    · exact h.ordered_eq
    · change r.queue.nBytes + c.userData.length
        = ((r.queue.unordered ++ [set]).map Chunks.len).sum + payloadSum (before ++ after)
      have hset : payloadSum set.chunks = set.len := rfl
      rw [payloadSum_append, payloadSum_append, hset] at hbytes
      rw [h.nBytes_eq, List.map_append, List.sum_append, payloadSum_append, List.map_singleton,
        List.sum_singleton]
      omega

theorem read_eq (h : r.queue.ordered = []) : r.queue.read = match r.queue.unordered with
    | [] => (none, r.queue)
    | s :: _ => (some s, r.queue.takeUnordered.subtractNumBytes s.len) := by
  have hordered : r.queue.readableOrderedChunks = none := by
    unfold ReassemblyQueue.readableOrderedChunks
    rw [h]
    rfl
  unfold ReassemblyQueue.read
  rw [hordered]
  unfold ReassemblyQueue.readableUnorderedChunks
  cases r.queue.unordered <;> rfl

theorem step_read (h : r.queue.ordered = []) : r.step .read = match r.queue.unordered with
    | [] => r
    | s :: _ =>
      { queue := r.queue.takeUnordered.subtractNumBytes s.len, returned := r.returned ++ [s] } := by
  unfold Reader.step
  rw [read_eq h]
  cases r.queue.unordered <;> rfl

theorem read (h : r.Unread si ms arrived) : (r.step .read).Unread si ms arrived := by
  rw [step_read h.ordered_eq]
  cases hq : r.queue.unordered with
  | nil => exact h
  | cons s rest =>
    have hsets : r.returned ++ r.queue.unordered = r.returned ++ [s] ++ rest := by
      rw [hq, List.append_assoc]
      rfl
    have hrest : r.queue.unordered.tail = rest := by rw [hq]; rfl
    refine ⟨h.si_eq, h.sorted, ?_, ?_, h.incomplete, h.ordered_eq, ?_⟩
    · change arrived.Perm (r.queue.unorderedChunks
        ++ ((r.returned ++ [s] ++ r.queue.unordered.tail).map Chunks.chunks).flatten)
      rw [hrest, ← hsets]
      exact h.perm
    · change ∀ t ∈ r.returned ++ [s] ++ r.queue.unordered.tail, t.chunks ∈ ms
      rw [hrest, ← hsets]
      exact h.sets
    · change r.queue.nBytes - s.len = (r.queue.unordered.tail.map Chunks.len).sum + _
      rw [h.nBytes_eq, hrest, hq, List.map_cons, List.sum_cons]
      change _ = _ + payloadSum r.queue.unorderedChunks
      omega

theorem delivery (h : r.Unread si ms arrived) (hms : DisjointMessages si ms)
    (harrived : arrived ⊆ ms.flatten) (hnodup : arrived.Nodup) : UnorderedDelivery ms arrived r := by
  have hall : (r.queue.unorderedChunks
      ++ ((r.returned ++ r.queue.unordered).map Chunks.chunks).flatten).Nodup := h.perm.nodup_iff.mp hnodup
  have hmem : ∀ m ∈ (r.returned ++ r.queue.unordered).map Chunks.chunks, m ∈ ms := by
    intro m hm
    obtain ⟨s, hs, rfl⟩ := List.mem_map.mp hm
    exact h.sets s hs
  constructor
  · exact nodup_of_nodup_flatten (fun m hm => (hms.message m (hmem m hm)).run.ne_nil)
      (List.nodup_append.mp hall).2.1
  · intro m
    constructor
    · intro hm
      refine ⟨hmem m hm, fun c hc => h.perm.symm.subset (List.mem_append_right _ ?_)⟩
      exact List.mem_flatten_of_mem hm hc
    · rintro ⟨hm, hsub⟩
      -- some chunk of the message is in a set, and that set is the message
      obtain ⟨c, hc, hnot⟩ : ∃ c ∈ m, c ∉ r.queue.unorderedChunks := by
        by_contra hnone
        push Not at hnone
        exact h.incomplete m hm hnone
      rcases List.mem_append.mp (h.perm.subset (hsub hc)) with hpool | hset
      · exact absurd hpool hnot
      · obtain ⟨m', hm', hc'⟩ := List.mem_flatten.mp hset
        by_cases heq : m = m'
        · rwa [heq]
        · have hpair := (List.nodup_flatten.mp (hms.nodup.of_map _)).2
          have : Std.Symm (List.Disjoint : List ChunkPayloadData → List ChunkPayloadData → Prop) :=
            ⟨fun _ _ hdis => hdis.symm⟩
          exact (hpair.forall hm (hmem m' hm') heq hc hc').elim
  · intro run hrun hcomplete
    have hsub : run ⊆ ms.flatten := fun c hc =>
      harrived (h.perm.symm.subset (List.mem_append_left _ (hrun.subset hc)))
    exact h.incomplete run (hcomplete.mem hsub (fun m hm => (hms.message m hm).run) hms.inj) hrun.subset
  · rw [h.ordered_eq]
    change r.queue.nBytes = _
    rw [h.nBytes_eq]
    simp

theorem new (si : StreamId) (hms : DisjointMessages si ms) :
    Reader.Unread si ms [] { queue := .new si } where
  si_eq := rfl
  sorted := .nil
  perm := .nil
  sets := fun _ hs => absurd hs List.not_mem_nil
  incomplete := fun m hm hsub =>
    (hms.message m hm).run.ne_nil (List.subset_nil.mp hsub)
  ordered_eq := rfl
  nBytes_eq := rfl

theorem run (hms : DisjointMessages si ms) {ops : List QueueOp} (h : r.Unread si ms arrived)
    (hsub : arrived ++ arrivals ops ⊆ ms.flatten) (hnodup : (arrived ++ arrivals ops).Nodup)
    (hnear : Meets Reader.step NearPool r ops) :
    (Runs.run Reader.step r ops).Unread si ms (arrived ++ arrivals ops) := by
  induction ops generalizing r arrived with
  | nil =>
    change r.Unread si ms (arrived ++ [])
    rwa [List.append_nil]
  | cons op ops ih =>
    cases op with
    | read => exact ih h.read hsub hnodup hnear.2
    | push c =>
      have hsplit : arrived ++ arrivals (.push c :: ops) = arrived ++ [c] ++ arrivals ops := by
        rw [List.append_assoc]
        rfl
      rw [hsplit] at hsub hnodup ⊢
      refine ih (h.push hms (fun d hd => hsub ?_) (hsub (by simp)) ?_ (hnear.1 c rfl)) hsub hnodup hnear.2
      · exact List.mem_append_left _ (List.mem_append_left _ hd)
      · have hdup := (List.nodup_append.mp hnodup).1
        exact fun hmem => (List.nodup_append.mp hdup).2.2 c hmem c (List.mem_singleton_self c) rfl

theorem reads (h : r.Unread si ms arrived) (n : Nat) :
    (Runs.run Reader.step r (List.replicate n .read)).returned
      = r.returned ++ r.queue.unordered.take n := by
  induction n generalizing r with
  | zero =>
    rw [List.take_zero, List.append_nil]
    rfl
  | succ n ih =>
    rw [List.replicate_succ, run_cons, ih h.read, step_read h.ordered_eq]
    cases hq : r.queue.unordered with
    | nil => simp [hq]
    | cons s rest =>
      change r.returned ++ [s] ++ r.queue.unordered.tail.take n = _
      rw [hq, List.append_assoc]
      rfl

end Reader.Unread

/-- Unordered messages are delivered exactly once, as long as the TSNs in the pool are near each other: at
    any time the messages that have arrived whole were read or are ready, and once all have arrived as many
    reads as there are messages return them all. -/
theorem unordered_delivery {si : StreamId} {ms : List (List ChunkPayloadData)} {ops : List QueueOp}
    (hms : DisjointMessages si ms) (hsub : arrivals ops ⊆ ms.flatten) (hnodup : (arrivals ops).Nodup)
    (hnear : Meets Reader.step NearPool { queue := .new si } ops) :
    UnorderedDelivery ms (arrivals ops) (run Reader.step { queue := .new si } ops) ∧
      (ms.flatten ⊆ arrivals ops → ((run Reader.step { queue := .new si }
        (ops ++ List.replicate ms.length .read)).returned.map Chunks.chunks).Perm ms) := by
  have h := Reader.Unread.run hms (.new si hms) hsub hnodup hnear
  rw [List.nil_append] at h
  have hdelivery := h.delivery hms hsub hnodup
  refine ⟨hdelivery, fun hall => ?_⟩
  rw [run_append, h.reads]
  generalize run Reader.step { queue := .new si } ops = r at h hdelivery
  have hperm : ((r.returned ++ r.queue.unordered).map Chunks.chunks).Perm ms := by
    refine (List.perm_ext_iff_of_nodup hdelivery.once hms.nodup_messages).mpr fun m => ?_
    rw [hdelivery.complete]
    exact ⟨fun hm => hm.1, fun hm => ⟨hm, fun c hc => hall (List.mem_flatten_of_mem hm hc)⟩⟩
  have hlen := hperm.length_eq
  rw [List.length_map, List.length_append] at hlen
  rwa [List.take_of_length_le (by omega)]

/-- A fragment of an unordered message of stream 0. -/
def unorderedFragment (tsn : Tsn) (b e : Bool) : ChunkPayloadData :=
  { unordered := true, beginningFragment := b, endingFragment := e, tsn := tsn, userData := [7#8] }

/-- A message on both sides of the wrap whose end arrives first. -/
def wrappedMessage : List ChunkPayloadData :=
  [unorderedFragment 0xFFFFFFFF true false, unorderedFragment 0 false true]

theorem unordered_delivery_wrappedMessage :
    ((run Reader.step { queue := .new 0 } ([.push (unorderedFragment 0 false true),
      .push (unorderedFragment 0xFFFFFFFF true false)] ++ [.read])).returned.map Chunks.chunks).Perm
      [wrappedMessage] := by
  have hms : DisjointMessages 0 [wrappedMessage] := by
    refine ⟨fun m hm => ?_, by decide⟩
    rw [List.mem_singleton.mp hm]
    exact ⟨⟨rfl, rfl, rfl, rfl⟩, by decide, by decide⟩
  have hnear : Meets Reader.step NearPool { queue := .new 0 } [.push (unorderedFragment 0 false true),
      .push (unorderedFragment 0xFFFFFFFF true false)] := by
    refine ⟨?_, ?_, trivial⟩
    · rintro c ⟨⟩
      exact ⟨0xFFFFFFFF, by decide⟩
    · rintro c ⟨⟩
      exact ⟨0xFFFFFFFF, by decide⟩
  exact (unordered_delivery hms (by decide) (by decide) hnear).2 (by decide)

/-- A message of two fragments and one of three, half the number space apart. -/
def distantMessages : List (List ChunkPayloadData) :=
  [[unorderedFragment 0 true false, unorderedFragment 1 false true],
    [unorderedFragment 0x7FFFFFFF true false, unorderedFragment 0x80000000 false false,
      unorderedFragment 0x80000001 false true]]

/-- Half the number space apart the serial order is no order: the end of the first message is put before
    its beginning, and the message is never found although all of it has arrived. -/
theorem distant_message_lost :
    let ops := [.push (unorderedFragment 0 true false), .push (unorderedFragment 0x80000000 false false),
      .push (unorderedFragment 0x80000001 false true), .push (unorderedFragment 1 false true),
      .push (unorderedFragment 0x7FFFFFFF true false), QueueOp.read, .read]
    DisjointMessages 0 distantMessages ∧ (arrivals ops).Perm distantMessages.flatten ∧
      (run Reader.step { queue := .new 0 } ops).returned.map Chunks.chunks
        = [[unorderedFragment 0x7FFFFFFF true false, unorderedFragment 0x80000000 false false,
          unorderedFragment 0x80000001 false true]] ∧
      (run Reader.step { queue := .new 0 } ops).queue.unorderedChunks
        = [unorderedFragment 1 false true, unorderedFragment 0 true false] := by
  intro ops
  refine ⟨⟨fun m hm => ?_, by decide⟩, by decide, by decide +kernel, by decide +kernel⟩
  rcases List.mem_pair.mp hm with rfl | rfl
  · exact ⟨⟨rfl, rfl, rfl, rfl⟩, by decide, by decide⟩
  · exact ⟨⟨rfl, rfl, rfl, rfl, rfl, rfl⟩, by decide, by decide⟩

end Rtc.Sctp
