import Rtc.Interceptor.Nack.Generator
import Rtc.Interceptor.Proofs.ReceiveLog

/-!
# What the NACK generator requests

A round of the timer selects, stream by stream, numbers that the log reports missing and counts one request more for
each.
-/

namespace Rtc.Interceptor.NackGenerator

open Rtc.Rtcp (TransportLayerNack)

variable {g : NackGenerator} {ssrc : Ssrc} {seq : Seq} {log : ReceiveLog}

/-! ## Counting -/

theorem foldl_countNack (limit : BitVec 16) {seqs : List Seq} (hnodup : seqs.Nodup)
    (counts : Table Seq (BitVec 16)) (kept : List Seq) :
    (seqs.foldl (countNack limit) (counts, kept)).2 =
        kept ++ seqs.filter (fun s => (counts.lookup s).getD 0#16 < limit) ∧
      ∀ s, (seqs.foldl (countNack limit) (counts, kept)).1.lookup s =
        if s ∈ seqs then
          some (if (counts.lookup s).getD 0#16 < limit then (counts.lookup s).getD 0#16 + 1#16
            else (counts.lookup s).getD 0#16)
        else counts.lookup s := by
  induction seqs generalizing counts kept with
  | nil => simp
  | cons seq seqs ih =>
    obtain ⟨hnot, hnodup⟩ := List.nodup_cons.mp hnodup
    have hother : ∀ (c : BitVec 16) (s : Seq), s ≠ seq → (counts.insert seq c).lookup s = counts.lookup s :=
      fun c s hs => AList.lookup_insert_ne hs
    have hfilter : ∀ c : BitVec 16,
        seqs.filter (fun s => ((counts.insert seq c).lookup s).getD 0#16 < limit) =
          seqs.filter (fun s => (counts.lookup s).getD 0#16 < limit) := by
      intro c
      apply List.filter_congr
      intro s hs
      have hne : s ≠ seq := fun heq => hnot (heq ▸ hs)
      rw [hother c s hne]
    have hlookup : ∀ (c : BitVec 16) (s : Seq),
        c = (if (counts.lookup seq).getD 0#16 < limit then (counts.lookup seq).getD 0#16 + 1#16
          else (counts.lookup seq).getD 0#16) →
        (if s ∈ seqs then
          some (if ((counts.insert seq c).lookup s).getD 0#16 < limit then
            ((counts.insert seq c).lookup s).getD 0#16 + 1#16
            else ((counts.insert seq c).lookup s).getD 0#16)
        else (counts.insert seq c).lookup s) =
        if s ∈ seq :: seqs then
          some (if (counts.lookup s).getD 0#16 < limit then (counts.lookup s).getD 0#16 + 1#16
            else (counts.lookup s).getD 0#16)
        else counts.lookup s := by
      intro c s hc
      by_cases hs : s = seq
      · subst hs
        rw [if_neg hnot, if_pos List.mem_cons_self, AList.lookup_insert, hc]
      · rw [hother c s hs]
        simp only [List.mem_cons, hs, false_or]
    rw [List.foldl_cons, countNack]
    split
    case isTrue hlt =>
      obtain ⟨hkept, hcounts⟩ := ih hnodup (counts.insert seq _) (kept ++ [seq])
      rw [hkept, hfilter, List.filter_cons_of_pos (by simpa using hlt), List.append_assoc]
      refine ⟨rfl, fun s => ?_⟩
      rw [hcounts s]
      exact hlookup _ s (by rw [if_pos hlt])
    case isFalse hge =>
      obtain ⟨hkept, hcounts⟩ := ih hnodup (counts.insert seq _) kept
      rw [hkept, hfilter, List.filter_cons_of_neg (by simpa using hge)]
      refine ⟨rfl, fun s => ?_⟩
      rw [hcounts s]
      exact hlookup _ s (by rw [if_neg hge])

theorem lookup_selectNacks_ne {counts : Table Ssrc (Table Seq (BitVec 16))} {other : Ssrc}
    (h : other ≠ ssrc) : (g.selectNacks counts ssrc log).1.lookup other = counts.lookup other := by
  rw [selectNacks]
  split
  · exact AList.lookup_erase_ne h
  · split
    · exact AList.lookup_insert_ne h
    · rfl

theorem selectNacks_congr {counts counts' : Table Ssrc (Table Seq (BitVec 16))}
    (h : counts.lookup ssrc = counts'.lookup ssrc) :
    (g.selectNacks counts ssrc log).2 = (g.selectNacks counts' ssrc log).2 ∧
      (g.selectNacks counts ssrc log).1.lookup ssrc =
        (g.selectNacks counts' ssrc log).1.lookup ssrc := by
  rw [selectNacks, selectNacks]
  split
  · exact ⟨rfl, by rw [AList.lookup_erase, AList.lookup_erase]⟩
  · split
    · rw [h]
      refine ⟨rfl, ?_⟩
      rw [AList.lookup_insert, AList.lookup_insert]
    · exact ⟨rfl, h⟩

theorem nackStream_eq (state : Table Ssrc (Table Seq (BitVec 16)) × List TransportLayerNack)
    (stream : Σ _ : Ssrc, ReceiveLog) :
    g.nackStream state stream = ((g.selectNacks state.1 stream.1 stream.2).1,
      state.2 ++ (g.nackPacket stream.1 (g.selectNacks state.1 stream.1 stream.2).2).toList) :=
  rfl

theorem nackStreams_eq {streams : List (Σ _ : Ssrc, ReceiveLog)} (hkeys : streams.NodupKeys)
    (counts : Table Ssrc (Table Seq (BitVec 16))) :
    (g.nackStreams streams counts).2 = streams.flatMap (fun e =>
        (g.nackPacket e.1 (g.selectNacks counts e.1 e.2).2).toList) ∧
      (∀ e ∈ streams, (g.nackStreams streams counts).1.lookup e.1 =
        (g.selectNacks counts e.1 e.2).1.lookup e.1) ∧
      ∀ k, k ∉ streams.keys → (g.nackStreams streams counts).1.lookup k = counts.lookup k := by
  have hfold : ∀ (streams : List (Σ _ : Ssrc, ReceiveLog)), streams.NodupKeys →
      ∀ state : Table Ssrc (Table Seq (BitVec 16)) × List TransportLayerNack,
      (∀ e ∈ streams, state.1.lookup e.1 = counts.lookup e.1) →
      (streams.foldl g.nackStream state).2 = state.2 ++ streams.flatMap (fun e =>
        (g.nackPacket e.1 (g.selectNacks counts e.1 e.2).2).toList) ∧
      (∀ e ∈ streams, (streams.foldl g.nackStream state).1.lookup e.1 =
        (g.selectNacks counts e.1 e.2).1.lookup e.1) ∧
      ∀ k, k ∉ streams.keys → (streams.foldl g.nackStream state).1.lookup k = state.1.lookup k := by
    intro streams
    induction streams with
    | nil => intro _ state _; simp
    | cons stream streams ih =>
      intro hkeys state hstate
      obtain ⟨hnot, hkeys⟩ := List.nodupKeys_cons.mp hkeys
      obtain ⟨hselected, hcount⟩ := @selectNacks_congr g stream.1 stream.2 state.1 counts
        (hstate stream List.mem_cons_self)
      have hne : ∀ e ∈ streams, e.1 ≠ stream.1 := by
        intro e he heq
        have hkey : e.1 ∈ streams.keys := List.mem_keys_of_mem he
        exact hnot (heq ▸ hkey)
      have hrest : ∀ e ∈ streams, (g.nackStream state stream).1.lookup e.1 = counts.lookup e.1 := by
        intro e he
        rw [nackStream_eq, lookup_selectNacks_ne (hne e he)]
        exact hstate e (List.mem_cons_of_mem _ he)
      obtain ⟨hnacks, hmem, hothers⟩ := ih hkeys (g.nackStream state stream) hrest
      rw [List.foldl_cons]
      refine ⟨?_, fun e he => ?_, fun k hk => ?_⟩
      · rw [hnacks, nackStream_eq, hselected, List.flatMap_cons, List.append_assoc]
      · rcases List.mem_cons.mp he with rfl | he
        · rw [hothers _ hnot, nackStream_eq, hcount]
        · exact hmem e he
      · rw [List.keys_cons, List.mem_cons, not_or] at hk
        rw [hothers k hk.2, nackStream_eq, lookup_selectNacks_ne hk.1]
  exact hfold streams hkeys (counts, []) fun _ _ => rfl

/-! ## One round -/

/-- The receive log of the stream reports the number missing. -/
def Missing (g : NackGenerator) (ssrc : Ssrc) (seq : Seq) : Prop :=
  ∃ log, g.receiveLogs.lookup ssrc = some log ∧ seq ∈ log.missingSeqNumbers g.skipLastN

/-- The numbers a round would select for a stream. -/
def selected (g : NackGenerator) (ssrc : Ssrc) : List Seq :=
  match g.receiveLogs.lookup ssrc with
  | some log => (g.selectNacks g.nackCounts ssrc log).2
  | none => []

/-- How often a number has been requested by the counts. -/
def requests (counts : Table Ssrc (Table Seq (BitVec 16))) (ssrc : Ssrc) (seq : Seq) : Nat :=
  (((counts.lookup ssrc).bind fun nackCount => nackCount.lookup seq).getD 0#16).toNat

def WellFormed (g : NackGenerator) : Prop :=
  ∀ ssrc log, g.receiveLogs.lookup ssrc = some log → log.WellFormed

theorem nodup_missing (hlog : log.WellFormed) (skipLastN : BitVec 16) :
    (log.missingSeqNumbers skipLastN).Nodup := by
  apply (hlog.pairwise_missingSeqNumbers skipLastN).imp
  rintro a _ hlt rfl
  exact Serial.not_lt_self a hlt

theorem selectNacks_sublist (hlog : log.WellFormed) (counts : Table Ssrc (Table Seq (BitVec 16))) :
    (g.selectNacks counts ssrc log).2.Sublist (log.missingSeqNumbers g.skipLastN) := by
  rw [selectNacks]
  split
  · exact List.nil_sublist _
  · split
    · have hkept := (foldl_countNack g.maxNacksPerPacket (nodup_missing hlog g.skipLastN)
        (Table.retain (fun s _ => log.isMissing s g.skipLastN) ((counts.lookup ssrc).getD ∅)) []).1
      rw [List.nil_append] at hkept
      exact hkept ▸ List.filter_sublist
    · exact List.Sublist.refl _

/-- With a limit set, a missing number is selected while its count is below the limit, and counted. -/
theorem selectNacks_of_missing (hlog : log.WellFormed) (hlimit : 0#16 < g.maxNacksPerPacket)
    (hmissing : seq ∈ log.missingSeqNumbers g.skipLastN) (counts : Table Ssrc (Table Seq (BitVec 16))) :
    (seq ∈ (g.selectNacks counts ssrc log).2 ↔
        requests counts ssrc seq < g.maxNacksPerPacket.toNat) ∧
      requests (g.selectNacks counts ssrc log).1 ssrc seq =
        if requests counts ssrc seq < g.maxNacksPerPacket.toNat then requests counts ssrc seq + 1
        else requests counts ssrc seq := by
  have hne : log.missingSeqNumbers g.skipLastN ≠ [] := List.ne_nil_of_mem hmissing
  -- the number is missing, so its count survives the pruning
  have hkept : ((Table.retain (fun s _ => log.isMissing s g.skipLastN)
      ((counts.lookup ssrc).getD ∅)).lookup seq).getD 0#16 =
        ((counts.lookup ssrc).bind fun nackCount => nackCount.lookup seq).getD 0#16 := by
    rw [Table.lookup_retain, (hlog.isMissing_iff seq g.skipLastN).mpr hmissing]
    cases counts.lookup ssrc with
    | none => rfl
    | some nackCount =>
      rw [Option.getD_some, Option.bind_some]
      cases nackCount.lookup seq <;> rfl
  obtain ⟨hfiltered, hcounts⟩ := foldl_countNack g.maxNacksPerPacket
    (nodup_missing hlog g.skipLastN) (Table.retain (fun s _ => log.isMissing s g.skipLastN)
      ((counts.lookup ssrc).getD ∅)) []
  have hcount := hcounts seq
  rw [if_pos hmissing, hkept] at hcount
  have hselect : g.selectNacks counts ssrc log =
      (counts.insert ssrc (g.limitNacks ((counts.lookup ssrc).getD ∅) log).1,
        (g.limitNacks ((counts.lookup ssrc).getD ∅) log).2) := by
    rw [selectNacks]
    rw [if_neg hne, if_pos hlimit]
  constructor
  · rw [hselect, limitNacks, hfiltered, List.nil_append, List.mem_filter, hkept, decide_eq_true_eq,
      BitVec.lt_def]
    exact and_iff_right hmissing
  · rw [hselect]
    unfold requests
    rw [AList.lookup_insert, Option.bind_some, limitNacks, hcount, Option.getD_some]
    simp only [BitVec.lt_def]
    split
    case isTrue hlt =>
      have hbound := g.maxNacksPerPacket.isLt
      rw [BitVec.toNat_add, show (1#16).toNat = 1 from rfl, Nat.mod_eq_of_lt (by omega)]
    case isFalse => rfl

def countsAfter (g : NackGenerator) : Table Ssrc (Table Seq (BitVec 16)) :=
  (g.nackStreams g.receiveLogs.entries g.nackCounts).1

def round (g : NackGenerator) : List TransportLayerNack :=
  (g.nackStreams g.receiveLogs.entries g.nackCounts).2

theorem requests_countsAfter (hlog : g.receiveLogs.lookup ssrc = some log) (seq : Seq) :
    requests g.countsAfter ssrc seq =
      requests (g.selectNacks g.nackCounts ssrc log).1 ssrc seq := by
  have hmem : (⟨ssrc, log⟩ : Σ _ : Ssrc, ReceiveLog) ∈ g.receiveLogs.entries :=
    AList.mem_lookup_iff.mp hlog
  unfold requests countsAfter
  rw [(nackStreams_eq g.receiveLogs.nodupKeys g.nackCounts).2.1 _ hmem]

theorem mem_round {n : TransportLayerNack} (hwf : g.WellFormed) (h : n ∈ g.round) :
    n.packetList = g.selected n.mediaSsrc ∧ n.packetList ≠ [] ∧
      ∀ seq ∈ n.packetList, g.Missing n.mediaSsrc seq := by
  rw [round, (nackStreams_eq g.receiveLogs.nodupKeys g.nackCounts).1] at h
  obtain ⟨⟨ssrc, log⟩, hmem, hpacket⟩ := List.mem_flatMap.mp h
  have hlog : g.receiveLogs.lookup ssrc = some log := AList.mem_lookup_iff.mpr hmem
  have hsub := @selectNacks_sublist g ssrc log (hwf ssrc log hlog) g.nackCounts
  rw [Option.mem_toList, nackPacket] at hpacket
  split at hpacket
  case isTrue => cases hpacket
  case isFalse hne =>
    cases hpacket
    have hlist := Rtcp.flatMap_packetList_nackPairs
      (((hwf ssrc log hlog).pairwise_missingSeqNumbers g.skipLastN).sublist hsub)
    rw [TransportLayerNack.packetList, hlist, selected, hlog]
    exact ⟨rfl, hne, fun seq hseq => ⟨log, hlog, hsub.subset hseq⟩⟩

/-- The packet is for the stream and names the number. -/
def names (ssrc : Ssrc) (seq : Seq) (n : TransportLayerNack) : Bool :=
  n.mediaSsrc = ssrc && n.packetList.contains seq

theorem countP_round (hwf : g.WellFormed) (hlog : g.receiveLogs.lookup ssrc = some log) (seq : Seq) :
    g.round.countP (names ssrc seq) =
      if seq ∈ (g.selectNacks g.nackCounts ssrc log).2 then 1 else 0 := by
  rw [round, (nackStreams_eq g.receiveLogs.nodupKeys g.nackCounts).1, List.countP_flatMap]
  have hone : ∀ e ∈ g.receiveLogs.entries,
      ((g.nackPacket e.1 (g.selectNacks g.nackCounts e.1 e.2).2).toList).countP (names ssrc seq) =
        if e.1 = ssrc ∧ seq ∈ (g.selectNacks g.nackCounts e.1 e.2).2 then 1 else 0 := by
    intro e he
    have hlog' := hwf e.1 e.2 (AList.mem_lookup_iff.mpr he)
    have hlist := Rtcp.flatMap_packetList_nackPairs ((hlog'.pairwise_missingSeqNumbers
      g.skipLastN).sublist (@selectNacks_sublist g e.1 e.2 hlog' g.nackCounts))
    rw [nackPacket]
    split
    case isTrue hnil =>
      rw [hnil]
      simp
    case isFalse =>
      rw [Option.toList_some, List.countP_singleton, names, TransportLayerNack.packetList, hlist]
      simp only [Bool.and_eq_true, decide_eq_true_eq, List.contains_iff_mem]
  have hsum := Table.sum_map_entries hlog (f := fun e =>
    ((g.nackPacket e.1 (g.selectNacks g.nackCounts e.1 e.2).2).toList).countP (names ssrc seq))
    (fun e he hne => by rw [hone e he, if_neg fun h => hne h.1])
  refine hsum.trans ?_
  rw [hone _ (AList.mem_lookup_iff.mp hlog)]
  simp

/-! ## Runs -/

/-- How many of the packets emitted in a run name the number. -/
def namings (ssrc : Ssrc) (seq : Seq) : NackGenerator → List Input → Nat
  | _, [] => 0
  | g, input :: inputs =>
    (g.emitted input).countP (names ssrc seq) + namings ssrc seq (g.step input) inputs

theorem wellFormed_new (size : BitVec 16) (interval : Duration) (skipLastN limit : BitVec 16)
    (senderSsrc : Ssrc) : (new size interval skipLastN limit senderSsrc).WellFormed := by
  intro ssrc log h
  cases h

theorem WellFormed.step (h : g.WellFormed) (input : Input) : (g.step input).WellFormed := by
  cases input with
  | handleRead msg =>
    intro ssrc log hlog
    obtain ⟨now, message⟩ := msg
    cases message with
    | rtcp packets => exact h ssrc log hlog
    | rtp packet =>
      cases hfound : g.receiveLogs.lookup packet.header.ssrc with
      | none =>
        simp only [NackGenerator.step, handleRead, hfound] at hlog
        exact h ssrc log hlog
      | some log' =>
        simp only [NackGenerator.step, handleRead, hfound, Table.lookup_adjust] at hlog
        split at hlog
        · obtain ⟨old, hold, rfl⟩ := Option.map_eq_some_iff.mp hlog
          exact (h ssrc old hold).add _
        · exact h ssrc log hlog
  | pollRead => exact h
  | handleWrite msg => exact h
  | pollWrite => exact h
  | handleTimeout now =>
    rw [NackGenerator.step, handleTimeout]
    split <;> exact h
  | bindRemoteStream info =>
    intro ssrc log hlog
    rw [NackGenerator.step, bindRemoteStream] at hlog
    split at hlog
    · cases hnew : ReceiveLog.new g.size with
      | none =>
        rw [hnew] at hlog
        exact h ssrc log hlog
      | some fresh =>
        simp only [hnew] at hlog
        by_cases hssrc : ssrc = info.ssrc
        · rw [hssrc, AList.lookup_insert] at hlog
          cases hlog
          exact (ReceiveLog.fresh_new hnew).wellFormed
        · rw [AList.lookup_insert_ne hssrc] at hlog
          exact h ssrc log hlog
    · exact h ssrc log hlog
  | unbindRemoteStream info =>
    intro ssrc log hlog
    simp only [NackGenerator.step, unbindRemoteStream] at hlog
    by_cases hssrc : ssrc = info.ssrc
    · rw [hssrc, AList.lookup_erase] at hlog
      cases hlog
    · rw [AList.lookup_erase_ne hssrc] at hlog
      exact h ssrc log hlog

theorem maxNacksPerPacket_step (g : NackGenerator) (input : Input) :
    (g.step input).maxNacksPerPacket = g.maxNacksPerPacket := by
  cases input with
  | handleRead msg =>
    obtain ⟨now, message⟩ := msg
    cases message with
    | rtcp packets => rfl
    | rtp packet =>
      rw [step, handleRead]
      dsimp only
      split <;> rfl
  | handleTimeout now =>
    rw [step, handleTimeout]
    split <;> rfl
  | bindRemoteStream info =>
    rw [step, bindRemoteStream]
    split
    · split <;> rfl
    · rfl
  | _ => rfl

theorem requests_step (hwf : g.WellFormed) (hlimit : 0#16 < g.maxNacksPerPacket)
    (hmissing : g.Missing ssrc seq) {input : Input} (hstays : (g.step input).Missing ssrc seq) :
    (g.emitted input).countP (names ssrc seq) + requests g.nackCounts ssrc seq =
        requests (g.step input).nackCounts ssrc seq ∧
      requests (g.step input).nackCounts ssrc seq ≤
        max (requests g.nackCounts ssrc seq) g.maxNacksPerPacket.toNat := by
  have hquiet : ∀ counts, requests counts ssrc seq = requests g.nackCounts ssrc seq →
      0 + requests g.nackCounts ssrc seq = requests counts ssrc seq ∧
        requests counts ssrc seq ≤
          max (requests g.nackCounts ssrc seq) g.maxNacksPerPacket.toNat := by
    intro counts h
    omega
  cases input with
  | handleRead msg =>
    refine hquiet _ ?_
    obtain ⟨now, message⟩ := msg
    cases message with
    | rtcp packets => rfl
    | rtp packet =>
      rw [step, handleRead]
      dsimp only
      split <;> rfl
  | pollRead => exact hquiet _ rfl
  | handleWrite msg => exact hquiet _ rfl
  | pollWrite => exact hquiet _ rfl
  | handleTimeout now =>
    rw [step, handleTimeout, emitted]
    by_cases hdue : g.due now = true
    · rw [if_pos hdue, if_pos hdue]
      obtain ⟨log, hlog, hmem⟩ := hmissing
      obtain ⟨hselected, hcount⟩ :=
        @selectNacks_of_missing g ssrc seq log (hwf ssrc log hlog) hlimit hmem g.nackCounts
      have hround := countP_round hwf hlog seq
      have hafter := requests_countsAfter hlog seq
      rw [hcount] at hafter
      change g.round.countP (names ssrc seq) + _ = requests g.countsAfter ssrc seq ∧
        requests g.countsAfter ssrc seq ≤ _
      rw [hround, hafter]
      by_cases hlt : requests g.nackCounts ssrc seq < g.maxNacksPerPacket.toNat
      · rw [if_pos (hselected.mpr hlt), if_pos hlt]
        omega
      · rw [if_neg fun h => hlt (hselected.mp h), if_neg hlt]
        omega
    · rw [if_neg hdue, if_neg hdue]
      exact hquiet _ rfl
  | bindRemoteStream info =>
    refine hquiet _ ?_
    rw [step, bindRemoteStream]
    split
    · split <;> rfl
    · rfl
  | unbindRemoteStream info =>
    refine hquiet _ ?_
    by_cases hssrc : ssrc = info.ssrc
    · -- the stream is gone and nothing of it can be missing
      obtain ⟨log, hlog, -⟩ := hstays
      have hgone : (g.step (.unbindRemoteStream info)).receiveLogs.lookup ssrc = none := by
        rw [hssrc]
        exact AList.lookup_erase _ _
      rw [hgone] at hlog
      cases hlog
    · simp only [step, unbindRemoteStream, requests]
      rw [AList.lookup_erase_ne hssrc]

theorem namings_le (hwf : g.WellFormed) (hlimit : 0#16 < g.maxNacksPerPacket) {inputs : List Input}
    (hmissing : ∀ pre, pre <+: inputs → (Runs.run step g pre).Missing ssrc seq) :
    namings ssrc seq g inputs + requests g.nackCounts ssrc seq ≤
      max (requests g.nackCounts ssrc seq) g.maxNacksPerPacket.toNat := by
  induction inputs generalizing g with
  | nil =>
    rw [namings]
    omega
  | cons input inputs ih =>
    have hnow : g.Missing ssrc seq := hmissing [] (List.nil_prefix)
    have hnext : (g.step input).Missing ssrc seq := hmissing [input] ⟨inputs, rfl⟩
    obtain ⟨hcount, hle⟩ := requests_step hwf hlimit hnow hnext
    have hkeep := maxNacksPerPacket_step g input
    have hrest := ih (hwf.step input) (by rw [hkeep]; exact hlimit) fun pre hpre =>
      hmissing (input :: pre) (List.cons_prefix_cons.mpr ⟨rfl, hpre⟩)
    rw [hkeep] at hrest
    rw [namings]
    omega

/-- What the NACKs of a state have to be: for a limit above zero, at most that many name a number while it stays missing;
    every NACK names exactly the numbers selected for its stream, all of them missing, and with at most 253 pairs is
    read back from the wire. -/
structure Sound (g : NackGenerator) : Prop where
  bounded : ∀ ssrc seq inputs, 0#16 < g.maxNacksPerPacket →
    (∀ pre, pre <+: inputs → (Runs.run step g pre).Missing ssrc seq) →
      namings ssrc seq g inputs ≤ g.maxNacksPerPacket.toNat
  missing : ∀ input, ∀ n ∈ g.emitted input, ∀ seq ∈ n.packetList, g.Missing n.mediaSsrc seq
  names_selected : ∀ input, ∀ n ∈ g.emitted input, n.packetList = g.selected n.mediaSsrc
  marshals : ∀ input, ∀ n ∈ g.emitted input, n.nacks.length ≤ 253 →
    ∃ bytes, n.marshal = .ok bytes ∧ TransportLayerNack.unmarshal bytes = .ok n

theorem mem_round_of_emitted {n : TransportLayerNack} {input : Input} (h : n ∈ g.emitted input) :
    n ∈ g.round := by
  cases input with
  | handleTimeout now =>
    rw [emitted] at h
    split at h
    · exact h
    · cases h
  | _ => cases h

theorem WellFormed.sound (h : g.WellFormed) : g.Sound where
  bounded ssrc seq inputs hlimit hmissing := by
    have hle := namings_le h hlimit hmissing
    omega
  missing input n hn := (mem_round h (mem_round_of_emitted hn)).2.2
  names_selected input n hn := (mem_round h (mem_round_of_emitted hn)).1
  marshals input n hn hfew := by
    obtain ⟨bytes, hbytes⟩ := n.marshal_eq_ok_iff.mpr hfew
    have hne := (mem_round h (mem_round_of_emitted hn)).2.1
    refine ⟨bytes, hbytes, TransportLayerNack.unmarshal_of_marshal hbytes ?_⟩
    apply List.length_pos_of_ne_nil
    intro hnil
    rw [TransportLayerNack.packetList, hnil] at hne
    exact hne rfl

/-- In every state that calls lead to, NACK generation is sound and bounded. -/
theorem sound_run (size : BitVec 16) (interval : Duration) (skipLastN limit : BitVec 16)
    (senderSsrc : Ssrc) (inputs : List Input) :
    (Runs.run step (new size interval skipLastN limit senderSsrc) inputs).Sound := by
  apply WellFormed.sound
  apply Runs.inv_run_of_step (I := WellFormed) step
  · exact fun g input h => h.step input
  · exact wellFormed_new size interval skipLastN limit senderSsrc

instance (g : NackGenerator) (ssrc : Ssrc) (seq : Seq) : Decidable (g.Missing ssrc seq) :=
  decidable_of_iff (seq ∈ ((g.receiveLogs.lookup ssrc).map
    fun log => log.missingSeqNumbers g.skipLastN).getD []) (by
      unfold Missing
      cases g.receiveLogs.lookup ssrc <;> simp)

def media (seq : Seq) : Input :=
  .handleRead ⟨0, .rtp ⟨{
    version := 2#8, padding := false, extension := false, marker := false, payloadType := 96#8,
    sequenceNumber := seq, timestamp := 0#32, ssrc := 7#32, csrc := [], extensionProfile := 0#16,
    extensions := [], extensionsPadding := 0 }, []⟩⟩

/-- Stream 7 is bound and the packets `seqs` arrive. -/
def received (size limit : BitVec 16) (seqs : List Seq) : NackGenerator :=
  Runs.run step (new size 100 0#16 limit 1#32)
    (.bindRemoteStream ⟨7#32, [("nack", "")]⟩ :: seqs.map media)

/-- Without a limit (`max_nacks_per_packet` 0), 101 is requested again in every round that finds it
    missing. -/
theorem unlimited_requests :
    (∀ pre ∈ [.handleTimeout 100, .handleTimeout 200].inits,
      (Runs.run step (received 64#16 0#16 [100#16, 102#16]) pre).Missing 7#32 101#16) ∧
    ¬ namings 7#32 101#16 (received 64#16 0#16 [100#16, 102#16])
        [.handleTimeout 100, .handleTimeout 200] ≤
      (received 64#16 0#16 [100#16, 102#16]).maxNacksPerPacket.toNat := by
  constructor
  · decide +kernel
  · decide +kernel

end Rtc.Interceptor.NackGenerator
