import Rtc.Sctp.Proofs.ActionSteps
import Rtc.Sctp.Proofs.Resurrection

/-!
# The exit of fast recovery

Fast recovery ends when the cumulative loop of a SACK pops exactly the exit point. The exit point is in flight, and a
TSN in flight leaves only through that loop: as long as the in-flight queue is a window, the exit stays reachable. A
closed association that is established again may have lost the front of its window to a SACK that failed half way.
-/

namespace Rtc.Sctp
open Shared Serial Loop Runs PayloadQueue

namespace PayloadQueue

variable {q q' : PayloadQueue} {base next next' : Tsn}

theorem Window.mem_chunkMap (h : Window base q next) (tsn : Tsn) :
    tsn ∈ q.chunkMap ↔ ahead base tsn < q.sorted.length := (h.mem_iff tsn).trans (h.mem_sorted tsn)

theorem InPlace.mem_chunkMap (h : InPlace q q') (hw : Window base q next) (tsn : Tsn) :
    tsn ∈ q'.chunkMap ↔ tsn ∈ q.chunkMap := by
  rw [(h.window base next hw).mem_chunkMap, hw.mem_chunkMap, h.sorted_eq]

theorem Window.len_eq (h : Window base q next) : q.len = q.sorted.length := by
  have hlen := h.length_le
  unfold maxWindow at hlen
  have hnodup : q.sorted.Nodup := by
    rw [h.sorted_eq]
    refine (pairwise_lt_interval base (by omega)).imp ?_
    rintro x y hlt rfl
    exact not_lt_self x hlt
  have hperm : q.chunkMap.keys.Perm q.sorted :=
    (List.perm_ext_iff_of_nodup (AList.keys_nodup _) hnodup).mpr fun tsn => h.mem_iff tsn
  have hkeys : q.chunkMap.keys.length = q.len := List.length_map _
  rw [← hkeys, hperm.length_eq]

def Idle (q : PayloadQueue) : Prop := q.sorted = [] ∧ q.isEmpty = true ∧ q.nBytes = 0

theorem Idle.window (h : Idle q) (base : Tsn) : Window base q base := by
  obtain ⟨hsorted, hempty, hbytes⟩ := h
  have hentries : q.chunkMap.entries = [] := List.eq_nil_of_length_eq_zero (beq_iff_eq.mp hempty)
  have hnot : ∀ tsn, tsn ∉ q.chunkMap := by
    intro tsn hmem
    rw [AList.mem_keys, AList.keys, hentries] at hmem
    exact List.not_mem_nil hmem
  constructor
  · rw [hsorted]
    rfl
  · rw [hsorted]
    exact (BitVec.add_zero base).symm
  · rw [hsorted]
    exact Nat.zero_le _
  · intro tsn
    rw [hsorted]
    exact iff_of_false (hnot tsn) List.not_mem_nil
  · rw [hbytes, Table.total, Table.values, hentries]
    rfl
  · intro tsn c hc
    exact absurd (Table.mem_of_lookup hc) (hnot tsn)

end PayloadQueue

namespace Association

variable {a a' : Association} {base : Tsn} {tsn : Tsn} {d : ChunkSelectiveAck} {now : Instant}
  {v : Table StreamId Nat × Nat × Tsn}

/-- The in-flight queue is a window from `base` on, and the exit point of fast recovery is in it. -/
structure Recoverable (base : Tsn) (a : Association) : Prop where
  window : Window base a.inflightQueue a.myNextTsn
  exit : ∀ tsn, a.recovery = some tsn → tsn ∈ a.inflightQueue.chunkMap

theorem recovery_eq_some_iff :
    a.recovery = some tsn ↔ a.inFastRecovery = true ∧ a.fastRecoverExitPoint = tsn := by
  unfold recovery
  split <;> simp_all

theorem recovery_eq_none_iff : a.recovery = none ↔ a.inFastRecovery = false := by
  unfold recovery
  split <;> simp_all

namespace Recoverable

variable (h : Recoverable base a)
include h

theorem of_senderStep (hstep : SenderStep a a')
    (hlen : a'.inflightQueue.sorted.length ≤ maxWindow) : Recoverable base a' := by
  have hw := hstep.evolves.window base h.window hlen
  refine ⟨hw, fun tsn htsn => ?_⟩
  rw [hstep.recovery_eq] at htsn
  rw [hw.mem_chunkMap]
  exact Nat.lt_of_lt_of_le ((h.window.mem_chunkMap tsn).mp (h.exit tsn htsn)) hstep.evolves.length_le

theorem of_receiverStep (hstep : ReceiverStep a a') : Recoverable base a' := by
  constructor
  · rw [hstep.inflight_eq, hstep.next_eq]
    exact h.window
  · rw [hstep.recovery_eq, hstep.inflight_eq]
    exact h.exit

theorem of_ackStep (hstep : AckStep a a') (hrecovery : a'.recovery = a.recovery) : Recoverable base a' := by
  constructor
  · rw [hstep.next_eq]
    exact hstep.inPlace.window _ _ h.window
  · intro tsn htsn
    rw [hstep.inPlace.mem_chunkMap h.window]
    exact h.exit tsn (hrecovery ▸ htsn)

theorem of_steadyStep (hstep : SteadyStep a a') : Recoverable base a' :=
  h.of_ackStep hstep.toAckStep hstep.recovery_eq

theorem of_eq (hinflight : a'.inflightQueue = a.inflightQueue)
    (hnext : a'.myNextTsn = a.myNextTsn) (hrecovery : a'.recovery = a.recovery) : Recoverable base a' := by
  constructor
  · rw [hinflight, hnext]
    exact h.window
  · rw [hinflight, hrecovery]
    exact h.exit

theorem recovery_eq_none (hnil : a.inflightQueue.sorted = []) : a.recovery = none := by
  cases hrecovery : a.recovery with
  | none => rfl
  | some tsn =>
    have hmem := (h.window.mem_iff tsn).mp (h.exit tsn hrecovery)
    rw [hnil] at hmem
    exact absurd hmem List.not_mem_nil

end Recoverable

/-! ## The cumulative loop -/

theorem recovery_leaveFastRecovery (a : Association) (tsn : Tsn) :
    a.recovery = some tsn ∧ (a.leaveFastRecovery tsn).recovery = none ∨
      a.recovery ≠ some tsn ∧ (a.leaveFastRecovery tsn).recovery = a.recovery := by
  unfold leaveFastRecovery
  split
  case isTrue hleaves =>
    obtain ⟨hfast, htsn⟩ := Bool.and_eq_true_iff.mp hleaves
    exact .inl ⟨recovery_eq_some_iff.mpr ⟨hfast, (beq_iff_eq.mp htsn).symm⟩, rfl⟩
  case isFalse hstays =>
    refine .inr ⟨fun hrecovery => hstays ?_, rfl⟩
    obtain ⟨hfast, htsn⟩ := recovery_eq_some_iff.mp hrecovery
    exact Bool.and_eq_true_iff.mpr ⟨hfast, beq_iff_eq.mpr htsn.symm⟩

/-- What the cumulative loop keeps. An error leaves nothing in flight. -/
structure CumAckInv (a : Association) (s : CumAck) : Prop extends Recoverable s.i s.assoc where
  recovery_eq : s.assoc.recovery = a.recovery ∨ s.assoc.recovery = none
  error : s.error ≠ none → s.assoc.inflightQueue.sorted = []

theorem CumAckInv.round {s : CumAck} (h : CumAckInv a s) (now : Instant) :
    CumAckInv a (cumAckRound d now s).value := by
  unfold cumAckRound
  split
  · by_cases hpos : 0 < s.assoc.inflightQueue.sorted.length
    · obtain ⟨c, hget, hpop, hmap, hwin⟩ := h.window.pop hpos
      have htsn : c.tsn = s.i := h.window.tsn_eq s.i c hget
      have hnotNil : s.error = none := by
        by_contra hne
        rw [h.error hne] at hpos
        exact Nat.lt_irrefl 0 hpos
      generalize s.assoc.inflightQueue.pop s.i = popped at hpop hmap hwin
      obtain ⟨p, q⟩ := popped
      obtain rfl : p = some c := hpop
      dsimp only at hmap hwin ⊢
      have hcount := SteadyStep.countPopped { s with assoc := { s.assoc with inflightQueue := q } } c now
      have hrecovery := recovery_leaveFastRecovery
        (countPopped { s with assoc := { s.assoc with inflightQueue := q } } c now).assoc c.tsn
      have hstep := QuietAck.notePopped { s with assoc := { s.assoc with inflightQueue := q } } c now
      have hi := notePopped_i { s with assoc := { s.assoc with inflightQueue := q } } c now
      have herror := notePopped_error { s with assoc := { s.assoc with inflightQueue := q } } c now
      rw [hcount.recovery_eq] at hrecovery
      change s.assoc.recovery = some c.tsn ∧
          (notePopped { s with assoc := { s.assoc with inflightQueue := q } } c now).assoc.recovery = none ∨
        s.assoc.recovery ≠ some c.tsn ∧
          (notePopped { s with assoc := { s.assoc with inflightQueue := q } } c now).assoc.recovery
            = s.assoc.recovery at hrecovery
      generalize notePopped { s with assoc := { s.assoc with inflightQueue := q } } c now = s₁
        at hstep hi herror hrecovery
      have hwin' := hstep.inPlace.window _ _ hwin
      refine ⟨⟨?_, fun tsn hexit => ?_⟩, ?_, fun hne => ?_⟩
      · change Window (s₁.i + 1#32) s₁.assoc.inflightQueue s₁.assoc.myNextTsn
        rw [hi, hstep.next_eq]
        exact hwin'
      · -- the exit point is still there, as it is not the one that was popped
        change s₁.assoc.recovery = some tsn at hexit
        change tsn ∈ s₁.assoc.inflightQueue.chunkMap
        rw [hstep.inPlace.mem_chunkMap hwin]
        rw [hmap, AList.mem_erase]
        rcases hrecovery with ⟨-, hnone⟩ | ⟨hne, hsame⟩
        · rw [hnone] at hexit
          cases hexit
        · rw [hsame] at hexit
          exact ⟨fun heq => hne (by rw [hexit, heq, htsn]), h.exit tsn hexit⟩
      · rcases hrecovery with ⟨-, hnone⟩ | ⟨-, hsame⟩
        · exact .inr hnone
        · exact h.recovery_eq.imp hsame.trans hsame.trans
      · exact absurd (herror.trans hnotNil) hne
    · have hnil : s.assoc.inflightQueue.sorted = [] := List.eq_nil_of_length_eq_zero (by omega)
      have hpop : s.assoc.inflightQueue.pop s.i = (none, s.assoc.inflightQueue) := by
        unfold PayloadQueue.pop
        rw [hnil]
        rfl
      rw [hpop]
      exact ⟨h.toRecoverable.of_eq rfl rfl rfl, h.recovery_eq, fun _ => hnil⟩
  · exact h

theorem Recoverable.cumAck (h : Recoverable (a.cumulativeTsnAckPoint + 1#32) a) (d : ChunkSelectiveAck)
    (now : Instant) : CumAckInv a (a.cumAck d now) :=
  loop_inv (fun _ hs => hs.round now) ⟨h, .inl rfl, fun hne => absurd rfl hne⟩ _

/-- A SACK that passes the exit point ends fast recovery, also if it is refused afterwards. -/
theorem Recoverable.recovery_cumAck (h : Recoverable (a.cumulativeTsnAckPoint + 1#32) a)
    (now : Instant) (hd : sna32gt a.cumulativeTsnAckPoint d.cumulativeTsnAck = false)
    (hrecovery : a.recovery = some tsn) (hpassed : sna32lte tsn d.cumulativeTsnAck = true) :
    (a.cumAck d now).assoc.recovery = none := by
  have hinv := h.cumAck d now
  have hspec := cumAck_spec now h.window hd
  generalize a.cumAck d now = s at hinv hspec
  rcases hspec with herror | ⟨-, hi⟩
  · exact hinv.recovery_eq_none (hinv.error herror)
  · rcases hinv.recovery_eq with heq | hnone
    · -- what is still in the window is after the cumulative TSN
      exfalso
      have hmem := (hinv.window.mem_chunkMap tsn).mp (hinv.exit tsn (heq.trans hrecovery))
      have hlen := hinv.window.length_le
      unfold maxWindow at hlen
      rw [hi] at hmem
      rw [sna32lte_iff] at hpassed
      have hsum : ahead tsn d.cumulativeTsnAck = 2 ^ 32 - 1 - ahead (d.cumulativeTsnAck + 1#32) tsn := by
        have hback := ahead_succ_self d.cumulativeTsnAck
        rw [ahead_eq_sub (d.cumulativeTsnAck + 1#32) (by omega), hback]
      omega
    · exact hnone

/-! ## Gap ack blocks -/

theorem htna_gapAck (cum : Tsn) {next : Tsn} {tsns : List Tsn} {s s' : GapAck}
    (h : gapAck now tsns s = (.ok (), s')) (hw : Window base s.assoc.inflightQueue next)
    (hs : s.htna = cum ∨ s.htna ∈ s.assoc.inflightQueue.chunkMap) :
    s'.htna = cum ∨ s'.htna ∈ s'.assoc.inflightQueue.chunkMap := by
  induction tsns generalizing s with
  | nil =>
    cases h
    exact hs
  | cons tsn rest ih =>
    unfold gapAck at h
    split at h
    case _ s₁ heq =>
      have hstep := SteadyStep.gapAckTsn heq
      have hmem := hstep.inPlace.mem_chunkMap hw
      refine ih h (hstep.inPlace.window _ _ hw) ?_
      have hhtna : s₁.htna = s.htna ∨ s₁.htna = tsn ∧ tsn ∈ s.assoc.inflightQueue.chunkMap := by
        unfold gapAckTsn at heq
        split at heq
        · cases heq
        case _ c hget =>
          dsimp only at heq
          split at heq
          · split at heq
            · cases heq
              unfold noteGapAcked
              dsimp only
              split
              · exact .inr ⟨rfl, Table.mem_of_lookup hget⟩
              · exact .inl rfl
            · cases heq
          · cases heq
            exact .inl rfl
      rcases hhtna with hsame | ⟨hnew, hin⟩
      · rw [hsame]
        exact hs.imp_right (hmem _).mpr
      · rw [hnew]
        exact .inr ((hmem tsn).mpr hin)
    · cases h

theorem Recoverable.processSelectiveAck (h : Recoverable (a.cumulativeTsnAckPoint + 1#32) a)
    (hd : sna32gt a.cumulativeTsnAckPoint d.cumulativeTsnAck = false)
    (heq : a.processSelectiveAck d now = (.ok v, a')) :
    a'.cumulativeTsnAckPoint = a.cumulativeTsnAckPoint ∧ Recoverable (d.cumulativeTsnAck + 1#32) a' ∧
      (v.2.2 = d.cumulativeTsnAck ∨ v.2.2 ∈ a'.inflightQueue.chunkMap) := by
  obtain ⟨hcum, hwin⟩ := window_processSelectiveAck h.window hd heq
  refine ⟨hcum, ?_⟩
  unfold Association.processSelectiveAck at heq
  have hinv := h.cumAck d now
  have hspec := cumAck_spec now h.window hd
  dsimp only at heq
  generalize a.cumAck d now = s at heq hinv hspec
  split at heq
  · cases heq
  case _ hnone =>
    obtain ⟨-, hi⟩ := hspec.resolve_left fun hne => hne hnone
    have hgap := SteadyStep.gapAck now (gapTsns d)
      { assoc := s.assoc, tally := s.tally, htna := d.cumulativeTsnAck }
    split at heq
    · cases heq
    case _ g hg =>
      have hhtna := htna_gapAck d.cumulativeTsnAck hg hinv.window (.inl rfl)
      rw [hg] at hgap
      cases heq
      have hrestart := SteadyStep.restartT3 g.assoc a.earliestOutstanding d g.tally.newlyAckedData
      have hg' := hinv.toRecoverable.of_steadyStep hgap
      refine ⟨hi ▸ hg'.of_steadyStep hrestart, hhtna.imp_right fun hmem => ?_⟩
      exact (hrestart.inPlace.mem_chunkMap hg'.window _).mpr hmem

theorem recovery_processSelectiveAck (a : Association) (d : ChunkSelectiveAck) (now : Instant) :
    (a.processSelectiveAck d now).2.recovery = (a.cumAck d now).assoc.recovery := by
  unfold Association.processSelectiveAck
  dsimp only
  generalize a.cumAck d now = s
  split
  · rfl
  have hsame := SteadyStep.gapAck now (gapTsns d)
    { assoc := s.assoc, tally := s.tally, htna := d.cumulativeTsnAck }
  split
  case _ hg =>
    rw [hg] at hsame
    exact hsame.recovery_eq
  case _ hg =>
    rw [hg] at hsame
    exact (hsame.trans (.restartT3 _ _ _ _)).recovery_eq

/-! ## The scan for missing chunks -/

/-- The scan after `k` rounds: no error, and fast recovery as it was or entered with `htna`. -/
structure ScanInv (a : Association) (cum htna : Tsn) (k : Nat) (s : MissScan) : Prop where
  step : AckStep a s.assoc
  error_eq : s.error = none
  tsn_eq : s.tsn = cum + 1#32 + BitVec.ofNat 32 k
  recovery_eq : s.assoc.recovery = a.recovery ∨
    s.assoc.recovery = some htna ∧ a.inFastRecovery = false ∧ 0 < k

theorem ScanInv.round {cum htna maxTsn : Tsn} {k m : Nat} {s : MissScan}
    (h : ScanInv a cum htna k s) (hw : Window (cum + 1#32) a.inflightQueue a.myNextTsn)
    (hmax : maxTsn = cum + 1#32 + BitVec.ofNat 32 m) (hm : m ≤ a.inflightQueue.sorted.length) (hk : k ≤ m) :
    missRound htna maxTsn s = .done s ∨
      k < m ∧ ∃ s', missRound htna maxTsn s = .yield s' ∧ ScanInv a cum htna (k + 1) s' := by
  have hlen := hw.length_le
  unfold maxWindow at hlen
  unfold missRound
  split
  case isFalse => exact .inl rfl
  case isTrue hlt =>
    right
    have hahead : ∀ n, n ≤ m → ahead (cum + 1#32) (cum + 1#32 + BitVec.ofNat 32 n) = n :=
      fun n hn => ahead_add _ (by omega)
    have hkm : k < m := by
      rw [h.tsn_eq, hmax, sna32lt_iff,
        ahead_eq_sub (cum + 1#32) (by rw [hahead k hk, hahead m le_rfl]; exact hk), hahead k hk,
        hahead m le_rfl] at hlt
      omega
    have hw' : Window (cum + 1#32) s.assoc.inflightQueue a.myNextTsn := h.step.inPlace.window _ _ hw
    have hin : ahead (cum + 1#32) s.tsn < s.assoc.inflightQueue.sorted.length := by
      rw [h.tsn_eq, hahead k hk, h.step.inPlace.sorted_eq]
      omega
    obtain ⟨c, hget⟩ := hw'.lookup_isSome.mpr hin
    rw [hget]
    refine ⟨hkm, _, rfl, ?_, h.error_eq, ?_, ?_⟩
    · have hround := (QuietAck.missRound htna maxTsn s).toAckStep
      unfold missRound at hround
      rw [if_pos hlt, hget] at hround
      exact h.step.trans hround
    · rw [h.tsn_eq, ← add_add]
    · dsimp only
      split
      · split
        case isTrue henter =>
          right
          have hout : s.assoc.inFastRecovery = false := by
            have hand := (Bool.and_eq_true_iff.mp henter).2
            simpa using hand
          refine ⟨rfl, ?_, Nat.succ_pos k⟩
          rcases h.recovery_eq with hsame | ⟨hentered, -, -⟩
          · rw [← recovery_eq_none_iff, ← hsame, recovery_eq_none_iff]
            exact hout
          · rw [recovery_eq_none_iff.mpr hout] at hentered
            cases hentered
        case isFalse => exact h.recovery_eq.imp_right fun h => ⟨h.1, h.2.1, Nat.succ_pos k⟩
      · exact h.recovery_eq.imp_right fun h => ⟨h.1, h.2.1, Nat.succ_pos k⟩

theorem scan_spec {cum maxTsn : Tsn} {m : Nat} (htna : Tsn) (hw : Window (cum + 1#32) a.inflightQueue a.myNextTsn)
    (hmax : maxTsn = cum + 1#32 + BitVec.ofNat 32 m) (hm : m ≤ a.inflightQueue.sorted.length) :
    ∃ k, k ≤ m ∧ ScanInv a cum htna k
      (loop (missRound htna maxTsn) (ahead (cum + 1#32) maxTsn + 1) { assoc := a, tsn := cum + 1#32 }) := by
  have hlen := hw.length_le
  unfold maxWindow at hlen
  have hahead : ∀ n, n ≤ m → ahead (cum + 1#32 + BitVec.ofNat 32 n) maxTsn = m - n := by
    intro n hn
    have hself : ∀ i, i ≤ m → ahead (cum + 1#32) (cum + 1#32 + BitVec.ofNat 32 i) = i :=
      fun i hi => ahead_add _ (by omega)
    rw [hmax, ahead_eq_sub (cum + 1#32) (by rw [hself n hn, hself m le_rfl]; exact hn), hself n hn, hself m le_rfl]
  refine loop_post (I := fun s => ∃ k, k ≤ m ∧ ScanInv a cum htna k s)
    (P := fun s => ∃ k, k ≤ m ∧ ScanInv a cum htna k s) (fun s => ahead s.tsn maxTsn) ?_ ?_
    ⟨0, Nat.zero_le m, .refl a, rfl, (BitVec.add_zero _).symm, .inl rfl⟩ (Nat.lt_succ_self _)
  · rintro s s' ⟨k, hk, hinv⟩ hround
    rcases hinv.round hw hmax hm hk with hdone | ⟨hkm, s₁, hyield, hnext⟩
    · rw [hdone] at hround
      cases hround
    · rw [hyield] at hround
      cases hround
      refine ⟨⟨k + 1, hkm, hnext⟩, ?_⟩
      rw [hnext.tsn_eq, hinv.tsn_eq, hahead k hk, hahead (k + 1) hkm]
      omega
  · rintro s s' ⟨k, hk, hinv⟩ hround
    rcases hinv.round hw hmax hm hk with hdone | ⟨hkm, s₁, hyield, hnext⟩
    · rw [hdone] at hround
      cases hround
      exact ⟨k, hk, hinv⟩
    · rw [hyield] at hround
      cases hround

/-- With everything the SACK acknowledged in flight, the scan meets no gap, and it enters fast recovery only with
    an exit point in flight. -/
theorem processFastRetransmission_spec {cum htna : Tsn} (hw : Window (cum + 1#32) a.inflightQueue a.myNextTsn)
    (hhtna : htna = cum ∨ htna ∈ a.inflightQueue.chunkMap) (advanced : Bool) :
    (a.processFastRetransmission cum htna advanced).1 = .ok () ∧
      ((a.processFastRetransmission cum htna advanced).2.recovery = a.recovery ∨
        (a.processFastRetransmission cum htna advanced).2.recovery = some htna ∧
          htna ∈ a.inflightQueue.chunkMap) := by
  unfold processFastRetransmission
  dsimp only
  generalize hs : (if (!a.inFastRecovery || advanced) = true then _ else _ : MissScan) = s
  have hscan : s.error = none ∧
      (s.assoc.recovery = a.recovery ∨ s.assoc.recovery = some htna ∧ htna ∈ a.inflightQueue.chunkMap) := by
    rw [← hs]
    split
    case isFalse => exact ⟨rfl, .inl rfl⟩
    cases hfast : a.inFastRecovery with
    | false =>
      rw [Bool.not_false, if_pos rfl]
      rcases hhtna with rfl | hmem
      · -- nothing newly acknowledged beyond the cumulative TSN: the scan is empty
        have hstop : missRound htna htna { assoc := a, tsn := htna + 1#32 }
            = .done { assoc := a, tsn := htna + 1#32 } := by
          unfold missRound
          rw [if_neg]
          rw [sna32lt_iff, ahead_succ_self]
          omega
        rw [loop_done hstop]
        exact ⟨rfl, .inl rfl⟩
      · obtain ⟨k, -, hscan⟩ := scan_spec htna hw (add_ahead (cum + 1#32) htna).symm
          ((hw.mem_chunkMap htna).mp hmem).le
        exact ⟨hscan.error_eq, hscan.recovery_eq.imp_right fun h => ⟨h.1, hmem⟩⟩
    | true =>
      rw [Bool.not_true, if_neg Bool.false_ne_true]
      have hmax : cum + BitVec.ofNat 32 (a.inflightQueue.len + 1)
          = cum + 1#32 + BitVec.ofNat 32 a.inflightQueue.sorted.length := by
        rw [hw.len_eq, Nat.add_comm, ← add_add]
      obtain ⟨k, -, hscan⟩ := scan_spec htna hw hmax le_rfl
      refine ⟨hscan.error_eq, .inl (hscan.recovery_eq.resolve_right fun h => ?_)⟩
      rw [hfast] at h
      exact nomatch h.2.1
  obtain ⟨herror, hrecovery⟩ := hscan
  rw [herror]
  refine ⟨rfl, ?_⟩
  dsimp only
  split <;> exact hrecovery

section

variable (h : Recoverable (a.cumulativeTsnAckPoint + 1#32) a)
include h

theorem Recoverable.finishSack (hd : sna32gt a.cumulativeTsnAckPoint d.cumulativeTsnAck = false)
    (heq : a.processSelectiveAck d now = (.ok v, a')) :
    let b := (((a'.advanceCumulativeTsn d v.2.1 now).2.releaseStreamBuffers v.1).updateRwnd d)
    let r := b.processFastRetransmission d.cumulativeTsnAck v.2.2 (a'.advanceCumulativeTsn d v.2.1 now).1
    r.1 = .ok () ∧ r.2.cumulativeTsnAckPoint = d.cumulativeTsnAck ∧
      Recoverable (d.cumulativeTsnAck + 1#32) r.2 := by
  obtain ⟨hcum, hrecoverable, hhtna⟩ := h.processSelectiveAck hd heq
  obtain ⟨-, hsame, hnext, hinPlace, hcum'⟩ := advanceCumulativeTsn_spec a' d v.2.1 now
  have hcum₁ := hcum' (by rw [hcum]; exact hd)
  have hadvanced : Recoverable (d.cumulativeTsnAck + 1#32) (a'.advanceCumulativeTsn d v.2.1 now).2 := by
    constructor
    · rw [hnext]
      exact hinPlace.window _ _ hrecoverable.window
    · intro tsn htsn
      rw [hinPlace.mem_chunkMap hrecoverable.window]
      exact hrecoverable.exit tsn (hsame ▸ htsn)
  have hmem := hinPlace.mem_chunkMap hrecoverable.window
  obtain ⟨hrelease, hkeeps⟩ := QuietAck.releaseStreamBuffers (a'.advanceCumulativeTsn d v.2.1 now).2 v.1
  have hrwnd : QuietAck ((a'.advanceCumulativeTsn d v.2.1 now).2.releaseStreamBuffers v.1)
      (((a'.advanceCumulativeTsn d v.2.1 now).2.releaseStreamBuffers v.1).updateRwnd d) :=
    .of_frame rfl rfl
  have hb := hadvanced.of_ackStep (hrelease.trans hrwnd).toAckStep hkeeps
  have hmem' := (hrelease.trans hrwnd).inPlace.mem_chunkMap hadvanced.window
  generalize hbeq : ((a'.advanceCumulativeTsn d v.2.1 now).2.releaseStreamBuffers v.1).updateRwnd d = b
    at hb hmem' hrwnd
  have hcum₂ := (hrelease.trans hrwnd).cum_eq.trans hcum₁
  obtain ⟨hok, hrecovery⟩ := processFastRetransmission_spec hb.window
    (hhtna.imp_right fun hin => (hmem' _).mpr ((hmem _).mpr hin)) (a'.advanceCumulativeTsn d v.2.1 now).1
  have hfast := QuietAck.processFastRetransmission b d.cumulativeTsnAck v.2.2
    (a'.advanceCumulativeTsn d v.2.1 now).1
  refine ⟨hok, hfast.cum_eq.trans hcum₂, ?_⟩
  constructor
  · rw [hfast.next_eq]
    exact hfast.inPlace.window _ _ hb.window
  · intro tsn htsn
    rw [hfast.inPlace.mem_chunkMap hb.window]
    rcases hrecovery with hsame' | ⟨hentered, hin⟩
    · exact hb.exit tsn (hsame' ▸ htsn)
    · rw [hentered] at htsn
      cases htsn
      exact hin

theorem Recoverable.handleSack
    (heq : a.handleSack d now = (.ok (), a')) : Recoverable (a'.cumulativeTsnAckPoint + 1#32) a' := by
  unfold Association.handleSack at heq
  split at heq
  · cases heq
    exact h
  split at heq
  · cases heq
    exact h
  case _ hgt =>
  split at heq
  · cases heq
  case _ hprocess =>
    obtain ⟨hok, hcum, hfinished⟩ := h.finishSack (Bool.eq_false_iff.mpr hgt) hprocess
    dsimp only at hok hcum hfinished heq
    split at heq
    · cases heq
    case _ a₂ hfast =>
      rw [hfast] at hcum hfinished
      cases heq
      obtain ⟨hsame, -, -, -, hcum₃, hinflight, hnext⟩ := postprocessSack_spec a₂.advanceForwardTsn a.state now
      have hforward := SteadyStep.advanceForwardTsn a₂
      rw [hcum₃, hforward.cum_eq, hcum]
      exact (hfinished.of_steadyStep hforward).of_eq hinflight hnext hsame.recovery_eq

theorem Recoverable.handleSack_ok
    (heq : a.processSelectiveAck d now = (.ok v, a')) : (a.handleSack d now).1 = .ok () := by
  unfold Association.handleSack
  split
  · rfl
  split
  · rfl
  case _ hgt =>
    obtain ⟨hok, -⟩ := h.finishSack (Bool.eq_false_iff.mpr hgt) heq
    rw [heq]
    dsimp only
    split
    case _ hfast =>
      rw [hfast] at hok
      exact hok
    · rfl

end

/-! ## The property -/

/-- In fast recovery the exit point is in flight, between the ack point and the next TSN; a SACK that passes it ends
    fast recovery; and a SACK that `process_selective_ack` accepts is accepted by the scan that follows. -/
structure FastRecoveryExits (a : Association) : Prop where
  inFlight : a.inFastRecovery = true → a.fastRecoverExitPoint ∈ a.inflightQueue.chunkMap ∧
    sna32lt a.cumulativeTsnAckPoint a.fastRecoverExitPoint = true ∧
    sna32lt a.fastRecoverExitPoint a.myNextTsn = true
  ends : ∀ d now, a.inFastRecovery = true → sna32gt a.cumulativeTsnAckPoint d.cumulativeTsnAck = false →
    sna32lte a.fastRecoverExitPoint d.cumulativeTsnAck = true →
    (a.processSelectiveAck d now).2.inFastRecovery = false
  scanned : ∀ d now v b, a.processSelectiveAck d now = (.ok v, b) → (a.handleSack d now).1 = .ok ()

theorem Recoverable.exits (h : Recoverable (a.cumulativeTsnAckPoint + 1#32) a)
    (hlen : a.inflightQueue.sorted.length < 2 ^ 31) : FastRecoveryExits a where
  inFlight := by
    intro hfast
    have hmem := h.exit _ (recovery_eq_some_iff.mpr ⟨hfast, rfl⟩)
    have hin := (h.window.mem_chunkMap _).mp hmem
    have hnext := h.window.ahead_next
    refine ⟨hmem, ?_, ?_⟩
    · have hne : a.cumulativeTsnAckPoint ≠ a.fastRecoverExitPoint := by
        intro heq
        rw [← heq, ahead_succ_self] at hin
        omega
      have hpos : 0 < ahead a.cumulativeTsnAckPoint a.fastRecoverExitPoint :=
        Nat.pos_of_ne_zero fun hzero => hne (ahead_eq_zero.mp hzero)
      rw [ahead_succ hne] at hin
      rw [sna32lt_iff]
      omega
    · rw [sna32lt_iff, ahead_eq_sub (a.cumulativeTsnAckPoint + 1#32) (by omega), hnext]
      omega
  ends := by
    intro d now hfast hd hpassed
    rw [← recovery_eq_none_iff, recovery_processSelectiveAck]
    exact h.recovery_cumAck now hd (recovery_eq_some_iff.mpr ⟨hfast, rfl⟩) hpassed
  scanned := fun _ _ _ _ heq => h.handleSack_ok heq

end Association

/-! ## Runs -/

namespace HandshakeAssociation
open Association

/-- The sending side of an association that is not closed can recover. -/
def Sending (a : Association) : Prop := a.state ≠ .closed → Recoverable (a.cumulativeTsnAckPoint + 1#32) a

section

variable {a a' : Association}

theorem Sending.of_sideStep (h : Sending a) (hstep : SideStep a a')
    (hlen : a'.inflightQueue.sorted.length ≤ maxWindow) : Sending a' := by
  intro hopen
  rcases hstep with hstep | hstep
  · rw [hstep.cum_eq]
    exact (h fun hclosed => hopen (hstep.closed hclosed)).of_receiverStep hstep
  · rw [hstep.cum_eq]
    exact (h fun hclosed => hopen (hstep.closed hclosed)).of_senderStep hstep hlen

theorem Sending.of_frame (h : Sending a) (hframe : HandshakeFrame a a')
    (hclosed : a.state = .closed → a'.state = .closed) : Sending a' := by
  intro hopen
  rw [hframe.cum_eq]
  exact (h fun hc => hopen (hclosed hc)).of_eq hframe.inflight_eq hframe.next_eq hframe.recovery_eq

theorem Sending.of_closed (h : a.state = .closed) : Sending a := fun hopen => absurd h hopen

theorem Sending.dispatch (h : Sending a) {now : Instant} {c : InChunk} {packets : List Packet}
    (heq : a.dispatch now c = (.ok packets, a')) (hlen : a'.inflightQueue.sorted.length ≤ maxWindow) :
    Sending a' := by
  by_cases hc : ∃ d, c = .selectiveAck d
  · obtain ⟨d, rfl⟩ := hc
    unfold Association.dispatch at heq
    dsimp only at heq
    split at heq
    case _ hsack =>
      cases heq
      have hkept := kept_handleSack a d now
      rw [hsack] at hkept
      intro hopen
      exact (h fun hclosed => hopen (hkept.closed hclosed)).handleSack hsack
    · cases heq
  · have hstep := sideStep_dispatch a now fun d hd => hc ⟨d, hd⟩
    rw [heq] at hstep
    exact h.of_sideStep hstep hlen

end

/-- A COOKIE ECHO that establishes a closed association finds it as `Association::new` has made it: nothing is in
    flight or has been, and there is no fast recovery. -/
def OpensFresh (a : HandshakeAssociation) : Action → Prop
  | .chunk _ _ _ (.cookieEcho cookie) => a.state = .closed → a.myCookie = some cookie →
    a.inflightQueue.Idle ∧ a.myNextTsn = a.cumulativeTsnAckPoint + 1#32 ∧ a.inFastRecovery = false
  | _ => True

instance (a : HandshakeAssociation) (action : Action) : Decidable (a.OpensFresh action) := by
  delta OpensFresh PayloadQueue.Idle
  split <;> infer_instance

variable {a : HandshakeAssociation}

theorem sending_handleCookieEcho {cookie : List Byte} (h : Sending a.toAssociation)
    (hfresh : a.state = .closed → a.myCookie = some cookie →
    a.inflightQueue.Idle ∧ a.myNextTsn = a.cumulativeTsnAckPoint + 1#32 ∧ a.inFastRecovery = false) :
    Sending (a.handleCookieEcho cookie).toAssociation := by
  obtain ⟨hframe, -⟩ := handleCookieEcho_frame a cookie
  by_cases hclosed : a.state = .closed
  · by_cases hcookie : a.myCookie = some cookie
    · obtain ⟨hqueue, hnext, hfast⟩ := hfresh hclosed hcookie
      intro _
      rw [hframe.cum_eq]
      refine Recoverable.of_eq (a := a.toAssociation) ⟨?_, fun tsn htsn => ?_⟩ hframe.inflight_eq hframe.next_eq
        hframe.recovery_eq
      · rw [hnext]
        exact hqueue.window _
      · rw [recovery_eq_none_iff.mpr hfast] at htsn
        cases htsn
    · -- a cookie that is not ours does nothing
      rw [handleCookieEcho_of_ne fun mine hmine heq => hcookie (hmine.trans (congrArg some heq))]
      exact h
  · exact h.of_frame hframe fun hc => absurd hc hclosed

theorem sending_dispatch {b : HandshakeAssociation} (now : Instant) (c : InChunk) (h : Sending a.toAssociation)
    (heq : a.dispatch now c = (.ok (), b)) (hlen : b.inflightQueue.sorted.length ≤ maxWindow) :
    Sending b.toAssociation := by
  unfold dispatch at heq
  split at heq
  · cases heq
  case _ hdispatch =>
    cases heq
    exact (h.dispatch hdispatch hlen).of_frame ⟨rfl, rfl, rfl, rfl, rfl, rfl, rfl⟩ id

theorem sending_handleChunk {b : HandshakeAssociation} {p : Wire.Packet} {now : Instant} {random : List Byte}
    {c : Wire.Chunk} (h : Sending a.toAssociation) (hfresh : a.OpensFresh (.chunk p now random c))
    (heq : a.handleChunk p now random c = (.ok (), b)) (hlen : b.inflightQueue.sorted.length ≤ maxWindow) :
    Sending b.toAssociation := by
  cases c with
  | init c =>
    unfold handleChunk at heq
    dsimp only at heq
    split at heq
    · cases heq
    split at heq
    · obtain ⟨hframe, hclosed, -⟩ := handleInitAck_frame a p c now
      rw [heq] at hframe hclosed
      exact h.of_frame hframe hclosed
    · obtain ⟨hframe, hstate, -⟩ := handleInit_frame a p c random
      rw [heq] at hframe hstate
      exact h.of_frame hframe hstate.trans
  | abort causes =>
    unfold handleChunk at heq
    dsimp only at heq
    split at heq
    · cases heq
      exact .of_closed (state_close _ _)
    · cases heq
  | error causes => cases heq
  | heartbeat params =>
    cases heq
    rw [toAssociation_handleHeartbeat]
    exact h
  | cookieEcho cookie =>
    cases heq
    exact sending_handleCookieEcho h hfresh
  | cookieAck =>
    cases heq
    obtain ⟨hframe, hclosed, -⟩ := handleCookieAck_frame a
    exact h.of_frame hframe hclosed
  -- the chunks of an established association
  | _ =>
    unfold handleChunk at heq
    exact sending_dispatch now _ h heq hlen

theorem sending_drive {action : Action} (h : Sending a.toAssociation)
    (hfresh : a.OpensFresh action) (hlen : (a.drive action).inflightQueue.sorted.length ≤ maxWindow) :
    Sending (a.drive action).toAssociation := by
  cases action with
  | chunk p now random c =>
    unfold drive at hlen ⊢
    dsimp only at hlen ⊢
    split
    case _ b heq =>
      rw [heq] at hlen
      exact sending_handleChunk h hfresh heq hlen
    · exact .of_closed (state_close _ _)
  | _ => exact h.of_sideStep (sideStep_act a rfl) hlen

/-- What a run has to meet for the exit of fast recovery to stay reachable. -/
def Sound (a : HandshakeAssociation) (action : Action) : Prop :=
  a.OpensFresh action ∧ (a.drive action).inflightQueue.sorted.length < 2 ^ 31

instance (a : HandshakeAssociation) (action : Action) : Decidable (Sound a action) :=
  inferInstanceAs (Decidable (_ ∧ _))

/-- In every run with fewer than `2 ^ 31` chunks in flight at a time, in which a COOKIE ECHO establishes no closed
    association that has sent before, fast recovery has a reachable exit in every established state. -/
theorem fastRecovery_exits (config : AssociationConfig) (inbound outbound : BitVec 16) (client : Bool) (tsn : Tsn)
    (tag : BitVec 32) (now : Instant) (actions : List Action)
    (hrun : Meets drive Sound (new config inbound outbound client tsn tag now) actions)
    (hstate : (run drive (new config inbound outbound client tsn tag now) actions).state = .established) :
    FastRecoveryExits (run drive (new config inbound outbound client tsn tag now) actions).toAssociation := by
  have hstart : Sending (new config inbound outbound client tsn tag now).toAssociation ∧
      (new config inbound outbound client tsn tag now).inflightQueue.sorted.length < 2 ^ 31 := by
    have hnew : Recoverable (tsn - 1#32 + 1#32) (Association.new config tsn) := by
      refine ⟨?_, fun tsn htsn => nomatch htsn⟩
      rw [BitVec.sub_add_cancel]
      exact .new tsn
    cases client
    · exact ⟨fun _ => hnew, Nat.two_pow_pos 31⟩
    · exact ⟨fun _ => hnew.of_eq rfl rfl rfl, Nat.two_pow_pos 31⟩
  obtain ⟨hsending, hlen⟩ := inv_run drive
    (I := fun a => Sending a.toAssociation ∧ a.inflightQueue.sorted.length < 2 ^ 31)
    (fun _ _ h hok => ⟨sending_drive h.1 hok.1 hok.2.le, hok.2⟩) hstart hrun
  refine (hsending ?_).exits hlen
  rw [hstate]
  exact nofun

/-- A SACK of a client, which may name a gap block. -/
def clientSack (cum : Tsn) (gaps : List GapAckBlock) : Action :=
  .chunk ⟨⟨5000, 5000, 7⟩, []⟩ 0 [] (.selectiveAck ⟨cum, 131072, gaps, []⟩)

/-- The server completes its handshake, sends five messages and gets three SACKs that report the first of them
    missing. -/
def threeGaps : List Action :=
  [.chunk peerInit.packet 0 [1, 2, 3, 4] (.init peerInitChunk),
    .chunk peerCookieEcho.packet 0 [] (.cookieEcho [1, 2, 3, 4]), .openStream 1]
    ++ List.replicate 5 (.write 1 0 [7] .binary)
    ++ [.gatherOutbound 0, clientSack 0 [⟨2, 2⟩], clientSack 0 [⟨2, 3⟩], clientSack 0 [⟨2, 4⟩]]

/-- The fourth TSN ends the fast recovery that the third report has begun. -/
theorem fastRecovery_exits_three_gaps :
    (run drive server threeGaps).inFastRecovery = true ∧ (run drive server threeGaps).fastRecoverExitPoint = 4 ∧
      FastRecoveryExits (run drive server threeGaps).toAssociation :=
  ⟨by decide +kernel, by decide +kernel,
    fastRecovery_exits _ _ _ _ _ _ _ threeGaps (by decide +kernel) (by decide +kernel)⟩

/-- A SACK pops the first TSN and then fails, for a gap block that names nothing in flight. The association closes, the
    cookie of its handshake establishes it again, and the SACK of everything in flight does not end fast recovery. -/
theorem fastRecovery_without_exit :
    let actions := threeGaps ++ [clientSack 1 [⟨50, 50⟩],
      .chunk peerCookieEcho.packet 0 [] (.cookieEcho [1, 2, 3, 4])]
    (run drive server actions).state = .established ∧
      ¬ FastRecoveryExits (run drive server actions).toAssociation := by
  refine ⟨by decide +kernel, fun hexits => ?_⟩
  have hends := hexits.ends ⟨5, 131072, [], []⟩ 0 (by decide +kernel) (by decide +kernel) (by decide +kernel)
  revert hends
  decide +kernel

end HandshakeAssociation
end Rtc.Sctp
