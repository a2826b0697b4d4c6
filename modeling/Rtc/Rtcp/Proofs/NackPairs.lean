import Mathlib.Data.List.TakeWhile
import Rtc.Lib.Windows
import Rtc.Rtcp.TransportLayerNack

/-!
# NACK pairs name what was asked for

The pairs made of a list name exactly its numbers, whatever their order. They are as few as can be as long as no pair
has to reach across the wrap, where `nack_pairs_from_sequence_numbers` starts a new one.
-/

namespace Rtc.Rtcp
open Serial Windows

variable {base seq s : BitVec 16} {seqs : List (BitVec 16)} {pair : NackPair}

/-- The pairs name exactly the numbers of the list. -/
def Names (pairs : List NackPair) (seqs : List (BitVec 16)) : Prop :=
  ∀ s, s ∈ pairs.flatMap NackPair.packetList ↔ s ∈ seqs

/-- The pairs name the numbers of the list, and no fewer pairs do. -/
def NamesLeast (pairs : List NackPair) (seqs : List (BitVec 16)) : Prop :=
  Names pairs seqs ∧ ∀ others, Names others seqs → pairs.length ≤ others.length

/-- Sorted in serial order, with duplicates. -/
def SeriallySorted (seqs : List (BitVec 16)) : Prop := seqs.Pairwise fun a b => a = b ∨ Lt a b

/-- A number counted on from the first one, past the wrap. -/
def unwrapped (base seq : BitVec 16) : Nat := base.toNat + ahead base seq

/-- Pairs that may reach across the wrap are no fewer than pairs that may not. -/
def CrossingSavesNothing : List (BitVec 16) → Prop
  | [] => True
  | base :: rest =>
    (starts 17 ((base :: rest).map (unwrapped base))).length =
      (starts 17 (((base :: rest).takeWhile (base ≤ ·)).map BitVec.toNat)).length +
        (starts 17 (((base :: rest).dropWhile (base ≤ ·)).map BitVec.toNat)).length

/-! ## The numbers of a pair -/

theorem mem_packetList :
    s ∈ pair.packetList ↔ ∃ j ≤ 16, s = pair.packetId + BitVec.ofNat 16 j ∧
      (j = 0 ∨ pair.lostPackets.getLsbD (j - 1) = true) := by
  rw [NackPair.packetList, BitScan.ones_eq_filter]
  simp only [List.mem_cons, List.mem_map, List.mem_filter, List.mem_range]
  constructor
  · rintro (rfl | ⟨i, ⟨hi, hbit⟩, rfl⟩)
    · exact ⟨0, Nat.zero_le 16, by simp, .inl rfl⟩
    · exact ⟨i + 1, hi, rfl, .inr hbit⟩
  · rintro ⟨j, hj, rfl, rfl | hbit⟩
    · simp
    · have hlt : j - 1 < 16 := BitVec.lt_of_getLsbD hbit
      rcases Nat.eq_zero_or_pos j with rfl | hpos
      · simp
      · exact .inr ⟨j - 1, ⟨hlt, hbit⟩, by rw [Nat.sub_add_cancel hpos]⟩

theorem mem_packetList_setBit {i : Nat} (hi : i < 16) :
    s ∈ ({ pair with lostPackets := pair.lostPackets ||| 1#16 <<< i } : NackPair).packetList ↔
      s ∈ pair.packetList ∨ s = pair.packetId + BitVec.ofNat 16 (i + 1) := by
  have hbit : ∀ j, (pair.lostPackets ||| 1#16 <<< i).getLsbD j = true ↔
      pair.lostPackets.getLsbD j = true ∨ j = i := by
    intro j
    have hone : (1#16 <<< i).getLsbD j = decide (j = i) := by
      rw [BitVec.getLsbD_shiftLeft, BitVec.getLsbD_one, Bool.eq_iff_iff]
      simp only [Bool.and_eq_true, decide_eq_true_eq, Bool.not_eq_true', decide_eq_false_iff_not]
      omega
    rw [BitVec.getLsbD_or, hone, Bool.or_eq_true, decide_eq_true_eq]
  simp only [mem_packetList, hbit]
  constructor
  · rintro ⟨j, hj, hs, rfl | hold | heq⟩
    · exact .inl ⟨0, hj, hs, .inl rfl⟩
    · exact .inl ⟨j, hj, hs, .inr hold⟩
    · rcases Nat.eq_zero_or_pos j with rfl | hpos
      · exact .inl ⟨0, hj, hs, .inl rfl⟩
      · exact .inr (by rw [hs, ← heq, Nat.sub_add_cancel hpos])
  · rintro (⟨j, hj, hs, hor⟩ | hs)
    · exact ⟨j, hj, hs, hor.imp_right .inl⟩
    · exact ⟨i + 1, hi, hs, .inr (.inr rfl)⟩

/-! ## The numbers of a list -/

theorem mem_packed_packSeq {state : NackPair × List NackPair} :
    s ∈ packed (packSeq state seq) ↔ s ∈ packed state ∨ s = seq := by
  obtain ⟨pair, pairs⟩ := state
  unfold packSeq
  dsimp only
  split
  case isTrue heq =>
    refine ⟨.inl, ?_⟩
    rintro (h | rfl)
    · exact h
    · rw [heq]
      exact List.mem_append_right _ List.mem_cons_self
  case isFalse =>
    split
    case isTrue => simp [packed, packetList_new, or_assoc]
    case isFalse hnear =>
      rw [not_or, BitVec.not_le, not_lt, NackPair.reach] at hnear
      obtain ⟨hgt, hreach⟩ := hnear
      have hgt : pair.packetId.toNat < seq.toNat := hgt
      have hdist : (seq - pair.packetId).toNat = seq.toNat - pair.packetId.toNat :=
        BitVec.toNat_sub_of_le (Nat.le_of_lt hgt)
      have hbit : (seq - pair.packetId - 1#16).toNat = seq.toNat - pair.packetId.toNat - 1 := by
        rw [BitVec.toNat_sub_of_le (by rw [BitVec.le_def, hdist]; exact Nat.sub_pos_of_lt hgt), hdist]
        rfl
      have hseq : pair.packetId + BitVec.ofNat 16 (seq.toNat - pair.packetId.toNat - 1 + 1) = seq := by
        rw [Nat.sub_add_cancel (by omega), ← hdist]
        exact add_ahead pair.packetId seq
      simp only [packed, List.mem_append, hbit]
      rw [mem_packetList_setBit (by omega), hseq, or_assoc]

theorem names_nackPairs (seqs : List (BitVec 16)) : Names (nackPairsFromSequenceNumbers seqs) seqs := by
  have hfold : ∀ (seqs : List (BitVec 16)) (state : NackPair × List NackPair) (s : BitVec 16),
      s ∈ packed (seqs.foldl packSeq state) ↔ s ∈ packed state ∨ s ∈ seqs := by
    intro seqs
    induction seqs with
    | nil => simp
    | cons seq seqs ih =>
      intro state s
      rw [List.foldl_cons, ih, mem_packed_packSeq, List.mem_cons, or_assoc]
  intro s
  cases seqs with
  | nil => simp [nackPairsFromSequenceNumbers]
  | cons seq rest =>
    have hrest := hfold rest (NackPair.new seq, []) s
    simpa [nackPairsFromSequenceNumbers, packed, packetList_new] using hrest

/-! ## How many pairs are needed -/

section

variable (h : SeriallySorted (base :: seqs))
include h

theorem SeriallySorted.half (hs : s ∈ base :: seqs) : 2 * ahead base s < 2 ^ 16 := by
  rcases List.mem_cons.mp hs with rfl | hs
  · simp
  · rcases (List.pairwise_cons.mp h).1 s hs with rfl | hlt
    · simp
    · exact hlt.2

theorem SeriallySorted.unwrapped : ((base :: seqs).map (unwrapped base)).Pairwise (· ≤ ·) := by
  rw [List.pairwise_map]
  refine List.Pairwise.imp_of_mem (fun {a b} ha hb hor => ?_) h
  rcases hor with rfl | hlt
  · exact le_refl _
  · have hha := h.half ha
    have hhb := h.half hb
    rw [lt_iff_of_near base (by omega) (by omega)] at hlt
    exact Nat.add_le_add_left (Nat.le_of_lt hlt) _

theorem length_starts_le_of_names {pairs : List NackPair} (hnames : Names pairs (base :: seqs)) :
    (starts 17 ((base :: seqs).map (unwrapped base))).length ≤ pairs.length := by
  rw [← List.length_map fun p : NackPair => unwrapped base p.packetId]
  apply length_starts_le h.unwrapped
  intro x hx
  obtain ⟨s, hs, rfl⟩ := List.mem_map.mp hx
  obtain ⟨p, hp, hmem⟩ := List.mem_flatMap.mp ((hnames s).mpr hs)
  have hid : p.packetId ∈ base :: seqs :=
    (hnames _).mp (List.mem_flatMap.mpr ⟨p, hp, List.mem_cons_self⟩)
  have hhalf := h.half hid
  obtain ⟨j, hj, rfl, -⟩ := mem_packetList.mp hmem
  refine ⟨_, List.mem_map_of_mem hp, ?_⟩
  simp only [Rtcp.unwrapped, ahead_add_right base p.packetId (show _ + j < 2 ^ 16 by omega)]
  omega

theorem exists_names :
    ∃ pairs, Names pairs (base :: seqs) ∧
      pairs.length = (starts 17 ((base :: seqs).map (unwrapped base))).length := by
  -- a pair at each start, with a bit for every number of the list that it reaches
  have hmask : ∀ s : BitVec 16, ∃ mask : BitVec 16, ∀ i < 16,
      mask.getLsbD i = decide (s + BitVec.ofNat 16 (i + 1) ∈ base :: seqs) := fun s =>
    BitScan.exists_getLsbD 16 fun i => decide (s + BitVec.ofNat 16 (i + 1) ∈ base :: seqs)
  choose mask hmask using hmask
  let numberAt (t : Nat) : BitVec 16 := base + BitVec.ofNat 16 (t - base.toNat)
  have hat : ∀ s, numberAt (unwrapped base s) = s := by
    intro s
    change base + BitVec.ofNat 16 (base.toNat + ahead base s - base.toNat) = s
    rw [Nat.add_sub_cancel_left, add_ahead]
  have hsorted := h.unwrapped
  rw [List.map_cons] at hsorted
  have hstart : ∀ t ∈ startsFrom 17 (unwrapped base base) (seqs.map (unwrapped base)),
      ∃ s ∈ base :: seqs, unwrapped base s = t := by
    intro t ht
    rcases mem_startsFrom ht hsorted with rfl | ⟨hmem, -⟩
    · exact ⟨base, List.mem_cons_self, rfl⟩
    · obtain ⟨s, hs, rfl⟩ := List.mem_map.mp hmem
      exact ⟨s, List.mem_cons_of_mem base hs, rfl⟩
  refine ⟨(starts 17 ((base :: seqs).map (unwrapped base))).map fun t =>
    ⟨numberAt t, mask (numberAt t)⟩, fun s => ?_, List.length_map _⟩
  rw [List.map_cons, starts, List.flatMap_map, List.mem_flatMap]
  constructor
  · rintro ⟨t, ht, hmem⟩
    obtain ⟨u, hu, rfl⟩ := hstart t ht
    obtain ⟨j, hj, rfl, hor⟩ := mem_packetList.mp hmem
    rw [hat] at hor ⊢
    rcases Nat.eq_zero_or_pos j with rfl | hpos
    · simpa using hu
    · have hset := hor.resolve_left hpos.ne'
      rw [hmask u (j - 1) (by omega), decide_eq_true_eq, Nat.sub_add_cancel hpos] at hset
      exact hset
  · intro hs
    have hmem : unwrapped base s ∈ unwrapped base base :: seqs.map (unwrapped base) := by
      rw [← List.map_cons]
      exact List.mem_map_of_mem hs
    obtain ⟨t, ht, hle, hlt⟩ := exists_startsFrom (k := 17) hsorted (by decide) hmem
    obtain ⟨u, hu, rfl⟩ := hstart t ht
    unfold Rtcp.unwrapped at hle hlt
    have hnext : u + BitVec.ofNat 16 (ahead base s - ahead base u) = s := by
      rw [← ahead_eq_sub base (by omega), add_ahead]
    refine ⟨_, ht, mem_packetList.mpr ⟨ahead base s - ahead base u, by omega, ?_, ?_⟩⟩
    · rw [hat, hnext]
    · rcases Nat.eq_zero_or_pos (ahead base s - ahead base u) with hzero | hpos
      · exact .inl hzero
      · right
        rw [hat, hmask u _ (by omega), decide_eq_true_eq, Nat.sub_add_cancel hpos, hnext]
        exact hs

end

/-! ## How many pairs are made -/

theorem length_foldl_packSeq (pair : NackPair) (pairs : List NackPair)
    (hsorted : ((pair.packetId :: seqs).map BitVec.toNat).Pairwise (· ≤ ·)) :
    (seqs.foldl packSeq (pair, pairs)).2.length + 1 =
        pairs.length + (startsFrom 17 pair.packetId.toNat (seqs.map BitVec.toNat)).length ∧
      (seqs.foldl packSeq (pair, pairs)).1.packetId ∈ pair.packetId :: seqs := by
  induction seqs generalizing pair pairs with
  | nil => exact ⟨rfl, List.mem_cons_self⟩
  | cons seq seqs ih =>
    simp only [List.map_cons, List.pairwise_cons, List.mem_cons, forall_eq_or_imp] at hsorted
    obtain ⟨⟨hle, hid⟩, hseq, hrest⟩ := hsorted
    have hlt := seq.isLt
    rw [List.foldl_cons, List.map_cons]
    by_cases hnear : seq.toNat < pair.packetId.toNat + 17
    · obtain ⟨pair', hpack, hsame⟩ : ∃ pair', packSeq (pair, pairs) seq = (pair', pairs) ∧
          pair'.packetId = pair.packetId := by
        unfold packSeq
        dsimp only
        split
        case isTrue => exact ⟨pair, rfl, rfl⟩
        case isFalse hne =>
          have hne' : pair.packetId.toNat ≠ seq.toNat := fun h => hne (BitVec.eq_of_toNat_eq h).symm
          refine ⟨_, if_neg ?_, rfl⟩
          rw [BitVec.le_def, NackPair.reach]
          omega
      rw [hpack, startsFrom, if_pos hnear]
      obtain ⟨hlen, hmem⟩ := ih pair' pairs (by
        rw [hsame, List.map_cons]
        exact List.pairwise_cons.mpr ⟨hid, hrest⟩)
      rw [hsame] at hlen hmem
      refine ⟨hlen, ?_⟩
      rcases List.mem_cons.mp hmem with heq | hmem
      · rw [heq]
        exact List.mem_cons_self
      · exact List.mem_cons_of_mem _ (List.mem_cons_of_mem _ hmem)
    · have hpack : packSeq (pair, pairs) seq = (NackPair.new seq, pairs ++ [pair]) := by
        have hne : seq ≠ pair.packetId := by
          rintro rfl
          omega
        unfold packSeq
        dsimp only
        rw [if_neg hne, NackPair.reach, if_pos (.inr (by omega))]
      obtain ⟨hlen, hmem⟩ := ih (NackPair.new seq) (pairs ++ [pair])
        (List.pairwise_cons.mpr ⟨hseq, hrest⟩)
      rw [hpack, startsFrom, if_neg hnear]
      refine ⟨?_, List.mem_cons_of_mem _ hmem⟩
      simp only [List.length_append, List.length_cons, List.length_nil, NackPair.new] at hlen ⊢
      omega

theorem SeriallySorted.split (h : SeriallySorted (base :: seqs)) :
    ((seqs.takeWhile (base ≤ ·)).map BitVec.toNat).Pairwise (· ≤ ·) ∧
      ((seqs.dropWhile (base ≤ ·)).map BitVec.toNat).Pairwise (· ≤ ·) ∧
      ∀ s ∈ seqs.dropWhile (base ≤ ·), s < base := by
  have hsorted := h.unwrapped
  have hahead : ∀ s : BitVec 16, Rtcp.unwrapped base s = if base ≤ s then s.toNat else s.toNat + 2 ^ 16 := by
    intro s
    have hb := base.isLt
    have hs := s.isLt
    rw [Rtcp.unwrapped, ahead, BitVec.toNat_sub]
    simp only [BitVec.le_def]
    split <;> omega
  rw [List.map_cons, List.pairwise_cons, List.pairwise_map] at hsorted
  have hall := hsorted.2
  have hafter : ∀ s ∈ seqs.dropWhile (base ≤ ·), s < base := by
    intro s hs
    cases hdrop : seqs.dropWhile (base ≤ ·) with
    | nil => simp [hdrop] at hs
    | cons first rest =>
      have hfirst : ¬ base ≤ first := by
        have hhead := List.head?_dropWhile_not (fun s : BitVec 16 => decide (base ≤ s)) seqs
        rw [hdrop] at hhead
        simpa using hhead
      have hmono := hall.sublist (List.dropWhile_sublist fun s => decide (base ≤ s))
      rw [hdrop] at hs hmono
      rcases List.mem_cons.mp hs with rfl | hs
      · exact BitVec.not_le.mp hfirst
      · have hle := (List.pairwise_cons.mp hmono).1 s hs
        have hs16 := s.isLt
        rw [hahead, hahead, if_neg hfirst] at hle
        rw [BitVec.lt_def]
        split at hle
        · omega
        · exact not_le.mp ‹_›
  refine ⟨?_, ?_, hafter⟩
  · rw [List.pairwise_map]
    refine List.Pairwise.imp_of_mem (fun {a b} ha hb hle => ?_) (hall.sublist (List.takeWhile_sublist _))
    have hage := List.mem_takeWhile_imp ha
    have hbge := List.mem_takeWhile_imp hb
    rwa [hahead, hahead, if_pos (by simpa using hage), if_pos (by simpa using hbge)] at hle
  · rw [List.pairwise_map]
    refine List.Pairwise.imp_of_mem (fun {a b} ha hb hle => ?_) (hall.sublist (List.dropWhile_sublist _))
    have halt := hafter a ha
    have hblt := hafter b hb
    rw [hahead, hahead, if_neg (BitVec.not_le.mpr halt), if_neg (BitVec.not_le.mpr hblt)] at hle
    omega

theorem length_nackPairs (h : SeriallySorted (base :: seqs)) :
    (nackPairsFromSequenceNumbers (base :: seqs)).length =
      (starts 17 (((base :: seqs).takeWhile (base ≤ ·)).map BitVec.toNat)).length +
        (starts 17 (((base :: seqs).dropWhile (base ≤ ·)).map BitVec.toNat)).length := by
  obtain ⟨hbefore, hafter, hlt⟩ := h.split
  rw [nackPairsFromSequenceNumbers]
  simp only [List.takeWhile_cons, List.dropWhile_cons, BitVec.le_refl, decide_true, if_true]
  generalize hA : seqs.takeWhile (fun s => decide (base ≤ s)) = A at hbefore
  generalize hB : seqs.dropWhile (fun s => decide (base ≤ s)) = B at hafter hlt
  have hsplit : seqs = A ++ B := by rw [← hA, ← hB, List.takeWhile_append_dropWhile]
  have hge : ∀ s ∈ base :: A, base ≤ s := by
    intro s hs
    rcases List.mem_cons.mp hs with rfl | hs
    · exact BitVec.le_refl _
    · rw [← hA] at hs
      simpa using List.mem_takeWhile_imp hs
  have hsorted : (((NackPair.new base).packetId :: A).map BitVec.toNat).Pairwise (· ≤ ·) := by
    rw [List.map_cons]
    refine List.pairwise_cons.mpr ⟨fun x hx => ?_, hbefore⟩
    obtain ⟨s, hs, rfl⟩ := List.mem_map.mp hx
    exact hge s (List.mem_cons_of_mem base hs)
  obtain ⟨hlen, hmem⟩ := length_foldl_packSeq (NackPair.new base) [] hsorted
  have hid := hge _ hmem
  rw [hsplit, List.foldl_append, List.map_cons, starts]
  simp only [NackPair.new, List.length_nil, Nat.zero_add] at hlen
  rw [NackPair.new] at hid ⊢
  generalize A.foldl packSeq (⟨base, 0#16⟩, []) = state at hlen hid ⊢
  obtain ⟨pair, pairs⟩ := state
  cases B with
  | nil => simpa [starts] using hlen
  | cons b B =>
    have hb : b < pair.packetId := Nat.lt_of_lt_of_le (hlt b List.mem_cons_self) hid
    have hpack : packSeq (pair, pairs) b = (NackPair.new b, pairs ++ [pair]) := by
      unfold packSeq
      dsimp only
      rw [if_neg (BitVec.ne_of_lt hb), if_pos (.inl (BitVec.le_of_lt hb))]
    obtain ⟨hlen', -⟩ := length_foldl_packSeq (NackPair.new b) (pairs ++ [pair]) hafter
    rw [List.foldl_cons, hpack, List.map_cons, starts]
    simp only [List.length_append, List.length_cons, List.length_nil, NackPair.new] at hlen hlen' ⊢
    omega

instance : (seqs : List (BitVec 16)) → Decidable (CrossingSavesNothing seqs)
  | [] => inferInstanceAs (Decidable True)
  | _ :: _ => inferInstanceAs (Decidable (_ = _))

instance (seqs : List (BitVec 16)) : Decidable (SeriallySorted seqs) :=
  inferInstanceAs (Decidable (seqs.Pairwise _))

end Rtc.Rtcp
