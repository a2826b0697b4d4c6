import Rtc.Lib.Index
import Rtc.Lib.Runs
import Rtc.Turn.Binding

/-!
# Channel numbers and peers

The two maps of the manager are inverse to each other as long as every binding is created for a peer that has none,
under a free number. The manager checks neither: numbers are given out in a circle.
-/

namespace Rtc.Turn
open Shared

def ValidNumber (n : BitVec 16) : Prop := minChannelNumber ≤ n ∧ n ≤ maxChannelNumber

inductive BindingCall
  | create (now : Instant) (addr : SocketAddr)
  | deleteByAddr (addr : SocketAddr)
  | deleteByNumber (number : BitVec 16)
  | setState (addr : SocketAddr) (state : BindingState)
  | setRefreshedAt (addr : SocketAddr) (at' : Instant)

/-- A manager, and the bindings it has created so far, the last one first. -/
structure BindingHistory where
  manager : BindingManager
  bound : List (BitVec 16 × SocketAddr)

namespace BindingHistory

def new : BindingHistory := ⟨.new, []⟩

def step (h : BindingHistory) : BindingCall → BindingHistory
  | .create now addr =>
    let (b, m) := h.manager.create now addr
    ⟨m, (b.map fun b => (b.number, b.addr)).toList ++ h.bound⟩
  | .deleteByAddr addr => { h with manager := (h.manager.deleteByAddr addr).2 }
  | .deleteByNumber number => { h with manager := (h.manager.deleteByNumber number).2 }
  | .setState addr state => { h with manager := h.manager.modifyByAddr addr (·.setState state) }
  | .setRefreshedAt addr at' => { h with manager := h.manager.modifyByAddr addr (·.setRefreshedAt at') }

def lastPeer (h : BindingHistory) (n : BitVec 16) : Option SocketAddr := (h.bound.find? (·.1 = n)).map (·.2)

end BindingHistory

namespace BindingManager

theorem create_eq (m : BindingManager) (now : Instant) (addr : SocketAddr) :
    m.create now addr = (some ⟨m.next, .idle, addr, now⟩,
      ⟨m.chanMap.insert m.next addr, m.addrMap.insert addr ⟨m.next, .idle, addr, now⟩,
        if m.next = maxChannelNumber then minChannelNumber else m.next + 1⟩) := by
  simp only [create, assignChannelNumber, AList.lookup_insert]

structure Bijective (m : BindingManager) : Prop where
  number_eq : ∀ n b, m.findByNumber n = some b → b.number = n
  addr_eq : ∀ a b, m.findByAddr a = some b → b.addr = a
  findByNumber_number : ∀ a b, m.findByAddr a = some b → m.findByNumber b.number = some b
  number_inj : ∀ a a' b b', m.findByAddr a = some b → m.findByAddr a' = some b' → b.number = b'.number → a = a'
  valid : ∀ a b, m.findByAddr a = some b → ValidNumber b.number

/-- What the manager keeps when calls fit. -/
structure Wellformed (m : BindingManager) : Prop where
  inverse : Table.Inverse (fun b : Binding => some b.number) m.chanMap m.addrMap
  addr_eq : ∀ a b, m.addrMap.lookup a = some b → b.addr = a
  valid : ∀ a b, m.addrMap.lookup a = some b → ValidNumber b.number
  next : ValidNumber m.next

/-- A call creates no binding for a peer that has one, nor under a number that is bound. A binding that is
    created anew under the number it had is both. -/
def Fits (m : BindingManager) : BindingCall → Prop
  | .create _ addr => (m.findByAddr addr = none ∧ m.findByNumber m.next = none) ∨
      ∃ b, m.findByAddr addr = some b ∧ b.number = m.next
  | _ => True

variable {m : BindingManager} {addr : SocketAddr}

theorem findByNumber_eq_some {n : BitVec 16} {b : Binding} :
    m.findByNumber n = some b ↔ ∃ a, m.chanMap.lookup n = some a ∧ m.addrMap.lookup a = some b :=
  Option.bind_eq_some_iff

theorem Wellformed.bijective (h : Wellformed m) : Bijective m where
  number_eq n b hb := by
    obtain ⟨a, ha, hab⟩ := findByNumber_eq_some.mp hb
    obtain ⟨b', hb', hn⟩ := (h.inverse n a).mp ha
    rw [hab] at hb'
    rw [Option.some.inj hb']
    exact Option.some.inj hn
  addr_eq := h.addr_eq
  findByNumber_number a b hb := findByNumber_eq_some.mpr ⟨a, h.inverse.lookup_of_key hb rfl, hb⟩
  number_inj a a' b b' hb hb' hn := h.inverse.place_eq hb hb' rfl (congrArg some hn.symm)
  valid := h.valid

theorem wellformed_new : Wellformed new where
  inverse := Table.inverse_empty _
  addr_eq := nofun
  valid := nofun
  next := ⟨by decide, by decide⟩

theorem validNumber_next {n : BitVec 16} (h : ValidNumber n) :
    ValidNumber (if n = maxChannelNumber then minChannelNumber else n + 1) := by
  simp only [ValidNumber, minChannelNumber, maxChannelNumber] at h ⊢
  split
  case isTrue => exact ⟨by decide, by decide⟩
  case isFalse => bv_omega

variable (h : Wellformed m)
include h

theorem Wellformed.create (now : Instant)
    (hfits : m.Fits (.create now addr)) : Wellformed (m.create now addr).2 := by
  have hkey : (fun b : Binding => some b.number) ⟨m.next, .idle, addr, now⟩ = some m.next := rfl
  rw [create_eq]
  refine ⟨(h.inverse.insert_iff hkey).mpr ?_, ?_, ?_, validNumber_next h.next⟩
  · rcases hfits with ⟨haddr, hnumber⟩ | ⟨b, hb, hn⟩
    · constructor
      · intro a ha
        obtain ⟨b, hb, -⟩ := (h.inverse _ a).mp ha
        rw [findByNumber_eq_some.mpr ⟨a, ha, hb⟩] at hnumber
        cases hnumber
      · intro n hn
        obtain ⟨b, hb, -⟩ := (h.inverse n addr).mp hn
        rw [findByAddr, hb] at haddr
        cases haddr
    · constructor
      · intro a ha
        rw [h.inverse.lookup_of_key hb (congrArg some hn)] at ha
        exact (Option.some.inj ha).symm
      · intro n hn'
        obtain ⟨b', hb', hn'⟩ := (h.inverse n addr).mp hn'
        rw [← hn, Option.some.inj (hb.symm.trans hb')]
        exact (Option.some.inj hn').symm
  · intro a b hb
    by_cases ha : a = addr
    · subst ha
      rw [AList.lookup_insert] at hb
      rw [← Option.some.inj hb]
    · rw [AList.lookup_insert_ne ha] at hb
      exact h.addr_eq a b hb
  · intro a b hb
    by_cases ha : a = addr
    · subst ha
      rw [AList.lookup_insert] at hb
      rw [← Option.some.inj hb]
      exact h.next
    · rw [AList.lookup_insert_ne ha] at hb
      exact h.valid a b hb

theorem Wellformed.erase {a : SocketAddr} {b : Binding} (hb : m.addrMap.lookup a = some b) :
    Wellformed { m with chanMap := m.chanMap.erase b.number, addrMap := m.addrMap.erase a } := by
  exact ⟨h.inverse.erase hb rfl, fun a' b' hb' => h.addr_eq a' b' (Table.lookup_of_erase hb'),
    fun a' b' hb' => h.valid a' b' (Table.lookup_of_erase hb'), h.next⟩

theorem Wellformed.deleteByAddr (addr : SocketAddr) : Wellformed (m.deleteByAddr addr).2 := by
  rw [BindingManager.deleteByAddr]
  split
  case h_1 b hb => exact h.erase hb
  case h_2 => exact h

theorem Wellformed.deleteByNumber (n : BitVec 16) : Wellformed (m.deleteByNumber n).2 := by
  rw [BindingManager.deleteByNumber]
  split
  case h_1 a ha =>
    obtain ⟨b, hb, hn⟩ := (h.inverse n a).mp ha
    obtain rfl := Option.some.inj hn
    exact h.erase hb
  case h_2 => exact h

theorem Wellformed.modifyByAddr (addr : SocketAddr) {f : Binding → Binding}
    (hnumber : ∀ b, (f b).number = b.number) (haddr : ∀ b, (f b).addr = b.addr) :
    Wellformed (m.modifyByAddr addr f) := by
  have hlookup : ∀ a b, (m.addrMap.adjust addr f).lookup a = some b →
      ∃ b₀, m.addrMap.lookup a = some b₀ ∧ b.number = b₀.number ∧ b.addr = b₀.addr := by
    intro a b hb
    rw [Table.lookup_adjust] at hb
    split at hb
    case isTrue =>
      obtain ⟨b₀, hb₀, rfl⟩ := Option.map_eq_some_iff.mp hb
      exact ⟨b₀, hb₀, hnumber b₀, haddr b₀⟩
    case isFalse => exact ⟨b, hb, rfl, rfl⟩
  refine ⟨h.inverse.adjust (fun b => congrArg some (hnumber b)) addr, ?_, ?_, h.next⟩
  · intro a b hb
    obtain ⟨b₀, hb₀, -, haddr⟩ := hlookup a b hb
    rw [haddr]
    exact h.addr_eq a b₀ hb₀
  · intro a b hb
    obtain ⟨b₀, hb₀, hnumber, -⟩ := hlookup a b hb
    rw [hnumber]
    exact h.valid a b₀ hb₀

theorem not_bijective_create (now : Instant)
    (hfits : ¬ m.Fits (.create now addr)) : ¬ Bijective (m.create now addr).2 := by
  rw [create_eq]
  intro hbij
  cases haddr : m.findByAddr addr with
  | none =>
    -- the number belongs to another peer, who keeps it
    cases hnumber : m.findByNumber m.next with
    | none => exact hfits (.inl ⟨haddr, hnumber⟩)
    | some b =>
      obtain ⟨a, ha, hb⟩ := findByNumber_eq_some.mp hnumber
      have hne : a ≠ addr := by
        rintro rfl
        rw [findByAddr, hb] at haddr
        cases haddr
      have hn : b.number = m.next := h.bijective.number_eq _ _ hnumber
      exact hne (hbij.number_inj a addr b _ ((AList.lookup_insert_ne hne).trans hb) (AList.lookup_insert _) hn)
  | some b =>
    -- the peer's old number still leads to them
    have hne : b.number ≠ m.next := fun hn => hfits (.inr ⟨b, haddr, hn⟩)
    have hold := h.inverse.lookup_of_key haddr rfl
    have hfind := hbij.number_eq b.number ⟨m.next, .idle, addr, now⟩ (findByNumber_eq_some.mpr
      ⟨addr, (AList.lookup_insert_ne hne).trans hold, AList.lookup_insert _⟩)
    exact hne hfind.symm

end BindingManager

namespace BindingHistory

theorem wellformed_step (h : BindingHistory) (call : BindingCall) (hw : h.manager.Wellformed)
    (hfits : h.manager.Fits call) : (h.step call).manager.Wellformed := by
  cases call with
  | create now addr => exact hw.create now hfits
  | deleteByAddr addr => exact hw.deleteByAddr addr
  | deleteByNumber n => exact hw.deleteByNumber n
  | setState addr state => exact hw.modifyByAddr addr (fun _ => rfl) fun _ => rfl
  | setRefreshedAt addr at' => exact hw.modifyByAddr addr (fun _ => rfl) fun _ => rfl

/-- What is attributed to a number was bound to it last. -/
structure Attributed (h : BindingHistory) : Prop where
  lastPeer : ∀ n a, h.manager.chanMap.lookup n = some a → h.lastPeer n = some a
  addr_eq : ∀ a b, h.manager.addrMap.lookup a = some b → b.addr = a

theorem Attributed.step {h : BindingHistory} (ha : Attributed h) (call : BindingCall) : Attributed (h.step call) := by
  have hmodify : ∀ {addr : SocketAddr} {f : Binding → Binding}, (∀ b, (f b).addr = b.addr) →
      ∀ a b, (h.manager.addrMap.adjust addr f).lookup a = some b → b.addr = a := by
    intro addr f hf a b hb
    rw [Table.lookup_adjust] at hb
    split at hb
    case isTrue =>
      obtain ⟨b₀, hb₀, rfl⟩ := Option.map_eq_some_iff.mp hb
      rw [hf, ha.addr_eq a b₀ hb₀]
    case isFalse => exact ha.addr_eq a b hb
  cases call with
  | create now addr =>
    rw [BindingHistory.step, BindingManager.create_eq]
    constructor
    · intro n a hn
      by_cases hnext : n = h.manager.next
      · subst hnext
        rw [AList.lookup_insert] at hn
        simpa [BindingHistory.lastPeer] using hn
      · rw [AList.lookup_insert_ne hnext] at hn
        have hold := ha.lastPeer n a hn
        rw [BindingHistory.lastPeer] at hold ⊢
        simpa [List.find?_cons, Ne.symm hnext] using hold
    · intro a b hb
      by_cases haddr : a = addr
      · subst haddr
        rw [AList.lookup_insert] at hb
        rw [← Option.some.inj hb]
      · rw [AList.lookup_insert_ne haddr] at hb
        exact ha.addr_eq a b hb
  | deleteByAddr addr =>
    rw [BindingHistory.step, BindingManager.deleteByAddr]
    split
    · exact ⟨fun n a hn => ha.lastPeer n a (Table.lookup_of_erase hn),
        fun a b hb => ha.addr_eq a b (Table.lookup_of_erase hb)⟩
    · exact ha
  | deleteByNumber n =>
    rw [BindingHistory.step, BindingManager.deleteByNumber]
    split
    · exact ⟨fun n a hn => ha.lastPeer n a (Table.lookup_of_erase hn),
        fun a b hb => ha.addr_eq a b (Table.lookup_of_erase hb)⟩
    · exact ha
  | setState addr state => exact ⟨ha.lastPeer, hmodify fun _ => rfl⟩
  | setRefreshedAt addr at' => exact ⟨ha.lastPeer, hmodify fun _ => rfl⟩

/-- Whatever is called, what is received under a number is attributed to the peer that the number was bound to
    last; the maps are inverse to each other at every moment exactly if every binding was created for a peer
    without one, under a free number. -/
theorem channel_bindings_iff (calls : List BindingCall) :
    (∀ n b, (Runs.run step new calls).manager.findByNumber n = some b →
      (Runs.run step new calls).lastPeer n = some b.addr) ∧
    ((∀ pre, pre <+: calls → (Runs.run step new pre).manager.Bijective) ↔
      Runs.Meets step (fun h call => h.manager.Fits call) new calls) := by
  constructor
  · intro n b hb
    have hattributed : Attributed (Runs.run step new calls) :=
      Runs.inv_run_of_step step (fun h call ha => ha.step call) ⟨nofun, nofun⟩ calls
    obtain ⟨a, ha, hab⟩ := BindingManager.findByNumber_eq_some.mp hb
    rw [hattributed.addr_eq a b hab]
    exact hattributed.lastPeer n a ha
  · refine Runs.forall_good_iff_meets (I := fun h => h.manager.Wellformed) step (fun h hw => hw.bijective)
      wellformed_step (fun h call hw hfits => ?_) BindingManager.wellformed_new calls
    cases call with
    | create now addr => exact BindingManager.not_bijective_create hw now hfits
    | deleteByAddr addr => exact absurd trivial hfits
    | deleteByNumber n => exact absurd trivial hfits
    | setState addr state => exact absurd trivial hfits
    | setRefreshedAt addr at' => exact absurd trivial hfits

end BindingHistory

/-- The `i`-th of many peers. -/
def peer (i : Nat) : SocketAddr := ⟨.v4 (BitVec.ofNat 32 i), 9#16⟩

/-- The manager after `Relay::send` was called for the first `k` peers. -/
def afterSends (k : Nat) : BindingManager :=
  (List.range k).foldl (fun m i => (m.findOrCreate 0 (peer i)).2) .new

theorem peer_ne {i k : Nat} (hi : i < 2 ^ 32) (hk : k < 2 ^ 32) (h : i ≠ k) : peer i ≠ peer k := by
  intro heq
  have hip := congrArg SocketAddr.ip heq
  simp only [peer, IpAddr.v4.injEq] at hip
  have := congrArg BitVec.toNat hip
  rw [BitVec.toNat_ofNat, BitVec.toNat_ofNat, Nat.mod_eq_of_lt hi, Nat.mod_eq_of_lt hk] at this
  exact h this

theorem afterSends_succ (k : Nat) : afterSends (k + 1) = ((afterSends k).findOrCreate 0 (peer k)).2 := by
  rw [afterSends, List.range_succ, List.foldl_append]
  rfl

theorem afterSends_spec {k : Nat} (hk : k ≤ 16384) :
    (afterSends k).next = minChannelNumber + BitVec.ofNat 16 (k % 16384) ∧
    (∀ i, k ≤ i → i < 2 ^ 32 → (afterSends k).findByAddr (peer i) = none) ∧
    (0 < k → (afterSends k).findByAddr (peer 0) = some ⟨minChannelNumber, .idle, peer 0, 0⟩) := by
  induction k with
  | zero => exact ⟨rfl, fun _ _ _ => rfl, nofun⟩
  | succ k ih =>
    obtain ⟨hnext, hnone, hfirst⟩ := ih (by omega)
    have hcreate : afterSends (k + 1) = ((afterSends k).create 0 (peer k)).2 := by
      rw [afterSends_succ, BindingManager.findOrCreate, hnone k (Nat.le_refl k) (by omega)]
    rw [hcreate, BindingManager.create_eq]
    refine ⟨?_, fun i hi hlt => ?_, fun _ => ?_⟩
    · rw [hnext, Nat.mod_eq_of_lt (show k < 16384 by omega)]
      have htoNat : (minChannelNumber + BitVec.ofNat 16 k).toNat = 0x4000 + k := by
        simp only [minChannelNumber, BitVec.toNat_add, BitVec.toNat_ofNat]
        omega
      by_cases hlast : k = 16383
      · subst hlast
        decide
      · rw [if_neg, Nat.mod_eq_of_lt (show k + 1 < 16384 by omega)]
        · rw [BitVec.ofNat_add, ← BitVec.add_assoc]
          rfl
        · intro heq
          rw [heq] at htoNat
          simp at htoNat
          omega
    · exact (AList.lookup_insert_ne (peer_ne hlt (by omega) (by omega))).trans (hnone i (by omega) hlt)
    · by_cases hzero : k = 0
      · subst hzero
        exact AList.lookup_insert _
      · exact (AList.lookup_insert_ne (peer_ne (by omega) (by omega) (Ne.symm hzero))).trans
          (hfirst (Nat.pos_of_ne_zero hzero))

/-- After data was sent to 16385 peers the first and the last have the same channel number. -/
theorem channel_number_shared : ∃ b b' : Binding,
    (afterSends 16385).findByAddr (peer 0) = some b ∧ (afterSends 16385).findByAddr (peer 16384) = some b' ∧
      b.number = b'.number ∧ (afterSends 16385).findByNumber b.number = some b' ∧ b'.addr ≠ b.addr := by
  obtain ⟨hnext, hnone, hfirst⟩ := afterSends_spec (Nat.le_refl 16384)
  have hcreate : afterSends 16385 = ((afterSends 16384).create 0 (peer 16384)).2 := by
    rw [afterSends_succ, BindingManager.findOrCreate, hnone 16384 (Nat.le_refl _) (by decide)]
  have hnext : (afterSends 16384).next = minChannelNumber := hnext
  have hne : peer 0 ≠ peer 16384 := peer_ne (by decide) (by decide) (by decide)
  rw [hcreate, BindingManager.create_eq, hnext]
  refine ⟨⟨minChannelNumber, .idle, peer 0, 0⟩, ⟨minChannelNumber, .idle, peer 16384, 0⟩,
    (AList.lookup_insert_ne hne).trans (hfirst (by decide)), AList.lookup_insert _, rfl, ?_, hne.symm⟩
  exact BindingManager.findByNumber_eq_some.mpr ⟨peer 16384, AList.lookup_insert _, AList.lookup_insert _⟩

end Rtc.Turn
