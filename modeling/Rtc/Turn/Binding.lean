import Rtc.Lib.Table
import Rtc.Shared.SocketAddr

/-!
# Channel bindings of a TURN client

`rtc-turn/src/client/binding.rs`. The maps are keyed by the text of an address, which determines the address;
here they are keyed by the address itself.
-/

namespace Rtc.Turn
open Shared

/-- An `Instant`, in nanoseconds. -/
abbrev Instant := Nat

abbrev minChannelNumber : BitVec 16 := 0x4000#16

abbrev maxChannelNumber : BitVec 16 := 0x7fff#16

inductive BindingState
  | idle
  | request
  | ready
  | refresh
  | failed
deriving DecidableEq, Repr

structure Binding where
  number : BitVec 16
  st : BindingState
  addr : SocketAddr
  refreshedAt : Instant
deriving DecidableEq, Repr

/-- `Binding::set_state` (`binding.rs:32-34`). -/
def Binding.setState (b : Binding) (state : BindingState) : Binding := { b with st := state }

/-- `Binding::set_refreshed_at` (`binding.rs:40-42`). -/
def Binding.setRefreshedAt (b : Binding) (at' : Instant) : Binding := { b with refreshedAt := at' }

structure BindingManager where
  chanMap : Table (BitVec 16) SocketAddr
  addrMap : Table SocketAddr Binding
  next : BitVec 16

namespace BindingManager

/-- `BindingManager::new` (`binding.rs:57-63`). -/
def new : BindingManager := ⟨∅, ∅, minChannelNumber⟩

/-- `assign_channel_number` (`binding.rs:65-73`). -/
def assignChannelNumber (m : BindingManager) : BitVec 16 × BindingManager :=
  (m.next, { m with next := if m.next = maxChannelNumber then minChannelNumber else m.next + 1 })

/-- `create` (`binding.rs:75-86`). -/
def create (m : BindingManager) (now : Instant) (addr : SocketAddr) : Option Binding × BindingManager :=
  let (number, m) := m.assignChannelNumber
  let b : Binding := ⟨number, .idle, addr, now⟩
  let m := { m with chanMap := m.chanMap.insert b.number b.addr, addrMap := m.addrMap.insert b.addr b }
  (m.addrMap.lookup addr, m)

/-- `find_by_addr` (`binding.rs:88-90`). -/
def findByAddr (m : BindingManager) (addr : SocketAddr) : Option Binding := m.addrMap.lookup addr

/-- A change of the binding that `get_by_addr` returns (`binding.rs:92-94`). -/
def modifyByAddr (m : BindingManager) (addr : SocketAddr) (f : Binding → Binding) : BindingManager :=
  { m with addrMap := m.addrMap.adjust addr f }

/-- `find_by_number` (`binding.rs:96-99`). -/
def findByNumber (m : BindingManager) (number : BitVec 16) : Option Binding := do
  let s ← m.chanMap.lookup number
  m.addrMap.lookup s

/-- `delete_by_addr` (`binding.rs:106-113`). -/
def deleteByAddr (m : BindingManager) (addr : SocketAddr) : Bool × BindingManager :=
  match m.addrMap.lookup addr with
  | some b => (true, { m with addrMap := m.addrMap.erase addr, chanMap := m.chanMap.erase b.number })
  | none => (false, m)

/-- `delete_by_number` (`binding.rs:115-122`). -/
def deleteByNumber (m : BindingManager) (number : BitVec 16) : Bool × BindingManager :=
  match m.chanMap.lookup number with
  | some s => (true, { m with chanMap := m.chanMap.erase number, addrMap := m.addrMap.erase s })
  | none => (false, m)

/-- What `Relay::send` does first (`relay.rs:224-235`): the binding of the peer, created if there is none. -/
def findOrCreate (m : BindingManager) (now : Instant) (addr : SocketAddr) : Option Binding × BindingManager :=
  match m.findByAddr addr with
  | some b => (some b, m)
  | none => m.create now addr

end BindingManager
end Rtc.Turn
