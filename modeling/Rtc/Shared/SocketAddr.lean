import Mathlib.Tactic

/-!
# Addresses and instants

`std::net::SocketAddr`, `Instant` and `Duration`. The flow label and the scope of an IPv6 address are left
out: no address that the modelled code builds has them.
-/

namespace Rtc.Shared

/-- `std::net::IpAddr`, with the octets in one number. -/
inductive IpAddr
  | v4 (octets : BitVec 32)
  | v6 (octets : BitVec 128)
deriving DecidableEq, Repr

/-- `std::net::SocketAddr`. -/
structure SocketAddr where
  ip : IpAddr
  port : BitVec 16
deriving DecidableEq, Repr

end Rtc.Shared
