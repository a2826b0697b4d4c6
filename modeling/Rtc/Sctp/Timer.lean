import Rtc.Sctp.Chunk

/-!
# Timers and the retransmission timeout

`TimerTable` and `RtoManager` of `rtc-sctp/src/association/timer.rs`. The arrays indexed by `Timer` are
functions. `rttvar` is an `f64` in the source and a rational number here.
-/

namespace Rtc.Sctp

/-- `ACK_INTERVAL`, in milliseconds (`timer.rs:3`). -/
def ackInterval : Nat := 200

/-- `Timer` (`timer.rs:45-52`). -/
inductive Timer where
  | t1Init
  | t1Cookie
  | t2Shutdown
  | t3Rtx
  | reconfig
  | ack
  deriving DecidableEq, Repr

/-- `Timer::VALUES` (`timer.rs:55-62`). -/
def Timer.values : List Timer := [.t1Init, .t1Cookie, .t2Shutdown, .t3Rtx, .reconfig, .ack]

/-- `RTO_INITIAL`, `RTO_MIN` and `RTO_MAX`, in milliseconds (`timer.rs:164-166`). -/
def rtoInitial : Nat := 1000

@[inherit_doc rtoInitial]
def rtoMin : Nat := 1000

@[inherit_doc rtoInitial]
def rtoMax : Nat := 60000

/-- `calculate_next_timeout` (`timer.rs:249-260`). -/
def calculateNextTimeout (rto nRtos : Nat) : Nat :=
  if nRtos < 31 then min (rto * 2 ^ nRtos) rtoMax else rtoMax

/-- `TimerTable` (`timer.rs:67-73`). -/
structure TimerTable where
  data : Timer → Option Instant := fun _ => none
  retrans : Timer → Nat := fun _ => 0
  maxRetrans : Timer → Nat
  shutdownInterval : Option Nat := none
  reconfigInterval : Option Nat := none

namespace TimerTable

/-- `set` (`timer.rs:90-92`). -/
def set (t : TimerTable) (timer : Timer) (time : Option Instant) : TimerTable :=
  { t with data := Function.update t.data timer time }

/-- `reset_retrans` (`timer.rs:147-149`). -/
def resetRetrans (t : TimerTable) (timer : Timer) : TimerTable :=
  { t with retrans := Function.update t.retrans timer 0 }

/-- `start` (`timer.rs:110-127`). T2 and RECONFIG keep an interval of their own, seeded by the first
    start. -/
def start (t : TimerTable) (timer : Timer) (now : Instant) (interval : Nat) : TimerTable :=
  match timer with
  | .t2Shutdown =>
    let current := t.shutdownInterval.getD interval
    { t with shutdownInterval := some current }.set timer (some (now + fromMillis current))
  | .reconfig =>
    let current := t.reconfigInterval.getD interval
    { t with reconfigInterval := some current }.set timer (some (now + fromMillis current))
  | .ack | .t3Rtx => t.set timer (some (now + fromMillis interval))
  | .t1Init | .t1Cookie =>
    t.set timer (some (now + fromMillis (calculateNextTimeout interval (t.retrans timer))))

/-- `start_if_idle` (`timer.rs:133-137`). -/
def startIfIdle (t : TimerTable) (timer : Timer) (now : Instant) (interval : Nat) : TimerTable :=
  if (t.data timer).isNone then t.start timer now interval else t

/-- `stop` (`timer.rs:139-145`). -/
def stop (t : TimerTable) (timer : Timer) : TimerTable :=
  let t := (t.set timer none).resetRetrans timer
  match timer with
  | .t2Shutdown => { t with shutdownInterval := none }
  | .reconfig => { t with reconfigInterval := none }
  | _ => t

/-- `is_expired` (`timer.rs:151-165`): whether the timer is due, whether it has failed for good, and its
    number of expiries. -/
def isExpired (t : TimerTable) (timer : Timer) (after : Instant) : (Bool × Bool × Nat) × TimerTable :=
  let expired := (t.data timer).any fun x => decide (x ≤ after)
  if expired then
    let t := match timer with
      | .t2Shutdown =>
        { t with shutdownInterval := t.shutdownInterval.map fun i => calculateNextTimeout i 1 }
      | .reconfig =>
        { t with reconfigInterval := t.reconfigInterval.map fun i => calculateNextTimeout i 1 }
      | _ => t
    let n := t.retrans timer + 1
    ((true, decide (t.maxRetrans timer < n), n),
      { t with retrans := Function.update t.retrans timer n })
  else ((false, false, t.retrans timer), t)

end TimerTable

/-- `RtoManager` (`timer.rs:180-185`). -/
structure RtoManager where
  srtt : Nat := 0
  rttvar : ℚ := 0
  rto : Nat := rtoInitial
  noUpdate : Bool := false

namespace RtoManager

/-- `set_new_rtt` (`timer.rs:197-217`). -/
def setNewRtt (m : RtoManager) (rtt : Nat) : RtoManager :=
  if m.noUpdate then m
  else
    let (srtt, rttvar) :=
      if m.srtt = 0 then (rtt, (rtt : ℚ) / 2)
      else ((7 * m.srtt + rtt) / 8, (6 * m.rttvar + 2 * |(m.srtt : ℚ) - rtt|) / 8)
    { m with
      srtt := srtt
      rttvar := rttvar
      rto := max rtoMin (min rtoMax (srtt + ⌊4 * rttvar⌋.toNat)) }

/-- `get_rto` (`timer.rs:220-222`). -/
def getRto (m : RtoManager) : Nat := m.rto

/-- `backoff` (`timer.rs:225-229`). -/
def backoff (m : RtoManager) : RtoManager :=
  if m.noUpdate then m else { m with rto := min (m.rto * 2) rtoMax }

end RtoManager
end Rtc.Sctp
