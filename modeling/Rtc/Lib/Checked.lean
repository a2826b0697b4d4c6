import Mathlib.Tactic

/-!
# Checked arithmetic

Unsigned arithmetic that stops where the machine's would wrap.
-/

namespace Rtc.Checked

/-- `a + b` in `w` bits. -/
def add (w a b : Nat) : Option Nat := if a + b < 2 ^ w then some (a + b) else none

/-- `a - b`. -/
def sub (a b : Nat) : Option Nat := if b ≤ a then some (a - b) else none

theorem add_of_lt {w a b : Nat} (h : a + b < 2 ^ w) : add w a b = some (a + b) := if_pos h

theorem sub_of_le {a b : Nat} (h : b ≤ a) : sub a b = some (a - b) := if_pos h

end Rtc.Checked
