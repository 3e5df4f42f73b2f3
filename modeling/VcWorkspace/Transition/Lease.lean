import Mathlib.Tactic.Common

/-! # Leases across two clocks

The owner of a resource writes the end of a lease by its own clock and tells the
holder only for how long the lease is good. A holder that counts this duration
from the start of its own request ends before the lease does, however long the
request took.
-/

namespace VcWorkspace.Transition

structure Lease where
  grantedAt : ℕ
  limit : ℕ
  window : ℕ
  deriving DecidableEq, Repr

namespace Lease

variable (l : Lease)

def expiry : ℕ := min l.limit (l.grantedAt + l.window)

/-- What the holder is told: the time that is left, in whole units. -/
def validFor (unit : ℕ) : ℕ := (l.expiry - l.grantedAt) / unit * unit

variable {l} {l' : Lease} {started offset unit : ℕ}

/-- A holder whose request was under way when the lease was given ends in time. The owner's clock
is ahead of the holder's by a constant. -/
theorem deadline_le (hstart : started + offset ≤ l.grantedAt) (hlive : l.grantedAt ≤ l.expiry) :
    started + l.validFor unit + offset ≤ l.expiry := by
  have hfloor : l.validFor unit ≤ l.expiry - l.grantedAt := Nat.div_mul_le_self _ _
  omega

/-- A later lease under the same limit and window does not end before an earlier one. -/
theorem expiry_mono (hat : l.grantedAt ≤ l'.grantedAt) (hlimit : l'.limit = l.limit)
    (hwindow : l'.window = l.window) : l.expiry ≤ l'.expiry := by
  unfold expiry
  omega

end Lease

end VcWorkspace.Transition
