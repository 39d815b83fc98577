namespace TcpReactor

/-! # Deadlines

A deadline is a point on a monotonic clock that counts milliseconds. It expires once and stays
expired.
-/

structure Deadline where
  time : Nat
  deriving DecidableEq, Repr

namespace Deadline

/-- The deadline `delay` milliseconds from `now`. -/
def after (now delay : Nat) : Deadline := ⟨now + delay⟩

def expired (d : Deadline) (now : Nat) : Bool := d.time ≤ now

/-- How long there is to go; nothing once the deadline has expired. -/
def remaining (d : Deadline) (now : Nat) : Nat := d.time - now

theorem expired_iff_remaining {d : Deadline} {now : Nat} :
    d.expired now = true ↔ d.remaining now = 0 := by
  simp only [expired, remaining, decide_eq_true_eq]
  omega

end Deadline
end TcpReactor
