import SpanCourier.Failure

/-!
# the health of a destination

What was last seen of a destination is kept for a window of time.

* `Outcome.ofProbe`  a destination that refuses a probe as invalid is healthy;
* `Health.current?`  what was recorded shows until the window is over.
-/

namespace SpanCourier

/-- what became of a batch, or what a health check found -/
inductive Outcome where
  | ok
  | failed (error : SendError)
  deriving DecidableEq, Inhabited

inductive Reply where
  | accepted
  | refused (status : Status)
  deriving DecidableEq, Inhabited

/-- what the reply to a probe tells of the destination.  A probe is invalid by design, so its
refusal for that reason shows that the destination works. -/
def Outcome.ofProbe : Reply → Outcome
  | .accepted => .ok
  | .refused status =>
    if status.code = .invalidArgument then .ok else .failed (.rpc status)

structure Observation where
  outcome : Outcome
  time : Nat
  deriving DecidableEq, Inhabited

/-- the last observation, and for how many milliseconds it counts -/
structure Health where
  windowMillis : Nat
  latest : Option Observation := none
  deriving DecidableEq, Inhabited

namespace Health

/-- the last outcome, while its window lasts -/
def current? (h : Health) (now : Nat) : Option Outcome :=
  (h.latest.filter fun o => now - o.time < h.windowMillis).map (·.outcome)

def record (h : Health) (now : Nat) (outcome : Outcome) : Health :=
  { h with latest := some ⟨outcome, now⟩ }

end Health

end SpanCourier
