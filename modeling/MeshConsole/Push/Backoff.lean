import MeshConsole.Duration

/-!
# Reconnect backoff

The wait before the next dial doubles with every attempt up to a cap. Doubling wraps around in 64
bits like any arithmetic on durations.
-/

namespace MeshConsole.Push

/-- How long the link waits: before a dial, and after an open before state is pulled. -/
structure Timing where
  base : Duration := Duration.second
  cap : Duration := 10 * Duration.second
  reconcile : Duration := 1200 * Duration.millisecond
  deriving Repr, DecidableEq

/-- A wait that is not positive takes its default. -/
def Timing.effective (t : Timing) : Timing :=
  let standard : Timing := {}
  { base := if t.base ≤ 0 then standard.base else t.base
    cap := if t.cap ≤ 0 then standard.cap else t.cap
    reconcile := if t.reconcile ≤ 0 then standard.reconcile else t.reconcile }

/-- Doubles `delay` until the cap is reached or no doubling is left. -/
def doubled (cap : Duration) : Nat → Duration → Duration
  | 0, delay => if cap < delay then cap else delay
  | n + 1, delay =>
    let next := delay * 2
    if cap ≤ next then cap else doubled cap n next

/-- After 64 doublings nothing of the first delay is left in 64 bits. -/
def maxDoublings : Nat := 64

/-- The wait of an attempt; attempts below zero count as the first. -/
def backoff (base cap : Duration) (attempt : Int) : Duration :=
  doubled cap (min attempt.toNat maxDoublings) base

/-- The wait after `attempt` failures in a row. -/
def Timing.delay (t : Timing) (attempt : Nat) : Duration := backoff t.base t.cap attempt

end MeshConsole.Push
