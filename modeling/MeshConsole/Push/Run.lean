import MeshConsole.Push.Link

/-!
# Keeping the link open

A run dials, reads until the connection fails, waits and dials again, until it is cancelled. Each
open schedules one pull of the gateway's state and calls off the one before it, through a slot that
holds the latest one; losing the connection does not. A run has returned when its loop has ended and
no pull is left.
-/

namespace MeshConsole.Push

inductive Phase where
  | dialing
  | reading
  | waiting (delay : Duration)
  | finished
  deriving Repr, DecidableEq

/-- How far a pull of the gateway's state has come: it waits for its instant, or asks the gateway. -/
inductive Stage where
  | due (instant : Instant)
  | running
  deriving Repr, DecidableEq

/-- A pull that has not returned. -/
structure Pull where
  /-- The pulls of a run are numbered from zero, in the order of their opens. -/
  number : Nat
  stage : Stage
  calledOff : Bool := false
  deriving Repr, DecidableEq

namespace Pull

/-- The instant that a pull waits for. -/
def due? (p : Pull) : Option Instant :=
  match p.stage with
  | .due instant => some instant
  | .running => none

/-- A pull that is called off while it waits returns at once; a running one goes on to its
return. -/
def callOff (p : Pull) : Option Pull :=
  match p.stage with
  | .due _ => none
  | .running => some { p with calledOff := true }

end Pull

structure Run where
  link : Link
  handler : Handler
  phase : Phase := .dialing
  /-- Pulls scheduled so far. -/
  scheduled : Nat := 0
  pulls : List Pull := []
  /-- The pull that the next open calls off, also when it has returned by then. -/
  slot : Option Nat := none
  deriving Repr, DecidableEq

/-- What a run is told. -/
inductive Happening where
  | dialed
  | dialFailed (why : Fault)
  | frame (bytes : Text)
  | readFailed (why : Fault)
  | waited
  | cancelled
  /-- The instant that a pull waits for has come. -/
  | pullDue (number : Nat)
  | pullReturned (number : Nat)
  deriving Repr, DecidableEq

namespace Run

/-- A run whose context is already cancelled ends at once. -/
def start (link : Link) (handler : Handler) (cancelled : Bool) : Run :=
  if cancelled then { link := { link with state := .closed }, handler, phase := .finished }
  else { link := { link with state := .connecting }, handler }

/-- The loop has ended and every pull has returned. -/
def hasReturned (r : Run) : Bool := r.phase == .finished && r.pulls.isEmpty

/-- Calls off the pulls of some numbers. Only those that were not called off before are told. -/
def callOff (r : Run) (picks : Nat → Bool) : Run × List Signal :=
  let told := r.pulls.filter fun p => picks p.number && !p.calledOff
  let pulls := r.pulls.filterMap fun p => if picks p.number then p.callOff else some p
  ({ r with pulls }, told.map fun p => .unschedule p.number)

/-- Schedules a pull in place of the one that the slot holds. -/
def schedule (r : Run) (due : Instant) : Run × List Signal :=
  let (kept, called) := r.callOff fun number => r.slot == some number
  ({ kept with
      scheduled := r.scheduled + 1
      pulls := kept.pulls ++ [{ number := r.scheduled, stage := .due due }]
      slot := some r.scheduled },
    called ++ [.schedule r.scheduled due])

def onDialed (r : Run) (now : Instant) : Run × List Signal :=
  let (link, signals) := r.link.opened
  let r := { r with link, phase := .reading }
  if r.handler = .reconciling then
    let (r, scheduling) := r.schedule (now.plus r.link.timing.reconcile)
    (r, signals ++ scheduling)
  else (r, signals)

def onFailed (r : Run) (why : Fault) : Run × List Signal :=
  let (link, delay, signals) := r.link.failed why
  ({ r with link, phase := .waiting delay }, signals)

/-- Cancelling ends the loop and calls every pull off. The loss of a connection is published unless
it was lost before. -/
def onCancelled (r : Run) : Run × List Signal :=
  let closed : Link := { r.link with state := .closed }
  let lost : List Signal := [.publish (.connection r.link.url false 0)]
  let (ended, called) :=
    { r with link := closed, phase := .finished, slot := none }.callOff fun _ => true
  match r.phase with
  | .finished => (r, [])
  | .waiting _ => (ended, called)
  | .dialing => (ended, lost ++ called)
  | .reading => (ended, .closeSocket :: lost ++ called)

def onPullDue (r : Run) (number : Nat) : Run × List Signal :=
  if r.pulls.any fun p => p.number == number && p.due?.isSome then
    let started := fun p : Pull => if p.number = number then { p with stage := .running } else p
    ({ r with pulls := r.pulls.map started }, [.reconcile number])
  else (r, [])

/-- Only a pull that runs can return. -/
def onPullReturned (r : Run) (number : Nat) : Run :=
  { r with pulls := r.pulls.filter fun p => p.number != number || p.due?.isSome }

/-- Takes what happens at `now`. What cannot happen in the run's phase changes nothing. -/
def step (r : Run) (now : Instant) (h : Happening) : Run × List Signal :=
  match h, r.phase with
  | .dialed, .dialing => r.onDialed now
  | .dialFailed why, .dialing => r.onFailed why
  | .frame bytes, .reading =>
    let (link, signals) := r.link.receive r.handler bytes
    ({ r with link }, signals)
  | .readFailed why, .reading =>
    let (r, signals) := r.onFailed why
    (r, .closeSocket :: signals)
  | .waited, .waiting _ =>
    ({ r with link := { r.link with state := .connecting }, phase := .dialing }, [])
  | .cancelled, _ => r.onCancelled
  | .pullDue number, _ => r.onPullDue number
  | .pullReturned number, _ => (r.onPullReturned number, [])
  | _, _ => (r, [])

end Run

end MeshConsole.Push
