import MeshConsole.Job.Run
import MeshConsole.Table

/-!
# The job desk

Of each type at most one job is outstanding. A call registers its type or is refused at once. A
registered call holds its type while its job runs, and gives it back when it returns what the run
has ended with.
-/

namespace MeshConsole.Job

open Telemetry (Note)

section
variable {κ : Type} [DecidableEq κ]

/-- The types that are held. -/
structure Desk (κ : Type) where
  held : List κ := []
  deriving Repr, DecidableEq

namespace Desk

def isActive (d : Desk κ) (type : κ) : Bool := d.held.contains type

/-- Takes a type, unless it is held. -/
def register? (d : Desk κ) (type : κ) : Option (Desk κ) :=
  if d.isActive type then none else some { held := type :: d.held }

/-- Gives a type back. -/
def release (d : Desk κ) (type : κ) : Desk κ := { held := d.held.filter (· ≠ type) }

@[simp] theorem isActive_release (d : Desk κ) (type other : κ) :
    (d.release type).isActive other = (decide (other ≠ type) && d.isActive other) := by
  simp [release, isActive, List.contains_eq_mem, Bool.and_comm]

end Desk

end

/-- What a call waits for. -/
inductive Need where
  | nothing
  /-- The gateway's answer to the submission. -/
  | receipt
  /-- The gateway's answer to a poll of this job. -/
  | report (id : Int64)
  | pause (length : Duration)
  deriving Repr, DecidableEq

def Run.need (r : Run) : Need :=
  match r.phase with
  | .submitting => .receipt
  | .polling job => .report job.id
  | .waiting _ => .pause r.ticket.timing.poll
  | .ended _ => .nothing

/-- What happens to a call, when, and whether the caller has given up by then. -/
structure Moment where
  now : Instant
  cancelled : Bool
  happening : Happening

inductive Call where
  /-- Holds its type, also when the run has ended and the call has yet to return. -/
  | registered (run : Run)
  | returned (result : Except Fault Text)
  deriving Repr

namespace Call

/-- A call is refused while its type is held. -/
def enter (desk : Desk Text) (ticket : Ticket) : Desk Text × Call :=
  match desk.register? ticket.type with
  | none => (desk, .returned (.error (.within ticket.type .jobInProgress)))
  | some desk => (desk, .registered { ticket })

/-- Tells a call what happens; a call that has returned hears nothing. -/
def hear (call : Call) (m : Moment) : Call × List Note :=
  match call with
  | .registered run =>
    let (run, notes) := run.step m.now m.cancelled m.happening
    (.registered run, notes)
  | .returned result => (.returned result, [])

/-- A call whose run has ended returns and gives its type back. -/
def leave (desk : Desk Text) (call : Call) : Desk Text × Call :=
  match call with
  | .registered run =>
    match run.phase with
    | .ended result => (desk.release run.ticket.type, .returned result)
    | _ => (desk, .registered run)
  | .returned result => (desk, .returned result)

def need : Call → Need
  | .registered run => run.need
  | .returned _ => .nothing

end Call

end MeshConsole.Job
