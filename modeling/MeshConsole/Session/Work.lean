import MeshConsole.Session.Task

/-!
# Activities step by step

Activities that are under way at one time take their steps in any order. A step takes a note,
changes the state, looks at it, puts a question to the gateway, or gives a job back that has ended;
an answer makes a step too.
-/

namespace MeshConsole.Session

open Telemetry (Note)

/-- What others see of a step. -/
inductive Deed where
  | noted (note : Note)
  /-- The state is changed, and has these devices from then on. -/
  | stored (devices : List Device)
  | asked (call : Rest.Call)

def notesOf (deeds : List Deed) : List Note :=
  deeds.filterMap fun
    | .noted note => some note
    | _ => none

@[simp] theorem notesOf_append (deeds more : List Deed) :
    notesOf (deeds ++ more) = notesOf deeds ++ notesOf more := List.filterMap_append

@[simp] theorem notesOf_noted (notes : List Note) : notesOf (notes.map .noted) = notes := by
  induction notes with
  | nil => rfl
  | cons entry rest ih => exact congrArg (entry :: ·) ih

/-- What an activity has come to. -/
inductive Work (α : Type) where
  | acting (rest : Activity α)
  | waiting (task : Task α)

structure Beat (α : Type) where
  state : State
  deeds : List Deed := []
  work : Work α

def Need.deeds : Need → List Deed
  | .exchange call => [.asked call]
  | _ => []

@[simp] theorem notesOf_need (need : Need) : notesOf need.deeds = [] := by cases need <;> rfl

def Order.ticket (order : Order) (s : State) : Job.Ticket where
  type := order.type
  label := order.label
  requestId := requestId (s.submissions + 1)
  timing := order.timing.orElse s.jobTiming

/-- The wait is the one that the answer ends. -/
def Need.fits : Need → Answer → Bool
  | .exchange _, .exchanged _ => true
  | .pause _, .waited => true
  | .pause _, .interrupted => true
  | _, _ => false

/-- Of answers that fit, only one that tells of giving up needs that. -/
def Need.takes (cancelled : Bool) (need : Need) : Answer → Bool
  | .interrupted => need.fits .interrupted && cancelled
  | a => need.fits a

namespace Work

variable {α : Type}

def outcome? : Work α → Option α
  | .waiting (.finished value) => some value
  | _ => none

/-- The next step of an activity that waits for nothing. -/
def act? (now : Instant) (cancelled : Bool) (s : State) : Work α → Option (Beat α)
  | .acting (.done value) => some { state := s, work := .waiting (.finished value) }
  | .acting (.note entry next) =>
    some { state := s, deeds := [.noted entry], work := .acting next }
  | .acting (.store change next) =>
    some { state := change s, deeds := [.stored (change s).devices], work := .acting next }
  | .acting (.look next) =>
    some { state := s, work := .acting (next { state := s, now, cancelled }) }
  | .acting (.call question next) =>
    some { state := s, deeds := [.asked question], work := .waiting (.calling question next) }
  | .acting (.job order next) =>
    match Job.Call.enter s.desk (order.ticket s) with
    | (_, .returned result) => some { state := s, work := .acting (next result) }
    | (desk, .registered run) =>
      let task : Task α := .job order run next
      some {
        state := { s with desk, submissions := s.submissions + 1 }
        deeds := task.need.deeds
        work := .waiting task }
  | .waiting (.job _ run next) =>
    match (Job.Call.registered run).leave s.desk with
    | (desk, .returned result) =>
      some { state := { s with desk }, work := .acting (next result) }
    | (_, .registered _) => none
  | .waiting _ => none

/-- The step that an answer makes. -/
def answer? (now : Instant) (cancelled : Bool) (s : State) (work : Work α) (a : Answer) :
    Option (Beat α) :=
  match work, a with
  | .waiting (.calling call next), .exchanged outcome =>
    some { state := s, work := .acting (next (outcomeOf call outcome)) }
  | .waiting (.job order run next), a =>
    if (Task.job order run next).need.fits a then
      let (run, notes) := run.step now cancelled (Task.happening run a)
      let task : Task α := .job order run next
      some { state := s, deeds := notes.map .noted ++ task.need.deeds, work := .waiting task }
    else none
  | _, _ => none

end Work

end MeshConsole.Session
