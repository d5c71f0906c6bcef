import MeshConsole.Job.Call
import MeshConsole.Session.Activity

/-!
# Tasks

A task is an activity that has come to a question, or has ended. Answering the question runs the
activity on to the next one.
-/

namespace MeshConsole.Session

open Telemetry (Note)

inductive Task (α : Type) where
  | finished (value : α)
  | calling (call : Rest.Call) (next : Except Fault call.Reply → Activity α)
  | job (order : Order) (run : Job.Run) (next : Except Fault Text → Activity α)

/-- What a task waits for. -/
inductive Need where
  | nothing
  | exchange (call : Rest.Call)
  | pause (length : Duration)

/-- An answer of the gateway with the path it was asked at, or why there is none. -/
abbrev Exchange := Except Fault (Text × Rest.Response)

inductive Answer where
  | exchanged (outcome : Exchange)
  | waited
  /-- The wait was cut short. -/
  | interrupted

/-- What a call makes of an exchange. -/
def outcomeOf (call : Rest.Call) : Exchange → Except Fault call.Reply
  | .error why => .error why
  | .ok (path, response) => call.reply path response

/-- The state, the notes in order, and where the activity stands. -/
structure Stop (α : Type) where
  state : State
  notes : List Note := []
  task : Task α

/-- Runs an activity to its next question. A job is refused while one of its type is held. -/
def Activity.run (now : Instant) (cancelled : Bool) (state : State) : Activity α → Stop α
  | .done value => { state, task := .finished value }
  | .note entry next =>
    let stop := next.run now cancelled state
    { stop with notes := entry :: stop.notes }
  | .store change next => next.run now cancelled (change state)
  | .look next => (next { state, now, cancelled }).run now cancelled state
  | .call question next => { state, task := .calling question next }
  | .job order next =>
    let number := state.submissions + 1
    let ticket : Job.Ticket := {
      type := order.type
      label := order.label
      requestId := requestId number
      timing := order.timing.orElse state.jobTiming }
    match Job.Call.enter state.desk ticket with
    | (_, .returned result) => (next result).run now cancelled state
    | (desk, .registered run) =>
      { state := { state with desk, submissions := number }
        task := .job order run next }

namespace Task

def need : Task α → Need
  | .finished _ => .nothing
  | .calling call _ => .exchange call
  | .job order run _ =>
    match run.need with
    | .receipt =>
      .exchange (.submitJob {
        type := order.type, payload := order.payload, requestId := run.ticket.requestId })
    | .report id => .exchange (.job id)
    | .pause length => .pause length
    | .nothing => .nothing

/-- What a job run makes of an answer. -/
def happening (run : Job.Run) : Answer → Job.Happening
  | .exchanged outcome =>
    match run.phase with
    | .polling progress => .polled (outcomeOf (.job progress.id) outcome)
    | _ => .submitted (outcomeOf (.submitJob { type := run.ticket.type }) outcome)
  | .waited => .waited
  | .interrupted => .interrupted

/-- Goes on with an answer. A job that has ended gives its type back before the activity goes on. -/
def answer (now : Instant) (cancelled : Bool) (state : State) (task : Task α) (a : Answer) :
    Stop α :=
  match task with
  | .finished value => { state, task := .finished value }
  | .calling call next =>
    match a with
    | .exchanged outcome => (next (outcomeOf call outcome)).run now cancelled state
    | _ => { state, task := .calling call next }
  | .job order run next =>
    let (call, notes) :=
      (Job.Call.registered run).hear { now, cancelled, happening := happening run a }
    match call.leave state.desk with
    | (desk, .returned result) =>
      let stop := (next result).run now cancelled { state with desk }
      { stop with notes := notes ++ stop.notes }
    | (_, .registered run) => { state, notes, task := .job order run next }

end Task

end MeshConsole.Session
