import MeshConsole.Instant
import MeshConsole.Json.Peek
import MeshConsole.Gateway.Job
import MeshConsole.Telemetry.Note

/-!
# Running a job

A job is submitted and then polled until the gateway reports its end, the time is up, a poll fails
or the caller gives up. Listeners see `queued` first, then states that never step back, then one
`succeeded` or `failed`.
-/

namespace MeshConsole.Job

open Telemetry (Note)

/-- How long a job may take, and how often its state is asked for. -/
structure Timing where
  timeout : Duration := 30 * Duration.second
  poll : Duration := 600 * Duration.millisecond
  deriving Repr, DecidableEq

/-- A time that is not positive is taken from `standard`. -/
def Timing.orElse (t standard : Timing) : Timing :=
  { timeout := if t.timeout ≤ 0 then standard.timeout else t.timeout
    poll := if t.poll ≤ 0 then standard.poll else t.poll }

/-- What a submission is about. -/
structure Ticket where
  type : Text
  label : Text := []
  requestId : Text := []
  timing : Timing := {}
  deriving Repr, DecidableEq

/-- A job the gateway has accepted: since when it is polled, and the state last published. -/
structure Progress where
  id : Int64
  started : Instant
  last : Text := []
  deriving Repr, DecidableEq

inductive Phase where
  | submitting
  | polling (job : Progress)
  | waiting (job : Progress)
  /-- Ended with the job's result as written, empty without one. -/
  | ended (result : Except Fault Text)
  deriving Repr

structure Run where
  ticket : Ticket
  phase : Phase := .submitting
  deriving Repr

/-- What a run is told. -/
inductive Happening where
  | submitted (answer : Except Fault JobReceipt)
  | polled (answer : Except Fault JobReport)
  | waited
  /-- The wait was cut short. -/
  | interrupted

def queued : Text := "queued"

def succeeded : Text := "succeeded"

def failed : Text := "failed"

/-- How far a state lies along the way of a job. -/
def stateRank (state : Text) : Nat :=
  if state.isEmpty then 0
  else if state = queued then 1
  else if state = succeeded ∨ state = failed then 3
  else 2

def nonEmptyString? : Option Json.Peek.Found → Option Text
  | some (.string text) => if text.isEmpty then none else some text
  | _ => none

/-- Why the gateway says a job failed: the result's `error`, else the report's error, as a text or
as an object with a message. -/
def failureReason (report : JobReport) : Text :=
  let ofResult := nonEmptyString? (report.result >>= Json.Peek.member? "error")
  let ofError := nonEmptyString? ((report.error >>= Json.Peek.string?).map .string)
  let ofMessage := nonEmptyString? (report.error >>= Json.Peek.member? "message")
  ((ofResult.or ofError).or ofMessage).getD "job failed"

namespace Ticket

/-- Publishes a state and remembers it. -/
def publish (t : Ticket) (job : Progress) (state reason : Text) : Progress × Note :=
  ({ job with last := state },
    .publish <| .job {
      id := job.id, type := t.type, label := t.label, state, reason, requestId := t.requestId })

/-- How the log names a job. -/
def named (t : Ticket) (job : Progress) : Text :=
  ("job " : Text) ++ Text.ofInt job.id.toInt ++ " (" ++ t.type ++ ")"

/-- Publishes a state that is news; a step back is only logged. -/
def observe (t : Ticket) (job : Progress) (state : Text) : Progress × List Note :=
  if state.isEmpty || state == job.last then (job, [])
  else if stateRank state < stateRank job.last then
    (job, [.log (("job " : Text) ++ Text.ofInt job.id.toInt ++ ": ignoring state " ++ state ++
      " after " ++ job.last)])
  else
    let (job, note) := t.publish job state []
    (job, [note])

end Ticket

namespace Run

def finish (r : Run) (result : Except Fault Text) (notes : List Note) : Run × List Note :=
  ({ r with phase := .ended result }, notes)

/-- Gives a job up, so that nobody takes it for active. -/
def abandon (r : Run) (job : Progress) (reason : Text) (fault : Fault) :
    Run × List Note :=
  r.finish (.error fault) [
    .log (r.ticket.named job ++ " abandoned: " ++ reason),
    (r.ticket.publish job failed reason).2]

def onSubmitted (r : Run) (now : Instant) (answer : Except Fault JobReceipt) :
    Run × List Note :=
  let context := ("submit " : Text) ++ r.ticket.type ++ " job"
  match answer with
  | .error why => r.finish (.error (.within context why)) []
  | .ok receipt =>
    if receipt.id ≤ 0 then r.finish (.error (.within context .invalidJobId)) []
    else
      let (job, note) := r.ticket.publish { id := receipt.id, started := now } queued []
      ({ r with phase := .polling job }, [
        note,
        .log (r.ticket.named job ++ " queued, request " ++ r.ticket.requestId)])

def onPolled (r : Run) (now : Instant) (cancelled : Bool) (job : Progress)
    (answer : Except Fault JobReport) : Run × List Note :=
  let named := r.ticket.type ++ " job " ++ Text.ofInt job.id.toInt
  match answer with
  | .error why =>
    r.abandon job (if cancelled then "cancelled" else why.message)
      (.within (("poll " : Text) ++ named) why)
  | .ok report =>
    if report.state = succeeded then
      let (_, notes) := r.ticket.observe job succeeded
      r.finish (.ok (report.result.getD []))
        (notes ++ [.log (r.ticket.named job ++ " succeeded")])
    else if report.state = failed ∨ report.done = true then
      let reason := failureReason report
      r.finish (.error (.jobFailed job.id r.ticket.type reason)) [
        (r.ticket.publish job failed reason).2,
        .log (r.ticket.named job ++ " failed: " ++ reason)]
    else
      let (job, notes) := r.ticket.observe job report.state
      if r.ticket.timing.timeout ≤ now.since job.started then
        r.finish (.error (.within named .jobTimeout)) <| notes ++ [
          (r.ticket.publish job failed "timeout").2,
          .log (r.ticket.named job ++ " timed out after " ++ r.ticket.timing.timeout.text)]
      else ({ r with phase := .waiting job }, notes)

/-- Takes what happens at `now`; `cancelled` when the caller has given up by then. What cannot
happen in the run's phase changes nothing. -/
def step (r : Run) (now : Instant) (cancelled : Bool) (h : Happening) : Run × List Note :=
  match h, r.phase with
  | .submitted answer, .submitting => r.onSubmitted now answer
  | .polled answer, .polling job => r.onPolled now cancelled job answer
  | .waited, .waiting job => ({ r with phase := .polling job }, [])
  | .interrupted, .waiting job => r.abandon job "cancelled" .canceled
  | _, _ => (r, [])

end Run

end MeshConsole.Job
