import MeshConsole.Session.Task
import MeshConsole.Simulator.Handler
import MeshConsole.Simulator.Operation

/-!
# Consoles on a simulated gateway

A console carries out a task on a simulated gateway. On a visit neither of them is alone: others
turn to the gateway, the session goes on, exchanges fail, and the console may give the task up, at
any time. A rig has the gateway for itself, and answers take no time.
-/

namespace MeshConsole.Simulator

open Telemetry (Note)

/-- A console that carries out a task on a simulated gateway which is not there
for it alone. -/
structure Visit (α : Type) where
  simulator : Simulator
  session : Session.State
  task : Session.Task α

namespace Visit

/-- What becomes of a request. -/
inductive Fate where
  | answered
  /-- The gateway serves the request, but its answer does not arrive. -/
  | unanswered (why : Fault)
  | unsent (why : Fault)

inductive Event where
  /-- Something else happens to the gateway. -/
  | aside (now : Instant) (step : Step)
  /-- Something else happens to the session. -/
  | meanwhile (session : Session.State)
  | exchange (served answered : Instant) (cancelled : Bool) (fate : Fate)
  | pause (ended : Instant) (cancelled interrupted : Bool)

variable {α : Type}

/-- Answers what the task waits for. -/
def tell (v : Visit α) (now : Instant) (cancelled : Bool) (a : Session.Answer) : Visit α :=
  let stop := v.task.answer now cancelled v.session a
  { v with session := stop.state, task := stop.task }

/-- Sends the request of a call. -/
def exchange (v : Visit α) (call : Rest.Call) (served answered : Instant) (cancelled : Bool)
    (fate : Fate) : Visit α :=
  match v.session.client.request call with
  | .error why => v.tell answered cancelled (.exchanged (.error why))
  | .ok request =>
    let next := v.simulator.ask served request
    match fate with
    | .unsent why => v.tell answered cancelled (.exchanged (.error why))
    | .unanswered why =>
      { v with simulator := next.simulator }.tell answered cancelled (.exchanged (.error why))
    | .answered =>
      { v with simulator := next.simulator }.tell answered cancelled
        (.exchanged (.ok (request.url.path, next.response)))

/-- What does not fit what the task waits for does not happen. -/
def step (v : Visit α) : Event → Visit α
  | .aside now step => { v with simulator := (v.simulator.turn now step).after }
  | .meanwhile session => { v with session }
  | .exchange served answered cancelled fate =>
    match v.task.need with
    | .exchange call => v.exchange call served answered cancelled fate
    | _ => v
  | .pause ended cancelled interrupted =>
    match v.task.need with
    | .pause _ => v.tell ended cancelled (if interrupted then .interrupted else .waited)
    | _ => v

def after (v : Visit α) (events : List Event) : Visit α := events.foldl step v

/-- What the task has returned, if it has succeeded. -/
def success? (v : Visit (Except Fault α)) : Option α :=
  match v.task with
  | .finished (.ok value) => some value
  | _ => none

/-- A console that starts on an activity. -/
def start (simulator : Simulator) (session : Session.State) (now : Instant) (cancelled : Bool)
    (activity : Session.Activity α) : Visit α :=
  let stop := activity.run now cancelled session
  { simulator, session := stop.state, task := stop.task }

end Visit

/-- A console that has a simulated gateway for itself. Time passes only while
its task waits. -/
structure Rig where
  now : Instant
  simulator : Simulator
  session : Session.State
  task : Session.Task (Except Fault Text)
  notes : List Note := []
  /-- When jobs have been polled. -/
  polls : List Instant := []

namespace Rig

/-- Answers what the task waits for. -/
def tell (r : Rig) (a : Session.Answer) : Rig :=
  let stop := r.task.answer r.now false r.session a
  { r with session := stop.state, task := stop.task, notes := r.notes ++ stop.notes }

def isPoll : Rest.Call → Bool
  | .job _ => true
  | _ => false

/-- Sends the request of a call. -/
def send (r : Rig) (call : Rest.Call) (request : Rest.Request) : Rig :=
  { r with
    simulator := (r.simulator.ask r.now request).simulator
    polls := if isPoll call then r.polls ++ [r.now] else r.polls }

def exchange (r : Rig) (call : Rest.Call) : Rig :=
  match r.session.client.request call with
  | .error why => r.tell (.exchanged (.error why))
  | .ok request =>
    let response := (r.simulator.ask r.now request).response
    (r.send call request).tell (.exchanged (.ok (request.url.path, response)))

/-- Goes on to the next question; a task that has finished has none. -/
def step (r : Rig) : Rig :=
  match r.task.need with
  | .nothing => r
  | .exchange call => r.exchange call
  | .pause length => { r with now := r.now.plus length }.tell .waited

/-- Submits a job. -/
def submit (simulator : Simulator) (session : Session.State) (now : Instant)
    (order : Session.Order) : Rig :=
  let stop := (Session.Activity.submit order).run now false session
  { now, simulator, session := stop.state, task := stop.task, notes := stop.notes }

end Rig

end MeshConsole.Simulator
