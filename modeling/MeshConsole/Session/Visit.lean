import MeshConsole.Session.Action
import MeshConsole.Session.Task
import MeshConsole.Simulator.Handler

/-!
# A device change on a gateway

A session has a device deleted or renamed, and pulls the status after that. Both exchanges may go
wrong on the way.
-/

namespace MeshConsole

/-- A change of the device list. -/
inductive DeviceChange where
  | delete (addr : UInt16)
  | rename (addr : UInt16) (name : Text)

namespace DeviceChange

def addr : DeviceChange → UInt16
  | .delete addr => addr
  | .rename addr _ => addr

def call : DeviceChange → Rest.Call
  | .delete addr => .delete addr
  | .rename addr name => .rename addr name

def activity : DeviceChange → Session.Activity (Except Fault Text)
  | .delete addr => Session.deleteDevice addr
  | .rename addr name => Session.renameDevice addr name

end DeviceChange

namespace Session

open Telemetry (Note)

/-- How an exchange with the gateway ends. -/
inductive Fate where
  | answered
  /-- Nothing gets to the gateway. -/
  | unsent (why : Fault)
  /-- The gateway serves the request, but the answer is lost. -/
  | lost (why : Fault)

/-- When an exchange ends, whether the caller has given up by then, and how it
ends. -/
structure Trip where
  now : Instant
  cancelled : Bool
  fate : Fate

/-- A session that carries out a task on a simulated gateway. -/
structure Visit where
  simulator : Simulator
  session : State
  task : Task (Except Fault Text)
  notes : List Note := []
  /-- The requests that have been made. -/
  asked : List Rest.Call := []
  /-- What the gateway has done beside answering. -/
  effects : List Simulator.Effect := []

namespace Visit

def tell (v : Visit) (trip : Trip) (outcome : Exchange) : Visit :=
  let stop := v.task.answer trip.now trip.cancelled v.session (.exchanged outcome)
  { v with session := stop.state, task := stop.task, notes := v.notes ++ stop.notes }

/-- The gateway serves a request. -/
def serve (v : Visit) (trip : Trip) (request : Rest.Request) : Visit :=
  let served := v.simulator.ask trip.now request
  { v with simulator := served.simulator, effects := v.effects ++ served.effects }

def send (v : Visit) (trip : Trip) (request : Rest.Request) : Visit :=
  match trip.fate with
  | .answered =>
    (v.serve trip request).tell trip
      (.ok (request.url.path, (v.simulator.ask trip.now request).response))
  | .unsent why => v.tell trip (.error (request.failed why))
  | .lost why => (v.serve trip request).tell trip (.error (request.failed why))

/-- Goes on to the next question. -/
def step (v : Visit) (trip : Trip) : Visit :=
  match v.task.need with
  | .exchange call =>
    match v.session.client.request call with
    | .error why => v.tell trip (.error why)
    | .ok request => { v with asked := v.asked ++ [call] }.send trip request
  | _ => v

/-- Asks for a change. -/
def begin (simulator : Simulator) (session : State) (change : DeviceChange) (first : Trip) :
    Visit :=
  let stop := change.activity.run first.now first.cancelled session
  { simulator, session := stop.state, task := stop.task, notes := stop.notes }

end Visit

/-- There is one exchange for the change, and at most one for the status. -/
def visit (simulator : Simulator) (session : State) (change : DeviceChange)
    (first second : Trip) : Visit :=
  ((Visit.begin simulator session change first).step first).step second

end Session

end MeshConsole
