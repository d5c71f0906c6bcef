import MeshConsole.Job.Run
import MeshConsole.Session.State

/-!
# Activities

What a session does is written as an activity: a finite tree of steps. An activity takes notes,
changes the session's state, looks at it, and puts questions to the gateway, to which any answer may
come. Whoever runs an activity decides how time passes between its questions.
-/

namespace MeshConsole.Session

open Telemetry (Note Event)

/-- What an activity sees when it looks. -/
structure Scene where
  state : State
  now : Instant
  /-- The caller has given up. -/
  cancelled : Bool

/-- A job to be submitted; a time that is not positive takes the session's own. -/
structure Order where
  type : Text
  label : Text := []
  payload : List (Text × Json.Value) := []
  timing : Job.Timing := { timeout := 0, poll := 0 }

inductive Activity (α : Type) where
  | done (value : α)
  | note (note : Note) (next : Activity α)
  | store (change : State → State) (next : Activity α)
  | look (next : Scene → Activity α)
  | call (call : Rest.Call) (next : Except Fault call.Reply → Activity α)
  /-- Submits a job and goes on when it has ended. -/
  | job (order : Order) (next : Except Fault Text → Activity α)

namespace Activity

def bind (a : Activity α) (f : α → Activity β) : Activity β :=
  match a with
  | .done value => f value
  | .note entry next => .note entry (next.bind f)
  | .store change next => .store change (next.bind f)
  | .look next => .look fun scene => (next scene).bind f
  | .call question next => .call question fun answer => (next answer).bind f
  | .job order next => .job order fun result => (next result).bind f

instance : Monad Activity where
  pure := done
  bind := bind

def log (line : Text) : Activity Unit := .note (.log line) (.done ())

def publish (event : Event) : Activity Unit := .note (.publish event) (.done ())

def modify (change : State → State) : Activity Unit := .store change (.done ())

def scene : Activity Scene := .look .done

/-- Puts a call to the gateway. -/
def ask (call : Rest.Call) : Activity (Except Fault call.Reply) := .call call .done

/-- Runs a job to its end. -/
def submit (order : Order) : Activity (Except Fault Text) := .job order .done

end Activity

end MeshConsole.Session
