import MeshConsole.Push.Link
import MeshConsole.Rest.Client
import MeshConsole.Simulator.Handler

/-!
# Operating the simulator

What is done to the simulator, and what comes of it to a console that is on its push channel. A run
of the simulator is a list of turns: whatever is asked and set, in any order.
-/

namespace MeshConsole.Simulator

open Push (Occurrence)

inductive Operation where
  | setDevices (devices : Option (List Device))
  | setNeighbors (source : Text) (rows : List Neighbor)
  | drift (delta : UInt16 → Int64)
  | broadcast (type : Text) (data : Json.Value)
  /-- Answers a request; a poll may complete a job that refreshes the table. -/
  | serve (request : Incoming)
  /-- Takes on other settings. -/
  | adjust (change : Simulator → Simulator)

def perform (s : Simulator) (now : Instant) : Operation → Simulator × List Effect
  | .setDevices devices => s.setDevices now devices
  | .setNeighbors source rows => s.setNeighbors now source rows
  | .drift delta => s.drift now delta
  | .broadcast type data => s.broadcast now type data
  | .serve request =>
    let served := s.serve now request
    (served.simulator, served.effects)
  | .adjust change => ({ change s with seq := s.seq }, [])

def Effect.frame? : Effect → Option Text
  | .push frame => some frame
  | .log _ => none

def frames (effects : List Effect) : List Text := effects.filterMap Effect.frame?

/-- What happens to the push channel. -/
inductive Event where
  | operate (now : Instant) (operation : Operation)
  | connect
  | drop

/-- A simulator and a console on its push channel. -/
structure Channel where
  simulator : Simulator
  connected : Bool := false
  /-- How many numbers the operations have taken. -/
  taken : Nat := 0
  pushed : List Text := []
  /-- What the console's link has gone through. -/
  course : List Occurrence := []

namespace Channel

/-- What the simulator pushes comes to the console if it is connected. -/
def put (c : Channel) (next : Simulator) (effects : List Effect) : Channel :=
  { c with
    simulator := next
    taken := c.taken + if next.seq = c.simulator.seq then 0 else 1
    pushed := c.pushed ++ frames effects
    course := if c.connected then c.course ++ (frames effects).map .frame else c.course }

def step (c : Channel) : Event → Channel
  | .operate now operation =>
    let (next, effects) := c.simulator.perform now operation
    c.put next effects
  | .connect => { c with connected := true, course := c.course ++ [.opened] }
  | .drop => { c with connected := false }

def after (c : Channel) (events : List Event) : Channel := events.foldl step c

/-- A simulator whose push channel nobody has used yet. -/
def idle (s : Simulator) : Channel := { simulator := s }

end Channel

/-- What is set on a simulator from outside. -/
inductive Setting where
  | failJobs (type failure : Text)
  | setNetworks (networks : List Network)
  | setPolls (count : Int)
  | setVersion (version : Int)

def Setting.apply : Setting → Simulator → Simulator
  | .failJobs type failure, s => { s with failures := s.failures.set type failure }
  | .setNetworks networks, s => { s with networks }
  | .setPolls count, s => { s with pollsToComplete := count }
  | .setVersion version, s => { s with version }

inductive Step where
  | request (r : Incoming)
  | configure (setting : Setting)
  | setDevices (devices : Option (List Device))
  | setNeighbors (source : Text) (rows : List Neighbor)
  | drift (delta : UInt16 → Int64)
  | broadcast (type : Text) (data : Json.Value)

def Step.operation : Step → Operation
  | .request r => .serve r
  | .configure setting => .adjust setting.apply
  | .setDevices devices => .setDevices devices
  | .setNeighbors source rows => .setNeighbors source rows
  | .drift delta => .drift delta
  | .broadcast type data => .broadcast type data

def Step.request? : Step → Option Incoming
  | .request r => some r
  | _ => none

/-- A step of a run, with what it has done. -/
structure Turn where
  now : Instant
  before : Simulator
  request? : Option Incoming
  after : Simulator
  effects : List Effect
  /-- The answer, if there is a request. -/
  response : Rest.Response

def turn (s : Simulator) (now : Instant) (step : Step) : Turn where
  now
  before := s
  request? := step.request?
  after := (s.perform now step.operation).1
  effects := (s.perform now step.operation).2
  response :=
    match step with
    | .request r => (s.serve now r).response
    | _ => {}

def turns : Simulator → List (Instant × Step) → List Turn
  | _, [] => []
  | s, (now, step) :: rest => s.turn now step :: turns (s.turn now step).after rest

end MeshConsole.Simulator
