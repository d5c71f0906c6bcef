import MeshConsole.Bench.Clock

/-!
# Staging a console

A stage carries out steps one after the other and lets everything happen that is due at the instant
of the last one.
-/

namespace MeshConsole.Bench

open Session (Activity)
open World (Manner)

inductive Step where
  | perform (activity : Activity Outcome)
  | advance (time : Duration)
  | inject (frame : Text)
  | link
  /-- Starts the session, or a link without one. -/
  | start
  | close
  | devices
  | linkQuality
  | isActive (type : Text)
  | publish (event : Telemetry.Event)
  | snapshot
  | print
  | startTelemetry
  | stopTelemetry
  | watch (watch : Status.Watch) (stopAfter : Option Duration)
  | serve (request : Except Simulator.LineFault Simulator.Incoming)
  | connect (client : Int)
  | dropClients
  | simulatorState
  | simulate (step : SimStep)
  /-- A demo network of a size below zero, or of one beyond memory, cannot be made. -/
  | seed (count : Int)

inductive StepResult where
  | ok
  | started
  | outcome (outcome : Outcome)
  | crashed (crash : Crash)
  | sequence (number : UInt64)
  | link (link : Push.Link)
  | devices (devices : List Device)
  | view (view : Radio.View)
  | flag (value : Bool)
  | name (name : Text)
  | snapshot (snapshot : Telemetry.Snapshot)
  | lines (lines : List Text)
  | response (response : Rest.Response)
  | simulator (simulator : Simulator) (clients : Nat) (isJoinOpen : Bool)

structure Stage where
  world : World
  printer : Status.Printer := {}
  hasSession : Bool
  started : Bool := false
  /-- Push clients that were ever connected. -/
  connects : Nat := 0

namespace Stage

def finished : Option Outcome → StepResult
  | none => .started
  | some outcome => .outcome outcome

def done (s : Stage) (world : World) : Stage × StepResult := ({ s with world }, .ok)

def stopTelemetry (s : Stage) : Stage × StepResult :=
  match s.world.collector >>= (·.stop?) with
  | some collector => s.done { s.world with collector := some collector }
  | none => (s, .crashed .stoppedTwice)

def start (s : Stage) (cancelled : Bool) : Stage × StepResult :=
  let world := if s.hasSession then s.world.startSession else s.world.startLink cancelled
  { s with started := true }.done world

def serve (s : Stage) (request : Simulator.Incoming) : Stage × StepResult :=
  let served := s.world.simulator.serve s.world.now request
  let world := s.world.applyEffects (served.simulator, served.effects)
  ({ s with world }, .response served.response)

def carryOut (s : Stage) (manner : Manner) (step : Step) : Stage × StepResult :=
  let w := s.world
  match step with
  | .perform activity =>
    let (world, outcome) := w.perform manner activity
    ({ s with world }, finished outcome)
  | .watch watch stopAfter =>
    let (world, outcome) := w.watch manner watch stopAfter
    ({ s with world }, finished outcome)
  | .advance time => s.done (w.advance time)
  | .inject frame =>
    let world := w.inject frame
    ({ s with world }, .sequence world.session.run.link.lastSeq)
  | .link => (s, .link w.session.run.link)
  | .start => s.start manner.cancelled
  | .close => { s with started := false }.done (if s.started then w.close else w)
  | .devices => (s, .devices w.session.devices)
  | .linkQuality => (s, .view (w.session.view w.now))
  | .isActive type => (s, .flag (w.session.desk.isActive type))
  | .publish event => ({ s with world := w.announce event }, .name event.name)
  | .snapshot =>
    match w.collector with
    | some collector => (s, .snapshot (collector.snapshot w.now))
    | none => (s, .ok)
  | .print =>
    let (lines, printer) := w.display s.printer
    ({ s with printer }, .lines (lines.flatMap Status.logLines))
  | .startTelemetry => s.done { w with collector := w.collector.map (·.start w.now) }
  | .stopTelemetry => s.stopTelemetry
  | .serve (.ok request) => s.serve request
  | .serve (.error why) => (s, .crashed (.request why))
  | .connect client =>
    { s with connects := s.connects + 1 }.done { w with clients := w.clients ++ [client] }
  | .dropClients => s.done w.dropClients
  | .simulatorState =>
    (s, .simulator w.simulator w.clientCount (w.simulator.isJoinOpen w.now))
  | .simulate step => s.done (w.simulate step)
  | .seed count =>
    match w.seed? count with
    | .error why => (s, .crashed (.memory why))
    | .ok world => s.done world

/-- Carries a step out and answers its result with what was observed during it, oldest first. -/
def play (s : Stage) (manner : Manner) (step : Step) :
    Stage × StepResult × List (Instant × Entry) :=
  let (s, result) := s.carryOut manner step
  let world := s.world.settle
  ({ s with world := { world with trace := [] } }, result, world.trace.reverse)

/-- Whether the order of what is observed at one instant is open: when everything ends at once, and
with several push clients. -/
def isUnordered (s : Stage) : Step → Bool
  | .close => true
  | .dropClients => true
  | _ => 1 < s.connects

end Stage

end MeshConsole.Bench
