import MeshConsole.Bench.Script
import MeshConsole.Session.Live
import MeshConsole.Simulator.Handler
import MeshConsole.Status.Report
import MeshConsole.Telemetry.Collector

/-!
# The bench

A console, a gateway and a clock in one value. The clock moves only when every activity waits; then
it jumps to the earliest instant at which something is due. What can be observed from outside is
entered in a trace.
-/

namespace MeshConsole.Bench

open Telemetry (Event Note)

/-- Cancelling a scope ends the waits within it. -/
inductive Scope where
  /-- A link, with all that goes on for it. -/
  | run (number : Nat)
  /-- A pull of a link. -/
  | pull (run number : Nat)
  | step (number : Nat)
  deriving Repr, DecidableEq

/-- What an activity ends with. -/
inductive Value where
  | done
  | message (text : Text)
  | raw (text : Text)
  | networks (networks : List Network)
  | status (status : Status)
  | health (health : Health)
  | links (table : LinkTable)
  | receipt (receipt : JobReceipt)
  | report (report : JobReport)
  | lines (lines : List Text)

abbrev Outcome := Except Fault Value

/-- What a console breaks off at without an answer. -/
inductive Crash where
  /-- A list or queue of a size that there is no room for. -/
  | memory (why : Memory.Refusal)
  /-- A request that cannot be put into words. -/
  | request (why : Simulator.LineFault)
  /-- Telemetry that is stopped a second time. -/
  | stoppedTwice
  deriving Repr, DecidableEq

def Crash.message : Crash → Text
  | .memory why => why.message
  | .request why => why.message
  | .stoppedTwice => "close of closed channel"

/-- What can be observed. -/
inductive Entry where
  | event (event : Event)
  | log (line : Text)
  | simulatorLog (line : Text)
  | out (line : Text)
  | request (request : Rest.Request)
  | dial (url : Text)
  | socketClosed
  | delivered (payload : Push.Payload)
  | reconciled (cancelled : Bool)
  | clientFrame (client : Int) (frame : Text)
  | clientClosed (client : Int)
  | finished (step : Nat) (outcome : Outcome)

/-- What is done when a wait ends. -/
inductive Wake where
  | answer (process : Nat) (answer : Session.Answer)
  /-- Sends the request again, to where the gateway has pointed. -/
  | follow (process : Nat) (path : Text) (request : Rest.Request)
  | dialed (reads : List Read)
  | dialFailed (why : Fault)
  | read (event : ReadEvent) (rest : List Read)
  | waited
  /-- A wait that only ends when it is cancelled. -/
  | blocked
  | linkCancelled
  | pullDue (number : Nat)
  | tick
  /-- The caller of a step gives up. -/
  | giveUp (step : Nat)
  | report (process : Nat)
  | endReport (process : Nat) (cancelled : Bool)
  | simulate (step : SimStep)
  | dropClients

/-- A wait: when it is over, and what is done then or when it is cut short. -/
structure Pending where
  due : Option Instant
  scopes : List Scope := []
  wake : Wake
  onCancel : Option Wake := none

/-- Who waits for a process. -/
inductive Ending where
  | step (number : Nat) (async : Bool)
  | pull (number : Nat)
  | refresh

inductive Body where
  | task (task : Session.Task Outcome)
  | watch (watch : Status.Watch) (printer : Status.Printer)

structure Process where
  body : Body
  scopes : List Scope
  ending : Ending

/-- Who answers REST calls. -/
inductive Gateway where
  | scripted (routes : Routes)
  | simulated

/-- Who opens push connections. -/
inductive Dialer where
  | scripted (dials : List Dial)
  /-- The simulated gateway's own push channel. -/
  | simulated

/-- Who takes what is pushed. -/
inductive Taker where
  | session
  | recorder

structure World where
  now : Instant := 0
  session : Session.State
  taker : Taker := .session
  gateway : Gateway := .scripted []
  dialer : Dialer := .scripted []
  simulator : Simulator := {}
  /-- The link hangs on the simulated push channel. -/
  attached : Bool := false
  clients : List Int := []
  collector : Option Telemetry.Collector := none
  /-- Neither events nor log lines of the console are observed. -/
  silent : Bool := false
  silentSimulator : Bool := false
  /-- In the order in which they were entered. -/
  pending : List Pending := []
  processes : Table Nat Process := []
  nextProcess : Nat := 0
  nextScope : Nat := 0
  cancelled : List Scope := []
  /-- The number of the latest link. -/
  runNumber : Nat := 0
  outcomes : Table Nat Outcome := []
  /-- Newest first. -/
  trace : List (Instant × Entry) := []

namespace World

def observe (w : World) (entry : Entry) : World := { w with trace := (w.now, entry) :: w.trace }

/-- Publishes an event whether or not the console is silent. -/
def announce (w : World) (event : Event) : World :=
  { w.observe (.event event) with collector := w.collector.map (·.publish w.now event) }

def publish (w : World) (event : Event) : World := if w.silent then w else w.announce event

def log (w : World) (line : Text) : World := if w.silent then w else w.observe (.log line)

def tell (w : World) (notes : List Note) : World :=
  notes.foldl (fun w note =>
    match note with
    | .log line => w.log line
    | .publish event => w.publish event) w

def isCancelled (w : World) (scopes : List Scope) : Bool := scopes.any w.cancelled.contains

/-- A number for a scope that is not in use. -/
def newScope (w : World) : World × Nat := ({ w with nextScope := w.nextScope + 1 }, w.nextScope)

def runScope (w : World) : Scope := .run w.runNumber

def pullScope (w : World) (number : Nat) : Scope := .pull w.runNumber number

def pend (w : World) (pending : Pending) : World := { w with pending := w.pending ++ [pending] }

/-- Enters what is done after a time. -/
def pendAfter (w : World) (time : Duration) (scopes : List Scope) (wake : Wake)
    (onCancel : Option Wake) : World :=
  w.pend { due := some (w.now.plus time), scopes, wake, onCancel }

/-- Enters what is done at once, whatever is cancelled meanwhile. -/
def pendNow (w : World) (wake : Wake) : World := w.pend { due := some w.now, wake }

def dropPending (w : World) (drop : Wake → Bool) : World :=
  { w with pending := w.pending.filter fun p => !drop p.wake }

/-- Cancels a scope: every wait within it ends now. -/
def cancel (w : World) (scope : Scope) : World :=
  let within := w.pending.filter (·.scopes.contains scope)
  let others := w.pending.filter fun p => !p.scopes.contains scope
  let ended := within.filterMap fun p =>
    p.onCancel.map fun wake => { due := some w.now, wake : Pending }
  { w with cancelled := scope :: w.cancelled, pending := others ++ ended }

/-- Has the session take in what needs no answer. -/
def takeIn (w : World) (activity : Session.Activity Unit) : World :=
  let stop := activity.run w.now false w.session
  { w with session := stop.state }.tell stop.notes

def takePayload (w : World) (payload : Push.Payload) : World :=
  match w.taker with
  | .session => w.takeIn (Session.takePayload payload)
  | .recorder => w.observe (.delivered payload)

def withRun (w : World) (run : Push.Run) : World := { w with session := { w.session with run } }

end World

end MeshConsole.Bench
