import MeshConsole.Bench.Console
import MeshConsole.Bench.Stage
import MeshConsole.Record.Telemetry

/-!
# Records of the bench

What was observed on a bench, and what its steps have resulted in.
-/

namespace MeshConsole.Record

open Bench (Entry Outcome StepResult)
open Json (Value Members)

def outcome : Outcome → Value
  | .error f => fault f
  | .ok value =>
    match value with
    | .done => .text "ok"
    | .message text => .text text
    | .raw text => .object [("raw", .text text)]
    | .networks ns => networks ns
    | .status s => statusUpdate s.update
    | .health h => health h
    | .links t => linkTable t
    | .receipt r => receipt r
    | .report r => report r
    | .lines ls => .list (ls.map .text)

def payloadName : Push.Payload → Text
  | .devices _ => "devices"
  | .health _ => "health"
  | .links _ => "link_quality"
  | .status _ => "legacy_status"

/-- A line without the newline that may end it. -/
def unterminated (line : Text) : Text :=
  if line.getLast? == some Ascii.newline then line.dropLast else line

def entryFields : Entry → Members
  | .event event => ("event", .text event.name) :: eventFields event
  | .log line => [("log", .text (unterminated line))]
  | .simulatorLog line => [("sim_log", .text (unterminated line))]
  | .out line => [("out", .text line)]
  | .request request => requestFields request
  | .dial url => [("dial", .text url)]
  | .socketClosed => [("socket", .text "close")]
  | .delivered p => [("call", .text (payloadName p)), ("value", payload p)]
  | .reconciled cancelled => [("call", .text "reconcile"), ("canceled", .bool cancelled)]
  | .clientFrame client frame => [("client", .int client), ("frame", .text frame)]
  | .clientClosed client => [("client", .int client), ("closed", .bool true)]
  | .finished step o => [("finished", nat step), ("result", outcome o)]

/-- What was observed, with its time. A line of several is a record for each. -/
def entries (e : Instant × Entry) : List Value :=
  let timed := fun fields : Members => Value.object (("at", .int e.1.millis) :: fields)
  match e.2 with
  | .out text => (Status.logLines text).map fun line => timed (entryFields (.out line))
  | other => [timed (entryFields other)]

def command (c : Command) : Value :=
  .object [
    ("addr", nat c.addr.toNat), ("ep", nat c.endpoint.toNat), ("cmd", nat c.switch.toNat)]

def simulator (s : Simulator) (clients : Nat) (isJoinOpen : Bool) : Value :=
  .object [
    ("clients", nat clients),
    ("permit_join_open", .bool isJoinOpen),
    ("commands", .list (s.commands.map command)),
    ("wifi", .ofOption (fun c => Value.object [
      ("ssid", .text c.ssid), ("password", .text c.password)]) s.wifi)]

def stepResult : StepResult → Value
  | .ok => .text "ok"
  | .started => .text "started"
  | .outcome o => outcome o
  | .crashed crash => error "panic" crash.message
  | .sequence number => nat number.toNat
  | .link l => link l
  | .devices ds => devices ds
  | .view v => view v
  | .flag value => .bool value
  | .name name => .text name
  | .snapshot s => snapshot s
  | .lines ls => .list (ls.map .text)
  | .response r => response r
  | .simulator s clients isJoinOpen => simulator s clients isJoinOpen

def textLines (t : Text) : Value :=
  .list (if t.isEmpty then [] else (Status.logLines t).map .text)

def consoleResult : Except Bench.ConsoleError Unit → Value
  | .ok () => .text "ok"
  | .error (.refused (.limit broken)) => fault (.limit broken)
  | .error (.refused why) => error "error" why.message
  | .error (.config why) => error "error" why.message
  | .error (.setup why) => error "error" why.message
  | .error (.listen why) => error "error" why.message
  | .error (.fault why) => fault why
  | .error (.crashed crash) => error "panic" crash.message

/-- How a command line has ended, what it wrote, and what it asked the gateway. -/
def ended (e : Bench.Ended) : Value :=
  let w := e.world
  let requests := w.trace.reverse.filter fun (_, entry) =>
    match entry with
    | .request _ => true
    | _ => false
  .object [
    ("result", consoleResult e.result),
    ("at", .int w.now.millis),
    ("stdout", textLines e.stdout),
    ("stderr", textLines e.stderr),
    ("requests", .list (requests.flatMap entries)),
    ("sim", simulator w.simulator w.clientCount (w.simulator.isJoinOpen w.now))]

end MeshConsole.Record
