import MeshConsole.Bench.Clock
import MeshConsole.Build
import MeshConsole.Command.Activity
import MeshConsole.Command.Listen

/-!
# Running a command line

A command line on a bench: what it reads, what it writes, and how it ends.
-/

namespace MeshConsole.Bench

open Command (Invocation)
open World (Manner)

/-- What a command line finds around it. -/
structure Surroundings where
  environment : Table Text Text := []
  files : Settings.Files

inductive ConsoleError where
  | refused (why : Command.Refusal)
  | config (why : Settings.ConfigError)
  | setup (why : Session.SetupError)
  | listen (why : Command.ListenError)
  | fault (why : Fault)
  | crashed (crash : Crash)

def ConsoleError.message : ConsoleError → Text
  | .refused why => why.message
  | .config why => why.message
  | .setup why => why.message
  | .listen why => why.message
  | .fault why => why.message
  | .crashed crash => crash.message

/-- How a command line has ended, and what it has written. -/
structure Ended where
  world : World
  result : Except ConsoleError Unit := .ok ()
  stdout : Text := []
  stderr : Text := []

/-- A line of a component's log with the time it was written at. -/
def logText (component : Text) (time : Instant) (line : Text) : Text :=
  let ending : Text := if line.getLast? == some Ascii.newline then [] else [Ascii.newline]
  ("[" : Text) ++ component ++ "] " ++ time.dateText ++ " " ++ line ++ ending

def logged (component : Text) (trace : List (Instant × Entry)) : Text :=
  trace.flatMap fun (time, entry) =>
    match entry with
    | .log line => logText component time line
    | _ => []

def watched (trace : List (Instant × Entry)) : Text :=
  trace.flatMap fun (time, entry) =>
    match entry with
    | .out line => logText Command.Node.root.name time line
    | _ => []

def jobLines (trace : List (Instant × Entry)) : List Text :=
  trace.filterMap fun (_, entry) =>
    match entry with
    | .event (.job change) => some (Command.jobLine change)
    | _ => none

def printed (lines : List Text) : Text := lines.flatMap fun line => line ++ [Ascii.newline]

/-- Loads the settings and builds the session they describe. -/
def prepare (w : World) (around : Surroundings)
    (flags : Table Text Command.FlagValue) : Except ConsoleError (World × Settings.Config) :=
  match Settings.load flags around.environment around.files with
  | .error why => .error (.config why)
  | .ok config =>
    match Session.State.new config.session with
    | .error why => .error (.setup why)
    | .ok session => .ok ({ w with session }, config)

/-- Carries out an activity that ends with lines to print. -/
def runTask (w : World) (manner : Manner) (component : Text) (showsJobs : Bool)
    (activity : Session.Activity (Except Fault (List Text))) : Ended :=
  let (w, outcome) := w.perform manner do return (← activity).map .lines
  let trace := w.trace.reverse
  let jobs := if showsJobs then jobLines trace else []
  let stderr := logged component trace
  match outcome with
  | some (.ok (.lines lines)) => { world := w, stdout := printed (jobs ++ lines), stderr }
  | some (.error why) =>
    { world := w, result := .error (.fault why), stdout := printed jobs, stderr }
  | _ => { world := w, stdout := printed jobs, stderr }

def watch (w : World) (manner : Manner) (config : Settings.Config)
    (interval : Duration) : Ended :=
  let collector := (Telemetry.Collector.new {} w.now).start w.now
  let w := { w with collector := some collector }
  let w := if manner.cancelled then w else w.startSession
  let (w, _) := w.watch manner {
    gateway := config.gatewayUrl
    configFile := config.configFile
    backoffBase := config.reconnectBase
    backoffCap := config.reconnectCap
    interval } none
  let w := w.close
  { world := w, stdout := watched w.trace.reverse, stderr := logged "session" w.trace.reverse }

/-- Serves a simulated gateway until it is cancelled; on a bench nobody connects to it. -/
def serveAlone (w : World) (manner : Manner) (listen : Text) (devices : Int) : Ended :=
  match World.seedRoom devices, Command.checkListen listen with
  | .error why, _ => { world := w, result := .error (.crashed (.memory why)) }
  | .ok (), .error why => { world := w, result := .error (.listen why) }
  | .ok (), .ok () =>
    let w := if manner.cancelled then w else w.advance (manner.cancelAfter.getD 0)
    { world := w, stdout := "Simulated gateway on http://127.0.0.1:<port>\n" }

def invoke (w : World) (around : Surroundings) (manner : Manner) : Invocation → Ended
  | .help => { world := w }
  | .version =>
    { world := w, stdout := printed [Command.Node.root.name ++ " " ++ Build.text] }
  | .watch interval flags =>
    match prepare w around flags with
    | .error why => { world := w, result := .error why }
    | .ok (w, config) => watch w manner config interval
  | .job task flags =>
    match prepare w around flags with
    | .error why => { world := w, result := .error why }
    | .ok (w, _) => runTask w manner "jobs" true task.activity
  | .device task flags =>
    match prepare w around flags with
    | .error why => { world := w, result := .error why }
    | .ok (w, _) => runTask w manner "device" false task.activity
  | .simulate listen devices => serveAlone w manner listen devices

/-- Runs a command line. -/
def runCommand (w : World) (around : Surroundings) (manner : Manner) (arguments : List Text) :
    Ended :=
  match Command.invoke arguments with
  | .error why => { world := w, result := .error (.refused why) }
  | .ok invocation => invoke w around manner invocation

end MeshConsole.Bench
