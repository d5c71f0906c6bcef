import MeshConsole.Bench.Console

/-!
# The command line

Rehearses a command against a simulated gateway. Arguments, environment and settings files are the
caller's; gateway and clock are those of a bench, so that no command waits and none reaches a real
network.
-/

namespace MeshConsole.Main

open Bench (World Surroundings)

/-- A text as a string; one that is not valid UTF-8 becomes empty. -/
def asString (t : Text) : String := (String.fromUTF8? ⟨t.toArray⟩).getD ""

def readEnvironment : IO (Table Text Text) :=
  Settings.Key.all.filterMapM fun key => do
    return (← IO.getEnv (asString key.name)).map fun value => (key.name, Text.ofString value)

/-- The files among `paths` that can be read. -/
def readFiles (paths : List Text) : IO (Table Text Text) :=
  paths.filterMapM fun path => do
    try
      return some (path, (← IO.FS.readBinFile (asString path)).toList)
    catch _ => return none

/-- What the command line finds around it: the file that is named, or those that are looked for. -/
def readSurroundings (flags : Table Text Command.FlagValue) : IO Surroundings := do
  let environment ← readEnvironment
  let named := Settings.namedFile flags environment
  let contents ← readFiles (if named.isEmpty then Settings.searchPaths else [named])
  let root := Text.ofString (← IO.currentDir).toString
  return { environment, files := { root, contents } }

/-- How long a command that does not end by itself goes on. -/
def rehearsalTime : Duration := Duration.ofSeconds 60

/-- A bench with a simulated gateway of four devices. -/
def bench : World :=
  let client := Rest.Client.new [] [] 0
  let session := Session.State.idle client (Push.Link.new [] {}) .none {}
  let world : World := { session, gateway := .simulated, dialer := .simulated }
  { world.simulate (.seed 4) with trace := [] }

def write (stream : IO.FS.Stream) (t : Text) : IO Unit := do
  stream.write ⟨t.toArray⟩
  stream.flush

/-- Runs one command line; the exit code is 1 when it ends with an error. -/
def run (arguments : List Text) : IO UInt32 := do
  let flags := match Command.invoke arguments with
    | .ok invocation => invocation.flags
    | .error _ => []
  let around ← readSurroundings flags
  let ended := Bench.runCommand bench around { cancelAfter := some rehearsalTime } arguments
  write (← IO.getStdout) ended.stdout
  write (← IO.getStderr) ended.stderr
  match ended.result with
  | .ok () => return 0
  | .error why =>
    write (← IO.getStderr) (Command.Node.root.name ++ ": " ++ why.message ++ "\n")
    return 1

end MeshConsole.Main

def main (arguments : List String) : IO UInt32 :=
  MeshConsole.Main.run (arguments.map MeshConsole.Text.ofString)
