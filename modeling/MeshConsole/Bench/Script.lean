import MeshConsole.Json.Value
import MeshConsole.Rest.Client
import MeshConsole.Simulator.State
import MeshConsole.Table

/-!
# Scripts

What a bench plays to a console: answers of a gateway, dials with what is read on them, and things
that befall a simulated gateway.
-/

namespace MeshConsole.Bench

/-- One scripted answer. -/
structure Reply where
  status : Int := 200
  body : Text := []
  delay : Duration := 0
  /-- The exchange fails with this. -/
  error : Option Text := none
  /-- Reading the body fails with this. -/
  bodyError : Option Text := none

/-- Answers by method and path, used in turn; the last one repeats. -/
abbrev Routes := Table Text (List Reply)

/-- The answers for every request that has none of its own. -/
def anyRoute : Text := "*"

namespace Routes

/-- The route that serves a request. -/
def key? (routes : Routes) (method path : Text) : Option Text :=
  let key := method ++ " " ++ path
  if routes.has key then some key else if routes.has anyRoute then some anyRoute else none

/-- The next answer, and the routes with it used up unless it is the last. -/
def next? (routes : Routes) (method path : Text) : Option (Reply × Routes) := do
  let key ← routes.key? method path
  match routes.get? key with
  | some (reply :: next :: rest) => some (reply, routes.set key (next :: rest))
  | some [reply] => some (reply, routes)
  | _ => none

end Routes

inductive ReadEvent where
  | nothing
  | frame (bytes : Text)
  | fails (error : Text)

/-- What is read on a connection after a wait. -/
structure Read where
  wait : Duration := 0
  event : ReadEvent := .nothing

/-- One dial: it fails, or opens a connection on which these reads are played. -/
structure Dial where
  delay : Duration := 0
  result : Except Text (List Read)

/-- What befalls a simulated gateway. -/
inductive SimStep where
  | setDevices (devices : Option (List Device))
  | setNeighbors (source : Text) (rows : List Neighbor)
  | setNetworks (networks : List Network)
  | failJobs (type failure : Text)
  | setVersion (version : Int)
  | setPolls (polls : Int)
  | drift (deltas : Table UInt16 Int64) (otherwise : Int64)
  | broadcast (type : Text) (data : Json.Value)
  | pushRaw (frame : Text)
  | seed (count : Nat)

end MeshConsole.Bench
