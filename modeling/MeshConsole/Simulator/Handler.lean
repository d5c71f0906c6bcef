import MeshConsole.Numeral.Integer
import MeshConsole.Rest.Client
import MeshConsole.Simulator.Job
import MeshConsole.Simulator.Upgrade
import MeshConsole.Text.Path

/-!
# Serving requests

The simulator's answer to any request. Every answer of a known path is an envelope; a request that
is refused leaves the simulator as it was.
-/

namespace MeshConsole.Simulator

open Json (Reader)
open Rest (Response)

/-- The simulator after a request, what it does beside answering, and the answer. -/
structure Served where
  simulator : Simulator
  effects : List Effect := []
  response : Response

def envelope (status : Int) (members : Json.Members) : Response where
  status
  contentType := "application/json"
  body := (Json.Value.map members).render ++ [Ascii.newline]

def okResponse (data : Json.Value) : Response :=
  envelope 200 [("status", .text "ok"), ("data", data)]

def errorResponse (status : Int) (code message : Text) : Response :=
  envelope status [
    ("status", .text "error"),
    ("error", .map [("code", .text code), ("message", .text message)])]

def invalid (message : Text) : Response := errorResponse 400 "invalid_arg" message

def messageResponse (message : Text) : Response :=
  okResponse (.object [("message", .text message)])

def plainText (status : Int) (body : Text) : Response :=
  { status, contentType := "text/plain; charset=utf-8", body }

def notFound : Response := plainText 404 "404 page not found\n"

/-- Bodies are taken in portions of this size. -/
def bodyPortion : Nat := 512

/-- The first value of a body, read as `reader` says; what follows it is ignored. -/
def readBody? (reader : Reader α) (zero : α) (body : Text) : Option α :=
  Json.Tree.first? bodyPortion body >>= reader zero

structure JobOrder where
  type : Text := []
  delayMs : Int64 := 0

def JobOrder.reader : Reader JobOrder :=
  .record ["type", "reboot_delay_ms"] fun old members => do
    return {
      type := ← Reader.field "type" Reader.text old.type members
      delayMs := ← Reader.field "reboot_delay_ms" Reader.int64 old.delayMs members }

def serveSubmit (s : Simulator) (now : Instant) (r : Incoming) : Served :=
  match readBody? JobOrder.reader {} r.body with
  | none => { simulator := s, response := invalid "Invalid job payload" }
  | some order =>
    if !jobTypes.contains order.type then
      { simulator := s, response := invalid "Unknown job type" }
    else
      let (s, job) := s.queueJob now order.type order.delayMs
      let receipt : JobReceipt := { id := job.id, type := job.type, state := job.state }
      { simulator := s
        effects := [.log (("job " : Text) ++ Text.ofInt job.id.toInt ++ " (" ++ job.type ++
          ") queued, request " ++ header r.headers "X-Request-ID")]
        response := okResponse receipt.toJson }

def serveJob (s : Simulator) (now : Instant) (id : Text) : Served :=
  match Numeral.readInt id with
  | .error _ => { simulator := s, response := invalid "Invalid job id" }
  | .ok id =>
    if id ≤ 0 then { simulator := s, response := invalid "Invalid job id" }
    else
      match s.jobs.get? (Int64.ofInt id) with
      | none => { simulator := s, response := errorResponse 404 "not_found" "Job not found" }
      | some job =>
        let (s, job, effects) := s.pollJob now job
        { simulator := s, effects, response := okResponse job.toJson }

def joinWindow : Duration := 60 * Duration.second

def servePermitJoin (s : Simulator) (now : Instant) : Served where
  simulator := { s with joinUntil := some (now.plus joinWindow) }
  effects := [.log (("network opened for " : Text) ++ joinWindow.text)]
  response := messageResponse "Network opened for 60 seconds"

def isShortAddr (n : Int64) : Bool := 0 < n && n ≤ 0xFFFF

structure ControlBody where
  addr : Option Int64 := none
  endpoint : Option Int64 := none
  switch : Option Int64 := none

def optionalInt (name : Text) (old : Option Int64) (members : List Json.Tree.Member) :
    Option (Option Int64) :=
  Reader.field name (Reader.optional 0 Reader.int64) old members

def ControlBody.reader : Reader ControlBody :=
  .record ["addr", "ep", "cmd"] fun old members => do
    return {
      addr := ← optionalInt "addr" old.addr members
      endpoint := ← optionalInt "ep" old.endpoint members
      switch := ← optionalInt "cmd" old.switch members }

def ControlBody.command? (b : ControlBody) : Option Command := do
  let addr ← b.addr
  let endpoint ← b.endpoint
  let switch ← b.switch
  if isShortAddr addr && 0 < endpoint && endpoint.toInt ≤ maxEndpoint &&
      (switch == 0 || switch == 1) then
    some {
      addr := UInt16.ofInt addr.toInt
      endpoint := UInt8.ofInt endpoint.toInt
      switch := UInt8.ofInt switch.toInt }
  else none

def serveControl (s : Simulator) (r : Incoming) : Served :=
  match readBody? ControlBody.reader {} r.body >>= ControlBody.command? with
  | none => { simulator := s, response := invalid "Missing parameters" }
  | some command =>
    { simulator := { s with commands := s.commands ++ [command] }
      effects := [.log (("control addr=0x" : Text) ++ Text.hexDigits 4 command.addr.toNat ++
        " ep=" ++ Text.ofNat command.endpoint.toNat ++
        " cmd=" ++ Text.ofNat command.switch.toNat)]
      response := messageResponse "Command sent" }

structure DeviceBody where
  addr : Option Int64 := none
  name : Option Text := none

def DeviceBody.addr? (b : DeviceBody) : Option UInt16 := do
  let addr ← b.addr
  if isShortAddr addr then some (UInt16.ofInt addr.toInt) else none

def deleteReader : Reader DeviceBody :=
  .record ["short_addr"] fun old members => do
    return { old with addr := ← optionalInt "short_addr" old.addr members }

def renameReader : Reader DeviceBody :=
  .record ["short_addr", "name"] fun old members => do
    return {
      addr := ← optionalInt "short_addr" old.addr members
      name := ← Reader.field "name" (Reader.optional [] Reader.text) old.name members }

/-- The list without the first device of an address; nothing when there is none. -/
def removeDevice? (addr : UInt16) : List Device → Option (List Device)
  | [] => none
  | d :: rest => if d.addr = addr then some rest else (removeDevice? addr rest).map (d :: ·)

/-- The list with the first device of an address renamed; nothing when there is none. -/
def nameDevice? (addr : UInt16) (name : Text) : List Device → Option (List Device)
  | [] => none
  | d :: rest =>
    if d.addr = addr then some ({ d with name } :: rest)
    else (nameDevice? addr name rest).map (d :: ·)

def withDevices (s : Simulator) (devices : Option (List Device)) (done failed : Text) :
    Served :=
  match devices with
  | none => { simulator := s, response := errorResponse 500 "internal_error" failed }
  | some devices =>
    { simulator := { s with status := { s.status with devices := some devices } }
      response := messageResponse done }

def serveDelete (s : Simulator) (r : Incoming) : Served :=
  match readBody? deleteReader {} r.body >>= DeviceBody.addr? with
  | none => { simulator := s, response := invalid "Invalid JSON" }
  | some addr => withDevices s (removeDevice? addr s.devices) "Device deleted" "Delete failed"

def serveRename (s : Simulator) (r : Incoming) : Served :=
  let request? := do
    let body ← readBody? renameReader {} r.body
    let addr ← body.addr?
    let name ← body.name
    if (checkDeviceName name).isOk then some (addr, name) else none
  match request? with
  | none => { simulator := s, response := invalid "Invalid JSON" }
  | some (addr, name) =>
    withDevices s (nameDevice? addr name s.devices) "Device renamed" "Rename failed"

def serveWifi (s : Simulator) (r : Incoming) : Served :=
  match readBody? Credentials.reader {} r.body with
  | none => { simulator := s, response := invalid "Invalid JSON" }
  | some credentials =>
    if !credentials.check.isOk then
      { simulator := s, response := invalid "Invalid SSID or password" }
    else
      { simulator := { s with wifi := some credentials }
        effects := [.log (("wifi credentials saved for " : Text) ++ credentials.ssid.quoted)]
        response := messageResponse "Saved. Restarting..." }

def serveStatus (s : Simulator) : Served where
  simulator := s
  response := okResponse { s.status with devices := some s.devices }.toJson

def serveHealth (s : Simulator) (now : Instant) : Served :=
  let system := s.health.system.map fun system => { system with uptimeMs := s.uptimeMs now }
  { simulator := s, response := okResponse { s.health with system }.toJson }

def serveLinks (s : Simulator) : Served where
  simulator := s
  response := okResponse s.linkTable.toJson

/-- A request for the push channel over a connection that cannot become one. -/
def serveSocket (s : Simulator) (r : Incoming) : Served :=
  let refusal := Upgrade.refusal r
  { simulator := s
    effects := [.log (("ws accept: failed to accept WebSocket connection: " : Text) ++
      refusal.message)]
    response := plainText refusal.status (refusal.body ++ [Ascii.newline]) }

/-- The paths with the method each is served for. -/
inductive Route where
  | status
  | health
  | links
  | submitJob
  | job (id : Text)
  | permitJoin
  | control
  | delete
  | rename
  | wifi
  | socket
  deriving Repr, DecidableEq

def Route.method : Route → Text
  | .status => "GET"
  | .health => "GET"
  | .links => "GET"
  | .job _ => "GET"
  | .socket => "GET"
  | _ => "POST"

/-- Only the last path of each group is refused by its method; elsewhere a wrong method counts as an
unknown path. -/
def Route.namesMethods : Route → Bool
  | .wifi => true
  | .socket => true
  | _ => false

def Route.ofPath? (path : Text) : Option Route :=
  if path == "/ws" then some .socket
  else do
    let rest ← Text.after? Rest.defaultBasePath path
    if rest == "/status" then some .status
    else if rest == "/health" then some .health
    else if rest == "/lqi" then some .links
    else if rest == "/jobs" then some .submitJob
    else if rest == "/permit_join" then some .permitJoin
    else if rest == "/control" then some .control
    else if rest == "/delete" then some .delete
    else if rest == "/rename" then some .rename
    else if rest == "/settings/wifi" then some .wifi
    else
      let id ← Text.after? "/jobs/" rest
      if id.isEmpty || id.contains Ascii.slash then none else some (.job id)

def serveRoute (s : Simulator) (now : Instant) (r : Incoming) : Route → Served
  | .status => serveStatus s
  | .health => serveHealth s now
  | .links => serveLinks s
  | .submitJob => serveSubmit s now r
  | .job id => serveJob s now id
  | .permitJoin => servePermitJoin s now
  | .control => serveControl s r
  | .delete => serveDelete s r
  | .rename => serveRename s r
  | .wifi => serveWifi s r
  | .socket => serveSocket s r

/-- Serves a request. A path that is not in its shortest spelling is answered with that spelling. -/
def serve (s : Simulator) (now : Instant) (r : Incoming) : Served :=
  let path := Path.clean r.url.path
  if path != r.url.path then
    { simulator := s
      response := { status := 301, location := { r.url with path }.text } }
  else
    match Route.ofPath? path with
    | none => { simulator := s, response := notFound }
    | some route =>
      if route.method == r.method then serveRoute s now r route
      else if route.namesMethods then { simulator := s, response := { status := 405 } }
      else { simulator := s, response := notFound }

/-- A request as it reaches the simulator. -/
def arrival (request : Rest.Request) : Incoming where
  method := request.method.name
  url := request.url
  headers := request.headers
  body := request.body.getD []

/-- The simulator's answer to a request. -/
def ask (s : Simulator) (now : Instant) (request : Rest.Request) : Served :=
  s.serve now (arrival request)

end MeshConsole.Simulator
