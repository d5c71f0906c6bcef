import MeshConsole.Gateway.Device
import MeshConsole.Job.Call
import MeshConsole.Push.Endpoint
import MeshConsole.Push.Run
import MeshConsole.Radio.View
import MeshConsole.Rest.Client

/-!
# Session state

A session ties the push link, the REST client, the job desk and the link-quality monitor of one
gateway together, and holds the device list.
-/

namespace MeshConsole.Session

/-- What a session is told of its gateway and of its own timing. -/
structure Settings where
  gatewayUrl : Text := []
  wsPath : Text := "/ws"
  apiBasePath : Text := "/api/v1"
  httpTimeout : Duration := 10 * Duration.second
  link : Push.Timing := {}
  jobs : Job.Timing := {}
  radio : Radio.Settings := {}
  tick : Duration := 5 * Duration.second
  autoRefresh : Bool := true
  deriving Repr, DecidableEq

structure State where
  client : Rest.Client
  run : Push.Run
  monitor : Radio.Monitor
  desk : Job.Desk Text := {}
  /-- For jobs that name no timing of their own. -/
  jobTiming : Job.Timing
  tick : Duration
  autoRefresh : Bool
  devices : List Device := []
  lastAutoRefresh : Option Instant := none
  /-- Job submissions so far; they are numbered from one. -/
  submissions : Nat := 0

/-- Why there is no session. -/
inductive SetupError where
  | noGateway
  | endpoint (why : Push.EndpointError)
  deriving Repr, DecidableEq

def SetupError.message : SetupError → Text
  | .noGateway => "gateway url is required"
  | .endpoint why => why.message

/-- The id that a submission is traced by. -/
def requestId (number : Nat) : Text :=
  let digits := Text.ofNat number
  ("req-" : Text) ++ List.replicate (2 - digits.length) Ascii.zero ++ digits

namespace State

/-- A session on a client and a link of its own that is not connected. -/
def idle (client : Rest.Client) (link : Push.Link) (handler : Push.Handler)
    (settings : Settings) : State where
  client
  run := { link, handler, phase := .finished }
  monitor := .new settings.radio
  jobTiming := settings.jobs.orElse {}
  tick := if settings.tick ≤ 0 then 5 * Duration.second else settings.tick
  autoRefresh := settings.autoRefresh

/-- The session of a gateway. -/
def new (settings : Settings) : Except SetupError State :=
  if settings.gatewayUrl.isEmpty then .error .noGateway
  else
    let path : Text := if settings.wsPath.isEmpty then "/ws" else settings.wsPath
    match Push.endpoint settings.gatewayUrl path with
    | .error why => .error (.endpoint why)
    | .ok url =>
      let client := Rest.Client.new settings.gatewayUrl settings.apiBasePath settings.httpTimeout
      .ok (idle client (.new url settings.link) .reconciling settings)

def view (s : State) (now : Instant) : Radio.View := s.monitor.view now

/-- Whether a tick at `now` starts a refresh of the link table. -/
def wantsRefresh (s : State) (now : Instant) : Bool :=
  s.autoRefresh && s.run.link.state == .opened && s.monitor.isStale now &&
  !s.desk.isActive "lqi_refresh" &&
  match s.lastAutoRefresh with
  | none => true
  | some last => s.monitor.settings.staleThreshold ≤ now.since last

end State

end MeshConsole.Session
