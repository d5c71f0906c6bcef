import MeshConsole.Bench.World

/-!
# Traffic on the push channel

Frames reach the link from a script or from the simulated gateway. A link that is done with one wait
is given the next.
-/

namespace MeshConsole.Bench.World

/-- The greatest frame that a push connection takes. -/
def maxFrame : Nat := 1048576

/-- The scripted dialer and its sockets are observed, the simulated ones are not. -/
def isScripted (w : World) : Bool :=
  match w.dialer with
  | .scripted _ => true
  | .simulated => false

/-- Does what a link does to its surroundings without starting anything. -/
def applySignal (w : World) : Push.Signal → World
  | .log line => w.log line
  | .publish event => w.publish event
  | .deliver payload => w.takePayload payload
  | .closeSocket => if w.isScripted then w.observe .socketClosed else { w with attached := false }
  | .schedule number due => w.pend { due := some due, wake := .pullDue number }
  | .unschedule number => (w.dropPending fun
      | .pullDue other => other == number
      | _ => false).cancel (w.pullScope number)
  | .reconcile _ => w

def isLinkWait : Wake → Bool
  | .dialed _ => true
  | .dialFailed _ => true
  | .read _ _ => true
  | .waited => true
  | .blocked => true
  | _ => false

def pendLink (w : World) (time : Option Duration) (wake : Wake) : World :=
  w.pend {
    due := time.map fun time => w.now.plus time
    scopes := [w.runScope]
    wake
    onCancel := some .linkCancelled }

/-- Whether the simulated gateway accepts a push connection at this address. It has no encrypted
port, and a dialer follows it to the shortest spelling of a path. -/
def acceptsSocket (url : Text) : Bool :=
  match Url.parse? url with
  | none => false
  | some url =>
    (url.scheme == "ws" || url.scheme == "http") && !url.host.isEmpty &&
    (Text.after? "down" url.host).isNone &&
    Simulator.Route.ofPath? (Path.clean url.path) == some .socket

def dialNext (w : World) : World :=
  match w.dialer with
  | .simulated =>
    if acceptsSocket w.session.run.link.url then w.pendLink (some 0) (.dialed [])
    else w.pendLink (some 0) (.dialFailed .socket)
  | .scripted dials =>
    let w := w.observe (.dial w.session.run.link.url)
    match dials with
    | [] => w.pendLink none .blocked
    | dial :: rest =>
      let w := { w with dialer := .scripted rest }
      match dial.result with
      | .error why => w.pendLink (some dial.delay) (.dialFailed (.other why))
      | .ok reads => w.pendLink (some dial.delay) (.dialed reads)

def readNext (w : World) : List Read → World
  | [] => w.pendLink none .blocked
  | read :: rest => w.pendLink (some read.wait) (.read read.event rest)

/-- Gives the link its next wait; `reads` are what is left to be read on its connection. -/
def rearm (w : World) (reads : List Read) : World :=
  let w := w.dropPending isLinkWait
  match w.session.run.phase with
  | .dialing => w.dialNext
  | .reading => w.readNext reads
  | .waiting delay => w.pendLink (some delay) .waited
  | .finished => w

def tellLink (w : World) (h : Push.Happening) : World :=
  let (run, signals) := w.session.run.step w.now h
  signals.foldl applySignal (w.withRun run)

/-- Has the loop of the link hear what has happened. -/
def hear (w : World) (h : Push.Happening) : World :=
  match Session.Live.heard? (w.isCancelled [w.runScope]) h with
  | some h => w.tellLink h
  | none => w

/-- The simulated connection of the link breaks. -/
def breakLink (w : World) : World :=
  if w.attached then ({ w with attached := false }.hear (.readFailed .socket)).rearm [] else w

/-- Brings a frame of the simulated gateway to everyone on its push channel. -/
def pushFrame (w : World) (frame : Text) : World :=
  let w := w.clients.foldl (fun w client => w.observe (.clientFrame client frame)) w
  if !w.attached then w
  else if maxFrame < frame.length then w.breakLink
  else w.hear (.frame frame)

def simulatorEffect (w : World) : Simulator.Effect → World
  | .log line => if w.silentSimulator then w else w.observe (.simulatorLog line)
  | .push frame => w.pushFrame frame

def applyEffects (w : World) (result : Simulator × List Simulator.Effect) : World :=
  result.2.foldl simulatorEffect { w with simulator := result.1 }

/-- Has something befall the simulated gateway. -/
def simulate (w : World) (step : SimStep) : World :=
  let s := w.simulator
  match step with
  | .setDevices devices => w.applyEffects (s.setDevices w.now devices)
  | .setNeighbors source rows => w.applyEffects (s.setNeighbors w.now source rows)
  | .setNetworks networks => { w with simulator := { s with networks } }
  | .failJobs type failure =>
    { w with simulator := { s with failures := s.failures.set type failure } }
  | .setVersion version => { w with simulator := { s with version } }
  | .setPolls polls => { w with simulator := { s with pollsToComplete := polls } }
  | .drift deltas otherwise =>
    w.applyEffects (s.drift w.now fun addr => (deltas.get? addr).getD otherwise)
  | .broadcast type data => w.applyEffects (s.broadcast w.now type data)
  | .pushRaw frame => w.pushFrame frame
  | .seed count => w.applyEffects (s.seed w.now count)

/-- The room for a demo network of `count` devices. -/
def seedRoom (count : Int) : Except Memory.Refusal Unit := Memory.reserve .capacity 24 count

/-- Seeds a demo network, if there is room for it. -/
def seed? (w : World) (count : Int) : Except Memory.Refusal World := do
  seedRoom count
  return w.simulate (.seed count.toNat)

/-- Closes every connection of the simulated push channel. -/
def dropClients (w : World) : World :=
  let w := w.clients.foldl (fun w client => w.observe (.clientClosed client)) w
  { w with clients := [] }.breakLink

/-- Connections of the simulated push channel. -/
def clientCount (w : World) : Nat := w.clients.length + if w.attached then 1 else 0

end MeshConsole.Bench.World
