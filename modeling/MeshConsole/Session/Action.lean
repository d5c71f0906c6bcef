import MeshConsole.Session.Intake
import MeshConsole.Text.Quoted

/-!
# Acting on the gateway

Device management, the jobs the console offers, the refresh that a session starts by itself, and
all that a caller may have a session do.
-/

namespace MeshConsole.Session

open Activity

/-- `0x` and four digits in lower case. -/
def lowerAddr (addr : UInt16) : Text := ("0x" : Text) ++ Text.hexDigits 4 addr.toNat

/-- Pulls the status after a change; that the change itself succeeded stands. -/
def refreshAfter (what : Text) : Activity Unit := do
  match ← refreshStatus with
  | .ok () => pure ()
  | .error why =>
    if !(← scene).cancelled then
      log (("status after " : Text) ++ what ++ ": " ++ why.message)
      publish (.clientError (some (.within "status" why)) what .warning)

def permitJoin : Activity (Except Fault Text) := do
  match ← ask .permitJoin with
  | .error why => return .error (.within "permit join" why)
  | .ok message =>
    log (("permit join: " : Text) ++ message)
    return .ok message

def control (command : Command) : Activity (Except Fault Text) := do
  match ← ask (.control command) with
  | .error why => return .error (.within (("control " : Text) ++ lowerAddr command.addr) why)
  | .ok message => return .ok message

def deleteDevice (addr : UInt16) : Activity (Except Fault Text) := do
  match ← ask (.delete addr) with
  | .error why => return .error (.within (("delete " : Text) ++ lowerAddr addr) why)
  | .ok message =>
    refreshAfter "delete"
    return .ok message

def renameDevice (addr : UInt16) (name : Text) : Activity (Except Fault Text) := do
  match ← ask (.rename addr name) with
  | .error why => return .error (.within (("rename " : Text) ++ lowerAddr addr) why)
  | .ok message =>
    refreshAfter "rename"
    return .ok message

def saveWifi (credentials : Credentials) : Activity (Except Fault Text) := do
  match ← ask (.saveWifi credentials) with
  | .error why => return .error (.within "save wifi" why)
  | .ok message =>
    log (("wifi credentials saved for " : Text) ++ credentials.ssid.quoted)
    return .ok message

/-- The networks of a scan's result, strongest first. -/
def networksOf (result : Text) : Except Fault (List Network) :=
  let networks :=
    if result.isEmpty then some none
    else Json.Tree.parse? result >>= Network.listReader none
  match networks with
  | some networks => .ok (Network.strongestFirst (networks.getD []))
  | none => .error (.within "decode scan result" .undecodable)

def scan : Activity (Except Fault (List Network)) := do
  match ← submit { type := "scan", label := "Wi-Fi scan" } with
  | .error why => return .error why
  | .ok result => return networksOf result

/-- Restarts the gateway; a delay that is not positive is left to the gateway. -/
def reboot (delayMs : Int) : Activity (Except Fault Unit) := do
  let payload : Json.Members := if 0 < delayMs then [("reboot_delay_ms", .int delayMs)] else []
  return (← submit { type := "reboot", label := "Reboot", payload }).map fun _ => ()

def factoryReset : Activity (Except Fault Unit) := do
  return (← submit { type := "factory_reset", label := "Factory reset" }).map fun _ => ()

def update : Activity (Except Fault Unit) := do
  return (← submit { type := "update", label := "Update check" }).map fun _ => ()

def refreshLinks : Activity (Except Fault Unit) := do
  return (← submit { type := "lqi_refresh", label := "LQI refresh" }).map fun _ => ()

/-- The refresh that a session starts by itself. It is silent when another refresh is under way or
the session is closing. -/
def autoRefresh : Activity Unit := do
  log "link quality stale, requesting refresh"
  match ← refreshLinks with
  | .ok () => pullLinks
  | .error why =>
    if why.root != .jobInProgress && !(← scene).cancelled then
      log (("auto lqi refresh failed: " : Text) ++ why.message)
      publish (.clientError (some why) "auto_refresh" .warning)

/-- Publishes the aged view, and answers whether a refresh is to be started. -/
def tick : Activity Bool := do
  let s ← scene
  publish (.links (s.state.view s.now))
  if s.state.wantsRefresh s.now then
    modify fun state => { state with lastAutoRefresh := some s.now }
    return true
  else return false

/-- An activity whose value nobody asks for. -/
def quietly (a : Activity α) : Activity Bool := a.bind fun _ => .done false

/-- What a session pulls the status for. -/
inductive Errand where
  | reconcile
  | refreshStatus
  | delete (addr : UInt16)
  | rename (addr : UInt16) (name : Text)

def Errand.activity : Errand → Activity Unit
  | .reconcile => Session.reconcile
  | .refreshStatus => discard Session.refreshStatus
  | .delete addr => discard (deleteDevice addr)
  | .rename addr name => discard (renameDevice addr name)

/-- What a caller has a session do. -/
inductive Commission where
  | submit (order : Order)
  | errand (errand : Errand)
  | permitJoin
  | control (command : Command)
  | saveWifi (credentials : Credentials)
  | take (payload : Push.Payload)

def Commission.activity : Commission → Activity Bool
  | .submit order => quietly (Activity.submit order)
  | .errand e => quietly e.activity
  | .permitJoin => quietly Session.permitJoin
  | .control command => quietly (Session.control command)
  | .saveWifi credentials => quietly (Session.saveWifi credentials)
  | .take payload => quietly (takePayload payload)

end MeshConsole.Session
