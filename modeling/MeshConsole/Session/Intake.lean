import MeshConsole.Session.Activity

/-!
# Taking in what the gateway says

A pushed payload and a pulled answer are taken in alike.
-/

namespace MeshConsole.Session

open Activity

def takeDevices (devices : List Device) : Activity Unit := do
  modify fun s => { s with devices }
  publish (.devices devices)

def takeHealth (health : Health) : Activity Unit := publish (.health health)

def takeLinks (table : LinkTable) : Activity Unit := do
  let now := (← scene).now
  modify fun s => { s with monitor := s.monitor.ingest table.rows table.batchMeta now }
  publish (.links ((← scene).state.view now))

/-- Only what an update carries is taken in. -/
def takeStatus (update : StatusUpdate) : Activity Unit := do
  if update.panId.isSome || update.channel.isSome || update.shortAddr.isSome then
    publish (.gatewayInfo update.panId update.channel update.shortAddr)
  match update.devices with
  | some devices => takeDevices devices
  | none => pure ()

def takePayload : Push.Payload → Activity Unit
  | .devices devices => takeDevices devices
  | .health health => takeHealth health
  | .links table => takeLinks table
  | .status update => takeStatus update

/-- Pulls the gateway's status. -/
def refreshStatus : Activity (Except Fault Unit) := do
  match ← ask .status with
  | .error why => return .error why
  | .ok status =>
    takeStatus status.update
    return .ok ()

/-- Reports a failed pull, unless the caller has given up. -/
def reportPullError (what : Text) (why : Fault) : Activity Unit := do
  if !(← scene).cancelled then
    log (("reconcile " : Text) ++ what ++ ": " ++ why.message)
    publish (.clientError (some (.within what why)) "reconcile" .warning)

def pullHealth : Activity Unit := do
  match ← ask .health with
  | .error why => reportPullError "health" why
  | .ok health => takeHealth health

def pullLinks : Activity Unit := do
  match ← ask .links with
  | .error why => reportPullError "lqi" why
  | .ok table => takeLinks table

/-- Pulls status, health and link table; a pull that fails keeps none of the others back. -/
def reconcile : Activity Unit := do
  match ← refreshStatus with
  | .error why => reportPullError "status" why
  | .ok () => pure ()
  pullHealth
  pullLinks

end MeshConsole.Session
