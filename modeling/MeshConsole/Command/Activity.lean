import MeshConsole.Command.Invocation
import MeshConsole.Session.Action

/-!
# What commands do

The activities behind the commands; each ends with the lines it prints.
-/

namespace MeshConsole.Command

open Session (Activity)

def deviceLines (devices : List Device) : List Text :=
  (Text.ofNat devices.length ++ " devices") ::
  devices.map fun d => ("  " : Text) ++ formatShortAddr d.addr ++ " " ++ d.name

def networkLines (networks : List Network) : List Text :=
  let line := fun (ssid rssi auth : Text) =>
    ssid.padRight 32 ++ " " ++ rssi.padLeft 6 ++ " " ++ auth
  match networks with
  | [] => ["No networks found"]
  | networks =>
    line "SSID" "RSSI" "AUTH" ::
    networks.map fun n => line n.ssid (Text.ofInt n.rssi.toInt) (Text.ofInt n.auth.toInt)

/-- A value that is absent shows as a dash. -/
def signal : Option Int64 → Text
  | none => "-"
  | some n => Text.ofInt n.toInt

def neighborLines (table : LinkTable) : List Text :=
  (Text.ofNat table.rows.length ++ " neighbors (source " ++
    (Radio.Source.ofLabel table.source).name ++ ")") ::
  table.rows.map fun n =>
    ("  " : Text) ++ formatShortAddr n.addr ++ " " ++ n.name.padRight 20 ++
    " lqi=" ++ signal n.lqi ++ " rssi=" ++ signal n.rssi ++ " " ++
    (Radio.Quality.ofLabel n.quality).name

/-- The line a job's change of state is shown as. -/
def jobLine (c : Telemetry.JobChange) : Text :=
  c.label ++ " (job " ++ Text.ofInt c.id.toInt ++ "): " ++ c.state ++
  if c.reason.isEmpty then [] else (": " : Text) ++ c.reason

/-- A failed job is told without its id. -/
def jobFault (fault : Fault) : Fault :=
  match fault.root with
  | .jobFailed _ type reason => .other (type ++ " failed: " ++ reason)
  | _ => fault

/-- Runs a job and goes on with its result. -/
def afterJob (job : Activity (Except Fault α))
    (next : α → Activity (Except Fault (List Text))) : Activity (Except Fault (List Text)) := do
  match ← job with
  | .error why => return .error (jobFault why)
  | .ok result => next result

def Task.activity : Task → Activity (Except Fault (List Text))
  | .scan => afterJob Session.scan fun networks => return .ok (networkLines networks)
  | .reboot delayMs => afterJob (Session.reboot delayMs) fun _ => return .ok []
  | .factoryReset => afterJob Session.factoryReset fun _ => return .ok []
  | .update => afterJob Session.update fun _ => return .ok []
  | .refreshLinks => afterJob Session.refreshLinks fun _ => do
    match ← Activity.ask .links with
    | .error why => return .error (.within "read neighbor table" why)
    | .ok table => return .ok (neighborLines table)

/-- Prints the message of a change, and then the device list. -/
def changeThenList (change : Activity (Except Fault Text)) :
    Activity (Except Fault (List Text)) := do
  match ← change with
  | .error why => return .error why
  | .ok message => return .ok (message :: deviceLines (← Activity.scene).state.devices)

def withMessage (change : Activity (Except Fault Text)) :
    Activity (Except Fault (List Text)) := do
  return (← change).map fun message => [message]

def DeviceTask.activity : DeviceTask → Activity (Except Fault (List Text))
  | .list => do
    match ← Session.refreshStatus with
    | .error why => return .error (.within "read status" why)
    | .ok () => return .ok (deviceLines (← Activity.scene).state.devices)
  | .permitJoin => withMessage Session.permitJoin
  | .control command => withMessage (Session.control command)
  | .delete addr => changeThenList (Session.deleteDevice addr)
  | .rename addr name => changeThenList (Session.renameDevice addr name)
  | .saveWifi credentials => withMessage (Session.saveWifi credentials)

end MeshConsole.Command
