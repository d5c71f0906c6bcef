import MeshConsole.Fault
import MeshConsole.Radio.View

/-!
# Events

What the console reports of its work as it happens.
-/

namespace MeshConsole.Telemetry

/-- Why a message was dropped, by its name. -/
structure DropReason where
  name : Text
  deriving Repr, DecidableEq

namespace DropReason

def malformed : DropReason := ⟨"malformed"⟩
def duplicate : DropReason := ⟨"duplicate"⟩
def unknownType : DropReason := ⟨"unknown_type"⟩

end DropReason

/-- How grave a client error is; levels outside the scale have no name of their own. -/
structure Severity where
  level : Int
  deriving Repr, DecidableEq

namespace Severity

def info : Severity := ⟨0⟩
def warning : Severity := ⟨1⟩
def error : Severity := ⟨2⟩
def critical : Severity := ⟨3⟩

def name (s : Severity) : Text :=
  if s = info then "info"
  else if s = warning then "warning"
  else if s = error then "error"
  else if s = critical then "critical"
  else "unknown"

end Severity

/-- A job has come to a state. A reason is given for failures only. -/
structure JobChange where
  id : Int64 := 0
  type : Text := []
  label : Text := []
  state : Text := []
  reason : Text := []
  requestId : Text := []
  deriving Repr, DecidableEq

inductive Event where
  /-- `attempt` counts the failures since the link was last open. -/
  | connection (url : Text) (connected : Bool) (attempt : Int)
  | received (kind : Text) (seq : UInt64)
  | dropped (reason : DropReason) (seq : UInt64)
  | versionMismatch (expected got : Int64)
  | devices (devices : List Device)
  | gatewayInfo (panId : Option UInt16) (channel : Option Int64) (shortAddr : Option UInt16)
  | health (health : Health)
  | links (view : Radio.View)
  | job (change : JobChange)
  | clientError (fault : Option Fault) (context : Text) (severity : Severity)
  deriving Repr, DecidableEq

def Event.name : Event → Text
  | .connection .. => "connection_status_changed"
  | .received .. => "message_received"
  | .dropped .. => "message_dropped"
  | .versionMismatch .. => "protocol_version_mismatch"
  | .devices _ => "devices_updated"
  | .gatewayInfo .. => "gateway_info_updated"
  | .health _ => "health_updated"
  | .links _ => "link_quality_updated"
  | .job _ => "job_state_changed"
  | .clientError .. => "client_error"

end MeshConsole.Telemetry
