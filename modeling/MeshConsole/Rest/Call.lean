import MeshConsole.Gateway.Device
import MeshConsole.Gateway.Health
import MeshConsole.Gateway.Job
import MeshConsole.Gateway.Limits
import MeshConsole.Gateway.LinkTable

/-!
# Calls on the gateway

What the console may ask of a gateway, and what each call is answered with.
-/

namespace MeshConsole.Rest

inductive Call where
  | status
  | health
  | links
  | submitJob (request : JobRequest)
  | job (id : Int64)
  | permitJoin
  | control (command : Command)
  | delete (addr : UInt16)
  | rename (addr : UInt16) (name : Text)
  | saveWifi (credentials : Credentials)

inductive Method where
  | get
  | post
  deriving Repr, DecidableEq

namespace Method

def name : Method → Text
  | .get => "GET"
  | .post => "POST"

/-- How a failed exchange names the method. -/
def verb : Method → Text
  | .get => "Get"
  | .post => "Post"

end Method

namespace Call

/-- What a call is answered with; a call that changes the gateway is answered with a message. -/
abbrev Reply : Call → Type
  | .status => Status
  | .health => Health
  | .links => LinkTable
  | .submitJob _ => JobReceipt
  | .job _ => JobReport
  | .permitJoin => Text
  | .control _ => Text
  | .delete _ => Text
  | .rename _ _ => Text
  | .saveWifi _ => Text

/-- The first limit of the gateway that the call would break. -/
def check : Call → Except Limit Unit
  | .control command => command.check
  | .delete addr => checkShortAddr addr
  | .rename addr name =>
    match checkShortAddr addr with
    | .error limit => .error limit
    | .ok () => checkDeviceName name
  | .saveWifi credentials => credentials.check
  | _ => .ok ()

def method : Call → Method
  | .status => .get
  | .health => .get
  | .links => .get
  | .job _ => .get
  | _ => .post

/-- The path below the base path. -/
def path : Call → Text
  | .status => "/status"
  | .health => "/health"
  | .links => "/lqi"
  | .submitJob _ => "/jobs"
  | .job id => ("/jobs/" : Text) ++ Text.ofInt id.toInt
  | .permitJoin => "/permit_join"
  | .control _ => "/control"
  | .delete _ => "/delete"
  | .rename _ _ => "/rename"
  | .saveWifi _ => "/settings/wifi"

/-- A device by its address, with a name unless it is empty. -/
def deviceRef (addr : UInt16) (name : Text) : Json.Value :=
  .object (("short_addr", .int addr.toNat) ::
    if name.isEmpty then [] else [("name", .text name)])

def body? : Call → Option Json.Value
  | .submitJob request => some request.toJson
  | .permitJoin => some (.object [])
  | .control command => some command.toJson
  | .delete addr => some (deviceRef addr [])
  | .rename addr name => some (deviceRef addr name)
  | .saveWifi credentials => some credentials.toJson
  | _ => none

/-- The id by which a submission is traced. -/
def requestId? : Call → Option Text
  | .submitJob request => if request.requestId.isEmpty then none else some request.requestId
  | _ => none

/-- The reply for an answer that carries nothing. -/
def emptyReply : (call : Call) → call.Reply
  | .status => {}
  | .health => {}
  | .links => {}
  | .submitJob _ => {}
  | .job _ => {}
  | .permitJoin => []
  | .control _ => []
  | .delete _ => []
  | .rename _ _ => []
  | .saveWifi _ => []

/-- The `message` of an answer. -/
def messageReader : Json.Reader Text :=
  .record ["message"] fun old members => Json.Reader.field "message" Json.Reader.text old members

def reader : (call : Call) → Json.Reader call.Reply
  | .status => Status.reader
  | .health => Health.reader
  | .links => LinkTable.reader
  | .submitJob _ => JobReceipt.reader
  | .job _ => JobReport.reader
  | .permitJoin => messageReader
  | .control _ => messageReader
  | .delete _ => messageReader
  | .rename _ _ => messageReader
  | .saveWifi _ => messageReader

end Call

end MeshConsole.Rest
