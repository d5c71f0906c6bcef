import MeshConsole.Json.Reader
import MeshConsole.Json.Value

/-!
# Gateway jobs

Jobs run on the gateway: the request that queues one, the receipt for it, the report on its state,
and the access points that a scan finds.
-/

namespace MeshConsole

/-- A job type with the fields its request carries beside the type. -/
structure JobRequest where
  type : Text
  payload : List (Text × Json.Value) := []
  requestId : Text := []

/-- The payload's fields and the type in one object; a payload cannot name another type. -/
def JobRequest.toJson (r : JobRequest) : Json.Value :=
  let type : Text := "type"
  .map ((type, .text r.type) :: r.payload.filter fun member => member.1 != type)

/-- What the gateway answers to a request. -/
structure JobReceipt where
  id : Int64 := 0
  type : Text := []
  state : Text := []
  deriving Repr, DecidableEq, Inhabited

/-- The state of a job. Its error and its result are kept as written. -/
structure JobReport where
  id : Int64 := 0
  type : Text := []
  state : Text := []
  done : Bool := false
  createdMs : UInt64 := 0
  updatedMs : UInt64 := 0
  error : Option Text := none
  result : Option Text := none
  deriving Repr, DecidableEq, Inhabited

/-- An access point found by a scan. -/
structure Network where
  ssid : Text := []
  rssi : Int64 := 0
  auth : Int64 := 0
  deriving Repr, DecidableEq, Inhabited

/-- Strongest first; networks of equal strength keep their order. -/
def Network.strongestFirst (networks : List Network) : List Network :=
  networks.mergeSort fun a b => b.rssi ≤ a.rssi

open Json (Reader)

def JobReceipt.reader : Reader JobReceipt :=
  .record ["job_id", "type", "state"] fun old members => do
    return {
      id := ← Reader.field "job_id" Reader.int64 old.id members
      type := ← Reader.field "type" Reader.text old.type members
      state := ← Reader.field "state" Reader.text old.state members }

def JobReport.reader : Reader JobReport :=
  .record ["job_id", "type", "state", "done", "created_ms", "updated_ms", "error", "result"]
    fun old members => do
      return {
        id := ← Reader.field "job_id" Reader.int64 old.id members
        type := ← Reader.field "type" Reader.text old.type members
        state := ← Reader.field "state" Reader.text old.state members
        done := ← Reader.field "done" Reader.bool old.done members
        createdMs := ← Reader.field "created_ms" Reader.uint64 old.createdMs members
        updatedMs := ← Reader.field "updated_ms" Reader.uint64 old.updatedMs members
        error := (← Reader.rawField "error" none members).map Prod.snd
        result := (← Reader.rawField "result" none members).map Prod.snd }

def Network.reader : Reader Network :=
  .record ["ssid", "rssi", "auth"] fun old members => do
    return {
      ssid := ← Reader.field "ssid" Reader.text old.ssid members
      rssi := ← Reader.field "rssi" Reader.int64 old.rssi members
      auth := ← Reader.field "auth" Reader.int64 old.auth members }

/-- The networks of a scan's result. -/
def Network.listReader : Reader (Option (List Network)) :=
  .record ["networks"] fun old members => Reader.listField "networks" {} Network.reader old members

def Network.toJson (n : Network) : Json.Value :=
  .object [("ssid", .text n.ssid), ("rssi", .int n.rssi.toInt), ("auth", .int n.auth.toInt)]

def JobReceipt.toJson (r : JobReceipt) : Json.Value :=
  .object [("job_id", .int r.id.toInt), ("type", .text r.type), ("state", .text r.state)]

end MeshConsole
