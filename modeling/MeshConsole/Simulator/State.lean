import MeshConsole.Gateway.Device
import MeshConsole.Gateway.Health
import MeshConsole.Gateway.Job
import MeshConsole.Gateway.Limits
import MeshConsole.Gateway.LinkTable
import MeshConsole.Instant
import MeshConsole.Push.Message
import MeshConsole.Radio.Quality
import MeshConsole.Table

/-!
# The simulated gateway

A gateway in memory that serves the REST calls and pushes a frame for every change of its device
list and of its link table.
-/

namespace MeshConsole

namespace Simulator

/-- A job of the simulator. It moves on by one step with every poll. -/
structure SimJob where
  id : Int64
  type : Text
  delayMs : Int64 := 0
  state : Text := "queued"
  polls : Int := 0
  createdMs : UInt64 := 0
  updatedMs : UInt64 := 0
  failure : Text := []
  result : Option Json.Value := none

/-- What the simulator does beside answering. -/
inductive Effect where
  | log (line : Text)
  /-- A frame for every client of the push channel. -/
  | push (frame : Text)
  deriving Repr, DecidableEq

end Simulator

open Simulator (Effect SimJob)

structure Simulator where
  started : Instant := 0
  status : Status := { panId := 0x1234, channel := 15 }
  health : Health := {
    zigbee := some { started := true, panId := 0x1234, channel := 15 }
    wifi := some {
      staConnected := true, activeSsid := "gateway-lab", linkQuality := "good"
      ip := "192.168.4.1" }
    storage := some { schemaVersion := 1 }
    system := some { heapFree := 180000, heapMin := 150000, heapLargestBlock := 90000 }
    errors := some [] }
  neighbors : List Neighbor := []
  source : Text := "neighbor_table"
  /-- The uptime at which the link table last changed. -/
  tableMs : UInt64 := 0
  networks : List Network := []
  /-- Job types that fail, with what they fail with. -/
  failures : Table Text Text := []
  version : Int := Push.protocolVersion.toInt
  joinUntil : Option Instant := none
  commands : List Command := []
  wifi : Option Credentials := none
  jobs : Table Int64 SimJob := []
  lastJobId : Int64 := 0
  seq : UInt64 := 0
  /-- How many polls a job takes to its end. -/
  pollsToComplete : Int := 2

namespace Simulator

def devices (s : Simulator) : List Device := s.status.devices.getD []

def uptimeMs (s : Simulator) (now : Instant) : UInt64 :=
  UInt64.ofInt ((now.since s.started) / Duration.millisecond).toInt

def isJoinOpen (s : Simulator) (now : Instant) : Bool :=
  match s.joinUntil with
  | none => false
  | some limit => now < limit

/-- The table with its description; a table is always sent as a list. -/
def linkTable (s : Simulator) : LinkTable where
  neighbors := some s.neighbors
  source := s.source
  updatedMs := s.tableMs

/-- A frame of the push channel; nothing when the data cannot be written. -/
def frame? (s : Simulator) (now : Instant) (seq : UInt64) (type : Text) (data : Json.Value) :
    Option Text :=
  (Json.Value.map [
    ("version", .int s.version),
    ("seq", .int seq.toNat),
    ("ts", .int now.unixSeconds),
    ("type", .text type),
    ("data", data)]).render?

/-- Pushes a message. It takes the next sequence number even when it cannot be written. -/
def broadcast (s : Simulator) (now : Instant) (type : Text) (data : Json.Value) :
    Simulator × List Effect :=
  let seq := s.seq + 1
  let effect :=
    match s.frame? now seq type data with
    | some frame => .push frame
    | none => .log (("marshal " : Text) ++ type ++ " push: <json>")
  ({ s with seq }, [effect])

/-- Replaces the device list and pushes it; no list is pushed as `null`. -/
def setDevices (s : Simulator) (now : Instant) (devices : Option (List Device)) :
    Simulator × List Effect :=
  let data := Json.Value.ofOption (fun devices => .list (devices.map Device.toJson)) devices
  { s with status := { s.status with devices := some (devices.getD []) } }.broadcast now
    "devices_delta" (.map [("devices", data)])

/-- Moves the table's time on by at least one millisecond, so that every update is a new batch. -/
def touchTable (s : Simulator) (now : Instant) : Simulator :=
  { s with tableMs := max (s.uptimeMs now) (s.tableMs + 1) }

def pushTable (s : Simulator) (now : Instant) : Simulator × List Effect :=
  s.broadcast now "lqi_update" s.linkTable.toJson

/-- Replaces the link table and pushes it; a row without a source takes the table's. -/
def setNeighbors (s : Simulator) (now : Instant) (source : Text) (rows : List Neighbor) :
    Simulator × List Effect :=
  let s := { s with source }.touchTable now
  let row := fun n : Neighbor =>
    { n with updatedMs := s.tableMs, source := if n.source.isEmpty then source else n.source }
  { s with neighbors := rows.map row }.pushTable now

/-- The quality that a link quality indicator is graded as. -/
def grade (lqi : Int64) : Radio.Quality :=
  if lqi ≤ 0 then .unknown
  else if 180 ≤ lqi then .good
  else if 120 ≤ lqi then .warn
  else .bad

/-- Grades every row that has an indicator anew and pushes the table. -/
def refreshTable (s : Simulator) (now : Instant) : Simulator × List Effect :=
  let s := s.touchTable now
  let row := fun n : Neighbor =>
    { n with
      updatedMs := s.tableMs
      quality :=
        match n.lqi with
        | some lqi => (grade lqi).name
        | none => n.quality }
  { s with neighbors := s.neighbors.map row }.pushTable now

/-- Moves every indicator by what `delta` says for its address, within 1 to 255. -/
def drift (s : Simulator) (now : Instant) (delta : UInt16 → Int64) : Simulator × List Effect :=
  let moved := fun n : Neighbor =>
    { n with lqi := n.lqi.map fun lqi => min (max (lqi + delta n.addr) 1) 255 }
  { s with neighbors := s.neighbors.map moved }.refreshTable now

/-- The demo network of `count` devices; every other one is a direct neighbour. -/
def seed (s : Simulator) (now : Instant) (count : Nat) : Simulator × List Effect :=
  let addr := fun i : Nat => (0x1001 + i).toUInt16
  let name := fun i : Nat => ("Device " : Text) ++ Text.ofNat (i + 1)
  let device := fun i : Nat => ({ addr := addr i, name := name i } : Device)
  let neighbor := fun i : Nat =>
    ({ addr := addr i, name := name i, direct := i % 2 == 0
       lqi := some (Int64.ofInt (max (220 - (i : Int) * 40) 20)) } : Neighbor)
  let (s, pushedDevices) := s.setDevices now (some ((List.range count).map device))
  let (s, pushedTable) := s.setNeighbors now "neighbor_table" ((List.range count).map neighbor)
  let (s, pushedGrades) := s.drift now fun _ => 0
  let networks : List Network := [
    { ssid := "gateway-lab", rssi := -48, auth := 3 },
    { ssid := "guest", rssi := -71, auth := 0 },
    { ssid := "workshop", rssi := -63, auth := 4 }]
  ({ s with networks }, pushedDevices ++ pushedTable ++ pushedGrades)

end Simulator

end MeshConsole
