import MeshConsole.Json.Reader
import MeshConsole.Json.Value

/-!
# Devices and the coordinator summary

The joined mesh nodes and what the gateway reports of its coordinator, whole in a status answer or
in part in a status push.
-/

namespace MeshConsole

/-- A 16-bit network address as `0xABCD`. -/
def formatShortAddr (addr : UInt16) : Text :=
  ("0x" : Text) ++ Text.upperAscii (Text.hexDigits 4 addr.toNat)

/-- One joined mesh node. -/
structure Device where
  addr : UInt16 := 0
  name : Text := []
  deriving Repr, DecidableEq, Inhabited

/-- The answer to a status request. The device list is absent when the answer carries none. -/
structure Status where
  panId : UInt16 := 0
  channel : Int64 := 0
  shortAddr : UInt16 := 0
  devices : Option (List Device) := none
  deriving Repr, DecidableEq, Inhabited

/-- A partial summary; an absent field was not sent. -/
structure StatusUpdate where
  panId : Option UInt16 := none
  channel : Option Int64 := none
  shortAddr : Option UInt16 := none
  devices : Option (List Device) := none
  deriving Repr, DecidableEq, Inhabited

/-- A status answer sends every field of the summary. -/
def Status.update (s : Status) : StatusUpdate where
  panId := some s.panId
  channel := some s.channel
  shortAddr := some s.shortAddr
  devices := s.devices

open Json (Reader)

def Device.reader : Reader Device :=
  .record ["short_addr", "name"] fun old members => do
    return {
      addr := ← Reader.field "short_addr" Reader.uint16 old.addr members
      name := ← Reader.field "name" Reader.text old.name members }

def Status.reader : Reader Status :=
  .record ["pan_id", "channel", "short_addr", "devices"] fun old members => do
    return {
      panId := ← Reader.field "pan_id" Reader.uint16 old.panId members
      channel := ← Reader.field "channel" Reader.int64 old.channel members
      shortAddr := ← Reader.field "short_addr" Reader.uint16 old.shortAddr members
      devices := ← Reader.listField "devices" {} Device.reader old.devices members }

def StatusUpdate.reader : Reader StatusUpdate :=
  .record ["pan_id", "channel", "short_addr", "devices"] fun old members => do
    return {
      panId := ← Reader.field "pan_id" (Reader.optional 0 Reader.uint16) old.panId members
      channel := ← Reader.field "channel" (Reader.optional 0 Reader.int64) old.channel members
      shortAddr :=
        ← Reader.field "short_addr" (Reader.optional 0 Reader.uint16) old.shortAddr members
      devices := ← Reader.listField "devices" {} Device.reader old.devices members }

/-- The `devices` field alone. -/
def Device.listReader : Reader (Option (List Device)) :=
  .record ["devices"] fun old members => Reader.listField "devices" {} Device.reader old members

def Device.toJson (d : Device) : Json.Value :=
  .object [("short_addr", .int d.addr.toNat), ("name", .text d.name)]

def Status.toJson (s : Status) : Json.Value :=
  .object [
    ("pan_id", .int s.panId.toNat),
    ("channel", .int s.channel.toInt),
    ("short_addr", .int s.shortAddr.toNat),
    ("devices", .ofOption (fun devices => .list (devices.map Device.toJson)) s.devices)]

end MeshConsole
