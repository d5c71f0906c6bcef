import MeshConsole.Json.Reader
import MeshConsole.Json.Value

/-!
# Request limits

What the gateway accepts in the requests that change it. The console checks a request against the
same limits before it is sent.
-/

namespace MeshConsole

/-- The limit a request breaks. -/
inductive Limit where
  | shortAddress
  | endpoint
  | command
  | ssid
  | password
  | deviceName
  deriving Repr, DecidableEq

def Limit.message : Limit → Text
  | .shortAddress => "short address must be 0x0001..0xFFFF"
  | .endpoint => "endpoint must be 1..240"
  | .command => "command must be 0 or 1"
  | .ssid => "ssid must be 1..32 bytes"
  | .password => "password must be 8..64 characters"
  | .deviceName => "name must be 1..31 bytes"

def maxEndpoint : Nat := 240

/-- An on/off command for one endpoint of a device. -/
structure Command where
  addr : UInt16 := 0
  endpoint : UInt8 := 0
  switch : UInt8 := 0
  deriving Repr, DecidableEq, Inhabited

/-- Station credentials. -/
structure Credentials where
  ssid : Text := []
  password : Text := []
  deriving Repr, DecidableEq, Inhabited

/-- The first of these limits that is broken, if any. -/
def firstBroken : List (Bool × Limit) → Except Limit Unit
  | [] => .ok ()
  | (holds, limit) :: rest => if holds then firstBroken rest else .error limit

def checkShortAddr (addr : UInt16) : Except Limit Unit :=
  firstBroken [(addr != 0, .shortAddress)]

def Command.check (c : Command) : Except Limit Unit :=
  firstBroken [
    (c.addr != 0, .shortAddress),
    (c.endpoint != 0 && c.endpoint.toNat ≤ maxEndpoint, .endpoint),
    (c.switch == 0 || c.switch == 1, .command)]

/-- Lengths are counted in bytes. -/
def Credentials.check (c : Credentials) : Except Limit Unit :=
  firstBroken [
    (!c.ssid.isEmpty && c.ssid.length ≤ 32, .ssid),
    (8 ≤ c.password.length && c.password.length ≤ 64, .password)]

def checkDeviceName (name : Text) : Except Limit Unit :=
  firstBroken [(!name.isEmpty && name.length ≤ 31, .deviceName)]

def Command.toJson (c : Command) : Json.Value :=
  .object [
    ("addr", .int c.addr.toNat),
    ("ep", .int c.endpoint.toNat),
    ("cmd", .int c.switch.toNat)]

def Credentials.toJson (c : Credentials) : Json.Value :=
  .object [("ssid", .text c.ssid), ("password", .text c.password)]

open Json (Reader)

def Credentials.reader : Reader Credentials :=
  .record ["ssid", "password"] fun old members => do
    return {
      ssid := ← Reader.field "ssid" Reader.text old.ssid members
      password := ← Reader.field "password" Reader.text old.password members }

end MeshConsole
