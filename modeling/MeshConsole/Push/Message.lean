import MeshConsole.Gateway.Device
import MeshConsole.Gateway.Health
import MeshConsole.Gateway.LinkTable
import MeshConsole.Json.Strict
import MeshConsole.Json.Peek

/-!
# Push messages

A frame of the push channel in canonical form. Only this module knows of the envelope around a
message, of the names a message type goes by, and of the flat status message that names no type.
-/

namespace MeshConsole.Push

/-- The protocol version the console understands. -/
def protocolVersion : Int64 := 1

/-- Why a frame or its payload cannot be used. -/
inductive Malformed where
  | frame
  | envelopeWithoutData
  | devicesNotArray
  | emptyPayload
  | payload
  deriving Repr, DecidableEq

def Malformed.message : Malformed → Text
  | .frame => "malformed message"
  | .envelopeWithoutData => "malformed message: envelope without data object"
  | .devicesNotArray => "malformed message: devices is not an array"
  | .emptyPayload => "malformed message: empty payload"
  | .payload => "malformed message: <json>"

inductive Kind where
  | devicesDelta
  | healthState
  | linkUpdate
  | legacyStatus
  | unknown
  deriving Repr, DecidableEq

def Kind.name : Kind → Text
  | .devicesDelta => "devices_delta"
  | .healthState => "health_state"
  | .linkUpdate => "lqi_update"
  | .legacyStatus => "legacy_status"
  | .unknown => "unknown"

/-- The kind a message type stands for; link updates go by two names. -/
def Kind.ofType? (type : Text) : Option Kind :=
  if type == "devices_delta" then some .devicesDelta
  else if type == "health_state" then some .healthState
  else if type == "lqi_update" || type == "lqi_state" then some .linkUpdate
  else none

/-- A frame after unwrapping. `type` is the type as sent; `data` is the payload as written. -/
structure Message where
  kind : Kind
  type : Text := []
  seq : Option UInt64 := none
  version : Option Int64 := none
  ts : Int64 := 0
  data : Option Text := none
  deriving Repr, DecidableEq

/-- The value of a literal's digits, wrapped into 64 bits; a literal with anything but digits has
none. -/
def wrappedDigits? (literal : Text) : Option UInt64 :=
  if literal.isEmpty || !literal.all Ascii.isDigit then none
  else some (literal.foldl (fun n b => n * 10 + (b.toNat - 0x30).toUInt64) 0)

/-- The greatest magnitude below which every integer is a binary64 number. -/
def maxExact : Nat := Nat.pow 2 53 - 1

/-- The integer part of a number that lies within `maxExact`. -/
def exactInt? (value : Binary64) : Option Int :=
  match value.truncate? with
  | some n => if n.natAbs ≤ maxExact then some n else none
  | none => none

/-- A number literal that is not negative as a sequence number: cut to an integer while the number
is exact, else its digits modulo `2 ^ 64`. A large literal with a point or an exponent stands for
the integer nearest to it, or zero beyond 64 bits. -/
def sequence? (literal : Text) : Option UInt64 :=
  match Json.Strict.number? literal >>= Scientific.read? with
  | none => none
  | some scientific =>
    let value := scientific.toBinary64
    if !value.isAtLeastZero then none
    else
      match exactInt? value with
      | some n => some n.toNat.toUInt64
      | none =>
        match wrappedDigits? literal with
        | some n => some n
        | none =>
          match value.truncate? with
          | some n => some (if n < UInt64.size then n.toNat.toUInt64 else 0)
          | none => some 0

/-- A number literal as a signed integer: cut to an integer while the number is exact, else its
digits wrapped into 64 bits. A large literal with a point or an exponent stands for the integer
nearest to it, or the least integer beyond 64 bits. -/
def signed? (literal : Text) : Option Int64 :=
  match Json.Strict.number? literal >>= Scientific.read? with
  | none => none
  | some scientific =>
    let value := scientific.toBinary64
    match exactInt? value with
    | some n => some (Int64.ofInt n)
    | none =>
      let wrapped :=
        match literal with
        | Ascii.minus :: digits => (wrappedDigits? digits).map fun n => -n.toInt64
        | digits => (wrappedDigits? digits).map (·.toInt64)
      match wrapped with
      | some n => some n
      | none =>
        match value.truncate? with
        | some n =>
          if Int64.minValue.toInt ≤ n ∧ n ≤ Int64.maxValue.toInt then some (Int64.ofInt n)
          else some Int64.minValue
        | none => some Int64.minValue

/-- The fields that mark a flat status message; `null` counts as present. -/
def legacyKeys : List Text := ["pan_id", "channel", "short_addr", "devices"]

def isLegacy (root : Json.Strict.Object) : Bool := legacyKeys.any root.has

/-- The message an unwrapped object stands for. -/
def Message.ofObject (root : Json.Strict.Object) : Message :=
  let seq := root.get? "seq" >>= sequence?
  let version := root.get? "version" >>= signed?
  let ts := (root.get? "ts" >>= signed?).getD 0
  let type := (root.get? "type" >>= Json.Strict.string?).getD []
  match Kind.ofType? type with
  | some kind => { kind, type, seq, version, ts, data := root.get? "data" }
  | none =>
    if isLegacy root then { kind := .legacyStatus, type, seq, version, ts, data := some root.text }
    else { kind := .unknown, type, seq, version, ts }

/-- The object a frame is about: an object with a `status` member is an envelope around the object
in its `data`. -/
def unwrap (frame : Text) : Except Malformed Json.Strict.Object :=
  match Json.Strict.object? frame with
  | none => .error .frame
  | some root =>
    if root.has "status" then
      match root.get? "data" >>= Json.Strict.object? with
      | none => .error .envelopeWithoutData
      | some inner => .ok inner
    else .ok root

/-- Unwraps a frame and classifies it. -/
def decode (frame : Text) : Except Malformed Message := (unwrap frame).map Message.ofObject

/-- Reads a whole payload over `zero`. -/
def decodePayload (reader : Json.Reader α) (zero : α) (data : Text) : Except Malformed α :=
  if data.isEmpty then .error .emptyPayload
  else
    match Json.Tree.parse? data >>= reader zero with
    | none => .error .payload
    | some value => .ok value

/-- The device list of a payload. A payload whose `devices` is no array is malformed rather than an
empty list. -/
def decodeDevices (data : Text) : Except Malformed (List Device) :=
  match Json.Peek.member? "devices" data with
  | some .array => (decodePayload Device.listReader none data).map (·.getD [])
  | _ => .error .devicesNotArray

def decodeHealth (data : Text) : Except Malformed Health := decodePayload Health.reader {} data

def decodeLinkTable (data : Text) : Except Malformed LinkTable :=
  decodePayload LinkTable.reader {} data

def decodeLegacyStatus (data : Text) : Except Malformed StatusUpdate :=
  decodePayload StatusUpdate.reader {} data

/-- What a message carries, by kind. -/
inductive Payload where
  | devices (devices : List Device)
  | health (health : Health)
  | links (table : LinkTable)
  | status (update : StatusUpdate)
  deriving Repr, DecidableEq

/-- The payload of a message of a known kind. -/
def Message.payload? (m : Message) : Option (Except Malformed Payload) :=
  let data := m.data.getD []
  match m.kind with
  | .devicesDelta => some ((decodeDevices data).map .devices)
  | .healthState => some ((decodeHealth data).map .health)
  | .linkUpdate => some ((decodeLinkTable data).map .links)
  | .legacyStatus => some ((decodeLegacyStatus data).map .status)
  | .unknown => none

end MeshConsole.Push
