import MeshConsole.Json.Reader
import MeshConsole.Json.Value

/-!
# Gateway health

Radio, Wi-Fi, storage and system state as the gateway reports them. A part that was not reported is
absent.
-/

namespace MeshConsole

structure ZigbeeHealth where
  started : Bool := false
  panId : UInt16 := 0
  channel : Int64 := 0
  shortAddr : UInt16 := 0
  deriving Repr, DecidableEq, Inhabited

structure WifiHealth where
  staConnected : Bool := false
  fallbackApActive : Bool := false
  activeSsid : Text := []
  rssi : Option Int64 := none
  linkQuality : Text := []
  ip : Text := []
  deriving Repr, DecidableEq, Inhabited

/-- The layout version of the persisted settings. -/
structure StorageHealth where
  schemaVersion : Int64 := 0
  deriving Repr, DecidableEq, Inhabited

structure SystemHealth where
  uptimeMs : UInt64 := 0
  heapFree : UInt32 := 0
  heapMin : UInt32 := 0
  heapLargestBlock : UInt32 := 0
  temperature : Option Binary64 := none
  deriving Repr, DecidableEq, Inhabited

/-- One entry of the gateway's own error list. -/
structure HealthError where
  source : Text := []
  message : Text := []
  code : Int32 := 0
  deriving Repr, DecidableEq, Inhabited

structure Health where
  zigbee : Option ZigbeeHealth := none
  wifi : Option WifiHealth := none
  storage : Option StorageHealth := none
  system : Option SystemHealth := none
  errors : Option (List HealthError) := none
  deriving Repr, DecidableEq, Inhabited

open Json (Reader)

def ZigbeeHealth.reader : Reader ZigbeeHealth :=
  .record ["started", "pan_id", "channel", "short_addr"] fun old members => do
    return {
      started := ← Reader.field "started" Reader.bool old.started members
      panId := ← Reader.field "pan_id" Reader.uint16 old.panId members
      channel := ← Reader.field "channel" Reader.int64 old.channel members
      shortAddr := ← Reader.field "short_addr" Reader.uint16 old.shortAddr members }

def WifiHealth.reader : Reader WifiHealth :=
  .record ["sta_connected", "fallback_ap_active", "active_ssid", "rssi", "link_quality", "ip"]
    fun old members => do
      return {
        staConnected := ← Reader.field "sta_connected" Reader.bool old.staConnected members
        fallbackApActive :=
          ← Reader.field "fallback_ap_active" Reader.bool old.fallbackApActive members
        activeSsid := ← Reader.field "active_ssid" Reader.text old.activeSsid members
        rssi := ← Reader.field "rssi" (Reader.optional 0 Reader.int64) old.rssi members
        linkQuality := ← Reader.field "link_quality" Reader.text old.linkQuality members
        ip := ← Reader.field "ip" Reader.text old.ip members }

def StorageHealth.reader : Reader StorageHealth :=
  .record ["schema_version"] fun old members => do
    return {
      schemaVersion := ← Reader.field "schema_version" Reader.int64 old.schemaVersion members }

def SystemHealth.reader : Reader SystemHealth :=
  .record ["uptime_ms", "heap_free", "heap_min", "heap_largest_block", "temperature_c"]
    fun old members => do
      return {
        uptimeMs := ← Reader.field "uptime_ms" Reader.uint64 old.uptimeMs members
        heapFree := ← Reader.field "heap_free" Reader.uint32 old.heapFree members
        heapMin := ← Reader.field "heap_min" Reader.uint32 old.heapMin members
        heapLargestBlock :=
          ← Reader.field "heap_largest_block" Reader.uint32 old.heapLargestBlock members
        temperature :=
          ← Reader.field "temperature_c" (Reader.optional (Binary64.zero false) Reader.binary64)
              old.temperature members }

def HealthError.reader : Reader HealthError :=
  .record ["source", "message", "code"] fun old members => do
    return {
      source := ← Reader.field "source" Reader.text old.source members
      message := ← Reader.field "message" Reader.text old.message members
      code := ← Reader.field "code" Reader.int32 old.code members }

def Health.reader : Reader Health :=
  .record ["zigbee", "wifi", "nvs", "system", "errors"] fun old members => do
    return {
      zigbee := ← Reader.field "zigbee" (Reader.optional {} ZigbeeHealth.reader) old.zigbee members
      wifi := ← Reader.field "wifi" (Reader.optional {} WifiHealth.reader) old.wifi members
      storage := ← Reader.field "nvs" (Reader.optional {} StorageHealth.reader) old.storage members
      system := ← Reader.field "system" (Reader.optional {} SystemHealth.reader) old.system members
      errors := ← Reader.listField "errors" {} HealthError.reader old.errors members }

def ZigbeeHealth.toJson (h : ZigbeeHealth) : Json.Value :=
  .object [
    ("started", .bool h.started),
    ("pan_id", .int h.panId.toNat),
    ("channel", .int h.channel.toInt),
    ("short_addr", .int h.shortAddr.toNat)]

def WifiHealth.toJson (h : WifiHealth) : Json.Value :=
  .object [
    ("sta_connected", .bool h.staConnected),
    ("fallback_ap_active", .bool h.fallbackApActive),
    ("active_ssid", .text h.activeSsid),
    ("rssi", .ofOption (fun n => .int n.toInt) h.rssi),
    ("link_quality", .text h.linkQuality),
    ("ip", .text h.ip)]

def StorageHealth.toJson (h : StorageHealth) : Json.Value :=
  .object [("schema_version", .int h.schemaVersion.toInt)]

def SystemHealth.toJson (h : SystemHealth) : Json.Value :=
  .object [
    ("uptime_ms", .int h.uptimeMs.toNat),
    ("heap_free", .int h.heapFree.toNat),
    ("heap_min", .int h.heapMin.toNat),
    ("heap_largest_block", .int h.heapLargestBlock.toNat),
    ("temperature_c", .ofOption .real h.temperature)]

def HealthError.toJson (e : HealthError) : Json.Value :=
  .object [("source", .text e.source), ("message", .text e.message), ("code", .int e.code.toInt)]

/-- An absent part is left out; an absent error list is written as `null`. -/
def Health.toJson (h : Health) : Json.Value :=
  let part := fun (name : Text) (value : Option Json.Value) => (value.map (name, ·)).toList
  let errors := Json.Value.ofOption (fun errors => .list (errors.map HealthError.toJson)) h.errors
  .object <|
    part "zigbee" (h.zigbee.map ZigbeeHealth.toJson) ++
    part "wifi" (h.wifi.map WifiHealth.toJson) ++
    part "nvs" (h.storage.map StorageHealth.toJson) ++
    part "system" (h.system.map SystemHealth.toJson) ++
    part "errors" (some errors)

end MeshConsole
