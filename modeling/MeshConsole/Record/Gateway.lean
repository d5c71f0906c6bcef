import MeshConsole.Gateway.Job
import MeshConsole.Push.Link
import MeshConsole.Radio.View
import MeshConsole.Rest.Client

/-!
# Records of what a gateway reports

Plain records of the console's values, for tools that look at them. They are not what travels
between console and gateway.
-/

namespace MeshConsole.Record

open Json (Value Members)

def nat (n : Nat) : Value := .int n

def device (d : Device) : Value :=
  .object [("addr", nat d.addr.toNat), ("name", .text d.name)]

def devices (ds : List Device) : Value := .list (ds.map device)

def zigbee (z : ZigbeeHealth) : Value :=
  .object [
    ("started", .bool z.started),
    ("pan_id", nat z.panId.toNat),
    ("channel", .int z.channel.toInt),
    ("short_addr", nat z.shortAddr.toNat)]

def wifi (w : WifiHealth) : Value :=
  .object [
    ("sta_connected", .bool w.staConnected),
    ("fallback_ap_active", .bool w.fallbackApActive),
    ("active_ssid", .text w.activeSsid),
    ("rssi", .ofOption (fun n => .int n.toInt) w.rssi),
    ("link_quality", .text w.linkQuality),
    ("ip", .text w.ip)]

def storage (s : StorageHealth) : Value := .object [("schema_version", .int s.schemaVersion.toInt)]

def system (s : SystemHealth) : Value :=
  .object [
    ("uptime_ms", nat s.uptimeMs.toNat),
    ("heap_free", nat s.heapFree.toNat),
    ("heap_min", nat s.heapMin.toNat),
    ("heap_largest_block", nat s.heapLargestBlock.toNat),
    ("temperature_c", .ofOption .real s.temperature)]

def healthError (e : HealthError) : Value :=
  .object [("source", .text e.source), ("message", .text e.message), ("code", .int e.code.toInt)]

/-- An absent error list counts as empty. -/
def health (h : Health) : Value :=
  .object [
    ("zigbee", .ofOption zigbee h.zigbee),
    ("wifi", .ofOption wifi h.wifi),
    ("nvs", .ofOption storage h.storage),
    ("system", .ofOption system h.system),
    ("errors", .list ((h.errors.getD []).map healthError))]

def neighbor (n : Neighbor) : Value :=
  .object [
    ("addr", nat n.addr.toNat),
    ("name", .text n.name),
    ("lqi", .ofOption (fun v => .int v.toInt) n.lqi),
    ("rssi", .ofOption (fun v => .int v.toInt) n.rssi),
    ("quality", .text n.quality),
    ("direct", .bool n.direct),
    ("source", .text n.source),
    ("updated_ms", nat n.updatedMs.toNat)]

def linkTable (t : LinkTable) : Value :=
  .object [
    ("neighbors", .list (t.rows.map neighbor)),
    ("source", .text t.source),
    ("updated_ms", nat t.updatedMs.toNat)]

def statusUpdate (u : StatusUpdate) : Value :=
  .object [
    ("pan_id", .ofOption (fun v => nat v.toNat) u.panId),
    ("channel", .ofOption (fun v => .int v.toInt) u.channel),
    ("short_addr", .ofOption (fun v => nat v.toNat) u.shortAddr),
    ("devices", .ofOption devices u.devices)]

def network (n : Network) : Value :=
  .object [("ssid", .text n.ssid), ("rssi", .int n.rssi.toInt), ("auth", .int n.auth.toInt)]

def networks (ns : List Network) : Value := .list (ns.map network)

def receipt (r : JobReceipt) : Value :=
  .object [("job_id", .int r.id.toInt), ("type", .text r.type), ("state", .text r.state)]

def report (r : JobReport) : Value :=
  .object [
    ("job_id", .int r.id.toInt),
    ("type", .text r.type),
    ("state", .text r.state),
    ("done", .bool r.done),
    ("created_ms", nat r.createdMs.toNat),
    ("updated_ms", nat r.updatedMs.toNat),
    ("error", .text (r.error.getD [])),
    ("result", .text (r.result.getD []))]

def payload : Push.Payload → Value
  | .devices ds => devices ds
  | .health h => health h
  | .links t => linkTable t
  | .status u => statusUpdate u

def hint (h : Radio.Hint) : Value :=
  .object [
    ("kind", .text h.kind.name),
    ("addr", nat h.addr.toNat),
    ("name", .text h.name),
    ("quality", .text ((h.quality.map (·.name)).getD [])),
    ("count", .int h.count)]

def hints (hs : List Radio.Hint) : Value := .list (hs.map hint)

def batchMeta (b : BatchMeta) : Value :=
  .object [("source", .text b.source), ("updated_ms", nat b.updatedMs.toNat)]

def row (r : Radio.Row) : Value :=
  .object [
    ("addr", nat r.addr.toNat),
    ("name", .text r.name),
    ("lqi", .ofOption (fun v => .int v.toInt) r.lqi),
    ("rssi", .ofOption (fun v => .int v.toInt) r.rssi),
    ("quality", .text ((r.quality.map (·.name)).getD [])),
    ("score", nat r.score),
    ("direct", .bool r.direct),
    ("source", .text ((r.source.map (·.name)).getD [])),
    ("updated_ms", nat r.updatedMs.toNat),
    ("trend", .text ((r.trend.map (·.name)).getD [])),
    ("points", nat r.points)]

def view (v : Radio.View) : Value :=
  .object [
    ("rows", .list (v.rows.map row)),
    ("meta", batchMeta v.batch),
    ("has_meta", .bool v.hasBatch),
    ("age_seconds", .int v.ageSeconds),
    ("stale", .bool v.stale),
    ("hints", hints v.hints),
    ("mgmt_lqi_without_rssi", .bool v.mgmtLqiWithoutRssi)]

def link (l : Push.Link) : Value :=
  .object [
    ("state", .text l.state.name),
    ("last_seq", nat l.lastSeq.toNat),
    ("retry_attempt", nat l.retryAttempt),
    ("next_delay_ns", .int l.nextDelay.toInt)]

def response (r : Rest.Response) : Value :=
  .object [
    ("status", .int r.status),
    ("content_type", .text r.contentType),
    ("location", .text r.location),
    ("body", .text r.body)]

def requestFields (r : Rest.Request) : Members := [
  ("request", .text (r.method.name ++ " " ++ r.url.text)),
  ("headers", .map (r.headers.map fun (name, value) => (name, .text value))),
  ("body", .text (r.body.getD []))]

end MeshConsole.Record
