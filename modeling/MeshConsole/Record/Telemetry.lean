import MeshConsole.Record.Gateway
import MeshConsole.Telemetry.Board

/-!
# Records of faults, events and snapshots
-/

namespace MeshConsole.Record

open Json (Value Members)
open Telemetry (Event JobChange Snapshot)

/-- A fault that has a kind and a text alone. -/
def error (kind message : Text) : Value :=
  .object [("error", .text kind), ("message", .text message)]

/-- The kind of a fault is that of its cause; the text is the whole text. -/
def fault (f : Fault) : Value :=
  match f.root with
  | .jobFailed id type reason =>
    .object [
      ("error", .text "job_failed"), ("message", .text f.message), ("job_id", .int id.toInt),
      ("type", .text type), ("reason", .text reason)]
  | .rejected status code _ =>
    .object [
      ("error", .text "http"), ("message", .text f.message), ("status", .int status),
      ("code", .text code)]
  | .socket => .object [("error", .text "socket")]
  | .jobTimeout => error "job_timeout" f.message
  | .jobInProgress => error "job_in_progress" f.message
  | .invalidJobId => error "invalid_job_id" f.message
  | .limit _ => error "invalid_request" f.message
  | .malformed _ => error "malformed" f.message
  | .canceled => error "canceled" f.message
  | .deadline => error "deadline" f.message
  | _ => error "error" f.message

def jobFields (c : JobChange) : Members := [
  ("job_id", .int c.id.toInt),
  ("type", .text c.type),
  ("label", .text c.label),
  ("state", .text c.state),
  ("reason", .text c.reason),
  ("request_id", .text c.requestId)]

def eventFields : Event → Members
  | .connection url connected attempt => [
      ("url", .text url), ("connected", .bool connected), ("attempt", .int attempt)]
  | .received kind seq => [("kind", .text kind), ("seq", nat seq.toNat)]
  | .dropped reason seq => [("reason", .text reason.name), ("seq", nat seq.toNat)]
  | .versionMismatch expected got => [
      ("expected", .int expected.toInt), ("got", .int got.toInt)]
  | .devices ds => [("devices", devices ds)]
  | .gatewayInfo panId channel shortAddr => [
      ("pan_id", .ofOption (fun v => nat v.toNat) panId),
      ("channel", .ofOption (fun v => .int v.toInt) channel),
      ("short_addr", .ofOption (fun v => nat v.toNat) shortAddr)]
  | .health h => [("health", health h)]
  | .links v => [("view", view v)]
  | .job change => jobFields change
  | .clientError f context severity => [
      ("err", .ofOption fault f), ("context", .text context), ("severity", .text severity.name)]

def counts (name : κ → Text) (t : Table κ UInt64) : Value :=
  .map (t.map fun (key, count) => (name key, nat count.toNat))

def snapshot (s : Snapshot) : Value :=
  let severityName := fun v : Telemetry.Severity => Text.ofInt v.level ++ ":" ++ v.name
  .object [
    ("messages_received", nat s.messagesReceived.toNat),
    ("messages_dropped", nat s.messagesDropped.toNat),
    ("version_mismatches", nat s.versionMismatches.toNat),
    ("messages_by_kind", counts id s.messagesByKind),
    ("drops_by_reason", counts (·.name) s.dropsByReason),
    ("messages_per_second", .real s.messagesPerSecond),
    ("last_seq", nat s.lastSeq.toNat),
    ("last_version", .int s.lastVersion.toInt),
    ("connected", .bool s.connected),
    ("retry_attempt", .int s.retryAttempt),
    ("reconnects", nat s.reconnects.toNat),
    ("device_count", .int s.deviceCount),
    ("devices", devices s.devices),
    ("pan_id", nat s.panId.toNat),
    ("channel", .int s.channel.toInt),
    ("coordinator_addr", nat s.coordinatorAddr.toNat),
    ("health", health (s.health.getD {})),
    ("has_health", .bool s.health.isSome),
    ("link_quality", view s.links),
    ("active_jobs", .list (s.activeJobs.map fun c => .object (jobFields c))),
    ("recent_jobs", .list (s.recentJobs.map fun c => .object (jobFields c))),
    ("jobs_by_state", counts id s.jobsByState),
    ("uptime_seconds", .real s.uptimeSeconds),
    ("channel_utilization", .real s.bufferUse),
    ("errors_total", nat s.errorsTotal.toNat),
    ("errors_by_context", counts id s.errorsByContext),
    ("errors_by_severity", counts severityName s.errorsBySeverity),
    ("recent_errors", .list (s.recentErrors.map .text))]

end MeshConsole.Record
