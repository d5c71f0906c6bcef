import MeshConsole.Settings.Config

/-!
# Records of settings
-/

namespace MeshConsole.Record

open Json (Value Members)

def nanos (d : Duration) : Value := .int d.toInt

def sessionSettings (s : Session.Settings) : Value :=
  .object [
    ("gateway_url", .text s.gatewayUrl),
    ("ws_path", .text s.wsPath),
    ("api_base_path", .text s.apiBasePath),
    ("http_timeout_ns", nanos s.httpTimeout),
    ("base_ns", nanos s.link.base),
    ("max_ns", nanos s.link.cap),
    ("reconcile_ns", nanos s.link.reconcile),
    ("job_timeout_ns", nanos s.jobs.timeout),
    ("poll_ns", nanos s.jobs.poll),
    ("tick_ns", nanos s.tick),
    ("auto_refresh", .bool s.autoRefresh),
    ("history_ns", nanos s.radio.historyWindow),
    ("stale_ns", nanos s.radio.staleThreshold),
    ("max_hints", .int s.radio.maxHints)]

def config (c : Settings.Config) : Value :=
  .object [
    ("gateway_url", .text c.gatewayUrl),
    ("ws_path", .text c.wsPath),
    ("api_base_path", .text c.apiBasePath),
    ("config_file", .text c.configFile),
    ("http_timeout_ns", nanos c.httpTimeout),
    ("reconnect_base_ns", nanos c.reconnectBase),
    ("reconnect_cap_ns", nanos c.reconnectCap),
    ("reconcile_delay_ns", nanos c.reconcileDelay),
    ("job_timeout_ns", nanos c.jobTimeout),
    ("job_poll_interval_ns", nanos c.jobPollInterval),
    ("lqi_tick_ns", nanos c.lqiTick),
    ("lqi_auto_refresh", .bool c.lqiAutoRefresh),
    ("session", sessionSettings c.session)]

/-- What a source has for a key: for each kind the value, or its zero, and whether it was found. -/
def source (s : Settings.Source) (key : Text) : Value :=
  let pair := fun (value : Value) (found : Bool) => Value.list [value, .bool found]
  .object [
    ("string", pair (.text ((s.text? key).getD [])) (s.text? key).isSome),
    ("int", pair (.int ((s.int? key).getD 0)) (s.int? key).isSome),
    ("bool", pair (.bool ((s.bool? key).getD false)) (s.bool? key).isSome)]

end MeshConsole.Record
