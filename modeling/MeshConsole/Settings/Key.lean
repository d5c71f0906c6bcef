import MeshConsole.Command.Flag
import MeshConsole.Text.Utf8

/-!
# Settings keys

Every setting goes by one name in the environment and in a settings file, and by another on the
command line.
-/

namespace MeshConsole.Settings

inductive Key where
  | gatewayUrl
  | wsPath
  | apiBasePath
  | configFile
  | reconnectBaseMs
  | reconnectCapMs
  | reconcileDelayMs
  | jobTimeoutMs
  | jobPollIntervalMs
  | lqiTickMs
  | lqiAutoRefresh
  | httpTimeoutSeconds
  deriving Repr, DecidableEq

namespace Key

/-- In the order of the help text. -/
def all : List Key := [
  gatewayUrl, wsPath, apiBasePath, configFile, reconnectBaseMs, reconnectCapMs, reconcileDelayMs,
  jobTimeoutMs, jobPollIntervalMs, lqiTickMs, lqiAutoRefresh, httpTimeoutSeconds]

/-- The name in the environment and, in any case, in a file. -/
def name : Key → Text
  | .gatewayUrl => "GATEWAY_URL"
  | .wsPath => "WS_PATH"
  | .apiBasePath => "API_BASE_PATH"
  | .configFile => "CONFIG_FILE"
  | .reconnectBaseMs => "RECONNECT_BASE_MS"
  | .reconnectCapMs => "RECONNECT_CAP_MS"
  | .reconcileDelayMs => "RECONCILE_DELAY_MS"
  | .jobTimeoutMs => "JOB_TIMEOUT_MS"
  | .jobPollIntervalMs => "JOB_POLL_INTERVAL_MS"
  | .lqiTickMs => "LQI_TICK_MS"
  | .lqiAutoRefresh => "LQI_AUTO_REFRESH"
  | .httpTimeoutSeconds => "HTTP_TIMEOUT_SECONDS"

/-- The name on the command line. -/
def flag : Key → Text
  | .gatewayUrl => "gateway-url"
  | .wsPath => "ws-path"
  | .apiBasePath => "api-base-path"
  | .configFile => "config"
  | .reconnectBaseMs => "reconnect-base-ms"
  | .reconnectCapMs => "reconnect-cap-ms"
  | .reconcileDelayMs => "reconcile-delay-ms"
  | .jobTimeoutMs => "job-timeout-ms"
  | .jobPollIntervalMs => "job-poll-interval-ms"
  | .lqiTickMs => "lqi-tick-ms"
  | .lqiAutoRefresh => "lqi-auto-refresh"
  | .httpTimeoutSeconds => "http-timeout-seconds"

def kind : Key → Command.FlagKind
  | .gatewayUrl => .text
  | .wsPath => .text
  | .apiBasePath => .text
  | .configFile => .text
  | .lqiAutoRefresh => .bool
  | _ => .int

def help : Key → Text
  | .gatewayUrl => "Gateway base URL, e.g. http://192.168.4.1 (required)"
  | .wsPath => "Push websocket path"
  | .apiBasePath => "REST API base path"
  | .configFile => "YAML config file"
  | .reconnectBaseMs => "First reconnect delay in milliseconds"
  | .reconnectCapMs => "Reconnect delay cap in milliseconds"
  | .reconcileDelayMs => "Delay before pulling state after connect, in milliseconds"
  | .jobTimeoutMs => "Job timeout in milliseconds"
  | .jobPollIntervalMs => "Job poll interval in milliseconds"
  | .lqiTickMs => "Link quality tick in milliseconds"
  | .lqiAutoRefresh => "Request an lqi_refresh job when link quality goes stale"
  | .httpTimeoutSeconds => "HTTP request timeout in seconds"

def flagSpec (key : Key) : Command.FlagSpec := { name := key.flag, kind := key.kind }

end Key

/-- The flags that carry settings. -/
def flagSpecs : List Command.FlagSpec := Key.all.map Key.flagSpec

/-- The environment variables, one a line, and how the layers rank. -/
def environmentHelp : Text :=
  let line := fun key : Key => ("  " : Text) ++ key.name.padRight 22 ++ " " ++ key.help ++ "\n"
  ("Environment Variables:\n" : Text) ++ Key.all.flatMap line ++
  "\nNote: CLI options override environment variables, which override the config file\n"

end MeshConsole.Settings
