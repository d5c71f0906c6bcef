import MeshConsole.Push.Endpoint
import MeshConsole.Session.State
import MeshConsole.Settings.Key
import MeshConsole.Settings.Source

/-!
# The configuration

All settings, each from the first layer that has a usable value for it: command-line flags, then
the environment, then a settings file, then its default.
-/

namespace MeshConsole.Settings

structure Config where
  gatewayUrl : Text
  wsPath : Text
  apiBasePath : Text
  /-- The settings file that was read, if any. -/
  configFile : Text := []
  httpTimeout : Duration
  reconnectBase : Duration
  reconnectCap : Duration
  reconcileDelay : Duration
  jobTimeout : Duration
  jobPollInterval : Duration
  lqiTick : Duration
  lqiAutoRefresh : Bool
  deriving Repr, DecidableEq

/-- Why there is no configuration. -/
inductive ConfigError where
  | file (why : FileError)
  | required (key : Key)
  | gateway (why : Push.EndpointError)
  | notPositive (key : Key)
  | capBelowBase
  deriving Repr, DecidableEq

def ConfigError.message : ConfigError → Text
  | .file why => why.message
  | .required key => key.name ++ " is required"
  | .gateway why => Key.gatewayUrl.name ++ ": " ++ why.message
  | .notPositive key => key.name ++ " must be positive"
  | .capBelowBase =>
    Key.reconnectCapMs.name ++ " must not be below " ++ Key.reconnectBaseMs.name

/-- The settings as the layers have them. -/
def Config.resolve (layers : Layers) : Config where
  gatewayUrl := layers.text Key.gatewayUrl.name []
  wsPath := layers.text Key.wsPath.name "/ws"
  apiBasePath := layers.text Key.apiBasePath.name "/api/v1"
  httpTimeout := Duration.ofSeconds (layers.int Key.httpTimeoutSeconds.name 10)
  reconnectBase := layers.millis Key.reconnectBaseMs.name 1000
  reconnectCap := layers.millis Key.reconnectCapMs.name 10000
  reconcileDelay := layers.millis Key.reconcileDelayMs.name 1200
  jobTimeout := layers.millis Key.jobTimeoutMs.name 30000
  jobPollInterval := layers.millis Key.jobPollIntervalMs.name 600
  lqiTick := layers.millis Key.lqiTickMs.name 5000
  lqiAutoRefresh := layers.bool Key.lqiAutoRefresh.name true

/-- The durations that must be positive, in the order in which they are checked. -/
def Config.durations (c : Config) : List (Key × Duration) := [
  (.httpTimeoutSeconds, c.httpTimeout),
  (.reconnectBaseMs, c.reconnectBase),
  (.reconnectCapMs, c.reconnectCap),
  (.reconcileDelayMs, c.reconcileDelay),
  (.jobTimeoutMs, c.jobTimeout),
  (.jobPollIntervalMs, c.jobPollInterval),
  (.lqiTickMs, c.lqiTick)]

/-- The first fault of a configuration, if any. -/
def Config.check (c : Config) : Except ConfigError Unit :=
  if c.gatewayUrl.isEmpty then .error (.required .gatewayUrl)
  else
    match Push.endpoint c.gatewayUrl c.wsPath with
    | .error why => .error (.gateway why)
    | .ok _ =>
      match c.durations.find? fun entry => entry.2 ≤ 0 with
      | some (key, _) => .error (.notPositive key)
      | none => if c.reconnectCap < c.reconnectBase then .error .capBelowBase else .ok ()

/-- The flags of the command line by the names of their settings; others are left out. -/
def settingFlags (flags : Table Text Command.FlagValue) : Table Text Command.FlagValue :=
  Key.all.filterMap fun key => (flags.get? key.flag).map (key.name, ·)

/-- The layers above the settings file. -/
def upperLayers (flags : Table Text Command.FlagValue) (environment : Table Text Text) :
    Layers :=
  [.ofFlags (settingFlags flags), .ofEnvironment environment]

/-- The settings file that flags or environment name; empty if they name none. -/
def namedFile (flags : Table Text Command.FlagValue) (environment : Table Text Text) : Text :=
  (upperLayers flags environment).text Key.configFile.name []

/-- Reads and checks the configuration. -/
def load (flags : Table Text Command.FlagValue) (environment : Table Text Text) (files : Files) :
    Except ConfigError Config :=
  match FileValues.read files (namedFile flags environment) with
  | .error why => .error (.file why)
  | .ok values =>
    let layers := upperLayers flags environment ++ [.ofFile values]
    let config := { Config.resolve layers with configFile := values.used }
    match config.check with
    | .error why => .error why
    | .ok () => .ok config

/-- What a session is told. -/
def Config.session (c : Config) : Session.Settings where
  gatewayUrl := c.gatewayUrl
  wsPath := c.wsPath
  apiBasePath := c.apiBasePath
  httpTimeout := c.httpTimeout
  link := { base := c.reconnectBase, cap := c.reconnectCap, reconcile := c.reconcileDelay }
  jobs := { timeout := c.jobTimeout, poll := c.jobPollInterval }
  tick := c.lqiTick
  autoRefresh := c.lqiAutoRefresh

end MeshConsole.Settings
