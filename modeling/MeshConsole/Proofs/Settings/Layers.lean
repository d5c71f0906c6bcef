import Mathlib.Data.List.Basic
import MeshConsole.Proofs.Command.GivenFlags
import MeshConsole.Proofs.Elapsed
import MeshConsole.Settings.Config

/-!
# Where a setting comes from

A layer has a usable value for a key, or is passed over. A setting is the first
usable value among the flags, the environment and the settings file, or else
its default (`load_layered`); which file that is, the two upper layers say.
-/

namespace MeshConsole.Settings

open Command (FlagKind FlagValue)

-- ---------------------------------------------------------------------------
-- Usable values
-- ---------------------------------------------------------------------------

/-- What a text is worth to a key of this kind. -/
def usableText : FlagKind → Text → Option FlagValue
  | .text, t => if t = [] then none else some (.text t)
  | .int, t => (intOf? t).map .int
  | .bool, t => (Numeral.readBool? t).map .bool
  | .duration, _ => none

/-- What a flag that was given is worth to it. -/
def usableFlag : FlagKind → FlagValue → Option FlagValue
  | .text, .text t => if t = [] then none else some (.text t)
  | .int, .int n => some (.int n)
  | .bool, .bool b => some (.bool b)
  | _, _ => none

/-- The first value that there is in one of the layers, or else the default. -/
inductive Decided (standard : FlagValue) : List (Option FlagValue) → FlagValue → Prop
  | here {value rest} : Decided standard (some value :: rest) value
  | passed {value rest} : Decided standard rest value → Decided standard (none :: rest) value
  | standard : Decided standard [] standard

section
variable (flags : Table Text FlagValue) (environment : Table Text Text) (values : FileValues)

def flagLayer (key : Key) : Option FlagValue := flags.get? key.flag >>= usableFlag key.kind

def environmentLayer (key : Key) : Option FlagValue :=
  environment.get? key.name >>= usableText key.kind

/-- A file gives texts for keys. -/
def fileLayer (key : Key) : Option FlagValue :=
  (values.get? key.name).map Yaml.Value.scalarText >>= usableText key.kind

end

-- ---------------------------------------------------------------------------
-- Sources
-- ---------------------------------------------------------------------------

theorem Key.mem_all (key : Key) : key ∈ all := by
  cases key <;> decide

theorem Key.name_injective : Function.Injective name := by
  have hall : ∀ a ∈ all, ∀ b ∈ all, a.name = b.name → a = b := by decide
  exact fun a b h => hall a a.mem_all b b.mem_all h

/-- A flag is found by the name of its setting. -/
theorem get?_settingFlags (flags : Table Text FlagValue) (key : Key) :
    (settingFlags flags).get? key.name = flags.get? key.flag := by
  have hkeys (keys : List Key) :
      Table.get? key.name (keys.filterMap fun k => (flags.get? k.flag).map (k.name, ·)) =
        if key ∈ keys then flags.get? key.flag else none := by
    induction keys with
    | nil => rfl
    | cons first keys ih =>
      by_cases hfirst : first = key
      · subst hfirst
        cases hflag : flags.get? first.flag with
        | none => simp [hflag, ih]
        | some value => simp [hflag, Table.get?]
      · have hname : first.name ≠ key.name := fun h => hfirst (Key.name_injective h)
        cases hflag : flags.get? first.flag with
        | none => simp [hflag, ih, Ne.symm hfirst]
        | some value => simp [hflag, Table.get?, hname, ih, Ne.symm hfirst]
  rw [settingFlags, hkeys, if_pos key.mem_all]

/-- What a source has for a key of this kind. -/
def Source.usable (source : Source) : FlagKind → Text → Option FlagValue
  | .text, name => (source.text? name).map .text
  | .int, name => (source.int? name).map .int
  | .bool, name => (source.bool? name).map .bool
  | .duration, _ => none

theorem usable_of_text {source : Source} {found : Option Text}
    (htext : source.text? name = found >>= nonEmpty) (hint : source.int? name = found >>= intOf?)
    (hbool : source.bool? name = found >>= Numeral.readBool?) (kind : FlagKind) :
    source.usable kind name = found >>= usableText kind := by
  cases found with
  | none => cases kind <;> simp [Source.usable, htext, hint, hbool]
  | some t =>
    cases kind <;> simp [Source.usable, htext, hint, hbool, usableText, nonEmpty, apply_ite]

section
variable (flags : Table Text FlagValue) (environment : Table Text Text) (values : FileValues)
  (key : Key)

theorem usable_ofFlags :
    (Source.ofFlags (settingFlags flags)).usable key.kind key.name = flagLayer flags key := by
  rw [flagLayer, ← get?_settingFlags]
  cases key.kind <;> cases hflag : (settingFlags flags).get? key.name with
  | none => simp [Source.usable, Source.ofFlags, hflag]
  | some value =>
    cases value <;> simp [Source.usable, Source.ofFlags, hflag, usableFlag, nonEmpty, apply_ite]

theorem usable_ofEnvironment :
    (Source.ofEnvironment environment).usable key.kind key.name =
      environmentLayer environment key :=
  usable_of_text rfl rfl rfl key.kind

theorem usable_ofFile :
    (Source.ofFile values).usable key.kind key.name = fileLayer values key := by
  refine usable_of_text ?_ ?_ ?_ key.kind
  all_goals cases hfound : values.get? key.name <;> simp [Source.ofFile, hfound]

end

-- ---------------------------------------------------------------------------
-- Settings
-- ---------------------------------------------------------------------------

/-- What a setting is if no layer has a usable value for it. -/
def Key.standard : Key → FlagValue
  | .gatewayUrl => .text []
  | .wsPath => .text "/ws"
  | .apiBasePath => .text "/api/v1"
  | .configFile => .text []
  | .reconnectBaseMs => .int 1000
  | .reconnectCapMs => .int 10000
  | .reconcileDelayMs => .int 1200
  | .jobTimeoutMs => .int 30000
  | .jobPollIntervalMs => .int 600
  | .lqiTickMs => .int 5000
  | .lqiAutoRefresh => .bool true
  | .httpTimeoutSeconds => .int 10

/-- The duration is so many units, if those are a 64-bit number of
nanoseconds. -/
def Counts (d : Duration) (n : Int) (unit : Duration) : Prop :=
  Int64.minValue.toInt ≤ n * unit.toInt → n * unit.toInt ≤ Int64.maxValue.toInt →
    d.toInt = n * unit.toInt

/-- The setting of the key has this value. -/
def Config.Has (c : Config) : Key → FlagValue → Prop
  | .gatewayUrl, .text t => c.gatewayUrl = t
  | .wsPath, .text t => c.wsPath = t
  | .apiBasePath, .text t => c.apiBasePath = t
  | .configFile, .text t => c.configFile = t
  | .reconnectBaseMs, .int n => Counts c.reconnectBase n .millisecond
  | .reconnectCapMs, .int n => Counts c.reconnectCap n .millisecond
  | .reconcileDelayMs, .int n => Counts c.reconcileDelay n .millisecond
  | .jobTimeoutMs, .int n => Counts c.jobTimeout n .millisecond
  | .jobPollIntervalMs, .int n => Counts c.jobPollInterval n .millisecond
  | .lqiTickMs, .int n => Counts c.lqiTick n .millisecond
  | .httpTimeoutSeconds, .int n => Counts c.httpTimeout n .second
  | .lqiAutoRefresh, .bool b => c.lqiAutoRefresh = b
  | _, _ => False

theorem counts_product (n : Int) (unit : Duration) : Counts (Int64.ofInt n * unit) n unit :=
  Duration.toInt_product

theorem decided_first {layers : Layers} {name : Text} (wrap : α → FlagValue)
    (ask : Source → Option α) (hask : ∀ source, source.usable kind name = (ask source).map wrap)
    (standard : α) :
    Decided (wrap standard) (layers.map (·.usable kind name))
      (wrap ((layers.findSome? ask).getD standard)) := by
  induction layers with
  | nil => exact .standard
  | cons source layers ih =>
    rw [List.map_cons, List.findSome?_cons, hask]
    cases ask source with
    | none => exact .passed ih
    | some value => exact .here

section
variable {layers : Layers} {key : Key} {found : List (Option FlagValue)}
  (hfound : layers.map (·.usable key.kind key.name) = found)
include hfound

theorem decided_text (hkind : key.kind = .text) (standard : Text) :
    Decided (.text standard) found (.text (layers.text key.name standard)) :=
  hfound ▸ decided_first .text (·.text? key.name) (fun _ => hkind ▸ rfl) standard

theorem decided_int (hkind : key.kind = .int) (standard : Int) :
    Decided (.int standard) found (.int (layers.int key.name standard)) :=
  hfound ▸ decided_first .int (·.int? key.name) (fun _ => hkind ▸ rfl) standard

theorem decided_bool (hkind : key.kind = .bool) (standard : Bool) :
    Decided (.bool standard) found (.bool (layers.bool key.name standard)) :=
  hfound ▸ decided_first .bool (·.bool? key.name) (fun _ => hkind ▸ rfl) standard

/-- Every setting but the file itself is decided by the layers. -/
theorem resolve_has (hkey : key ≠ .configFile) (used : Text) :
    ∃ value, Decided key.standard found value ∧
      Config.Has { Config.resolve layers with configFile := used } key value := by
  cases key with
  | configFile => exact absurd rfl hkey
  | gatewayUrl => exact ⟨_, decided_text hfound rfl _, rfl⟩
  | wsPath => exact ⟨_, decided_text hfound rfl _, rfl⟩
  | apiBasePath => exact ⟨_, decided_text hfound rfl _, rfl⟩
  | lqiAutoRefresh => exact ⟨_, decided_bool hfound rfl _, rfl⟩
  | _ => exact ⟨_, decided_int hfound rfl _, counts_product _ _⟩

end

section
variable (flags : Table Text FlagValue) (environment : Table Text Text) (values : FileValues)
  (key : Key)

/-- What the layers above the file have for a key, the one that is asked first in front. -/
def upperFound : List (Option FlagValue) := [flagLayer flags key, environmentLayer environment key]

theorem map_upperLayers :
    (upperLayers flags environment).map (·.usable key.kind key.name) =
      upperFound flags environment key := by
  simp only [upperLayers, List.map_cons, List.map_nil, usable_ofFlags, usable_ofEnvironment,
    upperFound]

theorem map_layers :
    List.map (·.usable key.kind key.name)
        (upperLayers flags environment ++ [Source.ofFile values]) =
      upperFound flags environment key ++ [fileLayer values key] := by
  rw [List.map_append, map_upperLayers, List.map_singleton, usable_ofFile]

end

-- ---------------------------------------------------------------------------
-- The settings file
-- ---------------------------------------------------------------------------

/-- The path that a file is known by: the one that is named, else that of the
first file which a search finds, else none. -/
inductive Located (files : Files) : Text → Text → Prop
  | named {path} : path ≠ [] → Located files path path
  | found {earlier path later} : searchPaths = earlier ++ path :: later →
      (∀ other ∈ earlier, files.content? other = none) → (files.content? path).isSome →
      Located files [] (if isRooted path then path else files.root ++ "/" ++ path)
  | missing : (∀ path ∈ searchPaths, files.content? path = none) → Located files [] []

theorem used_of_readContent (h : readContent content used = .ok values) : values.used = used := by
  unfold readContent at h
  split at h
  · cases h
    rfl
  · cases h

theorem located_of_read (h : FileValues.read files path = .ok values) :
    Located files path values.used := by
  rw [FileValues.read] at h
  split at h
  · rename_i hempty
    rw [List.isEmpty_iff.mp hempty]
    split at h
    · rename_i place hfind
      obtain ⟨hsome, earlier, later, hsplit, hearlier⟩ := List.find?_eq_some_iff_append.mp hfind
      rw [used_of_readContent h]
      exact .found hsplit (fun other hother => by simpa using hearlier other hother) hsome
    · rename_i hfind
      cases h
      exact .missing fun other hother => by simpa using List.find?_eq_none.mp hfind other hother
  · rename_i hnamed
    split at h
    · rw [used_of_readContent h]
      exact .named fun hempty => hnamed (List.isEmpty_iff.mpr hempty)
    · cases h
    · cases h

theorem eq_of_usableFlag (h : usableFlag kind value = some usable) : usable = value := by
  unfold usableFlag at h
  split at h
  · split at h <;> simp_all
  · simp_all
  · simp_all
  · cases h

theorem given_of_flagLayer (h : Command.parseFlags specs arguments = .ok parsed) {key : Key}
    (hvalue : flagLayer parsed.flags key = some value) :
    ∃ spec ∈ specs, spec.name = key.flag ∧
      ∃ source, spec.Given arguments source ∧ spec.kind.read source = .ok value := by
  obtain ⟨read, hread, husable⟩ := Option.bind_eq_some_iff.mp hvalue
  rw [eq_of_usableFlag husable]
  exact Command.parseFlags_given h key.flag read hread

/-- The configuration is loaded if the file that the upper layers name can be
read and what the three layers decide passes the checks; nothing that a layer
holds for a key makes it fail otherwise. The file's own path is where the file
was found, whatever a layer holds for it. -/
theorem load_layered (flags : Table Text FlagValue) (environment : Table Text Text)
    (files : Files) :
    (∀ specs arguments parsed, Command.parseFlags specs arguments = .ok parsed →
      parsed.flags = flags → ∀ key value, flagLayer flags key = some value →
        ∃ spec ∈ specs, spec.name = key.flag ∧
          ∃ source, spec.Given arguments source ∧ spec.kind.read source = .ok value) ∧
    ∃ path,
      Decided Key.configFile.standard (upperFound flags environment .configFile) (.text path) ∧
      match FileValues.read files path with
      | .error why => load flags environment files = .error (.file why)
      | .ok values =>
        ∃ config : Config,
          load flags environment files = config.check.map (fun _ => config) ∧
          Located files path config.configFile ∧
          ∀ key ≠ Key.configFile,
            ∃ value,
              Decided key.standard (upperFound flags environment key ++ [fileLayer values key])
                value ∧
              config.Has key value := by
  refine ⟨fun specs arguments parsed hparsed hflags key value hvalue => ?_,
    namedFile flags environment,
    decided_text (map_upperLayers flags environment .configFile) rfl _, ?_⟩
  · subst hflags
    exact given_of_flagLayer hparsed hvalue
  · rw [load]
    cases hread : FileValues.read files (namedFile flags environment) with
    | error why => rfl
    | ok values =>
      refine ⟨_, ?_, located_of_read hread, fun key hkey =>
        resolve_has (map_layers flags environment values key) hkey values.used⟩
      dsimp only
      split <;> simp_all [Except.map]

/-- A file that names another file. -/
def referringFiles : Files where
  root := "/dir"
  contents := [("gwdash.yaml", "config_file: other.yaml\n")]

def longTimeout : Table Text Text :=
  [("GATEWAY_URL", "http://gw"), ("JOB_TIMEOUT_MS", "18446744073710")]

/-- The settings of a file do not say which file that is, and a number of
milliseconds that is too great for 64 bits of nanoseconds is not kept. -/
theorem otherFile_passed_over :
    ∃ config values,
      load [] longTimeout referringFiles = .ok config ∧
      FileValues.read referringFiles [] = .ok values ∧
      Decided Key.configFile.standard
        (upperFound [] longTimeout .configFile ++ [fileLayer values .configFile])
        (.text "other.yaml") ∧
      config.configFile = "/dir/gwdash.yaml" ∧
      Decided Key.jobTimeoutMs.standard
        (upperFound [] longTimeout .jobTimeoutMs ++ [fileLayer values .jobTimeoutMs])
        (.int 18446744073710) ∧
      config.jobTimeout = 448384 := by
  have hread : (FileValues.read referringFiles []).toOption.map (fileLayer · .configFile) =
      some (some (.text "other.yaml")) := by decide +kernel
  have hload : (load [] longTimeout referringFiles).toOption.map
      (fun config => (config.configFile, config.jobTimeout)) =
      some (Text.ofString "/dir/gwdash.yaml", 448384) := by decide +kernel
  have hupper : upperFound [] longTimeout .configFile = [none, none] := by decide +kernel
  have htimeout : upperFound [] longTimeout .jobTimeoutMs =
      [none, some (.int 18446744073710)] := by decide +kernel
  cases hvalues : FileValues.read referringFiles [] with
  | error why => simp [hvalues, Except.toOption] at hread
  | ok values =>
    cases hconfig : load [] longTimeout referringFiles with
    | error why => simp [hconfig, Except.toOption] at hload
    | ok config =>
      simp only [hvalues, hconfig, Except.toOption, Option.map_some, Option.some.injEq,
        Prod.mk.injEq] at hread hload
      refine ⟨config, values, rfl, rfl, ?_, hload.1, ?_, hload.2⟩
      · rw [hupper, hread]
        exact .passed (.passed .here)
      · rw [htimeout]
        exact .passed .here

end MeshConsole.Settings
