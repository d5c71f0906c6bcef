import MeshConsole.Proofs.Settings.Layers

/-!
# Durations that are written

A duration is written as a number of milliseconds or seconds, and it is
multiplied out in 64 bits before anything is checked. `duration_exact_iff`:
what is accepted is the duration that was written if that fits into 64 bits of
nanoseconds, and never otherwise; then it is what the product leaves there,
which may well be positive and pass every check.
-/

namespace MeshConsole.Settings

open Command (FlagValue)

-- ---------------------------------------------------------------------------
-- Accepted configurations
-- ---------------------------------------------------------------------------

/-- What the checks ask of a configuration. -/
structure Config.Checked (c : Config) : Prop where
  gatewayUrl : c.gatewayUrl ≠ []
  endpoint : ∃ url, Push.endpoint c.gatewayUrl c.wsPath = .ok url
  positive : ∀ entry ∈ c.durations, 0 < entry.2
  ordered : c.reconnectBase ≤ c.reconnectCap

theorem Config.check_eq_ok {c : Config} : c.check = .ok () ↔ c.Checked := by
  constructor
  · intro h
    unfold check at h
    split at h
    next => cases h
    next hgateway =>
      split at h
      next => cases h
      next url hurl =>
        split at h
        next => cases h
        next hpositive =>
          split at h
          next => cases h
          next hordered =>
            refine ⟨by simpa using hgateway, ⟨url, hurl⟩, ?_, Int64.not_lt.mp hordered⟩
            intro entry hentry
            simpa using List.find?_eq_none.mp hpositive entry hentry
  · rintro ⟨hgateway, ⟨url, hurl⟩, hpositive, hordered⟩
    have hfind : c.durations.find? (fun entry => entry.2 ≤ 0) = none :=
      List.find?_eq_none.mpr fun entry hentry => by simpa using hpositive entry hentry
    simp [check, hgateway, hurl, hfind, hordered]

theorem load_eq_ok {flags : Table Text FlagValue} {environment : Table Text Text} {files : Files}
    {config : Config} :
    load flags environment files = .ok config ↔
      ∃ values, FileValues.read files (namedFile flags environment) = .ok values ∧
        config = { Config.resolve (upperLayers flags environment ++ [.ofFile values]) with
          configFile := values.used } ∧
        config.Checked := by
  unfold load
  cases FileValues.read files (namedFile flags environment) with
  | error why => simp
  | ok values =>
    simp only [Except.ok.injEq, exists_eq_left', ← Config.check_eq_ok]
    split
    next hcheck =>
      simp only [reduceCtorEq, false_iff, not_and]
      rintro rfl
      simp [hcheck]
    next hcheck =>
      simp only [Except.ok.injEq]
      constructor
      · rintro rfl
        exact ⟨rfl, hcheck⟩
      · rintro ⟨rfl, -⟩
        rfl

-- ---------------------------------------------------------------------------
-- Products
-- ---------------------------------------------------------------------------

/-- What an integer setting counts. -/
def Key.unit : Key → Duration
  | .httpTimeoutSeconds => .second
  | _ => .millisecond

/-- So many units are a 64-bit number of nanoseconds. -/
def Fits (n : Int) (unit : Duration) : Prop :=
  Int64.minValue.toInt ≤ n * unit.toInt ∧ n * unit.toInt ≤ Int64.maxValue.toInt

theorem product_exact_iff (n : Int) (unit : Duration) :
    (Int64.ofInt n * unit).toInt = n * unit.toInt ↔ Fits n unit := by
  constructor
  · intro h
    rw [Fits, ← h]
    exact ⟨Int64.minValue_le_toInt _, Int64.toInt_le _⟩
  · rintro ⟨hleast, hgreatest⟩
    exact counts_product n unit hleast hgreatest

theorem Key.unit_pos (key : Key) : 0 < key.unit.toInt := by
  cases key <;> decide

/-- Layers decide on one value at most. -/
theorem Decided.unique {standard value value' : FlagValue} {found : List (Option FlagValue)}
    (h : Decided standard found value) (h' : Decided standard found value') : value = value' := by
  induction h with
  | here =>
    cases h'
    rfl
  | passed _ ih =>
    cases h' with
    | passed h' => exact ih h'
  | standard =>
    cases h'
    rfl

/-- The durations of a configuration are the integer settings, multiplied out. -/
theorem mem_durations (layers : Layers) (used : Text) {key : Key} (hkey : key.kind = .int) :
    ∃ standard, key.standard = .int standard ∧
      (key, Int64.ofInt (layers.int key.name standard) * key.unit) ∈
        { Config.resolve layers with configFile := used }.durations := by
  cases key with
  | gatewayUrl | wsPath | apiBasePath | configFile | lqiAutoRefresh => cases hkey
  | _ => exact ⟨_, rfl, by simp [Config.durations, Config.resolve, Layers.millis,
      Duration.ofMillis, Duration.ofSeconds, Key.unit]⟩

/-- A duration that is accepted is the product of what was written, as 64 bits
hold it; it is the very duration that was written if and only if that fits, and
then a positive number was written. -/
theorem duration_exact_iff {flags : Table Text FlagValue} {environment : Table Text Text}
    {files : Files} {config : Config} {values : FileValues} {key : Key} {n : Int}
    (h : load flags environment files = .ok config)
    (hread : FileValues.read files (namedFile flags environment) = .ok values)
    (hkey : key.kind = .int)
    (hn : Decided key.standard (upperFound flags environment key ++ [fileLayer values key])
      (.int n)) :
    ∃ d, (key, d) ∈ config.durations ∧ 0 < d ∧ d = Int64.ofInt n * key.unit ∧
      (d.toInt = n * key.unit.toInt ↔ Fits n key.unit) ∧ (Fits n key.unit → 0 < n) := by
  obtain ⟨read, hvalues, rfl, hchecked⟩ := load_eq_ok.mp h
  obtain rfl : values = read := Except.ok.inj (hread.symm.trans hvalues)
  obtain ⟨standard, hstandard, hmem⟩ :=
    mem_durations (upperLayers flags environment ++ [.ofFile values]) values.used hkey
  have hdecided := decided_int (map_layers flags environment values key) hkey standard
  rw [hstandard] at hn
  obtain rfl := FlagValue.int.inj (hn.unique hdecided)
  have hpositive := hchecked.positive _ hmem
  have hexact := product_exact_iff (Layers.int (upperLayers flags environment ++ [.ofFile values])
    key.name standard) key.unit
  refine ⟨_, hmem, hpositive, rfl, hexact, fun hfits => ?_⟩
  have hproduct : 0 < _ * key.unit.toInt := hexact.mpr hfits ▸ Int64.lt_iff_toInt_lt.mp hpositive
  exact Int.pos_of_mul_pos_left hproduct key.unit_pos

theorem ok_of_toOption {result : Except ε α} {f : α → β} {b : β}
    (h : result.toOption.map f = some b) : ∃ a, result = .ok a ∧ f a = b := by
  cases result with
  | error why => cases h
  | ok a => exact ⟨a, rfl, Option.some.inj h⟩

/-- No settings file is within reach. -/
def noFiles : Files := { root := "/dir" }

def shortJobs : Table Text Text := [("GATEWAY_URL", "http://gw"), ("JOB_TIMEOUT_MS", "1500")]

theorem duration_shortJobs :
    ∃ config, load [] shortJobs noFiles = .ok config ∧
      FileValues.read noFiles (namedFile [] shortJobs) = .ok {} ∧
      Decided Key.jobTimeoutMs.standard
        (upperFound [] shortJobs .jobTimeoutMs ++ [fileLayer {} .jobTimeoutMs]) (.int 1500) ∧
      ∃ d, (.jobTimeoutMs, d) ∈ config.durations ∧ 0 < d ∧ d.toInt = 1500 * 1000000 := by
  have hload : (load [] shortJobs noFiles).toOption.map (fun _ => ()) = some () := by
    decide +kernel
  have hread : FileValues.read noFiles (namedFile [] shortJobs) = .ok {} := by rfl
  have hfound : upperFound [] shortJobs .jobTimeoutMs = [none, some (.int 1500)] := by
    decide +kernel
  obtain ⟨config, hconfig, -⟩ := ok_of_toOption hload
  have hdecided : Decided Key.jobTimeoutMs.standard
      (upperFound [] shortJobs .jobTimeoutMs ++ [fileLayer {} .jobTimeoutMs]) (.int 1500) := by
    rw [hfound]
    exact .passed .here
  have hkey : Key.jobTimeoutMs.kind = .int := rfl
  obtain ⟨d, hmem, hpositive, -, hexact, -⟩ := duration_exact_iff hconfig hread hkey hdecided
  have hfits : Fits 1500 Key.jobTimeoutMs.unit := by
    rw [Fits]
    decide
  exact ⟨config, hconfig, hread, hdecided, d, hmem, hpositive, hexact.mpr hfits⟩

def wrappedTimeouts : Table Text Text :=
  [("GATEWAY_URL", "http://gw"), ("HTTP_TIMEOUT_SECONDS", "18446744074"),
    ("JOB_TIMEOUT_MS", "-18446744073709")]

/-- A timeout of more than five hundred years is taken for less than a third
of a second, and a negative one for half a millisecond. -/
theorem wrapped_timeouts_accepted :
    ∃ config, load [] wrappedTimeouts noFiles = .ok config ∧
      FileValues.read noFiles (namedFile [] wrappedTimeouts) = .ok {} ∧
      Decided Key.httpTimeoutSeconds.standard
        (upperFound [] wrappedTimeouts .httpTimeoutSeconds ++ [fileLayer {} .httpTimeoutSeconds])
        (.int 18446744074) ∧
      config.httpTimeout.toInt = 290448384 ∧
      Decided Key.jobTimeoutMs.standard
        (upperFound [] wrappedTimeouts .jobTimeoutMs ++ [fileLayer {} .jobTimeoutMs])
        (.int (-18446744073709)) ∧
      config.jobTimeout.toInt = 551616 := by
  have hload : (load [] wrappedTimeouts noFiles).toOption.map
      (fun config => (config.httpTimeout.toInt, config.jobTimeout.toInt)) =
      some (290448384, 551616) := by decide +kernel
  have hhttp : upperFound [] wrappedTimeouts .httpTimeoutSeconds =
      [none, some (.int 18446744074)] := by decide +kernel
  have hjob : upperFound [] wrappedTimeouts .jobTimeoutMs =
      [none, some (.int (-18446744073709))] := by decide +kernel
  obtain ⟨config, hconfig, hdurations⟩ := ok_of_toOption hload
  obtain ⟨hhttpTimeout, hjobTimeout⟩ := Prod.mk.inj hdurations
  refine ⟨config, hconfig, rfl, ?_, hhttpTimeout, ?_, hjobTimeout⟩
  · rw [hhttp]
    exact .passed .here
  · rw [hjob]
    exact .passed .here

end MeshConsole.Settings
