import MeshConsole.Proofs.Settings.Durations
import MeshConsole.Session.State

/-!
# From a configuration to a session

A session, its client, its link and its job desk each have defaults of their
own for an empty path and for a time that is not positive. No configuration
that is accepted meets one of them: it makes a session, and all parts of the
session work with what was configured (`accepted_as_written`).
-/

namespace MeshConsole.Settings

open Command (FlagValue)
open Session (State)

-- ---------------------------------------------------------------------------
-- Paths
-- ---------------------------------------------------------------------------

/-- A source that has a text for a name has one that is not empty. -/
def Source.Filled (source : Source) : Prop :=
  ∀ name t, source.text? name = some t → t ≠ []

theorem ne_nil_of_nonEmpty (h : nonEmpty t = some u) : u ≠ [] := by
  unfold nonEmpty at h
  split at h
  next => cases h
  next hne =>
    cases h
    simpa using hne

theorem filled_ofFlags (flags : Table Text FlagValue) : (Source.ofFlags flags).Filled := by
  intro name t h
  simp only [Source.ofFlags] at h
  split at h
  · exact ne_nil_of_nonEmpty h
  · cases h

theorem filled_ofEnvironment (environment : Table Text Text) :
    (Source.ofEnvironment environment).Filled := by
  intro name t h
  obtain ⟨value, -, hvalue⟩ := Option.bind_eq_some_iff.mp h
  exact ne_nil_of_nonEmpty hvalue

theorem filled_ofFile (values : FileValues) : (Source.ofFile values).Filled := by
  intro name t h
  obtain ⟨value, -, hvalue⟩ := Option.bind_eq_some_iff.mp h
  exact ne_nil_of_nonEmpty hvalue

theorem text_ne_nil {layers : Layers} (hlayers : ∀ source ∈ layers, source.Filled) (name : Text)
    {standard : Text} (hstandard : standard ≠ []) : layers.text name standard ≠ [] := by
  unfold Layers.text
  cases hfound : layers.findSome? fun source => source.text? name with
  | none => exact hstandard
  | some t =>
    obtain ⟨source, hsource, ht⟩ := List.exists_of_findSome?_eq_some hfound
    exact hlayers source hsource name t ht

-- ---------------------------------------------------------------------------
-- Times
-- ---------------------------------------------------------------------------

theorem effective_of_pos {t : Push.Timing} (hbase : 0 < t.base) (hcap : 0 < t.cap)
    (hreconcile : 0 < t.reconcile) : t.effective = t := by
  simp [Push.Timing.effective, Int64.not_le.mpr hbase, Int64.not_le.mpr hcap,
    Int64.not_le.mpr hreconcile]

theorem orElse_of_pos {t : Job.Timing} (htimeout : 0 < t.timeout) (hpoll : 0 < t.poll)
    (standard : Job.Timing) : t.orElse standard = t := by
  simp [Job.Timing.orElse, Int64.not_le.mpr htimeout, Int64.not_le.mpr hpoll]

-- ---------------------------------------------------------------------------
-- Sessions
-- ---------------------------------------------------------------------------

/-- The address of the push channel: that of the gateway with another scheme,
and the path appended to its own. -/
def PushAddress (gateway path url : Text) : Prop :=
  ∃ (root : Url) (scheme : Text), Url.parse? gateway = some root ∧
    Push.pushScheme? root.scheme = some scheme ∧
    url = { root with scheme, path := Push.joinPath root.path path }.text

theorem endpoint_eq_ok {gateway path url : Text} :
    Push.endpoint gateway path = .ok url ↔ PushAddress gateway path url := by
  unfold Push.endpoint PushAddress
  cases Url.parse? gateway with
  | none => simp
  | some root => cases hscheme : Push.pushScheme? root.scheme <;> simp [hscheme, eq_comm]

/-- All parts of the session work with what was configured. -/
structure Config.Kept (c : Config) (s : State) : Prop where
  wsPath : PushAddress c.gatewayUrl c.wsPath s.run.link.url
  apiBasePath : s.client.base =
    c.gatewayUrl.trimRight Ascii.slash ++ Ascii.slash :: c.apiBasePath.trimByte Ascii.slash
  httpTimeout : s.client.timeout = c.httpTimeout
  reconnectBase : s.run.link.timing.base = c.reconnectBase
  reconnectCap : s.run.link.timing.cap = c.reconnectCap
  reconcileDelay : s.run.link.timing.reconcile = c.reconcileDelay
  jobTimeout : s.jobTiming.timeout = c.jobTimeout
  jobPollInterval : s.jobTiming.poll = c.jobPollInterval
  lqiTick : s.tick = c.lqiTick
  lqiAutoRefresh : s.autoRefresh = c.lqiAutoRefresh

theorem Config.Checked.times {c : Config} (h : c.Checked) :
    0 < c.httpTimeout ∧ 0 < c.reconnectBase ∧ 0 < c.reconnectCap ∧ 0 < c.reconcileDelay ∧
      0 < c.jobTimeout ∧ 0 < c.jobPollInterval ∧ 0 < c.lqiTick := by
  simpa [durations] using h.positive

/-- No part of a session takes a default. -/
theorem Config.Checked.kept {c : Config} (h : c.Checked) (hws : c.wsPath ≠ [])
    (hapi : c.apiBasePath ≠ []) : ∃ s, State.new c.session = .ok s ∧ c.Kept s := by
  obtain ⟨hhttp, hbase, hcap, hreconcile, htimeout, hpoll, htick⟩ := h.times
  obtain ⟨url, hurl⟩ := h.endpoint
  have hlink : c.session.link.effective = c.session.link :=
    effective_of_pos (t := c.session.link) hbase hcap hreconcile
  have hjobs : c.session.jobs.orElse {} = c.session.jobs :=
    orElse_of_pos (t := c.session.jobs) htimeout hpoll {}
  have hclient : Rest.Client.new c.gatewayUrl c.apiBasePath c.httpTimeout =
      { base := c.gatewayUrl.trimRight Ascii.slash ++
          Ascii.slash :: c.apiBasePath.trimByte Ascii.slash
        timeout := c.httpTimeout } := by
    simp [Rest.Client.new, hapi, Int64.not_le.mpr hhttp]
  have hnew : State.new c.session = .ok (State.idle
      (Rest.Client.new c.gatewayUrl c.apiBasePath c.httpTimeout)
      (.new url c.session.link) .reconciling c.session) := by
    simp [State.new, session, h.gatewayUrl, hws, hurl]
  refine ⟨_, hnew, ?_⟩
  rw [hclient, Push.Link.new, hlink]
  exact {
    wsPath := endpoint_eq_ok.mp hurl
    apiBasePath := rfl
    httpTimeout := rfl
    reconnectBase := rfl
    reconnectCap := rfl
    reconcileDelay := rfl
    jobTimeout := congrArg Job.Timing.timeout hjobs
    jobPollInterval := congrArg Job.Timing.poll hjobs
    lqiTick := if_neg (Int64.not_le.mpr htick)
    lqiAutoRefresh := rfl }

/-- A configuration that is accepted makes a session, and it is used as it was
written. -/
theorem accepted_as_written {flags : Table Text FlagValue} {environment : Table Text Text}
    {files : Files} {config : Config} (h : load flags environment files = .ok config) :
    ∃ s, State.new config.session = .ok s ∧ config.Kept s ∧
      0 < config.reconnectBase ∧ config.reconnectBase ≤ config.reconnectCap := by
  obtain ⟨values, -, hconfig, hchecked⟩ := load_eq_ok.mp h
  have hlayers : ∀ source ∈ upperLayers flags environment ++ [Source.ofFile values],
      source.Filled := by
    simp [upperLayers, filled_ofFlags, filled_ofEnvironment, filled_ofFile]
  have hws : config.wsPath ≠ [] := hconfig ▸ text_ne_nil hlayers _ (by decide)
  have hapi : config.apiBasePath ≠ [] := hconfig ▸ text_ne_nil hlayers _ (by decide)
  obtain ⟨s, hnew, hkept⟩ := hchecked.kept hws hapi
  exact ⟨s, hnew, hkept, hchecked.times.2.1, hchecked.ordered⟩

def barePaths : Table Text Text :=
  [("GATEWAY_URL", "http://gw/"), ("WS_PATH", "/"), ("API_BASE_PATH", "/"),
    ("RECONNECT_BASE_MS", "7"), ("RECONNECT_CAP_MS", "7"), ("LQI_TICK_MS", "1")]

/-- Paths without a name are not taken for missing ones. -/
theorem barePaths_as_written :
    ∃ config s, load [] barePaths noFiles = .ok config ∧ State.new config.session = .ok s ∧
      config.Kept s ∧ s.client.base = "http://gw/" ∧ s.run.link.timing.cap.toInt = 7000000 ∧
      s.tick.toInt = 1000000 := by
  have hload : (load [] barePaths noFiles).toOption.map (fun config =>
      (config.gatewayUrl, config.apiBasePath, config.reconnectCap.toInt, config.lqiTick.toInt)) =
      some (("http://gw/" : Text), ("/" : Text), 7000000, 1000000) := by decide +kernel
  obtain ⟨config, hconfig, hvalues⟩ := ok_of_toOption hload
  simp only [Prod.mk.injEq] at hvalues
  obtain ⟨hgateway, hapi, hcap, htick⟩ := hvalues
  obtain ⟨s, hnew, hkept, -⟩ := accepted_as_written hconfig
  refine ⟨config, s, hconfig, hnew, hkept, ?_, ?_, ?_⟩
  · rw [hkept.apiBasePath, hgateway, hapi]
    decide
  · rw [hkept.reconnectCap, hcap]
  · rw [hkept.lqiTick, htick]

end MeshConsole.Settings
