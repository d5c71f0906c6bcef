import MeshConsole.Proofs.Simulator.Delivery
import MeshConsole.Proofs.Simulator.Serving

/-!
# What a request can do

`serve_cases` says once what becomes of a request: the simulator refuses it,
shows what it has, or grants it and changes one thing.

`refused_unchanged`: a request that is not answered with 200 has changed
nothing, whatever it is; neither has a look at the status, the health or the
link table.
-/

namespace MeshConsole.Simulator

-- ---------------------------------------------------------------------------
-- Routes
-- ---------------------------------------------------------------------------

/-- Where a request is served; nowhere if its path is not in its shortest
spelling or unknown, or if the path has another method. -/
def Incoming.route? (r : Incoming) : Option Route :=
  if Path.clean r.url.path = r.url.path then
    (Route.ofPath? r.url.path).filter fun route => route.method == r.method
  else none

/-- The id that stands in the path of a job. -/
def jobId? (text : Text) : Option Int64 :=
  match Numeral.readInt text with
  | .ok id => if id ≤ 0 then none else some (Int64.ofInt id)
  | .error _ => none

/-- The id of the job that a request polls. -/
def Incoming.polled? (r : Incoming) : Option Int64 :=
  match r.route? with
  | some (.job text) => jobId? text
  | _ => none

/-- Nothing is changed, and nobody is told of anything but the refusal. -/
structure Served.Refuses (served : Served) (s : Simulator) : Prop where
  simulator : served.simulator = s
  frames : frames served.effects = []
  status : 300 ≤ served.response.status

/-- All that a request can do. What it changes beside the simulator is at most
the log, a poll apart. -/
inductive Serves (s : Simulator) (now : Instant) (r : Incoming) : Served → Prop where
  | refused {served : Served} : served.Refuses s → Serves s now r served
  | shows (data : Json.Value) : r.route? ∈ [some Route.status, some .health, some .links] →
      Serves s now r { simulator := s, response := okResponse data }
  | queues {effects : List Effect} (order : JobOrder) : r.route? = some .submitJob →
      order.type ∈ jobTypes → frames effects = [] →
      Serves s now r {
        simulator := (s.queueJob now order.type order.delayMs).1
        effects
        response := okResponse
          (JobReceipt.toJson { id := s.lastJobId + 1, type := order.type, state := "queued" }) }
  | polls {id : Int64} {job : SimJob} : r.polled? = some id → s.jobs.get? id = some job →
      Serves s now r {
        simulator := (s.pollJob now job).1
        effects := (s.pollJob now job).2.2
        response := okResponse (s.pollJob now job).2.1.toJson }
  | admits {effects : List Effect} (limit : Instant) (message : Text) :
      r.route? = some .permitJoin → frames effects = [] →
      Serves s now r {
        simulator := { s with joinUntil := some limit }
        effects
        response := messageResponse message }
  | commands {effects : List Effect} (command : Command) (message : Text) :
      r.route? = some .control → frames effects = [] →
      Serves s now r {
        simulator := { s with commands := s.commands ++ [command] }
        effects
        response := messageResponse message }
  | lists (devices : List Device) (message : Text) : r.route? ∈ [some Route.delete, some .rename] →
      Serves s now r {
        simulator := { s with status := { s.status with devices := some devices } }
        response := messageResponse message }
  | saves {effects : List Effect} (credentials : Credentials) (message : Text) :
      r.route? = some .wifi → frames effects = [] →
      Serves s now r {
        simulator := { s with wifi := some credentials }
        effects
        response := messageResponse message }

section
variable {s : Simulator} {now : Instant} {r : Incoming}

theorem route?_eq_some (h : r.route? = some route) :
    Path.clean r.url.path = r.url.path ∧ Route.ofPath? r.url.path = some route ∧
      r.method = route.method := by
  unfold Incoming.route? at h
  split at h
  case isFalse => cases h
  case isTrue hclean =>
    obtain ⟨hroute, hmethod⟩ := Option.filter_eq_some_iff.mp h
    exact ⟨hclean, hroute, (eq_of_beq hmethod).symm⟩

theorem serve_routed (h : r.route? = some route) :
    s.serve now r = s.serveRoute now r route := by
  obtain ⟨hclean, hroute, hmethod⟩ := route?_eq_some h
  exact serve_route hclean hroute hmethod s now

/-- A request that has no route is answered with the spelling of its path, or
that there is no such path or method. -/
theorem serve_unrouted (h : r.route? = none) : (s.serve now r).Refuses s := by
  unfold Incoming.route? at h
  unfold serve
  split at h
  case isFalse hclean =>
    rw [if_pos (by simpa using hclean)]
    exact ⟨rfl, rfl, (by decide : (300 : Int) ≤ 301)⟩
  case isTrue hclean =>
    rw [if_neg (by simpa using hclean), hclean]
    cases hroute : Route.ofPath? r.url.path with
    | none => exact ⟨rfl, rfl, (by decide : (300 : Int) ≤ 404)⟩
    | some route =>
      have hmethod : (route.method == r.method) = false := by
        simpa [hroute, Option.filter] using h
      simp only [hmethod, Bool.false_eq_true, if_false]
      split
      · exact ⟨rfl, rfl, (by decide : (300 : Int) ≤ 405)⟩
      · exact ⟨rfl, rfl, (by decide : (300 : Int) ≤ 404)⟩

-- ---------------------------------------------------------------------------
-- One case for each route
-- ---------------------------------------------------------------------------

theorem refuses_error {status : Int} (h : 300 ≤ status) (code message : Text) :
    Served.Refuses { simulator := s, response := errorResponse status code message } s :=
  ⟨rfl, rfl, h⟩

theorem refuses_invalid (message : Text) :
    Served.Refuses { simulator := s, response := invalid message } s :=
  refuses_error (by decide) _ message

theorem Upgrade.least_status (why : Upgrade.Refusal) : 300 ≤ why.status := by
  cases why <;> simp [Upgrade.Refusal.status]

theorem refuses_socket (r : Incoming) : (serveSocket s r).Refuses s := by
  refine ⟨rfl, rfl, ?_⟩
  simp only [serveSocket, plainText]
  exact Upgrade.least_status _

theorem serves_submit (h : r.route? = some .submitJob) :
    Serves s now r (s.serveSubmit now r) := by
  unfold serveSubmit
  split
  · exact .refused (refuses_invalid _)
  · rename_i order _
    split
    · exact .refused (refuses_invalid _)
    · rename_i hknown
      exact .queues order h (by simpa using hknown) rfl

theorem serves_job (h : r.route? = some (.job text)) : Serves s now r (s.serveJob now text) := by
  have hpolled : r.polled? = jobId? text := by rw [Incoming.polled?, h]
  unfold serveJob
  unfold jobId? at hpolled
  split
  · exact .refused (refuses_invalid _)
  · rename_i id hread
    rw [hread] at hpolled
    split
    · exact .refused (refuses_invalid _)
    · rename_i hpos
      simp only [hpos, if_false] at hpolled
      split
      · exact .refused (refuses_error (by decide) _ _)
      · rename_i job hjob
        exact .polls hpolled hjob

theorem serves_control (h : r.route? = some .control) : Serves s now r (s.serveControl r) := by
  unfold serveControl
  split
  · exact .refused (refuses_invalid _)
  · exact .commands _ _ h rfl

theorem serves_devices (h : r.route? ∈ [some Route.delete, some .rename])
    (devices : Option (List Device)) (done failed : Text) :
    Serves s now r (s.withDevices devices done failed) := by
  cases devices with
  | none => exact .refused (refuses_error (by decide) _ _)
  | some devices => exact .lists devices done h

theorem serves_delete (h : r.route? = some .delete) : Serves s now r (s.serveDelete r) := by
  unfold serveDelete
  split
  · exact .refused (refuses_invalid _)
  · exact serves_devices (h ▸ .head _) _ _ _

theorem serves_rename (h : r.route? = some .rename) : Serves s now r (s.serveRename r) := by
  unfold serveRename
  dsimp only
  split
  · exact .refused (refuses_invalid _)
  · exact serves_devices (h ▸ .tail _ (.head _)) _ _ _

theorem serves_wifi (h : r.route? = some .wifi) : Serves s now r (s.serveWifi r) := by
  unfold serveWifi
  split
  · exact .refused (refuses_invalid _)
  · split
    · exact .refused (refuses_invalid _)
    · exact .saves _ _ h rfl

theorem serve_cases (s : Simulator) (now : Instant) (r : Incoming) :
    Serves s now r (s.serve now r) := by
  cases hroute : r.route? with
  | none => exact .refused (serve_unrouted hroute)
  | some route =>
    rw [serve_routed hroute]
    cases route with
    | status => exact .shows _ (hroute ▸ .head _)
    | health => exact .shows _ (hroute ▸ .tail _ (.head _))
    | links => exact .shows _ (hroute ▸ .tail _ (.tail _ (.head _)))
    | submitJob => exact serves_submit hroute
    | job text => exact serves_job hroute
    | permitJoin => exact .admits _ _ hroute rfl
    | control => exact serves_control hroute
    | delete => exact serves_delete hroute
    | rename => exact serves_rename hroute
    | wifi => exact serves_wifi hroute
    | socket => exact .refused (refuses_socket r)

/-- Whatever a request is granted, the answer is 200. -/
theorem Serves.refuses {served : Served} (h : Serves s now r served)
    (hstatus : served.response.status ≠ 200) : served.Refuses s := by
  cases h with
  | refused hrefuses => exact hrefuses
  | shows | queues | polls | admits | commands | lists | saves => exact absurd rfl hstatus

end

-- ---------------------------------------------------------------------------
-- Requests that change nothing
-- ---------------------------------------------------------------------------

/-- The paths at which a simulator shows what it has. -/
def viewPaths : List Text := ["/api/v1/status", "/api/v1/health", "/api/v1/lqi"]

theorem route?_view {r : Incoming} (hmethod : r.method = "GET") (hpath : r.url.path ∈ viewPaths) :
    ∃ route ∈ [Route.status, .health, .links], r.route? = some route := by
  have hview : ∀ path ∈ viewPaths, Path.clean path = path ∧
      ∃ route ∈ [Route.status, .health, .links],
        Route.ofPath? path = some route ∧ route.method = "GET" := by
    decide
  obtain ⟨hclean, route, hroute, hofPath, hget⟩ := hview _ hpath
  refine ⟨route, hroute, ?_⟩
  rw [Incoming.route?, if_pos hclean, hofPath, hmethod]
  exact Option.filter_eq_some_iff.mpr ⟨rfl, beq_iff_eq.mpr hget⟩

theorem serve_view {r : Incoming} (hmethod : r.method = "GET") (hpath : r.url.path ∈ viewPaths)
    (s : Simulator) (now : Instant) :
    (s.serve now r).simulator = s ∧ frames (s.serve now r).effects = [] ∧
      (s.serve now r).response.status = 200 := by
  obtain ⟨route, hroute, hserved⟩ := route?_view hmethod hpath
  rw [serve_routed hserved]
  simp only [List.mem_cons, List.not_mem_nil, or_false] at hroute
  rcases hroute with rfl | rfl | rfl <;> exact ⟨rfl, rfl, rfl⟩

/-- Any request to any simulator, when it is not answered with 200, or looks
at the status, the health or the link table: the simulator is the same as
before, and nothing is pushed. -/
theorem refused_unchanged (s : Simulator) (now : Instant) (r : Incoming)
    (h : (s.serve now r).response.status ≠ 200 ∨ r.method = "GET" ∧ r.url.path ∈ viewPaths) :
    (s.serve now r).simulator = s ∧ frames (s.serve now r).effects = [] := by
  rcases h with hstatus | ⟨hmethod, hpath⟩
  · have hrefuses := (serve_cases s now r).refuses hstatus
    exact ⟨hrefuses.simulator, hrefuses.frames⟩
  · obtain ⟨hsame, hquiet, -⟩ := serve_view hmethod hpath s now
    exact ⟨hsame, hquiet⟩

/-- A gateway with one device, and a job that has been polled once. -/
def oneDevice : Simulator where
  status := { panId := 0x1234, channel := 15, devices := some [{ addr := 0x1001, name := "lamp" }] }
  jobs := [(1, { id := 1, type := "scan", state := "running", polls := 1 })]
  lastJobId := 1

/-- Asks for a name that is one byte too long, of a device that is there. -/
def overlongRename : Incoming where
  method := "POST"
  url := { path := "/api/v1/rename" }
  body := "\x7b\"short_addr\": 4097, \"name\": \"a name that is one byte too long\"\x7d"

theorem overlongRename_unchanged :
    (oneDevice.serve 0 overlongRename).response.status = 400 ∧
    (oneDevice.serve 0 overlongRename).simulator = oneDevice ∧
    frames (oneDevice.serve 0 overlongRename).effects = [] := by
  have hstatus : (oneDevice.serve 0 overlongRename).response.status = 400 := by decide +kernel
  have hrefused : (oneDevice.serve 0 overlongRename).response.status ≠ 200 := by
    rw [hstatus]
    decide
  exact ⟨hstatus, refused_unchanged oneDevice 0 overlongRename (.inl hrefused)⟩

end MeshConsole.Simulator
