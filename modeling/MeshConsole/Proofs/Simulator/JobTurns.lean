import MeshConsole.Proofs.Simulator.Polling
import MeshConsole.Proofs.Simulator.Requests
import MeshConsole.Simulator.Operation

/-!
# What a step does to the jobs

`turn_moves` says what a turn can do to the jobs and what is answered about
them, `pollJob_cases` what a poll makes of one job.
-/

namespace MeshConsole.Simulator

open Json.Value (Plain object_ne_null)

/-- The states of a job, in the order in which it goes through them; one of
the last two is its end. -/
def jobStates : List Text := ["queued", "running", "succeeded", "failed"]

-- ---------------------------------------------------------------------------
-- Turns
-- ---------------------------------------------------------------------------

namespace Turn

def submits (t : Turn) : Bool := (t.request? >>= Incoming.route?) == some .submitJob

/-- The id of the job that is polled. -/
def polled? (t : Turn) : Option Int64 := t.request? >>= Incoming.polled?

/-- The receipt for a job, as a client reads it. -/
def receipt? (t : Turn) : Option JobReceipt :=
  if t.submits then ((Rest.Call.submitJob { type := [] }).reply [] t.response).toOption else none

/-- The report on a job that a poll of it is answered with, as a client reads
it. -/
def report? (id : Int64) (t : Turn) : Option JobReport :=
  if t.polled? = some id then ((Rest.Call.job id).reply [] t.response).toOption else none

end Turn

/-- All rows are graded anew, and the table is pushed once. -/
structure Regrades (s : Simulator) (now : Instant) (next : Simulator) (effects : List Effect) :
    Prop where
  table : next.linkTable = (s.refreshTable now).1.linkTable
  graded : ∀ n ∈ next.neighbors, ∀ lqi ∈ n.lqi, n.quality = (grade lqi).name
  pushes : ∃ frame, s.frame? now (s.seq + 1) "lqi_update" next.linkTable.toJson = some frame ∧
    effects = [.push frame]

/-- The link table stays as it is, and nothing is pushed. -/
structure Spares (s next : Simulator) (effects : List Effect) : Prop where
  table : next.linkTable = s.linkTable
  pushes : frames effects = []

abbrev Turn.Regrades (t : Turn) : Prop := Simulator.Regrades t.before t.now t.after t.effects

abbrev Turn.Spares (t : Turn) : Prop := Simulator.Spares t.before t.after t.effects

def receipts (turns : List Turn) : List JobReceipt := turns.filterMap Turn.receipt?

/-- A turn that reports on a job. -/
structure Answer where
  turn : Turn
  report : JobReport

def answers (id : Int64) (turns : List Turn) : List Answer :=
  turns.filterMap fun t => (t.report? id).map (.mk t)

-- ---------------------------------------------------------------------------
-- One poll
-- ---------------------------------------------------------------------------

theorem regrades_refreshTable (s : Simulator) (now : Instant) :
    Regrades s now (s.refreshTable now).1 (s.refreshTable now).2 := by
  refine ⟨rfl, ?_, ?_⟩
  · intro n hn lqi hlqi
    obtain ⟨row, -, rfl⟩ := List.mem_map.mp hn
    have hrow : row.lqi = some lqi := hlqi
    simp only [hrow]
  · have hplain : Plain 3 (s.refreshTable now).1.linkTable.toJson := plain_table rfl
    let graded : Simulator := { (s.refreshTable now).1 with seq := s.seq }
    obtain ⟨frame, hframe, hpush⟩ := broadcast_plain hplain graded now "lqi_update"
    exact ⟨frame, hframe, congrArg Prod.snd hpush⟩

theorem execute_refresh (s : Simulator) (now : Instant) {job : SimJob}
    (h : job.type = "lqi_refresh") :
    Regrades s now (s.execute now job).1 (s.execute now job).2.2 := by
  unfold execute
  rw [h]
  exact regrades_refreshTable s now

theorem execute_other (s : Simulator) (now : Instant) {job : SimJob}
    (hknown : job.type ∈ jobTypes) (h : job.type ≠ "lqi_refresh") :
    Spares s (s.execute now job).1 (s.execute now job).2.2 := by
  unfold execute
  simp only [jobTypes, List.mem_cons, List.not_mem_nil, or_false] at hknown
  rcases hknown with hknown | hknown | hknown | hknown | hknown
  · rw [hknown]
    exact ⟨rfl, rfl⟩
  · rw [hknown]
    exact ⟨rfl, rfl⟩
  · rw [hknown]
    exact ⟨rfl, rfl⟩
  · rw [hknown]
    exact ⟨rfl, rfl⟩
  · exact absurd hknown h

/-- Beyond the link table and the number of the next frame, a job that succeeds
changes nothing. -/
theorem execute_frame (s : Simulator) (now : Instant) (job : SimJob) :
    ∃ rows stamp number, (s.execute now job).1 =
      { s with neighbors := rows, tableMs := stamp, seq := number } := by
  unfold execute
  iterate 4
    split
    · exact ⟨_, _, _, rfl⟩
  exact ⟨_, _, _, rfl⟩

/-- A job as it is kept under an id: of a known type, in one of its states,
with a result that can be sent. -/
structure SimJob.IsKept (job : SimJob) (id : Int64) : Prop where
  id : job.id = id
  type : job.type ∈ jobTypes
  state : job.state ∈ jobStates
  result : ∀ result, job.result = some result → Plain 3 result ∧ result ≠ .null

/-- The job later on. A new result is one that can be sent. -/
structure SimJob.Continues (next job : SimJob) : Prop where
  id : next.id = job.id
  type : next.type = job.type
  result : ∀ result, next.result = some result →
    job.result = some result ∨ Plain 3 result ∧ result ≠ .null

/-- What a poll makes of the simulator and of the job. -/
inductive Polled (s : Simulator) (now : Instant) (job : SimJob) :
    Simulator → SimJob → List Effect → Prop where
  | ended : job.isDone = true → Polled s now job s job []
  | running {next : SimJob} : job.isDone = false → next.Continues job → next.state = "running" →
      Polled s now job { s with jobs := s.jobs.set job.id next } next []
  | failed {next : SimJob} : job.isDone = false → next.Continues job → next.state = "failed" →
      s.failureOf job.type ≠ [] →
      Polled s now job { s with jobs := s.jobs.set job.id next } next []
  | succeeded {next : SimJob} : job.isDone = false → next.Continues job →
      next.state = "succeeded" → s.failureOf job.type = [] →
      next.result = some (s.execute now job).2.1 →
      Polled s now job
        { (s.execute now job).1 with jobs := (s.execute now job).1.jobs.set job.id next } next
        (s.execute now job).2.2

theorem pollJob_cases (s : Simulator) (now : Instant) (job : SimJob) :
    Polled s now job (s.pollJob now job).1 (s.pollJob now job).2.1 (s.pollJob now job).2.2 := by
  unfold pollJob
  split
  case isTrue hdone => exact .ended hdone
  case isFalse hdone =>
    rw [Bool.not_eq_true] at hdone
    dsimp only
    split
    · exact .running hdone ⟨rfl, rfl, fun _ hresult => .inl hresult⟩ rfl
    · split
      case isTrue hfailure =>
        refine .failed hdone ⟨rfl, rfl, ?_⟩ rfl (by simpa [failureOf] using hfailure)
        rintro _ ⟨⟩
        exact .inr ⟨.map (List.forall_mem_cons.mpr ⟨.text, List.forall_mem_nil _⟩),
          object_ne_null _⟩
      case isFalse hfailure =>
        refine .succeeded hdone ⟨rfl, rfl, ?_⟩ rfl (by simpa [failureOf] using hfailure) rfl
        rintro _ ⟨⟩
        exact .inr (plain_execute ..)

namespace Polled

variable {s next : Simulator} {now : Instant} {job job' : SimJob} {effects : List Effect}
  (h : Polled s now job next job' effects)
include h

theorem continues : job'.Continues job := by
  cases h with
  | ended => exact ⟨rfl, rfl, fun _ hresult => .inl hresult⟩
  | running _ hcontinues | failed _ hcontinues | succeeded _ hcontinues => exact hcontinues

theorem of_done (hdone : job.isDone = true) : next = s ∧ job' = job ∧ effects = [] := by
  cases h with
  | ended => exact ⟨rfl, rfl, rfl⟩
  | running hopen | failed hopen | succeeded hopen => simp [hdone] at hopen

/-- How a poll ends that finds a job under way. -/
theorem of_open (hopen : job.isDone = false) (hknown : job.type ∈ jobTypes) :
    job'.state = "running" ∧ Spares s next effects ∨
    job'.state = "failed" ∧ s.failureOf job.type ≠ [] ∧ Spares s next effects ∨
    job'.state = "succeeded" ∧ s.failureOf job.type = [] ∧
      (job.type = "lqi_refresh" → Regrades s now next effects) ∧
      (job.type ≠ "lqi_refresh" → Spares s next effects) := by
  cases h with
  | ended hdone => simp [hopen] at hdone
  | running _ _ hstate => exact .inl ⟨hstate, rfl, rfl⟩
  | failed _ _ hstate hfailure => exact .inr (.inl ⟨hstate, hfailure, rfl, rfl⟩)
  | succeeded _ _ hstate hfailure =>
    refine .inr (.inr ⟨hstate, hfailure, fun htype => ?_, fun htype => ?_⟩)
    · exact { execute_refresh s now htype with }
    · exact { execute_other s now hknown htype with }

theorem lastJobId : next.lastJobId = s.lastJobId := by
  cases h with
  | ended | running | failed => rfl
  | succeeded =>
    obtain ⟨_, _, _, hframe⟩ := execute_frame s now job
    rw [hframe]

theorem jobs (hjob : s.jobs.get? job.id = some job) (id : Int64) :
    next.jobs.get? id = if job.id = id then some job' else s.jobs.get? id := by
  cases h with
  | ended =>
    split
    case isTrue hid => rw [← hid, hjob]
    case isFalse => rfl
  | running | failed => exact Table.get?_set _ _ _ _
  | succeeded =>
    obtain ⟨_, _, _, hframe⟩ := execute_frame s now job
    rw [hframe]
    exact Table.get?_set _ _ _ _

theorem kept {id : Int64} (hkept : job.IsKept id) : job'.IsKept id where
  id := h.continues.id.trans hkept.id
  type := h.continues.type ▸ hkept.type
  state := by
    cases h with
    | ended => exact hkept.state
    | running _ _ hstate | failed _ _ hstate | succeeded _ _ hstate =>
      rw [hstate]
      decide
  result := by
    intro result hresult
    rcases h.continues.result result hresult with hold | hnew
    · exact hkept.result result hold
    · exact hnew

end Polled

-- ---------------------------------------------------------------------------
-- One step
-- ---------------------------------------------------------------------------

/-- What a step does to the jobs, and what is answered about them. A poll is
refused only if there is no such job. -/
inductive Turn.Moves (t : Turn) : Prop where
  | apart : t.after.jobs = t.before.jobs → t.after.lastJobId = t.before.lastJobId →
      t.receipt? = none → (∀ id, t.report? id = none) →
      (t.submits = true → t.response.status ≠ 200) →
      (∀ id, t.polled? = some id → t.before.jobs.get? id = none ∧ t.response.status ≠ 200) →
      t.Moves
  | queues (job : SimJob) : job.IsKept (t.before.lastJobId + 1) → job.isDone = false →
      t.after.jobs = t.before.jobs.set job.id job → t.after.lastJobId = job.id →
      t.receipt? = some { id := job.id, type := job.type, state := "queued" } →
      t.polled? = none → t.Moves
  | polls {id : Int64} (job job' : SimJob) : t.polled? = some id → t.submits = false →
      t.before.jobs.get? id = some job → Polled t.before t.now job t.after job' t.effects →
      t.response = okResponse job'.toJson → t.Moves

section
variable {t : Turn} {r : Incoming} {route : Route} (hrequest : t.request? = some r)
  (hroute : r.route? = some route)
include hrequest hroute

theorem submits_eq : t.submits = (route == .submitJob) := by
  rw [Turn.submits, hrequest, Option.bind_eq_bind, Option.bind_some, hroute]
  rfl

theorem polled?_eq_none (hjob : ∀ text, route ≠ .job text) : t.polled? = none := by
  rw [Turn.polled?, hrequest, Option.bind_eq_bind, Option.bind_some, Incoming.polled?, hroute]
  cases route with
  | job text => exact absurd rfl (hjob text)
  | status | health | links | submitJob | permitJoin | control | delete | rename | wifi | socket =>
    rfl

/-- Other routes have nothing to do with jobs. -/
theorem moves_route (hsubmit : route ≠ .submitJob) (hjob : ∀ text, route ≠ .job text)
    (hjobs : t.after.jobs = t.before.jobs) (hlast : t.after.lastJobId = t.before.lastJobId) :
    t.Moves := by
  have hsubmits : t.submits = false := by simpa [submits_eq hrequest hroute] using hsubmit
  have hpolled := polled?_eq_none hrequest hroute hjob
  refine .apart hjobs hlast ?_ ?_ ?_ ?_
  · simp [Turn.receipt?, hsubmits]
  · intro id
    simp [Turn.report?, hpolled]
  · simp [hsubmits]
  · simp [hpolled]

end

theorem route?_of_polled? {r : Incoming} {id : Int64} (h : r.polled? = some id) :
    ∃ text, r.route? = some (.job text) := by
  unfold Incoming.polled? at h
  split at h
  case h_1 text hroute => exact ⟨text, hroute⟩
  case h_2 => cases h

theorem serve_polled {s : Simulator} {now : Instant} {r : Incoming} {id : Int64} {job : SimJob}
    (hpolled : r.polled? = some id) (hjob : s.jobs.get? id = some job) :
    s.serve now r = {
      simulator := (s.pollJob now job).1
      effects := (s.pollJob now job).2.2
      response := okResponse (s.pollJob now job).2.1.toJson } := by
  obtain ⟨text, hroute⟩ := route?_of_polled? hpolled
  rw [Incoming.polled?, hroute] at hpolled
  rw [serve_routed hroute]
  show s.serveJob now text = _
  have hid : jobId? text = some id := hpolled
  unfold jobId? at hid
  unfold serveJob
  cases hread : Numeral.readInt text with
  | error => simp [hread] at hid
  | ok number =>
    by_cases hpos : number ≤ 0
    · simp [hread, hpos] at hid
    · obtain rfl : Int64.ofInt number = id := by simpa [hread, hpos] using hid
      simp only [hpos, if_false, hjob]

theorem turn_moves (s : Simulator) (now : Instant) (step : Step) : (s.turn now step).Moves := by
  cases step with
  | configure setting =>
    refine .apart ?_ ?_ rfl (fun _ => rfl) nofun nofun
    · cases setting <;> rfl
    · cases setting <;> rfl
  | setDevices | setNeighbors | drift | broadcast =>
    exact .apart rfl rfl rfl (fun _ => rfl) nofun nofun
  | request r =>
    have hturn : s.turn now (.request r) =
        { now, before := s, request? := some r, after := (s.serve now r).simulator
          effects := (s.serve now r).effects, response := (s.serve now r).response } := rfl
    -- A poll of a job that is there is answered, so what is refused is no such poll.
    cases hknown : r.polled? >>= s.jobs.get? with
    | some job =>
      obtain ⟨id, hpolled, hjob⟩ := Option.bind_eq_some_iff.mp hknown
      obtain ⟨text, hroute⟩ := route?_of_polled? hpolled
      rw [hturn, serve_polled hpolled hjob]
      refine .polls _ _ hpolled ?_ hjob (pollJob_cases s now _) rfl
      simp [Turn.submits, hroute]
    | none =>
      have hserves := serve_cases s now r
      rw [hturn]
      generalize s.serve now r = served at hserves
      cases hserves with
      | refused hrefuses =>
        -- A refusal is no receipt and no report.
        have hnone (call : Rest.Call) : (call.reply [] served.response).toOption = none := by
          obtain ⟨why, hreply⟩ := Rest.reply_refused [] hrefuses.status
          rw [hreply]
          rfl
        have hstatus : served.response.status ≠ 200 := by
          have hcode := hrefuses.status
          omega
        refine .apart (by rw [hrefuses.simulator]) (by rw [hrefuses.simulator]) ?_ ?_ ?_ ?_
        · simp [Turn.receipt?, hnone]
        · simp [Turn.report?, hnone]
        · exact fun _ => hstatus
        · intro id hpolled
          have hid : r.polled? = some id := hpolled
          rw [hid] at hknown
          exact ⟨hknown, hstatus⟩
      | shows _ hroute =>
        simp only [List.mem_cons, List.not_mem_nil, or_false] at hroute
        rcases hroute with hroute | hroute | hroute <;>
          exact moves_route rfl hroute nofun nofun rfl rfl
      | lists _ _ hroute =>
        simp only [List.mem_cons, List.not_mem_nil, or_false] at hroute
        rcases hroute with hroute | hroute <;>
          exact moves_route rfl hroute nofun nofun rfl rfl
      | admits _ _ hroute | commands _ _ hroute | saves _ _ hroute =>
        exact moves_route rfl hroute nofun nofun rfl rfl
      | queues order hroute hknown =>
        let job := (s.queueJob now order.type order.delayMs).2
        have hkept : job.IsKept (s.lastJobId + 1) := ⟨rfl, hknown, .head _, nofun⟩
        have hscrub : ("queued" : Text).scrub = "queued" := by decide
        refine .queues job hkept rfl rfl rfl ?_ (polled?_eq_none rfl hroute nofun)
        simp [Turn.receipt?, Turn.submits, hroute, Rest.reply_receipt, scrub_jobType hknown,
          hscrub, Except.toOption, job, queueJob]
      | polls hpolled hjob => simp [hpolled, hjob] at hknown

end MeshConsole.Simulator
