import MeshConsole.Proofs.Job.Deadline
import MeshConsole.Proofs.Simulator.Visit

/-!
# How a job ends on the simulator

A console submits a job to the simulated gateway, whose answers take no time,
and polls it. How many polls the job needs, what its type fails with and the
timing of the console settle the rest: when the job is polled, what is
published of it and how the submission ends (`outcome_of_submission`).
-/

namespace MeshConsole

open Telemetry (Note)
open Job (Ticket Progress Run Timing queued)

namespace Simulator

-- ---------------------------------------------------------------------------
-- One answer
-- ---------------------------------------------------------------------------

/-- The state that listeners know of a job that has run through so many
polls. -/
def standing : Nat → Text
  | 0 => queued
  | _ + 1 => "running"

/-- A job that has run through so many polls. -/
def progress (id : Int64) (started : Instant) (k : Nat) : Progress :=
  { id, started, last := standing k }

theorem observe_running (t : Ticket) (id : Int64) (started : Instant) (k : Nat) :
    ∃ notes, t.observe (progress id started k) "running" = (progress id started (k + 1), notes) ∧
      Note.events notes = if k = 0 then [t.notice id "running" []] else [] := by
  -- Only the first poll that finds the job running is news.
  cases k with
  | zero => exact ⟨_, rfl, rfl⟩
  | succ k => exact ⟨_, rfl, rfl⟩

theorem hear_receipt (t : Ticket) (now : Instant)
    (hreply : (Rest.Call.submitJob { type := t.type }).reply path response = .ok receipt)
    (hpos : 0 < receipt.id) :
    ∃ notes, Run.step { ticket := t } now false
        (Session.Task.happening { ticket := t } (.exchanged (.ok (path, response)))) =
      ({ ticket := t, phase := .polling (progress receipt.id now 0) }, notes) ∧
      Note.events notes = [t.notice receipt.id queued []] := by
  have hvalid : ¬ receipt.id ≤ 0 := Int64.not_le.mpr hpos
  simp only [Session.Task.happening, Session.outcomeOf, hreply, Run.step, Run.onSubmitted, hvalid,
    if_false]
  exact ⟨_, rfl, rfl⟩

section
variable (run : Run) (id : Int64) (now start : Instant) (k : Nat) {report : JobReport}

theorem onPolled_running (hstate : report.state = "running") (hdone : report.done = false)
    (hleft : ¬ run.ticket.timing.timeout ≤ now.since start) :
    ∃ notes, run.onPolled now false (progress id start k) (.ok report) =
        ({ run with phase := .waiting (progress id start (k + 1)) }, notes) ∧
      Note.events notes = if k = 0 then [run.ticket.notice id "running" []] else [] := by
  obtain ⟨notes, hobserve, hevents⟩ := observe_running run.ticket id start k
  have hleft : ¬ run.ticket.timing.timeout ≤ now.since (progress id start (k + 1)).started := hleft
  have hsucceeded : ("running" : Text) ≠ Job.succeeded := by decide
  have hfailed : ("running" : Text) ≠ Job.failed := by decide
  simp only [Run.onPolled, hstate, hdone, hsucceeded, hfailed, hobserve, hleft, if_false,
    Bool.false_eq_true, or_self]
  exact ⟨notes, rfl, hevents⟩

theorem onPolled_timeout (hstate : report.state = "running") (hdone : report.done = false)
    (hover : run.ticket.timing.timeout ≤ now.since start) :
    ∃ notes, run.onPolled now false (progress id start k) (.ok report) =
        ({ run with
          phase := .ended (.error (.within (run.ticket.jobName id) .jobTimeout)) }, notes) ∧
      Note.events notes = (if k = 0 then [run.ticket.notice id "running" []] else []) ++
        [run.ticket.notice id Job.failed "timeout"] := by
  obtain ⟨notes, hobserve, hevents⟩ := observe_running run.ticket id start k
  have hover : run.ticket.timing.timeout ≤ now.since (progress id start (k + 1)).started := hover
  have hsucceeded : ("running" : Text) ≠ Job.succeeded := by decide
  have hfailed : ("running" : Text) ≠ Job.failed := by decide
  simp only [Run.onPolled, hstate, hdone, hsucceeded, hfailed, hobserve, hover, if_false, if_true,
    Bool.false_eq_true, or_self]
  refine ⟨_, rfl, ?_⟩
  rw [Note.events_append, hevents]
  rfl

theorem onPolled_failed (hstate : report.state = Job.failed) :
    ∃ notes, run.onPolled now false (progress id start k) (.ok report) =
        ({ run with
          phase := .ended (.error (.jobFailed id run.ticket.type (Job.failureReason report))) },
          notes) ∧
      Note.events notes = [run.ticket.notice id Job.failed (Job.failureReason report)] := by
  have hsucceeded : Job.failed ≠ Job.succeeded := by decide
  simp only [Run.onPolled, hstate, hsucceeded, if_false, true_or, if_true]
  exact ⟨_, rfl, rfl⟩

theorem onPolled_succeeded (hstate : report.state = Job.succeeded) :
    ∃ notes, run.onPolled now false (progress id start k) (.ok report) =
        ({ run with phase := .ended (.ok (report.result.getD [])) }, notes) ∧
      Note.events notes = [run.ticket.notice id Job.succeeded []] := by
  have hordinary : Job.Ordinary "running" := by
    rw [Job.Ordinary]
    decide
  have hopen : Job.Open (progress id start k).last := by
    cases k with
    | zero => exact .inl rfl
    | succ => exact .inr hordinary
  have hevents := Job.observe_succeeded run.ticket (progress id start k) hopen
  simp only [Run.onPolled, hstate, if_true]
  refine ⟨_, rfl, ?_⟩
  rw [Note.events_append, hevents]
  rfl

end

theorem hear_polled (t : Ticket) (id : Int64) (now start : Instant) (k : Nat)
    (hreply : (Rest.Call.job id).reply path response = .ok report) :
    Run.step { ticket := t, phase := .polling (progress id start k) } now false
        (Session.Task.happening { ticket := t, phase := .polling (progress id start k) }
          (.exchanged (.ok (path, response)))) =
      Run.onPolled { ticket := t, phase := .polling (progress id start k) } now false
        (progress id start k) (.ok report) := by
  have houtcome : Session.outcomeOf (.job (progress id start k).id) (.ok (path, response)) =
      .ok report := hreply
  simp only [Session.Task.happening, houtcome, Run.step]

-- ---------------------------------------------------------------------------
-- Rounds
-- ---------------------------------------------------------------------------

/-- The moments of so many polls that follow one another at an interval. -/
def pollTimes (start : Instant) (interval : Duration) (n : Nat) : List Instant :=
  (List.range n).map fun k : Nat => start + k * interval.toInt

theorem pollTimes_succ (start : Instant) (interval : Duration) (n : Nat) :
    pollTimes start interval (n + 1) =
      pollTimes start interval n ++ [start + n * interval.toInt] := by
  rw [pollTimes, List.range_succ, List.map_append]
  rfl

/-- An order that a session can have carried out on a simulator: the job is of a
known type that is not outstanding, the session asks where the simulator
serves, and it has a next id for the job. -/
structure Ready (s : Simulator) (session : Session.State) (order : Session.Order) : Prop where
  known : order.type ∈ jobTypes
  payload : ∃ delay, order.payload = payload delay
  free : session.desk.isActive order.type = false
  gateway : ∃ authority, Url.IsAuthority authority ∧
    session.client.base = Text.ofString "http://" ++ (authority ++ Rest.defaultBasePath)
  id_nonneg : 0 ≤ s.lastJobId
  id_lt : s.lastJobId < Int64.maxValue
  /-- What jobs of the type fail with, if they do, can be written as it is. -/
  failure : (s.failureOf order.type).isUtf8 = true
  poll : 0 < (ticketOf session order).timing.poll
  timeout : 0 < (ticketOf session order).timing.timeout

theorem Ready.id_pos (h : Ready s session order) : 0 < s.lastJobId + 1 := by
  have hnonneg := Int64.le_iff_toInt_le.mp h.id_nonneg
  have hlt := Int64.lt_iff_toInt_lt.mp h.id_lt
  have hmax : Int64.maxValue.toInt = 9223372036854775807 := by decide
  rw [hmax] at hlt
  rw [Int64.lt_iff_toInt_lt, Int64.toInt_add, Int.bmod_eq_of_le]
  all_goals
    simp only [Int64.toInt_zero, Int64.toInt_one] at *
    omega

section
variable {s : Simulator} {session : Session.State} {order : Session.Order} {start : Instant}

/-- A rig that is to poll a job which has run through so many polls. -/
structure Polling (s : Simulator) (session : Session.State) (order : Session.Order)
    (start : Instant) (k : Nat) (r : Rig) : Prop where
  task : r.task = .job order
    { ticket := ticketOf session order
      phase := .polling (progress (s.lastJobId + 1) start k) } .done
  now : r.now = start + k * (ticketOf session order).timing.poll.toInt
  client : r.session.client = session.client
  job : ∃ job, r.simulator.jobs.get? (s.lastJobId + 1) = some job ∧
    IsPending job (s.lastJobId + 1) order.type k
  alike : s.Alike r.simulator
  polls : r.polls = pollTimes start (ticketOf session order).timing.poll k
  events : Note.events r.notes = (queued :: if k = 0 then [] else ["running"]).map
    ((ticketOf session order).notice (s.lastJobId + 1) · [])

section
variable (hready : Ready s session order)
include hready

/-- The submission is accepted: the job is queued, and so it is published. -/
theorem polling_submit :
    Polling s session order start 0 (Rig.submit s session start order).step := by
  obtain ⟨delay, hpayload⟩ := hready.payload
  obtain ⟨authority, hauthority, hbase⟩ := hready.gateway
  obtain ⟨htask, hnotes, hclient⟩ := task_submit s start hready.free
  let ticket := ticketOf session order
  let call : Rest.Call := .submitJob {
    type := order.type, payload := payload delay, requestId := ticket.requestId }
  have hneed : (Rig.submit s session start order).task.need = .exchange call := by
    rw [htask, Session.Task.need, hpayload]
    rfl
  have hplain : ∀ b ∈ call.path, Url.IsPlain b ∧ b ≠ Ascii.percent := by
    rw [Rest.Call.path]
    decide
  obtain ⟨request, path, hasks, hexchange⟩ :=
    Rig.exchange_gateway hauthority (hclient ▸ hbase) rfl hplain
  obtain ⟨receipt, job, hreply, hid, hjob, hpending, halike⟩ :=
    submit_queued hready.known delay _ hasks s start { type := ticket.type } path
  have hpos : 0 < receipt.id := hid ▸ hready.id_pos
  obtain ⟨notes, hstep, hevents⟩ := hear_receipt ticket start hreply hpos
  have hrig := (Rig.step_exchange hneed).trans
    (hexchange.trans (Rig.tell_goesOn (r := Rig.send _ _ _) htask hstep fun _ h => by cases h))
  rw [hrig, hid]
  rw [hid] at hevents
  refine ⟨rfl, ?_, hclient, ⟨job, hjob, hpending⟩, halike, rfl, ?_⟩
  · show start = _
    simp
  · show Note.events ((Rig.submit s session start order).notes ++ notes) = _
    rw [hnotes, List.nil_append, hevents]
    rfl

end

section
variable (hready : Ready s session order) {r : Rig} {k : Nat}
  (hpolling : Polling s session order start k r)
include hready hpolling

theorem step_polling :
    ∃ request path, Rest.Asks request (.job (s.lastJobId + 1)) ∧
      r.step = (r.send (.job (s.lastJobId + 1)) request).tell
        (.exchanged (.ok (path, (r.simulator.ask r.now request).response))) := by
  have hneed : r.task.need = .exchange (.job (s.lastJobId + 1)) := by
    rw [hpolling.task]
    rfl
  obtain ⟨authority, hauthority, hbase⟩ := hready.gateway
  obtain ⟨request, path, hasks, hexchange⟩ := Rig.exchange_gateway hauthority
    (hpolling.client ▸ hbase) rfl (plain_jobPath hready.id_pos)
  exact ⟨request, path, hasks, (Rig.step_exchange hneed).trans hexchange⟩

theorem timeout_le_since_iff :
    (ticketOf session order).timing.timeout ≤ r.now.since start ↔
      (ticketOf session order).timing.pollsAllowed ≤ k + 1 := by
  have hpoll := Int64.lt_iff_toInt_lt.mp hready.poll
  have hpause : 0 ≤ (k * (ticketOf session order).timing.poll.toInt : Int) :=
    Int.mul_nonneg (by omega) (le_of_lt hpoll)
  rw [hpolling.now, Instant.le_since_iff (.inl (Int.le_add_of_nonneg_right hpause)),
    Job.Timing.pollsAllowed_le_iff hready.poll]
  exact iff_of_eq (congrArg _ (add_sub_cancel_left start _))

/-- A job that runs on with time left is polled once more, an interval later. -/
theorem polling_next (hmore : (k + 1 : Int) < s.pollsToComplete)
    (hleft : (k + 1 : Int) < (ticketOf session order).timing.pollsAllowed) :
    Polling s session order start (k + 1) r.step.step := by
  obtain ⟨request, path, hasks, hstep⟩ := step_polling hready hpolling
  obtain ⟨job, hjob, hpending⟩ := hpolling.job
  obtain ⟨report, next, hreply, hstate, hdone, hnext, hnextPending, halike⟩ :=
    poll_running hready.id_pos hasks hjob hpending r.now path
      (hpolling.alike.pollsToComplete ▸ hmore)
  have htime : ¬ (ticketOf session order).timing.timeout ≤ r.now.since start := by
    rw [timeout_le_since_iff hready hpolling]
    exact Int.not_le.mpr hleft
  obtain ⟨notes, hpolled, hevents⟩ := onPolled_running
    { ticket := ticketOf session order, phase := .polling (progress (s.lastJobId + 1) start k) }
    (s.lastJobId + 1) r.now start k hstate hdone htime
  have hheard :=
    (hear_polled (ticketOf session order) (s.lastJobId + 1) r.now start k hreply).trans hpolled
  have hwaiting := hstep.trans
    (Rig.tell_goesOn (r := r.send _ request) hpolling.task hheard fun _ h => by cases h)
  rw [hwaiting, Rig.step_waiting rfl]
  refine ⟨rfl, ?_, hpolling.client, ⟨next, hnext, hnextPending⟩,
    hpolling.alike.trans halike, ?_, ?_⟩
  · show r.now + _ = _
    rw [hpolling.now]
    push_cast
    ring
  · show r.polls ++ [r.now] = _
    rw [hpolling.polls, hpolling.now, pollTimes_succ]
  · show Note.events (r.notes ++ notes) = _
    rw [Note.events_append, hpolling.events, hevents]
    cases k with
    | zero => rfl
    | succ => rfl

end

-- ---------------------------------------------------------------------------
-- Endings
-- ---------------------------------------------------------------------------

/-- How many polls a job takes to its end. -/
def pollsNeeded (s : Simulator) : Int := max s.pollsToComplete 1

/-- How a submission ends, by how many polls its job needs and how many it is
allowed: what it returns, and the state and the reason published last. -/
inductive Ending (t : Ticket) (id : Int64) (failure : Text) (needed allowed : Int) :
    Except Fault Text → Text → Text → Prop where
  | succeeded (text) : needed ≤ allowed → failure = [] →
      Ending t id failure needed allowed (.ok text) Job.succeeded []
  | failed : needed ≤ allowed → failure ≠ [] →
      Ending t id failure needed allowed (.error (.jobFailed id t.type failure)) Job.failed failure
  | timedOut : allowed < needed →
      Ending t id failure needed allowed (.error (.within (t.jobName id) .jobTimeout))
        Job.failed "timeout"

/-- A rig on which a submission has returned. -/
structure Outcome (s : Simulator) (session : Session.State) (order : Session.Order)
    (start : Instant) (result : Except Fault Text) (r : Rig) : Prop where
  task : r.task = .finished result
  polls : r.polls = pollTimes start (ticketOf session order).timing.poll
    (min s.pollsNeeded (ticketOf session order).timing.pollsAllowed).toNat
  events : ∃ state reason, Note.events r.notes =
      (queued :: if 2 ≤ s.pollsNeeded then ["running"] else []).map
        ((ticketOf session order).notice (s.lastJobId + 1) · []) ++
      [(ticketOf session order).notice (s.lastJobId + 1) state reason] ∧
    Ending (ticketOf session order) (s.lastJobId + 1) (s.failureOf order.type) s.pollsNeeded
      (ticketOf session order).timing.pollsAllowed result state reason

section
variable (hready : Ready s session order) {r : Rig} {k : Nat}
  (hpolling : Polling s session order start k r)
include hready hpolling

omit hready in
theorem step_ended {request : Rest.Request} {path : Text}
    (hstep : r.step = (r.send (.job (s.lastJobId + 1)) request).tell
      (.exchanged (.ok (path, (r.simulator.ask r.now request).response))))
    (hreply : (Rest.Call.job (s.lastJobId + 1)).reply path
      (r.simulator.ask r.now request).response = .ok report)
    (hpolled : Run.onPolled { ticket := ticketOf session order, phase } r.now false
        (progress (s.lastJobId + 1) start k) (.ok report) =
      ({ ticket := ticketOf session order, phase := .ended result }, notes)) :
    r.step.task = .finished result ∧ r.step.notes = r.notes ++ notes ∧
      r.step.polls = pollTimes start (ticketOf session order).timing.poll (k + 1) := by
  obtain ⟨htask, hnotes, hpolls⟩ := Rig.tell_ends (r := r.send (.job (s.lastJobId + 1)) request)
    hpolling.task
    ((hear_polled (ticketOf session order) (s.lastJobId + 1) r.now start k hreply).trans hpolled)
    rfl
  rw [hstep]
  refine ⟨htask, hnotes, hpolls.trans ?_⟩
  show r.polls ++ [r.now] = _
  rw [hpolling.polls, hpolling.now, pollTimes_succ]

theorem outcome_timeout (hmore : (k + 1 : Int) < s.pollsToComplete)
    (hlast : (k + 1 : Int) = (ticketOf session order).timing.pollsAllowed) :
    ∃ result, Outcome s session order start result r.step := by
  obtain ⟨request, path, hasks, hstep⟩ := step_polling hready hpolling
  obtain ⟨job, hjob, hpending⟩ := hpolling.job
  obtain ⟨report, next, hreply, hstate, hdone, -, -, -⟩ :=
    poll_running hready.id_pos hasks hjob hpending r.now path
      (hpolling.alike.pollsToComplete ▸ hmore)
  have htime : (ticketOf session order).timing.timeout ≤ r.now.since start := by
    rw [timeout_le_since_iff hready hpolling]
    exact Int.le_of_eq hlast.symm
  obtain ⟨notes, hpolled, hevents⟩ := onPolled_timeout
    { ticket := ticketOf session order, phase := .polling (progress (s.lastJobId + 1) start k) }
    (s.lastJobId + 1) r.now start k hstate hdone htime
  obtain ⟨htask, hnotes, hpolls⟩ := step_ended hpolling hstep hreply hpolled
  refine ⟨_, htask, ?_, _, _, ?_, .timedOut (by rw [← hlast, pollsNeeded]; omega)⟩
  · rw [hpolls, ← hlast, pollsNeeded]
    congr
    omega
  · have htwo : 2 ≤ s.pollsNeeded := by
      rw [pollsNeeded]
      omega
    rw [hnotes, Note.events_append, hpolling.events, hevents, if_pos htwo]
    cases k with
    | zero => rfl
    | succ => rfl

section
variable (hlast : (k + 1 : Int) = s.pollsNeeded)
  (htime : s.pollsNeeded ≤ (ticketOf session order).timing.pollsAllowed)
include hlast htime

omit hready in
theorem outcome_ended
    (hfinished : r.step.task = .finished result ∧ r.step.notes = r.notes ++ notes ∧
      r.step.polls = pollTimes start (ticketOf session order).timing.poll (k + 1))
    (hevents : Note.events notes = [(ticketOf session order).notice (s.lastJobId + 1) state reason])
    (hend : Ending (ticketOf session order) (s.lastJobId + 1) (s.failureOf order.type) s.pollsNeeded
      (ticketOf session order).timing.pollsAllowed result state reason) :
    Outcome s session order start result r.step := by
  obtain ⟨htask, hnotes, hpolls⟩ := hfinished
  refine ⟨htask, ?_, _, _, ?_, hend⟩
  · rw [hpolls, min_eq_left htime, ← hlast]
    rfl
  · have htwo : 2 ≤ s.pollsNeeded ↔ k ≠ 0 := by omega
    rw [hnotes, Note.events_append, hpolling.events, hevents]
    simp only [htwo, ite_not]

theorem outcome_poll : ∃ result, Outcome s session order start result r.step := by
  obtain ⟨request, path, hasks, hstep⟩ := step_polling hready hpolling
  obtain ⟨job, hjob, hpending⟩ := hpolling.job
  have hover : ¬ (k + 1 : Int) < r.simulator.pollsToComplete := by
    rw [hpolling.alike.pollsToComplete, hlast, pollsNeeded]
    omega
  have hfailure : r.simulator.failureOf order.type = s.failureOf order.type := by
    rw [failureOf, hpolling.alike.failures, failureOf]
  let run : Run :=
    { ticket := ticketOf session order, phase := .polling (progress (s.lastJobId + 1) start k) }
  by_cases hnil : s.failureOf order.type = []
  · obtain ⟨report, hreply, hstate⟩ :=
      poll_succeeded hready.id_pos hasks hjob hpending r.now path hover (hfailure.trans hnil)
    obtain ⟨notes, hpolled, hevents⟩ :=
      onPolled_succeeded run (s.lastJobId + 1) r.now start k hstate
    exact ⟨_, outcome_ended hpolling hlast htime
      (step_ended hpolling hstep hreply hpolled) hevents (.succeeded _ htime hnil)⟩
  · obtain ⟨report, hreply, hstate, hreason⟩ := poll_failed hready.id_pos hasks hjob hpending
      r.now path hover hfailure hnil hready.failure
    obtain ⟨notes, hpolled, hevents⟩ := onPolled_failed run (s.lastJobId + 1) r.now start k hstate
    rw [hreason] at hpolled hevents
    exact ⟨_, outcome_ended hpolling hlast htime
      (step_ended hpolling hstep hreply hpolled) hevents (.failed htime hnil)⟩

end

end

section
variable (hready : Ready s session order) (start : Instant)
include hready

/-- Every poll but the last leads to the next one. The submission takes one
step, and a poll with the pause behind it takes two. -/
theorem polling_rounds (k : Nat)
    (hk : (k : Int) < min s.pollsNeeded (ticketOf session order).timing.pollsAllowed) :
    Polling s session order start k (Rig.step^[2 * k + 1] (Rig.submit s session start order)) := by
  induction k with
  | zero => exact polling_submit hready
  | succ k ih =>
    obtain ⟨hneeded, hallowed⟩ := lt_min_iff.mp hk
    push_cast at hneeded hallowed
    have hmore : (k + 1 : Int) < s.pollsToComplete := by
      rw [pollsNeeded] at hneeded
      omega
    have hpolling := ih (by omega)
    have hnext := polling_next hready hpolling hmore hallowed
    rwa [← Function.iterate_succ_apply' Rig.step, ← Function.iterate_succ_apply' Rig.step] at hnext

/-- A submission on the simulator returns, whatever the timing: it polls its
job at the interval until the job has ended or its time is up, and what it
publishes and returns is what `Outcome` says. -/
theorem outcome_of_submission :
    ∃ result rounds, ∀ n ≥ rounds, Outcome s session order start result
      (Rig.step^[n] (Rig.submit s session start order)) := by
  have hallowed := Job.Timing.one_lt_pollsAllowed hready.timeout hready.poll
  have hneeded : 1 ≤ s.pollsNeeded := le_max_right _ _
  obtain ⟨k, hk⟩ : ∃ k : Nat,
      (k + 1 : Int) = min s.pollsNeeded (ticketOf session order).timing.pollsAllowed :=
    ⟨(min s.pollsNeeded (ticketOf session order).timing.pollsAllowed - 1).toNat, by omega⟩
  have hpolling := polling_rounds hready start k (by omega)
  -- A job that ends at the very poll that is past its time has ended.
  obtain ⟨result, houtcome⟩ : ∃ result, Outcome s session order start result
      (Rig.step (Rig.step^[2 * k + 1] (Rig.submit s session start order))) := by
    rcases le_or_gt s.pollsNeeded (ticketOf session order).timing.pollsAllowed with hle | hlt
    · exact outcome_poll hready hpolling (hk.trans (min_eq_left hle)) hle
    · rw [min_eq_right hlt.le] at hk
      rw [pollsNeeded] at hlt
      exact outcome_timeout hready hpolling (by omega) hk
  rw [← Function.iterate_succ_apply' Rig.step] at houtcome
  refine ⟨result, 2 * k + 2, fun n hn => ?_⟩
  obtain ⟨more, rfl⟩ := Nat.exists_eq_add_of_le' hn
  rw [Function.iterate_add_apply, Function.iterate_fixed (Rig.step_finished houtcome.task)]
  exact houtcome

end

end

/-- A gateway on which a scan fails, at its third poll. -/
def busyGateway : Simulator where
  failures := [("scan", "radio busy")]
  pollsToComplete := 3

def labSession : Session.State :=
  .idle (.new "http://gateway.lab" [] 0) { url := "ws://gateway.lab/ws", timing := {} } .none {}

theorem outcome_of_failingScan :
    Ready busyGateway labSession { type := "scan" } ∧
    ∃ rounds, ∀ n ≥ rounds, Outcome busyGateway labSession { type := "scan" } 0
      (.error (.jobFailed 1 "scan" "radio busy"))
      (Rig.step^[n] (Rig.submit busyGateway labSession 0 { type := "scan" })) := by
  have hready : Ready busyGateway labSession { type := "scan" } := by
    refine ⟨by decide, ⟨none, rfl⟩, rfl, ⟨"gateway.lab", ⟨by decide, by decide, by decide⟩, ?_⟩,
      by decide, by decide, by decide, by decide, by decide⟩
    exact Rest.base_new ⟨by decide, by decide, by decide⟩ 0
  refine ⟨hready, ?_⟩
  obtain ⟨result, rounds, houtcome⟩ := outcome_of_submission hready 0
  obtain ⟨state, reason, -, hend⟩ := (houtcome rounds le_rfl).events
  have hallowed : ¬ (ticketOf labSession { type := "scan" }).timing.pollsAllowed ≤ 2 :=
    (Job.Timing.pollsAllowed_le_iff hready.poll 1).not.mpr (by decide)
  cases hend with
  | succeeded _ _ hnil => exact absurd hnil (by decide)
  | failed => exact ⟨rounds, houtcome⟩
  | timedOut hlt => exact absurd (Int.lt_add_one_iff.mp hlt) hallowed

end Simulator

end MeshConsole
