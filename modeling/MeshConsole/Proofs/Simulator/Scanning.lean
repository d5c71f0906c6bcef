import MeshConsole.Proofs.Gateway.Networks
import MeshConsole.Proofs.Job.Deadline
import MeshConsole.Proofs.Session.Threads
import MeshConsole.Proofs.Simulator.JobHistory
import MeshConsole.Proofs.Simulator.JobOutcome
import MeshConsole.Proofs.Simulator.Visit
import MeshConsole.Session.Action

/-!
# Scans

A console scans by a job on the simulated gateway. Others may turn to the
gateway meanwhile, exchanges may fail, and the console may give the scan up; a
scan that succeeds all the same finds the networks that are set, and no others
(`scan_finds`).
-/

namespace MeshConsole.Simulator

open Job (Phase Progress Run)

def afterSteps (s : Simulator) (steps : List (Instant × Step)) : Simulator :=
  steps.foldl (fun s e => (s.turn e.1 e.2).after) s

-- ---------------------------------------------------------------------------
-- Where a scan stands
-- ---------------------------------------------------------------------------

def scanOrder : Session.Order where
  type := "scan"
  label := "Wi-Fi scan"

def scanned (result : Except Fault Text) : Session.Activity (Except Fault (List Network)) :=
  .done (result.bind Session.networksOf)

theorem scan_eq : Session.scan = .job scanOrder scanned := by
  refine congrArg (Session.Activity.job scanOrder) (funext fun result => ?_)
  cases result <;> rfl

/-- A scan that tells of these networks once it has succeeded. -/
structure SimJob.Finds (job : SimJob) (networks : List Network) : Prop where
  type : job.type = "scan"
  result : job.state = "succeeded" → job.result = some (scanResult networks)

/-- How far a submission has come whose job finds these networks. -/
inductive Follows (s : Simulator) (networks : List Network) : Phase → Prop where
  | submitting : Follows s networks .submitting
  | polling {p : Progress} {job : SimJob} : 0 < p.id → s.jobs.get? p.id = some job →
      job.Finds networks → Follows s networks (.polling p)
  | waiting {p : Progress} {job : SimJob} : 0 < p.id → s.jobs.get? p.id = some job →
      job.Finds networks → Follows s networks (.waiting p)
  | failed (why : Fault) : Follows s networks (.ended (.error why))
  | succeeded : Follows s networks (.ended (.ok (scanResult networks).render))

inductive Stands (s : Simulator) (networks : List Network) :
    Session.Task (Except Fault (List Network)) → Prop where
  | underway {run : Run} : Follows s networks run.phase →
      Stands s networks (.job scanOrder run scanned)
  | failed (why : Fault) : Stands s networks (.finished (.error why))
  | succeeded : Stands s networks (.finished (.ok (Network.strongestFirst networks)))

-- ---------------------------------------------------------------------------
-- The gateway
-- ---------------------------------------------------------------------------

namespace Polled

variable {s next : Simulator} {now : Instant} {job job' : SimJob} {effects : List Effect}
  (h : Polled s now job next job' effects)
include h

theorem networks : next.networks = s.networks := by
  cases h with
  | ended | running | failed => rfl
  | succeeded =>
    obtain ⟨_, _, _, hframe⟩ := execute_frame s now job
    rw [hframe]

theorem finds (hfinds : job.Finds s.networks) : job'.Finds s.networks := by
  cases h with
  | ended => exact hfinds
  | running _ hcontinues hstate | failed _ hcontinues hstate =>
    refine ⟨hcontinues.type.trans hfinds.type, fun hend => ?_⟩
    rw [hstate] at hend
    exact absurd hend (by decide)
  | succeeded _ hcontinues _ _ hresult =>
    refine ⟨hcontinues.type.trans hfinds.type, fun _ => ?_⟩
    rw [hresult]
    unfold execute
    rw [hfinds.type]
    rfl

end Polled

theorem turn_networks (s : Simulator) (now : Instant) {step : Step}
    (h : ∀ networks, step ≠ .configure (.setNetworks networks)) :
    (s.turn now step).after.networks = s.networks := by
  cases step with
  | setDevices | setNeighbors | drift | broadcast => rfl
  | configure setting =>
    cases setting with
    | setNetworks networks => exact absurd rfl (h networks)
    | failJobs | setPolls | setVersion => rfl
  | request r =>
    have hserves := serve_cases s now r
    show (s.serve now r).simulator.networks = s.networks
    generalize s.serve now r = served at hserves ⊢
    cases hserves with
    | refused hrefuses => rw [hrefuses.simulator]
    | polls => exact (pollJob_cases ..).networks
    | shows | queues | admits | commands | lists | saves => rfl

section
variable {s : Simulator} {count : Nat} (horderly : Orderly s count)
include horderly

/-- A scan goes on to find what is set, whatever else is done. -/
theorem Follows.turn {phase : Phase} (h : Follows s s.networks phase)
    (hroom : count + 1 < 2 ^ 63) (now : Instant) (step : Step) :
    Follows (s.turn now step).after s.networks phase := by
  have hmoves := turn_moves s now step
  have hreceipts : count + (s.turn now step).receipt?.toList.length < 2 ^ 63 :=
    Nat.lt_of_le_of_lt (Nat.add_le_add_left Option.length_toList_le count) hroom
  have hkeeps {id : Int64} {job : SimJob} (hjob : s.jobs.get? id = some job)
      (hfinds : job.Finds s.networks) :
      ∃ job', (s.turn now step).after.jobs.get? id = some job' ∧ job'.Finds s.networks := by
    -- The job is left as it is, or it is the one that is polled.
    obtain ⟨-, hafter⟩ | ⟨job', -, -, -, -, hpoll, -, hafter⟩ :=
      turn_job hmoves horderly hreceipts hjob
    · exact ⟨job, hafter, hfinds⟩
    · exact ⟨job', hafter, hpoll.finds hfinds⟩
  cases h with
  | submitting => exact .submitting
  | polling hpos hjob hfinds =>
    obtain ⟨job', hafter, hfinds⟩ := hkeeps hjob hfinds
    exact .polling hpos hafter hfinds
  | waiting hpos hjob hfinds =>
    obtain ⟨job', hafter, hfinds⟩ := hkeeps hjob hfinds
    exact .waiting hpos hafter hfinds
  | failed why => exact .failed why
  | succeeded => exact .succeeded

end

-- ---------------------------------------------------------------------------
-- The console
-- ---------------------------------------------------------------------------

theorem networksOf_scanResult {networks : List Network}
    (hutf8 : ∀ n ∈ networks, n.ssid.isUtf8 = true) :
    Session.networksOf (scanResult networks).render = .ok (Network.strongestFirst networks) := by
  have hread := read_networks hutf8
  have hfilled : (scanResult networks).render.isEmpty = false := by
    by_contra hempty
    rw [Bool.not_eq_false, List.isEmpty_iff] at hempty
    rw [hempty] at hread
    cases hread
  rw [Session.networksOf, hfilled, hread]
  rfl

/-- What is to be kept up of a visit that scans. -/
structure Visit.Sound (client : Rest.Client) (networks : List Network) (count : Nat)
    (v : Visit (Except Fault (List Network))) : Prop where
  orderly : Orderly v.simulator count
  found : v.simulator.networks = networks
  client : v.session.client = client
  stands : Stands v.simulator networks v.task

section
variable {client : Rest.Client} {networks : List Network} {count : Nat}
  {v : Visit (Except Fault (List Network))} {run : Run}

theorem stands_tell (hutf8 : ∀ n ∈ networks, n.ssid.isUtf8 = true)
    (htask : v.task = .job scanOrder run scanned) {now : Instant} {cancelled : Bool}
    {a : Session.Answer}
    (hfollows : Follows v.simulator networks
      (run.step now cancelled (Session.Task.happening run a)).1.phase) :
    Stands v.simulator networks (v.tell now cancelled a).task ∧
      (v.tell now cancelled a).session.client = v.session.client := by
  rcases hstep : run.step now cancelled (Session.Task.happening run a) with ⟨next, notes⟩
  rw [hstep] at hfollows
  cases hphase : next.phase with
  | ended result =>
    obtain ⟨hfinished, hclient⟩ := Visit.tell_ends htask hstep hphase
    rw [hphase] at hfollows
    rw [hfinished]
    refine ⟨?_, hclient⟩
    cases hfollows with
    | failed why => exact .failed why
    | succeeded =>
      rw [Except.bind, networksOf_scanResult hutf8]
      exact .succeeded
  | submitting | polling | waiting =>
    rw [Visit.tell_goesOn htask hstep (by simp [hphase])]
    exact ⟨.underway hfollows, rfl⟩

/-- A run that waits for an answer. -/
def Asking (run : Run) : Prop := run.phase = .submitting ∨ ∃ p, run.phase = .polling p

theorem follows_failure (hasking : Asking run) (s : Simulator) (now : Instant) (cancelled : Bool)
    (why : Fault) :
    Follows s networks
      (run.step now cancelled (Session.Task.happening run (.exchanged (.error why)))).1.phase := by
  rcases hasking with hphase | ⟨p, hphase⟩
  · simp only [Session.Task.happening, hphase, Session.outcomeOf, Run.step, Run.onSubmitted,
      Run.finish]
    exact .failed _
  · simp only [Session.Task.happening, hphase, Session.outcomeOf, Run.step, Run.onPolled,
      Run.abandon, Run.finish]
    exact .failed _

theorem follows_pause {p : Progress} (hphase : run.phase = .waiting p) {s : Simulator}
    (h : Follows s networks (.waiting p)) (now : Instant) (cancelled interrupted : Bool) :
    Follows s networks (run.step now cancelled (Session.Task.happening run
      (if interrupted then .interrupted else .waited))).1.phase := by
  cases interrupted with
  | true =>
    simp only [Session.Task.happening, hphase, Run.step, Run.abandon, Run.finish, if_true]
    exact .failed _
  | false =>
    cases h with
    | waiting hpos hjob hfinds =>
      simp only [Session.Task.happening, hphase, Run.step, Bool.false_eq_true, if_false]
      exact .polling hpos hjob hfinds

theorem follows_receipt (hphase : run.phase = .submitting) {s : Simulator} {request : Rest.Request}
    (hasks : Rest.Asks request (.submitJob {
      type := scanOrder.type, payload := scanOrder.payload, requestId := run.ticket.requestId }))
    (served answered : Instant) (cancelled : Bool) :
    Follows (s.ask served request).simulator networks
      (run.step answered cancelled (Session.Task.happening run
        (.exchanged (.ok (request.url.path, (s.ask served request).response))))).1.phase := by
  obtain ⟨receipt, job, hreply, hid, hjob, hpending, -⟩ :=
    submit_queued (by decide : scanOrder.type ∈ jobTypes) none _ hasks s served
      { type := run.ticket.type } request.url.path
  have hopen := hpending.isDone
  have hfinds : job.Finds networks := by
    refine ⟨hpending.type, fun hend => ?_⟩
    simp [SimJob.isDone, hend] at hopen
  simp only [Session.Task.happening, hphase, Session.outcomeOf, hreply, Run.step, Run.onSubmitted]
  split
  · exact .failed _
  · rename_i hpos
    exact .polling (Int64.not_le.mp hpos) (hid ▸ hjob) hfinds

theorem follows_report {p : Progress} (hphase : run.phase = .polling p) {s : Simulator}
    (horderly : Orderly s count) (h : Follows s s.networks (.polling p)) {request : Rest.Request}
    (hasks : Rest.Asks request (.job p.id)) (served answered : Instant) (cancelled : Bool) :
    Follows (s.ask served request).simulator s.networks
      (run.step answered cancelled (Session.Task.happening run
        (.exchanged (.ok (request.url.path, (s.ask served request).response))))).1.phase := by
  cases h with
  | polling hpos hjob hfinds =>
    rename_i job
    obtain ⟨hkept, -⟩ := horderly.kept _ _ hjob
    have hpoll := pollJob_cases s served job
    have hkept' := hpoll.kept hkept
    have hfinds' := hpoll.finds hfinds
    have hafter : (s.ask served request).simulator.jobs.get? p.id =
        some (s.pollJob served job).2.1 := by
      rw [(ask_poll hpos hasks hjob served).1, hpoll.jobs (hkept.id.symm ▸ hjob), if_pos hkept.id]
    obtain ⟨report, hreply, hreports⟩ :=
      reply_poll hpos hasks hjob served hkept'.result request.url.path
    have houtcome : Session.outcomeOf (.job p.id)
        (.ok (request.url.path, (s.ask served request).response)) = .ok report := hreply
    simp only [Session.Task.happening, hphase, houtcome, Run.step, Job.onPolled_report]
    unfold Job.Ticket.verdict?
    by_cases hend : report.state = Job.succeeded
    · have hstate : (s.pollJob served job).2.1.state = "succeeded" := by
        rw [← scrub_jobState hkept'.state, ← hreports.state]
        exact hend
      simp only [if_pos hend, hreports.result, hfinds'.result hstate]
      exact .succeeded
    · by_cases hover : report.state = Job.failed ∨ report.done = true
      · simp only [if_neg hend, if_pos hover]
        exact .failed _
      · simp only [if_neg hend, if_neg hover]
        split
        · exact .failed _
        · have hid := (Job.observe_job run.ticket p report.state).1
          exact .waiting (hid.symm ▸ hpos) (hid.symm ▸ hafter) hfinds'

-- ---------------------------------------------------------------------------
-- Steps of a visit
-- ---------------------------------------------------------------------------

theorem Stands.turn (horderly : Orderly v.simulator count) (h : Stands v.simulator
    v.simulator.networks v.task) (hroom : count + 1 < 2 ^ 63) (now : Instant) (step : Step) :
    Stands (v.simulator.turn now step).after v.simulator.networks v.task := by
  generalize v.task = task at h ⊢
  cases h with
  | underway hfollows => exact .underway (hfollows.turn horderly hroom now step)
  | failed why => exact .failed why
  | succeeded => exact .succeeded

theorem orderly_next {s : Simulator} (horderly : Orderly s count) (now : Instant) (step : Step) :
    ∃ more ≤ 1, Orderly (s.turn now step).after (count + more) :=
  ⟨_, Option.length_toList_le, orderly_turn (turn_moves s now step) horderly⟩

section
variable (hutf8 : ∀ n ∈ networks, n.ssid.isUtf8 = true)
include hutf8

theorem sound_tell (hv : v.Sound client networks count)
    (htask : v.task = .job scanOrder run scanned) {now : Instant} {cancelled : Bool}
    {a : Session.Answer}
    (hfollows : Follows v.simulator networks
      (run.step now cancelled (Session.Task.happening run a)).1.phase) :
    (v.tell now cancelled a).Sound client networks count := by
  obtain ⟨hstands, hclient⟩ := stands_tell hutf8 htask hfollows
  exact ⟨hv.orderly, hv.found, hclient.trans hv.client, hstands⟩

theorem sound_exchange (hv : v.Sound client networks count)
    (htask : v.task = .job scanOrder run scanned) (hroom : count + 1 < 2 ^ 63)
    (hasking : Asking run) {call : Rest.Call}
    {request : Rest.Request} (hrequest : v.session.client.request call = .ok request)
    {served answered : Instant} {cancelled : Bool}
    (hheard : Follows (v.simulator.ask served request).simulator networks
      (run.step answered cancelled (Session.Task.happening run
        (.exchanged (.ok (request.url.path,
          (v.simulator.ask served request).response))))).1.phase) (fate : Visit.Fate) :
    ∃ more ≤ 1, (v.exchange call served answered cancelled fate).Sound client networks
      (count + more) := by
  obtain ⟨more, hmore, horderly⟩ :=
    orderly_next hv.orderly served (.request (arrival request))
  let next : Visit (Except Fault (List Network)) :=
    { v with simulator := (v.simulator.ask served request).simulator }
  have hnext : next.Sound client networks (count + more) := by
    refine ⟨horderly, ?_, hv.client, ?_⟩
    · have hsame : (v.simulator.turn served (.request (arrival request))).after.networks = _ :=
        turn_networks v.simulator served nofun
      exact hsame.trans hv.found
    · obtain ⟨horderly, rfl, -, hstands⟩ := hv
      exact hstands.turn horderly hroom served (.request (arrival request))
  rw [Visit.exchange, hrequest]
  cases fate with
  | answered => exact ⟨more, hmore, sound_tell hutf8 hnext htask hheard⟩
  | unanswered why =>
    exact ⟨more, hmore, sound_tell hutf8 hnext htask (follows_failure hasking _ _ _ _)⟩
  | unsent why =>
    exact ⟨0, Nat.zero_le 1, sound_tell hutf8 hv htask (follows_failure hasking _ _ _ _)⟩

/-- Whatever becomes of the request that a scan waits for. -/
theorem sound_exchanged (hgateway : IsAtGateway client) (hv : v.Sound client networks count)
    (hroom : count + 1 < 2 ^ 63) (served answered : Instant) (cancelled : Bool)
    (fate : Visit.Fate) :
    ∃ more ≤ 1, (v.step (.exchange served answered cancelled fate)).Sound client networks
      (count + more) := by
  obtain ⟨authority, hauthority, hbase⟩ := hgateway
  have hstands := hv.stands
  generalize htask : v.task = task at hstands
  cases hstands with
  | failed | succeeded =>
    rw [Visit.step, htask]
    exact ⟨0, Nat.zero_le 1, hv⟩
  | @underway run hfollows =>
    generalize hphase : run.phase = phase at hfollows
    cases hfollows with
    | waiting | failed | succeeded =>
      simp only [Visit.step, htask, Session.Task.need, Run.need, hphase]
      exact ⟨0, Nat.zero_le 1, hv⟩
    | submitting =>
      let call : Rest.Call := .submitJob {
        type := scanOrder.type, payload := scanOrder.payload, requestId := run.ticket.requestId }
      have hplain : ∀ b ∈ call.path, Url.IsPlain b ∧ b ≠ Ascii.percent := by
        rw [Rest.Call.path]
        decide
      obtain ⟨request, hrequest, hasks⟩ :=
        Rest.request_of_gateway hauthority (hv.client ▸ hbase) rfl hplain
      simp only [Visit.step, htask, Session.Task.need, Run.need, hphase]
      exact sound_exchange hutf8 hv htask hroom (.inl hphase) hrequest
        (follows_receipt hphase hasks served answered cancelled) fate
    | @polling p _ hpos hjob hfinds =>
      obtain ⟨request, hrequest, hasks⟩ :=
        Rest.request_of_gateway hauthority (hv.client ▸ hbase) rfl (plain_jobPath hpos)
      have hreport := follows_report hphase hv.orderly (hv.found.symm ▸ .polling hpos hjob hfinds)
        hasks served answered cancelled
      simp only [Visit.step, htask, Session.Task.need, Run.need, hphase]
      exact sound_exchange hutf8 hv htask hroom (.inr ⟨p, hphase⟩) hrequest (hv.found ▸ hreport)
        fate

theorem sound_paused (hv : v.Sound client networks count) (ended : Instant)
    (cancelled interrupted : Bool) :
    (v.step (.pause ended cancelled interrupted)).Sound client networks count := by
  have hstands := hv.stands
  generalize htask : v.task = task at hstands
  cases hstands with
  | failed | succeeded =>
    rw [Visit.step, htask]
    exact hv
  | @underway run hfollows =>
    cases hphase : run.phase with
    | submitting | polling | ended =>
      simp only [Visit.step, htask, Session.Task.need, Run.need, hphase]
      exact hv
    | waiting p =>
      simp only [Visit.step, htask, Session.Task.need, Run.need, hphase]
      exact sound_tell hutf8 hv htask
        (follows_pause hphase (hphase ▸ hfollows) ended cancelled interrupted)

theorem sound_step (hgateway : IsAtGateway client) (hv : v.Sound client networks count)
    (hroom : count + 1 < 2 ^ 63) {e : Visit.Event} (hspares : e.Spares client) :
    ∃ more ≤ 1, (v.step e).Sound client networks (count + more) := by
  cases e with
  | aside now step =>
    obtain ⟨more, hmore, horderly⟩ := orderly_next hv.orderly now step
    refine ⟨more, hmore, horderly, (turn_networks _ now hspares).trans hv.found, hv.client, ?_⟩
    obtain ⟨horderly, rfl, -, hstands⟩ := hv
    exact hstands.turn horderly hroom now step
  -- What a submission relies on is at the gateway, so the session may change under it.
  | meanwhile session => exact ⟨0, Nat.zero_le 1, hv.orderly, hv.found, hspares, hv.stands⟩
  | exchange served answered cancelled fate =>
    exact sound_exchanged hutf8 hgateway hv hroom served answered cancelled fate
  | pause ended cancelled interrupted =>
    exact ⟨0, Nat.zero_le 1, sound_paused hutf8 hv ended cancelled interrupted⟩

theorem sound_after (hgateway : IsAtGateway client) (events : List Visit.Event)
    (hv : v.Sound client networks count) (hspares : ∀ e ∈ events, e.Spares client)
    (hroom : count + events.length < 2 ^ 63) :
    ∃ last, (v.after events).Sound client networks last := by
  induction events generalizing v count with
  | nil => exact ⟨count, hv⟩
  | cons e events ih =>
    obtain ⟨hfirst, hrest⟩ := List.forall_mem_cons.mp hspares
    rw [List.length_cons] at hroom
    obtain ⟨more, hmore, hnext⟩ := sound_step hutf8 hgateway hv (by omega) hfirst
    exact ih hnext hrest (by omega)

end

end

theorem sound_start {s : Simulator} {count : Nat} (horderly : Orderly s count)
    (session : Session.State) (now : Instant) (cancelled : Bool) :
    (Visit.start s session now cancelled Session.scan).Sound session.client s.networks count := by
  cases hactive : session.desk.isActive scanOrder.type with
  | true =>
    have hrun : (Session.Activity.job scanOrder scanned).run now cancelled session = _ :=
      Session.run_refused hactive scanned
    rw [Visit.start, scan_eq, hrun]
    exact ⟨horderly, rfl, rfl, .failed _⟩
  | false =>
    have hrun : (Session.Activity.job scanOrder scanned).run now cancelled session = _ :=
      Session.run_enters hactive scanned
    rw [Visit.start, scan_eq, hrun]
    exact ⟨horderly, rfl, rfl, .underway .submitting⟩

-- ---------------------------------------------------------------------------
-- A scan that nobody disturbs
-- ---------------------------------------------------------------------------

/-- A scan that is to poll its job, which has run through so many polls. -/
structure Visit.Polls (s : Simulator) (session : Session.State) (start : Instant) (k : Nat)
    (v : Visit (Except Fault (List Network))) : Prop where
  task : v.task = .job scanOrder
    { ticket := ticketOf session scanOrder
      phase := .polling (progress (s.lastJobId + 1) start k) } scanned
  client : v.session.client = session.client
  job : ∃ job, v.simulator.jobs.get? (s.lastJobId + 1) = some job ∧
    IsPending job (s.lastJobId + 1) scanOrder.type k
  alike : s.Alike v.simulator

/-- A poll that finds the job running, and the pause after it. -/
def calmRound (t : Instant) : List Visit.Event :=
  [.exchange t t false .answered, .pause t false false]

/-- A scan whose job is found running at some times, and has then ended. -/
def calmScan (start : Instant) (times : List Instant) (last : Instant) : List Visit.Event :=
  .exchange start start false .answered ::
    (times.flatMap calmRound ++ [.exchange last last false .answered])

theorem spares_calmScan (client : Rest.Client) (start : Instant) (times : List Instant)
    (last : Instant) : ∀ e ∈ calmScan start times last, e.Spares client := by
  intro e he
  simp only [calmScan, calmRound, List.mem_cons, List.mem_append, List.mem_flatMap,
    List.not_mem_nil, or_false] at he
  rcases he with rfl | ⟨t, -, rfl | rfl⟩ | rfl <;> exact trivial

section
variable {s : Simulator} {session : Session.State} (hready : Ready s session scanOrder)
  {start : Instant} {k : Nat} {v : Visit (Except Fault (List Network))}
include hready

theorem polls_submit :
    ((Visit.start s session start false Session.scan).step
      (.exchange start start false .answered)).Polls s session start 0 := by
  obtain ⟨authority, hauthority, hbase⟩ := hready.gateway
  let ticket := ticketOf session scanOrder
  let call : Rest.Call := .submitJob {
    type := scanOrder.type, payload := payload none, requestId := ticket.requestId }
  have hplain : ∀ b ∈ call.path, Url.IsPlain b ∧ b ≠ Ascii.percent := by
    rw [Rest.Call.path]
    decide
  obtain ⟨request, hrequest, hasks⟩ := Rest.request_of_gateway hauthority hbase rfl hplain
  obtain ⟨receipt, job, hreply, hid, hjob, hpending, halike⟩ :=
    submit_queued hready.known none _ hasks s start { type := ticket.type } request.url.path
  obtain ⟨notes, hstep, -⟩ := hear_receipt ticket start hreply (hid ▸ hready.id_pos)
  have hrun : (Session.Activity.job scanOrder scanned).run start false session = _ :=
    Session.run_enters hready.free scanned
  have hneed : (Visit.start s session start false Session.scan).task.need = .exchange call := by
    rw [Visit.start, scan_eq, hrun]
    rfl
  rw [Visit.step_exchange hneed, Visit.start, scan_eq, hrun, Visit.exchange_answered hrequest,
    Visit.tell_goesOn rfl hstep (fun _ h => by cases h), hid]
  exact ⟨rfl, rfl, ⟨job, hjob, hpending⟩, halike⟩

section
variable (hpolls : v.Polls s session start k)
include hpolls

theorem request_polls : ∃ request,
    v.session.client.request (.job (s.lastJobId + 1)) = .ok request ∧
      Rest.Asks request (.job (s.lastJobId + 1)) ∧
      v.task.need = .exchange (.job (s.lastJobId + 1)) := by
  obtain ⟨authority, hauthority, hbase⟩ := hready.gateway
  obtain ⟨request, hrequest, hasks⟩ := Rest.request_of_gateway hauthority
    (hpolls.client ▸ hbase) rfl (plain_jobPath hready.id_pos)
  refine ⟨request, hrequest, hasks, ?_⟩
  rw [hpolls.task]
  rfl

theorem polls_round {t : Instant} (hmore : (k + 1 : Int) < s.pollsToComplete)
    (htime : ¬ (ticketOf session scanOrder).timing.timeout ≤ t.since start) :
    (v.after (calmRound t)).Polls s session start (k + 1) := by
  obtain ⟨request, hrequest, hasks, hneed⟩ := request_polls hready hpolls
  obtain ⟨job, hjob, hpending⟩ := hpolls.job
  obtain ⟨report, next, hreply, hstate, hdone, hnext, hnextPending, halike⟩ :=
    poll_running hready.id_pos hasks hjob hpending t request.url.path
      (hpolls.alike.pollsToComplete ▸ hmore)
  obtain ⟨notes, hpolled, -⟩ := onPolled_running
    { ticket := ticketOf session scanOrder, phase := .polling (progress (s.lastJobId + 1) start k) }
    (s.lastJobId + 1) t start k hstate hdone htime
  have hheard :=
    (hear_polled (ticketOf session scanOrder) (s.lastJobId + 1) t start k hreply).trans hpolled
  let asked : Visit (Except Fault (List Network)) :=
    { v with simulator := (v.simulator.ask t request).simulator }
  have htask : asked.task = .job scanOrder _ scanned := hpolls.task
  show ((v.step (.exchange t t false .answered)).step (.pause t false false)).Polls _ _ _ _
  rw [Visit.step_exchange hneed, Visit.exchange_answered hrequest,
    Visit.tell_goesOn htask hheard (fun _ h => by cases h), Visit.step_pause rfl false,
    Visit.tell_goesOn rfl rfl (fun _ h => by cases h)]
  exact ⟨rfl, hpolls.client, ⟨next, hnext, hnextPending⟩, hpolls.alike.trans halike⟩

theorem polls_rounds (times : List Instant) (hmore : (k + times.length : Int) < s.pollsNeeded)
    (htimes : ∀ t ∈ times, ¬ (ticketOf session scanOrder).timing.timeout ≤ t.since start) :
    (v.after (times.flatMap calmRound)).Polls s session start (k + times.length) := by
  induction times generalizing k v with
  | nil => exact hpolls
  | cons t times ih =>
    obtain ⟨hfirst, hrest⟩ := List.forall_mem_cons.mp htimes
    rw [List.length_cons] at hmore ⊢
    push_cast at hmore
    have hcomplete : (k + 1 : Int) < s.pollsToComplete := by
      rw [pollsNeeded] at hmore
      omega
    have hnext := ih (polls_round hready hpolls hcomplete hfirst) (by push_cast; omega) hrest
    rw [List.flatMap_cons, Visit.after, List.foldl_append]
    rw [Nat.add_right_comm, Nat.add_assoc] at hnext
    exact hnext

/-- The last poll ends the scan. -/
theorem polls_last (hutf8 : ∀ n ∈ s.networks, n.ssid.isUtf8 = true) {count : Nat}
    (hsound : v.Sound session.client s.networks count)
    (hlast : ¬ (k + 1 : Int) < s.pollsToComplete) (hfailure : s.failureOf scanOrder.type = [])
    (t : Instant) :
    (v.step (.exchange t t false .answered)).success? =
      some (Network.strongestFirst s.networks) := by
  obtain ⟨request, hrequest, hasks, hneed⟩ := request_polls hready hpolls
  obtain ⟨job, hjob, hpending⟩ := hpolls.job
  have hsame : v.simulator.failureOf scanOrder.type = [] := by
    rw [failureOf, hpolls.alike.failures]
    exact hfailure
  obtain ⟨report, hreply, hstate⟩ :=
    poll_succeeded hready.id_pos hasks hjob hpending t request.url.path
      (hpolls.alike.pollsToComplete ▸ hlast) hsame
  let run : Run :=
    { ticket := ticketOf session scanOrder, phase := .polling (progress (s.lastJobId + 1) start k) }
  obtain ⟨notes, hpolled, -⟩ := onPolled_succeeded run (s.lastJobId + 1) t start k hstate
  have hheard :=
    (hear_polled (ticketOf session scanOrder) (s.lastJobId + 1) t start k hreply).trans hpolled
  let asked : Visit (Except Fault (List Network)) :=
    { v with simulator := (v.simulator.ask t request).simulator }
  have hstands := hsound.stands
  rw [hpolls.task] at hstands
  cases hstands with
  | underway hfollows =>
    have hphase : run.phase = .polling (progress (s.lastJobId + 1) start k) := rfl
    have hreport := follows_report hphase hsound.orderly (hsound.found.symm ▸ hfollows) hasks t t
      false
    have htask : asked.task = .job scanOrder run scanned := hpolls.task
    obtain ⟨hfinished, -⟩ := Visit.tell_ends htask hheard rfl
    rw [hheard, hsound.found] at hreport
    rw [Visit.step_exchange hneed, Visit.exchange_answered hrequest, Visit.success?, hfinished]
    generalize report.result.getD [] = text at hreport
    cases hreport with
    | succeeded => simp only [Except.bind, networksOf_scanResult hutf8]

end

/-- A scan that is answered whenever it asks, and polls in time, succeeds. -/
theorem scan_succeeds (hutf8 : ∀ n ∈ s.networks, n.ssid.isUtf8 = true) {count : Nat}
    (horderly : Orderly s count) (hfailure : s.failureOf scanOrder.type = [])
    {times : List Instant} (hcount : (times.length + 1 : Int) = s.pollsNeeded)
    (htimes : ∀ t ∈ times, ¬ (ticketOf session scanOrder).timing.timeout ≤ t.since start)
    (hroom : count + 2 * times.length + 1 < 2 ^ 63) (last : Instant) :
    ((Visit.start s session start false Session.scan).after
      (calmScan start times last)).success? = some (Network.strongestFirst s.networks) := by
  have hsubmit : ((Visit.start s session start false Session.scan).step
      (.exchange start start false .answered)).Polls s session start 0 := polls_submit hready
  have hpolls := polls_rounds hready hsubmit times (by push_cast; omega) htimes
  rw [Nat.zero_add] at hpolls
  let asking : List Visit.Event := .exchange start start false .answered :: times.flatMap calmRound
  have hcalm : calmScan start times last = asking ++ [.exchange last last false .answered] := rfl
  have hlength : asking.length = 2 * times.length + 1 := by
    simp [asking, List.length_flatMap, calmRound, Nat.mul_comm]
  have hspares : ∀ e ∈ asking, e.Spares session.client := fun e he =>
    spares_calmScan session.client start times last e (hcalm ▸ List.mem_append_left _ he)
  obtain ⟨_, hsound⟩ := sound_after hutf8 hready.gateway asking
    (sound_start horderly session start false) hspares (by omega)
  have hneeded : ¬ (times.length + 1 : Int) < s.pollsToComplete := by
    rw [pollsNeeded] at hcount
    omega
  rw [hcalm, Visit.after, List.foldl_append]
  exact polls_last hready hpolls hutf8 hsound hneeded hfailure last

end

-- ---------------------------------------------------------------------------
-- A scan
-- ---------------------------------------------------------------------------

theorem orderly_afterSteps (steps : List (Instant × Step)) {s : Simulator} {count : Nat}
    (horderly : Orderly s count) :
    ∃ more ≤ steps.length, Orderly (afterSteps s steps) (count + more) := by
  induction steps generalizing s count with
  | nil => exact ⟨0, Nat.le_refl 0, horderly⟩
  | cons e steps ih =>
    obtain ⟨first, hfirst, hnext⟩ := orderly_next horderly e.1 e.2
    obtain ⟨more, hmore, hlast⟩ := ih hnext
    refine ⟨first + more, ?_, Nat.add_assoc .. ▸ hlast⟩
    rw [List.length_cons]
    omega

theorem Stands.found {s : Simulator} {networks : List Network}
    {v : Visit (Except Fault (List Network))} (h : Stands s networks v.task)
    {found : List Network} (hsuccess : v.success? = some found) :
    found = Network.strongestFirst networks := by
  unfold Visit.success? at hsuccess
  generalize v.task = task at h hsuccess
  cases h with
  | underway | failed => cases hsuccess
  | succeeded => exact (Option.some.inj hsuccess).symm

/-- A scan, at any time, by a console that asks where the simulator serves:
whatever happens to either of them in between, as long as no other networks are
set and the numbers of jobs do not overflow. When it succeeds, it returns the
networks that have been set, ranked. -/
theorem scan_finds (s : Simulator) (hjobs : s.jobs = []) (hlast : s.lastJobId = 0)
    (earlier : List (Instant × Step)) (set : Instant) (networks : List Network)
    (hutf8 : ∀ n ∈ networks, n.ssid.isUtf8 = true) (session : Session.State)
    (hgateway : IsAtGateway session.client) (now : Instant) (cancelled : Bool)
    (events : List Visit.Event) (hspares : ∀ e ∈ events, e.Spares session.client)
    (hroom : earlier.length + 1 + events.length < 2 ^ 63) {found : List Network}
    (hsuccess : ((Visit.start
        (afterSteps s (earlier ++ [(set, .configure (.setNetworks networks))])) session now
        cancelled Session.scan).after events).success? = some found) :
    Network.Ranks networks found := by
  obtain ⟨more, hmore, horderly⟩ := orderly_afterSteps
    (earlier ++ [(set, .configure (.setNetworks networks))]) (orderly_new hjobs hlast)
  rw [List.length_append, List.length_singleton] at hmore
  have hset : (afterSteps s (earlier ++ [(set, .configure (.setNetworks networks))])).networks =
      networks := by
    rw [afterSteps, List.foldl_append]
    rfl
  have hstart := sound_start horderly session now cancelled
  rw [hset] at hstart
  obtain ⟨last, hsound⟩ := sound_after hutf8 hgateway events hstart hspares (by omega)
  rw [hsound.stands.found hsuccess]
  exact ranks_strongestFirst networks

/-- Three of them are equally strong, and two are the same. -/
def crowdedBand : List Network := [
  { ssid := "attic", rssi := -70, auth := 3 },
  { ssid := "<Küche> & \"Co\"", rssi := -48, auth := 4 },
  { ssid := "guest", rssi := -70, auth := 0 },
  { ssid := "", rssi := 12, auth := -1 },
  { ssid := "attic", rssi := -70, auth := 3 }]

def rankedBand : List Network := [
  { ssid := "", rssi := 12, auth := -1 },
  { ssid := "<Küche> & \"Co\"", rssi := -48, auth := 4 },
  { ssid := "attic", rssi := -70, auth := 3 },
  { ssid := "guest", rssi := -70, auth := 0 },
  { ssid := "attic", rssi := -70, auth := 3 }]

theorem scan_crowdedBand :
    ((Visit.start (afterSteps {} [(0, .configure (.setNetworks crowdedBand))]) labSession 0 false
      Session.scan).after (calmScan 0 [200000000] 700000000)).success? = some rankedBand ∧
    Network.Ranks crowdedBand rankedBand := by
  let gateway : Simulator := afterSteps {} [(0, .configure (.setNetworks crowdedBand))]
  have hready : Ready gateway labSession scanOrder := by
    refine ⟨by decide, ⟨none, rfl⟩, rfl, ⟨"gateway.lab", ⟨by decide, by decide, by decide⟩, ?_⟩,
      by decide, by decide, by decide, by decide, by decide⟩
    exact Rest.base_new ⟨by decide, by decide, by decide⟩ 0
  have hutf8 : ∀ n ∈ crowdedBand, n.ssid.isUtf8 = true := by decide
  have horderly : Orderly gateway 0 := orderly_new rfl rfl
  have hranked : Network.strongestFirst crowdedBand = rankedBand := by
    simp [Network.strongestFirst, crowdedBand, rankedBand, List.mergeSort,
      List.MergeSort.Internal.splitInTwo]
  have htimes : ∀ t ∈ [(200000000 : Instant)],
      ¬ (ticketOf labSession scanOrder).timing.timeout ≤ t.since 0 := by
    decide
  have hsuccess := scan_succeeds hready hutf8 horderly rfl rfl htimes (by decide) 700000000
  have hspares := spares_calmScan labSession.client 0 [200000000] 700000000
  have hranks := scan_finds {} rfl rfl [] 0 crowdedBand hutf8 labSession hready.gateway 0 false
    (calmScan 0 [200000000] 700000000) hspares (by decide) hsuccess
  exact ⟨hranked ▸ hsuccess, hranked ▸ hranks⟩

end MeshConsole.Simulator
