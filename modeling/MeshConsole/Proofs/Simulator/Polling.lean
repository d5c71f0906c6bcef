import MeshConsole.Proofs.Gateway.Networks
import MeshConsole.Proofs.Gateway.Records
import MeshConsole.Proofs.Rest.Replies
import MeshConsole.Proofs.Rest.Requests
import MeshConsole.Proofs.Simulator.Serving

/-!
# What a poll tells

A poll moves a job of the simulator on, and its answer tells the console how
far. A job runs until it has been polled often enough (`poll_running`); then it
has failed with the text set for its type (`poll_failed`), or it has succeeded
(`poll_succeeded`).
-/

namespace MeshConsole.Simulator

open Json
open Json.Value (Plain)
open Rest (Reports reply_report)

-- ---------------------------------------------------------------------------
-- Results
-- ---------------------------------------------------------------------------

/-- What a job yields can be sent. -/
theorem plain_execute (s : Simulator) (now : Instant) (job : SimJob) :
    Plain 3 (s.execute now job).2.1 ∧ (s.execute now job).2.1 ≠ .null := by
  unfold execute
  split
  · exact ⟨plain_scanResult s.networks, nofun⟩
  split
  · exact ⟨.map (List.forall_mem_cons.mpr ⟨.text, List.forall_mem_cons.mpr ⟨.int, nofun⟩⟩), nofun⟩
  split
  · exact ⟨.map (List.forall_mem_cons.mpr ⟨.text, nofun⟩), nofun⟩
  split
  · exact ⟨.map (List.forall_mem_cons.mpr ⟨.text, nofun⟩), nofun⟩
  · refine ⟨.map (List.forall_mem_cons.mpr ⟨.int,
      List.forall_mem_cons.mpr ⟨.listOf fun neighbor _ => ?_, nofun⟩⟩), nofun⟩
    exact plain_neighbor neighbor

-- ---------------------------------------------------------------------------
-- Polls
-- ---------------------------------------------------------------------------

/-- What a job of this type fails with; nothing when it succeeds. -/
def failureOf (s : Simulator) (type : Text) : Text := (s.failures.get? type).getD []

section
variable {job : SimJob} (hdone : job.isDone = false)
include hdone

theorem pollJob_running {s : Simulator} (hmore : job.polls + 1 < s.pollsToComplete)
    (now : Instant) :
    ∃ running, s.pollJob now job =
        ({ s with jobs := s.jobs.set running.id running }, running, []) ∧
      running = { job with
        polls := job.polls + 1, updatedMs := s.uptimeMs now, state := "running" } := by
  refine ⟨_, ?_, rfl⟩
  simp only [pollJob, hdone, hmore, Bool.false_eq_true, if_true, if_false]

theorem pollJob_failed {s : Simulator} (hlast : ¬ job.polls + 1 < s.pollsToComplete)
    (hfailure : s.failureOf job.type ≠ []) (now : Instant) :
    (s.pollJob now job).2.1.state = "failed" ∧ (s.pollJob now job).2.1.result =
      some (.map [("error", .text (s.failureOf job.type))]) := by
  have hne : (!(s.failureOf job.type).isEmpty) = true := by simpa using hfailure
  rw [failureOf] at hne
  simp only [pollJob, hdone, hlast, hne, Bool.false_eq_true, if_true, if_false, failureOf, and_self]

theorem pollJob_succeeded {s : Simulator} (hlast : ¬ job.polls + 1 < s.pollsToComplete)
    (hfailure : s.failureOf job.type = []) (now : Instant) :
    (s.pollJob now job).2.1.state = "succeeded" ∧ ∃ result, Plain 3 result ∧ result ≠ .null ∧
      (s.pollJob now job).2.1.result = some result := by
  have hnil : (!(s.failureOf job.type).isEmpty) = false := by simp [hfailure]
  rw [failureOf] at hnil
  simp only [pollJob, hdone, hlast, hnil, Bool.false_eq_true, if_false]
  exact ⟨trivial, _, (plain_execute ..).1, (plain_execute ..).2, rfl⟩

end

-- ---------------------------------------------------------------------------
-- Answers to polls
-- ---------------------------------------------------------------------------

section
variable {s : Simulator} {id : Int64} {request : Rest.Request} (hpos : 0 < id)
  (hask : Rest.Asks request (.job id)) (hjob : s.jobs.get? id = some job) (now : Instant)
include hpos hask hjob

theorem ask_poll :
    (s.ask now request).simulator = (s.pollJob now job).1 ∧
      (s.ask now request).response = okResponse (s.pollJob now job).2.1.toJson := by
  have hmethod : (arrival request).method = "GET" := by rw [arrival, hask.method]; rfl
  exact serve_poll (r := arrival request) hpos hask.path hmethod hjob now

/-- The reply to a poll tells of the job as the poll has left it. -/
theorem reply_poll (hresult : ∀ result, (s.pollJob now job).2.1.result = some result →
      Plain 3 result ∧ result ≠ .null) (path : Text) :
    ∃ report, (Rest.Call.job id).reply path (s.ask now request).response = .ok report ∧
      Reports report (s.pollJob now job).2.1 := by
  rw [(ask_poll hpos hask hjob now).2]
  exact reply_report hresult id path (by decide)

end

/-- A job that has been polled so often and has not ended. -/
structure IsPending (job : SimJob) (id : Int64) (type : Text) (polls : Nat) : Prop where
  id : job.id = id
  type : job.type = type
  polls : job.polls = polls
  isDone : job.isDone = false
  result : job.result = none

/-- Set up in the same way: jobs end after as many polls, and fail alike. -/
structure Alike (s s' : Simulator) : Prop where
  pollsToComplete : s'.pollsToComplete = s.pollsToComplete
  failures : s'.failures = s.failures

theorem Alike.trans (h : Alike s s') (h' : Alike s' s'') : Alike s s'' :=
  ⟨h'.pollsToComplete.trans h.pollsToComplete, h'.failures.trans h.failures⟩

/-- A submission queues a job under the next id, and the receipt names it. -/
theorem submit_queued {request : Rest.Request} (htype : type ∈ jobTypes) (delay : Option Int64)
    (requestId : Text) (hask : Rest.Asks request
      (.submitJob { type, payload := payload delay, requestId })) (s : Simulator) (now : Instant)
    (call : JobRequest) (path : Text) :
    ∃ receipt job, (Rest.Call.submitJob call).reply path (s.ask now request).response =
        .ok receipt ∧ receipt.id = s.lastJobId + 1 ∧
      (s.ask now request).simulator.jobs.get? (s.lastJobId + 1) = some job ∧
      IsPending job (s.lastJobId + 1) type 0 ∧ s.Alike (s.ask now request).simulator := by
  have hmethod : (arrival request).method = "POST" := by rw [arrival, hask.method]; rfl
  have hbody : (arrival request).body =
      (JobRequest.toJson { type, payload := payload delay, requestId }).render := by
    rw [arrival, hask.body]
    rfl
  obtain ⟨hnext, hanswer⟩ :=
    serve_submission (r := arrival request) hask.path hmethod htype delay requestId hbody s now
  have hreply := Rest.reply_receipt call path { id := s.lastJobId + 1, type, state := "queued" }
  rw [← hanswer] at hreply
  refine ⟨_, (s.queueJob now type (delay.getD 0)).2, hreply, rfl, ?_,
    ⟨rfl, rfl, rfl, rfl, rfl⟩, ?_⟩
  · rw [ask, hnext]
    simp [queueJob]
  · rw [ask, hnext]
    exact ⟨rfl, rfl⟩

section
variable {s : Simulator} {id : Int64} {request : Rest.Request} (hpos : 0 < id)
  (hask : Rest.Asks request (.job id)) (hjob : s.jobs.get? id = some job)
  (hpending : IsPending job id type polls) (now : Instant) (path : Text)
include hpos hask hjob hpending

theorem poll_running (hmore : (polls + 1 : Int) < s.pollsToComplete) :
    ∃ report job', (Rest.Call.job id).reply path (s.ask now request).response = .ok report ∧
      report.state = "running" ∧ report.done = false ∧
      (s.ask now request).simulator.jobs.get? id = some job' ∧
      IsPending job' id type (polls + 1) ∧ s.Alike (s.ask now request).simulator := by
  obtain ⟨rfl, rfl, hpolls, hdone, hresult⟩ := hpending
  obtain ⟨running, hpoll, hrunning⟩ := pollJob_running hdone (hpolls ▸ hmore) now
  have hnone : running.result = none := by rw [hrunning]; exact hresult
  have hstate : running.state = "running" := by rw [hrunning]
  have hid : running.id = job.id := by rw [hrunning]
  have hopen : running.isDone = false := by rw [hrunning]; rfl
  have hscrub : ("running" : Text).scrub = "running" := by decide
  obtain ⟨report, hreply, hreports⟩ :=
    reply_poll hpos hask hjob now (by simp [hpoll, hnone]) path
  rw [hpoll] at hreports
  refine ⟨report, running, hreply, ?_, ?_, ?_, ⟨hid, ?_, ?_, hopen, hnone⟩, ?_⟩
  · rw [hreports.state, hstate, hscrub]
  · rw [hreports.done, hopen]
  · rw [(ask_poll hpos hask hjob now).1, hpoll, hid]
    simp
  · rw [hrunning]
  · rw [hrunning, hpolls]
    rfl
  · rw [(ask_poll hpos hask hjob now).1, hpoll]
    exact ⟨rfl, rfl⟩

section
variable (hlast : ¬ (polls + 1 : Int) < s.pollsToComplete)
include hlast

theorem poll_failed {f : Text} (hfailure : s.failureOf type = f) (hne : f ≠ [])
    (hutf8 : f.isUtf8 = true) :
    ∃ report, (Rest.Call.job id).reply path (s.ask now request).response = .ok report ∧
      report.state = "failed" ∧ Job.failureReason report = f := by
  obtain ⟨rfl, rfl, hpolls, hdone, -⟩ := hpending
  obtain ⟨hstate, hresult⟩ := pollJob_failed hdone (hpolls ▸ hlast) (hfailure ▸ hne) now
  have hscrub : ("failed" : Text).scrub = "failed" := by decide
  have hplain : Plain 3 (.map [("error", .text (s.failureOf job.type))]) :=
    .map (List.forall_mem_cons.mpr ⟨.text, nofun⟩)
  obtain ⟨report, hreply, hreports⟩ := reply_poll hpos hask hjob now
    (fun result heq => by cases hresult.symm.trans heq; exact ⟨hplain, nofun⟩) path
  refine ⟨report, hreply, ?_, ?_⟩
  · rw [hreports.state, hstate, hscrub]
  · refine Job.failureReason_of_result hutf8 hne ?_
    rw [hreports.result, hresult, hfailure, Option.map_some]

theorem poll_succeeded (hfailure : s.failureOf type = []) :
    ∃ report, (Rest.Call.job id).reply path (s.ask now request).response = .ok report ∧
      report.state = "succeeded" := by
  obtain ⟨rfl, rfl, hpolls, hdone, -⟩ := hpending
  obtain ⟨hstate, result, hplain, hnull, hresult⟩ :=
    pollJob_succeeded hdone (hpolls ▸ hlast) hfailure now
  have hscrub : ("succeeded" : Text).scrub = "succeeded" := by decide
  obtain ⟨report, hreply, hreports⟩ := reply_poll hpos hask hjob now
    (fun _ heq => by cases hresult.symm.trans heq; exact ⟨hplain, hnull⟩) path
  refine ⟨report, hreply, ?_⟩
  rw [hreports.state, hstate, hscrub]

end

end

end MeshConsole.Simulator
