import MeshConsole.Proofs.Session.Threads
import MeshConsole.Proofs.Simulator.JobTurns
import MeshConsole.Proofs.Simulator.Polling
import MeshConsole.Simulator.Visit

/-!
# Consoles on a simulated gateway

What an answer makes of the task of a visit, what a step makes of the task of
a rig, and with what a rig starts when a job is submitted.
-/

namespace MeshConsole.Simulator

open Telemetry (Note)
open Job (Run Ticket)

namespace Visit

/-- Nobody sets other networks, or has the session ask elsewhere. -/
def Event.Spares (client : Rest.Client) : Event → Prop
  | .aside _ step => ∀ networks, step ≠ .configure (.setNetworks networks)
  | .meanwhile session => session.client = client
  | .exchange .. => True
  | .pause .. => True

end Visit

/-- The client asks where the simulator serves. -/
def IsAtGateway (client : Rest.Client) : Prop :=
  ∃ authority, Url.IsAuthority authority ∧
    client.base = Text.ofString "http://" ++ (authority ++ Rest.defaultBasePath)

-- ---------------------------------------------------------------------------
-- Answers
-- ---------------------------------------------------------------------------

namespace Visit

section
variable {α : Type} {v : Visit α} {order : Session.Order} {run later : Job.Run}
  {f : Except Fault Text → α} {notes : List Note} {now : Instant} {cancelled : Bool}
  {a : Session.Answer} (htask : v.task = .job order run fun result => .done (f result))
  (hstep : run.step now cancelled (Session.Task.happening run a) = (later, notes))
include htask hstep

theorem tell_goesOn (hphase : ∀ result, later.phase ≠ .ended result) :
    v.tell now cancelled a =
      { v with task := .job order later fun result => .done (f result) } := by
  rw [tell, htask, Session.answer_goesOn hstep hphase]

theorem tell_ends (hphase : later.phase = .ended result) :
    (v.tell now cancelled a).task = .finished (f result) ∧
      (v.tell now cancelled a).session.client = v.session.client := by
  rw [tell, htask, Session.answer_ends hstep hphase]
  exact ⟨rfl, rfl⟩

end

section
variable {α : Type} {v : Visit α} {call : Rest.Call} {served answered : Instant} {cancelled : Bool}

theorem step_exchange (h : v.task.need = .exchange call) (fate : Fate) :
    v.step (.exchange served answered cancelled fate) =
      v.exchange call served answered cancelled fate := by
  simp only [step, h]

theorem step_pause (h : v.task.need = .pause length) (interrupted : Bool) :
    v.step (.pause answered cancelled interrupted) =
      v.tell answered cancelled (if interrupted then .interrupted else .waited) := by
  simp only [step, h]

theorem exchange_answered {request : Rest.Request}
    (hrequest : v.session.client.request call = .ok request) :
    v.exchange call served answered cancelled .answered =
      { v with simulator := (v.simulator.ask served request).simulator }.tell answered cancelled
        (.exchanged (.ok (request.url.path, (v.simulator.ask served request).response))) := by
  rw [exchange, hrequest]

end

end Visit

-- ---------------------------------------------------------------------------
-- Steps
-- ---------------------------------------------------------------------------

namespace Rig

section
variable {r : Rig} {run next : Run} {notes : List Note} {a : Session.Answer}
  {order : Session.Order} (htask : r.task = .job order run .done)
  (hstep : run.step r.now false (Session.Task.happening run a) = (next, notes))
include htask hstep

theorem tell_goesOn (hphase : ∀ result, next.phase ≠ .ended result) :
    r.tell a = { r with task := .job order next .done, notes := r.notes ++ notes } := by
  rw [tell, htask, Session.answer_goesOn hstep hphase]

theorem tell_ends (hphase : next.phase = .ended result) :
    (r.tell a).task = .finished result ∧ (r.tell a).notes = r.notes ++ notes ∧
      (r.tell a).polls = r.polls := by
  rw [tell, htask, Session.answer_ends hstep hphase]
  exact ⟨rfl, congrArg (r.notes ++ ·) (List.append_nil notes), rfl⟩

end

/-- A call that the gateway accepts as such is answered at once. -/
theorem exchange_gateway {r : Rig} (hauthority : Url.IsAuthority authority)
    (hbase : r.session.client.base =
      Text.ofString "http://" ++ (authority ++ Rest.defaultBasePath))
    {call : Rest.Call} (hcheck : call.check = .ok ())
    (hpath : ∀ b ∈ call.path, Url.IsPlain b ∧ b ≠ Ascii.percent) :
    ∃ request path, Rest.Asks request call ∧ r.exchange call = (r.send call request).tell
      (.exchanged (.ok (path, (r.simulator.ask r.now request).response))) := by
  obtain ⟨request, hrequest, hasks⟩ := Rest.request_of_gateway hauthority hbase hcheck hpath
  refine ⟨request, request.url.path, hasks, ?_⟩
  rw [exchange, hrequest]

theorem step_exchange {r : Rig} (h : r.task.need = .exchange call) : r.step = r.exchange call := by
  rw [step, h]

theorem step_waiting {r : Rig}
    (htask : r.task = .job order { ticket := t, phase := .waiting job } .done) :
    r.step = { r with
      now := r.now.plus t.timing.poll
      task := .job order { ticket := t, phase := .polling job } .done } := by
  have hneed : r.task.need = .pause t.timing.poll := by
    rw [htask]
    rfl
  have htell := tell_goesOn (r := { r with now := r.now.plus t.timing.poll }) htask
    (rfl : Run.step _ _ _ (Session.Task.happening _ .waited) = _) fun _ h => by cases h
  rw [step, hneed]
  exact htell.trans (by rw [List.append_nil])

theorem step_finished {r : Rig} (h : r.task = .finished result) : r.step = r := by
  rw [step, h]
  rfl

/-- A rig as a visit. -/
def visit (r : Rig) : Visit (Except Fault Text) where
  simulator := r.simulator
  session := r.session
  task := r.task

/-- What a step is on a visit: nothing else happens, and answers take no time. -/
def event? (r : Rig) : Option Visit.Event :=
  match r.task.need with
  | .nothing => none
  | .exchange _ => some (.exchange r.now r.now false .answered)
  | .pause length => some (.pause (r.now.plus length) false false)

theorem visit_step (r : Rig) : r.step.visit = r.visit.after r.event?.toList := by
  have hneed : r.visit.task.need = r.task.need := rfl
  unfold step event?
  cases h : r.task.need with
  | nothing => rfl
  | exchange call =>
    rw [h] at hneed
    show (r.exchange call).visit = r.visit.step (.exchange r.now r.now false .answered)
    rw [Visit.step_exchange hneed]
    unfold exchange Visit.exchange
    cases hrequest : r.session.client.request call with
    | error why => simp only [visit, hrequest]; rfl
    | ok request => simp only [visit, hrequest]; rfl
  | pause length =>
    rw [h] at hneed
    show _ = r.visit.step (.pause (r.now.plus length) false false)
    rw [Visit.step_pause hneed]
    rfl

end Rig

-- ---------------------------------------------------------------------------
-- Submissions
-- ---------------------------------------------------------------------------

/-- What the next submission of a session is about. -/
def ticketOf (session : Session.State) (order : Session.Order) : Ticket where
  type := order.type
  label := order.label
  requestId := Session.requestId (session.submissions + 1)
  timing := order.timing.orElse session.jobTiming

theorem task_submit (s : Simulator) {session : Session.State} {order : Session.Order}
    (start : Instant) (hfree : session.desk.isActive order.type = false) :
    (Rig.submit s session start order).task =
        .job order { ticket := ticketOf session order } .done ∧
      (Rig.submit s session start order).notes = [] ∧
      (Rig.submit s session start order).session.client = session.client := by
  simp [Rig.submit, Session.Activity.submit, Session.Activity.run, Job.Call.enter,
    Job.Desk.register?, hfree, ticketOf]

theorem plain_jobPath {id : Int64} (hpos : 0 < id) :
    ∀ b ∈ (Rest.Call.job id).path, Url.IsPlain b ∧ b ≠ Ascii.percent := by
  obtain ⟨n, -, -, -, hn⟩ := ofInt_of_pos hpos
  have hfront : ∀ b ∈ ("/jobs/" : Text), Url.IsPlain b ∧ b ≠ Ascii.percent := by decide
  have hdigit (b : UInt8) (hb : Ascii.isDigit b = true) : Url.IsPlain b ∧ b ≠ Ascii.percent := by
    simp only [Ascii.isDigit, Bool.and_eq_true, decide_eq_true_eq] at hb
    simp only [Url.IsPlain, Ascii.blank, Ascii.hash, Ascii.question, Ascii.percent]
    grind
  intro b hb
  rw [Rest.Call.path, hn] at hb
  rcases List.mem_append.mp hb with hb | hb
  · exact hfront b hb
  · exact hdigit b (Text.isDigit_ofNat n b hb)

end MeshConsole.Simulator
