import MeshConsole.Proofs.Simulator.DeviceChanges
import MeshConsole.Session.Visit
import MeshConsole.Simulator.Visit

/-!
# Device changes, end to end

A session has a device deleted or renamed, and pulls the status after that.
Both exchanges may go wrong on the way.

`change_outcome`: which way it goes, what each end is left with. A change that
is made leaves both with the same list; one that is not leaves both as they
were.
-/

namespace MeshConsole

open Telemetry (Note Event Severity)

namespace DeviceChange

open Session

/-- What events call the change. -/
def verb : DeviceChange → Text
  | .delete _ => "delete"
  | .rename _ _ => "rename"

/-- What an error says before its cause. -/
def context : DeviceChange → Text
  | .delete addr => ("delete " : Text) ++ lowerAddr addr
  | .rename addr _ => ("rename " : Text) ++ lowerAddr addr

end DeviceChange

namespace Session

open Simulator (clientAt frames messageResponse)

-- ---------------------------------------------------------------------------
-- Answers
-- ---------------------------------------------------------------------------

/-- What a change is answered with. -/
def changeOutcome : DeviceChange → Exchange → Except Fault Text
  | .delete addr, outcome => outcomeOf (.delete addr) outcome
  | .rename addr name, outcome => outcomeOf (.rename addr name) outcome

/-- What follows on a change that has been made. -/
def followUp (verb message : Text) : Activity (Except Fault Text) := do
  refreshAfter verb
  return .ok message

/-- What a failed pull is told by. -/
def pullFailed (verb : Text) (why : Fault) : Event :=
  .clientError (some (.within "status" why)) verb .warning

/-- The task has asked for a change. It fails with what the gateway says, or
goes on to pull the status. -/
structure Asking (change : DeviceChange) (task : Task (Except Fault Text)) : Prop where
  need : task.need = .exchange change.call
  fails (now : Instant) (cancelled : Bool) (s : State) :
    changeOutcome change outcome = .error why →
      task.answer now cancelled s (.exchanged outcome) =
        { state := s, task := .finished (.error (.within change.context why)) }
  goesOn (now : Instant) (cancelled : Bool) (s : State) :
    changeOutcome change outcome = .ok message →
      task.answer now cancelled s (.exchanged outcome) =
        (followUp change.verb message).run now cancelled s

theorem run_change (change : DeviceChange) (s : State) (now : Instant) (cancelled : Bool) :
    ∃ task, change.activity.run now cancelled s = { state := s, task } ∧ Asking change task := by
  cases change
  all_goals
    refine ⟨_, rfl, rfl, fun later gone s' houtcome => ?_, fun later gone s' houtcome => ?_⟩
    all_goals
      rw [changeOutcome] at houtcome
      simp only [Task.answer, houtcome]
      rfl

theorem run_followUp (verb message : Text) (s : State) (now : Instant) (cancelled : Bool) :
    ∃ task, (followUp verb message).run now cancelled s = { state := s, task } ∧
      task.need = .exchange .status ∧
      (∀ outcome why later gone s', outcomeOf .status outcome = .error why →
        task.answer later gone s' (.exchanged outcome) = {
          state := s'
          notes := if gone then [] else [
            .log (("status after " : Text) ++ verb ++ ": " ++ why.message),
            .publish (pullFailed verb why)]
          task := .finished (.ok message) }) ∧
      (∀ outcome (status : Status) (devices : List Device) later gone s',
        outcomeOf .status outcome = .ok { status with devices := some devices } →
        task.answer later gone s' (.exchanged outcome) = {
          state := { s' with devices }
          notes := [
            .publish (.gatewayInfo (some status.panId) (some status.channel)
              (some status.shortAddr)),
            .publish (.devices devices)]
          task := .finished (.ok message) }) ∧
      (∀ outcome later gone s',
        (task.answer later gone s' (.exchanged outcome)).task = .finished (.ok message)) := by
  refine ⟨_, rfl, rfl, ?_, ?_, ?_⟩
  · intro outcome why later gone s' houtcome
    simp only [Task.answer, houtcome]
    cases gone <;> rfl
  · intro outcome status devices later gone s' houtcome
    simp only [Task.answer, houtcome]
    rfl
  · intro outcome later gone s'
    rw [Task.answer]
    cases outcomeOf .status outcome with
    | error why => cases gone <;> rfl
    | ok status =>
      obtain ⟨panId, channel, shortAddr, devices⟩ := status
      cases devices <;> rfl

-- ---------------------------------------------------------------------------
-- Steps
-- ---------------------------------------------------------------------------

namespace Visit

section
variable {v : Visit} {call : Rest.Call} (hneed : v.task.need = .exchange call) (trip : Trip)
include hneed

theorem step_sent (hrequest : v.session.client.request call = .ok request) :
    v.step trip = { v with asked := v.asked ++ [call] }.send trip request := by
  rw [step, hneed]
  simp only [hrequest]

theorem step_unsendable (hrequest : v.session.client.request call = .error why) :
    v.step trip = v.tell trip (.error why) := by
  rw [step, hneed]
  simp only [hrequest]

end

theorem send_answered {v : Visit} {trip : Trip} (hfate : trip.fate = .answered)
    (request : Rest.Request) : v.send trip request = (v.serve trip request).tell trip
      (.ok (request.url.path, (v.simulator.ask trip.now request).response)) := by
  rw [send, hfate]

/-- Without an answer, it is open whether the gateway has served the
request. -/
theorem send_failed {v : Visit} {trip : Trip} (hfate : trip.fate ≠ .answered)
    (request : Rest.Request) : ∃ why, ∃ w ∈ [v, v.serve trip request],
      v.send trip request = w.tell trip (.error why) ∧
        ∀ why, trip.fate = .unsent why → w = v := by
  cases hcase : trip.fate with
  | answered => exact absurd hcase hfate
  | unsent why =>
    refine ⟨request.failed why, v, .head _, ?_, fun _ _ => rfl⟩
    rw [send, hcase]
  | lost why =>
    refine ⟨request.failed why, v.serve trip request, .tail _ (.head _), ?_, nofun⟩
    rw [send, hcase]

theorem step_finished {v : Visit} (h : v.task = .finished result) (trip : Trip) :
    v.step trip = v := by
  rw [step, h]
  rfl

/-- An error ends the visit. -/
theorem tell_failed {v : Visit} {first : Trip} {outcome : Exchange} {why : Fault}
    (hanswer : v.task.answer first.now first.cancelled v.session (.exchanged outcome) =
      { state := v.session, task := .finished (.error why) }) (second : Trip) :
    (v.tell first outcome).step second = { v with task := .finished (.error why) } := by
  have htell : v.tell first outcome = { v with task := .finished (.error why) } := by
    rw [tell, hanswer]
    simp only [List.append_nil]
  rw [htell, step_finished rfl]

/-- The gateway, the session and the task, without what is on record of them. -/
def parties (v : Visit) : Simulator.Visit (Except Fault Text) where
  simulator := v.simulator
  session := v.session
  task := v.task

/-- A trip is an exchange between them. -/
theorem parties_step (v : Visit) (trip : Trip) :
    ∃ fate, (v.step trip).parties =
      v.parties.step (.exchange trip.now trip.now trip.cancelled fate) := by
  cases hneed : v.task.need with
  | nothing | pause =>
    refine ⟨.answered, ?_⟩
    simp only [step, Simulator.Visit.step, parties, hneed]
  | exchange call =>
    have hstep (fate : Simulator.Visit.Fate) :
        v.parties.step (.exchange trip.now trip.now trip.cancelled fate) =
          v.parties.exchange call trip.now trip.now trip.cancelled fate := by
      simp only [Simulator.Visit.step, parties, hneed]
    simp only [hstep]
    cases hrequest : v.session.client.request call with
    | error why =>
      refine ⟨.answered, ?_⟩
      rw [step_unsendable hneed trip hrequest]
      simp only [Simulator.Visit.exchange, parties, hrequest]
      rfl
    | ok request =>
      rw [step_sent hneed trip hrequest]
      simp only [Simulator.Visit.exchange, parties, hrequest, send]
      cases trip.fate with
      | answered => exact ⟨.answered, rfl⟩
      | unsent why => exact ⟨.unsent (request.failed why), rfl⟩
      | lost why => exact ⟨.unanswered (request.failed why), rfl⟩

end Visit

-- ---------------------------------------------------------------------------
-- Outcomes
-- ---------------------------------------------------------------------------

/-- What the gateway answers when it is asked for a change. -/
def answer? (s : Simulator) (session : State) (change : DeviceChange) (now : Instant) :
    Option Rest.Response :=
  (session.client.request change.call).toOption.map fun request => (s.ask now request).response

def isClientError : Event → Bool
  | .clientError .. => true
  | _ => false

/-- The client errors that have been told of. -/
def clientErrors (notes : List Note) : List Event := (Note.events notes).filter isClientError

/-- The session is told of an error, and is as it was. -/
structure Visit.Fails (v : Visit) (session : State) : Prop where
  error : ∃ why, v.task = .finished (.error why)
  session : v.session = session
  notes : v.notes = []

/-- The gateway has changed one device, the first of the address; with a name
that is UTF-8, that is all. -/
def Visit.Made (v : Visit) (s : Simulator) (change : DeviceChange) : Prop :=
  change.Changes s.devices v.simulator.devices ∧
    v.simulator = { s with status := { s.status with devices := some v.simulator.devices } }

/-- How a visit has gone. -/
inductive Outcome (s : Simulator) (session : State) (change : DeviceChange)
    (first second : Trip) (v : Visit) : Prop where
  | invalid : change.call.check ≠ .ok () → v.Fails session → v.asked = [] → v.simulator = s →
      Outcome s session change first second v
  | broken : change.call.check = .ok () → first.fate ≠ .answered → v.Fails session →
      v.asked = [change.call] → (∀ why, first.fate = .unsent why → v.simulator = s) →
      Outcome s session change first second v
  | rejected {response : Rest.Response} : change.call.check = .ok () → first.fate = .answered →
      answer? s session change first.now = some response → response.status ≠ 200 →
      v.Fails session → v.asked = [change.call] → v.simulator = s →
      (change.isUtf8 = true → ∀ d ∈ s.devices, d.addr ≠ change.addr) →
      Outcome s session change first second v
  | made {response : Rest.Response} (message : Text) : change.call.check = .ok () →
      first.fate = .answered → answer? s session change first.now = some response →
      response.status = 200 → v.task = .finished (.ok message) →
      v.asked = [change.call, .status] → (change.isUtf8 = true → v.Made s change) →
      (second.fate = .answered → change.isUtf8 = true →
        v.session = { session with devices := v.simulator.devices } ∧ clientErrors v.notes = []) →
      (second.fate ≠ .answered → v.session = session ∧ ∃ why,
        clientErrors v.notes = if second.cancelled then [] else [pullFailed change.verb why]) →
      Outcome s session change first second v

section
variable {s : Simulator} {session : State} {change : DeviceChange} {first second : Trip}

theorem changeOutcome_error (change : DeviceChange) (why : Fault) :
    changeOutcome change (.error why) = .error why := by
  cases change <;> rfl

theorem changeOutcome_ok (change : DeviceChange) (path : Text) (response : Rest.Response) :
    changeOutcome change (.ok (path, response)) = change.reply path response := by
  cases change <;> rfl

/-- Asking for the status leaves the gateway as it is. -/
theorem ask_status {request : Rest.Request} (hask : Rest.Asks request .status) (s : Simulator)
    (now : Instant) : (s.ask now request).simulator = s ∧ (s.ask now request).effects = [] := by
  have hroute : (Simulator.arrival request).route? = some .status :=
    Simulator.arrival_route? hask (by decide) (by decide) rfl
  rw [Simulator.ask, Simulator.serve_routed hroute]
  exact ⟨rfl, rfl⟩

/-- What a visit comes to with the pull of the status. -/
structure Visit.Pulled (v : Visit) (verb message : Text) (trip : Trip) (w : Visit) : Prop where
  task : w.task = .finished (.ok message)
  asked : w.asked = v.asked ++ [.status]
  simulator : w.simulator = v.simulator
  effects : w.effects = v.effects
  answered : trip.fate = .answered → (∀ d ∈ v.simulator.devices, d.isUtf8 = true) →
    w.session = { v.session with devices := v.simulator.devices } ∧
      clientErrors w.notes = clientErrors v.notes
  failed : trip.fate ≠ .answered → w.session = v.session ∧ ∃ why, clientErrors w.notes =
    clientErrors v.notes ++ if trip.cancelled then [] else [pullFailed verb why]

theorem clientErrors_append (notes more : List Note) :
    clientErrors (notes ++ more) = clientErrors notes ++ clientErrors more := by
  rw [clientErrors, Note.events_append, List.filter_append]
  rfl

theorem Visit.step_followUp (hauthority : Url.IsAuthority authority) {timeout : Duration}
    {v : Visit} (hclient : v.session.client = clientAt authority timeout) {verb message : Text}
    {start : Instant} {gone : Bool}
    (htask : v.task = ((followUp verb message).run start gone v.session).task) (trip : Trip) :
    v.Pulled verb message trip (v.step trip) := by
  obtain ⟨task, hrun, hneed, hfailed, hpulled, hfinished⟩ :=
    run_followUp verb message v.session start gone
  obtain rfl : v.task = task := by rw [htask, hrun]
  obtain ⟨request, hrequest, hask⟩ : ∃ request,
      (clientAt authority timeout).request .status = .ok request ∧ Rest.Asks request .status :=
    Rest.request_of_gateway hauthority (Rest.base_new hauthority timeout) rfl (by decide)
  have hsent : v.session.client.request .status = .ok request := hclient ▸ hrequest
  obtain ⟨hsame, hquiet⟩ := ask_status hask v.simulator trip.now
  have hserve : { v with asked := v.asked ++ [Rest.Call.status] }.serve trip request =
      { v with asked := v.asked ++ [.status] } := by
    simp only [Visit.serve, hsame, hquiet, List.append_nil]
  rw [Visit.step_sent hneed trip hsent]
  by_cases hfate : trip.fate = .answered
  · rw [Visit.send_answered hfate, hserve]
    refine ⟨hfinished _ _ _ _, rfl, rfl, rfl, fun _ hutf8 => ?_, fun hother => absurd hfate hother⟩
    have hconsult := Simulator.consult_status hauthority timeout trip.now hutf8
    rw [Simulator.consult, hrequest] at hconsult
    have hanswer := hpulled (.ok (request.url.path, (v.simulator.ask trip.now request).response))
      v.simulator.status v.simulator.devices trip.now trip.cancelled v.session hconsult
    rw [Visit.tell]
    dsimp only
    rw [hanswer]
    refine ⟨rfl, ?_⟩
    rw [clientErrors_append]
    exact List.append_nil _
  · obtain ⟨why, w, hw, hsend, -⟩ := Visit.send_failed
      (v := { v with asked := v.asked ++ [Rest.Call.status] }) hfate request
    obtain rfl : w = { v with asked := v.asked ++ [.status] } := by
      simpa [hserve] using hw
    have hanswer := hfailed (.error why) why trip.now trip.cancelled v.session rfl
    rw [hsend, Visit.tell]
    dsimp only
    rw [hanswer]
    refine ⟨rfl, rfl, rfl, rfl, fun hother => absurd hother hfate, fun _ => ⟨rfl, why, ?_⟩⟩
    rw [clientErrors_append]
    cases trip.cancelled <;> rfl

theorem quiet_change {request : Rest.Request} (hask : Rest.Asks request change.call)
    (s : Simulator) (now : Instant) : frames (s.ask now request).effects = [] := by
  rcases Simulator.ask_change_cases hask s now with hrefuses | ⟨devices, message, hserved⟩
  · exact hrefuses.frames
  · rw [hserved]
    rfl

/-- A refusal of a change that the client lets through says that there is no
device of the address. -/
theorem absent_of_refused {request : Rest.Request} (hask : Rest.Asks request change.call)
    (hcheck : change.call.check = .ok ()) (hutf8 : change.isUtf8 = true) {now : Instant}
    (hrefused : (s.ask now request).response.status ≠ 200) :
    ∀ d ∈ s.devices, d.addr ≠ change.addr := by
  have hserved := Simulator.ask_change hask s now hcheck hutf8
  cases hchanged : change.changed? s.devices with
  | none => exact DeviceChange.changed?_eq_none hchanged
  | some devices =>
    rw [hserved, hchanged] at hrefused
    exact absurd rfl hrefused

theorem changes_of_granted {request : Rest.Request} (hask : Rest.Asks request change.call)
    (hcheck : change.call.check = .ok ()) (hutf8 : change.isUtf8 = true) {now : Instant}
    (hgranted : (s.ask now request).response.status = 200) :
    change.Changes s.devices (s.ask now request).simulator.devices := by
  have hserved := Simulator.ask_change hask s now hcheck hutf8
  cases hchanged : change.changed? s.devices with
  | none =>
    rw [hserved, hchanged] at hgranted
    exact absurd hgranted (by decide : (500 : Int) ≠ 200)
  | some devices =>
    rw [hserved, hchanged]
    exact DeviceChange.changes_of_changed? hchanged

/-- The visit whose request has been made. -/
def Visit.sent (s : Simulator) (session : State) (change : DeviceChange)
    (task : Task (Except Fault Text)) : Visit :=
  { simulator := s, session, task, asked := [change.call] }

section
variable {task : Task (Except Fault Text)} {request : Rest.Request} (htask : Asking change task)
  (hcheck : change.call.check = .ok ()) (hask : Rest.Asks request change.call)
include htask hcheck hask

theorem outcome_broken (hfate : first.fate ≠ .answered) :
    let v := ((Visit.sent s session change task).send first request).step second
    frames v.effects = [] ∧ Outcome s session change first second v := by
  obtain ⟨why, w, hw, hsend, hunsent⟩ :=
    Visit.send_failed (v := Visit.sent s session change task) hfate request
  have hsame : w.task = task ∧ w.session = session ∧ w.notes = [] ∧ w.asked = [change.call] ∧
      frames w.effects = [] := by
    simp only [List.mem_cons, List.not_mem_nil, or_false] at hw
    rcases hw with rfl | rfl
    · exact ⟨rfl, rfl, rfl, rfl, rfl⟩
    · exact ⟨rfl, rfl, rfl, rfl, quiet_change hask s first.now⟩
  obtain ⟨rfl, rfl, hnotes, hasked, hsilent⟩ := hsame
  have hanswer := htask.fails first.now first.cancelled w.session (changeOutcome_error change why)
  dsimp only
  rw [hsend, Visit.tell_failed hanswer]
  exact ⟨hsilent, .broken hcheck hfate ⟨⟨_, rfl⟩, rfl, hnotes⟩ hasked
    fun _ hcase => congrArg Visit.simulator (hunsent _ hcase)⟩

section
variable (hfate : first.fate = .answered)
  (hresponse : answer? s session change first.now = some (s.ask first.now request).response)
include hfate hresponse

theorem outcome_rejected (hrefuses : (s.ask first.now request).Refuses s) :
    let v := ((Visit.sent s session change task).send first request).step second
    frames v.effects = [] ∧ Outcome s session change first second v := by
  obtain ⟨hsame, hsilent, hstatus⟩ := hrefuses
  obtain ⟨why, hreply⟩ := change.reply_refused request.url.path hstatus
  have hrefused : (s.ask first.now request).response.status ≠ 200 := by omega
  have hanswer := htask.fails first.now first.cancelled session
    ((changeOutcome_ok ..).trans hreply)
  dsimp only
  rw [Visit.send_answered hfate, Visit.sent, Visit.tell_failed hanswer]
  exact ⟨hsilent, .rejected hcheck hfate hresponse hrefused ⟨⟨_, rfl⟩, rfl, rfl⟩ rfl hsame
    fun hname => absent_of_refused hask hcheck hname hrefused⟩

theorem outcome_made (hauthority : Url.IsAuthority authority) {timeout : Duration}
    (hclient : session.client = clientAt authority timeout)
    (hutf8 : ∀ d ∈ s.devices, d.isUtf8 = true)
    (hserved : s.ask first.now request = {
      simulator := { s with status := { s.status with devices := some devices } }
      response := messageResponse message }) :
    let v := ((Visit.sent s session change task).send first request).step second
    frames v.effects = [] ∧ Outcome s session change first second v := by
  have hgranted : (s.ask first.now request).response.status = 200 := by
    rw [hserved]
    rfl
  have hreply : changeOutcome change
      (.ok (request.url.path, (s.ask first.now request).response)) = .ok message.scrub := by
    rw [changeOutcome_ok, hserved]
    exact change.reply_granted _ message
  obtain ⟨pull, hpull, -⟩ :=
    run_followUp change.verb message.scrub session first.now first.cancelled
  let v : Visit := {
    simulator := (s.ask first.now request).simulator, session, task := pull
    asked := [change.call], effects := (s.ask first.now request).effects }
  have htell : (Visit.sent s session change task).send first request = v := by
    have hanswer := (htask.goesOn first.now first.cancelled session hreply).trans hpull
    rw [Visit.send_answered hfate, Visit.tell]
    dsimp only [Visit.serve, Visit.sent]
    rw [hanswer]
    rfl
  have hpulled := Visit.step_followUp (v := v) hauthority hclient
    (congrArg Stop.task hpull).symm second
  dsimp only
  rw [htell]
  refine ⟨hpulled.effects ▸ quiet_change hask s first.now, .made message.scrub hcheck hfate
    hresponse hgranted hpulled.task hpulled.asked ?_ ?_ ?_⟩
  · intro hname
    rw [Visit.Made, hpulled.simulator]
    refine ⟨changes_of_granted hask hcheck hname hgranted, ?_⟩
    show (s.ask first.now request).simulator = { s with status := { s.status with
      devices := some (s.ask first.now request).simulator.devices } }
    rw [hserved]
    rfl
  · intro hsecond hname
    have hchanges := changes_of_granted hask hcheck hname hgranted
    obtain ⟨hsession, hquietly⟩ := hpulled.answered hsecond (hchanges.isUtf8 hname hutf8)
    exact ⟨hpulled.simulator ▸ hsession, hquietly⟩
  · intro hsecond
    obtain ⟨hsession, why, htold⟩ := hpulled.failed hsecond
    exact ⟨hsession, why, htold⟩

end

end

/-- A device is to be deleted or renamed. With arguments that the gateway would
not take, nothing is asked; when there is no device of the address, or the
exchange goes wrong, nothing but the change is asked: the session is told of an
error and is as it was. Else the gateway changes the first device of the
address, and the call succeeds. The session then shows the gateway's list; if
only that pull goes wrong, it shows its own list and tells of it once, unless
the caller has given up. -/
theorem change_outcome (s : Simulator) (session : State) (change : DeviceChange)
    (first second : Trip) (hauthority : Url.IsAuthority authority) {timeout : Duration}
    (hclient : session.client = clientAt authority timeout)
    (hutf8 : ∀ d ∈ s.devices, d.isUtf8 = true) :
    frames (visit s session change first second).effects = [] ∧
      Outcome s session change first second (visit s session change first second) := by
  obtain ⟨task, hrun, htask⟩ := run_change change session first.now first.cancelled
  have hbegin : Visit.begin s session change first = { simulator := s, session, task } := by
    rw [Visit.begin, hrun]
  rw [visit, hbegin]
  cases hcheck : change.call.check with
  | error limit =>
    have hrequest := Rest.request_invalid session.client hcheck
    have hanswer := htask.fails first.now first.cancelled session
      (changeOutcome_error change (.limit limit))
    rw [Visit.step_unsendable htask.need first hrequest, Visit.tell_failed hanswer]
    exact ⟨rfl, .invalid (by simp [hcheck]) ⟨⟨_, rfl⟩, rfl, rfl⟩ rfl rfl⟩
  | ok =>
    obtain ⟨request, hrequest, hask⟩ := Rest.request_of_gateway hauthority
      (Rest.base_new hauthority timeout) hcheck change.plain_path
    have hsent : session.client.request change.call = .ok request := hclient ▸ hrequest
    have hresponse : answer? s session change first.now =
        some (s.ask first.now request).response := by
      rw [answer?, hsent]
      rfl
    rw [Visit.step_sent htask.need first hsent]
    by_cases hfate : first.fate = .answered
    · rcases Simulator.ask_change_cases hask s first.now with hrefuses | ⟨devices, message, hserved⟩
      · exact outcome_rejected htask hcheck hask hfate hresponse hrefuses
      · exact outcome_made htask hcheck hask hfate hresponse hauthority hclient hutf8 hserved
    · exact outcome_broken htask hcheck hask hfate

end

/-- A gateway that lists two devices under one address. -/
def twinGateway : Simulator :=
  { status := { devices := some [{ addr := 1, name := "porch" }, { addr := 1 }] } }

/-- A session that talks to it, and has not seen its list yet. -/
def twinConsole : State :=
  .idle (clientAt "gateway.lab" 0) (.new "ws://gateway.lab/ws" {}) .reconciling {}

def answeredAt (now : Instant) : Trip := { now, cancelled := false, fate := .answered }

theorem first_twin_renamed :
    let v := visit twinGateway twinConsole (.rename 1 "hall") (answeredAt 0) (answeredAt 1)
    v.session.devices = v.simulator.devices ∧
      ∃ before d after, twinGateway.devices = before ++ d :: after ∧ d.addr = 1 ∧
        (∀ e ∈ before, e.addr ≠ 1) ∧
        v.simulator.devices = before ++ { d with name := "hall" } :: after := by
  have hauthority : Url.IsAuthority "gateway.lab" := ⟨by decide, by decide, by decide⟩
  have hclient : twinConsole.client = clientAt "gateway.lab" 0 := rfl
  obtain ⟨-, houtcome⟩ := change_outcome twinGateway twinConsole (.rename 1 "hall")
    (answeredAt 0) (answeredAt 1) hauthority hclient (by decide)
  dsimp only
  generalize visit twinGateway twinConsole (.rename 1 "hall") (answeredAt 0) (answeredAt 1) = v
    at houtcome
  cases houtcome with
  | invalid hinvalid => exact absurd (by decide) hinvalid
  | broken _ hfate => exact absurd rfl hfate
  | rejected _ _ _ _ _ _ _ habsent =>
    exact absurd rfl (habsent (by decide) { addr := 1, name := "porch" } (.head _))
  | made _ _ _ _ _ _ _ hmade hpulled =>
    obtain ⟨hsession, -⟩ := hpulled rfl (by decide)
    exact ⟨congrArg State.devices hsession, (hmade (by decide)).1⟩

end Session

end MeshConsole
