import MeshConsole.Proofs.Session.Threads

/-!
# Independent pulls

A session reconciles by three pulls: of the status, the health and the link
table. It makes all of them, whatever becomes of the others. A pull that
succeeds is taken in like a push, and one that fails leaves the session as it
is and is told of once, unless the caller has given up (`reconcile_sights`).
-/

namespace MeshConsole.Session

open Telemetry (Note Event)

-- ---------------------------------------------------------------------------
-- Taking in
-- ---------------------------------------------------------------------------

/-- The session once it has taken in a payload. -/
def State.taking (s : State) (now : Instant) : Push.Payload → State
  | .devices devices => { s with devices }
  | .health _ => s
  | .links table => { s with monitor := s.monitor.ingest table.rows table.batchMeta now }
  | .status update => { s with devices := update.devices.getD s.devices }

/-- What a session that has taken in a payload tells of it. -/
def State.tells (s : State) (now : Instant) : Push.Payload → List Event
  | .devices devices => [.devices devices]
  | .health health => [.health health]
  | .links _ => [.links (s.view now)]
  | .status update =>
    (if update.panId.isSome || update.channel.isSome || update.shortAddr.isSome then
      [.gatewayInfo update.panId update.channel update.shortAddr] else []) ++
    (update.devices.map Event.devices).toList

theorem run_takePayload (payload : Push.Payload) (now : Instant) (cancelled : Bool) (s : State) :
    (takePayload payload).run now cancelled s = {
      state := s.taking now payload
      notes := ((s.taking now payload).tells now payload).map .publish
      task := .finished () } := by
  cases payload with
  | devices | health | links => rfl
  | status update =>
    obtain ⟨panId, channel, shortAddr, devices⟩ := update
    show (takeStatus _).run now cancelled s = _
    unfold takeStatus
    by_cases hinfo : panId.isSome || channel.isSome || shortAddr.isSome
    · rw [State.tells, if_pos hinfo, if_pos hinfo]
      cases devices <;> rfl
    · rw [State.tells, if_neg hinfo, if_neg hinfo]
      cases devices <;> rfl

-- ---------------------------------------------------------------------------
-- Pulls
-- ---------------------------------------------------------------------------

inductive Inquiry where
  | status
  | health
  | links
  deriving Repr, DecidableEq

namespace Inquiry

def call : Inquiry → Rest.Call
  | .status => .status
  | .health => .health
  | .links => .links

/-- How reports name an inquiry. -/
def name : Inquiry → Text
  | .status => "status"
  | .health => "health"
  | .links => "lqi"

def payload : (p : Inquiry) → p.call.Reply → Push.Payload
  | .status, answer => .status (Status.update answer)
  | .health, answer => .health answer
  | .links, answer => .links answer

/-- What is done about an answer. -/
def settle (p : Inquiry) : Except Fault p.call.Reply → Activity Unit
  | .ok reply => takePayload (p.payload reply)
  | .error why => reportPullError p.name why

end Inquiry

def pullAll : List Inquiry → Activity Unit
  | [] => .done ()
  | p :: rest => .call p.call fun answer => (p.settle answer).bind fun _ => pullAll rest

theorem Activity.bind_assoc (a : Activity α) (f : α → Activity β) (g : β → Activity γ) :
    (a.bind f).bind g = a.bind fun value => (f value).bind g := by
  induction a with
  | done value => rfl
  | note entry next ih => exact congrArg (Activity.note entry) ih
  | store change next ih => exact congrArg (Activity.store change) ih
  | look next ih => exact congrArg Activity.look (funext ih)
  | call question next ih => exact congrArg (Activity.call question) (funext ih)
  | job order next ih => exact congrArg (Activity.job order) (funext ih)

theorem Activity.bind_done (a : Activity α) : a.bind .done = a := by
  induction a with
  | done value => rfl
  | note entry next ih => exact congrArg (Activity.note entry) ih
  | store change next ih => exact congrArg (Activity.store change) ih
  | look next ih => exact congrArg Activity.look (funext ih)
  | call question next ih => exact congrArg (Activity.call question) (funext ih)
  | job order next ih => exact congrArg (Activity.job order) (funext ih)

theorem reconcile_eq : reconcile = pullAll [.status, .health, .links] := by
  have hlinks : pullLinks = pullAll [.links] := by
    refine congrArg (Activity.call .links) (funext fun answer => ?_)
    cases answer with
    | error | ok => exact (Activity.bind_done _).symm
  have hhealth : (pullHealth.bind fun _ => pullLinks) = pullAll [.health, .links] := by
    rw [hlinks]
    refine congrArg (Activity.call .health) (funext fun answer => ?_)
    cases answer <;> rfl
  refine congrArg (Activity.call .status) (funext fun answer => ?_)
  cases answer with
  | error why => exact congrArg (Activity.bind _) (funext fun _ => hhealth)
  | ok status =>
    refine (Activity.bind_assoc (takeStatus status.update) _ _).trans ?_
    exact congrArg (Activity.bind _) (funext fun _ => hhealth)

-- ---------------------------------------------------------------------------
-- Answers
-- ---------------------------------------------------------------------------

/-- How a pull goes: what others make of the session while it lasts, when it is
over, whether the caller has given up by then, and what has come of the
exchange. -/
structure Course where
  meanwhile : State → State
  now : Instant
  cancelled : Bool
  outcome : Exchange

namespace Course

variable (c : Course) (p : Inquiry) (s : State)

/-- What a pull brings, or why it fails. -/
def brings : Except Fault Push.Payload := (outcomeOf p.call c.outcome).map p.payload

def leaves : State :=
  match c.brings p with
  | .ok payload => (c.meanwhile s).taking c.now payload
  | .error _ => c.meanwhile s

/-- What a session tells at the end of a pull. -/
def tells : List Event :=
  match c.brings p with
  | .ok payload => (c.leaves p s).tells c.now payload
  | .error why =>
    if c.cancelled then []
    else [.clientError (some (.within p.name why)) "reconcile" .warning]

end Course

/-- Goes on with what has come of an exchange. -/
def Stop.resume (stop : Stop α) (c : Course) : Stop α :=
  let next := stop.task.answer c.now c.cancelled (c.meanwhile stop.state) (.exchanged c.outcome)
  { next with notes := stop.notes ++ next.notes }

/-- What there is to be seen of an activity that has come to a stop. -/
structure Sight where
  state : State
  told : List Event
  need : Need

def Stop.sight (stop : Stop α) : Sight where
  state := stop.state
  told := Note.events stop.notes
  need := stop.task.need

/-- What there is to be seen of pulls that go in some way, from the first to the
last. -/
def sights (s : State) (told : List Event) : List (Inquiry × Course) → List Sight
  | [] => [{ state := s, told, need := .nothing }]
  | (p, c) :: rest =>
    { state := s, told, need := .exchange p.call } ::
      sights (c.leaves p s) (told ++ c.tells p s) rest

/-- Where pulls stand before the first of them is answered. -/
def pulling : List Inquiry → Task Unit
  | [] => .finished ()
  | p :: rest => .calling p.call fun answer => (p.settle answer).bind fun _ => pullAll rest

theorem run_pullAll (inquiries : List Inquiry) (now : Instant) (cancelled : Bool) (s : State) :
    (pullAll inquiries).run now cancelled s = { state := s, task := pulling inquiries } := by
  cases inquiries <;> rfl

theorem events_published (events : List Event) : Note.events (events.map .publish) = events := by
  induction events with
  | nil => rfl
  | cons event rest ih => exact congrArg (event :: ·) ih

/-- What is done about an answer comes to its end at once. -/
theorem run_settle (p : Inquiry) (c : Course) (s : State) : ∃ notes,
    (p.settle (outcomeOf p.call c.outcome)).run c.now c.cancelled (c.meanwhile s) =
        { state := c.leaves p s, notes, task := .finished () } ∧
      Note.events notes = c.tells p s := by
  unfold Course.tells Course.leaves Course.brings
  cases outcomeOf p.call c.outcome with
  | ok reply => exact ⟨_, run_takePayload _ _ _ _, events_published _⟩
  | error why =>
    cases c.cancelled with
    | false | true => exact ⟨_, rfl, rfl⟩

theorem resume_pulling {stop : Stop Unit} {p : Inquiry} {rest : List Inquiry}
    (htask : stop.task = pulling (p :: rest)) (c : Course) :
    (stop.resume c).state = c.leaves p stop.state ∧
      Note.events (stop.resume c).notes = Note.events stop.notes ++ c.tells p stop.state ∧
      (stop.resume c).task = pulling rest := by
  obtain ⟨notes, hsettle, hevents⟩ := run_settle p c stop.state
  have hfinished : ((p.settle (outcomeOf p.call c.outcome)).run c.now c.cancelled
      (c.meanwhile stop.state)).task = .finished () := by rw [hsettle]
  have hbind := run_bind (fun _ => pullAll rest) hfinished
  -- The pulls behind it come to their first question without a step of their own.
  rw [hsettle, run_pullAll] at hbind
  have hanswer : stop.task.answer c.now c.cancelled (c.meanwhile stop.state)
      (.exchanged c.outcome) =
        { state := c.leaves p stop.state, notes := notes ++ [], task := pulling rest } := by
    rw [htask]
    exact hbind
  rw [Stop.resume, hanswer, Note.events_append]
  refine ⟨rfl, ?_, rfl⟩
  rw [List.append_nil, hevents]

/-- Whatever the pulls come to, what is seen of them is what they ought to
show. -/
theorem sights_pulling (pulls : List (Inquiry × Course)) {stop : Stop Unit}
    (htask : stop.task = pulling (pulls.map Prod.fst)) :
    (List.scanl Stop.resume stop (pulls.map Prod.snd)).map Stop.sight =
      sights stop.state (Note.events stop.notes) pulls := by
  induction pulls generalizing stop with
  | nil =>
    have hsight : stop.sight =
        { state := stop.state, told := Note.events stop.notes, need := .nothing } := by
      rw [Stop.sight, htask]
      rfl
    exact congrArg ([·]) hsight
  | cons pull pulls ih =>
    obtain ⟨p, c⟩ := pull
    obtain ⟨hstate, htold, hrest⟩ := resume_pulling htask c
    have hsight : stop.sight =
        { state := stop.state, told := Note.events stop.notes, need := .exchange p.call } := by
      rw [Stop.sight, htask]
      rfl
    rw [List.map_cons, List.scanl_cons, List.map_cons, ih hrest, hsight, hstate, htold, sights]

/-- A reconciliation of any session, whatever comes of its pulls, and whatever
others make of the session and the caller decides meanwhile. It asks for the
status, the health and the link table, in this order; whether one of them comes
or fails is nothing to the others. -/
theorem reconcile_sights (s : State) (now : Instant) (cancelled : Bool)
    (first second third : Course) :
    let afterStatus := first.leaves .status s
    let afterHealth := second.leaves .health afterStatus
    let afterLinks := third.leaves .links afterHealth
    let ofStatus := first.tells .status s
    let ofHealth := second.tells .health afterStatus
    let ofLinks := third.tells .links afterHealth
    (List.scanl Stop.resume (reconcile.run now cancelled s) [first, second, third]).map
        Stop.sight = [
      { state := s, told := [], need := .exchange .status },
      { state := afterStatus, told := ofStatus, need := .exchange .health },
      { state := afterHealth, told := ofStatus ++ ofHealth, need := .exchange .links },
      { state := afterLinks, told := ofStatus ++ ofHealth ++ ofLinks, need := .nothing }] := by
  rw [reconcile_eq, run_pullAll]
  exact sights_pulling [(.status, first), (.health, second), (.links, third)] rfl

end MeshConsole.Session
