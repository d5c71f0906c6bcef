import MeshConsole.Session.Action
import MeshConsole.Session.Task

/-!
# A session and its gateway

A gateway announces every change of its device list by a push, while pulls of its status are under
way. Pushes come in order; the answer of a pull may be taken in at any later moment.
-/

namespace MeshConsole.Session

open Push (sequenceOf?)

/-- The device list in the answer to a call. -/
def listIn : (call : Rest.Call) → Except Fault call.Reply → Option (List Device)
  | .status, .ok status => status.devices
  | _, _ => none

/-- The list in an answer that a task is waiting for. -/
def Task.listIn (task : Task α) (outcome : Exchange) : Option (List Device) :=
  match task with
  | .calling call _ => Session.listIn call (outcomeOf call outcome)
  | _ => none

/-- The list that a payload carries. -/
def listOf : Push.Payload → Option (List Device)
  | .devices devices => some devices
  | .status update => update.devices
  | .health _ => none
  | .links _ => none

/-- The session once it has taken in what its link delivers. -/
def State.takes (s : State) (now : Instant) (signals : List Push.Signal) : State :=
  (Push.delivered signals).foldl (fun s payload => ((takePayload payload).run now false s).state) s

/-- The session after a frame has come on its link. -/
def State.hear (s : State) (now : Instant) (frame : Text) : State :=
  let (run, signals) := s.run.step now (.frame frame)
  { s with run }.takes now signals

/-- The payload of a frame that can be decoded as a whole. -/
def payloadOf? (frame : Text) : Option Push.Payload :=
  ((Push.decode frame).toOption.bind Push.Message.payload?).bind Except.toOption

/-- The list that a frame announces. -/
def announced? (frame : Text) : Option (List Device) := (payloadOf? frame).bind listOf

/-- Whether a frame may follow on a connection whose numbers have come to `last`. -/
def follows (last : UInt64) (frame : Text) : Bool :=
  match sequenceOf? frame with
  | none => true
  | some seq => last < seq

/-- A device list of the gateway, with the number of the change that led to it. -/
structure Version where
  number : Nat
  devices : List Device
  deriving Repr, DecidableEq

def Version.next (v : Version) (devices : List Device) : Version := ⟨v.number + 1, devices⟩

def Task.isFinished : Task α → Bool
  | .finished _ => true
  | _ => false

/-- A pull that a session has started. An answer that is on its way has the
version that the gateway had when it gave it. -/
structure Pull where
  task : Task Unit
  answer : Option (Exchange × Version) := none

/-- A session, its gateway, and what is on its way between them. -/
structure Net where
  session : State
  gateway : Version
  /-- The greatest number that the gateway has given to a push. -/
  numbered : UInt64
  /-- With the versions that they announce, if any. -/
  pushes : List (Text × Option Version) := []
  pulls : List Pull := []
  /-- What the session took in last. -/
  shown : Version
  /-- A pull brought what the session took in last. -/
  pulled : Bool := false

inductive Move where
  /-- The gateway pushes a frame. A list that it announces is the gateway's
  from now on. -/
  | push (frame : Text)
  /-- The session hears of the next push. -/
  | deliver (now : Instant)
  | start (errand : Errand) (now : Instant) (cancelled : Bool)
  /-- The gateway answers the question of a pull. -/
  | answer (pull : Nat) (outcome : Exchange)
  /-- The session takes an answer in. -/
  | apply (pull : Nat) (now : Instant) (cancelled : Bool)

namespace Net

/-- A session and a gateway that agree, with nothing on its way. -/
def agreed (s : State) : Net where
  session := s
  gateway := ⟨0, s.devices⟩
  numbered := s.run.link.lastSeq
  shown := ⟨0, s.devices⟩

/-- Pushes are numbered in order, and an answer that carries a list carries
the gateway's. A move that breaks this, or is out of turn, changes nothing. -/
def step (n : Net) : Move → Net
  | .push frame =>
    if follows n.numbered frame then
      let numbered := (sequenceOf? frame).getD n.numbered
      match announced? frame with
      | none => { n with numbered, pushes := n.pushes ++ [(frame, none)] }
      | some devices =>
        let gateway := n.gateway.next devices
        { n with numbered, gateway, pushes := n.pushes ++ [(frame, some gateway)] }
    else n
  | .deliver now =>
    match n.pushes with
    | [] => n
    | (frame, none) :: pushes => { n with session := n.session.hear now frame, pushes }
    | (frame, some version) :: pushes =>
      { n with session := n.session.hear now frame, pushes, shown := version, pulled := false }
  | .start errand now cancelled =>
    let stop := errand.activity.run now cancelled n.session
    { n with session := stop.state, pulls := n.pulls ++ [{ task := stop.task }] }
  | .answer i outcome =>
    match n.pulls[i]? with
    | some { task, answer := none } =>
      if !task.isFinished && (task.listIn outcome).all (· = n.gateway.devices) then
        { n with pulls := n.pulls.set i { task, answer := some (outcome, n.gateway) } }
      else n
    | _ => n
  | .apply i now cancelled =>
    match n.pulls[i]? with
    | some { task, answer := some (outcome, version) } =>
      let stop := task.answer now cancelled n.session (.exchanged outcome)
      let n := { n with session := stop.state, pulls := n.pulls.set i { task := stop.task } }
      if (task.listIn outcome).isSome then { n with shown := version, pulled := true } else n
    | _ => n

def after (n : Net) (moves : List Move) : Net := moves.foldl step n

/-- Nothing is on its way: every push has come, and every pull has ended. -/
def atRest (n : Net) : Bool := n.pushes.isEmpty && n.pulls.all (·.task.isFinished)

end Net

end MeshConsole.Session
