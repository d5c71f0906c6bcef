import MeshConsole.Proofs.Session.Lifetime

/-!
# What activities may do

A permit says what notes may be taken, how the state may be changed, and what
may be asked. An activity is within a permit when none of its steps ever
exceeds it, however its questions are answered.

What a session takes in is `quiet`: nothing is asked for it, and no job is
told of. All that a session does apart from its ticks is `steady`: what ticks
go by when they start a refresh stays as it is, the link and the link table
apart.
-/

namespace MeshConsole.Session

open Telemetry (Note Event)

-- ---------------------------------------------------------------------------
-- Permits
-- ---------------------------------------------------------------------------

structure Permit where
  notes : Note → Prop
  changes : (State → State) → Prop
  calls : Rest.Call → Prop
  jobs : Order → Prop

def Activity.Within (p : Permit) : Activity α → Prop
  | .done _ => True
  | .note entry next => p.notes entry ∧ next.Within p
  | .store change next => p.changes change ∧ next.Within p
  | .look next => ∀ scene, (next scene).Within p
  | .call question next => p.calls question ∧ ∀ answer, (next answer).Within p
  | .job order next => p.jobs order ∧ ∀ result, (next result).Within p

/-- The rest of the work is within the permit. -/
def Work.Within (p : Permit) : Work α → Prop
  | .acting rest => rest.Within p
  | .waiting (.finished _) => True
  | .waiting (.calling _ next) => ∀ answer, (next answer).Within p
  | .waiting (.job _ _ next) => ∀ result, (next result).Within p

structure Permit.Covers (q p : Permit) : Prop where
  notes : p.notes entry → q.notes entry
  changes : p.changes change → q.changes change
  calls : p.calls question → q.calls question
  jobs : p.jobs order → q.jobs order

section
variable {p q : Permit}

theorem Activity.Within.mono {a : Activity α} (h : a.Within p) (hcovers : q.Covers p) :
    a.Within q := by
  induction a with
  | done value => trivial
  | note entry next ih => exact ⟨hcovers.notes h.1, ih h.2⟩
  | store change next ih => exact ⟨hcovers.changes h.1, ih h.2⟩
  | look next ih => exact fun scene => ih scene (h scene)
  | call question next ih => exact ⟨hcovers.calls h.1, fun answer => ih answer (h.2 answer)⟩
  | job order next ih => exact ⟨hcovers.jobs h.1, fun result => ih result (h.2 result)⟩

theorem Activity.Within.bind {a : Activity α} {f : α → Activity β} (h : a.Within p)
    (hf : ∀ value, (f value).Within p) : (a.bind f).Within p := by
  induction a with
  | done value => exact hf value
  | note entry next ih => exact ⟨h.1, ih h.2⟩
  | store change next ih => exact ⟨h.1, ih h.2⟩
  | look next ih => exact fun scene => ih scene (h scene)
  | call question next ih => exact ⟨h.1, fun answer => ih answer (h.2 answer)⟩
  | job order next ih => exact ⟨h.1, fun result => ih result (h.2 result)⟩

theorem Activity.Within.quietly {a : Activity α} (h : a.Within p) : (quietly a).Within p :=
  h.bind fun _ => trivial

theorem Acting.within {w : Work α} (h : Acting now cancelled s w b) (hw : w.Within p) :
    b.work.Within p := by
  cases h with
  | done => trivial
  | note | store | call => exact hw.2
  | look => exact hw _
  | refused => exact hw.2 _
  | enters => exact hw.2
  | leaves => exact hw _

theorem Answering.within {w : Work α} (h : Answering now cancelled s w a b) (hw : w.Within p) :
    b.work.Within p := by
  cases h with
  | called => exact hw _
  | heard => exact hw

end

-- ---------------------------------------------------------------------------
-- What a session takes in
-- ---------------------------------------------------------------------------

/-- What ticks go by is the same. -/
structure Steady (s next : State) : Prop where
  autoRefresh : next.autoRefresh = s.autoRefresh
  radio : next.monitor.settings = s.monitor.settings
  lastAutoRefresh : next.lastAutoRefresh = s.lastAutoRefresh

/-- Listeners learn that a job has succeeded. -/
def isSuccess : Event → Bool
  | .job change => change.state == Job.succeeded
  | _ => false

def tellsSuccess (note : Note) : Bool := (Note.events [note]).any isSuccess

def steady : Permit where
  notes _ := True
  changes change := ∀ s, Steady s (change s)
  calls _ := True
  jobs _ := True

def quiet : Permit where
  notes note := tellsSuccess note = false
  changes change := ∀ s, Steady s (change s)
  calls _ := False
  jobs _ := False

theorem steady_covers : steady.Covers quiet := ⟨fun _ => trivial, id, False.elim, False.elim⟩

theorem Activity.Within.steady {a : Activity α} (h : a.Within quiet) : a.Within steady :=
  h.mono steady_covers

theorem quiet_devices (devices : List Device) : (takeDevices devices).Within quiet :=
  ⟨fun _ => ⟨rfl, rfl, rfl⟩, rfl, trivial⟩

theorem quiet_links (table : LinkTable) : (takeLinks table).Within quiet :=
  fun _ => ⟨fun _ => ⟨rfl, rfl, rfl⟩, fun _ => ⟨rfl, trivial⟩⟩

theorem quiet_status (update : StatusUpdate) : (takeStatus update).Within quiet := by
  obtain ⟨panId, channel, shortAddr, devices⟩ := update
  unfold takeStatus
  by_cases hinfo : panId.isSome || channel.isSome || shortAddr.isSome
  · rw [if_pos hinfo]
    cases devices with
    | none => exact ⟨rfl, trivial⟩
    | some devices => exact ⟨rfl, quiet_devices devices⟩
  · rw [if_neg hinfo]
    cases devices with
    | none => trivial
    | some devices => exact quiet_devices devices

theorem quiet_payload (payload : Push.Payload) : (takePayload payload).Within quiet := by
  cases payload with
  | devices devices => exact quiet_devices devices
  | health health => exact ⟨rfl, trivial⟩
  | links table => exact quiet_links table
  | status update => exact quiet_status update

theorem quiet_report (line : Text) (fault : Option Fault) (context : Text)
    (severity : Telemetry.Severity) : Activity.Within quiet (do
      if !(← Activity.scene).cancelled then
        Activity.log line
        Activity.publish (.clientError fault context severity)) := by
  intro ⟨_, _, cancelled⟩
  cases cancelled with
  | false => exact ⟨rfl, rfl, trivial⟩
  | true => trivial

-- ---------------------------------------------------------------------------
-- What a session does on the gateway
-- ---------------------------------------------------------------------------

theorem steady_refreshStatus : refreshStatus.Within steady := by
  refine ⟨trivial, fun answer => ?_⟩
  cases answer with
  | error why => trivial
  | ok status => exact (quiet_status status.update).steady.bind fun _ => trivial

theorem steady_pullHealth : pullHealth.Within steady := by
  refine ⟨trivial, fun answer => ?_⟩
  cases answer with
  | error why => exact (quiet_report _ _ _ _).steady
  | ok health => exact ⟨trivial, trivial⟩

theorem quiet_pulledLinks (answer : Except Fault LinkTable) :
    Activity.Within quiet (match answer with
      | .error why => reportPullError "lqi" why
      | .ok table => takeLinks table) := by
  cases answer with
  | error why => exact quiet_report _ _ _ _
  | ok table => exact quiet_links table

theorem steady_pullLinks : pullLinks.Within steady :=
  ⟨trivial, fun answer => (quiet_pulledLinks answer).steady⟩

theorem steady_reconcile : reconcile.Within steady := by
  have htail : Activity.Within steady (pullHealth.bind fun _ => pullLinks) :=
    steady_pullHealth.bind fun _ => steady_pullLinks
  refine steady_refreshStatus.bind fun answer => ?_
  cases answer with
  | error why => exact (quiet_report _ _ _ _).steady.bind fun _ => htail
  | ok _ => exact htail

theorem steady_refreshAfter (what : Text) : (refreshAfter what).Within steady := by
  refine steady_refreshStatus.bind fun answer => ?_
  cases answer with
  | ok _ => trivial
  | error why => exact (quiet_report _ _ _ _).steady

theorem steady_deleteDevice (addr : UInt16) : (deleteDevice addr).Within steady := by
  refine ⟨trivial, fun answer => ?_⟩
  cases answer with
  | error why => trivial
  | ok message => exact (steady_refreshAfter "delete").bind fun _ => trivial

theorem steady_renameDevice (addr : UInt16) (name : Text) :
    (renameDevice addr name).Within steady := by
  refine ⟨trivial, fun answer => ?_⟩
  cases answer with
  | error why => trivial
  | ok message => exact (steady_refreshAfter "rename").bind fun _ => trivial

theorem steady_permitJoin : permitJoin.Within steady := by
  refine ⟨trivial, fun answer => ?_⟩
  cases answer with
  | error why => trivial
  | ok message => exact ⟨trivial, trivial⟩

theorem steady_control (command : Command) : (control command).Within steady := by
  refine ⟨trivial, fun answer => ?_⟩
  cases answer with
  | error why | ok message => trivial

theorem steady_saveWifi (credentials : Credentials) : (saveWifi credentials).Within steady := by
  refine ⟨trivial, fun answer => ?_⟩
  cases answer with
  | error why => trivial
  | ok message => exact ⟨trivial, trivial⟩

theorem quiet_refreshFailed (why : Fault) : Activity.Within quiet (do
    if why.root != .jobInProgress && !(← Activity.scene).cancelled then
      Activity.log (("auto lqi refresh failed: " : Text) ++ why.message)
      Activity.publish (.clientError (some why) "auto_refresh" .warning)) := by
  intro scene
  show Activity.Within quiet (if why.root != .jobInProgress && !scene.cancelled then
    (Activity.log _).bind fun _ => Activity.publish _ else .done ())
  split
  · exact ⟨rfl, rfl, trivial⟩
  · trivial

theorem steady_autoRefresh : autoRefresh.Within steady := by
  refine ⟨trivial, trivial, fun result => ?_⟩
  cases result with
  | ok _ => exact steady_pullLinks
  | error why => exact (quiet_refreshFailed why).steady

-- ---------------------------------------------------------------------------
-- What threads set out to do
-- ---------------------------------------------------------------------------

theorem steady_carry (signal : Push.Signal) : (carry signal).Within steady := by
  cases signal with
  | log line => exact ⟨trivial, trivial⟩
  | publish event => exact ⟨trivial, trivial⟩
  | deliver payload => exact (quiet_payload payload).steady
  | closeSocket | schedule | reconcile | unschedule => trivial

theorem steady_carryAll (signals : List Push.Signal) : (carryAll signals).Within steady := by
  induction signals with
  | nil => trivial
  | cons signal rest ih => exact (steady_carry signal).bind fun _ => ih

theorem steady_errand (errand : Errand) : errand.activity.Within steady := by
  cases errand with
  | reconcile => exact steady_reconcile
  | refreshStatus => exact steady_refreshStatus.bind fun _ => trivial
  | delete addr => exact (steady_deleteDevice addr).bind fun _ => trivial
  | rename addr name => exact (steady_renameDevice addr name).bind fun _ => trivial

theorem steady_commission (c : Commission) : c.activity.Within steady := by
  cases c with
  | submit order => exact ⟨trivial, fun _ => trivial⟩
  | errand errand => exact (steady_errand errand).quietly
  | permitJoin => exact steady_permitJoin.quietly
  | control command => exact (steady_control command).quietly
  | saveWifi credentials => exact (steady_saveWifi credentials).quietly
  | take payload => exact (quiet_payload payload).steady.quietly

theorem Acting.steady {w : Work α} (h : Acting now cancelled s w b) (hw : w.Within steady) :
    Steady s b.state := by
  cases h with
  | store => exact hw.1 s
  | _ => exact ⟨rfl, rfl, rfl⟩

theorem Answering.steady {w : Work α} (h : Answering now cancelled s w a b) :
    Steady s b.state := by
  cases h <;> exact ⟨rfl, rfl, rfl⟩

end MeshConsole.Session
