import MeshConsole.Session.Net

/-!
# What becomes of a device list that an activity is given

`Adopts`: an activity that pulls the status shows the list of each status
answer before it asks on, and changes the device list at no other time. This
holds of every activity that pulls the status, and of every payload that is
pushed; none of them touches the link. `Adopts.run` and `Task.Adopts.answer`
say what this comes to when an activity is run.
-/

namespace MeshConsole.Session

-- ---------------------------------------------------------------------------
-- Activities
-- ---------------------------------------------------------------------------

/-- An activity that shows `list`, if there is one, before its next question
and leaves the device list alone otherwise. It goes on likewise with the list
of each answer. -/
inductive Adopts : Option (List Device) → Activity α → Prop where
  | done (value : α) : Adopts none (.done value)
  | note (entry : Telemetry.Note) : Adopts list next → Adopts list (.note entry next)
  | look {next : Scene → Activity α} : (∀ scene, Adopts list (next scene)) →
      Adopts list (.look next)
  | keeps {change : State → State} :
      (∀ s, (change s).devices = s.devices ∧ (change s).run = s.run) → Adopts list next →
      Adopts list (.store change next)
  | writes {change : State → State} :
      (∀ s, (change s).devices = devices ∧ (change s).run = s.run) → Adopts none next →
      Adopts (some devices) (.store change next)
  | call (call : Rest.Call) {next : Except Fault call.Reply → Activity α} :
      (∀ answer, Adopts (listIn call answer) (next answer)) → Adopts none (.call call next)

theorem Adopts.bind {f : α → Activity β} (h : Adopts list a)
    (hf : ∀ value, Adopts none (f value)) : Adopts list (a.bind f) := by
  induction h with
  | done value => exact hf value
  | note entry _ ih => exact .note entry ih
  | look _ ih => exact .look fun scene => ih scene
  | keeps hkeep _ ih => exact .keeps hkeep ih
  | writes hwrite _ ih => exact .writes hwrite ih
  | call question _ ih => exact .call question fun answer => ih answer

-- ---------------------------------------------------------------------------
-- What a session takes in and pulls
-- ---------------------------------------------------------------------------

theorem adopts_devices (devices : List Device) : Adopts (some devices) (takeDevices devices) :=
  .writes (fun _ => ⟨rfl, rfl⟩) (.note _ (.done ()))

theorem adopts_links (table : LinkTable) : Adopts none (takeLinks table) :=
  .look fun _ => .keeps (fun _ => ⟨rfl, rfl⟩) (.look fun _ => .note _ (.done ()))

theorem adopts_status (update : StatusUpdate) : Adopts update.devices (takeStatus update) := by
  unfold takeStatus
  by_cases hinfo : update.panId.isSome || update.channel.isSome || update.shortAddr.isSome
  · rw [if_pos hinfo]
    refine .note _ ?_
    cases update.devices with
    | none => exact .done ()
    | some devices => exact adopts_devices devices
  · rw [if_neg hinfo]
    cases update.devices with
    | none => exact .done ()
    | some devices => exact adopts_devices devices

theorem adopts_refreshStatus : Adopts none refreshStatus := by
  refine .call .status fun answer => ?_
  cases answer with
  | error why => exact .done _
  | ok status => exact (adopts_status status.update).bind fun _ => .done _

/-- What is reported unless the caller has given up. -/
theorem adopts_report (line : Text) (event : Telemetry.Event) :
    Adopts none (do
      if !(← Activity.scene).cancelled then
        Activity.log line
        Activity.publish event) := by
  refine .look fun scene => ?_
  obtain ⟨_, _, cancelled⟩ := scene
  cases cancelled with
  | false => exact .note _ (.note _ (.done ()))
  | true => exact .done ()

theorem adopts_pullError (what : Text) (why : Fault) : Adopts none (reportPullError what why) :=
  adopts_report _ _

theorem adopts_pullHealth : Adopts none pullHealth := by
  refine .call .health fun answer => ?_
  cases answer with
  | error why => exact adopts_pullError "health" why
  | ok health => exact .note _ (.done ())

theorem adopts_pullLinks : Adopts none pullLinks := by
  refine .call .links fun answer => ?_
  cases answer with
  | error why => exact adopts_pullError "lqi" why
  | ok table => exact adopts_links table

theorem adopts_reconcile : Adopts none reconcile := by
  refine adopts_refreshStatus.bind fun answer => ?_
  have htail : Adopts none (pullHealth.bind fun _ => pullLinks) :=
    adopts_pullHealth.bind fun _ => adopts_pullLinks
  cases answer with
  | error why => exact (adopts_pullError "status" why).bind fun _ => htail
  | ok _ => exact htail

theorem adopts_refreshAfter (what : Text) : Adopts none (refreshAfter what) := by
  refine adopts_refreshStatus.bind fun answer => ?_
  cases answer with
  | ok _ => exact .done ()
  | error why => exact adopts_report _ _

theorem adopts_deleteDevice (addr : UInt16) : Adopts none (deleteDevice addr) := by
  refine .call (.delete addr) fun answer => ?_
  cases answer with
  | error why => exact .done _
  | ok message => exact (adopts_refreshAfter "delete").bind fun _ => .done _

theorem adopts_renameDevice (addr : UInt16) (name : Text) :
    Adopts none (renameDevice addr name) := by
  refine .call (.rename addr name) fun answer => ?_
  cases answer with
  | error why => exact .done _
  | ok message => exact (adopts_refreshAfter "rename").bind fun _ => .done _

theorem adopts_payload (payload : Push.Payload) :
    Adopts (listOf payload) (takePayload payload) := by
  cases payload with
  | devices devices => exact adopts_devices devices
  | status update => exact adopts_status update
  | health health => exact .note _ (.done ())
  | links table => exact adopts_links table

-- ---------------------------------------------------------------------------
-- Running an activity
-- ---------------------------------------------------------------------------

/-- A task that goes on with the list of each answer. -/
def Task.Adopts : Task α → Prop
  | .finished _ => True
  | .calling call next => ∀ answer, Session.Adopts (Session.listIn call answer) (next answer)
  | .job .. => False

theorem Adopts.run (h : Adopts list a) (now : Instant) (cancelled : Bool) (s : State) :
    (a.run now cancelled s).state.devices = list.getD s.devices ∧
      (a.run now cancelled s).state.run = s.run ∧ (a.run now cancelled s).task.Adopts := by
  induction h generalizing s with
  | done value => exact ⟨rfl, rfl, trivial⟩
  | note entry _ ih => exact ih s
  | look _ ih => exact ih _ s
  | @keeps _ _ change hkeep _ ih =>
    obtain ⟨hdevices, hrun, htask⟩ := ih (change s)
    exact ⟨hdevices.trans (by rw [(hkeep s).1]), hrun.trans (hkeep s).2, htask⟩
  | @writes _ _ change hwrite _ ih =>
    obtain ⟨hdevices, hrun, htask⟩ := ih (change s)
    exact ⟨hdevices.trans (hwrite s).1, hrun.trans (hwrite s).2, htask⟩
  | call question hnext _ => exact ⟨rfl, rfl, hnext⟩

theorem Task.Adopts.answer {task : Task α} (h : task.Adopts) (now : Instant) (cancelled : Bool)
    (s : State) (outcome : Exchange) :
    (task.answer now cancelled s (.exchanged outcome)).state.devices =
        (task.listIn outcome).getD s.devices ∧
      (task.answer now cancelled s (.exchanged outcome)).state.run = s.run ∧
      (task.answer now cancelled s (.exchanged outcome)).task.Adopts := by
  cases task with
  | finished value => exact ⟨rfl, rfl, trivial⟩
  | calling call next => exact (h _).run now cancelled s
  | job order run next => exact h.elim

end MeshConsole.Session
