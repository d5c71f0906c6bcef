import MeshConsole.Proofs.Session.Threads

/-!
# How activities conduct themselves

`Conduct` says of an activity what others can rely on while it is under way:
it leaves the link and the job desk alone, it publishes a device list right
after storing it and at no other time, it publishes no job, and it comes to
its end within a number of steps, however its questions are answered, a wait
within a job apart. This holds of all that a session does.
-/

namespace MeshConsole.Session

open Telemetry (Note Event)

/-- The note announces neither a device list nor a job. -/
def isOrdinary : Note → Bool
  | .publish (.devices _) => false
  | .publish (.job _) => false
  | _ => true

/-- A change that is nobody else's business, except for the device list. -/
structure Keeps (s next : State) : Prop where
  run : next.run = s.run
  desk : next.desk = s.desk
  submissions : next.submissions = s.submissions

/-- `owed` is the device list that has just been stored and is published
next. `n` bounds the steps to the end, where `weight` is left. -/
inductive Conduct (weight : α → Nat) : Option (List Device) → Nat → Activity α → Prop where
  | done : weight value < n → Conduct weight none n (.done value)
  | note : isOrdinary entry = true → Conduct weight none n next →
      Conduct weight none (n + 1) (.note entry next)
  | tells : Conduct weight none n next →
      Conduct weight (some devices) (n + 1) (.note (.publish (.devices devices)) next)
  | keeps {change : State → State} :
      (∀ s, Keeps s (change s) ∧ (change s).devices = s.devices) → Conduct weight none n next →
      Conduct weight none (n + 1) (.store change next)
  | writes {change : State → State} :
      (∀ s, Keeps s (change s) ∧ (change s).devices = devices) →
      Conduct weight (some devices) n next → Conduct weight none (n + 1) (.store change next)
  | look {next : Scene → Activity α} : (∀ scene, Conduct weight none n (next scene)) →
      Conduct weight none (n + 1) (.look next)
  | call {question : Rest.Call} {next : Except Fault question.Reply → Activity α} :
      (∀ answer, Conduct weight none n (next answer)) →
      Conduct weight none (n + 2) (.call question next)
  | job {next : Except Fault Text → Activity α} : (∀ result, Conduct weight none n (next result)) →
      Conduct weight none (n + 5) (.job order next)

namespace Conduct

theorem mono {weight : α → Nat} (h : Conduct weight owed n a) (hle : n ≤ m) :
    Conduct weight owed m a := by
  obtain ⟨k, rfl⟩ := Nat.exists_eq_add_of_le hle
  clear hle
  induction h with
  | done hvalue => exact .done (Nat.lt_add_right k hvalue)
  | note hnote _ ih =>
    rw [Nat.add_right_comm]
    exact .note hnote ih
  | tells _ ih =>
    rw [Nat.add_right_comm]
    exact .tells ih
  | keeps hkeep _ ih =>
    rw [Nat.add_right_comm]
    exact .keeps hkeep ih
  | writes hwrite _ ih =>
    rw [Nat.add_right_comm]
    exact .writes hwrite ih
  | look _ ih =>
    rw [Nat.add_right_comm]
    exact .look ih
  | call _ ih =>
    rw [Nat.add_right_comm]
    exact .call ih
  | job _ ih =>
    rw [Nat.add_right_comm]
    exact .job ih

theorem bind {weight : α → Nat} {weight' : β → Nat} {f : α → Activity β}
    (h : Conduct weight owed n a)
    (hf : ∀ value, Conduct weight' none (weight value + 1) (f value)) :
    Conduct weight' owed n (a.bind f) := by
  induction h with
  | done hvalue => exact (hf _).mono hvalue
  | note hnote _ ih => exact .note hnote ih
  | tells _ ih => exact .tells ih
  | keeps hkeep _ ih => exact .keeps hkeep ih
  | writes hwrite _ ih => exact .writes hwrite ih
  | look _ ih => exact .look ih
  | call _ ih => exact .call ih
  | job _ ih => exact .job ih

theorem run_link {weight : α → Nat} (h : Conduct weight owed n a) (now : Instant)
    (cancelled : Bool) (s : State) : (a.run now cancelled s).state.run = s.run := by
  induction h generalizing s with
  | done => rfl
  | note _ _ ih | tells _ ih => exact ih s
  | keeps hkeep _ ih | writes hkeep _ ih => exact (ih _).trans (hkeep s).1.run
  | look _ ih => exact ih _ s
  | call => rfl
  | job _ ih =>
    simp only [Activity.run]
    split
    · exact ih _ s
    · rfl

end Conduct

-- ---------------------------------------------------------------------------
-- What a session takes in and pulls
-- ---------------------------------------------------------------------------

section
variable {k : Nat}

theorem conduct_devices (devices : List Device) :
    Conduct (fun _ => k) none (k + 3) (takeDevices devices) :=
  .writes (fun _ => ⟨⟨rfl, rfl, rfl⟩, rfl⟩) (.tells (.done (Nat.lt_succ_self k)))

theorem conduct_links (table : LinkTable) :
    Conduct (fun _ => k) none (k + 5) (takeLinks table) := by
  refine .look fun _ => .keeps (fun _ => ⟨⟨rfl, rfl, rfl⟩, rfl⟩) (.look fun _ => ?_)
  exact .note rfl (.done (Nat.lt_succ_self k))

theorem conduct_statusList (devices : Option (List Device)) :
    Conduct (fun _ => k) none (k + 3)
      (match devices with
        | some devices => takeDevices devices
        | none => pure ()) := by
  cases devices with
  | none => exact .done (by omega)
  | some devices => exact conduct_devices devices

theorem conduct_status (update : StatusUpdate) :
    Conduct (fun _ => k) none (k + 4) (takeStatus update) := by
  unfold takeStatus
  by_cases hinfo : update.panId.isSome || update.channel.isSome || update.shortAddr.isSome
  · rw [if_pos hinfo]
    exact .note rfl (conduct_statusList update.devices)
  · rw [if_neg hinfo]
    exact (conduct_statusList update.devices).mono (by omega)

theorem conduct_payload (payload : Push.Payload) :
    Conduct (fun _ => k) none (k + 5) (takePayload payload) := by
  cases payload with
  | devices devices => exact (conduct_devices devices).mono (by omega)
  | health health =>
    show Conduct _ none (k + 5) (.note (.publish (.health health)) (.done ()))
    exact .note rfl (.done (by omega))
  | links table => exact conduct_links table
  | status update => exact (conduct_status update).mono (by omega)

theorem conduct_report (line : Text) (fault : Option Fault) (context : Text)
    (severity : Telemetry.Severity) :
    Conduct (fun _ => k) none (k + 4) (do
      if !(← Activity.scene).cancelled then
        Activity.log line
        Activity.publish (.clientError fault context severity)) := by
  refine .look fun scene => ?_
  obtain ⟨_, _, cancelled⟩ := scene
  cases cancelled with
  | false => exact .note rfl (.note rfl (.done (Nat.lt_succ_self k)))
  | true => exact .done (by omega)

theorem conduct_refreshStatus : Conduct (fun _ => k) none (k + 7) refreshStatus := by
  refine .call fun answer => ?_
  cases answer with
  | error why => exact .done (by omega)
  | ok status =>
    exact ((conduct_status (k := k) status.update).bind fun _ => .done (by omega)).mono (by omega)

theorem conduct_pullHealth : Conduct (fun _ => k) none (k + 6) pullHealth := by
  refine .call fun answer => ?_
  cases answer with
  | error why => exact conduct_report _ _ _ _
  | ok health => exact .note rfl (.done (by omega))

theorem conduct_pullLinks : Conduct (fun _ => k) none (k + 7) pullLinks := by
  refine .call fun answer => ?_
  cases answer with
  | error why => exact (conduct_report _ _ _ _).mono (by omega)
  | ok table => exact conduct_links table

theorem conduct_reconcile : Conduct (fun _ => k) none (k + 30) reconcile := by
  have htail : Conduct (fun _ => k) none (k + 12) (pullHealth.bind fun _ => pullLinks) :=
    (conduct_pullHealth (k := k + 6)).bind fun _ => conduct_pullLinks
  refine ((conduct_refreshStatus (k := k + 15)).bind fun answer => ?_).mono (by omega)
  cases answer with
  | error why => exact ((conduct_report _ _ _ _).bind fun _ => htail).mono (by omega)
  | ok _ => exact htail.mono (by omega)

-- ---------------------------------------------------------------------------
-- What a session does on the gateway
-- ---------------------------------------------------------------------------

theorem conduct_refreshAfter (what : Text) :
    Conduct (fun _ => k) none (k + 12) (refreshAfter what) := by
  refine (conduct_refreshStatus (k := k + 5)).bind fun answer => ?_
  cases answer with
  | ok _ => exact .done (by omega)
  | error why => exact (conduct_report _ _ _ _).mono (by omega)

theorem conduct_deleteDevice (addr : UInt16) :
    Conduct (fun _ => k) none (k + 20) (deleteDevice addr) := by
  refine .call fun answer => ?_
  cases answer with
  | error why => exact .done (by omega)
  | ok message =>
    exact ((conduct_refreshAfter (k := k) "delete").bind fun _ => .done (by omega)).mono (by omega)

theorem conduct_renameDevice (addr : UInt16) (name : Text) :
    Conduct (fun _ => k) none (k + 20) (renameDevice addr name) := by
  refine .call fun answer => ?_
  cases answer with
  | error why => exact .done (by omega)
  | ok message =>
    exact ((conduct_refreshAfter (k := k) "rename").bind fun _ => .done (by omega)).mono (by omega)

theorem conduct_permitJoin : Conduct (fun _ => k) none (k + 4) permitJoin := by
  refine .call fun answer => ?_
  cases answer with
  | error why => exact .done (by omega)
  | ok message => exact .note rfl (.done (Nat.lt_succ_self k))

theorem conduct_control (command : Command) :
    Conduct (fun _ => k) none (k + 3) (control command) := by
  refine .call fun answer => ?_
  cases answer with
  | error why | ok message => exact .done (Nat.lt_succ_self k)

theorem conduct_saveWifi (credentials : Credentials) :
    Conduct (fun _ => k) none (k + 4) (saveWifi credentials) := by
  refine .call fun answer => ?_
  cases answer with
  | error why => exact .done (by omega)
  | ok message => exact .note rfl (.done (Nat.lt_succ_self k))

theorem conduct_submit (order : Order) :
    Conduct (fun _ => k) none (k + 6) (Activity.submit order) :=
  .job fun _ => .done (Nat.lt_succ_self k)

theorem conduct_autoRefresh : Conduct (fun _ => k) none (k + 14) autoRefresh := by
  refine .note rfl (.job fun result => ?_)
  cases result with
  | ok _ => exact (conduct_pullLinks (k := k)).mono (by omega)
  | error why =>
    refine .look fun scene => ?_
    show Conduct _ none (k + 7) (if why.root != .jobInProgress && !scene.cancelled then
      (Activity.log _).bind fun _ => Activity.publish _ else .done ())
    split
    · exact .note rfl (.note rfl (.done (by omega)))
    · exact .done (by omega)

end

theorem conduct_tick {weight : Bool → Nat} (h : ∀ value, weight value ≤ k) :
    Conduct weight none (k + 4) tick := by
  refine .look fun scene => .note rfl ?_
  split
  · exact .keeps (fun _ => ⟨⟨rfl, rfl, rfl⟩, rfl⟩) (.done (Nat.lt_succ_of_le (h true)))
  · exact .done (Nat.lt_of_le_of_lt (h false) (by omega))

end MeshConsole.Session
