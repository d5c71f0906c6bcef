import MeshConsole.Proofs.Session.DeviceList
import MeshConsole.Proofs.Session.Lifetime

/-!
# What partial status updates leave behind

A status frame sends some fields of the coordinator's summary, a push of the
device list sends that alone. `latest_shown`: whatever frames come and
whatever pulls are answered, each field that the board shows is the one that
was carried last, and so is the device list of the session. A pull carries
every field but the list, with zero for what its answer leaves out
(`panId_cleared`).
-/

namespace MeshConsole

namespace Telemetry

-- ---------------------------------------------------------------------------
-- The board
-- ---------------------------------------------------------------------------

/-- What a board shows of the coordinator and its devices. -/
structure Summary where
  panId : UInt16 := 0
  channel : Int64 := 0
  coordinatorAddr : UInt16 := 0
  devices : List Device := []

def Board.summary (b : Board) : Summary where
  panId := b.panId
  channel := b.channel
  coordinatorAddr := b.coordinatorAddr
  devices := b.devices

namespace Summary

def take (s : Summary) (u : StatusUpdate) : Summary where
  panId := u.panId.getD s.panId
  channel := u.channel.getD s.channel
  coordinatorAddr := u.shortAddr.getD s.coordinatorAddr
  devices := u.devices.getD s.devices

def takeAll (s : Summary) (updates : List StatusUpdate) : Summary := updates.foldl take s

/-- What was given last for a field. -/
def latest? (field : StatusUpdate → Option β) (updates : List StatusUpdate) : Option β :=
  (updates.filterMap field).getLast?

theorem latest?_cons (field : StatusUpdate → Option β) (u : StatusUpdate)
    (rest : List StatusUpdate) (initial : β) :
    (latest? field (u :: rest)).getD initial =
      (latest? field rest).getD ((field u).getD initial) := by
  unfold latest?
  cases h : field u with
  | none => rw [List.filterMap_cons_none h, Option.getD_none]
  | some value =>
    rw [List.filterMap_cons_some h, List.getLast?_cons]
    rfl

theorem takeAll_eq (s : Summary) (updates : List StatusUpdate) :
    s.takeAll updates = {
      panId := (latest? StatusUpdate.panId updates).getD s.panId
      channel := (latest? StatusUpdate.channel updates).getD s.channel
      coordinatorAddr := (latest? StatusUpdate.shortAddr updates).getD s.coordinatorAddr
      devices := (latest? StatusUpdate.devices updates).getD s.devices } := by
  induction updates generalizing s with
  | nil => rfl
  | cons u rest ih =>
    show (s.take u).takeAll rest = _
    simp only [ih, latest?_cons, take]

theorem takeAll_append (s : Summary) (updates more : List StatusUpdate) :
    s.takeAll (updates ++ more) = (s.takeAll updates).takeAll more := List.foldl_append

end Summary

def Event.update : Event → StatusUpdate
  | .devices list => { devices := some list }
  | .gatewayInfo panId channel shortAddr => { panId, channel, shortAddr }
  | _ => {}

theorem fold_summary (b : Board) (now : Instant) (event : Event) :
    (b.fold now event).summary = b.summary.take event.update := by
  cases event with
  | job change =>
    obtain ⟨_, _, _, hframe⟩ := b.fold_job now change
    rw [hframe]
    rfl
  | _ => rfl

theorem after_summary (b : Board) (events : List (Instant × Event)) :
    (b.after events).summary = b.summary.takeAll (events.map fun e => e.2.update) := by
  induction events generalizing b with
  | nil => rfl
  | cons e rest ih =>
    show ((b.fold e.1 e.2).after rest).summary = _
    rw [ih, fold_summary]
    rfl

end Telemetry

namespace Session

open Telemetry (Board Event Note Summary)
open Telemetry.Summary (latest?)
open Push (sequenceOf?)

-- ---------------------------------------------------------------------------
-- What an activity makes known
-- ---------------------------------------------------------------------------

def updateOf : Push.Payload → StatusUpdate
  | .devices devices => { devices := some devices }
  | .status update => update
  | .health _ => {}
  | .links _ => {}

/-- An activity that comes to its end, and by then has stored and announced
what the updates carry. -/
def Feeds (updates : List StatusUpdate) (a : Activity α) : Prop :=
  ∀ now cancelled (s : State), ∃ value,
    (a.run now cancelled s).task = .finished value ∧
    (a.run now cancelled s).state.run = s.run ∧
    (∀ shown : Summary, shown.devices = s.devices →
      (a.run now cancelled s).state.devices = (shown.takeAll updates).devices) ∧
    ∀ shown : Summary,
      shown.takeAll ((Note.events (a.run now cancelled s).notes).map Event.update) =
        shown.takeAll updates

theorem feeds_done (value : α) : Feeds [] (.done value) :=
  fun _ _ _ => ⟨value, rfl, rfl, fun _ hsame => hsame.symm, fun _ => rfl⟩

theorem Feeds.bind {a : Activity α} {f : α → Activity β} (h : Feeds updates a)
    (hf : ∀ value, Feeds more (f value)) : Feeds (updates ++ more) (a.bind f) := by
  intro now cancelled s
  obtain ⟨value, htask, hrun, hdevices, hshown⟩ := h now cancelled s
  obtain ⟨last, htask', hrun', hdevices', hshown'⟩ :=
    hf value now cancelled (a.run now cancelled s).state
  rw [run_bind f htask]
  refine ⟨last, htask', hrun'.trans hrun, fun shown hsame => ?_, fun shown => ?_⟩
  · rw [Summary.takeAll_append]
    exact hdevices' _ (hdevices shown hsame).symm
  · rw [Note.events_append, List.map_append, Summary.takeAll_append, hshown, hshown',
      Summary.takeAll_append]

theorem feeds_devices (devices : List Device) :
    Feeds [{ devices := some devices }] (takeDevices devices) :=
  fun _ _ _ => ⟨(), rfl, rfl, fun _ _ => rfl, fun _ => rfl⟩

theorem feeds_status (update : StatusUpdate) : Feeds [update] (takeStatus update) := by
  obtain ⟨panId, channel, shortAddr, devices⟩ := update
  intro now cancelled s
  unfold takeStatus
  by_cases hinfo : panId.isSome || channel.isSome || shortAddr.isSome
  · simp only [hinfo, if_true]
    cases devices with
    | none => exact ⟨(), rfl, rfl, fun _ hsame => hsame.symm, fun _ => rfl⟩
    | some devices => exact ⟨(), rfl, rfl, fun _ _ => rfl, fun _ => rfl⟩
  · -- Without a field of the coordinator nothing is announced of it.
    simp only [hinfo]
    simp only [Bool.or_eq_true, not_or, Bool.not_eq_true, Option.isSome_eq_false_iff,
      Option.isNone_iff_eq_none] at hinfo
    obtain ⟨⟨rfl, rfl⟩, rfl⟩ := hinfo
    cases devices with
    | none => exact ⟨(), rfl, rfl, fun _ hsame => hsame.symm, fun _ => rfl⟩
    | some devices => exact ⟨(), rfl, rfl, fun _ _ => rfl, fun _ => rfl⟩

theorem feeds_payload (payload : Push.Payload) :
    Feeds [updateOf payload] (takePayload payload) := by
  cases payload with
  | devices devices => exact feeds_devices devices
  | status update => exact feeds_status update
  | health health => exact fun _ _ _ => ⟨(), rfl, rfl, fun _ hsame => hsame.symm, fun _ => rfl⟩
  | links table => exact fun _ _ _ => ⟨(), rfl, rfl, fun _ hsame => hsame.symm, fun _ => rfl⟩

def takePulled : Except Fault Rest.Call.status.Reply → Activity (Except Fault Unit)
  | .error why => .done (.error why)
  | .ok status => (takeStatus status.update).bind fun _ => .done (.ok ())

/-- What the loop does on the signals of a frame, or of an open. -/
theorem feeds_carryAll {signals : List Push.Signal}
    (h : ∀ event, .publish event ∈ signals → event.update = {}) :
    Feeds ((Push.delivered signals).map updateOf) (carryAll signals) := by
  induction signals with
  | nil => exact feeds_done false
  | cons signal rest ih =>
    have hrest := ih fun event hm => h event (List.mem_cons_of_mem _ hm)
    cases signal with
    | deliver payload => exact (feeds_payload payload).bind fun _ => hrest
    | publish event =>
      have hevent : Feeds [] (Activity.publish event) := by
        refine fun _ _ _ => ⟨(), rfl, rfl, fun _ hsame => hsame.symm, fun shown => ?_⟩
        show shown.takeAll [event.update] = shown
        rw [h event List.mem_cons_self]
        rfl
      exact hevent.bind fun _ => hrest
    | log line =>
      have hline : Feeds [] (Activity.log line) :=
        fun _ _ _ => ⟨(), rfl, rfl, fun _ hsame => hsame.symm, fun _ => rfl⟩
      exact hline.bind fun _ => hrest
    | closeSocket | schedule | reconcile | unschedule =>
      exact (feeds_done ()).bind fun _ => hrest

-- ---------------------------------------------------------------------------
-- A session and its board
-- ---------------------------------------------------------------------------

/-- A session, and the board that folds all that it publishes. -/
structure Panel where
  session : State
  board : Board

/-- What comes from the gateway, each taken in as a whole. -/
inductive Arrival where
  /-- A connection opens; its numbers start anew. -/
  | opened
  | frame (bytes : Text)
  | pull (outcome : Exchange)

namespace Panel

def feed (p : Panel) (now : Instant) (stop : Stop α) : Panel where
  session := stop.state
  board := p.board.after ((Note.events stop.notes).map (now, ·))

/-- The link has changed and signals so. -/
def hear (p : Panel) (now : Instant) (change : Push.Link × List Push.Signal) : Panel :=
  p.feed now <| (carryAll change.2).run now false
    { p.session with run := { p.session.run with link := change.1 } }

def take (p : Panel) (now : Instant) : Arrival → Panel
  | .opened => p.hear now p.session.run.link.opened
  | .frame bytes => p.hear now (p.session.run.link.receive p.session.run.handler bytes)
  | .pull outcome =>
    let asked := refreshStatus.run now false p.session
    p.feed now (asked.task.answer now false asked.state (.exchanged outcome))

def after (p : Panel) (arrivals : List (Instant × Arrival)) : Panel :=
  arrivals.foldl (fun p a => p.take a.1 a.2) p

end Panel

def pulled (outcome : Exchange) : List StatusUpdate :=
  match outcomeOf .status outcome with
  | .ok status => [status.update]
  | .error _ => []

def framed (bytes : Text) : List StatusUpdate := ((payloadOf? bytes).map updateOf).toList

/-- The updates that are handled, when the numbers of the connection have come
to `last`. A frame that does not follow is dropped, and one that cannot be
decoded carries nothing. -/
def handled (last : UInt64) : List (Instant × Arrival) → List StatusUpdate
  | [] => []
  | (_, .opened) :: rest => handled 0 rest
  | (_, .frame bytes) :: rest =>
    if follows last bytes then framed bytes ++ handled ((sequenceOf? bytes).getD last) rest
    else handled last rest
  | (_, .pull outcome) :: rest => pulled outcome ++ handled last rest

-- ---------------------------------------------------------------------------
-- One arrival
-- ---------------------------------------------------------------------------

/-- A panel whose session and board agree on the device list. -/
structure Panel.Agrees (p : Panel) (last : UInt64) (shown : Summary) : Prop where
  summary : p.board.summary = shown
  devices : p.session.devices = shown.devices
  handler : p.session.run.handler ≠ .none
  lastSeq : p.session.run.link.lastSeq = last

theorem Panel.Agrees.feed {p : Panel} (h : p.Agrees last shown) (now : Instant)
    {a : Activity α} (ha : Feeds updates a) :
    (p.feed now (a.run now false p.session)).Agrees last (shown.takeAll updates) := by
  obtain ⟨value, -, hrun, hdevices, hshown⟩ := ha now false p.session
  refine ⟨?_, hdevices shown h.devices.symm, ?_, ?_⟩
  · show (p.board.after _).summary = _
    rw [Telemetry.after_summary, h.summary, List.map_map]
    exact hshown shown
  · show (a.run now false p.session).state.run.handler ≠ _
    rw [hrun]
    exact h.handler
  · show (a.run now false p.session).state.run.link.lastSeq = _
    rw [hrun]
    exact h.lastSeq

theorem Panel.Agrees.hear {p : Panel} (h : p.Agrees last shown) (now : Instant)
    (change : Push.Link × List Push.Signal)
    (hsignals : ∀ event, .publish event ∈ change.2 → event.update = {}) :
    (p.hear now change).Agrees change.1.lastSeq
      (shown.takeAll ((Push.delivered change.2).map updateOf)) :=
  have hlink : Agrees { p with session := { p.session with
      run := { p.session.run with link := change.1 } } } change.1.lastSeq shown :=
    ⟨h.summary, h.devices, h.handler, rfl⟩
  hlink.feed now (feeds_carryAll hsignals)

theorem update_ofFrame {signal : Push.Signal} (h : signal.ofFrame = true)
    (hsignal : signal = .publish event) : event.update = {} := by
  subst hsignal
  cases event with
  | received | dropped | versionMismatch => rfl
  | _ => cases h

theorem Panel.Agrees.opened {p : Panel} (h : p.Agrees last shown) (now : Instant) :
    (p.take now .opened).Agrees 0 shown := by
  refine h.hear now _ fun event hm => ?_
  simp only [Push.Link.opened, List.mem_cons, List.mem_nil_iff, or_false, reduceCtorEq,
    Push.Signal.publish.injEq, false_or] at hm
  rw [hm]
  rfl

theorem Panel.Agrees.frame {p : Panel} (h : p.Agrees last shown) (now : Instant) (bytes : Text)
    (hf : follows last bytes = true) :
    (p.take now (.frame bytes)).Agrees ((sequenceOf? bytes).getD last)
      (shown.takeAll (framed bytes)) := by
  obtain ⟨hseq, hdelivered⟩ := receive_follows h.handler (h.lastSeq.symm ▸ hf)
  have hnext := h.hear now (p.session.run.link.receive p.session.run.handler bytes)
    fun event hm => update_ofFrame (List.all_eq_true.mp (Push.receive_ofFrame _ _ bytes) _ hm) rfl
  rw [hseq, hdelivered, h.lastSeq] at hnext
  rw [framed, Option.toList_map]
  exact hnext

/-- A frame that does not follow changes nothing. -/
theorem Panel.Agrees.dropped {p : Panel} (h : p.Agrees last shown) (now : Instant) (bytes : Text)
    (hf : follows last bytes = false) : (p.take now (.frame bytes)).Agrees last shown := by
  have hnot : ¬follows p.session.run.link.lastSeq bytes = true := by
    rw [h.lastSeq, hf]
    exact Bool.false_ne_true
  -- Of the four ways that a frame can go, only the duplicate does not follow.
  rcases Push.receive_cases p.session.run.link p.session.run.handler bytes with
    ⟨why, hd, -⟩ | ⟨m, hd, hs, -⟩ | ⟨m, seq, -, -, -, hr⟩ | ⟨m, seq, hd, hs, hlt, -⟩
  · rw [follows, Push.sequenceOf?_error hd] at hnot
    exact absurd rfl hnot
  · rw [follows, Push.sequenceOf?_ok hd, hs] at hnot
    exact absurd rfl hnot
  · have hnext := h.hear now (p.session.run.link.receive p.session.run.handler bytes)
      fun event hm => update_ofFrame (List.all_eq_true.mp (Push.receive_ofFrame _ _ bytes) _ hm) rfl
    rw [hr, h.lastSeq] at hnext
    rw [Panel.take, hr]
    exact hnext
  · rw [follows, Push.sequenceOf?_ok hd, hs] at hnot
    exact absurd (decide_eq_true hlt) hnot

theorem Panel.Agrees.pull {p : Panel} (h : p.Agrees last shown) (now : Instant)
    (outcome : Exchange) :
    (p.take now (.pull outcome)).Agrees last (shown.takeAll (pulled outcome)) := by
  -- The question changes nothing, so the answer finds the panel as it was.
  show (p.feed now ((takePulled (outcomeOf .status outcome)).run now false p.session)).Agrees _ _
  rw [pulled]
  cases outcomeOf .status outcome with
  | error why => exact h.feed now (feeds_done _)
  | ok status => exact h.feed now ((feeds_status status.update).bind fun _ => feeds_done _)

-- ---------------------------------------------------------------------------
-- All arrivals
-- ---------------------------------------------------------------------------

theorem Panel.Agrees.after {p : Panel} (h : p.Agrees last shown)
    (arrivals : List (Instant × Arrival)) :
    ∃ next, (p.after arrivals).Agrees next (shown.takeAll (handled last arrivals)) := by
  induction arrivals generalizing p last shown with
  | nil => exact ⟨last, h⟩
  | cons arrival rest ih =>
    obtain ⟨now, arrival⟩ := arrival
    cases arrival with
    | opened => exact ih (h.opened now)
    | frame bytes =>
      rw [handled]
      cases hf : follows last bytes with
      | true =>
        rw [if_pos rfl, Summary.takeAll_append]
        exact ih (h.frame now bytes hf)
      | false =>
        rw [if_neg Bool.false_ne_true]
        exact ih (h.dropped now bytes hf)
    | pull outcome =>
      rw [handled, Summary.takeAll_append]
      exact ih (h.pull now outcome)

/-- A session that is not connected yet, and a board that has seen nothing. -/
def Panel.new (client : Rest.Client) (link : Push.Link) (settings : Settings)
    (board : Telemetry.Settings) (started : Instant) : Panel where
  session := .idle client link .reconciling settings
  board := .new board started

structure Panel.Shows (p : Panel) (updates : List StatusUpdate) : Prop where
  panId waiting now :
    (p.board.snapshot waiting now).panId = (latest? StatusUpdate.panId updates).getD 0
  channel waiting now :
    (p.board.snapshot waiting now).channel = (latest? StatusUpdate.channel updates).getD 0
  coordinatorAddr waiting now :
    (p.board.snapshot waiting now).coordinatorAddr =
      (latest? StatusUpdate.shortAddr updates).getD 0
  devices waiting now :
    (p.board.snapshot waiting now).devices = (latest? StatusUpdate.devices updates).getD []
  session : p.session.devices = (latest? StatusUpdate.devices updates).getD []

theorem Panel.Agrees.shows {p : Panel} (h : p.Agrees last (Summary.takeAll {} updates)) :
    p.Shows updates := by
  have hsummary := h.summary.trans (Summary.takeAll_eq {} updates)
  refine ⟨fun _ _ => congrArg Summary.panId hsummary, fun _ _ => congrArg Summary.channel hsummary,
    fun _ _ => congrArg Summary.coordinatorAddr hsummary,
    fun _ _ => congrArg Summary.devices hsummary, ?_⟩
  rw [h.devices, Summary.takeAll_eq]

/-- The board shows of each field what was carried last, and the session has
the device list that was. A frame that cannot be decoded changes none of
them. -/
theorem latest_shown (client : Rest.Client) (link : Push.Link) (settings : Settings)
    (board : Telemetry.Settings) (started : Instant) (arrivals : List (Instant × Arrival)) :
    let p := (Panel.new client link settings board started).after arrivals
    let updates := handled link.lastSeq arrivals
    p.Shows updates ∧
      ∀ now bytes, payloadOf? bytes = none → (p.take now (.frame bytes)).Shows updates := by
  have hnew : (Panel.new client link settings board started).Agrees link.lastSeq {} :=
    ⟨rfl, rfl, nofun, rfl⟩
  obtain ⟨last, hagrees⟩ := hnew.after arrivals
  refine ⟨hagrees.shows, fun now bytes hnone => ?_⟩
  cases hf : follows last bytes with
  | true =>
    have hnext := hagrees.frame now bytes hf
    rw [framed, hnone] at hnext
    exact hnext.shows
  | false => exact (hagrees.dropped now bytes hf).shows

/-- A frame shows a PAN id, and a pull whose answer leaves it out clears it. -/
theorem panId_cleared :
    let frame : Text := "\x7b\"pan_id\":4660\x7d"
    let status : Text := "\x7b\"data\":\x7b\"channel\":15\x7d,\"status\":\"ok\"\x7d"
    let pushed := (Panel.new (.new "http://gateway.lab" [] 0) (.new "ws://gateway.lab/ws" {}) {}
      {} 0).after [(1, .frame frame)]
    let pulled := pushed.take 2 (.pull (.ok ("/status", { body := status })))
    (pushed.board.snapshot 0 1).panId = 4660 ∧ (pulled.board.snapshot 0 2).panId = 0 := by
  decide +kernel

end Session

end MeshConsole
