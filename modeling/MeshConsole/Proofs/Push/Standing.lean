import MeshConsole.Proofs.Push.Reconciliation
import MeshConsole.Proofs.Push.Reconnect

/-!
# Where a connection stands

`state_agrees_with_status`: whatever happens to a run, the state of its link
goes round `closed`, `connecting`, `opened` only along its four edges, and
what listeners were told last agrees with it whenever the run waits or has
ended. Each open tells them once, with the link as good as new. At whatever
moment a run is cancelled, it ends with the link closed, with nobody left
believing in a connection, and with every socket closed.
-/

namespace MeshConsole

/-- What an event tells of the connection: whether it is there, and the
failures in a row. -/
def Telemetry.Event.status? : Telemetry.Event → Option (Bool × Int)
  | .connection _ connected attempt => some (connected, attempt)
  | _ => none

namespace Push

/-- The edges of a link's state. -/
inductive LinkState.Edge : LinkState → LinkState → Prop
  | dials : Edge .closed .connecting
  | opens : Edge .connecting .opened
  | fails : Edge .connecting .closed
  | breaks : Edge .opened .closed

/-- The state of the link in each phase of its run. -/
def Phase.linkState : Phase → LinkState
  | .dialing => .connecting
  | .reading => .opened
  | .waiting _ => .closed
  | .finished => .closed

def Signal.status? : Signal → Option (Bool × Int)
  | .publish event => event.status?
  | _ => none

def statuses (signals : List Signal) : List (Bool × Int) := signals.filterMap Signal.status?

@[simp] theorem statuses_append (signals more : List Signal) :
    statuses (signals ++ more) = statuses signals ++ statuses more := List.filterMap_append

/-- What listeners believe after signals, when they believed `before`. -/
def believed (before : Bool) (signals : List Signal) : Bool :=
  ((statuses signals).getLast?.map Prod.fst).getD before

theorem believed_append (before : Bool) (signals more : List Signal) :
    believed before (signals ++ more) = believed (believed before signals) more := by
  simp only [believed, statuses_append, List.getLast?_append]
  cases (statuses more).getLast? <;> simp

/-- The sockets that signals close. -/
def closings (signals : List Signal) : Nat := signals.count .closeSocket

@[simp] theorem closings_append (signals more : List Signal) :
    closings (signals ++ more) = closings signals + closings more := List.count_append

/-- The signal neither tells of the connection nor closes its socket. -/
def Signal.isQuiet : Signal → Bool
  | .publish (.connection ..) => false
  | .closeSocket => false
  | _ => true

theorem statuses_quiet {signals : List Signal} (h : signals.all Signal.isQuiet = true) :
    statuses signals = [] := by
  refine List.filterMap_eq_nil_iff.mpr fun s hs => ?_
  have hquiet := List.all_eq_true.mp h s hs
  cases s with
  | publish event =>
    cases event with
    | connection => cases hquiet
    | _ => rfl
  | _ => rfl

theorem closings_quiet {signals : List Signal} (h : signals.all Signal.isQuiet = true) :
    closings signals = 0 := by
  refine List.count_eq_zero.mpr fun hs => ?_
  cases List.all_eq_true.mp h _ hs

theorem receive_quiet (l : Link) (handler : Handler) (frame : Text) :
    (l.receive handler frame).2.all Signal.isQuiet = true := by
  refine List.all_eq_true.mpr fun s hs => ?_
  have hframe := List.all_eq_true.mp (receive_ofFrame l handler frame) s hs
  cases s with
  | publish event =>
    cases event with
    | connection => cases hframe
    | _ => rfl
  | closeSocket => cases hframe
  | _ => rfl

namespace Run

theorem callOff_quiet (r : Run) (picks : Nat → Bool) :
    (r.callOff picks).2.all Signal.isQuiet = true := by
  simp [callOff, Signal.isQuiet]

theorem schedule_quiet (r : Run) (due : Instant) :
    (r.schedule due).2.all Signal.isQuiet = true := by
  have hcalled := callOff_quiet r fun number => r.slot == some number
  simp only [schedule, List.all_append, hcalled]
  rfl

theorem onPullDue_quiet (r : Run) (number : Nat) :
    (r.onPullDue number).2.all Signal.isQuiet = true := by
  unfold onPullDue
  split <;> rfl

-- ---------------------------------------------------------------------------
-- One step
-- ---------------------------------------------------------------------------

/-- The run once it is cancelled, with every pull called off. -/
def ended (r : Run) : Run :=
  ({ r with link := { r.link with state := .closed }, phase := .finished,
            slot := none }.callOff fun _ => true).1

/-- What a step makes of the connection. The lists are what it tells of the
connection, the numbers are the sockets it closes. -/
inductive Shift (r : Run) (next : Run) : Happening → List (Bool × Int) → Nat → Prop
  | keeps : next.phase = r.phase → next.link.state = r.link.state →
      next.link.retryAttempt = r.link.retryAttempt → r.phase.awaits h = false →
      (h = .cancelled → r.phase = .finished) → Shift r next h [] 0
  | opens : r.phase = .dialing → next.phase = .reading → next.link = r.link.opened.1 →
      Shift r next .dialed [(true, 0)] 0
  | dialFails (why) : r.phase = .dialing → next = (r.onFailed why).1 →
      Shift r next (.dialFailed why) [(false, next.link.retryAttempt)] 0
  | readFails (why) : r.phase = .reading → next = (r.onFailed why).1 →
      Shift r next (.readFailed why) [(false, next.link.retryAttempt)] 1
  | redials : r.phase = .waiting delay →
      next = { r with link := { r.link with state := .connecting }, phase := .dialing } →
      Shift r next .waited [] 0
  | stopsDialing : r.phase = .dialing → next = r.ended → Shift r next .cancelled [(false, 0)] 0
  | stopsReading : r.phase = .reading → next = r.ended → Shift r next .cancelled [(false, 0)] 1
  | stopsWaiting : r.phase = .waiting delay → next = r.ended → Shift r next .cancelled [] 0

theorem shift_quiet {r next : Run} {signals : List Signal} (hq : signals.all Signal.isQuiet = true)
    (hs : Shift r next h [] 0) : Shift r next h (statuses signals) (closings signals) := by
  rwa [statuses_quiet hq, closings_quiet hq]

theorem shift_onDialed {r : Run} (hp : r.phase = .dialing) (now : Instant) :
    Shift r (r.onDialed now).1 .dialed (statuses (r.onDialed now).2)
      (closings (r.onDialed now).2) := by
  by_cases hr : r.handler = .reconciling
  · have hquiet := schedule_quiet r.linked (now.plus r.link.timing.reconcile)
    rw [onDialed_reconciling hr, statuses_append, closings_append, statuses_quiet hquiet,
      closings_quiet hquiet]
    exact .opens hp rfl rfl
  · rw [onDialed_plain hr]
    exact .opens hp rfl rfl

theorem shift_onCancelled (r : Run) :
    Shift r r.onCancelled.1 .cancelled (statuses r.onCancelled.2) (closings r.onCancelled.2) := by
  have hquiet := callOff_quiet { r with link := { r.link with state := .closed },
                                         phase := .finished, slot := none } fun _ => true
  have hstatuses := statuses_quiet hquiet
  have hclosings := closings_quiet hquiet
  unfold onCancelled
  cases hp : r.phase with
  | finished => exact .keeps rfl rfl rfl (by rw [hp]; rfl) fun _ => hp
  | waiting delay =>
    simp only [hstatuses, hclosings]
    exact .stopsWaiting hp rfl
  | dialing =>
    simp only [statuses_append, closings_append, hstatuses, hclosings]
    exact .stopsDialing hp rfl
  | reading =>
    show Shift r r.ended .cancelled
      (statuses ([.closeSocket, .publish (.connection r.link.url false 0)] ++ _))
      (closings ([.closeSocket, .publish (.connection r.link.url false 0)] ++ _))
    rw [statuses_append, closings_append, hstatuses, hclosings]
    exact .stopsReading hp rfl

theorem step_shift (r : Run) (now : Instant) (h : Happening) :
    Shift r (r.step now h).1 h (statuses (r.step now h).2) (closings (r.step now h).2) := by
  cases step_cases r now h with
  | dialed hp hs =>
    rw [hs]
    exact shift_onDialed hp now
  | dialFailed why hp hs =>
    rw [hs]
    exact .dialFails why hp rfl
  | frame bytes hp hs =>
    rw [hs]
    refine shift_quiet (receive_quiet _ _ _) (.keeps rfl ?_ ?_ (by rw [hp]; rfl) nofun)
    · rw [receive_link]
    · rw [receive_link]
  | readFailed why hp hs =>
    rw [hs]
    exact .readFails why hp rfl
  | waited delay hp hs =>
    rw [hs]
    exact .redials hp rfl
  | cancelled hs =>
    rw [hs]
    exact shift_onCancelled r
  | pullDue number hs =>
    obtain ⟨hl, hphase⟩ := onPullDue_link r number
    rw [hs]
    refine shift_quiet (onPullDue_quiet r number)
      (.keeps hphase ?_ ?_ (by cases r.phase <;> rfl) nofun)
    · rw [hl]
    · rw [hl]
  | pullReturned number hs =>
    rw [hs]
    exact .keeps rfl rfl rfl (by cases r.phase <;> rfl) nofun
  | ignored hc ha hs =>
    rw [hs]
    exact .keeps rfl rfl rfl ha fun h => absurd h hc

/-- The link is in the state that goes with the phase. -/
def Matched (r : Run) : Prop := r.link.state = r.phase.linkState

theorem Shift.matched (hs : Shift r next h told closed) (hm : r.Matched) : next.Matched := by
  cases hs with
  | keeps hphase hstate => rw [Matched, hphase, hstate, hm]
  | opens _ hphase hlink => rw [Matched, hphase, hlink]; rfl
  | dialFails _ _ hnext | readFails _ _ hnext | redials _ hnext => rw [hnext]; rfl
  | stopsDialing _ hnext | stopsReading _ hnext | stopsWaiting _ hnext => rw [hnext]; rfl

theorem Shift.edge (hs : Shift r next h told closed) (hm : r.Matched) :
    next.link.state = r.link.state ∨ LinkState.Edge r.link.state next.link.state := by
  cases hs with
  | keeps _ hstate => exact .inl hstate
  | opens hp _ hlink =>
    rw [hm, hp, hlink]
    exact .inr .opens
  | dialFails _ hp hnext | stopsDialing hp hnext =>
    rw [hm, hp, hnext]
    exact .inr .fails
  | readFails _ hp hnext | stopsReading hp hnext =>
    rw [hm, hp, hnext]
    exact .inr .breaks
  | redials hp hnext =>
    rw [hm, hp, hnext]
    exact .inr .dials
  | stopsWaiting hp hnext =>
    rw [hm, hp, hnext]
    exact .inl rfl

/-- The sockets that a run holds. -/
def sockets (r : Run) : Nat := if r.phase = .reading then 1 else 0

/-- What a step tells makes listeners believe in the connection exactly
while the run reads. -/
theorem Shift.belief (hs : Shift r next h told closed) :
    ((told.getLast?.map Prod.fst).getD (r.phase == .reading)) = (next.phase == .reading) := by
  cases hs with
  | keeps hphase => rw [hphase]; rfl
  | opens _ hphase => rw [hphase]; rfl
  | dialFails _ _ hnext | readFails _ _ hnext => rw [hnext]; rfl
  | redials hp hnext => rw [hp, hnext]; rfl
  | stopsDialing _ hnext | stopsReading _ hnext => rw [hnext]; rfl
  | stopsWaiting hp hnext => rw [hp, hnext]; rfl

/-- The opens that a run hears of at one happening. -/
def opensAt (r : Run) (h : Happening) : Nat :=
  if r.phase.awaits h = true then [h].count .dialed else 0

/-- Every socket that is opened is closed or still held. -/
theorem Shift.balance (hs : Shift r next h told closed) :
    closed + next.sockets = r.opensAt h + r.sockets := by
  cases hs with
  | keeps hphase _ _ hawaits => simp [opensAt, sockets, hphase, hawaits]
  | opens hp hphase => simp [opensAt, sockets, hp, hphase, Phase.awaits]
  | dialFails why hp hnext =>
    simp [opensAt, sockets, hp, hnext, onFailed, Phase.awaits]
  | readFails why hp hnext =>
    simp [opensAt, sockets, hp, hnext, onFailed, Phase.awaits]
  | redials hp hnext => simp [opensAt, sockets, hp, hnext, Phase.awaits]
  | stopsDialing hp hnext => simp [opensAt, sockets, hp, hnext, ended, callOff, Phase.awaits]
  | stopsReading hp hnext => simp [opensAt, sockets, hp, hnext, ended, callOff, Phase.awaits]
  | stopsWaiting hp hnext => simp [opensAt, sockets, hp, hnext, ended, callOff, Phase.awaits]

/-- Only an open and a frame move the watermark. -/
theorem step_lastSeq (r : Run) (now : Instant) {h : Happening} (hdialed : h ≠ .dialed)
    (hframe : ∀ bytes, h ≠ .frame bytes) : (r.step now h).1.link.lastSeq = r.link.lastSeq := by
  cases step_cases r now h with
  | dialed => exact absurd rfl hdialed
  | frame bytes => exact absurd rfl (hframe bytes)
  | dialFailed _ _ hs | readFailed _ _ hs | pullReturned _ hs =>
    rw [hs]
    rfl
  | waited _ _ hs | ignored _ _ hs => rw [hs]
  | cancelled hs =>
    rw [hs]
    unfold onCancelled
    split <;> rfl
  | pullDue number hs => rw [hs, (onPullDue_link r number).1]

/-- What no phase awaits leaves a run in its phase. -/
theorem step_phase (r : Run) (now : Instant) {h : Happening}
    (hawaits : r.phase.awaits h = false) (hcancelled : h ≠ .cancelled) :
    (r.step now h).1.phase = r.phase := by
  have hshift := step_shift r now h
  generalize statuses (r.step now h).2 = told, closings (r.step now h).2 = closed at hshift
  cases hshift with
  | keeps hphase => exact hphase
  | opens hp | dialFails _ hp | readFails _ hp | redials hp =>
    rw [hp] at hawaits
    cases hawaits
  | stopsDialing | stopsReading | stopsWaiting => exact absurd rfl hcancelled

/-- A link that reads goes on to, unless it closes its socket. -/
theorem step_reading {r : Run} (hreading : r.phase = .reading) (now : Instant) {h : Happening}
    (hdialed : h ≠ .dialed) (hopen : .closeSocket ∉ (r.step now h).2) :
    (r.step now h).1.phase = .reading := by
  have hbalance := (step_shift r now h).balance
  have hclosings : closings (r.step now h).2 = 0 := List.count_eq_zero.mpr hopen
  have hopens : r.opensAt h = 0 := by
    unfold opensAt
    split
    · exact List.count_eq_zero.mpr (by simpa using Ne.symm hdialed)
    · rfl
  have hsocket : r.sockets = 1 := if_pos hreading
  by_contra hphase
  have hnone : (r.step now h).1.sockets = 0 := if_neg hphase
  omega

theorem step_dialing {r : Run} (hdialing : r.phase = .dialing) (now : Instant) :
    (r.step now .dialed).1.phase = .reading ∧ .closeSocket ∉ (r.step now .dialed).2 := by
  have hshift := step_shift r now .dialed
  generalize statuses (r.step now .dialed).2 = told at hshift
  generalize hclosed : closings (r.step now .dialed).2 = closed at hshift
  cases hshift with
  | keeps _ _ _ hawaits =>
    rw [hdialing] at hawaits
    cases hawaits
  | opens _ hphase _ => exact ⟨hphase, List.count_eq_zero.mp hclosed⟩

-- ---------------------------------------------------------------------------
-- A whole course
-- ---------------------------------------------------------------------------

/-- The opens of a course. -/
def opens (r : Run) (course : List (Instant × Happening)) : Nat := (r.heard course).count .dialed

theorem opens_cons (r : Run) (now : Instant) (h : Happening)
    (rest : List (Instant × Happening)) :
    r.opens ((now, h) :: rest) = r.opensAt h + (r.step now h).1.opens rest := by
  simp only [opens, opensAt, heard]
  split
  · rw [← List.singleton_append, List.count_append]
  · rw [Nat.zero_add]

/-- How a run stands, and what is to be made of its signals. -/
structure Stands (r : Run) (signals : List Signal) (opened : Nat) : Prop where
  matched : r.Matched
  belief : believed false signals = (r.phase == .reading)
  balance : closings signals + r.sockets = opened

theorem Stands.step (hs : Stands r signals opened) (now : Instant) (h : Happening) :
    Stands (r.step now h).1 (signals ++ (r.step now h).2) (opened + r.opensAt h) where
  matched := (step_shift r now h).matched hs.matched
  belief := by
    rw [believed_append, hs.belief]
    exact (step_shift r now h).belief
  balance := by
    have hbalance := (step_shift r now h).balance
    rw [closings_append, ← hs.balance]
    omega

theorem Stands.meets (hs : Stands r signals opened) (course : List (Instant × Happening)) :
    Stands (r.meets course).1 (signals ++ (r.meets course).2.map Prod.snd)
      (opened + r.opens course) := by
  induction course generalizing r signals opened with
  | nil => simpa [Run.opens, heard] using hs
  | cons e rest ih =>
    obtain ⟨now, h⟩ := e
    have hstamped : ((r.step now h).2.map (now, ·)).map Prod.snd = (r.step now h).2 := by
      simp [Function.comp_def]
    rw [meets_cons, opens_cons, List.map_append, hstamped, ← List.append_assoc, ← Nat.add_assoc]
    exact ih (hs.step now h)

theorem stands_start (link : Link) (handler : Handler) (cancelled : Bool) :
    Stands (start link handler cancelled) [] 0 := by
  cases cancelled with
  | true => exact ⟨rfl, rfl, rfl⟩
  | false => exact ⟨rfl, rfl, rfl⟩

-- ---------------------------------------------------------------------------
-- The end of a run
-- ---------------------------------------------------------------------------

/-- The loop has ended, and no pull waits for its instant any more. -/
structure Over (r : Run) : Prop where
  phase : r.phase = .finished
  running : ∀ p ∈ r.pulls, p.due? = none

theorem over_ended (r : Run) : r.ended.Over where
  phase := rfl
  running p hp := by
    obtain ⟨q, -, -, ⟨-, -, hdue⟩ | ⟨hpick, -⟩⟩ := mem_callOff hp
    · exact hdue
    · cases hpick

/-- A run that is over hears of nothing but pulls that return. -/
theorem Over.step_cases {r : Run} (ho : r.Over) (now : Instant) (h : Happening) :
    (r.step now h = (r, []) ∧ ∀ number, h ≠ .pullReturned number) ∨
      ∃ number, h = .pullReturned number ∧
        r.step now h = ({ r with pulls := r.pulls.filter fun p => p.number != number }, []) := by
  have hnone : r.waits = [] := waits_eq_nil ho.running
  cases h with
  | pullReturned number =>
    refine .inr ⟨number, rfl, ?_⟩
    show ({ r with pulls := r.pulls.filter fun p => p.number != number || p.due?.isSome }, []) = _
    congr 2
    refine List.filter_congr fun p hp => ?_
    simp [ho.running p hp]
  | pullDue number =>
    refine .inl ⟨?_, fun _ heq => by cases heq⟩
    show r.onPullDue number = _
    exact onPullDue_other fun instant => by simp [hnone]
  | cancelled =>
    refine .inl ⟨?_, fun _ heq => by cases heq⟩
    simp [step, onCancelled, ho.phase]
  | _ => exact .inl ⟨by simp [step, ho.phase], fun _ heq => by cases heq⟩

theorem Over.step {r : Run} (ho : r.Over) (now : Instant) (h : Happening) :
    (r.step now h).1.Over := by
  rcases ho.step_cases now h with ⟨hs, -⟩ | ⟨number, -, hs⟩
  · rwa [hs]
  · rw [hs]
    exact ⟨ho.phase, fun p hp => ho.running p (List.mem_filter.mp hp).1⟩

/-- A pull that is left at the end was there before and has not returned. -/
theorem Over.left {r : Run} (ho : r.Over) (course : List (Instant × Happening))
    (hp : p ∈ (r.meets course).1.pulls) :
    p ∈ r.pulls ∧ ∀ t, (t, .pullReturned p.number) ∉ course := by
  induction course generalizing r with
  | nil => exact ⟨hp, by simp⟩
  | cons e rest ih =>
    obtain ⟨now, h⟩ := e
    rw [meets_cons] at hp
    obtain ⟨hmem, hrest⟩ := ih (ho.step now h) hp
    rcases ho.step_cases now h with ⟨hs, hother⟩ | ⟨number, rfl, hs⟩
    · rw [hs] at hmem
      refine ⟨hmem, fun t ht => ?_⟩
      rcases List.mem_cons.mp ht with heq | ht
      · exact hother p.number (Prod.mk.inj heq).2.symm
      · exact hrest t ht
    · rw [hs] at hmem
      obtain ⟨hmem, hne⟩ := List.mem_filter.mp hmem
      refine ⟨hmem, fun t ht => ?_⟩
      rcases List.mem_cons.mp ht with heq | ht
      · obtain ⟨-, hnumber⟩ := Prod.mk.inj heq
        cases hnumber
        simp at hne
      · exact hrest t ht

theorem Over.returns {r : Run} (ho : r.Over) (course : List (Instant × Happening))
    (hall : ∀ p ∈ r.pulls, ∃ t, (t, .pullReturned p.number) ∈ course) :
    (r.meets course).1.hasReturned = true := by
  refine hasReturned_iff.mpr ⟨(meets_keeps (fun _ now h ho => ho.step now h) course r ho).phase, ?_⟩
  refine List.eq_nil_iff_forall_not_mem.mpr fun p hp => ?_
  obtain ⟨hmem, hnone⟩ := ho.left course hp
  obtain ⟨t, ht⟩ := hall p hmem
  exact hnone t ht

theorem Over.meets {r : Run} (ho : r.Over) (course : List (Instant × Happening)) :
    (r.meets course).1.Over := meets_keeps (fun _ now h ho => ho.step now h) course r ho

theorem Over.heard {r : Run} (ho : r.Over) (course : List (Instant × Happening)) :
    r.heard course = [] := by
  induction course generalizing r with
  | nil => rfl
  | cons e rest ih =>
    rw [Run.heard, ho.phase, ih (ho.step e.1 e.2)]
    rfl

/-- No pull waits for its instant once the loop has ended. -/
def Settles (r : Run) : Prop := r.phase = .finished → r.Over

theorem Shift.settles (hs : Shift r next h told closed) (hover : r.phase = .finished → next.Over) :
    next.Settles := by
  intro hp
  cases hs with
  | keeps hphase => exact hover (hphase ▸ hp)
  | opens _ hphase => cases hphase.symm.trans hp
  | dialFails _ _ hnext | readFails _ _ hnext | redials _ hnext =>
    rw [hnext] at hp
    cases hp
  | stopsDialing _ hnext | stopsReading _ hnext | stopsWaiting _ hnext =>
    rw [hnext]
    exact over_ended r

theorem Shift.cancelled (hs : Shift r next .cancelled told closed)
    (hover : r.phase = .finished → next.Over) : next.Over := by
  cases hs with
  | keeps _ _ _ _ hc => exact hover (hc rfl)
  | stopsDialing _ hnext | stopsReading _ hnext | stopsWaiting _ hnext =>
    rw [hnext]
    exact over_ended r

theorem Settles.step {r : Run} (hr : r.Settles) (now : Instant) (h : Happening) :
    (r.step now h).1.Settles := (step_shift r now h).settles fun hp => (hr hp).step now h

theorem settles_start (link : Link) (handler : Handler) (cancelled : Bool) :
    (start link handler cancelled).Settles := by
  cases cancelled with
  | true => exact fun _ => ⟨rfl, nofun⟩
  | false => exact nofun

-- ---------------------------------------------------------------------------
-- Any course
-- ---------------------------------------------------------------------------

/-- Where a run that was cancelled has come to, whatever happens to it later.
It has returned when the pulls that were under way have. -/
structure Closed (stopped : Run) (signals : List Signal) (opened : Nat)
    (later : List (Instant × Happening)) : Prop where
  phase : (stopped.meets later).1.phase = .finished
  state : (stopped.meets later).1.link.state = .closed
  told : believed false (signals ++ (stopped.meets later).2.map Prod.snd) = false
  sockets : closings (signals ++ (stopped.meets later).2.map Prod.snd) = opened
  unopened : stopped.opens later = 0
  returns : (∀ p ∈ stopped.pulls, ∃ t, (t, .pullReturned p.number) ∈ later) →
    (stopped.meets later).1.hasReturned = true

theorem closed_of_over (ho : r.Over) (hs : Stands r signals opened)
    (later : List (Instant × Happening)) : Closed r signals opened later := by
  have hphase := (ho.meets later).phase
  have hnone : r.opens later = 0 := by rw [opens, ho.heard later, List.count_nil]
  have hlater := hs.meets later
  rw [hnone] at hlater
  refine ⟨hphase, ?_, ?_, ?_, hnone, ho.returns later⟩
  · rw [hlater.matched, hphase]
    rfl
  · rw [hlater.belief, hphase]
    rfl
  · have hbalance := hlater.balance
    rwa [sockets, hphase] at hbalance

/-- What holds of a run that has signalled so much and opened so often, and
of whatever happens to it next. -/
structure Faithful (r : Run) (signals : List Signal) (opened : Nat) : Prop where
  edge : ∀ now h, (r.step now h).1.link.state = r.link.state ∨
    LinkState.Edge r.link.state (r.step now h).1.link.state
  told : believed false signals = true ↔ r.link.state = .opened
  /-- An open makes the link as good as new and announces it before anything
  else; nothing more that it signals is about the connection. -/
  opening : r.phase = .dialing → ∀ now,
    (r.step now .dialed).1.link =
      { r.link with state := .opened, lastSeq := 0, retryAttempt := 0 } ∧
    ∃ rest, (r.step now .dialed).2 = .log (("connected to " : Text) ++ r.link.url) ::
      .publish (.connection r.link.url true 0) :: rest ∧ statuses rest = []
  /-- Nothing but an open is announced as a connection. -/
  unopened : ∀ now h, (r.phase = .dialing → h ≠ .dialed) →
    ∀ status ∈ statuses (r.step now h).2, status.1 = false
  cancelling : ∀ now later, Closed (r.step now .cancelled).1
    (signals ++ (r.step now .cancelled).2) opened later

theorem step_dialed {r : Run} (hp : r.phase = .dialing) (now : Instant) :
    (r.step now .dialed).1.link = r.link.opened.1 ∧
    ∃ rest, (r.step now .dialed).2 = r.link.opened.2 ++ rest ∧ statuses rest = [] := by
  have hs : r.step now .dialed = r.onDialed now := by simp [step, hp]
  rw [hs]
  by_cases hr : r.handler = .reconciling
  · rw [onDialed_reconciling hr]
    exact ⟨rfl, _, rfl, statuses_quiet (schedule_quiet _ _)⟩
  · rw [onDialed_plain hr]
    exact ⟨rfl, [], (List.append_nil _).symm, rfl⟩

theorem Shift.unopened (hs : Shift r next h told closed) (hh : r.phase = .dialing → h ≠ .dialed) :
    ∀ status ∈ told, status.1 = false := by
  cases hs with
  | opens hp => exact absurd rfl (hh hp)
  | _ => simp

theorem faithful (hs : Stands r signals opened) (hr : r.Settles) : Faithful r signals opened where
  edge now h := (step_shift r now h).edge hs.matched
  told := by
    rw [hs.belief, hs.matched]
    cases r.phase <;> simp [Phase.linkState]
  opening hp now := step_dialed hp now
  unopened now h hh := (step_shift r now h).unopened hh
  cancelling now later := by
    have hover := (step_shift r now .cancelled).cancelled fun hp => (hr hp).step now .cancelled
    have hstands := hs.step now .cancelled
    rw [opensAt, if_neg (by cases r.phase <;> nofun)] at hstands
    exact closed_of_over hover hstands later

end Run

/-- The state of a link, what is told of it and what becomes of its sockets,
for any run on a closed link and after anything that happens to it. A run
whose context is cancelled from the start has returned at once. -/
theorem state_agrees_with_status (link : Link) (hl : link.state = .closed) (handler : Handler)
    (cancelled : Bool) (course : List (Instant × Happening)) :
    ((Run.start link handler cancelled).link.state = link.state ∨
      LinkState.Edge link.state (Run.start link handler cancelled).link.state) ∧
    (Run.start link handler cancelled).hasReturned = cancelled ∧
    Run.Faithful ((Run.start link handler cancelled).meets course).1
      (((Run.start link handler cancelled).meets course).2.map Prod.snd)
      ((Run.start link handler cancelled).opens course) := by
  have hstands := (Run.stands_start link handler cancelled).meets course
  rw [List.nil_append, Nat.zero_add] at hstands
  have hsettles := Run.meets_keeps (P := Run.Settles) (fun _ now h hr => hr.step now h) course _
    (Run.settles_start link handler cancelled)
  refine ⟨?_, ?_, Run.faithful hstands hsettles⟩
  · rw [hl]
    cases cancelled with
    | true => exact .inl rfl
    | false => exact .inr .dials
  · cases cancelled <;> rfl

/-- A dial fails, the next one opens, and a pull is under way. -/
def secondDial : List (Instant × Happening) := [
  (0, .dialFailed (.other "refused")), (5, .waited), (6, .dialed), (7, .pullDue 0)]

def secondDialed : Run × List (Instant × Signal) :=
  (Run.start (Link.new "ws://gw/ws" {}) .reconciling false).meets secondDial

theorem closed_secondDial :
    (Link.new "ws://gw/ws" {}).state = .closed ∧ secondDialed.1.link.state = .opened ∧
    believed false (secondDialed.2.map Prod.snd) = true ∧
    Run.Closed (secondDialed.1.step 8 .cancelled).1
      (secondDialed.2.map Prod.snd ++ (secondDialed.1.step 8 .cancelled).2) 1
      [(9, .pullReturned 0)] := by
  obtain ⟨-, -, h⟩ := state_agrees_with_status (Link.new "ws://gw/ws" {}) rfl .reconciling false
    secondDial
  have hopen : secondDialed.1.link.state = .opened := by decide
  exact ⟨rfl, hopen, h.told.mpr hopen, h.cancelling 8 _⟩

end Push

end MeshConsole
