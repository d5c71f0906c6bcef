import Mathlib.Data.List.Chain
import MeshConsole.Proofs.Push.Course

/-!
# The reconnect schedule

`reconnect_schedule`: as long as a run is not cancelled, it dials, waits and
reports as a naive timetable says that counts failures in a row without
bound. After the `j`-th failure since the last open, or since the start, it
reports one client error and one loss of the connection with attempt
`min j 10`, waits once for the backoff of attempt `min (j - 1) 10`, and then
dials. Frames and pulls that come in between play no part.
-/

namespace MeshConsole.Push

open Telemetry (Event)

-- ---------------------------------------------------------------------------
-- What a run does about its connection
-- ---------------------------------------------------------------------------

inductive Act where
  | dial
  | wait (delay : Duration)
  | report (event : Event)
  deriving Repr, DecidableEq

/-- Changes of the connection and client errors are reports about the link;
what becomes of frames is not. -/
def Signal.report? : Signal → Option Act
  | .publish (.connection url connected attempt) =>
    some (.report (.connection url connected attempt))
  | .publish (.clientError fault context severity) =>
    some (.report (.clientError fault context severity))
  | _ => none

/-- What a run turns to as it enters a phase. -/
def Phase.entry : Phase → List Act
  | .dialing => [.dial]
  | .waiting delay => [.wait delay]
  | .reading => []
  | .finished => []

def Act.isWait : Act → Bool
  | .wait _ => true
  | _ => false

namespace Run

/-- What a run does about its connection at one happening. -/
def turn (r : Run) (now : Instant) (h : Happening) : List Act :=
  (r.step now h).2.filterMap Signal.report? ++
    if (r.step now h).1.phase = r.phase then [] else (r.step now h).1.phase.entry

def acts : Run → List (Instant × Happening) → List Act
  | _, [] => []
  | r, (now, h) :: rest => r.turn now h ++ (r.step now h).1.acts rest

end Run

def Phase.isWaiting : Phase → Bool
  | .waiting _ => true
  | _ => false

def Happening.isFailure : Happening → Bool
  | .dialFailed _ => true
  | .readFailed _ => true
  | _ => false

/-- The dials that succeed or fail, the reads that fail and the waits that
end, of all that happens to a run. -/
def Run.heard : Run → List (Instant × Happening) → List Happening
  | _, [] => []
  | r, (now, h) :: rest =>
    let later := (r.step now h).1.heard rest
    if r.phase.awaits h then h :: later else later

-- ---------------------------------------------------------------------------
-- The naive timetable
-- ---------------------------------------------------------------------------

/-- The failures in a row, after a happening. -/
def streak (failures : Nat) : Happening → Nat
  | .dialed => 0
  | .dialFailed _ => failures + 1
  | .readFailed _ => failures + 1
  | _ => failures

/-- What one more failure after `failures` others leads to. -/
def onFailure (url : Text) (timing : Timing) (failures : Nat) (place : Text) (why : Fault) :
    List Act := [
  .report (.clientError (some why) place .warning),
  .report (.connection url false (min (failures + 1) 10 : Nat)),
  .wait (backoff timing.base timing.cap (min failures 10 : Nat))]

/-- What a happening leads to after `failures` in a row. -/
def beat (url : Text) (timing : Timing) (failures : Nat) : Happening → List Act
  | .dialed => [.report (.connection url true 0)]
  | .dialFailed why => onFailure url timing failures "dial" why
  | .readFailed why => onFailure url timing failures "read" why
  | .waited => [.dial]
  | _ => []

def timetable (url : Text) (timing : Timing) : Nat → List Happening → List Act
  | _, [] => []
  | failures, h :: rest =>
    beat url timing failures h ++ timetable url timing (streak failures h) rest

-- ---------------------------------------------------------------------------
-- One happening
-- ---------------------------------------------------------------------------

theorem receive_report (l : Link) (handler : Handler) (frame : Text) :
    (l.receive handler frame).2.filterMap Signal.report? = [] := by
  refine List.filterMap_eq_nil_iff.mpr fun s hs => ?_
  have hframe := List.all_eq_true.mp (receive_ofFrame l handler frame) s hs
  cases s with
  | publish event =>
    cases event with
    | connection | clientError => cases hframe
    | _ => rfl
  | _ => rfl

namespace Run

theorem schedule_report (r : Run) (due : Instant) :
    (r.schedule due).2.filterMap Signal.report? = [] := by
  simp [schedule, callOff, Signal.report?, List.filterMap_map]

theorem onDialed_report (r : Run) (now : Instant) :
    (r.onDialed now).2.filterMap Signal.report? = [.report (.connection r.link.url true 0)] := by
  by_cases hr : r.handler = .reconciling
  · rw [onDialed_reconciling hr, List.filterMap_append, schedule_report]
    rfl
  · rw [onDialed_plain hr]
    rfl

theorem onPullDue_report (r : Run) (number : Nat) :
    (r.onPullDue number).2.filterMap Signal.report? = [] := by
  unfold onPullDue
  split <;> rfl

/-- How a run stands after `failures` in a row. -/
structure Counts (url : Text) (timing : Timing) (failures : Nat) (r : Run) : Prop where
  url : r.link.url = url
  timing : r.link.timing = timing
  retryAttempt : r.link.retryAttempt = min failures 10
  dialing : r.phase = .dialing → r.link.state ≠ .opened
  reading : r.phase = .reading → r.link.state = .opened

theorem onDialed_counts (h : Counts url timing failures r) (now : Instant) :
    Counts url timing 0 (r.onDialed now).1 ∧ (r.onDialed now).1.phase = .reading := by
  have hlinked : Counts url timing 0 r.linked := ⟨h.url, h.timing, rfl, nofun, fun _ => rfl⟩
  by_cases hr : r.handler = .reconciling
  · rw [onDialed_reconciling hr]
    exact ⟨⟨hlinked.url, hlinked.timing, rfl, nofun, fun _ => rfl⟩, rfl⟩
  · rw [onDialed_plain hr]
    exact ⟨hlinked, rfl⟩

theorem onPullDue_link (r : Run) (number : Nat) :
    (r.onPullDue number).1.link = r.link ∧ (r.onPullDue number).1.phase = r.phase := by
  unfold onPullDue
  split <;> exact ⟨rfl, rfl⟩

/-- Counting up to ten and then one further is counting one further up to
ten. -/
theorem saturate_succ (n : Nat) : min (min n 10 + 1) maxRetryAttempt = min (n + 1) 10 := by
  simp only [maxRetryAttempt]
  omega

theorem onFailed_counts (h : Counts url timing failures r) (why : Fault) :
    Counts url timing (failures + 1) (r.onFailed why).1 where
  url := h.url
  timing := h.timing
  retryAttempt := by
    show min (r.link.retryAttempt + 1) maxRetryAttempt = min (failures + 1) 10
    rw [h.retryAttempt, saturate_succ]
  dialing := nofun
  reading := nofun

/-- A failure is reported and followed by a wait; its place is that of the
link's state before it. -/
theorem onFailed_acts (h : Counts url timing failures r) (why : Fault) (place : Text)
    (hplace : (if r.link.state = .opened then ("read" : Text) else "dial") = place) :
    (r.onFailed why).2.filterMap Signal.report? ++ (r.onFailed why).1.phase.entry =
      onFailure url timing failures place why := by
  simp only [onFailed, Link.failed, List.filterMap_cons, List.filterMap_nil, Signal.report?,
    Phase.entry, Link.nextDelay, Timing.delay, hplace, h.url, h.timing, h.retryAttempt,
    saturate_succ]
  rfl

/-- What a happening leads to: one that the phase does not wait for leads to
nothing. -/
inductive Turn (url : Text) (timing : Timing) (failures : Nat) (r : Run) (now : Instant)
    (h : Happening) : Prop where
  | passes : r.phase.awaits h = false → r.turn now h = [] → (r.step now h).1.phase = r.phase →
      Counts url timing failures (r.step now h).1 → Turn url timing failures r now h
  | counts : r.phase.awaits h = true → r.turn now h = beat url timing failures h →
      (r.step now h).1.phase.isWaiting = h.isFailure →
      Counts url timing (streak failures h) (r.step now h).1 → Turn url timing failures r now h

theorem turn_dialed (hc : Counts url timing failures r) (hp : r.phase = .dialing)
    (hs : r.step now .dialed = r.onDialed now) : Turn url timing failures r now .dialed := by
  obtain ⟨hcounts, hphase⟩ := onDialed_counts hc now
  refine .counts (by rw [hp]; rfl) ?_ (by rw [hs, hphase]; rfl) (by rw [hs]; exact hcounts)
  rw [turn, hs, hphase, hp, onDialed_report, hc.url]
  rfl

theorem step_turn (hc : Counts url timing failures r) (now : Instant) (h : Happening)
    (hr : h ≠ .cancelled) : Turn url timing failures r now h := by
  have hkept {next : Run} (hl : next.link = r.link) (hphase : next.phase = r.phase) :
      Counts url timing failures next := by
    refine ⟨?_, ?_, ?_, ?_, ?_⟩ <;> rw [hl]
    · exact hc.url
    · exact hc.timing
    · exact hc.retryAttempt
    · rw [hphase]
      exact hc.dialing
    · rw [hphase]
      exact hc.reading
  cases step_cases r now h with
  | dialed hp hs => exact turn_dialed hc hp hs
  | dialFailed why hp hs =>
    refine .counts (by rw [hp]; rfl) ?_ (by rw [hs]; rfl) (by rw [hs]; exact onFailed_counts hc why)
    rw [turn, hs, hp]
    exact onFailed_acts hc why "dial" (if_neg (hc.dialing hp))
  | frame bytes hp hs =>
    refine .passes (by rw [hp]; rfl) ?_ (by rw [hs]) ?_
    · rw [turn, hs, receive_report]
      exact if_pos rfl
    · rw [hs, receive_link]
      exact ⟨hc.url, hc.timing, hc.retryAttempt, hc.dialing, hc.reading⟩
  | readFailed why hp hs =>
    refine .counts (by rw [hp]; rfl) ?_ (by rw [hs]; rfl) (by rw [hs]; exact onFailed_counts hc why)
    rw [turn, hs, hp]
    exact onFailed_acts hc why "read" (if_pos (hc.reading hp))
  | waited delay hp hs =>
    refine .counts (by rw [hp]; rfl) ?_ (by rw [hs]; rfl) ?_
    · rw [turn, hs, hp]
      rfl
    · rw [hs]
      exact ⟨hc.url, hc.timing, hc.retryAttempt, nofun, nofun⟩
  | cancelled hs => exact absurd rfl hr
  | pullDue number hs =>
    obtain ⟨hl, hphase⟩ := onPullDue_link r number
    refine .passes (by cases r.phase <;> rfl) ?_ (by rw [hs, hphase])
      (by rw [hs]; exact hkept hl hphase)
    rw [turn, hs, hphase, onPullDue_report]
    exact if_pos rfl
  | pullReturned number hs =>
    refine .passes (by cases r.phase <;> rfl) ?_ (by rw [hs]; rfl) (by rw [hs]; exact hkept rfl rfl)
    rw [turn, hs]
    exact if_pos rfl
  | ignored _ ha hs =>
    exact .passes ha (by simp [turn, hs]) (by rw [hs]) (by rw [hs]; exact hc)

-- ---------------------------------------------------------------------------
-- A whole course
-- ---------------------------------------------------------------------------

theorem acts_eq_timetable (hc : Counts url timing failures r) (course : List (Instant × Happening))
    (hu : ∀ e ∈ course, e.2 ≠ .cancelled) :
    r.acts course = timetable url timing failures (r.heard course) ∧
      Counts url timing ((r.heard course).foldl streak failures) (r.meets course).1 := by
  induction course generalizing r failures with
  | nil => exact ⟨rfl, hc⟩
  | cons e rest ih =>
    obtain ⟨now, h⟩ := e
    have hrest : ∀ e ∈ rest, e.2 ≠ .cancelled := fun e he => hu e (List.mem_cons_of_mem _ he)
    rw [meets_cons]
    simp only [acts, heard]
    cases step_turn hc now h (hu _ List.mem_cons_self) with
    | passes ha hturn hphase hnext =>
      obtain ⟨hacts, hcounts⟩ := ih hnext hrest
      simp only [ha, hturn, hacts]
      exact ⟨rfl, hcounts⟩
    | counts ha hturn hphase hnext =>
      obtain ⟨hacts, hcounts⟩ := ih hnext hrest
      simp only [ha, hturn, hacts, if_true]
      exact ⟨rfl, hcounts⟩

/-- Waits and dials go together: a wait is followed by a dial, and only a
wait is. -/
def Paired (acts : List Act) : Prop := acts.IsChain fun a b => a.isWait = true ↔ b = .dial

theorem awaits_waiting {phase : Phase} (h : phase.awaits e = true) :
    phase.isWaiting = true ↔ e = .waited := by
  cases phase <;> cases e <;> simp_all [Phase.awaits, Phase.isWaiting]

/-- What a happening that the phase waits for leads to goes on from the act
before it, and leaves the run waiting exactly when it ends with a wait. -/
theorem paired_beat {phase : Phase} (ha : phase.awaits h = true)
    (hfirst : a.isWait = true ↔ phase.isWaiting = true)
    (hrest : ∀ last : Act, last.isWait = h.isFailure → Paired (last :: rest)) :
    Paired (a :: (beat url timing failures h ++ rest)) := by
  rw [awaits_waiting ha] at hfirst
  cases h with
  | dialed => exact List.isChain_cons_cons.mpr ⟨by simpa using hfirst, hrest _ rfl⟩
  | dialFailed why | readFailed why =>
    refine List.isChain_cons_cons.mpr ⟨by simpa using hfirst, ?_⟩
    refine List.isChain_cons_cons.mpr ⟨by simp [Act.isWait], ?_⟩
    exact List.isChain_cons_cons.mpr ⟨by simp [Act.isWait], hrest _ rfl⟩
  | waited => exact List.isChain_cons_cons.mpr ⟨by simpa using hfirst, hrest _ rfl⟩
  | _ => cases phase <;> cases ha

theorem acts_paired (hc : Counts url timing failures r) (course : List (Instant × Happening))
    (hu : ∀ e ∈ course, e.2 ≠ .cancelled) (a : Act)
    (hfirst : a.isWait = true ↔ r.phase.isWaiting = true) : Paired (a :: r.acts course) := by
  induction course generalizing r failures a with
  | nil => exact List.isChain_singleton a
  | cons e rest ih =>
    obtain ⟨now, h⟩ := e
    have hrest : ∀ e ∈ rest, e.2 ≠ .cancelled := fun e he => hu e (List.mem_cons_of_mem _ he)
    simp only [acts]
    cases step_turn hc now h (hu _ List.mem_cons_self) with
    | passes ha hturn hphase hnext =>
      rw [hturn]
      exact ih hnext hrest a (by rw [hphase]; exact hfirst)
    | counts ha hturn hphase hnext =>
      rw [hturn]
      exact paired_beat ha hfirst fun last hlast =>
        ih hnext hrest last (by rw [hlast, hphase])

theorem step_retryAttempt (r : Run) (now : Instant) (h : Happening)
    (hr : r.link.retryAttempt ≤ 10) : (r.step now h).1.link.retryAttempt ≤ 10 := by
  cases step_cases r now h with
  | dialed hp hs =>
    rw [hs]
    by_cases hh : r.handler = .reconciling
    · rw [onDialed_reconciling hh]
      exact Nat.zero_le 10
    · rw [onDialed_plain hh]
      exact Nat.zero_le 10
  | dialFailed why hp hs =>
    rw [hs]
    exact Nat.min_le_right _ _
  | frame bytes hp hs =>
    rw [hs, receive_link]
    exact hr
  | readFailed why hp hs =>
    rw [hs]
    exact Nat.min_le_right _ _
  | waited delay hp hs =>
    rw [hs]
    exact hr
  | cancelled hs =>
    rw [hs]
    unfold onCancelled
    split <;> exact hr
  | pullDue number hs =>
    rw [hs, (onPullDue_link r number).1]
    exact hr
  | pullReturned number hs =>
    rw [hs]
    exact hr
  | ignored hc ha hs =>
    rw [hs]
    exact hr

/-- A run from its start on, whatever happens to it. Its retry counter never
leaves `0..10`. Until it is cancelled, it acts as the timetable says for the
happenings it waits for, and after the dial it starts with, every dial
follows exactly one wait. -/
theorem reconnect_schedule (url : Text) (timing : Timing) (handler : Handler)
    (course : List (Instant × Happening)) :
    ((start (Link.new url timing) handler false).meets course).1.link.retryAttempt ≤ 10 ∧
    ((∀ e ∈ course, e.2 ≠ .cancelled) →
      (start (Link.new url timing) handler false).acts course =
        timetable url timing.effective 0
          ((start (Link.new url timing) handler false).heard course) ∧
      Paired (.dial :: (start (Link.new url timing) handler false).acts course) ∧
      ((start (Link.new url timing) handler false).meets course).1.link.retryAttempt =
        min (((start (Link.new url timing) handler false).heard course).foldl streak 0) 10) := by
  have hstart : Counts url timing.effective 0 (start (Link.new url timing) handler false) :=
    ⟨rfl, rfl, rfl, nofun, nofun⟩
  refine ⟨meets_keeps step_retryAttempt course _ (Nat.zero_le 10), fun hu => ?_⟩
  obtain ⟨hacts, hcounts⟩ := acts_eq_timetable hstart course hu
  exact ⟨hacts, acts_paired hstart course hu .dial (by simp [Act.isWait, Phase.isWaiting, start]),
    hcounts.retryAttempt⟩

/-- Two dials fail, the third opens a link that brings a frame and is lost. -/
def lostLink : List (Instant × Happening) := [
  (0, .dialFailed .socket), (1, .waited), (2, .dialFailed .socket), (3, .waited), (4, .dialed),
  (5, .frame "no frame"), (6, .readFailed .socket), (7, .waited)]

theorem acts_lostLink :
    (start (Link.new "ws://gw/ws" {}) .plain false).acts lostLink = [
      .report (.clientError (some .socket) "dial" .warning),
      .report (.connection "ws://gw/ws" false 1), .wait Duration.second, .dial,
      .report (.clientError (some .socket) "dial" .warning),
      .report (.connection "ws://gw/ws" false 2), .wait (2 * Duration.second), .dial,
      .report (.connection "ws://gw/ws" true 0),
      .report (.clientError (some .socket) "read" .warning),
      .report (.connection "ws://gw/ws" false 1), .wait Duration.second, .dial] := by
  rw [((reconnect_schedule "ws://gw/ws" {} .plain lostLink).2 (by decide)).1]
  decide +kernel

end Run

end MeshConsole.Push
