import MeshConsole.Proofs.Push.Accounting
import MeshConsole.Proofs.Push.Standing

/-!
# Counting reconnects

A board counts an open as a reconnect when the status before it reported a
loss after at least one failure. A dial that fails before the first open is
reported in just that way, so the first open may count as well
(`first_open_counted`). `reconnects_counted`: the count is that of the opens
but the first, unless a dial failed before the first one; then it is that of
all opens.
-/

namespace MeshConsole

namespace Telemetry

/-- How often statuses that follow `before` are counted as a reconnect. -/
def reconnectsAfter : Bool × Int → List (Bool × Int) → Nat
  | _, [] => 0
  | before, status :: rest =>
    (if status.1 = true ∧ before.1 = false ∧ 0 < before.2 then 1 else 0) +
      reconnectsAfter status rest

theorem reconnectsAfter_append (before : Bool × Int) (told more : List (Bool × Int)) :
    reconnectsAfter before (told ++ more) =
      reconnectsAfter before told + reconnectsAfter (told.getLastD before) more := by
  induction told generalizing before with
  | nil => simp [reconnectsAfter]
  | cons status rest ih =>
    rw [List.cons_append, reconnectsAfter, reconnectsAfter, ih, List.getLastD_cons, Nat.add_assoc]

/-- What a board knows of the connection. -/
def Board.status (b : Board) : Bool × Int := (b.connected, b.retryAttempt)

theorem fold_connection (b : Board) (now : Instant) (url : Text) (connected : Bool)
    (attempt : Int) :
    (b.fold now (.connection url connected attempt)).reconnects =
      b.reconnects + UInt64.ofNat (reconnectsAfter b.status [(connected, attempt)]) := by
  by_cases hagain : connected = true ∧ b.connected = false ∧ 0 < b.retryAttempt
  · obtain ⟨rfl, hlost, hfailed⟩ := hagain
    simp [Board.fold, reconnectsAfter, Board.status, hlost, hfailed]
  · have hnot : (connected && !b.connected && decide (0 < b.retryAttempt)) = false := by
      simpa [and_assoc] using hagain
    simp [Board.fold, reconnectsAfter, Board.status, hnot, hagain]

/-- Events that do not tell of the connection change nothing here. -/
theorem fold_other (b : Board) (now : Instant) (h : Event.status? event = none) :
    (b.fold now event).reconnects = b.reconnects ∧ (b.fold now event).status = b.status := by
  cases event with
  | connection => cases h
  | job change =>
    obtain ⟨_, _, _, hframe⟩ := b.fold_job now change
    rw [hframe]
    exact ⟨rfl, rfl⟩
  | _ => exact ⟨rfl, rfl⟩

theorem after_reconnects (b : Board) (events : List (Instant × Event)) :
    (b.after events).reconnects = b.reconnects +
      UInt64.ofNat (reconnectsAfter b.status ((events.map Prod.snd).filterMap Event.status?)) := by
  induction events generalizing b with
  | nil => simp [Board.after, reconnectsAfter]
  | cons e rest ih =>
    obtain ⟨now, event⟩ := e
    show ((b.fold now event).after rest).reconnects = _
    rw [ih, List.map_cons, List.filterMap_cons]
    cases hs : event.status? with
    | none => rw [(fold_other b now hs).1, (fold_other b now hs).2]
    | some status =>
      cases event with
      | connection url connected attempt =>
        cases hs
        show _ = b.reconnects + UInt64.ofNat (reconnectsAfter b.status ([(connected, attempt)] ++ _))
        rw [fold_connection, reconnectsAfter_append, UInt64.ofNat_add, UInt64.add_assoc]
        rfl
      | _ => cases hs

end Telemetry

namespace Push

open Telemetry (Event Board reconnectsAfter reconnectsAfter_append)

namespace Run

-- ---------------------------------------------------------------------------
-- One step
-- ---------------------------------------------------------------------------

/-- The latest status is that of the run: it reads exactly while the
connection is there, and the failures in a row are those of its link as long
as it goes on to dial. -/
structure Tells (status : Bool × Int) (r : Run) : Prop where
  connected : status.1 = (r.phase == .reading)
  attempt : r.phase = .dialing ∨ r.phase.isWaiting = true → status.2 = r.link.retryAttempt

theorem Shift.tells (hs : Shift r next h told closed) (ht : Tells status r) :
    Tells (told.getLastD status) next := by
  cases hs with
  | keeps hphase _ hretry =>
    refine ⟨?_, ?_⟩
    · rw [hphase]
      exact ht.connected
    · rw [hphase, hretry]
      exact ht.attempt
  | opens _ hphase =>
    refine ⟨by rw [hphase]; rfl, ?_⟩
    rw [hphase]
    simp [Phase.isWaiting]
  | dialFails _ _ hnext | readFails _ _ hnext => exact ⟨by rw [hnext]; rfl, fun _ => rfl⟩
  | redials hp hnext =>
    refine ⟨?_, fun _ => ?_⟩
    · rw [hnext]
      exact ht.connected.trans (by rw [hp]; rfl)
    · rw [hnext]
      exact ht.attempt (.inr (by rw [hp]; rfl))
  | stopsDialing _ hnext | stopsReading _ hnext =>
    refine ⟨by rw [hnext]; rfl, ?_⟩
    rw [hnext]
    simp [ended, callOff, Phase.isWaiting]
  | stopsWaiting hp hnext =>
    refine ⟨?_, ?_⟩
    · rw [hnext]
      exact ht.connected.trans (by rw [hp]; rfl)
    · rw [hnext]
      simp [ended, callOff, Phase.isWaiting]

/-- A run that has failed or opened before has failed since it was last
open whenever it dials. -/
def Seasoned (r : Run) : Prop :=
  r.phase = .dialing ∨ r.phase.isWaiting = true → 0 < r.link.retryAttempt

theorem seasoned_onFailed (r : Run) (why : Fault) : (r.onFailed why).1.Seasoned := by
  intro _
  show 0 < min (r.link.retryAttempt + 1) maxRetryAttempt
  exact Nat.lt_min.mpr ⟨Nat.succ_pos _, by decide⟩

theorem Shift.seasoned (hs : Shift r next h told closed) (hr : r.Seasoned) : next.Seasoned := by
  cases hs with
  | keeps hphase _ hretry =>
    rw [Seasoned, hphase, hretry]
    exact hr
  | opens _ hphase =>
    rw [Seasoned, hphase]
    simp [Phase.isWaiting]
  | dialFails why _ hnext | readFails why _ hnext =>
    rw [hnext]
    exact seasoned_onFailed r why
  | redials hp hnext =>
    rw [hnext]
    exact fun _ => hr (.inr (by rw [hp]; rfl))
  | stopsDialing _ hnext | stopsReading _ hnext | stopsWaiting _ hnext =>
    rw [hnext, Seasoned]
    simp [ended, callOff, Phase.isWaiting]

theorem Shift.reconnects (hs : Shift r next h told closed) (ht : Tells status r)
    (hr : r.Seasoned) : reconnectsAfter status told = r.opensAt h := by
  cases hs with
  | keeps _ _ _ hawaits => simp [reconnectsAfter, opensAt, hawaits]
  | opens hp hphase =>
    have hconnected : status.1 = false := ht.connected.trans (by rw [hp]; rfl)
    have hattempt : 0 < status.2 := by
      rw [ht.attempt (.inl hp)]
      exact Int.natCast_pos.mpr (hr (.inl hp))
    simp [reconnectsAfter, opensAt, hp, hconnected, hattempt, Phase.awaits]
  | dialFails _ hp | readFails _ hp | redials hp | stopsDialing hp | stopsReading hp
  | stopsWaiting hp => simp [reconnectsAfter, opensAt, hp, Phase.awaits]

-- ---------------------------------------------------------------------------
-- A whole course
-- ---------------------------------------------------------------------------

theorem statuses_meets_cons (r : Run) (now : Instant) (h : Happening)
    (rest : List (Instant × Happening)) :
    statuses ((r.meets ((now, h) :: rest)).2.map Prod.snd) =
      statuses (r.step now h).2 ++ statuses (((r.step now h).1.meets rest).2.map Prod.snd) := by
  have hstamped : ((r.step now h).2.map (now, ·)).map Prod.snd = (r.step now h).2 := by
    simp [Function.comp_def]
  rw [meets_cons, List.map_append, hstamped, statuses_append]

/-- Every open of a run that has failed or opened before is counted. -/
theorem reconnects_seasoned (ht : Tells status r) (hr : r.Seasoned)
    (course : List (Instant × Happening)) :
    reconnectsAfter status (statuses ((r.meets course).2.map Prod.snd)) = r.opens course := by
  induction course generalizing r status with
  | nil => rfl
  | cons e rest ih =>
    obtain ⟨now, h⟩ := e
    have hs := step_shift r now h
    rw [statuses_meets_cons, reconnectsAfter_append, hs.reconnects ht hr, opens_cons,
      ih (hs.tells ht) (hs.seasoned hr)]

/-- No dial failed before the first open. -/
def opensFirst (r : Run) (course : List (Instant × Happening)) : Bool :=
  (r.heard course).head? == some .dialed

theorem opensFirst_cons (r : Run) (now : Instant) (h : Happening)
    (rest : List (Instant × Happening)) :
    r.opensFirst ((now, h) :: rest) =
      if r.phase.awaits h = true then h == .dialed else (r.step now h).1.opensFirst rest := by
  simp only [opensFirst, heard]
  split
  · rfl
  · rfl

/-- Of a run that has neither failed nor opened before, the first open is
left out if nothing came before it. -/
theorem reconnects_fresh (hp : r.phase = .dialing) (hretry : r.link.retryAttempt = 0)
    (ht : Tells status r) (course : List (Instant × Happening)) :
    reconnectsAfter status (statuses ((r.meets course).2.map Prod.snd)) +
      (if r.opensFirst course = true then 1 else 0) = r.opens course := by
  induction course generalizing r status with
  | nil => rfl
  | cons e rest ih =>
    obtain ⟨now, h⟩ := e
    have hs := step_shift r now h
    have htells := hs.tells ht
    rw [statuses_meets_cons, reconnectsAfter_append, opens_cons, opensFirst_cons]
    have hcounted (hseasoned : (r.step now h).1.Seasoned) :=
      reconnects_seasoned htells hseasoned rest
    generalize (r.step now h).1 = next at *
    generalize statuses (r.step now h).2 = told at *
    generalize closings (r.step now h).2 = closed at *
    cases hs with
    | keeps hphase _ hsame hawaits =>
      have hrest := ih (hphase.trans hp) (hsame.trans hretry) htells
      simpa [opensAt, hawaits, reconnectsAfter] using hrest
    | opens _ hphase =>
      have hattempt : status.2 = 0 := by rw [ht.attempt (.inl hp), hretry]; rfl
      rw [hcounted (by rw [Seasoned, hphase]; simp [Phase.isWaiting])]
      simp [opensAt, hp, Phase.awaits, reconnectsAfter, hattempt, Nat.add_comm]
    | dialFails why _ hfailed =>
      rw [hcounted (hfailed ▸ seasoned_onFailed r why)]
      simp [opensAt, hp, Phase.awaits, reconnectsAfter]
    | stopsDialing _ hended =>
      have hover : next.Over := hended ▸ over_ended r
      rw [hcounted (by rw [hended, Seasoned]; simp [ended, callOff, Phase.isWaiting])]
      simp [opensAt, hp, Phase.awaits, reconnectsAfter, opensFirst, hover.heard rest]
    | readFails _ hother | redials hother | stopsReading hother | stopsWaiting hother =>
      cases hp.symm.trans hother

theorem reconnects_start (url : Text) (timing : Timing) (handler : Handler) (cancelled : Bool)
    (course : List (Instant × Happening)) :
    reconnectsAfter (false, 0)
        (statuses (((start (Link.new url timing) handler cancelled).meets course).2.map Prod.snd)) +
      (if (start (Link.new url timing) handler cancelled).opensFirst course = true then 1 else 0) =
      (start (Link.new url timing) handler cancelled).opens course := by
  cases cancelled with
  | false => exact reconnects_fresh rfl rfl ⟨rfl, fun _ => rfl⟩ course
  | true =>
    have hover : (start (Link.new url timing) handler true).Over := ⟨rfl, nofun⟩
    have hseasoned : (start (Link.new url timing) handler true).Seasoned := by
      simp [Seasoned, start, Phase.isWaiting]
    rw [reconnects_seasoned ⟨rfl, by simp [start, Phase.isWaiting]⟩ hseasoned]
    simp [opensFirst, hover.heard course]

end Run

/-- What a board shows of any run, whatever else is published in between: the
opens after the first one, except that the first one counts too when a dial
failed before it. -/
theorem reconnects_counted (url : Text) (timing : Timing) (handler : Handler) (cancelled : Bool)
    (course : List (Instant × Happening)) (first : Run)
    (hfirst : first = Run.start (Link.new url timing) handler cancelled)
    (settings : Telemetry.Settings) (started : Instant) (events : List (Instant × Event))
    (hevents : (events.map Prod.snd).filterMap Event.status? =
      statuses ((first.meets course).2.map Prod.snd)) (waiting : Nat) (now : Instant) :
    (((Board.new settings started).after events).snapshot waiting now).reconnects =
        UInt64.ofNat (if first.opensFirst course then first.opens course - 1
          else first.opens course) ∧
    ((((Board.new settings started).after events).snapshot waiting now).reconnects =
        UInt64.ofNat (first.opens course - 1) ↔
      (0 < first.opens course → first.opensFirst course)) := by
  subst hfirst
  have hcount := Run.reconnects_start url timing handler cancelled course
  generalize Run.start (Link.new url timing) handler cancelled = first at hevents hcount ⊢
  have hshown : (((Board.new settings started).after events).snapshot waiting now).reconnects =
      UInt64.ofNat (if first.opensFirst course then first.opens course - 1
        else first.opens course) := by
    show ((Board.new settings started).after events).reconnects = _
    rw [Telemetry.after_reconnects, hevents]
    show 0 + UInt64.ofNat (reconnectsAfter (false, 0) _) = _
    rw [UInt64.zero_add]
    congr 1
    split at hcount
    · rw [if_pos ‹_›, ← hcount, Nat.add_sub_cancel]
    · rw [if_neg ‹_›, ← hcount, Nat.add_zero]
  refine ⟨hshown, ?_⟩
  rw [hshown]
  cases first.opensFirst course with
  | true => simp
  | false =>
    cases first.opens course with
    | zero => simp
    | succ n => simp

/-- The first dial opens, the link is lost, and the second dial opens it
again. -/
def lostOnce : List (Instant × Happening) := [
  (0, .dialed), (10, .readFailed .socket), (11, .waited), (12, .dialed)]

def lostOnceEvents : List (Instant × Event) := [
  (0, .connection "ws://gw/ws" true 0),
  (10, .clientError (some .socket) "read" .warning),
  (10, .connection "ws://gw/ws" false 1),
  (12, .connection "ws://gw/ws" true 0)]

theorem reconnects_lostOnce :
    (lostOnceEvents.map Prod.snd).filterMap Event.status? = statuses
      (((Run.start (Link.new "ws://gw/ws" {}) .plain false).meets lostOnce).2.map Prod.snd) ∧
    (((Board.new {} 0).after lostOnceEvents).snapshot 0 20).reconnects = 1 := by
  have hevents : (lostOnceEvents.map Prod.snd).filterMap Event.status? = statuses
      (((Run.start (Link.new "ws://gw/ws" {}) .plain false).meets lostOnce).2.map Prod.snd) := by
    decide
  exact ⟨hevents, (reconnects_counted "ws://gw/ws" {} .plain false lostOnce _ rfl {} 0
    lostOnceEvents hevents 0 20).2.mpr fun _ => by decide⟩

/-- The first dial fails and the second one opens the link for the first
time. -/
def refusedOnce : List (Instant × Happening) := [
  (0, .dialFailed (.other "refused")), (1, .waited), (2, .dialed)]

def refusedOnceEvents : List (Instant × Event) := [
  (0, .clientError (some (.other "refused")) "dial" .warning),
  (0, .connection "ws://gw/ws" false 1),
  (2, .connection "ws://gw/ws" true 0)]

/-- One open, and it is counted as a reconnect. -/
theorem first_open_counted :
    (refusedOnceEvents.map Prod.snd).filterMap Event.status? = statuses
      (((Run.start (Link.new "ws://gw/ws" {}) .plain false).meets refusedOnce).2.map Prod.snd) ∧
    (Run.start (Link.new "ws://gw/ws" {}) .plain false).opens refusedOnce = 1 ∧
    (((Board.new {} 0).after refusedOnceEvents).snapshot 0 20).reconnects = 1 := by
  refine ⟨?_, ?_, ?_⟩ <;> decide

end Push

end MeshConsole
