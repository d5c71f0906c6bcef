import Mathlib.Data.List.Induction
import MeshConsole.Status.Report

/-!
# When the status is printed

A printer compares each snapshot with the one it was shown before, whether that
one was printed or not. `printed_after` says which snapshots it prints, and that
among those that agree in what it does not compare (`KeepsRest`) it misses no
change of the report but the rate and the age.
-/

namespace MeshConsole.Status

open Telemetry (Snapshot)

/-- A printer that was shown these snapshots, the first one first. -/
def Printer.after (seen : List Snapshot) : Printer :=
  seen.foldl (fun p s => (p.show s).2) {}

/-- What is printed for a snapshot that follows others. -/
def printed (seen : List Snapshot) (now : Snapshot) : List Text :=
  ((Printer.after seen).show now).1

/-- The report without the rate and the age, which time alone moves. -/
def lastingLines (s : Snapshot) : List Text :=
  lines { s with
    messagesPerSecond := Binary64.zero false
    links := { s.links with ageSeconds := 0 } }

theorem last_after (seen : List Snapshot) : (Printer.after seen).last = seen.getLast? := by
  induction seen using List.reverseRecOn with
  | nil => rfl
  | append_singleton front last ih => simp [Printer.after, List.foldl_append, Printer.show]

-- ---------------------------------------------------------------------------
-- Two snapshots
-- ---------------------------------------------------------------------------

/-- Nothing that the printer compares tells the two apart. -/
structure Unnoticed (last now : Snapshot) : Prop where
  received : now.messagesReceived = last.messagesReceived
  dropped : now.messagesDropped = last.messagesDropped
  errors : now.errorsTotal ≤ last.errorsTotal
  connected : now.connected = last.connected
  attempt : now.retryAttempt = last.retryAttempt
  devices : now.deviceCount = last.deviceCount
  stale : now.links.stale = last.links.stale
  jobs : now.activeJobs.length = last.activeJobs.length

theorem isNotable_eq_false_iff : isNotable last now = false ↔ Unnoticed last now := by
  simp only [isNotable, Bool.or_eq_false_iff, decide_eq_false_iff_not, not_not, UInt64.not_lt]
  constructor
  · rintro ⟨⟨⟨⟨⟨⟨⟨hreceived, hdropped⟩, herrors⟩, hconnected⟩, hattempt⟩, hdevices⟩, hstale⟩, hjobs⟩
    exact ⟨hreceived, hdropped, herrors, hconnected, hattempt, hdevices, hstale, hjobs⟩
  · rintro ⟨hreceived, hdropped, herrors, hconnected, hattempt, hdevices, hstale, hjobs⟩
    exact ⟨⟨⟨⟨⟨⟨⟨hreceived, hdropped⟩, herrors⟩, hconnected⟩, hattempt⟩, hdevices⟩, hstale⟩, hjobs⟩

theorem Unnoticed.refl (s : Snapshot) : Unnoticed s s :=
  ⟨rfl, rfl, UInt64.le_refl _, rfl, rfl, rfl, rfl, rfl⟩

/-- The two agree in what the report shows and the printer does not compare. -/
structure KeepsRest (last now : Snapshot) : Prop where
  errors : last.errorsTotal ≤ now.errorsTotal
  reconnects : now.connected = true → now.reconnects = last.reconnects
  lastSeq : now.connected = true → now.lastSeq = last.lastSeq
  panId : now.panId = last.panId
  channel : now.channel = last.channel
  kinds : rankedKinds now.messagesByKind = rankedKinds last.messagesByKind
  hasBatch : now.links.hasBatch = last.links.hasBatch
  neighbors : now.links.rows.length = last.links.rows.length
  source : now.links.batch.source = last.links.batch.source
  hints : now.links.hints = last.links.hints
  jobs : now.activeJobs.map jobLine = last.activeJobs.map jobLine
  lastError : now.recentErrors.head? = last.recentErrors.head?

theorem errorLines_eq (s : Snapshot) :
    errorLines s = s.recentErrors.head?.toList.map (("Last error - " : Text) ++ ·) := by
  cases h : s.recentErrors <;> simp [errorLines, h]

theorem lastingLines_congr (hsame : Unnoticed last now) (hrest : KeepsRest last now) :
    lastingLines now = lastingLines last := by
  have herrors : now.errorsTotal = last.errorsTotal := UInt64.le_antisymm hsame.errors hrest.errors
  have hconnection : connectionLine now = connectionLine last := by
    cases hconnected : now.connected with
    | true =>
      simp [connectionLine, hconnected, ← hsame.connected, hrest.reconnects hconnected,
        hrest.lastSeq hconnected]
    | false => simp [connectionLine, hconnected, ← hsame.connected, hsame.attempt]
  have hgateway : gatewayLines now = gatewayLines last := by
    simp [gatewayLines, hrest.panId, hrest.channel, hsame.devices]
  have hkinds : kindLines now = kindLines last := by
    simp [kindLines, hrest.kinds]
  have hlinks : linkLines { now.links with ageSeconds := 0 } =
      linkLines { last.links with ageSeconds := 0 } := by
    simp [linkLines, hrest.hasBatch, hrest.neighbors, hrest.source, hrest.hints, hsame.stale]
  have hlast : errorLines now = errorLines last := by
    simp [errorLines_eq, hrest.lastError]
  have hmessages : messagesLine { now with messagesPerSecond := Binary64.zero false } =
      messagesLine { last with messagesPerSecond := Binary64.zero false } := by
    simp [messagesLine, hsame.received, hsame.dropped, herrors]
  calc lastingLines now
      = messagesLine { now with messagesPerSecond := Binary64.zero false } ::
          connectionLine now :: gatewayLines now ++ kindLines now ++
          linkLines { now.links with ageSeconds := 0 } ++ now.activeJobs.map jobLine ++
          errorLines now := rfl
    _ = messagesLine { last with messagesPerSecond := Binary64.zero false } ::
          connectionLine last :: gatewayLines last ++ kindLines last ++
          linkLines { last.links with ageSeconds := 0 } ++ last.activeJobs.map jobLine ++
          errorLines last := by
        rw [hmessages, hconnection, hgateway, hkinds, hlinks, hrest.jobs, hlast]
    _ = lastingLines last := rfl

-- ---------------------------------------------------------------------------
-- A run of snapshots
-- ---------------------------------------------------------------------------

theorem printed_first (now : Snapshot) : printed [] now = lines now := rfl

theorem printed_of_last (h : seen.getLast? = some last) (now : Snapshot) :
    printed seen now = if isNotable last now then lines now else [] := by
  rw [printed, Printer.show, last_after, h]

/-- The first snapshot is printed, and a later one unless nothing compared tells
it from the one before. So an unchanged snapshot is not printed, and one whose
lasting lines are new is, if it keeps what is not compared. -/
theorem printed_after (seen : List Snapshot) (now : Snapshot) :
    (seen = [] → printed seen now = lines now) ∧
    ∀ last, seen.getLast? = some last →
      (Unnoticed last now → printed seen now = []) ∧
      (¬ Unnoticed last now → printed seen now = lines now) ∧
      (now = last → printed seen now = []) ∧
      (KeepsRest last now → lastingLines now ≠ lastingLines last →
        printed seen now = lines now) := by
  refine ⟨fun hfirst => hfirst ▸ printed_first now, fun last hlast => ?_⟩
  have hsilent (hsame : Unnoticed last now) : printed seen now = [] := by
    rw [printed_of_last hlast, isNotable_eq_false_iff.mpr hsame]
    rfl
  have hshown (hnew : ¬ Unnoticed last now) : printed seen now = lines now := by
    rw [← isNotable_eq_false_iff, Bool.not_eq_false] at hnew
    rw [printed_of_last hlast, if_pos hnew]
  refine ⟨hsilent, hshown, ?_, ?_⟩
  · rintro rfl
    exact hsilent (.refl now)
  · exact fun hrest hnew => hshown fun hsame => hnew (lastingLines_congr hsame hrest)

/-- A console with a link and a queued scan, before any table of neighbours is
weak. -/
def calm : Snapshot :=
  { connected := true, panId := 0x1234, channel := 15
    links := { rows := [{}, {}], batch := { source := "mgmt_lqi" }, hasBatch := true }
    activeJobs := [{ id := 7, label := "Wi-Fi scan", state := "queued" }] }

/-- A table with a third neighbour has been read, whose link is weak. -/
def crowded : Snapshot :=
  { calm with
    links := { calm.links with
      rows := [{}, {}, {}], hints := [{ kind := .weakLink, addr := 0x1003, name := "Lamp" }] } }

/-- The gateway runs the scan. -/
def scanning : Snapshot :=
  { crowded with activeJobs := [{ id := 7, label := "Wi-Fi scan", state := "running" }] }

/-- The link was lost and came back. -/
def reopened : Snapshot := { scanning with reconnects := 1 }

/-- None of the three changes is printed. -/
theorem changes_unnoticed :
    printed [calm] crowded = [] ∧ lastingLines crowded ≠ lastingLines calm ∧
      printed [calm, crowded] scanning = [] ∧ lastingLines scanning ≠ lastingLines crowded ∧
      printed [calm, crowded, scanning] reopened = [] ∧
      lastingLines reopened ≠ lastingLines scanning := by
  decide +kernel

end MeshConsole.Status
