import MeshConsole.Status.Figures
import MeshConsole.Telemetry.Board

/-!
# The status report

A snapshot as lines of text, the printer that shows a snapshot only when something of note has
changed since the one before, and the watch that has it show one again and again.
-/

namespace MeshConsole.Status

open Telemetry (Snapshot)

def natText (n : UInt64) : Text := Text.ofNat n.toNat

def messagesLine (s : Snapshot) : Text :=
  ("Status - Messages: received=" : Text) ++ grouped s.messagesReceived ++
  ", dropped=" ++ natText s.messagesDropped ++ ", rate=" ++ s.messagesPerSecond.toFixed 1 ++
  "/s, errors=" ++ natText s.errorsTotal

def connectionLine (s : Snapshot) : Text :=
  if s.connected then
    ("Connection - up, reconnects=" : Text) ++ natText s.reconnects ++
    ", last seq=" ++ natText s.lastSeq
  else ("Connection - down, retry attempt " : Text) ++ Text.ofInt s.retryAttempt

/-- Shown once the gateway's network or a device is known. -/
def gatewayLines (s : Snapshot) : List Text :=
  if s.panId ≠ 0 ∨ 0 < s.deviceCount then
    [("Gateway - PAN " : Text) ++ formatShortAddr s.panId ++
      ", channel " ++ Text.ofInt s.channel.toInt ++ ", devices=" ++ Text.ofInt s.deviceCount]
  else []

def kindLines (s : Snapshot) : List Text :=
  match rankedKinds s.messagesByKind with
  | [] => []
  | kinds =>
    let parts := kinds.map fun (kind, count) => kind ++ "=" ++ natText count
    [("Messages by kind - " : Text) ++ Text.join ", " parts]

def hintLine (h : Radio.Hint) : Text :=
  if 0 < h.count then
    ("  hint: " : Text) ++ h.kind.name ++ " (" ++ Text.ofInt h.count ++ " neighbors)"
  else ("  hint: " : Text) ++ h.kind.name ++ " " ++ formatShortAddr h.addr ++ " " ++ h.name

def linkLines (v : Radio.View) : List Text :=
  if v.hasBatch then
    let state : Text := if v.stale then "stale" else "fresh"
    (("Link quality - " : Text) ++ Text.ofNat v.rows.length ++ " neighbors, source " ++
      v.batch.source ++ ", updated " ++ ageText v.ageSeconds ++ " ago (" ++ state ++ ")") ::
    v.hints.map hintLine
  else []

def jobLine (j : Telemetry.JobChange) : Text :=
  ("Job - " : Text) ++ j.label ++ " (job " ++ Text.ofInt j.id.toInt ++ "): " ++ j.state

def errorLines (s : Snapshot) : List Text :=
  match s.recentErrors with
  | [] => []
  | newest :: _ => [("Last error - " : Text) ++ newest]

def lines (s : Snapshot) : List Text :=
  messagesLine s :: connectionLine s :: gatewayLines s ++ kindLines s ++ linkLines s.links ++
  s.activeJobs.map jobLine ++ errorLines s

/-- The changes that are worth printing. -/
def isNotable (last now : Snapshot) : Bool :=
  now.messagesReceived ≠ last.messagesReceived || now.messagesDropped ≠ last.messagesDropped ||
  last.errorsTotal < now.errorsTotal ||
  now.connected ≠ last.connected || now.retryAttempt ≠ last.retryAttempt ||
  now.deviceCount ≠ last.deviceCount || now.links.stale ≠ last.links.stale ||
  now.activeJobs.length ≠ last.activeJobs.length

/-- The printer remembers the last snapshot it was shown. -/
structure Printer where
  last : Option Snapshot := none
  deriving Repr, DecidableEq

/-- The lines printed for a snapshot: the first is always shown, a later one when it differs from
the one before in something of note. -/
def Printer.show (p : Printer) (s : Snapshot) : List Text × Printer :=
  let shown :=
    match p.last with
    | none => true
    | some last => isNotable last s
  (if shown then lines s else [], { last := some s })

/-- A log entry as the lines it fills: one line end at its end is its own. -/
def logLines (entry : Text) : List Text :=
  let body :=
    match entry.reverse with
    | Ascii.newline :: rest => rest.reverse
    | _ => entry
  Text.splitOnByte Ascii.newline body

/-- What a watch is about. -/
structure Watch where
  gateway : Text
  configFile : Text := []
  backoffBase : Duration := 0
  backoffCap : Duration := 0
  interval : Duration
  deriving Repr, DecidableEq

namespace Watch

/-- An interval that is not positive takes its default of ten seconds. -/
def effectiveInterval (w : Watch) : Duration :=
  if w.interval ≤ 0 then 10 * Duration.second else w.interval

def openingLines (w : Watch) : List Text :=
  let file := if w.configFile.isEmpty then [] else [("Config file: " : Text) ++ w.configFile]
  ("Starting gwdash in quiet mode" : Text) :: (("Gateway: " : Text) ++ w.gateway) :: file ++
  [("Reconnect backoff: " : Text) ++ w.backoffBase.text ++ " to " ++ w.backoffCap.text]

def closingLine : Text := "Shutting down..."

end Watch

end MeshConsole.Status
