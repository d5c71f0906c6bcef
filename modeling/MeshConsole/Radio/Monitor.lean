import MeshConsole.Gateway.LinkTable
import MeshConsole.Instant
import MeshConsole.Radio.Quality
import MeshConsole.Table

/-!
# Monitoring link quality

The monitor keeps the latest batch of neighbours, a bounded history of scores for each address, and
the instant at which the gateway's uptime counter last moved. Trends are read from the history,
staleness from that instant.
-/

namespace MeshConsole.Radio

structure Settings where
  historyWindow : Duration := 15 * Duration.minute
  staleThreshold : Duration := 60 * Duration.second
  maxHints : Int := 4
  deriving Repr, DecidableEq

/-- A setting that is not positive takes its default. -/
def Settings.effective (s : Settings) : Settings :=
  let standard : Settings := {}
  { historyWindow := if s.historyWindow ≤ 0 then standard.historyWindow else s.historyWindow
    staleThreshold := if s.staleThreshold ≤ 0 then standard.staleThreshold else s.staleThreshold
    maxHints := if s.maxHints ≤ 0 then standard.maxHints else s.maxHints }

/-- One scored observation of a neighbour. -/
structure Point where
  seen : Instant
  score : Nat
  deriving Repr, DecidableEq

structure Monitor where
  settings : Settings
  history : Table UInt16 (List Point) := []
  rows : List Neighbor := []
  batch : Option BatchMeta := none
  /-- When the device counter last changed. -/
  anchor : Instant := 0
  deriving Repr, DecidableEq

inductive Trend where
  | notApplicable
  | improving
  | degrading
  | stable
  deriving Repr, DecidableEq

def Trend.name : Trend → Text
  | .notApplicable => "not_applicable"
  | .improving => "improving"
  | .degrading => "degrading"
  | .stable => "stable"

/-- Drops the points before `cutoff` at the start of a history. -/
def trimBefore (cutoff : Instant) (points : List Point) : List Point :=
  points.dropWhile fun p => p.seen < cutoff

namespace Monitor

def new (settings : Settings) : Monitor := { settings := settings.effective }

def points (m : Monitor) (addr : UInt16) : List Point := (m.history.get? addr).getD []

def tracked (m : Monitor) : Nat := m.history.length

/-- Adds the observation of one row. Address zero belongs to no neighbour. -/
def observe (cutoff now : Instant) (history : Table UInt16 (List Point)) (row : Neighbor) :
    Table UInt16 (List Point) :=
  if row.addr = 0 then history
  else
    let point : Point := { seen := now, score := (Quality.ofLabel row.quality).score }
    history.set row.addr (trimBefore cutoff ((history.get? row.addr).getD [] ++ [point]))

/-- Ages the addresses that a batch leaves out and forgets those with no point left. -/
def ageOut (cutoff : Instant) (seen : List UInt16) (history : Table UInt16 (List Point)) :
    Table UInt16 (List Point) :=
  history.filterMap fun (addr, points) =>
    if seen.contains addr then some (addr, points)
    else
      match trimBefore cutoff points with
      | [] => none
      | kept => some (addr, kept)

/-- Takes a batch's description. The anchor moves on the first one and whenever the device counter
differs from the one before. -/
def describe (m : Monitor) (batch : BatchMeta) (now : Instant) : Monitor :=
  let moved :=
    match m.batch with
    | none => true
    | some old => batch.updatedMs != old.updatedMs
  { m with batch := some batch, anchor := if moved then now else m.anchor }

/-- Takes a batch of neighbours seen at `now`. -/
def ingest (m : Monitor) (rows : List Neighbor) (batch : BatchMeta) (now : Instant) : Monitor :=
  let cutoff := now.minus m.settings.historyWindow
  let seen := (rows.map (·.addr)).filter (· ≠ 0)
  let history := ageOut cutoff seen (rows.foldl (observe cutoff now) m.history)
  { m with history, rows }.describe batch now

/-- Compares the newest with the oldest score of a history. -/
def trendOf (points : List Point) : Trend :=
  match points.head?, points.getLast? with
  | some first, some last =>
    if points.length < 2 then .notApplicable
    else if first.score < last.score then .improving
    else if last.score < first.score then .degrading
    else .stable
  | _, _ => .notApplicable

def trend (m : Monitor) (addr : UInt16) : Trend := trendOf (m.points addr)

/-- Whole seconds since the anchor, not below zero; nothing before the first batch. -/
def ageSeconds? (m : Monitor) (now : Instant) : Option Int :=
  m.batch.map fun _ =>
    let elapsed := now.since m.anchor
    if elapsed < 0 then 0 else (elapsed / Duration.second).toInt

/-- Stale before the first batch, and once the anchor lies further back than the threshold. -/
def isStale (m : Monitor) (now : Instant) : Bool :=
  m.batch.isNone || m.settings.staleThreshold < now.since m.anchor

end Monitor

end MeshConsole.Radio
