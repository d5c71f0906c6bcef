import MeshConsole.Radio.Monitor

/-!
# The link-quality view

What is shown of the latest batch: its rows with quality and trend, how old it is, and hints on
where a router would help.
-/

namespace MeshConsole.Radio

/-- What a hint is about, by its name. -/
structure HintKind where
  name : Text
  deriving Repr, DecidableEq

namespace HintKind

def weakLink : HintKind := ⟨"weak_link"⟩
def degrading : HintKind := ⟨"degrading"⟩
def manyWeak : HintKind := ⟨"many_weak"⟩

end HintKind

/-- An advisory on one neighbour, or on the number of weak ones. -/
structure Hint where
  kind : HintKind
  addr : UInt16 := 0
  name : Text := []
  quality : Option Quality := none
  count : Int := 0
  deriving Repr, DecidableEq

/-- A neighbour ready to be shown. Quality, source and trend are given by every monitor. -/
structure Row where
  addr : UInt16 := 0
  name : Text := []
  lqi : Option Int64 := none
  rssi : Option Int64 := none
  quality : Option Quality := none
  score : Nat := 0
  direct : Bool := false
  source : Option Source := none
  updatedMs : UInt64 := 0
  trend : Option Trend := none
  points : Nat := 0
  deriving Repr, DecidableEq

structure View where
  rows : List Row := []
  batch : BatchMeta := {}
  /-- Whether there has been a batch. -/
  hasBatch : Bool := false
  ageSeconds : Int := 0
  stale : Bool := false
  hints : List Hint := []
  /-- The batch was read from a table that carries no signal strength, and no row has one. -/
  mgmtLqiWithoutRssi : Bool := false
  deriving Repr, DecidableEq

def maxWeakHints : Nat := 2

def maxDegradingHints : Nat := 2

/-- From this many weak links on a hint gives their number. -/
def manyWeakThreshold : Nat := 3

def Hint.about (kind : HintKind) (row : Neighbor) : Hint :=
  { kind, addr := row.addr, name := row.name, quality := some (Quality.ofLabel row.quality) }

/-- Hints gathered row by row. -/
structure Survey where
  weak : List Hint := []
  degrading : List Hint := []
  /-- All weak links, also those without a hint of their own. -/
  weakCount : Nat := 0
  deriving Repr, DecidableEq

namespace Survey

/-- A weak link is counted also when there is no room for a hint on it. -/
def noteWeak (s : Survey) (row : Neighbor) : Survey :=
  if Quality.ofLabel row.quality = .bad then
    { s with
      weakCount := s.weakCount + 1
      weak := if s.weak.length < maxWeakHints then s.weak ++ [.about .weakLink row] else s.weak }
  else s

/-- The trend of a row is looked up only while there is room for a hint on it. -/
def noteDegrading (m : Monitor) (s : Survey) (row : Neighbor) : Survey :=
  let quality := Quality.ofLabel row.quality
  if (quality = .warn ∨ quality = .bad) ∧ s.degrading.length < maxDegradingHints then
    if m.trend row.addr = .degrading then
      { s with degrading := s.degrading ++ [.about .degrading row] }
    else s
  else s

/-- Weak links first, then degrading ones, then their number when there are many. -/
def hints (s : Survey) : List Hint :=
  let many : List Hint :=
    if manyWeakThreshold ≤ s.weakCount then [{ kind := .manyWeak, count := s.weakCount }] else []
  s.weak ++ s.degrading ++ many

end Survey

namespace Monitor

def survey (m : Monitor) (s : Survey) (row : Neighbor) : Survey :=
  (s.noteWeak row).noteDegrading m row

def hints (m : Monitor) (rows : List Neighbor) : List Hint :=
  (rows.foldl m.survey {}).hints.take m.settings.maxHints.toNat

def row (m : Monitor) (n : Neighbor) : Row :=
  let quality := Quality.ofLabel n.quality
  { addr := n.addr
    name := n.name
    lqi := n.lqi
    rssi := n.rssi
    quality := some quality
    score := quality.score
    direct := n.direct
    source := some (Source.ofLabel n.source)
    updatedMs := n.updatedMs
    trend := some (m.trend n.addr)
    points := (m.points n.addr).length }

/-- The view of the latest batch as of `now`. -/
def view (m : Monitor) (now : Instant) : View :=
  let fromMgmtLqi :=
    match m.batch with
    | some batch => Source.ofLabel batch.source == .mgmtLqi
    | none => false
  { rows := m.rows.map m.row
    batch := m.batch.getD {}
    hasBatch := m.batch.isSome
    ageSeconds := (m.ageSeconds? now).getD 0
    stale := m.isStale now
    hints := m.hints m.rows
    mgmtLqiWithoutRssi := fromMgmtLqi && !m.rows.isEmpty && m.rows.all (·.rssi.isNone) }

end Monitor

end MeshConsole.Radio
