import MeshConsole.Telemetry.Board

/-!
# Collecting events

Events reach the board through a bounded buffer. While the collector runs, the buffer is emptied at
once; while it does not, events wait, and those that find the buffer full are lost.
-/

namespace MeshConsole.Telemetry

structure Collector where
  board : Board
  /-- Oldest first. -/
  waiting : List Event := []
  running : Bool := false
  stopped : Bool := false
  deriving Repr, DecidableEq

namespace Collector

def new (settings : Settings) (now : Instant) : Collector := { board := Board.new settings now }

/-- A new collector, if there is room for what the settings ask for. -/
def new? (settings : Settings) (now : Instant) : Except Memory.Refusal Collector := do
  settings.effective.reserve
  return new settings now

def publish (c : Collector) (now : Instant) (event : Event) : Collector :=
  if c.running then { c with board := c.board.fold now event }
  else if c.waiting.length < c.board.settings.buffer.toNat then
    { c with waiting := c.waiting ++ [event] }
  else c

/-- Starts folding with the events that wait. A collector that was stopped stays so. -/
def start (c : Collector) (now : Instant) : Collector :=
  if c.stopped then c
  else
    { c with
      running := true
      board := c.waiting.foldl (fun board event => board.fold now event) c.board
      waiting := [] }

/-- Stops for good; nothing when it was stopped before. -/
def stop? (c : Collector) : Option Collector :=
  if c.stopped then none else some { c with running := false, stopped := true }

def snapshot (c : Collector) (now : Instant) : Snapshot := c.board.snapshot c.waiting.length now

end Collector

end MeshConsole.Telemetry
