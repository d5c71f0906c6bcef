import MeshConsole.Memory
import MeshConsole.Telemetry.Event
import MeshConsole.Telemetry.Ring

/-!
# The telemetry board

The board folds events into counters and the latest state of connection, gateway and jobs. A
snapshot is what it shows at an instant.
-/

namespace MeshConsole.Telemetry

structure Settings where
  buffer : Int := 1000
  recentErrors : Int := 50
  recentJobs : Int := 20
  rateWindow : Int := 10
  deriving Repr, DecidableEq

/-- A setting that is not positive takes its default. -/
def Settings.effective (s : Settings) : Settings :=
  let standard : Settings := {}
  { buffer := if s.buffer ≤ 0 then standard.buffer else s.buffer
    recentErrors := if s.recentErrors ≤ 0 then standard.recentErrors else s.recentErrors
    recentJobs := if s.recentJobs ≤ 0 then standard.recentJobs else s.recentJobs
    rateWindow := if s.rateWindow ≤ 0 then standard.rateWindow else s.rateWindow }

/-- Takes the room for what the settings ask for: times of messages, ten for each second of the
window in wrapping arithmetic, then errors, jobs and events. -/
def Settings.reserve (s : Settings) : Except Memory.Refusal Unit := do
  Memory.reserve .capacity 24 (Int64.ofInt (s.rateWindow * 10)).toInt
  Memory.reserve .length 16 s.recentErrors
  Memory.reserve .length 112 s.recentJobs
  Memory.reserve .queue 16 s.buffer

structure Board where
  settings : Settings
  started : Instant := 0
  messagesReceived : UInt64 := 0
  messagesDropped : UInt64 := 0
  versionMismatches : UInt64 := 0
  reconnects : UInt64 := 0
  errorsTotal : UInt64 := 0
  messagesByKind : Table Text UInt64 := []
  dropsByReason : Table DropReason UInt64 := []
  errorsByContext : Table Text UInt64 := []
  errorsBySeverity : Table Severity UInt64 := []
  jobsByState : Table Text UInt64 := []
  /-- When messages came, oldest first; times outside the rate window are let go. -/
  messageTimes : List Instant := []
  connected : Bool := false
  retryAttempt : Int := 0
  lastSeq : UInt64 := 0
  lastVersion : Int64 := 0
  devices : List Device := []
  panId : UInt16 := 0
  channel : Int64 := 0
  coordinatorAddr : UInt16 := 0
  health : Option Health := none
  links : Radio.View := {}
  activeJobs : Table Int64 JobChange := []
  recentErrors : Ring Text
  recentJobs : Ring JobChange
  deriving Repr, DecidableEq

/-- States after which a job no longer changes. -/
def isTerminal (state : Text) : Bool := state == "succeeded" || state == "failed"

theorem Settings.effective_recentErrors_pos (s : Settings) :
    0 < s.effective.recentErrors.toNat := by
  simp only [effective]
  split <;> omega

theorem Settings.effective_recentJobs_pos (s : Settings) :
    0 < s.effective.recentJobs.toNat := by
  simp only [effective]
  split <;> omega

namespace Board

def new (settings : Settings) (now : Instant) : Board where
  settings := settings.effective
  started := now
  recentErrors := .empty _ settings.effective_recentErrors_pos
  recentJobs := .empty _ settings.effective_recentJobs_pos

/-- Where the rate window that ends at `now` begins. -/
def windowStart (b : Board) (now : Instant) : Instant :=
  now.plus (Duration.ofSeconds (-b.settings.rateWindow))

def addMessageTime (b : Board) (now : Instant) : Board :=
  let cutoff := b.windowStart now
  { b with messageTimes := (b.messageTimes.dropWhile (· < cutoff)) ++ [now] }

def foldJob (b : Board) (change : JobChange) : Board :=
  let b := { b with jobsByState := b.jobsByState.count change.state }
  if isTerminal change.state then
    { b with
      activeJobs := b.activeJobs.erase change.id, recentJobs := b.recentJobs.push change }
  else { b with activeJobs := b.activeJobs.set change.id change }

def foldError (b : Board) (fault : Option Fault) (context : Text) (severity : Severity) : Board :=
  { b with
    errorsTotal := b.errorsTotal + 1
    errorsByContext := b.errorsByContext.count context
    errorsBySeverity := b.errorsBySeverity.count severity
    recentErrors :=
      match fault with
      | none => b.recentErrors
      | some fault => b.recentErrors.push (context ++ ": " ++ fault.message) }

/-- Takes one event that is handled at `now`. -/
def fold (b : Board) (now : Instant) : Event → Board
  | .connection _ connected attempt =>
    let again := connected && !b.connected && 0 < b.retryAttempt
    { b with
      connected, retryAttempt := attempt
      reconnects := if again then b.reconnects + 1 else b.reconnects }
  | .received kind seq =>
    { b with
      messagesReceived := b.messagesReceived + 1
      messagesByKind := b.messagesByKind.count kind
      lastSeq := if 0 < seq then seq else b.lastSeq }.addMessageTime now
  | .dropped reason _ =>
    { b with
      messagesDropped := b.messagesDropped + 1
      dropsByReason := b.dropsByReason.count reason }
  | .versionMismatch _ got =>
    { b with versionMismatches := b.versionMismatches + 1, lastVersion := got }
  | .devices devices => { b with devices }
  | .gatewayInfo panId channel shortAddr =>
    { b with
      panId := panId.getD b.panId
      channel := channel.getD b.channel
      coordinatorAddr := shortAddr.getD b.coordinatorAddr }
  | .health health => { b with health := some health }
  | .links view => { b with links := view }
  | .job change => b.foldJob change
  | .clientError fault context severity => b.foldError fault context severity

/-- How many messages came within the window that ends at `now`. -/
def counted (b : Board) (now : Instant) : Nat :=
  (b.messageTimes.filter (b.windowStart now < ·)).length

/-- Messages for each second of the window that ends at `now`. -/
def rate (b : Board) (now : Instant) : Binary64 :=
  if b.messageTimes.isEmpty then Binary64.zero false
  else Binary64.div (.ofInt (b.counted now)) (.ofInt b.settings.rateWindow)

end Board

structure Snapshot where
  messagesReceived : UInt64 := 0
  messagesDropped : UInt64 := 0
  versionMismatches : UInt64 := 0
  messagesByKind : Table Text UInt64 := []
  dropsByReason : Table DropReason UInt64 := []
  messagesPerSecond : Binary64 := Binary64.zero false
  lastSeq : UInt64 := 0
  lastVersion : Int64 := 0
  connected : Bool := false
  retryAttempt : Int := 0
  reconnects : UInt64 := 0
  deviceCount : Int := 0
  devices : List Device := []
  panId : UInt16 := 0
  channel : Int64 := 0
  coordinatorAddr : UInt16 := 0
  health : Option Health := none
  links : Radio.View := {}
  /-- In the order of their ids. -/
  activeJobs : List JobChange := []
  /-- Newest first. -/
  recentJobs : List JobChange := []
  jobsByState : Table Text UInt64 := []
  uptimeSeconds : Binary64 := Binary64.zero false
  /-- How full the event buffer is, in percent. -/
  bufferUse : Binary64 := Binary64.zero false
  errorsTotal : UInt64 := 0
  errorsByContext : Table Text UInt64 := []
  errorsBySeverity : Table Severity UInt64 := []
  /-- Newest first. -/
  recentErrors : List Text := []
  deriving Repr, DecidableEq

/-- A duration in seconds: the whole part and the fraction are rounded one by one. -/
def secondsOf (d : Duration) : Binary64 :=
  let whole := (d / Duration.second).toInt
  let rest := (d % Duration.second).toInt
  Binary64.addMagnitudes (.ofInt whole) (Binary64.div (.ofInt rest) (.ofInt Duration.second.toInt))

/-- The snapshot at `now`, with `waiting` events in the buffer. A finished job without an id takes
its place among the recent ones but is not shown. -/
def Board.snapshot (b : Board) (waiting : Nat) (now : Instant) : Snapshot where
  messagesReceived := b.messagesReceived
  messagesDropped := b.messagesDropped
  versionMismatches := b.versionMismatches
  messagesByKind := b.messagesByKind
  dropsByReason := b.dropsByReason
  messagesPerSecond := b.rate now
  lastSeq := b.lastSeq
  lastVersion := b.lastVersion
  connected := b.connected
  retryAttempt := b.retryAttempt
  reconnects := b.reconnects
  deviceCount := b.devices.length
  devices := b.devices
  panId := b.panId
  channel := b.channel
  coordinatorAddr := b.coordinatorAddr
  health := b.health
  links := b.links
  activeJobs := (b.activeJobs.map Prod.snd).mergeSort fun x y => x.id ≤ y.id
  recentJobs := b.recentJobs.entries.filter (·.id ≠ 0)
  jobsByState := b.jobsByState
  uptimeSeconds := secondsOf (now.since b.started)
  bufferUse :=
    Binary64.mul (Binary64.div (.ofInt waiting) (.ofInt b.settings.buffer)) (.ofInt 100)
  errorsTotal := b.errorsTotal
  errorsByContext := b.errorsByContext
  errorsBySeverity := b.errorsBySeverity
  recentErrors := b.recentErrors.entries.filter (!·.isEmpty)

end MeshConsole.Telemetry
