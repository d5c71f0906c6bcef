import MeshConsole.Push.Backoff
import MeshConsole.Telemetry.Event

/-!
# The push link

What the console knows of its push connection: its state, the greatest sequence number of the
connection, and the failures in a row. A frame passes the gate when it carries no sequence number
or one above the watermark; every frame is reported as received or as dropped.
-/

namespace MeshConsole.Push

open Telemetry (Event)

inductive LinkState where
  | closed
  | connecting
  | opened
  deriving Repr, DecidableEq

namespace LinkState

def name : LinkState → Text
  | .closed => "closed"
  | .connecting => "connecting"
  | .opened => "open"

/-- The name of the state with this number. -/
def nameOf (number : Int) : Text :=
  if number = 0 then closed.name
  else if number = 1 then connecting.name
  else if number = 2 then opened.name
  else "unknown"

end LinkState

/-- Where the count of failures in a row stops. -/
def maxRetryAttempt : Nat := 10

structure Link where
  url : Text
  timing : Timing
  state : LinkState := .closed
  /-- The greatest sequence number since the link opened. -/
  lastSeq : UInt64 := 0
  /-- Failures since the link was last open. -/
  retryAttempt : Nat := 0
  deriving Repr, DecidableEq

/-- Who takes the payloads of a link. -/
inductive Handler where
  | none
  | plain
  /-- Also pulls the gateway's state some time after the link opens. -/
  | reconciling
  deriving Repr, DecidableEq

/-- What a link does to its surroundings, in order. -/
inductive Signal where
  | log (line : Text)
  | publish (event : Event)
  | deliver (payload : Payload)
  | closeSocket
  /-- A pull of the gateway's state is due at this instant. -/
  | schedule (number : Nat) (due : Instant)
  /-- The pull starts now. -/
  | reconcile (number : Nat)
  /-- The pull, which is due or under way, is called off. -/
  | unschedule (number : Nat)
  deriving Repr, DecidableEq

namespace Link

def new (url : Text) (timing : Timing) : Link := { url, timing := timing.effective }

/-- The wait after one more failure. -/
def nextDelay (l : Link) : Duration := l.timing.delay l.retryAttempt

/-- The watermark after a message, or nothing when the message does not pass the gate. -/
def gate? (l : Link) (m : Message) : Option UInt64 :=
  match m.seq with
  | none => some l.lastSeq
  | some seq => if seq ≤ l.lastSeq then none else some seq

def versionSignals (m : Message) : List Signal :=
  match m.version with
  | none => []
  | some version =>
    if version = protocolVersion then []
    else [
      .log <| ("warning: protocol version " : Text) ++ Text.ofInt version.toInt ++
        ", expected " ++ Text.ofInt protocolVersion.toInt,
      .publish (.versionMismatch protocolVersion version)]

def dropSignals (m : Message) (why : Text) (reason : Telemetry.DropReason) : List Signal := [
  .log (("dropping " : Text) ++ m.kind.name ++ " message: " ++ why),
  .publish (.dropped reason (m.seq.getD 0))]

/-- Hands a message on. Without a handler the payload is not looked at. -/
def dispatchSignals (handler : Handler) (m : Message) : List Signal :=
  let received : Signal := .publish (.received m.kind.name (m.seq.getD 0))
  match m.payload? with
  | none => dropSignals m "unknown message type" .unknownType
  | some payload =>
    if handler = .none then [received]
    else
      match payload with
      | .error why => dropSignals m why.message .malformed
      | .ok payload => [.deliver payload, received]

/-- Takes one frame. -/
def receive (l : Link) (handler : Handler) (frame : Text) : Link × List Signal :=
  match decode frame with
  | .error why =>
    (l, [.log (("dropping message: " : Text) ++ why.message), .publish (.dropped .malformed 0)])
  | .ok m =>
    match l.gate? m with
    | none => (l, [.publish (.dropped .duplicate (m.seq.getD 0))])
    | some lastSeq => ({ l with lastSeq }, versionSignals m ++ dispatchSignals handler m)

def opened (l : Link) : Link × List Signal :=
  ({ l with state := .opened, lastSeq := 0, retryAttempt := 0 }, [
    .log (("connected to " : Text) ++ l.url),
    .publish (.connection l.url true 0)])

/-- A dial or a read has failed: the delay is the one before this failure is counted. -/
def failed (l : Link) (why : Fault) : Link × Duration × List Signal :=
  let place : Text := if l.state = .opened then "read" else "dial"
  let delay := l.nextDelay
  let attempt := min (l.retryAttempt + 1) maxRetryAttempt
  ({ l with state := .closed, retryAttempt := attempt }, delay, [
    .log (("connection " : Text) ++ place ++ " failed: " ++ why.message ++
      "; reconnecting in " ++ delay.text),
    .publish (.clientError (some why) place .warning),
    .publish (.connection l.url false attempt)])

end Link

/-- What a link goes through: it opens, or a frame is handed to it. -/
inductive Occurrence where
  | opened
  | frame (bytes : Text)
  deriving Repr, DecidableEq

def Link.meet (handler : Handler) (l : Link) : Occurrence → Link × List Signal
  | .opened => l.opened
  | .frame bytes => l.receive handler bytes

/-- The link after a whole course. -/
def Link.after (handler : Handler) (l : Link) (course : List Occurrence) : Link :=
  course.foldl (fun l o => (l.meet handler o).1) l

/-- The sequence number of a frame that can be decoded and carries one. -/
def sequenceOf? (frame : Text) : Option UInt64 := (decode frame).toOption.bind (·.seq)

/-- What signals hand to the handler, in order. -/
def delivered (signals : List Signal) : List Payload :=
  signals.filterMap fun
    | .deliver payload => some payload
    | _ => none

end MeshConsole.Push
