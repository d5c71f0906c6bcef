import MeshConsole.Bench.Exchange

/-!
# Running the bench

The earliest wait ends first; of waits that are due at one instant, the one entered first.
-/

namespace MeshConsole.Bench.World

open Session (Activity)

def quietly (activity : Activity Unit) : Activity Outcome := do
  activity
  return .ok .done

/-- Starts the pull with this number, if it waits for its instant. -/
def startPull (w : World) (number : Nat) : World :=
  let scopes := [w.pullScope number, w.runScope]
  match w.session.run.step w.now (.pullDue number) with
  | (_, []) => w
  | (run, _) =>
    match w.taker with
    | .session => (w.withRun run).spawn (quietly Session.reconcile) scopes (.pull number)
    | .recorder =>
      ((w.withRun run).observe (.reconciled (w.isCancelled scopes))).tellLink
        (.pullReturned number)

def pendTick (w : World) : World := w.pendAfter w.session.tick [w.runScope] .tick none

def tick (w : World) : World :=
  let stop := Session.tick.run w.now false w.session
  let w := ({ w with session := stop.state }.tell stop.notes).pendTick
  match stop.task with
  | .finished true => w.spawn (quietly Session.autoRefresh) [w.runScope] .refresh
  | _ => w

def pendReport (w : World) (id : Nat) (process : Process) (watch : Status.Watch) : World :=
  w.pendAfter watch.effectiveInterval process.scopes (.report id) (some (.endReport id true))

def out (w : World) (lines : List Text) : World :=
  lines.foldl (fun w line => w.observe (.out line)) w

/-- What the printer shows of the telemetry now. -/
def display (w : World) (printer : Status.Printer) : List Text × Status.Printer :=
  match w.collector with
  | some collector => printer.show (collector.snapshot w.now)
  | none => ([], printer)

def report (w : World) (id : Nat) : World :=
  match w.processes.get? id with
  | some process =>
    match process.body with
    | .watch watch printer =>
      let (lines, printer) := w.display printer
      let process := { process with body := .watch watch printer }
      ({ w with processes := w.processes.set id process }.out lines).pendReport id process watch
    | .task _ => w
  | none => w

def endReport (w : World) (id : Nat) (cancelled : Bool) : World :=
  match w.processes.get? id with
  | some process =>
    match process.body with
    | .watch .. =>
      let w := if cancelled then w.out [Status.Watch.closingLine] else w
      w.finish id process (.ok .done)
    | .task _ => w
  | none => w

def read (w : World) (event : ReadEvent) (rest : List Read) : World :=
  match event with
  | .nothing => w.rearm rest
  | .frame bytes => (w.hear (.frame bytes)).rearm rest
  | .fails why => (w.hear (.readFailed (.other why))).rearm []

/-- Does what is due. -/
def wake (w : World) : Wake → World
  | .answer id a => w.answer id a
  | .follow id path request =>
    match w.processes.get? id with
    | some process => w.send id process.scopes path request
    | none => w
  | .dialed reads =>
    let w := { w with attached := !w.isScripted }
    (w.hear .dialed).rearm reads
  | .dialFailed why => (w.hear (.dialFailed why)).rearm []
  | .read event rest => w.read event rest
  | .waited => (w.hear .waited).rearm []
  | .blocked => w
  | .linkCancelled => (w.hear .cancelled).rearm []
  | .pullDue number => w.startPull number
  | .tick => w.tick
  | .giveUp step => w.cancel (.step step)
  | .report id => w.report id
  | .endReport id cancelled => w.endReport id cancelled
  | .simulate step => w.simulate step
  | .dropClients => w.dropClients

def isEarlier (a b : Pending) : Bool :=
  match a.due, b.due with
  | some x, some y => x < y
  | some _, none => true
  | none, _ => false

/-- Takes the earliest wait out of a list. -/
def earliest? : List Pending → Option (Pending × List Pending)
  | [] => none
  | p :: rest =>
    match earliest? rest with
    | none => some (p, [])
    | some (q, others) => if isEarlier q p then some (q, p :: others) else some (p, rest)

/-- Ends the earliest wait that is over by `limit`, at the instant at which it is over. -/
def step? (w : World) (limit : Option Instant) : Option World := do
  let (p, others) ← earliest? w.pending
  let due ← p.due
  if limit.any (· < due) then none
  else some ({ w with pending := others, now := max w.now due }.wake p.wake)

/-- Ends waits until none is over by `limit` or `stop` holds. -/
def run (stop : World → Bool) (limit : Option Instant) : Nat → World → World
  | 0, w => w
  | fuel + 1, w =>
    if stop w then w
    else
      match w.step? limit with
      | none => w
      | some w => run stop limit fuel w

/-- More waits than a bench run ends. -/
def fuel : Nat := 10000000

/-- Lets everything happen that is due now. -/
def settle (w : World) : World := run (fun _ => false) (some w.now) fuel w

/-- Lets time pass. -/
def advance (w : World) (time : Duration) : World :=
  let target := w.now.plus time
  let w := run (fun _ => false) (some target) fuel w
  { w with now := max w.now target }

/-- How a step is carried out. -/
structure Manner where
  number : Nat := 0
  async : Bool := false
  /-- The caller has given up before the step starts. -/
  cancelled : Bool := false
  cancelAfter : Option Duration := none

/-- Opens the scope of a step. -/
def openScope (w : World) (manner : Manner) : World × Scope :=
  let (w, step) := w.newScope
  let w := if manner.cancelled then w.cancel (.step step) else w
  match manner.cancelAfter with
  | some time => (w.pendAfter time [] (.giveUp step) none, .step step)
  | none => (w, .step step)

/-- Waits for the outcome of a step; nothing when the step goes on in the background. -/
def await (w : World) (manner : Manner) : World × Option Outcome :=
  if manner.async then (w, none)
  else
    let w := run (fun w => w.outcomes.has manner.number) none fuel w
    (w, w.outcomes.get? manner.number)

/-- Carries an activity out. -/
def perform (w : World) (manner : Manner) (activity : Activity Outcome) :
    World × Option Outcome :=
  let (w, scope) := w.openScope manner
  (w.spawn activity [scope] (.step manner.number manner.async)).await manner

/-- Watches until it is stopped or cancelled. -/
def watch (w : World) (manner : Manner) (watch : Status.Watch) (stopAfter : Option Duration) :
    World × Option Outcome :=
  let (w, scope) := w.openScope manner
  let id := w.nextProcess
  let process : Process := {
    body := .watch watch {}, scopes := [scope], ending := .step manner.number manner.async }
  let w := { w with nextProcess := id + 1, processes := w.processes.set id process }
  let w := w.out watch.openingLines
  let w := match stopAfter with
    | some time => w.pendAfter time [] (.endReport id false) none
    | none => w
  let w :=
    if w.isCancelled [scope] then w.pendNow (.endReport id true) else w.pendReport id process watch
  w.await manner

/-- Starts the link within a scope of its own. -/
def startLink (w : World) (cancelled : Bool) : World :=
  let (w, runNumber) := w.newScope
  let w := { w with runNumber }
  let w := if cancelled then w.cancel w.runScope else w
  (w.withRun (.start w.session.run.link w.session.run.handler cancelled)).rearm []

/-- Hands a frame to the link, whether or not it is connected. -/
def inject (w : World) (frame : Text) : World :=
  let run := w.session.run
  let (link, signals) := run.link.receive run.handler frame
  signals.foldl applySignal (w.withRun { run with link })

/-- Starts the session: its link and its tick. -/
def startSession (w : World) : World := (w.startLink false).pendTick

/-- Ends what was started. -/
def close (w : World) : World := (w.cancel w.runScope).settle

end MeshConsole.Bench.World
