import MeshConsole.Bench.Traffic

/-!
# Processes and exchanges

A process is an activity under way. Its calls go to the scripted or to the simulated gateway; an
answer that takes no time comes at the same instant.
-/

namespace MeshConsole.Bench.World

/-- How long the simulated gateway takes to answer. -/
def simulatedDelay : Duration := Duration.millisecond

def answerAfter (w : World) (id : Nat) (scopes : List Scope) (delay : Duration)
    (request : Rest.Request) (exchange : Session.Exchange) : World :=
  let timeout := w.session.client.timeout
  let failed := fun cause => Session.Answer.exchanged (.error (request.failed cause))
  if delay ≤ 0 then w.pendNow (.answer id (.exchanged exchange))
  else
    let onCancel := some (Wake.answer id (failed .canceled))
    if timeout ≤ delay then w.pendAfter timeout scopes (.answer id (failed .deadline)) onCancel
    else w.pendAfter delay scopes (.answer id (.exchanged exchange)) onCancel

/-- Headers that speak of a body. -/
def isAboutBody (header : Text × Text) : Bool :=
  (Text.after? "content-" (Text.lowerAscii header.1)).isSome

/-- The request that follows a redirect; it asks again without a body and what is said of it. -/
def redirected (request : Rest.Request) (location : Text) : Option Rest.Request := do
  let target ← Url.parse? location
  let url :=
    if target.host.isEmpty then
      { request.url with path := target.path, rawPath := target.rawPath, query := target.query }
    else target
  let referer := { request.url with user := none }.text
  some {
    method := .get
    url
    headers :=
      request.headers.filter (!isAboutBody ·) ++ [(("Referer" : Text), referer)] }

def exchangeSimulated (w : World) (id : Nat) (scopes : List Scope) (path : Text)
    (request : Rest.Request) : World :=
  if (Text.after? "down" request.url.host).isSome then
    w.pendNow (.answer id (.exchanged (.error (request.failed (.other "connection refused")))))
  else
    let served := w.simulator.ask w.now request
    let w := w.applyEffects (served.simulator, served.effects)
    match (if served.response.status = 301 then redirected request served.response.location
      else none) with
    | some next =>
      w.pendAfter simulatedDelay scopes (.follow id path next)
        (some (.answer id (.exchanged (.error (request.failed .canceled)))))
    | none => w.answerAfter id scopes simulatedDelay request (.ok (path, served.response))

def exchangeScripted (w : World) (id : Nat) (scopes : List Scope) (path : Text)
    (request : Rest.Request) (routes : Routes) : World :=
  match routes.next? request.method.name request.url.path with
  | none => w.pendNow (.answer id (.exchanged (.error (request.failed (.other "no route")))))
  | some (reply, routes) =>
    let w := { w with gateway := .scripted routes }
    let exchange : Session.Exchange :=
      match reply.error, reply.bodyError with
      | some why, _ => .error (request.failed (.other why))
      | none, some why => .error (.other why)
      | none, none => .ok (path, { status := reply.status, body := reply.body })
    w.answerAfter id scopes reply.delay request exchange

/-- Sends a request. One whose sender has given up is seen, and fails. -/
def send (w : World) (id : Nat) (scopes : List Scope) (path : Text) (request : Rest.Request) :
    World :=
  let w := w.observe (.request request)
  if w.isCancelled scopes then
    w.pendNow (.answer id (.exchanged (.error (request.failed .canceled))))
  else
    match w.gateway with
    | .simulated => w.exchangeSimulated id scopes path request
    | .scripted routes => w.exchangeScripted id scopes path request routes

def call (w : World) (id : Nat) (scopes : List Scope) (call : Rest.Call) : World :=
  match w.session.client.request call with
  | .error why => w.pendNow (.answer id (.exchanged (.error why)))
  | .ok request => w.send id scopes request.url.path request

/-- Lets those know who wait for a process. -/
def finish (w : World) (id : Nat) (process : Process) (outcome : Outcome) : World :=
  let w := { w with processes := w.processes.erase id }
  match process.ending with
  | .refresh => w
  | .pull number => w.tellLink (.pullReturned number)
  | .step number async =>
    let w := w.dropPending fun
      | .giveUp step => process.scopes.contains (.step step)
      | .report other => other == id
      | .endReport other _ => other == id
      | _ => false
    if async then w.observe (.finished number outcome)
    else { w with outcomes := w.outcomes.set number outcome }

/-- Goes on where an activity has stopped. -/
def proceed (w : World) (id : Nat) (process : Process) (stop : Session.Stop Outcome) : World :=
  let w := { w with session := stop.state }.tell stop.notes
  match stop.task with
  | .finished outcome => w.finish id process outcome
  | task =>
    let w := { w with processes := w.processes.set id { process with body := .task task } }
    match task.need with
    | .nothing => w
    | .exchange call => w.call id process.scopes call
    | .pause length =>
      if w.isCancelled process.scopes then w.pendNow (.answer id .interrupted)
      else
        w.pendAfter length process.scopes (.answer id .waited) (some (.answer id .interrupted))

/-- Starts an activity. -/
def spawn (w : World) (activity : Session.Activity Outcome) (scopes : List Scope)
    (ending : Ending) : World :=
  let id := w.nextProcess
  let stop := activity.run w.now (w.isCancelled scopes) w.session
  let process : Process := { body := .task stop.task, scopes, ending }
  { w with nextProcess := id + 1 }.proceed id process stop

/-- Answers what a process waits for. -/
def answer (w : World) (id : Nat) (a : Session.Answer) : World :=
  match w.processes.get? id with
  | some process =>
    let cancelled := w.isCancelled process.scopes
    match process.body with
    | .task task =>
      if task.need.takes cancelled a then
        w.proceed id process (task.answer w.now cancelled w.session a)
      else w
    | .watch .. => w
  | none => w

end MeshConsole.Bench.World
