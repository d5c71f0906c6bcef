import MeshConsole.Session.Action
import MeshConsole.Session.Work

/-!
# A session with its threads

From its start on a session keeps threads of its own: the loop of its link, the ticker, a pull of
the gateway's state after each open, and a refresh of the link table when a tick asks for one.
Callers add threads under contexts of their own. Threads take their steps in any order.

Closing cancels the session's context and waits for the loop, the ticker and the refreshes. The loop
waits for the pulls.
-/

namespace MeshConsole.Session

inductive Owner where
  | loop
  | ticker
  | pull (number : Nat)
  | refresh
  | caller
  deriving Repr, DecidableEq

namespace Owner

/-- The thread is the session's, not a caller's. -/
def isOwn : Owner → Bool
  | .caller => false
  | _ => true

/-- Closing waits for the thread. -/
def isAwaited : Owner → Bool
  | .loop => true
  | .ticker => true
  | .refresh => true
  | _ => false

end Owner

structure Thread where
  owner : Owner
  work : Work Bool
  /-- The caller has cancelled the context of the thread. -/
  gaveUp : Bool := false
  left : Bool := false

def Thread.resting (owner : Owner) : Thread := { owner, work := .waiting (.finished false) }

/-- What the loop does on a signal of its link. -/
def carry : Push.Signal → Activity Unit
  | .log line => Activity.log line
  | .publish event => Activity.publish event
  | .deliver payload => takePayload payload
  | .closeSocket => .done ()
  | .schedule .. => .done ()
  | .reconcile _ => .done ()
  | .unschedule _ => .done ()

def carryAll (signals : List Push.Signal) : Activity Bool :=
  signals.foldr (fun signal rest => (carry signal).bind fun _ => rest) (.done false)

structure Entry where
  thread : Nat
  owner : Owner
  deed : Deed

/-- A session, and all threads that it has had. -/
structure Live where
  session : State
  started : Bool := false
  /-- The context of the session is cancelled. -/
  cancelled : Bool := false
  closing : Bool := false
  threads : List Thread := []

namespace Live

inductive Move where
  /-- Starts the session, under a context that may be cancelled already. -/
  | start (cancelled : Bool)
  | close
  /-- Cancels the context that the session was started under. -/
  | cancel
  | commission (c : Commission)
  | giveUp (i : Nat)
  | act (i : Nat) (now : Instant)
  | answer (i : Nat) (now : Instant) (a : Answer)
  /-- The loop has something happen to its link. -/
  | hear (i : Nat) (now : Instant) (h : Push.Happening)
  | due (number : Nat) (now : Instant)
  | tick (i : Nat)
  /-- The ticker starts the refresh that its tick has asked for. -/
  | refresh (i : Nat)
  /-- A thread that has nothing more to do returns. -/
  | leave (i : Nat) (now : Instant)

def of (client : Rest.Client) (url : Text) (settings : Settings) : Live where
  session := .idle client (.new url settings.link) .reconciling settings

def labSession : Live := of (.new "http://gateway.lab" [] 0) "ws://gateway.lab/ws" {}

def isCancelled (l : Live) (t : Thread) : Bool :=
  match t.owner with
  | .caller => t.gaveUp
  | .pull number =>
    l.cancelled || l.session.run.pulls.any fun p => p.number == number && p.calledOff
  | _ => l.cancelled

/-- What the loop hears when something happens. Whatever fails or ends after
the context is cancelled tells it just that. -/
def heard? (cancelled : Bool) : Push.Happening → Option Push.Happening
  | .dialed => some .dialed
  | .frame bytes => some (.frame bytes)
  | .dialFailed why => some (if cancelled then .cancelled else .dialFailed why)
  | .readFailed why => some (if cancelled then .cancelled else .readFailed why)
  | .waited => some (if cancelled then .cancelled else .waited)
  | .cancelled => if cancelled then some .cancelled else none
  | .pullDue _ => none
  | .pullReturned _ => none

def put (l : Live) (i : Nat) (t : Thread) : Live := { l with threads := l.threads.set i t }

def spawn (l : Live) (owner : Owner) (a : Activity Bool) : Live :=
  { l with threads := l.threads ++ [{ owner, work := .acting a }] }

def withRun (l : Live) (run : Push.Run) : Live := { l with session := { l.session with run } }

def beat (l : Live) (i : Nat) (t : Thread) (b : Beat Bool) : Live × List Entry :=
  ({ l with session := b.state }.put i { t with work := b.work },
    b.deeds.map fun deed => { thread := i, owner := t.owner, deed })

/-- A thread whose work is done returns when what it waits for has come. -/
def leave? (l : Live) (i : Nat) (now : Instant) (t : Thread) (value : Bool) : Option Live :=
  let gone : Thread := { t with left := true }
  match t.owner with
  | .loop => if l.session.run.hasReturned then some (l.put i gone) else none
  | .ticker => if l.cancelled && !value then some (l.put i gone) else none
  | .pull number => some ((l.withRun (l.session.run.step now (.pullReturned number)).1).put i gone)
  | .refresh => some (l.put i gone)
  | .caller => some (l.put i gone)

/-- What a move makes of a session and what is seen of it; nothing when the
move is out of turn. -/
def step? (l : Live) : Move → Option (Live × List Entry)
  | .start cancelled =>
    if l.started then none
    else
      let run := l.session.run
      let l := { l with started := true, cancelled }.withRun (.start run.link run.handler cancelled)
      some ({ l with threads := l.threads ++ [.resting .loop, .resting .ticker] }, [])
  | .close => if l.started then some ({ l with cancelled := true, closing := true }, []) else none
  | .cancel => if l.started then some ({ l with cancelled := true }, []) else none
  | .commission c => some (l.spawn .caller c.activity, [])
  | .giveUp i => do
    let t ← l.threads[i]?
    if t.owner = .caller then some (l.put i { t with gaveUp := true }, []) else none
  | .act i now => do
    let t ← l.threads[i]?
    let b ← t.work.act? now (l.isCancelled t) l.session
    some (l.beat i t b)
  | .answer i now a => do
    let t ← l.threads[i]?
    let b ← t.work.answer? now (l.isCancelled t) l.session a
    match a with
    | .interrupted => if l.isCancelled t then some (l.beat i t b) else none
    | _ => some (l.beat i t b)
  | .hear i now h => do
    let t ← l.threads[i]?
    let h ← heard? l.cancelled h
    let run := l.session.run
    if t.owner = .loop ∧ t.left = false ∧ t.work.outcome? ≠ none ∧ run.phase ≠ .finished then
      let (run, signals) := run.step now h
      some ((l.withRun run).put i { t with work := .acting (carryAll signals) }, [])
    else none
  | .due number now =>
    if l.session.run.pulls.any fun p => p.number == number && p.due?.isSome then
      let run := (l.session.run.step now (.pullDue number)).1
      some ((l.withRun run).spawn (.pull number) (quietly reconcile), [])
    else none
  | .tick i => do
    let t ← l.threads[i]?
    if t.owner = .ticker ∧ t.left = false ∧ t.work.outcome? = some false then
      some (l.put i { t with work := .acting tick }, [])
    else none
  | .refresh i => do
    let t ← l.threads[i]?
    if t.owner = .ticker ∧ t.left = false ∧ t.work.outcome? = some true then
      some ((l.put i (.resting .ticker)).spawn .refresh (quietly autoRefresh), [])
    else none
  | .leave i now => do
    let t ← l.threads[i]?
    let value ← t.work.outcome?
    if t.left then none else (l.leave? i now t value).map (·, [])

/-- A move out of turn changes nothing. -/
def step (l : Live) (m : Move) : Live × List Entry := (l.step? m).getD (l, [])

def after (l : Live) (moves : List Move) : Live := moves.foldl (fun l m => (l.step m).1) l

def deeds : Live → List Move → List Entry
  | _, [] => []
  | l, m :: rest => (l.step m).2 ++ (l.step m).1.deeds rest

/-- What closing returns, once it has returned. No thread that it waits for
returns an error. -/
def closed? (l : Live) : Option (Except Fault Unit) :=
  if l.closing && l.threads.all fun t => !t.owner.isAwaited || t.left then some (.ok ()) else none

end Live

end MeshConsole.Session
