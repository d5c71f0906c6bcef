import MeshConsole.Bench.Stage
import MeshConsole.Proofs.Session.Courses

/-!
# The threads behind a bench

A bench lets one wait end after the other, where the threads of a session take
their steps in any order. The bench is one such order: all that it does to its
session are moves of the session's threads (`Followed`). Here are the threads of
a bench (`Mirrors`), what keeps them, and the functions that begin and end no
process.
-/

namespace MeshConsole.Bench

open Session (Activity Live Owner Thread)

-- ---------------------------------------------------------------------------
-- What is beside the session
-- ---------------------------------------------------------------------------

/-- Nothing but what is observed, waited for and scripted has changed. -/
structure World.Beside (w next : World) : Prop where
  same : ∃ gateway dialer collector pending trace,
    next = { w with gateway, dialer, collector, pending, trace }
  isScripted : next.isScripted = w.isScripted

namespace World

variable {w v next : World}

theorem Beside.refl (w : World) : w.Beside w := ⟨⟨_, _, _, _, _, rfl⟩, rfl⟩

theorem Beside.trans (h : w.Beside v) (hnext : v.Beside next) : w.Beside next := by
  obtain ⟨⟨_, _, _, _, _, rfl⟩, hscripted⟩ := h
  obtain ⟨⟨_, _, _, _, _, rfl⟩, hscripted'⟩ := hnext
  exact ⟨⟨_, _, _, _, _, rfl⟩, hscripted'.trans hscripted⟩

theorem Beside.foldl {f : World → α → World} (h : ∀ (w : World) a, w.Beside (f w a)) (w : World)
    (as : List α) : w.Beside (as.foldl f w) := by
  induction as generalizing w with
  | nil => exact .refl w
  | cons a rest ih => exact (h w a).trans (ih (f w a))

theorem beside_observe (w : World) (entry : Entry) : w.Beside (w.observe entry) :=
  ⟨⟨_, _, _, _, _, rfl⟩, rfl⟩

theorem beside_log (w : World) (line : Text) : w.Beside (w.log line) := by
  unfold log
  split
  · exact .refl w
  · exact beside_observe w _

theorem beside_publish (w : World) (event : Telemetry.Event) : w.Beside (w.publish event) := by
  unfold publish
  split
  · exact .refl w
  · exact ⟨⟨_, _, _, _, _, rfl⟩, rfl⟩

theorem beside_tell (w : World) (notes : List Telemetry.Note) : w.Beside (w.tell notes) := by
  refine .foldl (fun w note => ?_) w notes
  cases note with
  | log line => exact beside_log w line
  | publish event => exact beside_publish w event

theorem beside_out (w : World) (lines : List Text) : w.Beside (w.out lines) :=
  .foldl (fun w line => beside_observe w (.out line)) w lines

theorem beside_pend (w : World) (p : Pending) : w.Beside (w.pend p) :=
  ⟨⟨_, _, _, _, _, rfl⟩, rfl⟩

theorem beside_dropPending (w : World) (drop : Wake → Bool) : w.Beside (w.dropPending drop) :=
  ⟨⟨_, _, _, _, _, rfl⟩, rfl⟩

theorem beside_dialNext (w : World) : w.Beside w.dialNext := by
  unfold dialNext
  split
  · split <;> exact beside_pend w _
  · rename_i dials hdialer
    have hscripted : w.isScripted = true := by rw [isScripted, hdialer]
    split
    · exact (beside_observe w _).trans (beside_pend _ _)
    · split <;> exact ⟨⟨_, _, _, _, _, rfl⟩, hscripted.symm⟩

theorem beside_rearm (w : World) (reads : List Read) : w.Beside (w.rearm reads) := by
  refine (beside_dropPending w isLinkWait).trans ?_
  simp only [rearm]
  split
  · exact beside_dialNext _
  · cases reads <;> exact beside_pend _ _
  · exact beside_pend _ _
  · exact .refl _

theorem beside_answerAfter (w : World) (id : Nat) (scopes : List Scope) (delay : Duration)
    (request : Rest.Request) (exchange : Session.Exchange) :
    w.Beside (w.answerAfter id scopes delay request exchange) := by
  simp only [answerAfter]
  split
  · exact beside_pend w _
  · split <;> exact beside_pend w _

theorem beside_exchangeScripted (w : World) (id : Nat) (scopes : List Scope) (path : Text)
    (request : Rest.Request) (routes : Routes) :
    w.Beside (w.exchangeScripted id scopes path request routes) := by
  unfold exchangeScripted
  split
  · exact beside_pend w _
  · rename_i reply left _
    have hleft : w.Beside { w with gateway := .scripted left } := ⟨⟨_, _, _, _, _, rfl⟩, rfl⟩
    exact hleft.trans (beside_answerAfter ..)

end World

-- ---------------------------------------------------------------------------
-- What counts
-- ---------------------------------------------------------------------------

/-- What of a bench has to do with its session. -/
structure Stand where
  now : Instant
  session : Session.State
  taker : Taker
  runNumber : Nat
  cancelled : List Scope
  processes : Table Nat Process
  nextProcess : Nat

def World.stand (w : World) : Stand where
  now := w.now
  session := w.session
  taker := w.taker
  runNumber := w.runNumber
  cancelled := w.cancelled
  processes := w.processes
  nextProcess := w.nextProcess

theorem World.Beside.stand {w next : World} (h : w.Beside next) : next.stand = w.stand := by
  obtain ⟨⟨_, _, _, _, _, rfl⟩, -⟩ := h
  rfl

-- ---------------------------------------------------------------------------
-- Threads and processes
-- ---------------------------------------------------------------------------

namespace Stand

def runScope (s : Stand) : Scope := .run s.runNumber

def pullScope (s : Stand) (number : Nat) : Scope := .pull s.runNumber number

def HasTask (s : Stand) (id : Nat) : Prop :=
  ∃ p task, s.processes.get? id = some p ∧ p.body = .task task

end Stand

/-- Who waits for a process and who cancels it fits the owner of the thread. -/
inductive Belongs (s : Stand) (ending : Ending) (scopes : List Scope) (t : Thread) : Prop
  | refresh : ending = .refresh → scopes = [s.runScope] → t.owner = .refresh →
      Belongs s ending scopes t
  | pull (number : Nat) : ending = .pull number → scopes = [s.pullScope number, s.runScope] →
      t.owner = .pull number → Belongs s ending scopes t
  | caller (step : Nat) : ending = .step number async → scopes = [.step step] →
      t.owner = .caller → (t.gaveUp = true ↔ .step step ∈ s.cancelled) →
      Belongs s ending scopes t

/-- Thread `i` waits where the process does. -/
def Carries (s : Stand) (l : Live) (i : Nat) (p : Process) (task : Session.Task Outcome) : Prop :=
  ∃ t u, l.threads[i]? = some t ∧ t.left = false ∧ t.work = .waiting u ∧ task.Twin u ∧
    Belongs s p.ending p.scopes t

/-- A started session with its threads, as a bench has it; `thread` tells which
thread carries a process out. -/
structure Mirrors (s : Stand) (l : Live) (thread : Nat → Nat) : Prop where
  sound : l.Sound
  started : l.started = true
  session : l.session = s.session
  taker : s.taker = .session
  cancelled : l.cancelled = true ↔ s.runScope ∈ s.cancelled
  pulls : s.session.run.CalledOff fun number => s.pullScope number ∈ s.cancelled
  loop : ∃ i : Nat, l.threads[i]? = some (Thread.resting .loop)
  ticker : ∃ i : Nat, l.threads[i]? = some (Thread.resting .ticker)
  carried : ∀ {id : Nat} {p task}, s.processes.get? id = some p → p.body = .task task →
    Carries s l (thread id) p task
  watches : ∀ {id : Nat} {p watch printer}, s.processes.get? id = some p →
    p.body = .watch watch printer → ∃ number async, p.ending = .step number async
  apart : ∀ {id other : Nat}, s.HasTask id → s.HasTask other → thread id = thread other → id = other
  numbered : ∀ id, s.nextProcess ≤ id → s.processes.get? id = none

/-- Whatever threads a session had before, some moves of them lead to what it
has afterwards. -/
def Followed (w next : World) : Prop :=
  ∀ l thread, Mirrors w.stand l thread → ∃ m thread', l.Leads m ∧ Mirrors next.stand m thread'

section
variable {w v next : World}

theorem Followed.of_stand (h : next.stand = w.stand) : Followed w next :=
  fun l thread hm => ⟨l, thread, .refl l, h ▸ hm⟩

theorem Followed.of_beside (h : w.Beside next) : Followed w next := .of_stand h.stand

theorem Followed.refl (w : World) : Followed w w := .of_stand rfl

theorem Followed.trans (h : Followed w v) (hnext : Followed v next) : Followed w next := by
  intro l thread hm
  obtain ⟨m, _, hleads, hm'⟩ := h l thread hm
  obtain ⟨k, thread', hleads', hk⟩ := hnext m _ hm'
  exact ⟨k, thread', hleads.trans hleads', hk⟩

theorem Followed.foldl {f : World → α → World} (h : ∀ w a, Followed w (f w a)) (w : World)
    (as : List α) : Followed w (as.foldl f w) := by
  induction as generalizing w with
  | nil => exact .refl w
  | cons a rest ih => exact (h w a).trans (ih (f w a))

end

-- ---------------------------------------------------------------------------
-- What stays
-- ---------------------------------------------------------------------------

section
variable {s next : Stand} {l m : Live} {thread : Nat → Nat} {t : Thread} {i : Nat} {p : Process}
  {ending : Ending} {scopes : List Scope}

theorem Belongs.owner (h : Belongs s ending scopes t) : t.owner ≠ .loop ∧ t.owner ≠ .ticker := by
  cases h with
  | refresh _ _ howner | pull _ _ _ howner | caller _ _ _ howner _ => simp [howner]

theorem Belongs.of_same (h : Belongs s ending scopes t) (hrun : next.runNumber = s.runNumber)
    (hsteps : ∀ step, .step step ∈ next.cancelled ↔ .step step ∈ s.cancelled) :
    Belongs next ending scopes t := by
  cases h with
  | refresh hending hscopes howner =>
    exact .refresh hending (by simpa [Stand.runScope, hrun] using hscopes) howner
  | pull number hending hscopes howner =>
    refine .pull number hending ?_ howner
    simpa [Stand.runScope, Stand.pullScope, hrun] using hscopes
  | caller step hending hscopes howner hgave =>
    exact .caller step hending hscopes howner (hgave.trans (hsteps step).symm)

theorem Carries.of_same {task : Session.Task Outcome} (h : Carries s l i p task)
    (hrun : next.runNumber = s.runNumber)
    (hsteps : ∀ step, .step step ∈ next.cancelled ↔ .step step ∈ s.cancelled) :
    Carries next l i p task := by
  obtain ⟨t, u, hi, hleft, hwork, htwin, hbelongs⟩ := h
  exact ⟨t, u, hi, hleft, hwork, htwin, hbelongs.of_same hrun hsteps⟩

/-- Process and thread are cancelled alike. -/
theorem Belongs.isCancelled (h : Belongs s ending scopes t) (hm : Mirrors s l thread)
    (hi : l.threads[i]? = some t) (hleft : t.left = false) :
    l.isCancelled t = scopes.any s.cancelled.contains := by
  have hrun : l.cancelled = s.cancelled.contains s.runScope := by
    rw [Bool.eq_iff_iff, hm.cancelled, List.contains_iff_mem]
  cases h with
  | refresh _ hscopes howner => simp [Live.isCancelled, howner, hscopes, hrun]
  | pull number _ hscopes howner =>
    have hpull : (l.session.run.pulls.any fun q => q.number == number && q.calledOff) =
        s.cancelled.contains (s.pullScope number) := by
      rw [Bool.eq_iff_iff, List.contains_iff_mem, List.any_eq_true, hm.session]
      constructor
      · rintro ⟨q, hq, hoff⟩
        rw [Bool.and_eq_true, beq_iff_eq] at hoff
        exact hoff.1 ▸ (hm.pulls.off q hq).mp hoff.2
      · intro hscope
        obtain ⟨q, hq, rfl, -⟩ := (hm.sound.pulls number).mp ⟨i, t, hi, howner, hleft⟩
        rw [hm.session] at hq
        exact ⟨q, hq, by simpa using (hm.pulls.off q hq).mpr hscope⟩
    simp [Live.isCancelled, howner, hscopes, hrun, hpull, Bool.or_comm]
  | caller step _ hscopes howner hgave =>
    have hcaller : t.gaveUp = s.cancelled.contains (.step step) := by
      rw [Bool.eq_iff_iff, hgave, List.contains_iff_mem]
    simp [Live.isCancelled, howner, hscopes, hcaller]

theorem mem_cancel_of_ne {w : World} {scope other : Scope} (h : scope ≠ other) :
    scope ∈ (w.cancel other).cancelled ↔ scope ∈ w.cancelled := by
  simp [World.cancel, h]

/-- Nobody's process is begun, nor does a caller give up. -/
structure Frame (s next : Stand) : Prop where
  taker : next.taker = s.taker
  runNumber : next.runNumber = s.runNumber
  steps : ∀ step, .step step ∈ next.cancelled ↔ .step step ∈ s.cancelled
  processes : ∀ {id : Nat} {p}, next.processes.get? id = some p → s.processes.get? id = some p
  numbered : s.nextProcess ≤ next.nextProcess

theorem Frame.hasTask {id : Nat} (h : Frame s next) (ht : next.HasTask id) : s.HasTask id := by
  obtain ⟨p, task, hp, hbody⟩ := ht
  exact ⟨p, task, h.processes hp, hbody⟩

/-- Thread `i` is the loop, the ticker, or carries a process out. -/
def Counts (s : Stand) (thread : Nat → Nat) (i : Nat) (t : Thread) : Prop :=
  t = .resting .loop ∨ t = .resting .ticker ∨ ∃ id, s.HasTask id ∧ thread id = i

theorem Mirrors.below {id : Nat} (hm : Mirrors s l thread)
    (hp : s.processes.get? id = some p) : id < s.nextProcess := by
  refine Nat.lt_of_not_le fun hle => ?_
  cases (hm.numbered id hle).symm.trans hp

/-- Only threads that do not count have changed. -/
theorem Mirrors.keeps (hm : Mirrors s l thread) (hframe : Frame s next) (hsound : m.Sound)
    (hstarted : m.started = true) (hsession : m.session = next.session)
    (hcancelled : m.cancelled = true ↔ next.runScope ∈ next.cancelled)
    (hpulls : next.session.run.CalledOff fun number => next.pullScope number ∈ next.cancelled)
    (hkept : ∀ (i : Nat) t, l.threads[i]? = some t → Counts next thread i t →
      m.threads[i]? = some t) :
    Mirrors next m thread where
  sound := hsound
  started := hstarted
  session := hsession
  taker := hframe.taker.trans hm.taker
  cancelled := hcancelled
  pulls := hpulls
  loop := by
    obtain ⟨i, hi⟩ := hm.loop
    exact ⟨i, hkept i _ hi (.inl rfl)⟩
  ticker := by
    obtain ⟨i, hi⟩ := hm.ticker
    exact ⟨i, hkept i _ hi (.inr (.inl rfl))⟩
  carried := by
    intro id p task hp hbody
    obtain ⟨t, u, hi, hleft, hwork, htwin, hbelongs⟩ := hm.carried (hframe.processes hp) hbody
    have hcounts : Counts next thread (thread id) t := .inr (.inr ⟨id, ⟨p, task, hp, hbody⟩, rfl⟩)
    exact ⟨t, u, hkept _ t hi hcounts, hleft, hwork, htwin,
      hbelongs.of_same hframe.runNumber hframe.steps⟩
  watches hp hbody := hm.watches (hframe.processes hp) hbody
  apart hid hother := hm.apart (hframe.hasTask hid) (hframe.hasTask hother)
  numbered id hid := by
    refine Option.eq_none_iff_forall_ne_some.mpr fun p hp => ?_
    have hbefore := hframe.processes hp
    rw [hm.numbered id (Nat.le_trans hframe.numbered hid)] at hbefore
    cases hbefore

end

-- ---------------------------------------------------------------------------
-- The link
-- ---------------------------------------------------------------------------

/-- What is left of a link's signals with the session and the scopes. -/
structure Signalled (w next : World) (signals : List Push.Signal) : Prop where
  stand : next.stand = { w.stand with
    session := w.session.takes w.now signals, cancelled := next.cancelled }
  cancelled : ∀ scope, scope ∈ next.cancelled ↔
    scope ∈ w.cancelled ∨ ∃ number, scope = w.pullScope number ∧ .unschedule number ∈ signals

theorem Signalled.append {w v next : World} (h : Signalled w v signals)
    (hmore : Signalled v next more) : Signalled w next (signals ++ more) := by
  have hstand := hmore.stand
  rw [h.stand] at hstand
  have hnow : v.now = w.now := congrArg Stand.now h.stand
  have hsession : v.session = w.session.takes w.now signals := congrArg Stand.session h.stand
  have hrun : v.runNumber = w.runNumber := congrArg Stand.runNumber h.stand
  refine ⟨?_, fun scope => ?_⟩
  · rw [hstand, hnow, hsession]
    simp [Session.State.takes, Push.delivered]
  · simp only [hmore.cancelled, h.cancelled, World.pullScope, hrun, List.mem_append, and_or_left,
      exists_or, or_assoc]

theorem signalled_one {w : World} (htaker : w.taker = .session) (signal : Push.Signal) :
    Signalled w (w.applySignal signal) [signal] := by
  have hstill (hstand : (w.applySignal signal).stand = w.stand)
      (htakes : w.session.takes w.now [signal] = w.session)
      (hnone : ∀ number, signal ≠ .unschedule number) :
      Signalled w (w.applySignal signal) [signal] := by
    have hcancelled : (w.applySignal signal).cancelled = w.cancelled :=
      congrArg Stand.cancelled hstand
    refine ⟨?_, fun scope => ?_⟩
    · rw [hstand, htakes, hcancelled]
      rfl
    · rw [hcancelled]
      refine (or_iff_left ?_).symm
      rintro ⟨number, -, hmem⟩
      exact hnone number (List.mem_singleton.mp hmem).symm
  cases signal with
  | log line => exact hstill (World.beside_log w line).stand rfl nofun
  | publish event => exact hstill (World.beside_publish w event).stand rfl nofun
  | deliver payload =>
    have hstand : (w.applySignal (.deliver payload)).stand =
        { w.stand with session := w.session.takes w.now [.deliver payload] } := by
      simp only [World.applySignal, World.takePayload, htaker]
      exact (World.beside_tell _ _).stand
    have hcancelled : (w.applySignal (.deliver payload)).cancelled = w.cancelled :=
      congrArg Stand.cancelled hstand
    refine ⟨by rw [hstand, hcancelled]; rfl, fun scope => ?_⟩
    rw [hcancelled]
    simp
  | closeSocket =>
    refine hstill ?_ rfl nofun
    simp only [World.applySignal]
    split <;> rfl
  | schedule number due => exact hstill rfl rfl nofun
  | unschedule number =>
    refine ⟨rfl, fun scope => ?_⟩
    show scope ∈ w.pullScope number :: w.cancelled ↔ _
    simp [or_comm]
  | reconcile number => exact hstill rfl rfl nofun

theorem signalled_foldl {w : World} (htaker : w.taker = .session) (signals : List Push.Signal) :
    Signalled w (signals.foldl World.applySignal w) signals := by
  induction signals generalizing w with
  | nil => exact ⟨rfl, by simp⟩
  | cons signal rest ih =>
    have hone := signalled_one htaker signal
    exact hone.append (ih ((congrArg Stand.taker hone.stand).trans htaker))

theorem run_takes (s : Session.State) (now : Instant) (signals : List Push.Signal) :
    (s.takes now signals).run = s.run := by
  unfold Session.State.takes
  induction Push.delivered signals generalizing s with
  | nil => rfl
  | cons payload rest ih =>
    rw [List.foldl_cons, ih, Session.run_takePayload]
    cases payload <;> rfl

/-- What is left once the link has been told of something. -/
theorem stand_tellLink {w : World} (htaker : w.taker = .session) (h : Push.Happening) :
    let next := w.session.run.step w.now h
    (w.tellLink h).stand = { w.stand with
        session := { w.session with run := next.1 }.takes w.now next.2
        cancelled := (w.tellLink h).cancelled } ∧
      ∀ scope, scope ∈ (w.tellLink h).cancelled ↔ scope ∈ w.cancelled ∨
        ∃ number, scope = w.pullScope number ∧ .unschedule number ∈ next.2 := by
  intro next
  have hsignalled := signalled_foldl (w := w.withRun next.1) htaker next.2
  exact ⟨hsignalled.stand, hsignalled.cancelled⟩

/-- The link is told of something, and the threads that count are there as
before. -/
theorem Mirrors.told {w : World} (hm : Mirrors w.stand l thread) (h : Push.Happening)
    (hsound : m.Sound) (hstarted : m.started = l.started) (hcancelled : m.cancelled = l.cancelled)
    (hsession : m.session = (w.tellLink h).session)
    (hkept : ∀ (i : Nat) t, l.threads[i]? = some t → Counts w.stand thread i t →
      m.threads[i]? = some t) : Mirrors (w.tellLink h).stand m thread := by
  obtain ⟨hstand, hscopes⟩ := stand_tellLink hm.taker h
  obtain ⟨_, hready⟩ := hm.sound.ready
  have hruns : w.session.run.Sound := congrArg Session.State.run hm.session ▸ hready.toSound
  have htaker : (w.tellLink h).taker = w.taker := congrArg Stand.taker hstand
  have hrun : (w.tellLink h).runNumber = w.runNumber := congrArg Stand.runNumber hstand
  have hprocesses : (w.tellLink h).processes = w.processes := congrArg Stand.processes hstand
  have hnumbered : (w.tellLink h).nextProcess = w.nextProcess := congrArg Stand.nextProcess hstand
  have hlink : (w.tellLink h).session.run = (w.session.run.step w.now h).1 :=
    (congrArg (fun s => s.session.run) hstand).trans (run_takes _ _ _)
  have hother {scope : Scope} (hscope : ∀ number, scope ≠ w.pullScope number) :
      scope ∈ (w.tellLink h).cancelled ↔ scope ∈ w.cancelled := by
    refine (hscopes scope).trans (or_iff_left ?_)
    rintro ⟨number, hpull, -⟩
    exact hscope number hpull
  have hframe : Frame w.stand (w.tellLink h).stand := {
    taker := htaker
    runNumber := hrun
    steps := fun step => hother nofun
    processes := fun hp => (congrArg (Table.get? _) hprocesses).symm.trans hp
    numbered := Nat.le_of_eq hnumbered.symm }
  have hcounts {i : Nat} {t : Thread} (h' : Counts (w.tellLink h).stand thread i t) :
      Counts w.stand thread i t :=
    h'.imp id (Or.imp id fun ⟨id, htask, hi⟩ => ⟨id, hframe.hasTask htask, hi⟩)
  refine hm.keeps hframe hsound (hstarted.trans hm.started) hsession ?_ ?_
    fun i t hi h' => hkept i t hi (hcounts h')
  · have hown : .run w.runNumber ∈ (w.tellLink h).cancelled ↔ .run w.runNumber ∈ w.cancelled :=
      hother nofun
    rw [hcancelled, hm.cancelled]
    show .run w.runNumber ∈ w.cancelled ↔ .run (w.tellLink h).runNumber ∈ (w.tellLink h).cancelled
    rw [hrun]
    exact hown.symm
  · have hpulls := hm.pulls.step hruns w.now h
    show (w.tellLink h).session.run.CalledOff fun number =>
      Scope.pull (w.tellLink h).runNumber number ∈ (w.tellLink h).cancelled
    rw [hlink]
    convert hpulls using 2 with number
    rw [hrun, hscopes]
    simp [World.pullScope, Stand.pullScope, World.stand]

/-- Whatever happens on its link, the session hears of it as its loop does. -/
theorem followed_hear (w : World) (h : Push.Happening) : Followed w (w.hear h) := by
  intro l thread hm
  have hcancelled : w.isCancelled [w.runScope] = l.cancelled := by
    have hrun := hm.cancelled
    rw [← List.contains_iff_mem, ← Bool.eq_iff_iff] at hrun
    simp only [World.isCancelled, List.any_cons, List.any_nil, Bool.or_false]
    exact hrun.symm
  unfold World.hear
  rw [hcancelled]
  cases hheard : Live.heard? l.cancelled h with
  | none => exact ⟨l, thread, .refl l, hm⟩
  | some heard =>
    obtain ⟨i, hi⟩ := hm.loop
    have hleads := Live.leads_hear hm.sound hi hheard w.now
    rw [hm.session] at hleads
    refine ⟨_, thread, hleads, hm.told heard (hleads.sound hm.sound) rfl rfl ?_ fun i t hi _ => hi⟩
    exact (congrArg Stand.session (stand_tellLink hm.taker heard).1).symm

-- ---------------------------------------------------------------------------
-- The push channel and the gateway
-- ---------------------------------------------------------------------------

section
variable (w : World)

theorem followed_breakLink : Followed w w.breakLink := by
  unfold World.breakLink
  split
  · have hbroken : Followed w { w with attached := false } := .of_stand rfl
    have hheard := followed_hear { w with attached := false } (.readFailed .socket)
    exact (hbroken.trans hheard).trans (.of_beside (World.beside_rearm _ _))
  · exact .refl w

theorem followed_pushFrame (frame : Text) : Followed w (w.pushFrame frame) := by
  have hclients := World.Beside.foldl
    (fun w client => World.beside_observe w (.clientFrame client frame)) w w.clients
  refine .trans (.of_beside hclients) ?_
  simp only [World.pushFrame]
  split
  · exact .refl _
  · split
    · exact followed_breakLink _
    · exact followed_hear _ _

theorem followed_simulatorEffect (effect : Simulator.Effect) :
    Followed w (w.simulatorEffect effect) := by
  cases effect with
  | log line =>
    refine .of_stand ?_
    simp only [World.simulatorEffect]
    split <;> rfl
  | push frame => exact followed_pushFrame w frame

theorem followed_applyEffects (result : Simulator × List Simulator.Effect) :
    Followed w (w.applyEffects result) :=
  .trans (.of_stand rfl) (.foldl followed_simulatorEffect { w with simulator := result.1 } result.2)

theorem followed_simulate (step : SimStep) : Followed w (w.simulate step) := by
  cases step with
  | setDevices | setNeighbors | drift | broadcast | seed => exact followed_applyEffects w _
  | setNetworks | failJobs | setVersion | setPolls => exact .of_stand rfl
  | pushRaw frame => exact followed_pushFrame w frame

theorem followed_dropClients : Followed w w.dropClients := by
  let closed := w.clients.foldl (fun w client => w.observe (.clientClosed client)) w
  have hclients : closed.stand = w.stand :=
    (World.Beside.foldl (fun w client => World.beside_observe w _) w w.clients).stand
  have hclosed : Followed w { closed with clients := [] } := .of_stand hclients
  exact hclosed.trans (followed_breakLink _)

variable (id : Nat) (scopes : List Scope)

theorem followed_exchangeSimulated (path : Text) (request : Rest.Request) :
    Followed w (w.exchangeSimulated id scopes path request) := by
  simp only [World.exchangeSimulated]
  split
  · exact .of_stand rfl
  · have hserved := followed_applyEffects w
      ((w.simulator.ask w.now request).simulator, (w.simulator.ask w.now request).effects)
    refine hserved.trans ?_
    split
    · exact .of_stand rfl
    · exact .of_beside (World.beside_answerAfter ..)

theorem followed_send (path : Text) (request : Rest.Request) :
    Followed w (w.send id scopes path request) := by
  refine .trans (.of_beside (World.beside_observe w (.request request))) ?_
  simp only [World.send]
  split
  · exact .of_stand rfl
  · split
    · exact followed_exchangeSimulated _ id scopes path request
    · exact .of_beside (World.beside_exchangeScripted ..)

theorem followed_call (call : Rest.Call) : Followed w (w.call id scopes call) := by
  unfold World.call
  split
  · exact .of_stand rfl
  · exact followed_send w id scopes _ _

end

end MeshConsole.Bench
