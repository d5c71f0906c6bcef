import MeshConsole.Proofs.Bench.Processes

/-!
# A stage and its threads

Whatever is played on a stage with a session are moves of that session's threads,
from its start on.
-/

namespace MeshConsole.Bench

open Session (Activity Live)

-- ---------------------------------------------------------------------------
-- One wait after the other
-- ---------------------------------------------------------------------------

/-- The clock and the waits are not the session's. -/
theorem followed_later (w : World) (now : Instant) (pending : List Pending) :
    Followed w { w with now, pending } :=
  fun l thread hm => ⟨l, thread, .refl l,
    hm.keeps ⟨rfl, rfl, fun _ => Iff.rfl, fun hp => hp, Nat.le_refl _⟩ hm.sound hm.started
      hm.session hm.cancelled hm.pulls fun _ _ hi _ => hi⟩

theorem followed_read (w : World) (event : ReadEvent) (rest : List Read) :
    Followed w (w.read event rest) := by
  cases event with
  | nothing => exact .of_beside (World.beside_rearm w rest)
  | frame | fails => exact (followed_hear w _).trans (.of_beside (World.beside_rearm _ _))

theorem followed_wake (w : World) (wake : Wake) : Followed w (w.wake wake) := by
  cases wake with
  | answer id a => exact followed_answer w id a
  | follow id path request =>
    simp only [World.wake]
    split
    · exact followed_send w id _ path request
    · exact .refl w
  | dialed reads =>
    have hattached : Followed w { w with attached := !w.isScripted } := .of_stand rfl
    exact (hattached.trans (followed_hear _ .dialed)).trans (.of_beside (World.beside_rearm _ _))
  | dialFailed | waited | linkCancelled =>
    exact (followed_hear w _).trans (.of_beside (World.beside_rearm _ _))
  | read event rest => exact followed_read w event rest
  | blocked => exact .refl w
  | pullDue number => exact followed_startPull w number
  | tick => exact followed_tick w
  | giveUp step => exact followed_giveUp w step
  | report id => exact followed_report w id
  | endReport id cancelled => exact followed_endReport w id cancelled
  | simulate step => exact followed_simulate w step
  | dropClients => exact followed_dropClients w

theorem followed_step {w next : World} (h : w.step? limit = some next) : Followed w next := by
  obtain ⟨⟨p, others⟩, -, h⟩ := Option.bind_eq_some_iff.mp h
  obtain ⟨due, -, h⟩ := Option.bind_eq_some_iff.mp h
  split at h
  · cases h
  · cases h
    exact (followed_later w _ others).trans (followed_wake _ p.wake)

theorem followed_run (stop : World → Bool) (limit : Option Instant) (fuel : Nat) (w : World) :
    Followed w (World.run stop limit fuel w) := by
  induction fuel generalizing w with
  | zero => exact .refl w
  | succ fuel ih =>
    unfold World.run
    split
    · exact .refl w
    · split
      · exact .refl w
      · rename_i next hnext
        exact (followed_step hnext).trans (ih next)

theorem followed_settle (w : World) : Followed w w.settle := followed_run _ _ _ w

theorem followed_advance (w : World) (time : Duration) : Followed w (w.advance time) :=
  (followed_run _ _ _ w).trans (followed_later _ _ _)

-- ---------------------------------------------------------------------------
-- Steps of a stage
-- ---------------------------------------------------------------------------

theorem followed_openScope (w : World) (manner : World.Manner) :
    Followed w (w.openScope manner).1 ∧ (w.openScope manner).2 = .step w.nextScope := by
  have hnew : Followed w w.newScope.1 := .of_stand rfl
  have hgone : Followed w (if manner.cancelled then w.newScope.1.cancel (.step w.nextScope)
      else w.newScope.1) := by
    split
    · exact hnew.trans (followed_giveUp _ _)
    · exact hnew
  simp only [World.openScope]
  split
  · exact ⟨hgone.trans (.of_stand rfl), rfl⟩
  · exact ⟨hgone, rfl⟩

theorem followed_await (w : World) (manner : World.Manner) : Followed w (w.await manner).1 := by
  unfold World.await
  split
  · exact .refl w
  · exact followed_run _ _ _ w

/-- What a caller has the session do. -/
theorem followed_perform (w : World) (manner : World.Manner) {a : Activity Outcome}
    (c : Session.Commission) (htwin : a.Twin c.activity) :
    Followed w (w.perform manner a).1 := by
  obtain ⟨hopen, hscope⟩ := followed_openScope w manner
  have hspawn :=
    followed_spawn (w.openScope manner).1 c htwin w.nextScope manner.number manner.async
  rw [← hscope] at hspawn
  exact (hopen.trans hspawn).trans (followed_await _ manner)

/-- A watch has begun within a scope, and nobody has waited for it yet. -/
def World.watching (w : World) (scope : Scope) (manner : World.Manner) (watch : Status.Watch)
    (stopAfter : Option Duration) : World :=
  let id := w.nextProcess
  let process : Process := {
    body := .watch watch {}, scopes := [scope], ending := .step manner.number manner.async }
  let shown := World.out { w with
    nextProcess := id + 1, processes := w.processes.set id process } watch.openingLines
  let stopping :=
    stopAfter.elim shown fun time => shown.pendAfter time [] (.endReport id false) none
  if stopping.isCancelled [scope] then stopping.pendNow (.endReport id true)
  else stopping.pendReport id process watch

theorem watch_eq (w : World) (manner : World.Manner) (watch : Status.Watch)
    (stopAfter : Option Duration) :
    let opened := w.openScope manner
    w.watch manner watch stopAfter =
      (opened.1.watching opened.2 manner watch stopAfter).await manner := by
  cases stopAfter <;> rfl

theorem followed_watching (w : World) (scope : Scope) (manner : World.Manner)
    (watch : Status.Watch) (stopAfter : Option Duration) :
    Followed w (w.watching scope manner watch stopAfter) := by
  let p : Process := {
    body := .watch watch {}, scopes := [scope], ending := .step manner.number manner.async }
  let begun : World := { w with
    nextProcess := w.nextProcess + 1, processes := w.processes.set w.nextProcess p }
  have hbegun : Followed w begun := fun l thread hm =>
    ⟨l, thread, .refl l, hm.watching rfl rfl (Nat.lt_succ_self _) (Nat.le_succ _)⟩
  let shown : World := begun.out watch.openingLines
  have hshown : Followed w shown := hbegun.trans (.of_beside (World.beside_out begun _))
  have hstopping : Followed shown (stopAfter.elim shown fun time =>
      shown.pendAfter time [] (.endReport w.nextProcess false) none) := by
    cases stopAfter with
    | none => exact .refl shown
    | some time => exact .of_beside (World.beside_pend ..)
  refine (hshown.trans hstopping).trans ?_
  simp only [World.watching]
  split
  · exact .of_beside (World.beside_pend ..)
  · exact .of_beside (World.beside_pend ..)

theorem followed_watch (w : World) (manner : World.Manner) (watch : Status.Watch)
    (stopAfter : Option Duration) : Followed w (w.watch manner watch stopAfter).1 := by
  have hopened := (followed_openScope w manner).1
  have hbegun := hopened.trans (followed_watching _ (w.openScope manner).2 manner watch stopAfter)
  rw [watch_eq]
  exact hbegun.trans (followed_await _ manner)

theorem followed_close (w : World) : Followed w w.close := by
  intro l thread hm
  obtain ⟨m, thread', hleads, hm'⟩ := followed_settle _ _ _ hm.closes
  exact ⟨m, thread', .trans ⟨[.close], rfl⟩ hleads, hm'⟩

/-- The step is one of the session's: it hands no frame past the link, starts
nothing anew, and has the session do only what a caller may commission. -/
def Step.IsProper : Step → Prop
  | .perform a => ∃ c : Session.Commission, a.Twin c.activity
  | .inject _ => False
  | .start => False
  | _ => True

theorem followed_carryOut (s : Stage) (manner : World.Manner) {step : Step} (h : step.IsProper) :
    Followed s.world (s.carryOut manner step).1.world := by
  cases step with
  | perform a =>
    obtain ⟨c, htwin⟩ := h
    exact followed_perform s.world manner c htwin
  | inject | start => exact h.elim
  | watch watch stopAfter => exact followed_watch s.world manner watch stopAfter
  | advance time => exact followed_advance s.world time
  | close =>
    show Followed s.world (if s.started then s.world.close else s.world)
    split
    · exact followed_close s.world
    · exact .refl _
  | serve request =>
    cases request with
    | ok request => exact followed_applyEffects s.world _
    | error why => exact .refl _
  | simulate step => exact followed_simulate s.world step
  | dropClients => exact followed_dropClients s.world
  | seed count =>
    simp only [Stage.carryOut, World.seed?]
    cases World.seedRoom count with
    | error why => exact .refl _
    | ok room => exact followed_simulate s.world _
  | snapshot =>
    simp only [Stage.carryOut]
    split <;> exact .refl _
  | stopTelemetry =>
    simp only [Stage.carryOut, Stage.stopTelemetry]
    split
    · exact .of_stand rfl
    · exact .refl _
  | publish | startTelemetry | connect => exact .of_stand rfl
  | link | devices | linkQuality | isActive | simulatorState | print => exact .refl _

theorem followed_trace (w : World) (trace : List (Instant × Entry)) :
    Followed w { w with trace } := .of_stand rfl

theorem followed_play (s : Stage) (manner : World.Manner) {step : Step} (h : step.IsProper) :
    Followed s.world (s.play manner step).1.world :=
  ((followed_carryOut s manner h).trans (followed_settle _)).trans (followed_trace _ [])

/-- A stage after steps one behind the other. -/
def Stage.plays (s : Stage) (steps : List (World.Manner × Step)) : Stage :=
  steps.foldl (fun s step => (s.play step.1 step.2).1) s

theorem followed_plays (s : Stage) (steps : List (World.Manner × Step))
    (h : ∀ step ∈ steps, step.2.IsProper) : Followed s.world (s.plays steps).world := by
  induction steps generalizing s with
  | nil => exact .refl s.world
  | cons step rest ih =>
    rw [List.forall_mem_cons] at h
    exact (followed_play s step.1 h.1).trans (ih _ h.2)

/-- Closing a stage is closing the session, and what follows from that. -/
theorem closes_play {s : Stage} {l : Live} {thread : Nat → Nat}
    (hm : Mirrors s.world.stand l thread) (hstarted : s.started = true) (manner : World.Manner) :
    ∃ m thread', (l.step .close).1.Leads m ∧
      Mirrors (s.play manner .close).1.world.stand m thread' := by
  have hclose : (s.carryOut manner .close).1.world = s.world.close := by
    show (if s.started then s.world.close else s.world) = s.world.close
    rw [hstarted, if_pos rfl]
  have hclosed : Followed (s.world.cancel s.world.runScope) (s.play manner .close).1.world := by
    show Followed _ { (s.carryOut manner .close).1.world.settle with trace := [] }
    rw [hclose]
    exact (followed_settle _).trans ((followed_settle _).trans (followed_trace _ []))
  exact hclosed _ _ hm.closes

-- ---------------------------------------------------------------------------
-- From the start
-- ---------------------------------------------------------------------------

/-- A bench with a session of these settings, on which nothing has been done
yet. -/
structure World.IsNew (w : World) (settings : Session.Settings) : Prop where
  session : Session.State.new settings = .ok w.session
  taker : w.taker = .session
  cancelled : w.cancelled = []
  processes : w.processes = []

theorem eq_of_new {settings : Session.Settings} {s : Session.State}
    (h : Session.State.new settings = .ok s) :
    ∃ client url, s = (Live.of client url settings).session := by
  unfold Session.State.new at h
  split at h
  · cases h
  · simp only at h
    split at h
    · cases h
    · cases h
      exact ⟨_, _, rfl⟩

theorem mirrors_startSession {w : World} {settings : Session.Settings} (h : w.IsNew settings)
    (thread : Nat → Nat) : ∃ client url, Mirrors w.startSession.stand
      ((Live.of client url settings).step (.start false)).1 thread := by
  obtain ⟨hnew, htaker, hcancelled, hprocesses⟩ := h
  obtain ⟨client, url, hsession⟩ := eq_of_new hnew
  refine ⟨client, url, ?_⟩
  let l : Live := Live.of client url settings
  have hstand : w.startSession.stand = { w.stand with
      session := { w.session with run := .start w.session.run.link w.session.run.handler false }
      runNumber := w.nextScope } := (World.beside_rearm _ _).stand
  have hnone (scope : Scope) : scope ∉ w.cancelled := by
    rw [hcancelled]
    exact List.not_mem_nil
  have hempty (id : Nat) : w.processes.get? id = none := by
    rw [hprocesses]
    rfl
  have hsound : (l.step (.start false)).1.Sound :=
    Live.sound_after client url settings [.start false]
  rw [hstand]
  refine ⟨hsound, rfl, ?_, htaker, ?_, ?_, ⟨0, rfl⟩, ⟨1, rfl⟩, ?_, ?_, ?_, fun id _ => hempty id⟩
  · rw [hsession]
    rfl
  · exact iff_of_false nofun (hnone _)
  · exact ⟨nofun, fun n _ => hnone _⟩
  · intro id p task hp
    cases (hempty id).symm.trans hp
  · intro id p watch printer hp
    cases (hempty id).symm.trans hp
  · rintro id other ⟨p, task, hp, -⟩
    cases (hempty id).symm.trans hp

/-- Whatever a session on a bench is had to do, it stands as some moves of its
threads make it stand. -/
theorem mirrors_plays {s : Stage} {settings : Session.Settings} (h : s.world.IsNew settings)
    (hsession : s.hasSession = true) (steps : List (World.Manner × Step))
    (hproper : ∀ step ∈ steps, step.2.IsProper) :
    ∃ client url moves thread, Mirrors ((s.play {} .start).1.plays steps).world.stand
      ((Live.of client url settings).after moves) thread := by
  have hstarted : (s.carryOut {} .start).1.world = s.world.startSession := by
    show (if s.hasSession then s.world.startSession else s.world.startLink false) = _
    rw [hsession, if_pos rfl]
  have hfollowed : Followed s.world.startSession ((s.play {} .start).1.plays steps).world := by
    refine .trans ?_ (followed_plays _ steps hproper)
    show Followed _ { (s.carryOut {} .start).1.world.settle with trace := [] }
    rw [hstarted]
    exact (followed_settle _).trans (followed_trace _ [])
  obtain ⟨client, url, hmirrors⟩ := mirrors_startSession h id
  obtain ⟨m, thread, ⟨moves, rfl⟩, hm⟩ := hfollowed _ _ hmirrors
  exact ⟨client, url, .start false :: moves, thread, hm⟩

end MeshConsole.Bench
