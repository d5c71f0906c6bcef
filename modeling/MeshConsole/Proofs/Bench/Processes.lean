import MeshConsole.Proofs.Bench.Mirror

/-!
# Processes and threads

Every process that waits is carried out by one thread of the session: it begins
with one, an answer is a run of its thread, and it ends when the thread has left.
-/

namespace MeshConsole.Bench

open Session (Activity Live Owner Thread)

-- ---------------------------------------------------------------------------
-- Processes
-- ---------------------------------------------------------------------------

section
variable {s : Stand} {l m : Live} {thread : Nat → Nat} {t : Thread} {id i : Nat} {p : Process}
  {task : Session.Task Outcome} {ending : Ending} {scopes : List Scope}

theorem Belongs.work (h : Belongs s ending scopes t) (work : Session.Work Bool) :
    Belongs s ending scopes { t with work } := by
  cases h with
  | refresh hending hscopes howner => exact .refresh hending hscopes howner
  | pull number hending hscopes howner => exact .pull number hending hscopes howner
  | caller step hending hscopes howner hgave => exact .caller step hending hscopes howner hgave

/-- A process has come to a task, in thread `i`; whether it stays is open. -/
structure Arrives (s : Stand) (l : Live) (thread : Nat → Nat) (id i : Nat) (p : Process)
    (task : Session.Task Outcome) : Prop where
  others : Mirrors { s with processes := s.processes.erase id } l thread
  carries : Carries s l i p task
  free : ∀ other, other ≠ id → s.HasTask other → thread other ≠ i
  numbered : id < s.nextProcess

theorem hasTask_erase {other : Nat}
    (h : ({ s with processes := s.processes.erase id } : Stand).HasTask other) :
    other ≠ id ∧ s.HasTask other := by
  obtain ⟨p, task, hp, hbody⟩ := h
  rw [Table.get?_erase] at hp
  split at hp
  · cases hp
  · rename_i hne
    exact ⟨Ne.symm hne, p, task, hp, hbody⟩

/-- A thread that carries out none of the other processes does not count. -/
theorem kept_set {u : Thread} (hi : l.threads[i]? = some t)
    (howner : t.owner ≠ .loop ∧ t.owner ≠ .ticker)
    (hfree : ∀ other, s.HasTask other → thread other ≠ i) {j : Nat} {v : Thread}
    (hj : l.threads[j]? = some v) (hcounts : Counts s thread j v) :
    (l.threads.set i u)[j]? = some v := by
  have hne : i ≠ j := by
    rintro rfl
    cases hi.symm.trans hj
    rcases hcounts with rfl | rfl | ⟨other, htask, hthread⟩
    · exact howner.1 rfl
    · exact howner.2 rfl
    · exact hfree other htask hthread
  rw [List.getElem?_set_ne hne]
  exact hj

/-- The process stays where it has come to. -/
theorem Arrives.stays (h : Arrives s l thread id i p task) :
    Mirrors { s with processes := s.processes.set id { p with body := .task task } } l
      (Function.update thread id i) := by
  obtain ⟨hm, ⟨t, u, hi, hleft, hwork, htwin, hbelongs⟩, hfree, hid⟩ := h
  let next : Stand := { s with processes := s.processes.set id { p with body := .task task } }
  let before : Stand := { s with processes := s.processes.erase id }
  have hother {other : Nat} (hne : other ≠ id) :
      next.processes.get? other = before.processes.get? other := by
    simp [next, before, Ne.symm hne]
  have hself : next.processes.get? id = some { p with body := .task task } := by simp [next]
  have htask {other : Nat} (hne : other ≠ id) (h : next.HasTask other) : before.HasTask other := by
    obtain ⟨q, task, hq, hbody⟩ := h
    exact ⟨q, task, hother hne ▸ hq, hbody⟩
  refine ⟨hm.sound, hm.started, hm.session, hm.taker, hm.cancelled, hm.pulls, hm.loop, hm.ticker,
    ?_, ?_, ?_, ?_⟩
  · intro other q task' hq hbody
    by_cases hne : other = id
    · subst hne
      cases hself.symm.trans hq
      cases hbody
      rw [Function.update_self]
      exact ⟨t, u, hi, hleft, hwork, htwin, hbelongs.of_same rfl fun _ => Iff.rfl⟩
    · rw [Function.update_of_ne hne]
      exact (hm.carried (hother hne ▸ hq) hbody).of_same rfl fun _ => Iff.rfl
  · intro other q watch printer hq hbody
    by_cases hne : other = id
    · subst hne
      cases hself.symm.trans hq
      cases hbody
    · exact hm.watches (hother hne ▸ hq) hbody
  · intro first second hfirst hsecond hthread
    by_cases hne : first = id <;> by_cases hne' : second = id
    · exact hne.trans hne'.symm
    · subst hne
      rw [Function.update_self, Function.update_of_ne hne'] at hthread
      exact absurd hthread.symm (hfree second hne' (hasTask_erase (htask hne' hsecond)).2)
    · subst hne'
      rw [Function.update_self, Function.update_of_ne hne] at hthread
      exact absurd hthread (hfree first hne (hasTask_erase (htask hne hfirst)).2)
    · rw [Function.update_of_ne hne, Function.update_of_ne hne'] at hthread
      exact hm.apart (htask hne hfirst) (htask hne' hsecond) hthread
  · intro other hlater
    have hne : other ≠ id := by
      rintro rfl
      exact absurd hid (Nat.not_lt.mpr hlater)
    exact (hother hne).trans (hm.numbered other hlater)

theorem stand_finish {w : World} (hending : p.ending = .step number async) (id : Nat)
    (outcome : Outcome) :
    (w.finish id p outcome).stand = { w.stand with processes := w.processes.erase id } := by
  simp only [World.finish, hending]
  split <;> rfl

theorem Arrives.finish {w : World} (h : Arrives w.stand l thread id i p (.finished value))
    (outcome : Outcome) :
    ∃ m, l.Leads m ∧ Mirrors (w.finish id p outcome).stand m thread := by
  obtain ⟨hm, ⟨t, u, hi, hleft, hwork, htwin, hbelongs⟩, hfree, -⟩ := h
  let v : World := { w with processes := w.processes.erase id }
  have hv : Mirrors v.stand l thread := hm
  have hgone : ∃ y, t.work.outcome? = some y := by
    cases htwin with
    | finished _ y => exact ⟨y, by rw [hwork]; rfl⟩
  obtain ⟨y, houtcome⟩ := hgone
  have hkept (j : Nat) (u : Thread) (hj : l.threads[j]? = some u)
      (hcounts : Counts v.stand thread j u) :
      (l.threads.set i { t with left := true })[j]? = some u :=
    kept_set hi hbelongs.owner
      (fun other htask => hfree other (hasTask_erase htask).1 (hasTask_erase htask).2) hj hcounts
  -- A thread that returns from anything but a pull leaves the session alone.
  have hothers (hstep : l.step? (.leave i w.now) = some (l.put i { t with left := true }, []))
      (hstand : (w.finish id p outcome).stand = v.stand) :
      ∃ m, l.Leads m ∧ Mirrors (w.finish id p outcome).stand m thread := by
    have hleads := Live.Leads.of_step hstep
    refine ⟨_, hleads, ?_⟩
    rw [hstand]
    exact hv.keeps ⟨rfl, rfl, fun _ => Iff.rfl, fun hp => hp, Nat.le_refl _⟩ (hleads.sound hv.sound)
      hv.started hv.session hv.cancelled hv.pulls hkept
  cases hbelongs with
  | refresh hending _ howner =>
    refine hothers ?_ (by simp only [World.finish, hending]; rfl)
    simp [Live.step?, Live.leave?, hi, houtcome, hleft, howner]
  | caller step hending _ howner =>
    refine hothers ?_ (stand_finish hending id outcome)
    simp [Live.step?, Live.leave?, hi, houtcome, hleft, howner]
  | pull number hending _ howner =>
    have hfinish : w.finish id p outcome = v.tellLink (.pullReturned number) := by
      simp only [World.finish, hending]
      rfl
    have hstep : l.step? (.leave i w.now) =
        some ((l.withRun (l.session.run.step w.now (.pullReturned number)).1).put i
          { t with left := true }, []) := by
      simp [Live.step?, Live.leave?, hi, houtcome, hleft, howner]
    have hleads := Live.Leads.of_step hstep
    rw [hfinish]
    refine ⟨_, hleads, hv.told (.pullReturned number) (hleads.sound hv.sound) rfl rfl ?_ hkept⟩
    have hsession := congrArg Stand.session (stand_tellLink hv.taker (.pullReturned number)).1
    refine Eq.trans ?_ hsession.symm
    have hsame : l.session = w.session := hv.session
    simp [Live.put, Live.withRun, hsame, Session.State.takes, Push.delivered, Push.Run.step]

theorem Arrives.proceed {w : World} {stop : Session.Stop Outcome}
    (h : Arrives { w.stand with session := stop.state } l thread id i p stop.task) :
    ∃ m thread', l.Leads m ∧ Mirrors (w.proceed id p stop).stand m thread' := by
  let v : World := { w with session := stop.state }.tell stop.notes
  have hv : v.stand = { w.stand with session := stop.state } := (World.beside_tell _ _).stand
  have harrives : Arrives v.stand l thread id i p stop.task := hv ▸ h
  simp only [World.proceed]
  split
  · rename_i outcome htask
    rw [htask] at harrives
    obtain ⟨m, hleads, hm⟩ := harrives.finish outcome
    exact ⟨m, thread, hleads, hm⟩
  · have hstays := harrives.stays
    let stays : World := { v with
      processes := v.processes.set id { p with body := .task stop.task } }
    refine (?_ : Followed stays _) l _ hstays
    split
    · exact .refl _
    · exact followed_call _ id _ _
    · split <;> exact .of_stand rfl

theorem frame_erase (s : Stand) (id : Nat) (state : Session.State) {n : Nat}
    (hnumbered : s.nextProcess ≤ n) :
    Frame s { s with session := state, processes := s.processes.erase id, nextProcess := n } := by
  refine ⟨rfl, rfl, fun _ => Iff.rfl, fun {other q} hq => ?_, hnumbered⟩
  rw [Table.get?_erase] at hq
  split at hq
  · cases hq
  · exact hq

/-- A thread has gone on to where it waits next, and its process to a twin. -/
theorem Mirrors.arrives {u : Session.Task Bool} (hm : Mirrors s l thread)
    (hi : l.threads[i]? = some t) (hleft : t.left = false)
    (hbelongs : Belongs s p.ending p.scopes t)
    (hfree : ∀ other, other ≠ id → s.HasTask other → thread other ≠ i)
    (hleads : l.Leads (l.reach i t state (.waiting u))) (hrun : state.run = l.session.run)
    (htwin : task.Twin u) (hnumbered : s.nextProcess ≤ n) (hid : id < n) :
    Arrives { s with session := state, nextProcess := n } (l.reach i t state (.waiting u)) thread
      id i p task where
  others := by
    refine hm.keeps (frame_erase s id state hnumbered) (hleads.sound hm.sound) hm.started rfl
      hm.cancelled ?_ fun j v hj hcounts =>
        kept_set hi hbelongs.owner (fun other htask => ?_) hj hcounts
    · rw [hrun, hm.session]
      exact hm.pulls
    · obtain ⟨hne, htask⟩ := hasTask_erase htask
      exact hfree other hne htask
  carries := ⟨{ t with work := .waiting u }, u, Live.getElem?_reach hi _ _, hleft, rfl, htwin,
    (hbelongs.work _).of_same rfl fun _ => Iff.rfl⟩
  free := hfree
  numbered := hid

/-- A process that takes an answer in goes on like its thread. -/
theorem followed_answer (w : World) (id : Nat) (a : Session.Answer) :
    Followed w (w.answer id a) := by
  intro l thread hm
  simp only [World.answer]
  split
  · rename_i p hp
    split
    · rename_i task hbody
      split
      · rename_i htakes
        obtain ⟨t, u, hi, hleft, hwork, htwin, hbelongs⟩ := hm.carried hp hbody
        have hcancelled : w.isCancelled p.scopes = l.isCancelled t :=
          (hbelongs.isCancelled hm hi hleft).symm
        have hsession : w.session = l.session := hm.session.symm
        rw [hcancelled, ← htwin.need] at htakes
        obtain ⟨hleads, hrun⟩ := Live.leads_answer hm.sound hi hwork htakes w.now
        obtain ⟨hstate, -, htask⟩ := htwin.answer w.now (l.isCancelled t) l.session a
        have hfree (other : Nat) (hne : other ≠ id) (hother : w.stand.HasTask other) :
            thread other ≠ thread id :=
          fun hthread => hne (hm.apart hother ⟨p, task, hp, hbody⟩ hthread)
        rw [hstate] at hleads hrun
        rw [hcancelled, hsession]
        obtain ⟨m, thread', hmore, hm'⟩ := Arrives.proceed
          (hm.arrives hi hleft hbelongs hfree hleads hrun htask (Nat.le_refl _) (hm.below hp))
        exact ⟨m, thread', hleads.trans hmore, hm'⟩
      · exact ⟨l, thread, .refl l, hm⟩
    · exact ⟨l, thread, .refl l, hm⟩
  · exact ⟨l, thread, .refl l, hm⟩

/-- An activity starts in a thread that has just come for it. -/
theorem Mirrors.spawns {w : World} {a : Activity Outcome} {b : Activity Bool}
    (hm : Mirrors w.stand l thread) (hi : l.threads[i]? = some t) (hleft : t.left = false)
    (hwork : t.work = .acting b)
    (htwin : a.Twin b) (hbelongs : Belongs w.stand ending scopes t)
    (hfree : ∀ other, w.stand.HasTask other → thread other ≠ i) :
    ∃ m thread', l.Leads m ∧ Mirrors (w.spawn a scopes ending).stand m thread' := by
  have hcancelled : w.isCancelled scopes = l.isCancelled t :=
    (hbelongs.isCancelled hm hi hleft).symm
  have hsession : w.session = l.session := hm.session.symm
  obtain ⟨hleads, hrun⟩ := Live.leads_run hm.sound hi hwork w.now
  obtain ⟨hstate, -, htask⟩ := htwin.run w.now (l.isCancelled t) l.session
  rw [hstate] at hleads hrun
  rw [← hcancelled, ← hsession] at hleads hrun htask
  have hrun' : (a.run w.now (w.isCancelled scopes) w.session).state.run = l.session.run :=
    hsession ▸ hrun
  let stop := a.run w.now (w.isCancelled scopes) w.session
  let p : Process := { body := .task stop.task, scopes, ending }
  let v : World := { w with nextProcess := w.nextProcess + 1 }
  have harrives : Arrives { v.stand with session := stop.state } _ thread w.nextProcess i p
      stop.task :=
    hm.arrives hi hleft hbelongs (fun other _ => hfree other) hleads hrun' htask
      (Nat.le_succ w.nextProcess) (Nat.lt_succ_self w.nextProcess)
  obtain ⟨m, thread', hmore, hm'⟩ := harrives.proceed
  exact ⟨m, thread', hleads.trans hmore, hm'⟩

/-- A thread has come that carries nothing out yet. -/
theorem Mirrors.comes {u : Thread} (hm : Mirrors s l thread) (hleads : l.Leads m)
    (hthreads : m.threads = l.threads ++ [u]) (hstarted : m.started = l.started)
    (hcancelled : m.cancelled = l.cancelled)
    (hrun : m.session.run.CalledOff fun number => s.pullScope number ∈ s.cancelled) :
    Mirrors { s with session := m.session } m thread := by
  refine hm.keeps ⟨rfl, rfl, fun _ => Iff.rfl, fun hp => hp, Nat.le_refl _⟩
    (hleads.sound hm.sound) (hstarted.trans hm.started) rfl (hcancelled ▸ hm.cancelled) hrun
    fun j t hj _ => ?_
  rw [hthreads, List.getElem?_append_left (List.getElem?_eq_some_iff.mp hj).1]
  exact hj

/-- The place behind the last thread is nobody's. -/
theorem Mirrors.next_free (hm : Mirrors s l thread) (other : Nat) (h : s.HasTask other) :
    thread other ≠ l.threads.length := by
  obtain ⟨p, task, hp, hbody⟩ := h
  obtain ⟨t, u, hi, -⟩ := hm.carried hp hbody
  exact Nat.ne_of_lt (List.getElem?_eq_some_iff.mp hi).1

/-- A caller sets about what a commission does. -/
theorem followed_spawn (w : World) {a : Activity Outcome} (c : Session.Commission)
    (htwin : a.Twin c.activity) (step number : Nat) (async : Bool) :
    Followed w (w.spawn a [.step step] (.step number async)) := by
  intro l thread hm
  let u : Thread := { owner := .caller, work := .acting c.activity }
  let m : Live := l.spawn .caller c.activity
  have hleads : l.Leads m := .of_step (rfl : l.step? (.commission c) = some (m, []))
  have hcome : Mirrors w.stand m thread := by
    have hcome := hm.comes hleads rfl rfl rfl (hm.session ▸ hm.pulls)
    rw [show m.session = w.session from hm.session] at hcome
    exact hcome
  have hi : m.threads[l.threads.length]? = some u := List.getElem?_concat_length
  by_cases hgone : .step step ∈ w.cancelled
  · -- The caller had given up before it came to the session.
    have howner : Owner.caller ≠ .loop ∧ Owner.caller ≠ .ticker := by decide
    have hgiveUp : m.step? (.giveUp l.threads.length) =
        some (m.put l.threads.length { u with gaveUp := true }, []) := by
      simp [Live.step?, hi, u]
    have hgaveUp := Live.Leads.of_step hgiveUp
    have hgiven : Mirrors w.stand (m.put l.threads.length { u with gaveUp := true }) thread :=
      hcome.keeps ⟨rfl, rfl, fun _ => Iff.rfl, fun hp => hp, Nat.le_refl _⟩
        (hgaveUp.sound hcome.sound) hcome.started hcome.session hcome.cancelled hcome.pulls
        fun j t hj hcounts => kept_set hi howner hm.next_free hj hcounts
    have hi' : (m.put l.threads.length { u with gaveUp := true }).threads[l.threads.length]? =
        some { u with gaveUp := true } :=
      List.getElem?_set_self (List.getElem?_eq_some_iff.mp hi).1
    obtain ⟨k, thread', hmore, hk⟩ := hgiven.spawns hi' rfl rfl htwin
      (.caller step rfl rfl rfl ⟨fun _ => hgone, fun _ => rfl⟩) hm.next_free
    exact ⟨k, thread', (hleads.trans hgaveUp).trans hmore, hk⟩
  · obtain ⟨k, thread', hmore, hk⟩ := hcome.spawns hi rfl rfl htwin
      (.caller step rfl rfl rfl
        ⟨fun h => absurd h Bool.false_ne_true, fun h => absurd h hgone⟩) hm.next_free
    exact ⟨k, thread', hleads.trans hmore, hk⟩

/-- A pull that waits for its instant is started by the session as well. -/
theorem followed_startPull (w : World) (number : Nat) : Followed w (w.startPull number) := by
  intro l thread hm
  have hstep (r : Push.Run) : r.step w.now (.pullDue number) = r.onPullDue number := by
    simp [Push.Run.step]
  have htaker : w.taker = .session := hm.taker
  have hsession : l.session = w.session := hm.session
  by_cases hany : w.session.run.pulls.any fun p => p.number == number && p.due?.isSome
  · let run : Push.Run := { w.session.run with pulls := w.session.run.pulls.map fun p =>
      if p.number = number then { p with stage := .running } else p }
    have hdue : w.session.run.step w.now (.pullDue number) = (run, [.reconcile number]) := by
      rw [hstep, Push.Run.onPullDue, if_pos hany]
    have hstart : w.startPull number = (w.withRun run).spawn (World.quietly Session.reconcile)
        [w.pullScope number, w.runScope] (.pull number) := by
      simp only [World.startPull, hdue, htaker]
    let m : Live := (l.withRun run).spawn (.pull number) (Session.quietly Session.reconcile)
    have hmove : l.step? (.due number w.now) = some (m, []) := by
      simp [Live.step?, hsession, hany, hdue, m]
    have hleads := Live.Leads.of_step hmove
    have hpulls : run.CalledOff fun number => w.stand.pullScope number ∈ w.stand.cancelled := by
      obtain ⟨_, hready⟩ := hm.sound.ready
      have hcalled := hm.pulls.step (hm.session ▸ hready.toSound) w.now (.pullDue number)
      rw [show w.stand.session.run = w.session.run from rfl, hdue] at hcalled
      simpa using hcalled
    have hcome := hm.comes hleads rfl rfl rfl hpulls
    have hstand : ({ w.stand with session := m.session } : Stand) = (w.withRun run).stand := by
      show ({ w.stand with session := { l.session with run } } : Stand) = _
      rw [hsession]
      rfl
    rw [hstand] at hcome
    have hi : m.threads[l.threads.length]? =
        some { owner := .pull number, work := .acting (Session.quietly Session.reconcile) } :=
      List.getElem?_concat_length
    rw [hstart]
    obtain ⟨k, thread', hmore, hk⟩ := hcome.spawns hi rfl rfl
      (Session.Activity.twin_quietly Session.reconcile fun _ => .ok .done)
      (.pull number rfl rfl rfl) hm.next_free
    exact ⟨k, thread', hleads.trans hmore, hk⟩
  · have hstart : w.startPull number = w := by
      simp only [World.startPull, hstep]
      rw [Push.Run.onPullDue, if_neg hany]
    rw [hstart]
    exact ⟨l, thread, .refl l, hm⟩

/-- The bench ticks like the ticker, and starts the refresh that it asks for. -/
theorem followed_tick (w : World) : Followed w w.tick := by
  intro l thread hm
  obtain ⟨i, hi⟩ := hm.ticker
  have hleads := Live.leads_tick hm.sound hi w.now
  have hsession : l.session = w.session := hm.session
  rw [hsession] at hleads
  cases hwants : w.session.wantsRefresh w.now with
  | false =>
    have htick : w.tick.stand = w.stand := by
      simp only [World.tick, Live.run_tick, hwants]
      exact (World.beside_tell _ _).stand
    rw [hwants, if_neg Bool.false_ne_true] at hleads
    rw [htick]
    exact ⟨l, thread, hleads, hm⟩
  | true =>
    let state : Session.State := { w.session with lastAutoRefresh := some w.now }
    let told := { w with session := state }.tell [.publish (.links (w.session.view w.now))]
    let v : World := told.pendTick
    have hv : v.stand = { w.stand with session := state } := (World.beside_tell _ _).stand
    have htick : w.tick = v.spawn (World.quietly Session.autoRefresh) [v.runScope] .refresh := by
      simp only [World.tick, Live.run_tick, hwants]
      rfl
    let m : Live := { l with session := state }.spawn .refresh (Session.quietly Session.autoRefresh)
    have hleads : l.Leads m := by
      rw [hwants, if_pos rfl] at hleads
      exact hleads
    have hcome : Mirrors v.stand m thread := hv ▸ hm.comes hleads rfl rfl rfl hm.pulls
    have hi : m.threads[l.threads.length]? =
        some { owner := .refresh, work := .acting (Session.quietly Session.autoRefresh) } :=
      List.getElem?_concat_length
    have hfree (other : Nat) (h : v.stand.HasTask other) : thread other ≠ l.threads.length :=
      hm.next_free other (by rw [hv] at h; exact h)
    rw [htick]
    obtain ⟨k, thread', hmore, hk⟩ := hcome.spawns hi rfl rfl
      (Session.Activity.twin_quietly Session.autoRefresh fun _ => .ok .done)
      (.refresh rfl rfl rfl) hfree
    exact ⟨k, thread', hleads.trans hmore, hk⟩

/-- A process whose caller is the one of this step, and which is no watch. -/
def Process.isOf (p : Process) (step : Nat) : Bool :=
  match p.body with
  | .task _ => p.scopes.contains (.step step)
  | .watch .. => false

/-- The threads that carry out processes of a step. -/
def World.threadsOf (w : World) (thread : Nat → Nat) (step : Nat) : List Nat :=
  (w.processes.keys.filter fun id => (w.processes.get? id).any fun p => p.isOf step).map thread

theorem Mirrors.mem_threadsOf {w : World} (hm : Mirrors w.stand l thread) (step : Nat)
    (hp : w.processes.get? id = some p) (hbody : p.body = .task task) :
    thread id ∈ w.threadsOf thread step ↔ .step step ∈ p.scopes := by
  simp only [World.threadsOf, List.mem_map, List.mem_filter]
  constructor
  · rintro ⟨other, ⟨-, hof⟩, hthread⟩
    obtain ⟨q, hq, hof⟩ := (Option.any_eq_true _ _).mp hof
    unfold Process.isOf at hof
    split at hof
    · rename_i task' hbody'
      cases hm.apart ⟨q, task', hq, hbody'⟩ ⟨p, task, hp, hbody⟩ hthread
      cases hp.symm.trans hq
      exact List.contains_iff_mem.mp hof
    · cases hof
  · intro hof
    refine ⟨id, ⟨List.mem_map.mpr ⟨_, w.processes.mem_of_get? hp, rfl⟩, ?_⟩, rfl⟩
    rw [hp]
    simpa [Process.isOf, hbody] using hof

/-- Who gives up has all its threads do so. -/
theorem followed_giveUp (w : World) (step : Nat) : Followed w (w.cancel (.step step)) := by
  intro l thread hm
  let is := w.threadsOf thread step
  have hleads : l.Leads (l.giveUps is) := ⟨is.map .giveUp, (Live.after_giveUps l is).symm⟩
  have hother {j : Nat} {t : Thread} (hj : l.threads[j]? = some t)
      (hcaller : j ∈ is → t.owner ≠ .caller) : (l.giveUps is).threads[j]? = some t := by
    have hskip : ¬ (j ∈ is ∧ t.owner = .caller) := fun h => hcaller h.1 h.2
    rw [Live.getElem?_giveUps, hj, Option.map_some, if_neg hskip]
  have hrun : w.stand.runScope ∈ (w.cancel (.step step)).cancelled ↔
      w.stand.runScope ∈ w.cancelled := mem_cancel_of_ne (by simp [Stand.runScope])
  have hpull (number : Nat) : w.stand.pullScope number ∈ (w.cancel (.step step)).cancelled ↔
      w.stand.pullScope number ∈ w.cancelled := mem_cancel_of_ne (by simp [Stand.pullScope])
  refine ⟨_, thread, hleads, hleads.sound hm.sound, hm.started, hm.session, hm.taker,
    hm.cancelled.trans hrun.symm, hm.pulls.congr fun number => (hpull number).symm, ?_, ?_, ?_,
    hm.watches, hm.apart, hm.numbered⟩
  · obtain ⟨i, hi⟩ := hm.loop
    exact ⟨i, hother hi (by simp [Thread.resting])⟩
  · obtain ⟨i, hi⟩ := hm.ticker
    exact ⟨i, hother hi (by simp [Thread.resting])⟩
  · intro id p task hp hbody
    obtain ⟨t, u, hi, hleft, hwork, htwin, hbelongs⟩ := hm.carried hp hbody
    have hstays (howner : t.owner ≠ .caller)
        (hsame : Belongs (w.cancel (.step step)).stand p.ending p.scopes t) :
        Carries (w.cancel (.step step)).stand (l.giveUps is) (thread id) p task :=
      ⟨t, u, hother hi fun _ => howner, hleft, hwork, htwin, hsame⟩
    cases hbelongs with
    | refresh hending hscopes howner =>
      exact hstays (by simp [howner]) (.refresh hending hscopes howner)
    | pull number hending hscopes howner =>
      exact hstays (by simp [howner]) (.pull number hending hscopes howner)
    | caller k hending hscopes howner hgave =>
      by_cases hk : k = step
      · subst hk
        have hin : thread id ∈ is := (hm.mem_threadsOf k hp hbody).mpr (by simp [hscopes])
        have hgives : (l.giveUps is).threads[thread id]? = some { t with gaveUp := true } := by
          rw [Live.getElem?_giveUps, hi, Option.map_some, if_pos ⟨hin, howner⟩]
        refine ⟨_, u, hgives, hleft, hwork, htwin, .caller k hending hscopes howner ?_⟩
        exact ⟨fun _ => List.mem_cons_self, fun _ => rfl⟩
      · have hout : thread id ∉ is := by
          rw [hm.mem_threadsOf step hp hbody, hscopes]
          simpa using Ne.symm hk
        have hstep : .step k ∈ (w.cancel (.step step)).cancelled ↔ .step k ∈ w.cancelled :=
          mem_cancel_of_ne (by simpa using hk)
        refine ⟨t, u, hother hi fun h => absurd h hout, hleft, hwork, htwin, ?_⟩
        exact .caller k hending hscopes howner (hgave.trans hstep.symm)

/-- Closing cancels the scope of the link. -/
theorem Mirrors.closes {w : World} (hm : Mirrors w.stand l thread) :
    Mirrors (w.cancel w.runScope).stand (l.step .close).1 thread := by
  have hstep : l.step? .close = some ({ l with cancelled := true, closing := true }, []) := by
    simp [Live.step?, hm.started]
  have hclosed : (l.step .close).1 = { l with cancelled := true, closing := true } := by
    simp [Live.step, hstep]
  have hpull (number : Nat) : w.stand.pullScope number ∈ (w.cancel w.runScope).cancelled ↔
      w.stand.pullScope number ∈ w.cancelled :=
    mem_cancel_of_ne (by simp [Stand.pullScope, World.runScope])
  rw [hclosed]
  exact hm.keeps ⟨rfl, rfl, fun step => mem_cancel_of_ne (by simp [World.runScope]),
      fun hp => hp, Nat.le_refl _⟩ ((Live.Leads.of_step hstep).sound hm.sound) hm.started hm.session
    (iff_of_true rfl List.mem_cons_self) (hm.pulls.congr fun number => (hpull number).symm)
    fun _ _ hi _ => hi

-- ---------------------------------------------------------------------------
-- Watches
-- ---------------------------------------------------------------------------

/-- A watch is no thread of the session. -/
theorem Mirrors.watching {watch : Status.Watch} {printer : Status.Printer} {number n : Nat}
    {async : Bool} (hm : Mirrors s l thread) (hbody : p.body = .watch watch printer)
    (hending : p.ending = .step number async) (hid : id < n) (hnumbered : s.nextProcess ≤ n) :
    Mirrors { s with processes := s.processes.set id p, nextProcess := n } l thread := by
  have hget (other : Nat) : (s.processes.set id p).get? other =
      if id = other then some p else s.processes.get? other := Table.get?_set ..
  have htask {other : Nat} {q : Process} {task : Session.Task Outcome}
      (hq : (s.processes.set id p).get? other = some q) (hqbody : q.body = .task task) :
      s.processes.get? other = some q := by
    rw [hget] at hq
    split at hq
    · cases hq
      cases hbody.symm.trans hqbody
    · exact hq
  refine ⟨hm.sound, hm.started, hm.session, hm.taker, hm.cancelled, hm.pulls, hm.loop, hm.ticker,
    ?_, ?_, ?_, ?_⟩
  · intro other q task hq hqbody
    exact (hm.carried (htask hq hqbody) hqbody).of_same rfl fun _ => Iff.rfl
  · intro other q watch' printer' hq hqbody
    rw [show (s.processes.set id p).get? other = _ from hget other] at hq
    split at hq
    · cases hq
      exact ⟨number, async, hending⟩
    · exact hm.watches hq hqbody
  · rintro first second ⟨q, task, hq, hqbody⟩ ⟨q', task', hq', hqbody'⟩ hthread
    exact hm.apart ⟨q, task, htask hq hqbody, hqbody⟩ ⟨q', task', htask hq' hqbody', hqbody'⟩
      hthread
  · intro other hother
    have hne : id ≠ other := Nat.ne_of_lt (Nat.lt_of_lt_of_le hid hother)
    rw [show (s.processes.set id p).get? other = _ from hget other, if_neg hne]
    exact hm.numbered other (Nat.le_trans hnumbered hother)

theorem followed_report (w : World) (id : Nat) : Followed w (w.report id) := by
  intro l thread hm
  unfold World.report
  split
  · rename_i p hp
    split
    · rename_i watch printer hbody
      obtain ⟨number, async, hending⟩ := hm.watches hp hbody
      refine ⟨l, thread, .refl l, ?_⟩
      have hout (v : World) (lines : List Text) (q : Process) :
          ((v.out lines).pendReport id q watch).stand = v.stand := (World.beside_out v lines).stand
      simp only [hout]
      exact hm.watching rfl hending (hm.below hp) (Nat.le_refl _)
    · exact ⟨l, thread, .refl l, hm⟩
  · exact ⟨l, thread, .refl l, hm⟩

theorem followed_endReport (w : World) (id : Nat) (cancelled : Bool) :
    Followed w (w.endReport id cancelled) := by
  intro l thread hm
  unfold World.endReport
  split
  · rename_i p hp
    split
    · rename_i watch printer hbody
      obtain ⟨number, async, hending⟩ := hm.watches hp hbody
      let v : World := if cancelled then w.out [Status.Watch.closingLine] else w
      have hv : v.stand = w.stand := by
        unfold v
        split
        · exact (World.beside_out w _).stand
        · rfl
      have hmirrors : Mirrors v.stand l thread := hv ▸ hm
      refine ⟨l, thread, .refl l, ?_⟩
      show Mirrors (v.finish id p (.ok .done)).stand l thread
      rw [stand_finish hending]
      exact hmirrors.keeps (frame_erase v.stand id v.session (Nat.le_refl _)) hm.sound hm.started
        hmirrors.session hmirrors.cancelled hmirrors.pulls fun _ _ hi _ => hi
    · exact ⟨l, thread, .refl l, hm⟩
  · exact ⟨l, thread, .refl l, hm⟩

end

end MeshConsole.Bench
