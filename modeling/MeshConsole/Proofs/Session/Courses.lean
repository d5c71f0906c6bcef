import MeshConsole.Proofs.Session.IndependentPulls
import MeshConsole.Proofs.Session.Upkeep
import MeshConsole.Session.Net

/-!
# Courses of a session

Twins take the same steps and ask the same questions, whatever they end with:
they change a session alike (`Twin.run`, `Task.Twin.answer`).

What a session with its threads may come to by moves of one kind: a thread
goes on to where it waits (`leads_run`, `leads_answer`), the loop carries out
what its link signals (`leads_hear`), and callers give up (`after_giveUps`).
-/

namespace MeshConsole.Session

-- ---------------------------------------------------------------------------
-- Twins
-- ---------------------------------------------------------------------------

inductive Activity.Twin {α β : Type} : Activity α → Activity β → Prop where
  | done (x : α) (y : β) : Twin (.done x) (.done y)
  | note (entry : Telemetry.Note) : Twin a b → Twin (.note entry a) (.note entry b)
  | store (change : State → State) : Twin a b → Twin (.store change a) (.store change b)
  | look {f : Scene → Activity α} {g : Scene → Activity β} :
      (∀ scene, Twin (f scene) (g scene)) → Twin (.look f) (.look g)
  | call (question : Rest.Call) {f : Except Fault question.Reply → Activity α}
      {g : Except Fault question.Reply → Activity β} :
      (∀ answer, Twin (f answer) (g answer)) → Twin (.call question f) (.call question g)
  | job (order : Order) {f : Except Fault Text → Activity α} {g : Except Fault Text → Activity β} :
      (∀ result, Twin (f result) (g result)) → Twin (.job order f) (.job order g)

inductive Task.Twin {α β : Type} : Task α → Task β → Prop where
  | finished (x : α) (y : β) : Twin (.finished x) (.finished y)
  | calling (call : Rest.Call) {f : Except Fault call.Reply → Activity α}
      {g : Except Fault call.Reply → Activity β} :
      (∀ answer, (f answer).Twin (g answer)) → Twin (.calling call f) (.calling call g)
  | job (order : Order) (run : Job.Run) {f : Except Fault Text → Activity α}
      {g : Except Fault Text → Activity β} :
      (∀ result, (f result).Twin (g result)) → Twin (.job order run f) (.job order run g)

structure Stop.Twin {α β : Type} (s : Stop α) (t : Stop β) : Prop where
  state : t.state = s.state
  notes : t.notes = s.notes
  task : s.task.Twin t.task

/-- What is done with the results does not matter. -/
theorem Activity.twin_bind (a : Activity α) {f : α → Activity β} {g : α → Activity γ}
    (h : ∀ x, (f x).Twin (g x)) : (a.bind f).Twin (a.bind g) := by
  induction a with
  | done x => exact h x
  | note entry next ih => exact .note entry ih
  | store change next ih => exact .store change ih
  | look next ih => exact .look ih
  | call question next ih => exact .call question ih
  | job order next ih => exact .job order ih

theorem Activity.twin_quietly (a : Activity α) (f : α → β) :
    (a.bind fun x => .done (f x)).Twin (quietly a) :=
  a.twin_bind fun x => .done (f x) false

section
variable {a : Activity α} {b : Activity β}

theorem Activity.Twin.run (h : a.Twin b) (now : Instant) (cancelled : Bool) (s : State) :
    (a.run now cancelled s).Twin (b.run now cancelled s) := by
  induction h generalizing s with
  | done x y => exact ⟨rfl, rfl, .finished x y⟩
  | note entry _ ih =>
    obtain ⟨hstate, hnotes, htask⟩ := ih s
    exact ⟨hstate, congrArg (entry :: ·) hnotes, htask⟩
  | store change _ ih => exact ih (change s)
  | look _ ih => exact ih { state := s, now, cancelled } s
  | call question hnext _ => exact ⟨rfl, rfl, .calling question hnext⟩
  | job order hnext ih =>
    simp only [Activity.run]
    split
    · exact ih _ s
    · exact ⟨rfl, rfl, .job order _ hnext⟩

theorem Task.Twin.need {t : Task α} {u : Task β} (h : t.Twin u) : u.need = t.need := by
  cases h <;> rfl

theorem Task.Twin.answer {t : Task α} {u : Task β} (h : t.Twin u) (now : Instant)
    (cancelled : Bool) (s : State) (a : Answer) :
    (t.answer now cancelled s a).Twin (u.answer now cancelled s a) := by
  cases h with
  | finished x y => exact ⟨rfl, rfl, .finished x y⟩
  | calling call hnext =>
    cases a with
    | exchanged outcome => exact (hnext (outcomeOf call outcome)).run now cancelled s
    | waited | interrupted => exact ⟨rfl, rfl, .calling call hnext⟩
  | job order run hnext =>
    simp only [Task.answer]
    split
    · obtain ⟨hstate, hnotes, htask⟩ := (hnext _).run now cancelled { s with desk := _ }
      exact ⟨hstate, congrArg _ hnotes, htask⟩
    · exact ⟨rfl, rfl, .job order _ hnext⟩

end

theorem Need.takes_iff {need : Need} {a : Answer} : need.takes cancelled a = true ↔
    need.fits a = true ∧ (a = .interrupted → cancelled = true) := by
  cases a with
  | exchanged | waited => simp [Need.takes]
  | interrupted => simp [Need.takes]

-- ---------------------------------------------------------------------------
-- Courses
-- ---------------------------------------------------------------------------

namespace Live

/-- Some moves lead there. -/
def Leads (l next : Live) : Prop := ∃ moves, next = l.after moves

section
variable {l m next : Live}

theorem Leads.refl (l : Live) : l.Leads l := ⟨[], rfl⟩

theorem Leads.trans (h : l.Leads m) (hnext : m.Leads next) : l.Leads next := by
  obtain ⟨moves, rfl⟩ := h
  obtain ⟨more, rfl⟩ := hnext
  exact ⟨moves ++ more, List.foldl_append.symm⟩

theorem Leads.of_step (h : l.step? move = some (next, entries)) : l.Leads next :=
  ⟨[move], by simp [after, step, h]⟩

theorem Leads.sound (h : l.Leads next) (hs : l.Sound) : next.Sound := by
  obtain ⟨moves, rfl⟩ := h
  exact after_keeps (fun _ _ _ _ hs hstep => sound_step hs hstep) moves l hs

end

-- ---------------------------------------------------------------------------
-- One thread
-- ---------------------------------------------------------------------------

/-- Thread `i` has come to `work`, and the session to `s`. -/
def reach (l : Live) (i : Nat) (t : Thread) (s : State) (work : Work Bool) : Live :=
  { l with session := s }.put i { t with work }

section
variable {l : Live} {t : Thread} {i : Nat}

theorem reach_self (hi : l.threads[i]? = some t) : l.reach i t l.session t.work = l := by
  obtain ⟨hlt, hget⟩ := List.getElem?_eq_some_iff.mp hi
  have hset : l.threads.set i t = l.threads := by rw [← hget, List.set_getElem_self]
  show { l with threads := l.threads.set i t } = l
  rw [hset]

theorem reach_reach (l : Live) (i : Nat) (t : Thread) (s s' : State) (work work' : Work Bool) :
    (l.reach i t s work).reach i { t with work } s' work' = l.reach i t s' work' := by
  simp [reach, put]

theorem getElem?_reach (hi : l.threads[i]? = some t) (s : State) (work : Work Bool) :
    (l.reach i t s work).threads[i]? = some { t with work } :=
  List.getElem?_set_self (List.getElem?_eq_some_iff.mp hi).1

theorem isCancelled_reach (hrun : s.run = l.session.run) (i : Nat) (t : Thread)
    (work work' : Work Bool) :
    (l.reach i t s work).isCancelled { t with work := work' } = l.isCancelled t := by
  unfold isCancelled
  cases t.owner with
  | pull number =>
    show (l.cancelled || s.run.pulls.any _) = _
    rw [hrun]
  | loop | ticker | refresh | caller => rfl

theorem leads_acting (hi : l.threads[i]? = some t)
    (h : Acting now (l.isCancelled t) l.session t.work b) :
    l.Leads (l.reach i t b.state b.work) := by
  have hstep : l.step? (.act i now) = some (l.beat i t b) := by
    simp [step?, hi, act?_eq_some.mpr h]
  exact .of_step hstep

theorem leads_acts {before : List Deed} (hs : l.Sound) (hi : l.threads[i]? = some t)
    (h : Acts now (l.isCancelled t) { state := l.session, deeds := before, work := t.work } c) :
    l.Leads (l.reach i t c.state c.work) ∧ c.state.run = l.session.run := by
  generalize hb : ({ state := l.session, deeds := before, work := t.work } : Beat Bool) = b at h
  generalize hcut : l.isCancelled t = cancelled at h
  induction h generalizing l t before with
  | rest =>
    subst hb
    rw [reach_self hi]
    exact ⟨.refl l, rfl⟩
  | @step c b d hacting _ ih =>
    subst hb hcut
    obtain ⟨n, hn⟩ := (hs.threads t (List.mem_of_getElem? hi)).conducts
    have hrun := (acting_conducts hacting hn).2
    have hfirst := leads_acting hi hacting
    obtain ⟨hrest, hrun'⟩ := ih (hfirst.sound hs) (getElem?_reach hi c.state c.work) rfl
      (isCancelled_reach hrun i t c.work c.work)
    rw [reach_reach] at hrest
    exact ⟨hfirst.trans hrest, hrun'.trans hrun⟩

/-- A thread goes on to where its activity stops. -/
theorem leads_run {a : Activity Bool} (hs : l.Sound) (hi : l.threads[i]? = some t)
    (hwork : t.work = .acting a) (now : Instant) :
    let stop := a.run now (l.isCancelled t) l.session
    l.Leads (l.reach i t stop.state (.waiting stop.task)) ∧ stop.state.run = l.session.run := by
  obtain ⟨b, hacts, hstate, -, hstop⟩ := act_run now (l.isCancelled t) a l.session []
  rw [← hwork] at hacts
  have hleads := leads_acts hs hi hacts
  rw [hstate, hstop] at hleads
  exact hleads

/-- A thread takes an answer in and goes on to where it waits next. -/
theorem leads_answer {task : Task Bool} (hs : l.Sound) (hi : l.threads[i]? = some t)
    (hwork : t.work = .waiting task) {a : Answer}
    (htakes : task.need.takes (l.isCancelled t) a = true) (now : Instant) :
    let stop := task.answer now (l.isCancelled t) l.session a
    l.Leads (l.reach i t stop.state (.waiting stop.task)) ∧ stop.state.run = l.session.run := by
  obtain ⟨hfits, hcut⟩ := Need.takes_iff.mp htakes
  obtain ⟨b, c, hanswering, hacts, hstate, -, hstop⟩ :=
    act_answer now (l.isCancelled t) l.session hfits
  have hsame : b.state = l.session := by cases hanswering <;> rfl
  rw [← hwork] at hanswering
  have hfirst : l.Leads (l.reach i t b.state b.work) := by
    have hstep : l.step? (.answer i now a) = some (l.beat i t b) := by
      cases a with
      | exchanged | waited => simp [step?, hi, answer?_eq_some.mpr hanswering]
      | interrupted =>
        have hanswer := answer?_eq_some.mpr hanswering
        rw [hcut rfl] at hanswer
        simp [step?, hi, hanswer, hcut rfl]
    exact .of_step hstep
  have hkept := isCancelled_reach (congrArg State.run hsame) i t b.work b.work
  rw [← hkept] at hacts
  obtain ⟨hrest, hrun⟩ := leads_acts (hfirst.sound hs) (getElem?_reach hi b.state b.work) hacts
  rw [reach_reach, hstate, hstop] at hrest
  rw [hstate] at hrun
  exact ⟨hfirst.trans hrest, hrun.trans (congrArg State.run hsame)⟩

end

-- ---------------------------------------------------------------------------
-- The loop
-- ---------------------------------------------------------------------------

theorem run_carryAll (signals : List Push.Signal) (now : Instant) (cancelled : Bool) (s : State) :
    ((carryAll signals).run now cancelled s).task = .finished false ∧
      ((carryAll signals).run now cancelled s).state = s.takes now signals := by
  induction signals generalizing s with
  | nil => exact ⟨rfl, rfl⟩
  | cons signal rest ih =>
    cases signal with
    | deliver payload =>
      have hpayload := run_takePayload payload now cancelled s
      have hbind := run_bind (fun _ => carryAll rest) (congrArg Stop.task hpayload)
      have hstate := congrArg Stop.state hpayload
      obtain ⟨htask, hrest⟩ := ih (s.taking now payload)
      refine ⟨(congrArg Stop.task hbind).trans ?_, (congrArg Stop.state hbind).trans ?_⟩
      · rw [hstate]
        exact htask
      · rw [hstate, hrest]
        simp [State.takes, Push.delivered, run_takePayload]
    | log | publish | closeSocket | schedule | reconcile | unschedule => exact ih s

/-- The loop hears of what has happened and carries out what the link
signals. -/
theorem leads_hear {l : Live} {i : Nat} (hs : l.Sound)
    (hi : l.threads[i]? = some (Thread.resting .loop))
    (hh : heard? l.cancelled h = some heard) (now : Instant) :
    let next := l.session.run.step now heard
    l.Leads { l with session := { l.session with run := next.1 }.takes now next.2 } := by
  intro next
  by_cases hphase : l.session.run.phase = .finished
  · have hstill : l.session.run.step now heard = (l.session.run, []) := by
      obtain ⟨hdue, hreturned⟩ := heard?_outside hh
      cases heard with
      | dialed | dialFailed | frame | readFailed | waited => simp [Push.Run.step, hphase]
      | cancelled => simp [Push.Run.step, Push.Run.onCancelled, hphase]
      | pullDue n => exact absurd rfl (hdue n)
      | pullReturned n => exact absurd rfl (hreturned n)
    rw [show next = (l.session.run, []) from hstill]
    exact .refl l
  · let t : Thread := { Thread.resting .loop with work := .acting (carryAll next.2) }
    let m : Live := (l.withRun next.1).put i t
    have hstep : l.step? (.hear i now h) = some (m, []) := by
      simp [step?, hi, hh, hphase, Thread.resting, Work.outcome?, m, t, next]
    have hlt := (List.getElem?_eq_some_iff.mp hi).1
    have hm : m.threads[i]? = some t := List.getElem?_set_self hlt
    obtain ⟨hrun, -⟩ := leads_run ((Leads.of_step hstep).sound hs) hm rfl now
    obtain ⟨htask, hstate⟩ := run_carryAll next.2 now (m.isCancelled t) m.session
    -- The loop rests again, at its old place.
    have hback : (l.threads.set i t).set i (.resting .loop) = l.threads := by
      rw [List.set_set, ← (List.getElem?_eq_some_iff.mp hi).2, List.set_getElem_self]
    have hreach (s : State) :
        m.reach i t s (.waiting (.finished false)) = { l with session := s } := by
      show { l with session := s, threads := (l.threads.set i t).set i (.resting .loop) } = _
      rw [hback]
    rw [htask, hstate, hreach] at hrun
    exact (Leads.of_step hstep).trans hrun

-- ---------------------------------------------------------------------------
-- The ticker
-- ---------------------------------------------------------------------------

theorem run_tick (now : Instant) (cancelled : Bool) (s : State) :
    tick.run now cancelled s = {
      state := if s.wantsRefresh now then { s with lastAutoRefresh := some now } else s
      notes := [.publish (.links (s.view now))]
      task := .finished (s.wantsRefresh now) } := by
  show (Activity.note (.publish (.links (s.view now))) (if s.wantsRefresh now then
      .store (fun state => { state with lastAutoRefresh := some now }) (.done true)
    else .done false)).run now cancelled s = _
  cases hwants : s.wantsRefresh now <;> rfl

/-- The ticker ticks, and starts a refresh if it has to. -/
theorem leads_tick {l : Live} {i : Nat} (hs : l.Sound)
    (hi : l.threads[i]? = some (Thread.resting .ticker)) (now : Instant) :
    l.Leads (if l.session.wantsRefresh now then
      { l with session := { l.session with lastAutoRefresh := some now } }.spawn .refresh
        (quietly autoRefresh)
    else l) := by
  let t : Thread := { Thread.resting .ticker with work := .acting tick }
  have hstep : l.step? (.tick i) = some (l.put i t, []) := by
    simp [step?, hi, Thread.resting, Work.outcome?, t]
  have hlt := (List.getElem?_eq_some_iff.mp hi).1
  have ht : (l.put i t).threads[i]? = some t := List.getElem?_set_self hlt
  obtain ⟨hrun, -⟩ := leads_run ((Leads.of_step hstep).sound hs) ht rfl now
  have hticked := (Leads.of_step hstep).trans hrun
  have hback (u : Thread) : (l.threads.set i u).set i (.resting .ticker) = l.threads := by
    rw [List.set_set, ← (List.getElem?_eq_some_iff.mp hi).2, List.set_getElem_self]
  have hsession : (l.put i t).session = l.session := rfl
  rw [run_tick, hsession] at hticked
  cases hwants : l.session.wantsRefresh now with
  | false =>
    have hsame : (l.put i t).reach i t l.session (.waiting (.finished false)) = l := by
      show { l with threads := (l.threads.set i t).set i (.resting .ticker) } = l
      rw [hback]
    rw [hwants, if_neg Bool.false_ne_true, hsame] at hticked
    exact hticked
  | true =>
    rw [hwants, if_pos rfl] at hticked
    let m : Live := (l.put i t).reach i t { l.session with lastAutoRefresh := some now }
      (.waiting (.finished true))
    have hm : m.threads[i]? = some { t with work := .waiting (.finished true) } :=
      getElem?_reach ht _ _
    have hrefresh : m.step? (.refresh i) =
        some ((m.put i (.resting .ticker)).spawn .refresh (quietly autoRefresh), []) := by
      simp [step?, hm, Thread.resting, Work.outcome?, t]
    have hthreads : m.put i (.resting .ticker) =
        { l with session := { l.session with lastAutoRefresh := some now } } := by
      show { l with
        session := _
        threads := ((l.threads.set i t).set i { t with work := _ }).set i (.resting .ticker) } = _
      rw [List.set_set, hback]
      rfl
    rw [hthreads] at hrefresh
    exact hticked.trans (.of_step hrefresh)

-- ---------------------------------------------------------------------------
-- Callers
-- ---------------------------------------------------------------------------

/-- The callers that have these threads have given up. -/
def giveUps (l : Live) (is : List Nat) : Live :=
  { l with threads := l.threads.mapIdx fun i t =>
      if i ∈ is ∧ t.owner = .caller then { t with gaveUp := true } else t }

theorem getElem?_giveUps (l : Live) (is : List Nat) (j : Nat) :
    (l.giveUps is).threads[j]? = l.threads[j]?.map fun t =>
      if j ∈ is ∧ t.owner = .caller then { t with gaveUp := true } else t :=
  List.getElem?_mapIdx

theorem giveUps_nil (l : Live) : l.giveUps [] = l := by
  have hsame : l.threads.mapIdx (fun i t =>
      if i ∈ ([] : List Nat) ∧ t.owner = .caller then { t with gaveUp := true } else t) =
      l.threads := by
    refine List.ext_getElem? fun j => ?_
    simp
  rw [giveUps, hsame]

theorem giveUps_cons (l : Live) (i : Nat) (is : List Nat) :
    l.giveUps (i :: is) = (l.giveUps [i]).giveUps is := by
  simp only [giveUps, List.mapIdx_mapIdx]
  congr 2
  funext j t
  by_cases hj : j = i <;> by_cases howner : t.owner = .caller <;> simp [hj, howner]

theorem step_giveUp (l : Live) (i : Nat) : (l.step (.giveUp i)).1 = l.giveUps [i] := by
  have hothers (h : ∀ t, l.threads[i]? = some t → t.owner ≠ .caller) : l.giveUps [i] = l := by
    refine congrArg (fun threads => { l with threads }) (List.ext_getElem? fun j => ?_)
    rw [List.getElem?_mapIdx]
    cases hj : l.threads[j]? with
    | none => rfl
    | some t =>
      have hskip : ¬ (j ∈ [i] ∧ t.owner = .caller) := by
        rintro ⟨hji, howner⟩
        exact h t (List.mem_singleton.mp hji ▸ hj) howner
      exact congrArg some (if_neg hskip)
  cases hi : l.threads[i]? with
  | none =>
    rw [hothers (by simp [hi])]
    simp [step, step?, hi]
  | some t =>
    by_cases howner : t.owner = .caller
    · have hstep : (l.step (.giveUp i)).1 = l.put i { t with gaveUp := true } := by
        simp [step, step?, hi, howner]
      rw [hstep]
      refine congrArg (fun threads => { l with threads }) (List.ext_getElem? fun j => ?_)
      rw [List.getElem?_mapIdx]
      by_cases hji : j = i
      · subst hji
        rw [List.getElem?_set_self (List.getElem?_eq_some_iff.mp hi).1, hi]
        simp [howner]
      · simp [hji, Ne.symm hji]
    · rw [hothers (by simp [hi, howner])]
      simp [step, step?, hi, howner]

theorem after_giveUps (l : Live) (is : List Nat) : l.after (is.map .giveUp) = l.giveUps is := by
  induction is generalizing l with
  | nil => exact (giveUps_nil l).symm
  | cons i rest ih =>
    rw [giveUps_cons, ← ih, ← step_giveUp]
    rfl

end Live

end MeshConsole.Session
