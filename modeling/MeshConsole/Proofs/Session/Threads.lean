import MeshConsole.Session.Action
import MeshConsole.Session.Work

/-!
# Activities step by step

What a step can do is said once for those that need no answer (`Acting`) and
once for those that an answer makes (`Answering`).

`act_run` and `act_answer`: steps that nobody comes between lead where
`Activity.run` and `Task.answer` lead, and tell the same.
-/

namespace MeshConsole.Session

open Telemetry (Note)

-- ---------------------------------------------------------------------------
-- One step
-- ---------------------------------------------------------------------------

def Order.entered (order : Order) (s : State) : State :=
  { s with desk := { held := order.type :: s.desk.held }, submissions := s.submissions + 1 }

/-- What an order that finds its type held is answered. -/
def Order.refusal (order : Order) : Except Fault Text :=
  .error (.within order.type .jobInProgress)

theorem enter_held {order : Order} (s : State) (h : s.desk.isActive order.type = true) :
    Job.Call.enter s.desk (order.ticket s) = (s.desk, .returned order.refusal) := by
  simp [Job.Call.enter, Job.Desk.register?, Order.ticket, Order.refusal, h]

theorem enter_free {order : Order} (s : State) (h : s.desk.isActive order.type = false) :
    Job.Call.enter s.desk (order.ticket s) =
      ((order.entered s).desk, .registered { ticket := order.ticket s }) := by
  simp [Job.Call.enter, Job.Desk.register?, Order.ticket, Order.entered, h]

/-- All that a step can do that needs no answer. -/
inductive Acting (now : Instant) (cancelled : Bool) (s : State) : Work α → Beat α → Prop where
  | done (value : α) :
      Acting now cancelled s (.acting (.done value))
        { state := s, work := .waiting (.finished value) }
  | note (entry : Note) (next : Activity α) :
      Acting now cancelled s (.acting (.note entry next))
        { state := s, deeds := [.noted entry], work := .acting next }
  | store (change : State → State) (next : Activity α) :
      Acting now cancelled s (.acting (.store change next))
        { state := change s, deeds := [.stored (change s).devices], work := .acting next }
  | look (next : Scene → Activity α) :
      Acting now cancelled s (.acting (.look next))
        { state := s, work := .acting (next { state := s, now, cancelled }) }
  | call (question : Rest.Call) (next : Except Fault question.Reply → Activity α) :
      Acting now cancelled s (.acting (.call question next))
        { state := s, deeds := [.asked question], work := .waiting (.calling question next) }
  | refused (order : Order) (next : Except Fault Text → Activity α) :
      s.desk.isActive order.type = true →
      Acting now cancelled s (.acting (.job order next))
        { state := s, work := .acting (next order.refusal) }
  | enters (order : Order) (next : Except Fault Text → Activity α) :
      s.desk.isActive order.type = false →
      Acting now cancelled s (.acting (.job order next))
        { state := order.entered s
          deeds := (Task.job order { ticket := order.ticket s } next).need.deeds
          work := .waiting (.job order { ticket := order.ticket s } next) }
  | leaves (order : Order) (run : Job.Run) (next : Except Fault Text → Activity α) :
      run.phase = .ended result →
      Acting now cancelled s (.waiting (.job order run next))
        { state := { s with desk := s.desk.release run.ticket.type }
          work := .acting (next result) }

theorem act?_eq_some {w : Work α} :
    w.act? now cancelled s = some b ↔ Acting now cancelled s w b := by
  constructor
  · intro h
    cases w with
    | acting rest =>
      cases rest with
      | done | note | store | look | call =>
        cases h
        constructor
      | job order next =>
        cases hactive : s.desk.isActive order.type with
        | true =>
          simp only [Work.act?, enter_held s hactive, Option.some.injEq] at h
          exact h ▸ .refused order next hactive
        | false =>
          simp only [Work.act?, enter_free s hactive, Option.some.injEq] at h
          exact h ▸ .enters order next hactive
    | waiting task =>
      cases task with
      | finished | calling => cases h
      | job order run next =>
        cases hphase : run.phase with
        | ended result =>
          simp only [Work.act?, Job.Call.leave, hphase, Option.some.injEq] at h
          exact h ▸ .leaves order run next hphase
        | _ => simp [Work.act?, Job.Call.leave, hphase] at h
  · intro h
    cases h with
    | done | note | store | look | call => rfl
    | refused order next hactive => simp only [Work.act?, enter_held s hactive]
    | enters order next hactive =>
      simp only [Work.act?, enter_free s hactive]
      rfl
    | leaves order run next hphase => simp only [Work.act?, Job.Call.leave, hphase]

/-- All that an answer can do. -/
inductive Answering (now : Instant) (cancelled : Bool) (s : State) :
    Work α → Answer → Beat α → Prop where
  | called (call : Rest.Call) (next : Except Fault call.Reply → Activity α) (outcome : Exchange) :
      Answering now cancelled s (.waiting (.calling call next)) (.exchanged outcome)
        { state := s, work := .acting (next (outcomeOf call outcome)) }
  | heard (order : Order) (run : Job.Run) (next : Except Fault Text → Activity α) (a : Answer) :
      (Task.job order run next).need.fits a = true →
      run.step now cancelled (Task.happening run a) = (later, notes) →
      Answering now cancelled s (.waiting (.job order run next)) a
        { state := s
          deeds := notes.map .noted ++ (Task.job order later next).need.deeds
          work := .waiting (.job order later next) }

theorem answer?_eq_some {w : Work α} :
    w.answer? now cancelled s a = some b ↔ Answering now cancelled s w a b := by
  constructor
  · intro h
    cases w with
    | acting rest => cases h
    | waiting task =>
      cases task with
      | finished => cases h
      | calling call next =>
        cases a with
        | exchanged outcome =>
          cases h
          exact .called call next outcome
        | waited | interrupted => cases h
      | job order run next =>
        cases hfits : (Task.job order run next).need.fits a with
        | true =>
          simp only [Work.answer?, hfits, if_true, Option.some.injEq] at h
          exact h ▸ .heard order run next a hfits rfl
        | false => simp [Work.answer?, hfits] at h
  · intro h
    cases h with
    | called => rfl
    | heard order run next a hfits hstep => simp only [Work.answer?, hfits, if_true, hstep]

-- ---------------------------------------------------------------------------
-- Steps that nobody comes between
-- ---------------------------------------------------------------------------

inductive Acts (now : Instant) (cancelled : Bool) : Beat α → Beat α → Prop where
  | rest : Acts now cancelled b b
  | step : Acting now cancelled b.state b.work c →
      Acts now cancelled { c with deeds := b.deeds ++ c.deeds } d → Acts now cancelled b d

/-- A beat has come to a stop; `before` are the notes taken earlier. -/
structure Beat.Reaches (b : Beat α) (stop : Stop α) (before : List Note) : Prop where
  state : b.state = stop.state
  notes : notesOf b.deeds = before ++ stop.notes
  work : b.work = .waiting stop.task

theorem run_refused {order : Order} {s : State} (h : s.desk.isActive order.type = true)
    (next : Except Fault Text → Activity α) :
    (Activity.job order next).run now cancelled s =
      (next order.refusal).run now cancelled s := by
  have henter := enter_held s h
  rw [Order.ticket] at henter
  simp only [Activity.run, henter]

theorem run_enters {order : Order} {s : State} (h : s.desk.isActive order.type = false)
    (next : Except Fault Text → Activity α) :
    (Activity.job order next).run now cancelled s =
      { state := order.entered s, task := .job order { ticket := order.ticket s } next } := by
  have henter := enter_free s h
  rw [Order.ticket] at henter
  simp only [Activity.run, henter]
  rfl

section
variable {order : Order} {run later : Job.Run} {next : Except Fault Text → Activity α}
  {notes : List Note} {a : Answer}
  (hstep : run.step now cancelled (Task.happening run a) = (later, notes))
include hstep

theorem answer_goesOn (hphase : ∀ result, later.phase ≠ .ended result) :
    (Task.job order run next).answer now cancelled s a =
      { state := s, notes, task := .job order later next } := by
  simp only [Task.answer, Job.Call.hear, hstep, Job.Call.leave]

theorem answer_ends (hphase : later.phase = .ended result) :
    let stop := (next result).run now cancelled
      { s with desk := s.desk.release later.ticket.type }
    (Task.job order run next).answer now cancelled s a =
      { stop with notes := notes ++ stop.notes } := by
  simp only [Task.answer, Job.Call.hear, hstep, Job.Call.leave, hphase]

end

/-- Once an activity has come to its end, the one behind it goes on from
there. -/
theorem run_bind {a : Activity α} (f : α → Activity β)
    (h : (a.run now cancelled s).task = .finished value) :
    (a.bind f).run now cancelled s =
      { (f value).run now cancelled (a.run now cancelled s).state with
        notes := (a.run now cancelled s).notes ++
          ((f value).run now cancelled (a.run now cancelled s).state).notes } := by
  induction a generalizing s with
  | done value =>
    cases h
    rfl
  | note entry next ih =>
    simp only [Activity.bind, Activity.run, ih h]
    rfl
  | store change next ih => exact ih h
  | look next ih => exact ih _ h
  | call question next => cases h
  | job order next ih =>
    cases hactive : s.desk.isActive order.type with
    | true =>
      rw [run_refused hactive] at h ⊢
      rw [Activity.bind, run_refused hactive]
      exact ih _ h
    | false =>
      rw [run_enters hactive] at h
      cases h

theorem act_run (now : Instant) (cancelled : Bool) (a : Activity α) (s : State)
    (deeds : List Deed) :
    ∃ b, Acts now cancelled { state := s, deeds, work := .acting a } b ∧
      b.Reaches (a.run now cancelled s) (notesOf deeds) := by
  induction a generalizing s deeds with
  | done value => exact ⟨_, .step (.done value) .rest, rfl, notesOf_append _ _, rfl⟩
  | note entry next ih =>
    obtain ⟨b, hacts, hstate, hnotes, hwork⟩ := ih s (deeds ++ [.noted entry])
    refine ⟨b, .step (.note entry next) hacts, hstate, ?_, hwork⟩
    rw [hnotes, notesOf_append, List.append_assoc]
    rfl
  | store change next ih =>
    obtain ⟨b, hacts, hstate, hnotes, hwork⟩ :=
      ih (change s) (deeds ++ [.stored (change s).devices])
    refine ⟨b, .step (.store change next) hacts, hstate, ?_, hwork⟩
    rw [hnotes, notesOf_append]
    exact congrArg (· ++ _) (List.append_nil _)
  | look next ih =>
    obtain ⟨b, hacts, hreaches⟩ := ih { state := s, now, cancelled } s (deeds ++ [])
    rw [List.append_nil] at hreaches
    exact ⟨b, .step (.look next) hacts, hreaches⟩
  | call question next ih =>
    exact ⟨_, .step (.call question next) .rest, rfl, notesOf_append _ _, rfl⟩
  | job order next ih =>
    cases hactive : s.desk.isActive order.type with
    | true =>
      rw [run_refused hactive]
      obtain ⟨b, hacts, hreaches⟩ := ih order.refusal s (deeds ++ [])
      rw [List.append_nil] at hreaches
      exact ⟨b, .step (.refused order next hactive) hacts, hreaches⟩
    | false =>
      rw [run_enters hactive]
      refine ⟨_, .step (.enters order next hactive) .rest, rfl, ?_, rfl⟩
      rw [notesOf_append, notesOf_need]

/-- An answer that fits is taken in, and what follows comes to the next
question. -/
theorem act_answer (now : Instant) (cancelled : Bool) (s : State) {task : Task α} {a : Answer}
    (hfits : task.need.fits a = true) :
    ∃ b c, Answering now cancelled s (.waiting task) a b ∧ Acts now cancelled b c ∧
      c.Reaches (task.answer now cancelled s a) [] := by
  cases task with
  | finished value => cases hfits
  | calling call next =>
    cases a with
    | exchanged outcome =>
      obtain ⟨c, hacts, hreaches⟩ := act_run now cancelled (next (outcomeOf call outcome)) s []
      exact ⟨_, c, .called call next outcome, hacts, hreaches⟩
    | waited | interrupted => cases hfits
  | job order run next =>
    rcases hstep : run.step now cancelled (Task.happening run a) with ⟨later, notes⟩
    have hheard := Answering.heard (s := s) order run next a hfits hstep
    have hnotes : notesOf (notes.map .noted ++ (Task.job order later next).need.deeds) = notes := by
      rw [notesOf_append, notesOf_noted, notesOf_need, List.append_nil]
    cases hphase : later.phase with
    | ended result =>
      obtain ⟨c, hacts, hstate, hmore, hwork⟩ := act_run now cancelled (next result)
        { s with desk := s.desk.release later.ticket.type }
        (notes.map .noted ++ (Task.job order later next).need.deeds ++ [])
      rw [List.append_nil, hnotes] at hmore
      refine ⟨_, c, hheard, .step (.leaves order later next hphase) hacts, ?_⟩
      rw [answer_ends hstep hphase]
      exact ⟨hstate, hmore, hwork⟩
    | submitting | polling | waiting =>
      refine ⟨_, _, hheard, .rest, ?_⟩
      rw [answer_goesOn hstep (by simp [hphase])]
      exact ⟨rfl, hnotes, rfl⟩

end MeshConsole.Session
