import Mathlib.Data.List.Chain
import MeshConsole.Job.Call

/-!
# What listeners hear of a job

`notices_of_result`: once a call has a result, the job events it published
are none when it was refused, its submission failed or it was given no valid
id, and otherwise `queued`, then ordinary states of which no two in a row
are equal, then one closing event that agrees with the result. The gateway
may answer anything at any time, and the caller may give up at any time.
-/

namespace MeshConsole.Job

open Telemetry (Note Event)

-- ---------------------------------------------------------------------------
-- The course of a call
-- ---------------------------------------------------------------------------

/-- A call after all that happens to it, with what it noted meanwhile. -/
def Call.follow : Call → List Moment → Call × List Note
  | call, [] => (call, [])
  | call, m :: rest =>
    let (next, notes) := call.hear m
    let (last, later) := next.follow rest
    (last, notes ++ later)

/-- What a call returns, as soon as that is settled. -/
def Call.result? : Call → Option (Except Fault Text)
  | .registered run =>
    match run.phase with
    | .ended result => some result
    | _ => none
  | .returned result => some result

/-- `m` is the moment that settles the result of a call. -/
inductive EndsAt : Call → List Moment → Moment → Prop where
  | here : call.result? = none → (call.hear m).1.result? = some result →
      EndsAt call (m :: rest) m
  | later : call.result? = none → EndsAt (call.hear m).1 rest last →
      EndsAt call (m :: rest) last

/-- The gateway's answer to the submission. -/
def submitAnswer? (moments : List Moment) : Option (Except Fault JobReceipt) :=
  moments.findSome? fun m =>
    match m.happening with
    | .submitted answer => some answer
    | _ => none

/-- The event by which listeners learn that a job has come to a state. -/
def Ticket.notice (t : Ticket) (id : Int64) (state reason : Text) : Event :=
  .job { id, type := t.type, label := t.label, state, reason, requestId := t.requestId }

/-- How the faults of a call name its job. -/
def Ticket.jobName (t : Ticket) (id : Int64) : Text := t.type ++ " job " ++ Text.ofInt id.toInt

/-- Why nothing is published: the call is refused, its submission fails, or
the id it is given is not positive. -/
def Silent (desk : Desk Text) (ticket : Ticket) (moments : List Moment) : Prop :=
  desk.isActive ticket.type = true ∨ (∃ why, submitAnswer? moments = some (.error why)) ∨
    ∃ receipt, submitAnswer? moments = some (.ok receipt) ∧ receipt.id ≤ 0

/-- A state between `queued` and the end of a job. -/
def Ordinary (state : Text) : Prop :=
  state ≠ [] ∧ state ≠ queued ∧ state ≠ succeeded ∧ state ≠ failed

/-- How a result goes with the state and the reason that close a job; `m` is
the moment that settles the result. -/
inductive Closing (t : Ticket) (id : Int64) (m : Moment) :
    Except Fault Text → Text → Text → Prop where
  | succeeded (text) : Closing t id m (.ok text) succeeded []
  | reported (reason) : Closing t id m (.error (.jobFailed id t.type reason)) failed reason
  | timedOut : Closing t id m (.error (.within (t.jobName id) .jobTimeout)) failed "timeout"
  | pollCancelled : m.happening = .polled (.error why) → m.cancelled = true →
      Closing t id m (.error (.within (("poll " : Text) ++ t.jobName id) why)) failed "cancelled"
  | waitCancelled : m.happening = .interrupted →
      Closing t id m (.error .canceled) failed "cancelled"
  | pollFailed : m.happening = .polled (.error why) → m.cancelled = false →
      Closing t id m (.error (.within (("poll " : Text) ++ t.jobName id) why)) failed why.message

theorem Closing.succeeded_iff {id : Int64} (h : Closing t id m result state reason) :
    state = Job.succeeded ↔ ∃ text, result = .ok text := by
  have hne : failed ≠ Job.succeeded := by decide
  cases h with
  | succeeded text => exact ⟨fun _ => ⟨text, rfl⟩, fun _ => rfl⟩
  | _ => exact ⟨fun h => absurd h hne, fun ⟨_, h⟩ => nomatch h⟩

-- ---------------------------------------------------------------------------
-- States that follow one another
-- ---------------------------------------------------------------------------

/-- Ordinary states published one after the other from `last` on, each of
them news, up to `final`. -/
inductive Stretch : Text → List Text → Text → Prop where
  | nil : Stretch last [] last
  | cons : Ordinary state → last ≠ state → Stretch state rest final →
      Stretch last (state :: rest) final

theorem Stretch.append (h : Stretch last first mid) (h' : Stretch mid second final) :
    Stretch last (first ++ second) final := by
  induction h with
  | nil => exact h'
  | cons ho hne _ ih => exact .cons ho hne (ih h')

theorem Stretch.ordinary (h : Stretch last states final) : ∀ state ∈ states, Ordinary state := by
  induction h with
  | nil => simp
  | cons ho _ _ ih =>
    intro state hm
    rcases List.mem_cons.mp hm with rfl | hm
    · exact ho
    · exact ih state hm

theorem Stretch.chain (h : Stretch last states final) : (last :: states).IsChain (· ≠ ·) := by
  induction h with
  | nil => simp
  | cons _ hne _ ih => exact List.isChain_cons_cons.mpr ⟨hne, ih⟩

/-- The states a job may stand at while it is followed. -/
def Open (state : Text) : Prop := state = queued ∨ Ordinary state

theorem Stretch.open (h : Stretch last states final) (ho : Open last) : Open final := by
  induction h with
  | nil => exact ho
  | cons hs _ _ ih => exact ih (.inr hs)

theorem Open.rank (h : Open state) : stateRank state = if state = queued then 1 else 2 := by
  rcases h with rfl | ⟨hne, hq, hs, hf⟩
  · decide
  · simp [stateRank, hne, hq, hs, hf]

theorem Open.ne_succeeded (h : Open state) : state ≠ succeeded := by
  rcases h with rfl | ⟨_, _, hs, _⟩
  · decide
  · exact hs

/-- Observing a state that does not close a job publishes it, if at all, as
an ordinary one that is news. -/
theorem observe_stretch (t : Ticket) (job : Progress) (hj : Open job.last)
    (hs : state ≠ succeeded) (hf : state ≠ failed) :
    (t.observe job state).1.id = job.id ∧
    ∃ states, Stretch job.last states (t.observe job state).1.last ∧
      Note.events (t.observe job state).2 = states.map (t.notice job.id · []) := by
  unfold Ticket.observe
  split
  · exact ⟨rfl, [], .nil, rfl⟩
  · rename_i hnews
    simp only [Bool.or_eq_true, List.isEmpty_iff, beq_iff_eq, not_or] at hnews
    split
    · exact ⟨rfl, [], .nil, rfl⟩
    · rename_i hrank
      -- A step back to `queued` is the only one the ranks forbid here.
      have hq : state ≠ queued := by
        rintro rfl
        have hlast : job.last ≠ queued := fun h => hnews.2 h.symm
        rw [hj.rank, if_neg hlast] at hrank
        exact hrank (by decide)
      exact ⟨rfl, [state], .cons ⟨hnews.1, hq, hs, hf⟩ (Ne.symm hnews.2) .nil, rfl⟩

theorem observe_succeeded (t : Ticket) (job : Progress) (hj : Open job.last) :
    Note.events (t.observe job succeeded).2 = [t.notice job.id succeeded []] := by
  have hrank : ¬ stateRank succeeded < stateRank job.last := by
    rw [hj.rank]
    split <;> decide
  have hnews : (succeeded.isEmpty || succeeded == job.last) = false := by
    simp [Ne.symm hj.ne_succeeded]
    decide
  simp [Ticket.observe, hnews, hrank, Ticket.publish, Ticket.notice]

-- ---------------------------------------------------------------------------
-- One moment
-- ---------------------------------------------------------------------------

/-- The run polls `job`, or waits until it polls it again. -/
def Run.Tracks (run : Run) (job : Progress) : Prop :=
  run.phase = .polling job ∨ run.phase = .waiting job

/-- What a moment makes of a run that tracks `job`: it goes on or it ends,
and in both cases it may publish ordinary states before. -/
inductive Turn (t : Ticket) (job : Progress) (m : Moment) : Run → List Event → Prop where
  | goesOn (states) : run.ticket = t → run.Tracks job' → job'.id = job.id →
      Stretch job.last states job'.last →
      Turn t job m run (states.map (t.notice job.id · []))
  | ends (states) : run.phase = .ended result → Stretch job.last states final →
      Closing t job.id m result state reason →
      Turn t job m run (states.map (t.notice job.id · []) ++ [t.notice job.id state reason])

section
variable {run : Run} {job : Progress}

theorem publish_note (t : Ticket) (job : Progress) (state reason : Text) :
    (t.publish job state reason).2 = .publish (t.notice job.id state reason) := rfl

theorem onPolled_turn (m : Moment) (ho : Open job.last) (hm : m.happening = .polled answer) :
    Turn run.ticket job m (run.onPolled m.now m.cancelled job answer).1
      (Note.events (run.onPolled m.now m.cancelled job answer).2) := by
  unfold Run.onPolled
  cases answer with
  | error why =>
    cases hc : m.cancelled with
    | true => exact .ends [] rfl .nil (.pollCancelled hm hc)
    | false => exact .ends [] rfl .nil (.pollFailed hm hc)
  | ok report =>
    by_cases hs : report.state = succeeded
    · simp only [hs, if_true, Run.finish, Note.events_append, observe_succeeded _ _ ho]
      exact .ends [] rfl .nil (.succeeded _)
    · simp only [hs, if_false]
      by_cases hf : report.state = failed ∨ report.done = true
      · simp only [hf, if_true]
        exact .ends [] rfl .nil (.reported _)
      · simp only [hf, if_false]
        rw [not_or] at hf
        obtain ⟨hid, states, hst, hev⟩ := observe_stretch run.ticket job ho hs hf.1
        split
        · simp only [Run.finish, Note.events_append, hev, publish_note, hid]
          exact .ends states rfl hst .timedOut
        · simp only [hev]
          exact .goesOn states rfl (.inr rfl) hid hst

theorem step_turn (m : Moment) (ht : run.Tracks job) (ho : Open job.last) :
    Turn run.ticket job m (run.step m.now m.cancelled m.happening).1
      (Note.events (run.step m.now m.cancelled m.happening).2) := by
  have still : Turn run.ticket job m run [] := .goesOn [] rfl ht rfl .nil
  rcases ht with hp | hp
  · cases hm : m.happening with
    | polled answer => simpa only [Run.step, hp] using onPolled_turn m ho hm
    | _ => simpa only [Run.step, hp, Note.events_nil] using still
  · cases hm : m.happening with
    | waited =>
      simp only [Run.step, hp]
      exact .goesOn [] rfl (.inl rfl) rfl .nil
    | interrupted =>
      simp only [Run.step, hp]
      exact .ends [] rfl .nil (.waitCancelled hm)
    | _ => simpa only [Run.step, hp, Note.events_nil] using still

end

-- ---------------------------------------------------------------------------
-- Whole calls
-- ---------------------------------------------------------------------------

theorem result?_registered {run : Run} (h : run.phase = .ended result) :
    (Call.registered run).result? = some result := by
  simp [Call.result?, h]

theorem result?_tracks {run : Run} (h : run.Tracks job) :
    (Call.registered run).result? = none := by
  rcases h with h | h <;> simp [Call.result?, h]

theorem hear_of_result {call : Call} (h : call.result? = some result) (m : Moment) :
    call.hear m = (call, []) := by
  cases call with
  | returned => rfl
  | registered run =>
    cases hp : run.phase with
    | ended =>
      simp only [Call.hear, Run.step, hp]
      cases m.happening <;> rfl
    | _ => simp [Call.result?, hp] at h

theorem follow_of_result {call : Call} (h : call.result? = some result) (moments : List Moment) :
    call.follow moments = (call, []) := by
  induction moments with
  | nil => rfl
  | cons m rest ih => simp only [Call.follow, hear_of_result h, ih, List.append_nil]

theorem follow_tracks {run : Run} (ht : run.Tracks job) (ho : Open job.last)
    (h : ((Call.registered run).follow moments).1.result? = some result) :
    ∃ m states final state reason, EndsAt (.registered run) moments m ∧
      Stretch job.last states final ∧
      Note.events ((Call.registered run).follow moments).2 =
        states.map (run.ticket.notice job.id · []) ++ [run.ticket.notice job.id state reason] ∧
      Closing run.ticket job.id m result state reason := by
  induction moments generalizing run job with
  | nil =>
    rw [show ((Call.registered run).follow []).1 = .registered run from rfl, result?_tracks ht] at h
    cases h
  | cons m rest ih =>
    have hturn := step_turn m ht ho
    have hhear : ((Call.registered run).hear m).1 =
        .registered (run.step m.now m.cancelled m.happening).1 := rfl
    simp only [Call.follow, Call.hear, Note.events_append] at h ⊢
    -- From here on the step counts only by what `Turn` says of it.
    generalize run.step m.now m.cancelled m.happening = out at hturn h hhear ⊢
    obtain ⟨next, notes⟩ := out
    generalize hev : Note.events notes = events at hturn ⊢
    cases hturn with
    | goesOn states htick hnext hid hst =>
      obtain ⟨last, later, final, state, reason, hend, hlater, hevents, hclose⟩ :=
        ih hnext (hst.open ho) h
      refine ⟨last, states ++ later, final, state, reason, ?_, hst.append hlater, ?_, ?_⟩
      · exact .later (result?_tracks ht) (hhear ▸ hend)
      · rw [hevents, htick, hid, List.map_append, List.append_assoc]
      · rwa [htick, hid] at hclose
    | ends states hphase hst hclose =>
      have hres := result?_registered hphase
      rw [follow_of_result hres] at h ⊢
      rw [hres] at h
      cases h
      refine ⟨m, states, _, _, _, ?_, hst, List.append_nil _, hclose⟩
      exact .here (result?_tracks ht) (hhear ▸ hres)

/-- What is published of a job that was accepted: `queued`, then ordinary
states of which no two in a row are equal, then one event that closes it. -/
def Told (ticket : Ticket) (id : Int64) (m : Moment) (result : Except Fault Text)
    (events : List Event) : Prop :=
  ∃ (states : List Text) (state reason : Text),
    events = ticket.notice id queued [] :: states.map (ticket.notice id · []) ++
      [ticket.notice id state reason] ∧
    (∀ state ∈ states, Ordinary state) ∧ states.IsChain (· ≠ ·) ∧
    (state = succeeded ↔ ∃ text, result = .ok text) ∧ Closing ticket id m result state reason

theorem submitAnswer?_submitted (hm : m.happening = .submitted answer) :
    submitAnswer? (m :: rest) = some answer := by
  simp [submitAnswer?, hm]

theorem submitAnswer?_other (hm : ∀ answer, m.happening ≠ .submitted answer) :
    submitAnswer? (m :: rest) = submitAnswer? rest := by
  unfold submitAnswer?
  cases h : m.happening with
  | submitted answer => exact absurd h (hm answer)
  | _ => simp [h]

theorem hear_submitted {run : Run} (hp : run.phase = .submitting)
    (hm : m.happening = .submitted answer) :
    (Call.registered run).hear m =
      (.registered (run.onSubmitted m.now answer).1, (run.onSubmitted m.now answer).2) := by
  simp [Call.hear, Run.step, hp, hm]

theorem hear_unsubmitted {run : Run} (hp : run.phase = .submitting)
    (hm : ∀ answer, m.happening ≠ .submitted answer) :
    (Call.registered run).hear m = (.registered run, []) := by
  simp only [Call.hear, Run.step, hp]
  cases h : m.happening with
  | submitted answer => exact absurd h (hm answer)
  | _ => rfl

theorem follow_accepted {run : Run} (hp : run.phase = .submitting)
    (hm : m.happening = .submitted (.ok receipt)) (hid : ¬ receipt.id ≤ 0)
    (h : ((Call.registered run).follow (m :: rest)).1.result? = some result) :
    ∃ last, EndsAt (.registered run) (m :: rest) last ∧
      Told run.ticket receipt.id last result
        (Note.events ((Call.registered run).follow (m :: rest)).2) := by
  let job : Progress := { id := receipt.id, started := m.now, last := queued }
  have hhear := hear_submitted hp hm
  simp only [Run.onSubmitted, hid, if_false, publish_note] at hhear
  have htracks : Run.Tracks { run with phase := .polling job } job := .inl rfl
  simp only [Call.follow, hhear] at h ⊢
  obtain ⟨last, states, final, state, reason, hend, hst, hev, hclose⟩ :=
    follow_tracks htracks (.inl rfl) h
  refine ⟨last, .later (by simp [Call.result?, hp]) (by rwa [hhear]), states, state, reason, ?_,
    hst.ordinary, hst.chain.of_cons, hclose.succeeded_iff, hclose⟩
  exact congrArg (run.ticket.notice receipt.id queued [] :: ·) hev

theorem follow_submitting {run : Run} (hp : run.phase = .submitting)
    (h : ((Call.registered run).follow moments).1.result? = some result) :
    (∃ why, submitAnswer? moments = some (.error why) ∧
      Note.events ((Call.registered run).follow moments).2 = []) ∨
    (∃ receipt, submitAnswer? moments = some (.ok receipt) ∧ receipt.id ≤ 0 ∧
      Note.events ((Call.registered run).follow moments).2 = []) ∨
    ∃ receipt last, submitAnswer? moments = some (.ok receipt) ∧ ¬ receipt.id ≤ 0 ∧
      EndsAt (.registered run) moments last ∧
      Told run.ticket receipt.id last result
        (Note.events ((Call.registered run).follow moments).2) := by
  have hnone : (Call.registered run).result? = none := by simp [Call.result?, hp]
  induction moments with
  | nil =>
    rw [show ((Call.registered run).follow []).1 = .registered run from rfl, hnone] at h
    cases h
  | cons m rest ih =>
    by_cases hm : ∃ answer, m.happening = .submitted answer
    · obtain ⟨answer, hm⟩ := hm
      rw [submitAnswer?_submitted hm]
      cases answer with
      | error why =>
        refine .inl ⟨why, rfl, ?_⟩
        simp only [Call.follow, hear_submitted hp hm]
        rw [follow_of_result rfl]
        rfl
      | ok receipt =>
        by_cases hid : receipt.id ≤ 0
        · refine .inr (.inl ⟨receipt, rfl, hid, ?_⟩)
          simp only [Call.follow, hear_submitted hp hm, Run.onSubmitted, hid, if_true]
          rw [follow_of_result rfl]
          rfl
        · obtain ⟨last, hend, htold⟩ := follow_accepted hp hm hid h
          exact .inr (.inr ⟨receipt, last, rfl, hid, hend, htold⟩)
    · rw [not_exists] at hm
      have hhear := hear_unsubmitted hp hm
      simp only [submitAnswer?_other hm]
      simp only [Call.follow, hhear, List.nil_append] at h ⊢
      rcases ih h with herr | hinv | ⟨receipt, last, hans, hid, hend, htold⟩
      · exact .inl herr
      · exact .inr (.inl hinv)
      · exact .inr (.inr ⟨receipt, last, hans, hid, .later hnone (hhear ▸ hend), htold⟩)

/-- Whatever the gateway answers and whenever the caller gives up, once the
result of a call is settled its listeners have heard nothing if it was
silent, and else all of `Told`. -/
theorem notices_of_result (desk : Desk Text) (ticket : Ticket) (moments : List Moment)
    (result : Except Fault Text)
    (h : ((Call.enter desk ticket).2.follow moments).1.result? = some result) :
    (Silent desk ticket moments →
      Note.events ((Call.enter desk ticket).2.follow moments).2 = []) ∧
    (¬ Silent desk ticket moments →
      ∃ receipt last, submitAnswer? moments = some (.ok receipt) ∧
        EndsAt (Call.enter desk ticket).2 moments last ∧
        Told ticket receipt.id last result
          (Note.events ((Call.enter desk ticket).2.follow moments).2)) := by
  by_cases hactive : desk.isActive ticket.type = true
  · have hrefused : (Call.enter desk ticket).2 =
        .returned (.error (.within ticket.type .jobInProgress)) := by
      simp [Call.enter, Desk.register?, hactive]
    refine ⟨fun _ => ?_, fun hs => absurd (.inl hactive) hs⟩
    rw [hrefused, follow_of_result rfl]
    rfl
  · have hentered : (Call.enter desk ticket).2 = .registered { ticket } := by
      simp [Call.enter, Desk.register?, hactive]
    rw [hentered] at h ⊢
    rcases follow_submitting rfl h with
      ⟨why, hans, hev⟩ | ⟨receipt, hans, hid, hev⟩ | ⟨receipt, last, hans, hid, hend, htold⟩
    · exact ⟨fun _ => hev, fun hs => absurd (.inr (.inl ⟨why, hans⟩)) hs⟩
    · exact ⟨fun _ => hev, fun hs => absurd (.inr (.inr ⟨receipt, hans, hid⟩)) hs⟩
    · refine ⟨?_, fun _ => ⟨receipt, last, hans, hend, htold⟩⟩
      rintro (hs | ⟨why, hs⟩ | ⟨other, hs, hle⟩)
      · exact absurd hs hactive
      · rw [hans] at hs
        cases hs
      · rw [hans] at hs
        cases hs
        exact absurd hle hid

/-- A scan whose caller gives up while it waits for the second poll. -/
def abandonedScan : List Moment := [
  { now := 0, cancelled := false, happening := .submitted (.ok { id := 7 }) },
  { now := 1, cancelled := false, happening := .polled (.ok { state := "running" }) },
  { now := 2, cancelled := true, happening := .interrupted }]

theorem notices_of_abandonedScan :
    ∃ last, Told { type := "scan" } 7 last (.error .canceled)
      (Note.events ((Call.enter {} { type := "scan" }).2.follow abandonedScan).2) := by
  have hloud : ¬ Silent {} { type := "scan" } abandonedScan := by
    rintro (h | ⟨why, h⟩ | ⟨receipt, h, hid⟩)
    · cases h
    · cases h
    · cases h
      exact absurd hid (by decide)
  obtain ⟨receipt, last, hans, _, htold⟩ :=
    (notices_of_result {} { type := "scan" } abandonedScan _ rfl).2 hloud
  cases hans
  exact ⟨last, htold⟩

end MeshConsole.Job
