import MeshConsole.Job.Run
import MeshConsole.Proofs.Simulator.JobTurns

/-!
# The history of jobs

What the simulator answers about its jobs over a whole run. A job goes through
its course (`course_of_job`), and what the answers to its polls have in common
follows from that (`Course.isRegular`).

`history_regular`: jobs are numbered from one on, a poll of any of them is
answered, each goes forward only, ends once, and from then on every poll of it is
answered alike. A job that refreshes the link table does so at the poll at which
it succeeds, and no other poll does.
-/

namespace MeshConsole.Simulator

open Job (stateRank)

-- ---------------------------------------------------------------------------
-- One job
-- ---------------------------------------------------------------------------

/-- So many jobs have been numbered, and every job is kept under its number. -/
structure Orderly (s : Simulator) (count : Nat) : Prop where
  last : s.lastJobId = Int64.ofNat count
  kept : ∀ id job, s.jobs.get? id = some job → job.IsKept id ∧
    ∃ n, 0 < n ∧ n ≤ count ∧ id = Int64.ofNat n

theorem orderly_new {s : Simulator} (hjobs : s.jobs = []) (hlast : s.lastJobId = 0) :
    Orderly s 0 :=
  ⟨hlast, fun id job hjob => by simp [hjobs, Table.get?] at hjob⟩

theorem scrub_jobState (h : state ∈ jobStates) : state.scrub = state := by
  have hall : ∀ state ∈ jobStates, state.scrub = state := by decide
  exact hall state h

theorem ofNat_inj {n m : Nat} (hn : n < 2 ^ 63) (hm : m < 2 ^ 63)
    (h : Int64.ofNat n = Int64.ofNat m) : n = m := by
  have htoInt := congrArg Int64.toInt h
  rw [Int64.toInt_ofNat_of_lt hn, Int64.toInt_ofNat_of_lt hm] at htoInt
  omega

theorem report?_of_polled {t : Turn} {id : Int64} {job : SimJob} (hpolled : t.polled? = some id)
    (hkept : job.IsKept id) (hresponse : t.response = okResponse job.toJson) :
    ∃ report, t.report? id = some report ∧ report.state = job.state ∧
      report.done = job.isDone := by
  obtain ⟨report, hreply, hreports⟩ := Rest.reply_report hkept.result id [] (by decide)
  refine ⟨report, ?_, ?_, hreports.done⟩
  · rw [Turn.report?, if_pos hpolled, hresponse, hreply]
    rfl
  · rw [hreports.state, scrub_jobState hkept.state]

section
variable {t : Turn} {count : Nat} (hmoves : t.Moves) (horderly : Orderly t.before count)
include hmoves horderly

theorem orderly_turn : Orderly t.after (count + t.receipt?.toList.length) := by
  cases hmoves with
  | apart hjobs hlast hreceipt =>
    rw [hreceipt]
    exact ⟨hlast.trans horderly.last, fun id job hjob => horderly.kept id job (hjobs ▸ hjob)⟩
  | queues job hkept _ hjobs hlast hreceipt =>
    have hid : job.id = Int64.ofNat (count + 1) := by
      rw [hkept.id, horderly.last]
      exact (Int64.ofNat_add count 1).symm
    rw [hreceipt]
    refine ⟨hlast.trans hid, ?_⟩
    intro id other hother
    rw [hjobs, Table.get?_set] at hother
    split at hother
    case isTrue heq =>
      obtain rfl : job = other := Option.some.inj hother
      subst heq
      exact ⟨{ hkept with id := rfl }, count + 1, Nat.succ_pos _, Nat.le_refl _, hid⟩
    case isFalse =>
      obtain ⟨hother, n, hpos, hle, hn⟩ := horderly.kept id other hother
      exact ⟨hother, n, hpos, Nat.le_succ_of_le hle, hn⟩
  | polls job job' hpolled hsubmits hjob hpoll hresponse =>
    obtain ⟨hkept, hnumber⟩ := horderly.kept _ job hjob
    have hreceipt : t.receipt? = none := by simp [Turn.receipt?, hsubmits]
    rw [hreceipt]
    refine ⟨hpoll.lastJobId.trans horderly.last, ?_⟩
    intro id other hother
    rw [hpoll.jobs (hkept.id.symm ▸ hjob), hkept.id] at hother
    split at hother
    case isTrue heq =>
      obtain rfl : job' = other := Option.some.inj hother
      exact ⟨heq ▸ hpoll.kept hkept, heq ▸ hnumber⟩
    case isFalse => exact horderly.kept id other hother

theorem turn_receipt (hreceipt : t.receipt? = some receipt) :
    receipt.id = Int64.ofNat (count + 1) ∧ receipt.type ∈ jobTypes ∧ receipt.state = "queued" ∧
      (∀ id, t.report? id = none) ∧
      ∃ job, t.after.jobs.get? receipt.id = some job ∧ job.type = receipt.type ∧
        job.isDone = false := by
  cases hmoves with
  | apart _ _ hnone => simp [hnone] at hreceipt
  | polls _ _ _ hsubmits => simp [Turn.receipt?, hsubmits] at hreceipt
  | queues job hkept hopen hjobs _ hqueued hpolled =>
    obtain rfl := Option.some.inj (hqueued.symm.trans hreceipt)
    have hid : job.id = Int64.ofNat (count + 1) := by
      rw [hkept.id, horderly.last]
      exact (Int64.ofNat_add count 1).symm
    refine ⟨hid, hkept.type, rfl, ?_, job, ?_, rfl, hopen⟩
    · intro id
      simp [Turn.report?, hpolled]
    · rw [hjobs, Table.get?_set, if_pos rfl]

/-- Only a job that is there is reported on. -/
theorem turn_known {id : Int64} (hreport : t.report? id = some report) :
    ∃ job, t.before.jobs.get? id = some job ∧ ∃ n, 0 < n ∧ n ≤ count ∧ id = Int64.ofNat n := by
  cases hmoves with
  | apart _ _ _ hnone => simp [hnone] at hreport
  | queues _ _ _ _ _ _ hpolled => simp [Turn.report?, hpolled] at hreport
  | polls job _ hpolled _ hjob =>
    have hid : t.polled? = some id := by
      by_contra hother
      simp [Turn.report?, hother] at hreport
    obtain rfl := Option.some.inj (hpolled.symm.trans hid)
    exact ⟨job, hjob, (horderly.kept _ job hjob).2⟩

/-- Whoever polls a job that is there is granted it and can read the answer. -/
theorem turn_answered {id : Int64} {job : SimJob} (hpolled : t.polled? = some id)
    (hjob : t.before.jobs.get? id = some job) :
    t.response.status = 200 ∧ (t.report? id).isSome = true := by
  cases hmoves with
  | apart _ _ _ _ _ hrefused =>
    obtain ⟨hnone, -⟩ := hrefused id hpolled
    simp [hjob] at hnone
  | queues _ _ _ _ _ _ hnone => simp [hpolled] at hnone
  | polls found job' hid _ hfound hpoll hresponse =>
    obtain rfl := Option.some.inj (hid.symm.trans hpolled)
    obtain ⟨report, hreport, -⟩ :=
      report?_of_polled hid (hpoll.kept (horderly.kept _ found hfound).1) hresponse
    exact ⟨by rw [hresponse]; rfl, by rw [hreport]; rfl⟩

/-- Whoever is granted a job or a poll can read the answer. -/
theorem turn_read (hstatus : t.response.status = 200) :
    (t.submits = true → t.receipt?.isSome = true) ∧
      ∀ id, t.polled? = some id → (t.report? id).isSome = true := by
  have hmoved := hmoves
  cases hmoved with
  | apart _ _ _ _ hsubmit hrefused =>
    refine ⟨fun hsubmits => ?_, fun id hpolled => ?_⟩
    · exact absurd hstatus (hsubmit hsubmits)
    · exact absurd hstatus (hrefused id hpolled).2
  | queues _ _ _ _ _ hreceipt hnone =>
    refine ⟨fun _ => by rw [hreceipt]; rfl, fun id hpolled => ?_⟩
    simp [hnone] at hpolled
  | polls job _ hpolled hsubmits hjob =>
    refine ⟨fun hother => ?_, fun id hid => ?_⟩
    · simp [hsubmits] at hother
    · obtain rfl := Option.some.inj (hpolled.symm.trans hid)
      exact (turn_answered hmoves horderly hpolled hjob).2

/-- A job stays as it is, or it is polled. -/
theorem turn_job {id : Int64} {job : SimJob}
    (hroom : count + t.receipt?.toList.length < 2 ^ 63) (hjob : t.before.jobs.get? id = some job) :
    (t.report? id = none ∧ t.after.jobs.get? id = some job) ∨
    ∃ job' report, t.report? id = some report ∧ report.state = job'.state ∧
      report.done = job'.isDone ∧ Polled t.before t.now job t.after job' t.effects ∧
      t.response = okResponse job'.toJson ∧ t.after.jobs.get? id = some job' := by
  obtain ⟨hkept, n, -, hle, hn⟩ := horderly.kept id job hjob
  cases hmoves with
  | apart hjobs _ _ hreport => exact .inl ⟨hreport id, hjobs ▸ hjob⟩
  | queues new hnew _ hjobs _ hreceipt hpolled =>
    have hfits : count + 1 < 2 ^ 63 := by simpa [hreceipt] using hroom
    have hother : new.id ≠ id := by
      intro heq
      rw [hnew.id, horderly.last, hn] at heq
      have := ofNat_inj hfits (by omega) ((Int64.ofNat_add count 1).trans heq)
      omega
    refine .inl ⟨by simp [Turn.report?, hpolled], ?_⟩
    rw [hjobs, Table.get?_set, if_neg hother, hjob]
  | @polls polled found job' hpolled _ hfound hpoll hresponse =>
    by_cases hid : polled = id
    · subst hid
      obtain rfl : found = job := Option.some.inj (hfound.symm.trans hjob)
      have hafter := hpoll.jobs (hkept.id.symm ▸ hjob) polled
      obtain ⟨report, hreport, hstate, hdone⟩ :=
        report?_of_polled hpolled (hpoll.kept hkept) hresponse
      refine .inr ⟨job', report, hreport, hstate, hdone, hpoll, hresponse, ?_⟩
      rw [hafter, if_pos hkept.id]
    · have hreport : t.report? id = none := by simp [Turn.report?, hpolled, hid]
      have hfoundId := (horderly.kept _ _ hfound).1.id
      refine .inl ⟨hreport, ?_⟩
      rw [hpoll.jobs (hfoundId.symm ▸ hfound), hfoundId, if_neg hid, hjob]

end

theorem receipts_cons (t : Turn) (ts : List Turn) :
    receipts (t :: ts) = t.receipt?.toList ++ receipts ts := by
  cases h : t.receipt? <;> simp [receipts, h]

theorem length_receipts_le (steps : List (Instant × Step)) (s : Simulator) :
    (receipts (turns s steps)).length ≤ steps.length := by
  induction steps generalizing s with
  | nil => exact Nat.le_refl _
  | cons step steps ih =>
    rw [turns, receipts_cons, List.length_append, List.length_cons, Nat.add_comm]
    exact Nat.add_le_add (ih _) (by cases (s.turn step.1 step.2).receipt? <;> simp)

theorem answers_cons (id : Int64) (t : Turn) (ts : List Turn) :
    answers id (t :: ts) = ((t.report? id).map (.mk t)).toList ++ answers id ts := by
  cases h : t.report? id <;> simp [answers, h]

theorem report?_unique {t later : Turn} {id : Int64} (hlater : later.report? id = some report')
    (hreport : t.report? id = some report) (hsame : later.response = t.response) :
    report' = report := by
  unfold Turn.report? at hlater hreport
  split at hlater <;> split at hreport
  case isTrue.isTrue =>
    rw [hsame, hreport] at hlater
    exact (Option.some.inj hlater).symm
  case isTrue.isFalse => cases hreport
  case isFalse.isTrue | isFalse.isFalse => cases hlater

/-- Answered like before, and without any effect. -/
structure Repeats (answer later : Answer) : Prop where
  response : later.turn.response = answer.turn.response
  report : later.report = answer.report
  spares : later.turn.Spares

/-- The answers to the polls of a job, from a time at which it has not ended
on. -/
inductive Course (type : Text) : List Answer → Prop where
  | none : Course type []
  | runs {a : Answer} {rest : List Answer} : a.report.state = "running" →
      a.report.done = false → a.turn.Spares → Course type rest → Course type (a :: rest)
  | fails {a : Answer} {rest : List Answer} : a.report.state = "failed" → a.report.done = true →
      a.turn.before.failureOf type ≠ [] → a.turn.Spares → (∀ later ∈ rest, Repeats a later) →
      Course type (a :: rest)
  | succeeds {a : Answer} {rest : List Answer} : a.report.state = "succeeded" →
      a.report.done = true → a.turn.before.failureOf type = [] →
      (type = "lqi_refresh" → a.turn.Regrades) → (type ≠ "lqi_refresh" → a.turn.Spares) →
      (∀ later ∈ rest, Repeats a later) → Course type (a :: rest)

section
variable {id : Int64} {job : SimJob}

/-- Nothing becomes of a job that has ended. -/
theorem answers_ended (steps : List (Instant × Step)) {s : Simulator} {count : Nat}
    (horderly : Orderly s count) (hroom : count + (receipts (turns s steps)).length < 2 ^ 63)
    (hjob : s.jobs.get? id = some job) (hdone : job.isDone = true) :
    ∀ answer ∈ answers id (turns s steps), answer.turn.response = okResponse job.toJson ∧
      answer.turn.report? id = some answer.report ∧ answer.turn.Spares := by
  induction steps generalizing s count with
  | nil => simp [turns, answers]
  | cons step steps ih =>
    obtain ⟨now, step⟩ := step
    rw [turns, receipts_cons, List.length_append] at hroom
    have hmoves := turn_moves s now step
    have hnext := orderly_turn hmoves horderly
    rw [turns, answers_cons]
    obtain ⟨hreport, hafter⟩ | ⟨job', report, hreport, -, -, hpoll, hresponse, hafter⟩ :=
      turn_job hmoves horderly (by omega) hjob
    · rw [hreport]
      exact ih hnext (by omega) hafter
    · obtain ⟨hsame, rfl, hquiet⟩ := hpoll.of_done hdone
      have hspares : (s.turn now step).Spares := ⟨by rw [hsame], by rw [hquiet]; rfl⟩
      rw [hreport]
      exact List.forall_mem_cons.mpr ⟨⟨hresponse, hreport, hspares⟩, ih hnext (by omega) hafter⟩

/-- A job that is there can be polled ever after. -/
theorem polls_answered (steps : List (Instant × Step)) {s : Simulator} {count : Nat}
    (horderly : Orderly s count) (hroom : count + (receipts (turns s steps)).length < 2 ^ 63)
    (hjob : s.jobs.get? id = some job) : ∀ t ∈ turns s steps, t.polled? = some id →
      t.response.status = 200 ∧ (t.report? id).isSome = true := by
  induction steps generalizing s count job with
  | nil => exact List.forall_mem_nil _
  | cons step steps ih =>
    obtain ⟨now, step⟩ := step
    rw [turns, receipts_cons, List.length_append] at hroom
    have hmoves := turn_moves s now step
    have hnext := orderly_turn hmoves horderly
    have hlater : ∃ job', (s.turn now step).after.jobs.get? id = some job' := by
      obtain ⟨-, hafter⟩ | ⟨job', _, -, -, -, -, -, hafter⟩ :=
        turn_job hmoves horderly (by omega) hjob
      · exact ⟨job, hafter⟩
      · exact ⟨job', hafter⟩
    obtain ⟨job', hafter⟩ := hlater
    exact List.forall_mem_cons.mpr ⟨fun hpolled => turn_answered hmoves horderly hpolled hjob,
      ih hnext (by omega) hafter⟩

/-- From the end of a job on, every poll of it has the same answer. -/
theorem polls_ended (steps : List (Instant × Step)) {s : Simulator} {count : Nat}
    (horderly : Orderly s count) (hroom : count + (receipts (turns s steps)).length < 2 ^ 63)
    (hjob : s.jobs.get? id = some job) (hdone : job.isDone = true) :
    ∀ t ∈ turns s steps, t.polled? = some id → t.response = okResponse job.toJson := by
  intro t ht hpolled
  obtain ⟨-, hsome⟩ := polls_answered steps horderly hroom hjob t ht hpolled
  obtain ⟨report, hreport⟩ := Option.isSome_iff_exists.mp hsome
  have hanswer : (⟨t, report⟩ : Answer) ∈ answers id (turns s steps) :=
    List.mem_filterMap.mpr ⟨t, ht, by rw [hreport]; rfl⟩
  exact (answers_ended steps horderly hroom hjob hdone _ hanswer).1

theorem course_of_job (steps : List (Instant × Step)) {s : Simulator} {count : Nat}
    (horderly : Orderly s count) (hroom : count + (receipts (turns s steps)).length < 2 ^ 63)
    (hjob : s.jobs.get? id = some job) (hopen : job.isDone = false) :
    Course job.type (answers id (turns s steps)) := by
  induction steps generalizing s count job with
  | nil => exact .none
  | cons step steps ih =>
    obtain ⟨now, step⟩ := step
    rw [turns, receipts_cons, List.length_append] at hroom
    have hmoves := turn_moves s now step
    have hnext := orderly_turn hmoves horderly
    have hroom' : count + (s.turn now step).receipt?.toList.length +
        (receipts (turns (s.turn now step).after steps)).length < 2 ^ 63 := by omega
    rw [turns, answers_cons]
    obtain ⟨hreport, hafter⟩ | ⟨job', report, hreport, hstate, hdone, hpoll, hresponse, hafter⟩ :=
      turn_job hmoves horderly (by omega) hjob
    · rw [hreport]
      exact ih hnext hroom' hafter hopen
    · rw [hreport]
      have hrepeats (hend : job'.isDone = true) :
          ∀ later ∈ answers id (turns (s.turn now step).after steps),
            Repeats ⟨s.turn now step, report⟩ later := by
        intro later hlater
        obtain ⟨hlast, hlater, hspares⟩ := answers_ended steps hnext hroom' hafter hend later hlater
        have hsame : later.turn.response = (s.turn now step).response := hlast.trans hresponse.symm
        exact ⟨hsame, report?_unique hlater hreport hsame, hspares⟩
      obtain ⟨hkept, -⟩ := horderly.kept id job hjob
      have htype : job'.type = job.type := hpoll.continues.type
      rcases hpoll.of_open hopen hkept.type with
        ⟨hrunning, hspares⟩ | ⟨hfailed, hfailure, hspares⟩ |
        ⟨hsucceeded, hfailure, hregrades, hspares⟩
      · have hgoesOn : job'.isDone = false := by rw [SimJob.isDone, hrunning]; rfl
        rw [hrunning] at hstate
        rw [hgoesOn] at hdone
        exact .runs hstate hdone hspares (htype ▸ ih hnext hroom' hafter hgoesOn)
      · have hend : job'.isDone = true := by rw [SimJob.isDone, hfailed]; rfl
        rw [hfailed] at hstate
        rw [hend] at hdone
        exact .fails hstate hdone hfailure hspares (hrepeats hend)
      · have hend : job'.isDone = true := by rw [SimJob.isDone, hsucceeded]; rfl
        rw [hsucceeded] at hstate
        rw [hend] at hdone
        exact .succeeds hstate hdone hfailure hregrades hspares (hrepeats hend)

end

-- ---------------------------------------------------------------------------
-- Courses
-- ---------------------------------------------------------------------------

/-- The answers about one job of a type. -/
structure IsRegular (type : Text) (answers : List Answer) : Prop where
  states : ∀ a ∈ answers, a.report.state ∈ jobStates
  forward : answers.Pairwise fun a b : Answer =>
    a.report.state = b.report.state ∨ stateRank a.report.state < stateRank b.report.state
  done : ∀ a : Answer, a ∈ answers →
    (a.report.done = true ↔ a.report.state = "succeeded" ∨ a.report.state = "failed")
  final : answers.Pairwise fun a b : Answer =>
    a.report.done = true → b.turn.response = a.turn.response
  /-- The first answer that tells of the end is given at the poll that ends the
  job. -/
  ending : ∀ (earlier : List Answer) (a : Answer) (later : List Answer),
    answers = earlier ++ a :: later → (∀ b ∈ earlier, b.report.done = false) →
      a.report.done = true → (a.report.state = "failed" ↔ a.turn.before.failureOf type ≠ [])
  regrades : ∀ (earlier : List Answer) (a : Answer) (later : List Answer),
    answers = earlier ++ a :: later → (∀ b ∈ earlier, b.report.done = false) →
      a.report.state = "succeeded" → type = "lqi_refresh" → a.turn.Regrades
  spares : ∀ (earlier : List Answer) (a : Answer) (later : List Answer),
    answers = earlier ++ a :: later →
      ¬ ((∀ b ∈ earlier, b.report.done = false) ∧ a.report.state = "succeeded" ∧
        type = "lqi_refresh") → a.turn.Spares

/-- What a report may tell of a job that has been polled. -/
inductive Tells (report : JobReport) : Prop where
  | runs : report.state = "running" → report.done = false → Tells report
  | ended : report.state ∈ [Job.succeeded, Job.failed] → report.done = true → Tells report

namespace Course

variable {type : Text} {answers : List Answer}

theorem tells (h : Course type answers) : ∀ a ∈ answers, Tells a.report := by
  induction h with
  | none => exact List.forall_mem_nil _
  | runs hstate hdone _ _ ih => exact List.forall_mem_cons.mpr ⟨.runs hstate hdone, ih⟩
  | fails hstate hdone _ _ hrest =>
    have htells : Tells _ := .ended (hstate ▸ .tail _ (.head _)) hdone
    exact List.forall_mem_cons.mpr ⟨htells, fun a ha => (hrest a ha).report ▸ htells⟩
  | succeeds hstate hdone _ _ _ hrest =>
    have htells : Tells _ := .ended (hstate ▸ .head _) hdone
    exact List.forall_mem_cons.mpr ⟨htells, fun a ha => (hrest a ha).report ▸ htells⟩

/-- Unless a job has ended earlier, its course goes on from any answer. -/
theorem split {earlier later : List Answer} {a : Answer}
    (h : Course type (earlier ++ a :: later)) :
    (∃ b ∈ earlier, b.report.done = true ∧ Repeats b a) ∨
      (∀ b ∈ earlier, b.report.done = false) ∧ Course type (a :: later) := by
  induction earlier with
  | nil => exact .inr ⟨List.forall_mem_nil _, h⟩
  | cons b earlier ih =>
    have ha : a ∈ earlier ++ a :: later := List.mem_append_right _ (.head _)
    cases h with
    | runs _ hdone _ hrest =>
      rcases ih hrest with ⟨c, hc, hrepeats⟩ | ⟨hopen, hcourse⟩
      · exact .inl ⟨c, .tail _ hc, hrepeats⟩
      · exact .inr ⟨List.forall_mem_cons.mpr ⟨hdone, hopen⟩, hcourse⟩
    | fails _ hdone _ _ hrest => exact .inl ⟨_, .head _, hdone, hrest a ha⟩
    | succeeds _ hdone _ _ _ hrest => exact .inl ⟨_, .head _, hdone, hrest a ha⟩

/-- While a job runs, anything may follow; after its end, nothing changes. -/
theorem pairwise (h : Course type answers) : answers.Pairwise fun a b : Answer =>
    a.report.state = "running" ∧ a.report.done = false ∨ a.report.done = true ∧ Repeats a b := by
  have hended {a : Answer} {rest : List Answer} (hdone : a.report.done = true)
      (hrest : ∀ later ∈ rest, Repeats a later) : (a :: rest).Pairwise fun a b : Answer =>
        a.report.state = "running" ∧ a.report.done = false ∨
          a.report.done = true ∧ Repeats a b := by
    refine .cons (fun b hb => .inr ⟨hdone, hrest b hb⟩) ?_
    refine List.pairwise_of_forall_mem_list fun b hb c hc => .inr ?_
    obtain ⟨hresponse, hreport, -⟩ := hrest b hb
    obtain ⟨hresponse', hreport', hspares⟩ := hrest c hc
    exact ⟨hreport ▸ hdone, hresponse'.trans hresponse.symm, hreport'.trans hreport.symm, hspares⟩
  induction h with
  | none => exact .nil
  | runs hstate hdone _ _ ih => exact .cons (fun _ _ => .inl ⟨hstate, hdone⟩) ih
  | fails _ hdone _ _ hrest => exact hended hdone hrest
  | succeeds _ hdone _ _ _ hrest => exact hended hdone hrest

/-- The first answer that tells of the end. -/
theorem at_end {earlier later : List Answer} {a : Answer}
    (h : Course type (earlier ++ a :: later)) (hopen : ∀ b ∈ earlier, b.report.done = false) :
    Course type (a :: later) := by
  rcases h.split with ⟨b, hb, hdone, -⟩ | ⟨-, hcourse⟩
  · simp [hopen b hb] at hdone
  · exact hcourse

theorem isRegular (h : Course type answers) : IsRegular type answers where
  states a ha := by
    cases h.tells a ha with
    | runs hstate => exact hstate ▸ .tail _ (.head _)
    | ended hstate => exact .tail _ (.tail _ hstate)
  done a ha := by
    cases h.tells a ha with
    | runs hstate hdone =>
      rw [hstate, hdone]
      decide
    | ended hstate hdone => simpa [hdone, Job.succeeded, Job.failed] using hstate
  forward := by
    refine h.pairwise.imp_of_mem ?_
    intro a b ha hb hab
    rcases hab with ⟨hrunning, -⟩ | ⟨-, hrepeats⟩
    · cases h.tells b hb with
      | runs hstate => exact .inl (hrunning.trans hstate.symm)
      | ended hstate =>
        have hrank : ∀ state ∈ [Job.succeeded, Job.failed],
            stateRank "running" < stateRank state := by
          decide
        exact .inr (hrunning ▸ hrank _ hstate)
    · exact .inl (congrArg JobReport.state hrepeats.report.symm)
  final := by
    refine h.pairwise.imp ?_
    rintro a b (⟨-, hopen⟩ | ⟨-, hrepeats⟩) hdone
    · simp [hopen] at hdone
    · exact hrepeats.response
  ending := by
    rintro earlier a later rfl hopen hdone
    cases h.at_end hopen with
    | runs _ hrunning => simp [hrunning] at hdone
    | fails hstate _ hfailure => simp [hstate, hfailure]
    | succeeds hstate _ hfailure =>
      rw [hstate, hfailure]
      decide
  regrades := by
    rintro earlier a later rfl hopen hsucceeded htype
    cases h.at_end hopen with
    | runs hstate | fails hstate =>
      rw [hstate] at hsucceeded
      exact absurd hsucceeded (by decide)
    | succeeds _ _ _ hregrades => exact hregrades htype
  spares := by
    rintro earlier a later rfl hnot
    rcases h.split with ⟨b, -, -, hrepeats⟩ | ⟨hopen, hcourse⟩
    · exact hrepeats.spares
    · cases hcourse with
      | runs _ _ hspares | fails _ _ _ hspares => exact hspares
      | succeeds hstate _ _ _ hspares => exact hspares fun htype => hnot ⟨hopen, hstate, htype⟩

end Course

-- ---------------------------------------------------------------------------
-- All jobs
-- ---------------------------------------------------------------------------

/-- What a simulator answers about its jobs. -/
structure IsHistory (turns : List Turn) : Prop where
  /-- Accepted jobs are numbered from one on. -/
  numbers : ∀ (i : Nat) (receipt : JobReceipt), (receipts turns)[i]? = some receipt →
    receipt.id.toInt = i + 1 ∧ receipt.type ∈ jobTypes ∧ receipt.state = "queued"
  jobs : ∀ receipt ∈ receipts turns, IsRegular receipt.type (answers receipt.id turns)
  /-- There are no other jobs. -/
  known : ∀ id, answers id turns ≠ [] → ∃ receipt ∈ receipts turns, receipt.id = id
  /-- Whoever is granted a job or a poll can read the answer. -/
  read : ∀ t ∈ turns, t.response.status = 200 → (t.submits = true → t.receipt?.isSome = true) ∧
    ∀ id, t.polled? = some id → (t.report? id).isSome = true
  /-- A job that has been given out is never forgotten. -/
  answered : ∀ (earlier : List Turn) (t : Turn) (later : List Turn),
    turns = earlier ++ t :: later → ∀ receipt ∈ receipts earlier, t.polled? = some receipt.id →
      t.response.status = 200 ∧ (t.report? receipt.id).isSome = true
  /-- Once the end of a job has been told, every later poll of it is answered
  alike. -/
  lasting : ∀ (earlier : List Turn) (t : Turn) (later : List Turn),
    turns = earlier ++ t :: later → ∀ id report, t.report? id = some report →
      report.done = true → ∀ u ∈ later, u.polled? = some id → u.response = t.response

section
variable (steps : List (Instant × Step)) {s : Simulator} {count : Nat}
  (horderly : Orderly s count)
include horderly

theorem receipts_numbered {i : Nat} {receipt : JobReceipt}
    (h : (receipts (turns s steps))[i]? = some receipt) :
    receipt.id = Int64.ofNat (count + i + 1) ∧ receipt.type ∈ jobTypes ∧
      receipt.state = "queued" := by
  induction steps generalizing s count i with
  | nil => simp [turns, receipts] at h
  | cons step steps ih =>
    obtain ⟨now, step⟩ := step
    have hmoves := turn_moves s now step
    have hnext := orderly_turn hmoves horderly
    rw [turns, receipts_cons] at h
    cases hreceipt : (s.turn now step).receipt? with
    | none =>
      rw [hreceipt] at h hnext
      exact ih hnext h
    | some first =>
      rw [hreceipt] at h hnext
      cases i with
      | zero =>
        obtain rfl : first = receipt := by simpa using h
        obtain ⟨hid, htype, hstate, -⟩ := turn_receipt hmoves horderly hreceipt
        exact ⟨hid, htype, hstate⟩
      | succ i =>
        have hrest := ih hnext (by simpa using h)
        rwa [Option.toList_some, List.length_singleton, Nat.add_right_comm count] at hrest

theorem course_of_receipt (hroom : count + (receipts (turns s steps)).length < 2 ^ 63) :
    ∀ receipt ∈ receipts (turns s steps),
      Course receipt.type (answers receipt.id (turns s steps)) := by
  induction steps generalizing s count with
  | nil => simp [turns, receipts]
  | cons step steps ih =>
    obtain ⟨now, step⟩ := step
    have hmoves := turn_moves s now step
    have hnext := orderly_turn hmoves horderly
    rw [turns, receipts_cons, List.length_append] at hroom
    have hroom' : count + (s.turn now step).receipt?.toList.length +
        (receipts (turns (s.turn now step).after steps)).length < 2 ^ 63 := by omega
    intro receipt hmem
    rw [turns, receipts_cons, List.mem_append, Option.mem_toList] at hmem
    rw [turns, answers_cons]
    rcases hmem with hfirst | hlater
    · obtain ⟨-, -, -, hreport, job, hjob, htype, hopen⟩ :=
        turn_receipt hmoves horderly hfirst
      rw [hreport]
      exact htype ▸ course_of_job steps hnext hroom' hjob hopen
    · have hnone : (s.turn now step).report? receipt.id = none := by
        by_contra hsome
        obtain ⟨report, hreport⟩ := Option.ne_none_iff_exists'.mp hsome
        obtain ⟨-, -, n, -, hle, hn⟩ := turn_known hmoves horderly hreport
        obtain ⟨i, hi, hget⟩ := List.mem_iff_getElem.mp hlater
        have hnumber := (receipts_numbered steps hnext
          ((List.getElem?_eq_getElem hi).trans (congrArg some hget))).1
        have heq := ofNat_inj (by omega) (by omega) (hn.symm.trans hnumber)
        omega
      rw [hnone]
      exact ih hnext hroom' receipt hlater

theorem answers_known {id : Int64} (h : answers id (turns s steps) ≠ []) :
    (∃ n, 0 < n ∧ n ≤ count ∧ id = Int64.ofNat n) ∨
      ∃ receipt ∈ receipts (turns s steps), receipt.id = id := by
  induction steps generalizing s count with
  | nil => simp [turns, answers] at h
  | cons step steps ih =>
    obtain ⟨now, step⟩ := step
    have hmoves := turn_moves s now step
    have hnext := orderly_turn hmoves horderly
    rw [turns, receipts_cons]
    cases hreport : (s.turn now step).report? id with
    | some report =>
      obtain ⟨-, -, hnumbered⟩ := turn_known hmoves horderly hreport
      exact .inl hnumbered
    | none =>
      rw [turns, answers_cons, hreport] at h
      rcases ih hnext h with ⟨n, hpos, hle, hn⟩ | ⟨receipt, hmem, hid⟩
      · cases hreceipt : (s.turn now step).receipt? with
        | none =>
          rw [hreceipt] at hle
          exact .inl ⟨n, hpos, hle, hn⟩
        | some receipt =>
          rw [hreceipt] at hle
          by_cases hnew : n = count + 1
          · obtain ⟨hid, -⟩ := turn_receipt hmoves horderly hreceipt
            exact .inr ⟨receipt, .head _, by rw [hid, hn, hnew]⟩
          · exact .inl ⟨n, hpos, Nat.le_of_lt_succ (Nat.lt_of_le_of_ne hle hnew), hn⟩
      · exact .inr ⟨receipt, List.mem_append_right _ hmem, hid⟩

theorem turns_read : ∀ t ∈ turns s steps, t.response.status = 200 →
    (t.submits = true → t.receipt?.isSome = true) ∧
      ∀ id, t.polled? = some id → (t.report? id).isSome = true := by
  induction steps generalizing s count with
  | nil => exact List.forall_mem_nil _
  | cons step steps ih =>
    obtain ⟨now, step⟩ := step
    have hmoves := turn_moves s now step
    exact List.forall_mem_cons.mpr ⟨turn_read hmoves horderly, ih (orderly_turn hmoves horderly)⟩

theorem answered_after_receipt (hroom : count + (receipts (turns s steps)).length < 2 ^ 63)
    {earlier later : List Turn} {t : Turn} (hturns : turns s steps = earlier ++ t :: later)
    {receipt : JobReceipt} (hreceipt : receipt ∈ receipts earlier)
    (hpolled : t.polled? = some receipt.id) :
    t.response.status = 200 ∧ (t.report? receipt.id).isSome = true := by
  induction steps generalizing s count earlier with
  | nil => simp [turns] at hturns
  | cons step steps ih =>
    obtain ⟨now, step⟩ := step
    have hmoves := turn_moves s now step
    have hnext := orderly_turn hmoves horderly
    rw [turns, receipts_cons, List.length_append] at hroom
    cases earlier with
    | nil => simp [receipts] at hreceipt
    | cons first earlier =>
      obtain ⟨rfl, hrest⟩ := List.cons.inj hturns
      rw [receipts_cons, List.mem_append, Option.mem_toList] at hreceipt
      rcases hreceipt with hfirst | hearlier
      · obtain ⟨-, -, -, -, job, hjob, -⟩ := turn_receipt hmoves horderly hfirst
        have ht : t ∈ turns (s.turn now step).after steps := by simp [hrest]
        exact polls_answered steps hnext (by omega) hjob t ht hpolled
      · exact ih hnext (by omega) hrest hearlier

theorem lasting_after_end (hroom : count + (receipts (turns s steps)).length < 2 ^ 63)
    {earlier later : List Turn} {t : Turn} (hturns : turns s steps = earlier ++ t :: later)
    {id : Int64} {report : JobReport} (hreport : t.report? id = some report)
    (hdone : report.done = true) : ∀ u ∈ later, u.polled? = some id → u.response = t.response := by
  induction steps generalizing s count earlier with
  | nil => simp [turns] at hturns
  | cons step steps ih =>
    obtain ⟨now, step⟩ := step
    have hmoves := turn_moves s now step
    have hnext := orderly_turn hmoves horderly
    rw [turns, receipts_cons, List.length_append] at hroom
    cases earlier with
    | cons first earlier => exact ih hnext (by omega) (List.cons.inj hturns).2
    | nil =>
      obtain ⟨rfl, rfl⟩ := List.cons.inj hturns
      obtain ⟨job, hjob, -⟩ := turn_known hmoves horderly hreport
      obtain ⟨hnone, -⟩ | ⟨job', told, htold, -, hend, -, hresponse, hafter⟩ :=
        turn_job hmoves horderly (by omega) hjob
      · simp [hnone] at hreport
      · obtain rfl := Option.some.inj (htold.symm.trans hreport)
        intro u hu hpolled
        rw [hresponse]
        exact polls_ended steps hnext (by omega) hafter (hend.symm.trans hdone) u hu hpolled

end

/-- Whatever becomes of a simulator that has no job yet, as long as the numbers
of jobs do not overflow. The jobs that it accepts are numbered from one on, and
every poll of one is answered from then on. The answers about each of them go
forward only, and whatever is polled after its end is answered as its end was;
it ends as failed if a failure is set for its type at that poll. Of all polls
of a job, the one that finds it succeeded refreshes the link table, for a job of
that type, and no other has any effect. -/
theorem history_regular (s : Simulator) (steps : List (Instant × Step)) (hjobs : s.jobs = [])
    (hlast : s.lastJobId = 0) (hroom : (receipts (turns s steps)).length < 2 ^ 63) :
    IsHistory (turns s steps) := by
  have horderly := orderly_new hjobs hlast
  have hcourses := course_of_receipt steps horderly (by omega)
  refine ⟨?_, fun receipt hmem => (hcourses receipt hmem).isRegular, ?_,
    turns_read steps horderly, ?_, ?_⟩
  · intro i receipt hget
    obtain ⟨hid, htype, hstate⟩ := receipts_numbered steps horderly hget
    obtain ⟨hi, -⟩ := List.getElem?_eq_some_iff.mp hget
    refine ⟨?_, htype, hstate⟩
    rw [hid, Nat.zero_add, Int64.toInt_ofNat_of_lt (by omega)]
    rfl
  · intro id hne
    rcases answers_known steps horderly hne with ⟨n, hpos, hle, -⟩ | hknown
    · omega
    · exact hknown
  · intro earlier t later hturns receipt hreceipt hpolled
    exact answered_after_receipt steps horderly (by omega) hturns hreceipt hpolled
  · intro earlier t later hturns id report hreport hdone
    exact lasting_after_end steps horderly (by omega) hturns hreport hdone

/-- A refresh of the link table. Its failure is set before and after the poll
at which it ends, but not then. -/
def refreshRun : List (Instant × Step) := [
  (0, .setNeighbors "neighbor_table" [{ addr := 0x1001, lqi := some 90 }]),
  (1, .request {
    method := "POST", url := { path := "/api/v1/jobs" }
    body := "\x7b\"type\": \"lqi_refresh\"\x7d" }),
  (2, .configure (.failJobs "lqi_refresh" "BUSY")),
  (3, .request { method := "GET", url := { path := "/api/v1/jobs/1" } }),
  (4, .configure (.failJobs "lqi_refresh" "")),
  (5, .request { method := "GET", url := { path := "/api/v1/jobs/1" } }),
  (6, .configure (.failJobs "lqi_refresh" "BUSY")),
  (7, .drift fun _ => -20),
  (8, .request { method := "GET", url := { path := "/api/v1/jobs/1" } })]

theorem refreshRun_regular :
    (turns {} refreshRun).filterMap (fun t => (t.after.jobs.get? 1).map SimJob.state) =
      (["queued", "queued", "running", "running", "succeeded", "succeeded", "succeeded",
        "succeeded"] : List Text) ∧
    IsHistory (turns {} refreshRun) := by
  have hroom : (receipts (turns {} refreshRun)).length < 2 ^ 63 :=
    Nat.lt_of_le_of_lt (length_receipts_le refreshRun {}) (by decide)
  exact ⟨by decide +kernel, history_regular {} refreshRun rfl rfl hroom⟩

end MeshConsole.Simulator
