import Mathlib.Data.Rat.Floor
import MeshConsole.Proofs.Elapsed
import MeshConsole.Proofs.Job.Submission

/-!
# The deadline of a job

A call polls its job without counting, so that it ends rests on the clock. A
`Course` is all that a channel, a clock and a caller do to a call, poll after
poll. `polling_ends`: when every pause takes at least its length, the call
has a result after no more polls than `pollsAllowed`; it times out for an
answer past the deadline that leaves the job unfinished, and for nothing
else; and an answer that ends the job counts at any time.
-/

namespace MeshConsole.Job

-- ---------------------------------------------------------------------------
-- Counting pauses
-- ---------------------------------------------------------------------------

/-- How often a job is polled before its time is up: at once, and then after
every pause up to the first that ends past the timeout. -/
def Timing.pollsAllowed (t : Timing) : Int :=
  ⌈(t.timeout.toInt : ℚ) / t.poll.toInt⌉ + 1

theorem Timing.pollsAllowed_le_iff {t : Timing} (h : 0 < t.poll) (k : Nat) :
    t.pollsAllowed ≤ k + 1 ↔ t.timeout.toInt ≤ k * t.poll.toInt := by
  have hpoll : (0 : ℚ) < t.poll.toInt := by exact_mod_cast Int64.lt_iff_toInt_lt.mp h
  rw [pollsAllowed, add_le_add_iff_right, Int.ceil_le, div_le_iff₀ hpoll]
  norm_cast

theorem Timing.one_lt_pollsAllowed {t : Timing} (hT : 0 < t.timeout) (hP : 0 < t.poll) :
    1 < t.pollsAllowed := by
  have htimeout := Int64.lt_iff_toInt_lt.mp hT
  have hnot := (pollsAllowed_le_iff hP 0).not.mpr (by simpa using htimeout)
  simpa using hnot

-- ---------------------------------------------------------------------------
-- Courses
-- ---------------------------------------------------------------------------

/-- A poll and the pause behind it. -/
structure Round where
  answer : Except Fault JobReport
  answered : Instant
  /-- The caller has given up by the time of the answer. -/
  cancelled : Bool := false
  rested : Instant
  /-- The pause is cut short. -/
  interrupted : Bool := false

def Round.moments (r : Round) : List Moment := [
  { now := r.answered, cancelled := r.cancelled, happening := .polled r.answer },
  { now := r.rested, cancelled := r.interrupted
    happening := if r.interrupted then .interrupted else .waited }]

/-- What happens to a call: the answer to its submission, and then one round
after the other for as long as it polls. -/
structure Course where
  reply : Except Fault JobReceipt
  submitted : Instant
  round : Nat → Round

/-- The call that is to poll for the `k`-th time, counted from zero, or has
ended before. -/
def Course.call (c : Course) (desk : Desk Text) (t : Ticket) : Nat → Call
  | 0 => ((Call.enter desk t).2.hear
      { now := c.submitted, cancelled := false, happening := .submitted c.reply }).1
  | k + 1 => ((c.call desk t k).follow (c.round k).moments).1

/-- The call does poll for the `k`-th time. -/
def Course.Polls (c : Course) (desk : Desk Text) (t : Ticket) (k : Nat) : Prop :=
  ∃ id, (c.call desk t k).need = .report id

/-- The clock does not step back while a poll is under way, whatever time that
takes, and a pause that is not cut short takes at least its length. -/
structure Course.Paced (c : Course) (interval : Duration) : Prop where
  first : c.submitted ≤ (c.round 0).answered
  pause : ∀ k, (c.round k).interrupted = false →
    (c.round k).answered + interval.toInt ≤ (c.round k).rested
  next : ∀ k, (c.round k).rested ≤ (c.round (k + 1)).answered

/-- Every answer is there at once, and the pauses take just their length. -/
structure Course.Punctual (c : Course) (interval : Duration) : Prop where
  first : (c.round 0).answered = c.submitted
  pause : ∀ k, (c.round k).rested = (c.round k).answered + interval.toInt
  next : ∀ k, (c.round (k + 1)).answered = (c.round k).rested

-- ---------------------------------------------------------------------------
-- How a round ends
-- ---------------------------------------------------------------------------

/-- What a job comes to, by a report that says it has ended. -/
def Ticket.verdict? (t : Ticket) (id : Int64) (report : JobReport) : Option (Except Fault Text) :=
  if report.state = succeeded then some (.ok (report.result.getD []))
  else if report.state = failed ∨ report.done = true then
    some (.error (.jobFailed id t.type (failureReason report)))
  else none

/-- The report of a job that has not ended. -/
def Unfinished (report : JobReport) : Prop :=
  report.state ≠ succeeded ∧ report.state ≠ failed ∧ report.done = false

theorem verdict?_eq_none_iff (t : Ticket) (id : Int64) (report : JobReport) :
    t.verdict? id report = none ↔ Unfinished report := by
  unfold Ticket.verdict? Unfinished
  split
  next h => simp [h]
  next hs =>
    split
    next h => rcases h with h | h <;> simp [h]
    next hf =>
      rw [not_or] at hf
      simp [hs, hf.1, Bool.eq_false_iff.mpr hf.2]

def Round.Unfinished (r : Round) : Prop := ∃ report, r.answer = .ok report ∧ Job.Unfinished report

/-- The failure of a job is none of the call's. -/
theorem verdict?_error {t : Ticket} {id : Int64} (h : t.verdict? id report = some (.error why)) :
    ∃ reason, why = .jobFailed id t.type reason := by
  unfold Ticket.verdict? at h
  split at h
  · cases h
  · split at h
    · cases h
      exact ⟨_, rfl⟩
    · cases h

section
variable (t : Ticket) (id : Int64) (start : Instant) (r : Round)

/-- The job is unfinished, there is time left, and the caller waits. -/
structure Round.GoesOn : Prop where
  unfinished : r.Unfinished
  early : r.answered - start < t.timing.timeout.toInt
  uninterrupted : r.interrupted = false

/-- The result with which the call returns after this round. -/
inductive Round.Ends : Except Fault Text → Prop where
  | failed : r.answer = .error why →
      Round.Ends (.error (.within (("poll " : Text) ++ t.jobName id) why))
  | decided : r.answer = .ok report → t.verdict? id report = some result → Round.Ends result
  | timedOut : r.Unfinished → t.timing.timeout.toInt ≤ r.answered - start →
      Round.Ends (.error (.within (t.jobName id) .jobTimeout))
  | cancelled : r.Unfinished → r.answered - start < t.timing.timeout.toInt →
      r.interrupted = true → Round.Ends (.error .canceled)

end

theorem Round.Unfinished.verdict?_eq_none {r : Round} (h : r.Unfinished)
    (hanswer : r.answer = .ok report) (t : Ticket) (id : Int64) : t.verdict? id report = none := by
  obtain ⟨other, hother, hunfinished⟩ := h
  obtain rfl : other = report := Except.ok.inj (hother.symm.trans hanswer)
  exact (verdict?_eq_none_iff t id other).mpr hunfinished

section
variable {t : Ticket} {id : Int64} {start : Instant} {r : Round}

theorem Round.Ends.verdict (h : r.Ends t id start result) (hanswer : r.answer = .ok report)
    (hverdict : t.verdict? id report = some ending) : result = ending := by
  cases h with
  | failed herror => cases herror.symm.trans hanswer
  | decided hother hdecided =>
    cases hother.symm.trans hanswer
    exact Option.some.inj (hdecided.symm.trans hverdict)
  | timedOut hunfinished _ => cases (hunfinished.verdict?_eq_none hanswer t id).symm.trans hverdict
  | cancelled hunfinished _ _ =>
    cases (hunfinished.verdict?_eq_none hanswer t id).symm.trans hverdict

theorem Round.Ends.timedOut_iff (h : r.Ends t id start result) :
    result = .error (.within (t.jobName id) .jobTimeout) ↔
      r.Unfinished ∧ t.timing.timeout.toInt ≤ r.answered - start := by
  cases h with
  | failed herror =>
    constructor
    · intro heq
      -- What names the poll is longer than what names the job.
      have hname := (Fault.within.inj (Except.error.inj heq)).1
      exact absurd (congrArg List.length hname) (by simp [Text.ofString])
    · rintro ⟨⟨report, hanswer, _⟩, _⟩
      cases herror.symm.trans hanswer
  | decided hanswer hdecided =>
    constructor
    · rintro rfl
      obtain ⟨reason, hfailed⟩ := verdict?_error hdecided
      cases hfailed
    · rintro ⟨hunfinished, _⟩
      cases (hunfinished.verdict?_eq_none hanswer t id).symm.trans hdecided
  | timedOut hunfinished hover => exact ⟨fun _ => ⟨hunfinished, hover⟩, fun _ => rfl⟩
  | cancelled _ hearly _ =>
    exact ⟨nofun, fun ⟨_, hover⟩ => absurd hover (Int.not_le.mpr hearly)⟩

end

theorem Round.goesOn_or_ends (t : Ticket) (id : Int64) (start : Instant) (r : Round) :
    r.GoesOn t start ∨ ∃ result, r.Ends t id start result := by
  cases hanswer : r.answer with
  | error why => exact .inr ⟨_, .failed hanswer⟩
  | ok report =>
    cases hverdict : t.verdict? id report with
    | some result => exact .inr ⟨_, .decided hanswer hverdict⟩
    | none =>
      have hunfinished : r.Unfinished :=
        ⟨report, hanswer, (verdict?_eq_none_iff t id report).mp hverdict⟩
      by_cases hover : t.timing.timeout.toInt ≤ r.answered - start
      · exact .inr ⟨_, .timedOut hunfinished hover⟩
      · have hearly := Int.not_le.mp hover
        cases hinterrupted : r.interrupted with
        | false => exact .inl ⟨hunfinished, hearly, hinterrupted⟩
        | true => exact .inr ⟨_, .cancelled hunfinished hearly hinterrupted⟩

-- ---------------------------------------------------------------------------
-- One round of a call
-- ---------------------------------------------------------------------------

theorem observe_job (t : Ticket) (job : Progress) (state : Text) :
    (t.observe job state).1.id = job.id ∧ (t.observe job state).1.started = job.started := by
  unfold Ticket.observe
  split
  · exact ⟨rfl, rfl⟩
  · split <;> exact ⟨rfl, rfl⟩

/-- A report ends a run, or finds it overdue, or lets it wait. -/
theorem onPolled_report (run : Run) (now : Instant) (cancelled : Bool) (job : Progress)
    (report : JobReport) :
    (run.onPolled now cancelled job (.ok report)).1 = { run with
      phase :=
        match run.ticket.verdict? job.id report with
        | some result => .ended result
        | none =>
          if run.ticket.timing.timeout ≤ now.since job.started then
            .ended (.error (.within (run.ticket.jobName job.id) .jobTimeout))
          else .waiting (run.ticket.observe job report.state).1 } := by
  have hstarted := (observe_job run.ticket job report.state).2
  unfold Ticket.verdict? Run.onPolled
  by_cases hs : report.state = succeeded
  · simp only [if_pos hs]
    rfl
  · by_cases hf : report.state = failed ∨ report.done = true
    · simp only [if_neg hs, if_pos hf]
      rfl
    · simp only [if_neg hs, if_neg hf, hstarted]
      by_cases hover : run.ticket.timing.timeout ≤ now.since job.started
      · simp only [if_pos hover]
        rfl
      · simp only [if_neg hover]

/-- The call is to poll this job. -/
def Call.IsPolling (call : Call) (t : Ticket) (id : Int64) (start : Instant) : Prop :=
  ∃ job : Progress, call = .registered { ticket := t, phase := .polling job } ∧ job.id = id ∧
    job.started = start

section
variable {call : Call} {t : Ticket} {id : Int64} {start : Instant} {r : Round}

theorem Call.IsPolling.need (h : call.IsPolling t id start) : call.need = .report id := by
  obtain ⟨job, rfl, rfl, -⟩ := h
  rfl

theorem follow_polled (t : Ticket) (job : Progress) (r : Round) :
    ((Call.registered { ticket := t, phase := .polling job }).follow r.moments).1 =
      ((Call.registered (Run.onPolled { ticket := t, phase := .polling job } r.answered r.cancelled
        job r.answer).1).hear
          { now := r.rested, cancelled := r.interrupted
            happening := if r.interrupted then .interrupted else .waited }).1 := rfl

/-- The pause is of no account to a run that has ended. -/
theorem follow_ended {job : Progress}
    (h : (Run.onPolled { ticket := t, phase := .polling job } r.answered r.cancelled
      job r.answer).1.phase = .ended result) :
    ((Call.registered { ticket := t, phase := .polling job }).follow r.moments).1.result? =
      some result := by
  rw [follow_polled, hear_of_result (result?_registered h)]
  exact result?_registered h

variable (hT : 0 < t.timing.timeout) (h : call.IsPolling t id start)
include hT h

theorem Call.IsPolling.goesOn (hr : r.GoesOn t start) :
    (call.follow r.moments).1.IsPolling t id start := by
  obtain ⟨job, rfl, hid, hstarted⟩ := h
  obtain ⟨⟨report, hanswer, hunfinished⟩, hearly, huninterrupted⟩ := hr
  have hobserve := observe_job t job report.state
  have hleft : ¬ t.timing.timeout ≤ r.answered.since job.started := by
    rw [Instant.le_since_iff (.inr (Int64.lt_iff_toInt_lt.mp hT)), hstarted]
    exact Int.not_le.mpr hearly
  have hverdict := (verdict?_eq_none_iff t job.id report).mpr hunfinished
  rw [follow_polled, hanswer, onPolled_report]
  simp only [hverdict, if_neg hleft, huninterrupted]
  exact ⟨_, rfl, hobserve.1.trans hid, hobserve.2.trans hstarted⟩

theorem Call.IsPolling.ends (hr : r.Ends t id start result) :
    (call.follow r.moments).1.result? = some result := by
  obtain ⟨job, rfl, rfl, rfl⟩ := h
  have htime : t.timing.timeout ≤ r.answered.since job.started ↔ _ :=
    Instant.le_since_iff (.inr (Int64.lt_iff_toInt_lt.mp hT))
  cases hr with
  | failed hanswer =>
    refine follow_ended ?_
    rw [hanswer]
    rfl
  | decided hanswer hverdict =>
    refine follow_ended ?_
    rw [hanswer, onPolled_report]
    simp only [hverdict]
  | timedOut hunfinished hover =>
    obtain ⟨report, hanswer, hunfinished⟩ := hunfinished
    refine follow_ended ?_
    rw [hanswer, onPolled_report]
    simp only [(verdict?_eq_none_iff t job.id report).mpr hunfinished, if_pos (htime.mpr hover)]
  | cancelled hunfinished hearly hinterrupted =>
    obtain ⟨report, hanswer, hunfinished⟩ := hunfinished
    have hleft : ¬ t.timing.timeout ≤ r.answered.since job.started :=
      fun hover => Int.not_le.mpr hearly (htime.mp hover)
    rw [follow_polled, hanswer, onPolled_report]
    simp only [(verdict?_eq_none_iff t job.id report).mpr hunfinished, if_neg hleft, hinterrupted]
    rfl

end

-- ---------------------------------------------------------------------------
-- How a call ends
-- ---------------------------------------------------------------------------

namespace Course

variable {c : Course} {desk : Desk Text} {t : Ticket}

/-- The call is not refused, and the gateway gives its job an id. -/
def Accepted (c : Course) (desk : Desk Text) (t : Ticket) (receipt : JobReceipt) : Prop :=
  desk.isActive t.type = false ∧ c.reply = .ok receipt ∧ 0 < receipt.id

/-- After how many polls a call returns, and what. -/
inductive Ends (c : Course) (desk : Desk Text) (t : Ticket) : Nat → Except Fault Text → Prop where
  | refused : desk.isActive t.type = true →
      Ends c desk t 0 (.error (.within t.type .jobInProgress))
  | unsubmitted : desk.isActive t.type = false → c.reply = .error why →
      Ends c desk t 0 (.error (.within (("submit " : Text) ++ t.type ++ " job") why))
  | unnumbered : desk.isActive t.type = false → c.reply = .ok receipt → receipt.id ≤ 0 →
      Ends c desk t 0 (.error (.within (("submit " : Text) ++ t.type ++ " job") .invalidJobId))
  | polled : c.Accepted desk t receipt → (∀ j < k, (c.round j).GoesOn t c.submitted) →
      (c.round k).Ends t receipt.id c.submitted result → Ends c desk t (k + 1) result

theorem Accepted.polling (h : c.Accepted desk t receipt) :
    (c.call desk t 0).IsPolling t receipt.id c.submitted := by
  obtain ⟨hfree, hreply, hpos⟩ := h
  have hvalid : ¬ receipt.id ≤ 0 := Int64.not_le.mpr hpos
  rw [call, enter_free hfree, hreply]
  refine ⟨{ id := receipt.id, started := c.submitted, last := queued }, ?_, rfl, rfl⟩
  simp only [Call.hear, Run.step, Run.onSubmitted, if_neg hvalid]
  rfl

theorem call_polling (hT : 0 < t.timing.timeout) (haccepted : c.Accepted desk t receipt)
    (hgo : ∀ j < k, (c.round j).GoesOn t c.submitted) :
    (c.call desk t k).IsPolling t receipt.id c.submitted := by
  induction k with
  | zero => exact haccepted.polling
  | succ k ih =>
    have hpolling := ih fun j hj => hgo j (Nat.lt_succ_of_lt hj)
    exact hpolling.goesOn hT (hgo k (Nat.lt_succ_self k))

theorem call_of_result (h : (c.call desk t k).result? = some result) (hk : k ≤ m) :
    (c.call desk t m).result? = some result := by
  induction m, hk using Nat.le_induction with
  | base => exact h
  | succ m _ ih => rwa [call, follow_of_result ih]

theorem not_polls_of_result (h : (c.call desk t k).result? = some result) :
    ¬ c.Polls desk t k := by
  rintro ⟨id, hneed⟩
  cases hcall : c.call desk t k with
  | returned => rw [hcall] at hneed; cases hneed
  | registered run =>
    rw [hcall] at h hneed
    cases hphase : run.phase with
    | ended => simp [Call.need, Run.need, hphase] at hneed
    | _ => simp [Call.result?, hphase] at h

theorem Ends.result?_eq (hT : 0 < t.timing.timeout) (h : c.Ends desk t n result) :
    (c.call desk t n).result? = some result := by
  cases h with
  | refused hheld =>
    rw [call, enter_held hheld]
    rfl
  | unsubmitted hfree hreply =>
    rw [call, enter_free hfree, hreply]
    rfl
  | unnumbered hfree hreply hle =>
    rw [call, enter_free hfree, hreply]
    simp only [Call.hear, Run.step, Run.onSubmitted, if_pos hle]
    rfl
  | polled haccepted hgo hend => exact (call_polling hT haccepted hgo).ends hT hend

theorem Ends.polls_iff (hT : 0 < t.timing.timeout) (h : c.Ends desk t n result) (k : Nat) :
    c.Polls desk t k ↔ k < n := by
  constructor
  · intro hpolls
    by_contra hover
    exact not_polls_of_result (call_of_result (h.result?_eq hT) (Nat.not_lt.mp hover)) hpolls
  · intro hk
    cases h with
    | polled haccepted hgo _ =>
      have hpolling := call_polling (k := k) hT haccepted fun j hj => hgo j (by omega)
      exact ⟨_, hpolling.need⟩
    | _ => exact absurd hk (Nat.not_lt_zero k)

-- ---------------------------------------------------------------------------
-- The clock
-- ---------------------------------------------------------------------------

theorem Paced.elapsed (h : c.Paced interval) (hgo : ∀ j < k, (c.round j).interrupted = false) :
    k * interval.toInt ≤ (c.round k).answered - c.submitted := by
  induction k with
  | zero => simpa using h.first
  | succ k ih =>
    have hbefore := ih fun j hj => hgo j (Nat.lt_succ_of_lt hj)
    have hpause := Int.sub_nonneg.mpr (h.pause k (hgo k (Nat.lt_succ_self k)))
    have hnext := Int.sub_nonneg.mpr (h.next k)
    rw [Nat.cast_succ, Int.add_mul, Int.one_mul]
    omega

theorem Punctual.elapsed (h : c.Punctual interval) (k : Nat) :
    (c.round k).answered - c.submitted = k * interval.toInt := by
  induction k with
  | zero => simp [h.first]
  | succ k ih =>
    rw [h.next, h.pause, Nat.cast_succ, Int.add_mul, Int.one_mul, ← ih]
    exact add_sub_right_comm ..

section
variable (hP : 0 < t.timing.poll) (hpaced : c.Paced t.timing.poll)
include hP hpaced

/-- A round that goes on leaves a poll to be made. -/
theorem lt_pollsAllowed (hgo : ∀ j ≤ k, (c.round j).GoesOn t c.submitted) :
    (k + 1 : Int) < t.timing.pollsAllowed := by
  have helapsed := hpaced.elapsed fun j (hj : j < k) => (hgo j (Nat.le_of_lt hj)).uninterrupted
  have hearly := Int.not_le.mpr (hgo k (Nat.le_refl k)).early
  rw [← Int.not_le, Timing.pollsAllowed_le_iff hP]
  omega

theorem exists_not_goesOn : ∃ k, ¬ (c.round k).GoesOn t c.submitted := by
  by_contra hall
  push Not at hall
  have hlt := lt_pollsAllowed (k := t.timing.pollsAllowed.toNat) hP hpaced fun j _ => hall j
  omega

theorem exists_ends (desk : Desk Text) : ∃ n result, c.Ends desk t n result := by
  cases hactive : desk.isActive t.type with
  | true => exact ⟨0, _, .refused hactive⟩
  | false =>
    cases hreply : c.reply with
    | error why => exact ⟨0, _, .unsubmitted hactive hreply⟩
    | ok receipt =>
      by_cases hle : receipt.id ≤ 0
      · exact ⟨0, _, .unnumbered hactive hreply hle⟩
      · -- The call returns after the first round that does not go on.
        have hstops := exists_not_goesOn hP hpaced
        classical
        obtain hgo | ⟨result, hend⟩ :=
          (c.round (Nat.find hstops)).goesOn_or_ends t receipt.id c.submitted
        · exact absurd hgo (Nat.find_spec hstops)
        · refine ⟨_, result, .polled ⟨hactive, hreply, Int64.not_le.mp hle⟩ ?_ hend⟩
          exact fun j hj => not_not.mp (Nat.find_min hstops hj)

end

-- ---------------------------------------------------------------------------
-- What a call returns
-- ---------------------------------------------------------------------------

/-- The call returns that its own time is up. -/
def TimesOut (c : Course) (t : Ticket) (result : Except Fault Text) : Prop :=
  ∃ receipt, c.reply = .ok receipt ∧
    result = .error (.within (t.jobName receipt.id) .jobTimeout)

/-- The answer leaves the job unfinished and is past the deadline. -/
def Overdue (c : Course) (t : Ticket) (k : Nat) : Prop :=
  (c.round k).Unfinished ∧ t.timing.timeout.toInt ≤ (c.round k).answered - c.submitted

/-- The channel itself fails in this way, before or at one of the polls. -/
def Errs (c : Course) (n : Nat) (why : Fault) : Prop :=
  c.reply = .error why ∨ ∃ k < n, (c.round k).answer = .error why

/-- An accepted job that never ends, with a caller who never gives up. -/
structure Endless (c : Course) (desk : Desk Text) (t : Ticket) : Prop where
  accepted : ∃ receipt, c.Accepted desk t receipt
  unfinished : ∀ k, (c.round k).Unfinished
  uninterrupted : ∀ k, (c.round k).interrupted = false

/-- A call that returns after `n` polls. -/
structure Returns (c : Course) (desk : Desk Text) (t : Ticket) (n : Nat)
    (result : Except Fault Text) : Prop where
  polls : ∀ k, c.Polls desk t k ↔ k < n
  settled : (c.call desk t n).result? = some result
  few : (n : Int) ≤ t.timing.pollsAllowed
  timesOut_iff : c.TimesOut t result ↔ ∃ k < n, c.Overdue t k
  /-- Nothing else looks like a timeout, unless the channel reports one. -/
  timeout : ∀ why, result = .error why → why.root = .jobTimeout →
    c.TimesOut t result ∨ ∃ cause, c.Errs n cause ∧ cause.root = .jobTimeout
  /-- An answer that ends the job counts, however late it is. -/
  verdict : ∀ k < n, ∀ receipt report ending, c.reply = .ok receipt →
    (c.round k).answer = .ok report → t.verdict? receipt.id report = some ending →
    n = k + 1 ∧ result = ending
  endless : c.Endless desk t → c.TimesOut t result ∧
    (c.Punctual t.timing.poll → (n : Int) = t.timing.pollsAllowed)

theorem Ends.round (h : c.Ends desk t n result) (hk : k < n) :
    ∃ receipt, c.Accepted desk t receipt ∧ ((c.round k).GoesOn t c.submitted ∨
      n = k + 1 ∧ (c.round k).Ends t receipt.id c.submitted result) := by
  cases h with
  | @polled receipt last _ haccepted hgo hend =>
    refine ⟨receipt, haccepted, ?_⟩
    rcases Nat.lt_succ_iff_lt_or_eq.mp hk with hlt | rfl
    · exact .inl (hgo k hlt)
    · exact .inr ⟨rfl, hend⟩
  | _ => exact absurd hk (Nat.not_lt_zero k)

theorem Ends.timesOut_iff (h : c.Ends desk t n result) :
    c.TimesOut t result ↔ ∃ k < n, c.Overdue t k := by
  constructor
  · rintro ⟨receipt, hreply, hresult⟩
    cases h with
    | refused => cases (Fault.within.inj (Except.error.inj hresult)).2
    | unsubmitted _ herror => cases herror.symm.trans hreply
    | unnumbered => cases (Fault.within.inj (Except.error.inj hresult)).2
    | @polled other last _ haccepted _ hend =>
      obtain ⟨-, hother, -⟩ := haccepted
      cases hother.symm.trans hreply
      exact ⟨last, Nat.lt_succ_self last, hend.timedOut_iff.mp hresult⟩
  · rintro ⟨k, hk, hoverdue⟩
    obtain ⟨receipt, ⟨-, hreply, -⟩, hgo | ⟨-, hend⟩⟩ := h.round hk
    · exact absurd hoverdue.2 (Int.not_le.mpr hgo.early)
    · exact ⟨receipt, hreply, hend.timedOut_iff.mpr hoverdue⟩

theorem Ends.timeout (h : c.Ends desk t n (.error why)) (hroot : why.root = .jobTimeout) :
    c.TimesOut t (.error why) ∨ ∃ cause, c.Errs n cause ∧ cause.root = .jobTimeout := by
  cases h with
  | refused => cases hroot
  | unsubmitted _ herror => exact .inr ⟨_, .inl herror, hroot⟩
  | unnumbered => cases hroot
  | @polled receipt last _ haccepted _ hend =>
    cases hend with
    | failed herror => exact .inr ⟨_, .inr ⟨last, Nat.lt_succ_self last, herror⟩, hroot⟩
    | decided _ hdecided =>
      obtain ⟨reason, rfl⟩ := verdict?_error hdecided
      cases hroot
    | timedOut => exact .inl ⟨receipt, haccepted.2.1, rfl⟩
    | cancelled => cases hroot

theorem Ends.verdict (h : c.Ends desk t n result) (hk : k < n) (hreply : c.reply = .ok receipt)
    (hanswer : (c.round k).answer = .ok report)
    (hverdict : t.verdict? receipt.id report = some ending) : n = k + 1 ∧ result = ending := by
  obtain ⟨other, ⟨-, hother, -⟩, hgo | ⟨hn, hend⟩⟩ := h.round hk
  · cases (hgo.unfinished.verdict?_eq_none hanswer t receipt.id).symm.trans hverdict
  · cases hother.symm.trans hreply
    exact ⟨hn, hend.verdict hanswer hverdict⟩

/-- With an endless job only the time can be up. -/
theorem Ends.endless (h : c.Ends desk t n result) (hendless : c.Endless desk t) :
    ∃ k, n = k + 1 ∧ c.Overdue t k := by
  obtain ⟨receipt, hfree, hreply, hpos⟩ := hendless.accepted
  cases h with
  | refused hheld => cases hheld.symm.trans hfree
  | unsubmitted _ herror => cases herror.symm.trans hreply
  | unnumbered _ hother hle =>
    cases hother.symm.trans hreply
    exact absurd hle (Int64.not_le.mpr hpos)
  | @polled _ last _ _ _ hend =>
    refine ⟨last, rfl, ?_⟩
    obtain ⟨report, hanswer, hunfinished⟩ := hendless.unfinished last
    cases hend with
    | failed herror => cases herror.symm.trans hanswer
    | decided hother hdecided =>
      cases ((hendless.unfinished last).verdict?_eq_none hother t _).symm.trans hdecided
    | timedOut hunfinished hover => exact ⟨hunfinished, hover⟩
    | cancelled _ _ hinterrupted =>
      cases hinterrupted.symm.trans (hendless.uninterrupted last)

section
variable (hT : 0 < t.timing.timeout) (hP : 0 < t.timing.poll) (hpaced : c.Paced t.timing.poll)
include hT hP hpaced

theorem Ends.few (h : c.Ends desk t n result) : (n : Int) ≤ t.timing.pollsAllowed := by
  have hone := Timing.one_lt_pollsAllowed hT hP
  cases h with
  | @polled _ last _ _ hgo _ =>
    cases last with
    | zero => simpa using hone.le
    | succ k =>
      have hlt := lt_pollsAllowed hP hpaced fun j hj => hgo j (Nat.lt_succ_of_le hj)
      push_cast
      omega
  | _ => simp only [Nat.cast_zero]; omega

/-- A call returns whatever the channel answers and however long it takes for
that, if only the clock keeps up with the pauses. -/
theorem polling_ends (desk : Desk Text) : ∃ n result, c.Returns desk t n result := by
  obtain ⟨n, result, hends⟩ := exists_ends hP hpaced desk
  refine ⟨n, result, hends.polls_iff hT, hends.result?_eq hT, hends.few hT hP hpaced,
    hends.timesOut_iff, ?_, fun k hk _ _ _ => hends.verdict hk, fun hendless => ?_⟩
  · rintro why rfl
    exact hends.timeout
  · obtain ⟨k, rfl, hoverdue⟩ := hends.endless hendless
    refine ⟨hends.timesOut_iff.mpr ⟨k, Nat.lt_succ_self k, hoverdue⟩, fun hpunctual => ?_⟩
    refine le_antisymm (hends.few hT hP hpaced) ?_
    rw [Nat.cast_succ, Timing.pollsAllowed_le_iff hP, ← hpunctual.elapsed]
    exact hoverdue.2

end

end Course

/-- An update that never ends, at a gateway that answers at once. -/
def endlessUpdate : Course where
  reply := .ok { id := 9 }
  submitted := 0
  round k := {
    answer := .ok { state := "running" }
    answered := k * Duration.second.toInt
    rested := k * Duration.second.toInt + Duration.second.toInt }

def updateTicket : Ticket where
  type := "update"
  timing := { timeout := 3 * Duration.second, poll := Duration.second }

theorem polling_endlessUpdate :
    endlessUpdate.Returns {} updateTicket 4 (.error (.within "update job 9" .jobTimeout)) := by
  have hpunctual : endlessUpdate.Punctual updateTicket.timing.poll := by
    refine ⟨rfl, fun _ => rfl, fun k => ?_⟩
    show ((k + 1 : Nat) : Int) * Duration.second.toInt = _
    rw [Nat.cast_succ, Int.add_mul, Int.one_mul]
    rfl
  have hpaced : endlessUpdate.Paced updateTicket.timing.poll :=
    ⟨le_of_eq hpunctual.first.symm, fun k _ => le_of_eq (hpunctual.pause k).symm,
      fun k => le_of_eq (hpunctual.next k).symm⟩
  have hendless : endlessUpdate.Endless {} updateTicket :=
    ⟨⟨_, rfl, rfl, by decide⟩, fun _ => ⟨_, rfl, by decide, by decide, rfl⟩, fun _ => rfl⟩
  have hallowed : updateTicket.timing.pollsAllowed = 4 :=
    le_antisymm ((Timing.pollsAllowed_le_iff (by decide) 3).mpr (by decide))
      (not_le.mp ((Timing.pollsAllowed_le_iff (by decide) 2).not.mpr (by decide)))
  obtain ⟨n, result, hreturns⟩ := Course.polling_ends (by decide) (by decide) hpaced {}
  obtain ⟨⟨receipt, hreply, rfl⟩, hexact⟩ := hreturns.endless hendless
  cases hreply
  obtain rfl : n = 4 := by exact_mod_cast (hexact hpunctual).trans hallowed
  exact hreturns

end MeshConsole.Job
