import MeshConsole.Proofs.Job.Outstanding
import MeshConsole.Proofs.Job.Traced
import MeshConsole.Proofs.Push.WholeNumbers
import MeshConsole.Proofs.Session.Teardown

/-!
# Jobs that outlast their session

Closing cancels the context of the session and waits for the threads of the
session. A caller polls its job under a context of its own, so the job goes
on: by `jobs_after_closing` closing has ended all jobs exactly when no caller
waits for one any more, and the types that are active are those of callers.
-/

namespace MeshConsole.Session

open Telemetry (Note)

theorem digitsValue_zeros (k : Nat) (digits : Text) :
    Scientific.digitsValue (List.replicate k Ascii.zero ++ digits) =
      Scientific.digitsValue digits := by
  induction k with
  | zero => rfl
  | succ k ih => exact ih

theorem requestId_inj (h : requestId m = requestId n) : m = n := by
  simp only [requestId, List.append_assoc] at h
  have hvalue := congrArg Scientific.digitsValue (List.append_cancel_left h)
  rwa [digitsValue_zeros, digitsValue_zeros, Push.digitsValue_ofNat, Push.digitsValue_ofNat]
    at hvalue

-- ---------------------------------------------------------------------------
-- What a step means for the desk
-- ---------------------------------------------------------------------------

/-- What the work has registered at the desk, until its job returns. -/
def Work.ticket? : Work α → Option Job.Ticket
  | .waiting (.job _ run _) => some run.ticket
  | _ => none

theorem ticket?_idle {w : Work α} (h : w.outcome? ≠ none) : w.ticket? = none := by
  cases w with
  | acting => exact absurd rfl h
  | waiting task =>
    cases task with
    | finished => rfl
    | calling | job => exact absurd rfl h

/-- What becomes of the desk when work has registered one ticket before a
step and another one after it. -/
inductive Desking (s next : State) : Option Job.Ticket → Option Job.Ticket → Prop where
  | keeps : next.desk = s.desk → next.submissions = s.submissions →
      Desking s next ticket ticket
  | enters (order : Order) : s.desk.isActive order.type = false → next = order.entered s →
      Desking s next none (some (order.ticket s))
  | leaves (ticket : Job.Ticket) : next.desk = s.desk.release ticket.type →
      next.submissions = s.submissions → Desking s next (some ticket) none

theorem acting_desking {weight : α → Nat} (h : Acting now cancelled s w b)
    (hw : w.Conducts weight n) : Desking s b.state w.ticket? b.work.ticket? := by
  cases h with
  | done | note | look | call | refused => exact .keeps rfl rfl
  | store change next =>
    obtain ⟨_, hconduct⟩ := hw
    cases hconduct with
    | keeps hkeep | writes hkeep => exact .keeps (hkeep s).1.desk (hkeep s).1.submissions
  | enters order next hfree => exact .enters order hfree rfl
  | leaves order run next hphase => exact .leaves run.ticket rfl rfl

theorem answering_desking {w : Work α} (h : Answering now cancelled s w a b) :
    Desking s b.state w.ticket? b.work.ticket? := by
  cases h with
  | called => exact .keeps rfl rfl
  | heard order run next a hfits hstep =>
    have hticket : (run.step now cancelled (Task.happening run a)).1.ticket = run.ticket :=
      Job.step_ticket run _
    rw [hstep] at hticket
    show Desking s s (some run.ticket) (some _)
    rw [hticket]
    exact .keeps rfl rfl

/-- Only an answer to a job has a job change published. -/
theorem acting_silent {weight : α → Nat} (h : Acting now cancelled s w b)
    (hw : w.Conducts weight n) (change : Telemetry.JobChange) :
    .noted (.publish (.job change)) ∉ b.deeds := by
  intro hm
  cases h with
  | done | look | refused | leaves => cases hm
  | note entry next =>
    cases List.mem_singleton.mp hm
    obtain ⟨_, hconduct⟩ := hw
    cases hconduct with
    | note hordinary => cases hordinary
  | store | call => cases List.mem_singleton.mp hm
  | enters => cases List.mem_singleton.mp hm

theorem answering_traced {w : Work α} (h : Answering now cancelled s w a b)
    (hm : .noted (.publish (.job change)) ∈ b.deeds) :
    ∃ ticket, w.ticket? = some ticket ∧ change.requestId = ticket.requestId := by
  cases h with
  | called => cases hm
  | @heard later notes order run next a hfits hstep =>
    refine ⟨run.ticket, rfl, ?_⟩
    have htraces := Job.traces_step run now cancelled (Task.happening run a)
    rw [hstep] at htraces
    rcases List.mem_append.mp hm with hm | hm
    · obtain ⟨note, hnote, heq⟩ := List.mem_map.mp hm
      cases heq
      obtain ⟨_, ⟨⟩, htraced⟩ := htraces _ hnote
      exact htraced
    · cases hneed : (Task.job order later next).need <;> simp [hneed, Need.deeds] at hm

namespace Live

-- ---------------------------------------------------------------------------
-- The threads of a session at its desk
-- ---------------------------------------------------------------------------

def tickets (l : Live) : List (Option Job.Ticket) := l.threads.map fun t => t.work.ticket?

inductive Turn (l next : Live) : Prop where
  /-- Threads may have come that have registered nothing yet. -/
  | still (k : Nat) : next.tickets = l.tickets ++ List.replicate k none →
      next.session.desk = l.session.desk → next.session.submissions = l.session.submissions →
      Turn l next
  | one : l.tickets[i]? = some old → next.tickets = l.tickets.set i new →
      Desking l.session next.session old new → Turn l next

theorem holding_ticket : Holding Work.ticket? where
  ended _ h := ticket?_idle h
  begun _ := rfl

theorem step_turn {l next : Live} (hs : l.Sound) (h : Step l m next entries) : Turn l next := by
  cases step_shifts holding_ticket hs h with
  | still k hheld _ hdesk hsubmissions => exact .still k hheld hdesk hsubmissions
  | acts hi hn hacting => exact .one (held_get hi) held_put (acting_desking hacting hn)
  | answers hi _ hanswering => exact .one (held_get hi) held_put (answering_desking hanswering)

def callOf : Option Job.Ticket → Job.Call
  | some ticket => .registered { ticket }
  | none => .returned (.ok [])

def floor (l : Live) : Job.Floor := { desk := l.session.desk, calls := l.tickets.map callOf }

theorem holds_floor {l : Live} : l.floor.Holds i type ↔
    ∃ ticket, l.tickets[i]? = some (some ticket) ∧ ticket.type = type := by
  simp only [Job.Floor.Holds, floor, List.getElem?_map]
  cases l.tickets[i]? with
  | none => simp
  | some ticket? => cases ticket? <;> simp [callOf, Job.Call.holds?]

theorem Turn.floor_sound {l next : Live} (h : Turn l next) (hs : l.floor.Sound) :
    next.floor.Sound := by
  cases h with
  | still k htickets hdesk =>
    refine hs.of_same hdesk fun i type => ?_
    simp only [holds_floor, htickets, List.getElem?_append]
    split
    · rfl
    · rename_i hle
      simp [List.getElem?_replicate, List.getElem?_eq_none (Nat.le_of_not_lt hle)]
  | @one i old new hi htickets hdesking =>
    have hlt := (List.getElem?_eq_some_iff.mp hi).1
    cases hdesking with
    | keeps hdesk =>
      rw [Job.Floor.set_same hi] at htickets
      exact hs.of_same hdesk fun i type => by simp only [holds_floor, htickets]
    | enters order hfree hnext =>
      refine hs.takes (i := i) hfree (by rw [floor, hnext]; rfl) fun j other => ?_
      simp only [holds_floor, htickets]
      by_cases hji : j = i
      · subst hji
        have hnone : l.tickets[j] = none := (List.getElem?_eq_some_iff.mp hi).2
        simp [hlt, hnone, Order.ticket, eq_comm (a := other)]
      · simp [hji, Ne.symm hji]
    | leaves ticket hdesk =>
      have hcall : l.floor.calls[i]? = some (.registered { ticket }) := by
        simp [floor, hi, callOf]
      have hfloor : next.floor = { desk := l.floor.desk.release ticket.type
                                   calls := l.floor.calls.set i (.returned (.ok [])) } := by
        rw [floor, hdesk, htickets, List.map_set]
        rfl
      rw [hfloor]
      exact Job.Floor.sound_released hs hcall

-- ---------------------------------------------------------------------------
-- Jobs that are heard of
-- ---------------------------------------------------------------------------

theorem mem_tickets {l : Live} :
    ticket? ∈ l.tickets ↔ ∃ t ∈ l.threads, t.work.ticket? = ticket? := List.mem_map

/-- All that is registered was submitted after the first `n` submissions. -/
structure Newer (n : Nat) (l : Live) : Prop where
  submissions : n ≤ l.session.submissions
  tickets : ∀ ticket, some ticket ∈ l.tickets → ∃ k, n < k ∧ ticket.requestId = requestId k

theorem Turn.newer {l next : Live} (h : Turn l next) (hl : l.Newer n) : next.Newer n := by
  cases h with
  | still k htickets _ hsubmissions =>
    refine ⟨hsubmissions ▸ hl.submissions, fun ticket hm => ?_⟩
    rw [htickets] at hm
    rcases List.mem_append.mp hm with hm | hm
    · exact hl.tickets ticket hm
    · cases List.eq_of_mem_replicate hm
  | @one i old new hi htickets hdesking =>
    have hold := List.mem_of_getElem? hi
    -- The other tickets are those of before.
    have hrest : (∀ ticket, new = some ticket → ∃ k, n < k ∧ ticket.requestId = requestId k) →
        ∀ ticket, some ticket ∈ next.tickets → ∃ k, n < k ∧ ticket.requestId = requestId k := by
      intro hnew ticket hm
      rw [htickets] at hm
      rcases List.mem_or_eq_of_mem_set hm with hm | heq
      · exact hl.tickets ticket hm
      · exact hnew ticket heq.symm
    cases hdesking with
    | keeps _ hsubmissions =>
      refine ⟨hsubmissions ▸ hl.submissions, hrest fun ticket heq => ?_⟩
      exact hl.tickets ticket (heq ▸ hold)
    | enters order _ hnext =>
      have hle := hl.submissions
      refine ⟨?_, hrest fun ticket heq => ?_⟩
      · rw [hnext]
        exact Nat.le_succ_of_le hle
      · cases heq
        exact ⟨_, Nat.lt_succ_of_le hle, rfl⟩
    | leaves ticket _ hsubmissions =>
      exact ⟨hsubmissions ▸ hl.submissions, hrest fun _ heq => by cases heq⟩

/-- A job change that is seen is one of a job that is registered. -/
theorem step_traced {l next : Live} (hs : l.Sound) (h : Step l m next entries) (he : e ∈ entries)
    (hdeed : e.deed = .noted (.publish (.job change))) :
    ∃ ticket, some ticket ∈ l.tickets ∧ change.requestId = ticket.requestId := by
  cases h with
  | act hi hacting =>
    obtain ⟨n, hn⟩ := (hs.threads _ (List.mem_of_getElem? hi)).conducts
    obtain ⟨deed, hm, rfl⟩ := List.mem_map.mp he
    cases hdeed
    exact absurd hm (acting_silent hacting hn change)
  | answer hi _ hanswering =>
    obtain ⟨deed, hm, rfl⟩ := List.mem_map.mp he
    cases hdeed
    obtain ⟨ticket, hticket, htraced⟩ := answering_traced hanswering hm
    exact ⟨ticket, mem_tickets.mpr ⟨_, List.mem_of_getElem? hi, hticket⟩, htraced⟩
  | _ => cases he

theorem Newer.silent {l : Live} (hs : l.Sound) (hl : l.Newer n) (later : List Move) :
    ∀ e ∈ l.deeds later, ∀ change, e.deed = .noted (.publish (.job change)) →
      ∃ k, n < k ∧ change.requestId = requestId k := by
  refine (run_keeps (P := fun l seen => (l.Sound ∧ l.Newer n) ∧
    ∀ e ∈ seen, ∀ change, e.deed = .noted (.publish (.job change)) →
      ∃ k, n < k ∧ change.requestId = requestId k) (fun l seen m next entries h hstep => ?_)
    later l [] ⟨⟨hs, hl⟩, List.forall_mem_nil _⟩).2
  obtain ⟨⟨hs, hl⟩, hseen⟩ := h
  refine ⟨⟨sound_step hs hstep, (step_turn hs hstep).newer hl⟩,
    List.forall_mem_append.mpr ⟨hseen, fun e he change hdeed => ?_⟩⟩
  obtain ⟨ticket, hm, htraced⟩ := step_traced hs hstep he hdeed
  obtain ⟨k, hlt, heq⟩ := hl.tickets ticket hm
  exact ⟨k, hlt, htraced.trans heq⟩

-- ---------------------------------------------------------------------------
-- After closing
-- ---------------------------------------------------------------------------

/-- No job is outstanding, and none that was submitted before is heard of
again. -/
structure JobsEnded (l : Live) : Prop where
  inactive : ∀ type, l.session.desk.isActive type = false
  silent : ∀ later, ∀ e ∈ l.deeds later, ∀ change, e.deed = .noted (.publish (.job change)) →
    ∀ n ≤ l.session.submissions, change.requestId ≠ requestId n

structure JobsClosed (l : Live) : Prop where
  /-- The types that are active are those that callers hold. -/
  active_iff : ∀ type, l.session.desk.isActive type = true ↔
    ∃ t ∈ l.threads, t.owner = .caller ∧ ∃ ticket, t.work.ticket? = some ticket ∧
      ticket.type = type
  ended_iff : l.JobsEnded ↔ ∀ t ∈ l.threads, t.owner = .caller → t.work.ticket? = none

theorem isActive_iff {l : Live} (hf : l.floor.Sound) :
    l.session.desk.isActive type = true ↔
      ∃ t ∈ l.threads, ∃ ticket, t.work.ticket? = some ticket ∧ ticket.type = type := by
  refine (hf.active_iff type).trans ?_
  simp only [holds_floor]
  constructor
  · rintro ⟨i, ticket, hi, htype⟩
    obtain ⟨t, ht, hticket⟩ := mem_tickets.mp (List.mem_of_getElem? hi)
    exact ⟨t, ht, ticket, hticket, htype⟩
  · rintro ⟨t, ht, ticket, hticket, htype⟩
    obtain ⟨i, hi⟩ := List.getElem?_of_mem (mem_tickets.mpr ⟨t, ht, hticket⟩)
    exact ⟨i, ticket, hi, htype⟩

/-- Of the session's own threads none has a job once they are gone. -/
theorem TornDown.caller_of_ticket {l : Live} (ht : l.TornDown) (hs : l.Sound) (hmem : t ∈ l.threads)
    (hticket : t.work.ticket? = some ticket) : t.owner = .caller := by
  obtain ⟨i, hi⟩ := List.getElem?_of_mem hmem
  have hbusy : t.work.outcome? = none := by
    by_contra hidle
    rw [ticket?_idle hidle] at hticket
    cases hticket
  have hcaller := ht.not_own_of_busy hs hi hbusy
  cases howner : t.owner with
  | caller => rfl
  | _ =>
    rw [howner] at hcaller
    cases hcaller

theorem TornDown.jobsClosed {l : Live} (ht : l.TornDown) (hs : l.Sound) (hf : l.floor.Sound) :
    l.JobsClosed := by
  have hactive : ∀ type, l.session.desk.isActive type = true ↔
      ∃ t ∈ l.threads, t.owner = .caller ∧ ∃ ticket, t.work.ticket? = some ticket ∧
        ticket.type = type := by
    intro type
    rw [isActive_iff hf]
    constructor
    · rintro ⟨t, hmem, ticket, hticket, htype⟩
      exact ⟨t, hmem, ht.caller_of_ticket hs hmem hticket, ticket, hticket, htype⟩
    · rintro ⟨t, hmem, -, hheld⟩
      exact ⟨t, hmem, hheld⟩
  refine ⟨hactive, fun hended t hmem howner => ?_, fun hnone => ⟨fun type => ?_, ?_⟩⟩
  · refine Option.eq_none_iff_forall_ne_some.mpr fun ticket hticket => ?_
    have hheld := (hactive ticket.type).mpr ⟨t, hmem, howner, ticket, hticket, rfl⟩
    rw [hended.inactive] at hheld
    cases hheld
  · refine Bool.eq_false_iff.mpr fun hheld => ?_
    obtain ⟨t, hmem, howner, ticket, hticket, -⟩ := (hactive type).mp hheld
    rw [hnone t hmem howner] at hticket
    cases hticket
  · have hnewer : l.Newer l.session.submissions := by
      refine ⟨Nat.le_refl _, fun ticket hm => ?_⟩
      obtain ⟨t, hmem, hticket⟩ := mem_tickets.mp hm
      rw [hnone t hmem (ht.caller_of_ticket hs hmem hticket)] at hticket
      cases hticket
    intro later e he change hdeed n hle heq
    obtain ⟨k, hlt, hk⟩ := hnewer.silent hs later e he change hdeed
    have hkn := requestId_inj (hk.symm.trans heq)
    omega

theorem floor_after (client : Rest.Client) (url : Text) (settings : Settings)
    (moves : List Move) :
    ((of client url settings).after moves).Sound ∧
      ((of client url settings).after moves).floor.Sound := by
  refine after_keeps (P := fun l => l.Sound ∧ l.floor.Sound) (fun l m next entries h hstep => ?_)
    moves _ ⟨sound_of client url settings, ?_⟩
  · exact ⟨sound_step h.1 hstep, (step_turn h.1 hstep).floor_sound h.2⟩
  · exact Job.Floor.sound_after []

/-- Any session, once closing has returned. -/
theorem jobs_after_closing (client : Rest.Client) (url : Text) (settings : Settings)
    (moves : List Move) (h : ((of client url settings).after moves).closed? = some result) :
    ((of client url settings).after moves).JobsClosed := by
  obtain ⟨hs, hf⟩ := floor_after client url settings moves
  obtain ⟨-, hclosing, hall⟩ := closed?_eq_some h
  exact (hs.tornDown (hs.closing hclosing).2 hall).jobsClosed hs hf

def jobAnswer (data : Text) : Answer :=
  .exchanged (.ok ("/job", { body := "\x7b\"status\":\"ok\",\"data\":" ++ data ++ "\x7d" }))

/-- A caller submits a scan, and the gateway takes it. -/
def scanning : List Move := [
  .start false, .commission (.submit { type := "scan" }), .act 2 1,
  .answer 2 2 (jobAnswer "\x7b\"job_id\":7\x7d")]

def scanAnswer (state : Text) : Answer :=
  jobAnswer ("\x7b\"job_id\":7,\"state\":\"" ++ state ++ "\"\x7d")

/-- The session once the scan has come so far and closing has returned. -/
def closedAt (scan : List Move) : Live :=
  labSession.after (scanning ++ scan ++ [
    .close, .hear 0 4 .cancelled, .act 0 4, .act 0 4, .leave 0 4, .leave 1 4])

/-- The scan has ended, and its caller has gone on, before the session is
closed. -/
theorem jobs_ended_after_scan :
    (closedAt [.answer 2 3 (scanAnswer "succeeded"), .act 2 3]).closed? = some (.ok ()) ∧
      (closedAt [.answer 2 3 (scanAnswer "succeeded"), .act 2 3]).JobsEnded := by
  have hclosed : (closedAt [.answer 2 3 (scanAnswer "succeeded"), .act 2 3]).closed? =
      some (.ok ()) := rfl
  refine ⟨hclosed, (jobs_after_closing _ _ _ _ hclosed).ended_iff.mpr fun t hm _ => ?_⟩
  have hall : ((closedAt [.answer 2 3 (scanAnswer "succeeded"), .act 2 3]).threads.all
      fun t => t.work.ticket?.isNone) = true := by decide
  exact Option.isNone_iff_eq_none.mp (List.all_eq_true.mp hall t hm)

def scanDone : Telemetry.JobChange :=
  { id := 7, type := "scan", state := Job.succeeded, requestId := requestId 1 }

/-- The scan is polled when the session is closed. When closing has returned
the scan is active still, and its end is published later. -/
theorem scan_outlasts :
    (closedAt [.answer 2 3 (scanAnswer "running")]).closed? = some (.ok ()) ∧
    (closedAt [.answer 2 3 (scanAnswer "running")]).session.desk.isActive "scan" = true ∧
    ∃ e ∈ (closedAt [.answer 2 3 (scanAnswer "running")]).deeds
        [.answer 2 5 .waited, .answer 2 6 (scanAnswer "succeeded")],
      e.deed = .noted (.publish (.job scanDone)) := by
  refine ⟨rfl, by decide, { thread := 2, owner := .caller, deed := _ }, ?_, rfl⟩
  exact List.mem_of_getElem? (i := 1) rfl

end Live

end MeshConsole.Session
