import MeshConsole.Proofs.Job.Notices
import MeshConsole.Proofs.Session.Ticking

/-!
# Refreshes

A refresh that a tick has started submits its job at most once, and pulls the
link table once when the job has succeeded and never else.

`refreshes_regular`: when ticks start refreshes, and what these do.
-/

namespace MeshConsole.Session

open Telemetry (Note Event)

-- ---------------------------------------------------------------------------
-- What a job tells of its success
-- ---------------------------------------------------------------------------

/-- The run has not ended, and what is published next of it agrees with what
was. -/
def Underway (run : Job.Run) : Prop :=
  run.phase = .submitting ∨ ∃ job, run.Tracks job ∧ Job.Open job.last

/-- What a run has come to, and whether a success has been told of meanwhile. -/
inductive Advance (run : Job.Run) (success : Bool) : Prop where
  | goesOn : run.Tracks job → Job.Open job.last → success = false → Advance run success
  | ends : run.phase = .ended result → (success = true ↔ ∃ text, result = .ok text) →
      Advance run success

section
variable {run : Job.Run} {job : Job.Progress} {events : List Event}

theorem ne_submitting (h : run.Tracks job) : run.phase ≠ .submitting := by
  rcases h with h | h <;> rw [h] <;> exact nofun

theorem not_success_of_ordinary {id : Int64} {states : List Text} (ticket : Job.Ticket)
    (h : ∀ state ∈ states, Job.Ordinary state) :
    (states.map (ticket.notice id · [])).any isSuccess = false := by
  rw [List.any_map, List.any_eq_false]
  intro state hstate hsuccess
  obtain ⟨-, -, hother, -⟩ := h state hstate
  exact hother (beq_iff_eq.mp hsuccess)

theorem advance_of_turn (h : Job.Turn ticket job m run events) (ho : Job.Open job.last) :
    Advance run (events.any isSuccess) := by
  cases h with
  | goesOn states _ htracks _ hstretch =>
    exact .goesOn htracks (hstretch.open ho) (not_success_of_ordinary ticket hstretch.ordinary)
  | ends states hphase hstretch hclosing =>
    refine .ends hphase ?_
    rw [List.any_append, not_success_of_ordinary ticket hstretch.ordinary, ← hclosing.succeeded_iff]
    simp [isSuccess, Job.Ticket.notice]

theorem advance_submitted (run : Job.Run) (now : Instant) (answer : Except Fault JobReceipt) :
    Advance (run.onSubmitted now answer).1
      ((Note.events (run.onSubmitted now answer).2).any isSuccess) := by
  unfold Job.Run.onSubmitted
  cases answer with
  | error why => exact .ends rfl ⟨nofun, nofun⟩
  | ok receipt =>
    by_cases hid : receipt.id ≤ 0
    · simp only [hid, if_true]
      exact .ends rfl ⟨nofun, nofun⟩
    · simp only [hid, if_false]
      exact .goesOn (.inl rfl) (.inl rfl) rfl

theorem advance_heard {order : Order} {next : Except Fault Text → Activity α}
    (hrun : Underway run) (hfits : (Task.job order run next).need.fits a = true)
    (hstep : run.step now cancelled (Task.happening run a) = (later, notes)) :
    Advance later ((Note.events notes).any isSuccess) := by
  rcases hrun with hphase | ⟨job, htracks, ho⟩
  · cases a with
    | exchanged outcome =>
      simp only [Task.happening, hphase, Job.Run.step] at hstep
      have hadvance := advance_submitted run now
        (outcomeOf (.submitJob { type := run.ticket.type }) outcome)
      rw [hstep] at hadvance
      exact hadvance
    | waited | interrupted => simp [Task.need, Job.Run.need, hphase, Need.fits] at hfits
  · have hturn := Job.step_turn { now, cancelled, happening := Task.happening run a } htracks ho
    dsimp only at hturn
    rw [hstep] at hturn
    exact advance_of_turn hturn ho

end

/-- The type of the job that a refresh submits. -/
def refreshType : Text := "lqi_refresh"

-- ---------------------------------------------------------------------------
-- Tallies
-- ---------------------------------------------------------------------------

/-- What counts of the deeds of a refresh: the jobs that it has asked for, how
often it has pulled the link table, and whether it has told of a success. -/
structure Tally where
  requests : List JobRequest := []
  pulls : Nat := 0
  success : Bool := false

def request? : Deed → Option JobRequest
  | .asked (.submitJob request) => some request
  | _ => none

def isLinkPull : Deed → Bool
  | .asked .links => true
  | _ => false

def tally (deeds : List Deed) : Tally where
  requests := deeds.filterMap request?
  pulls := deeds.countP isLinkPull
  success := (Note.events (notesOf deeds)).any isSuccess

def Tally.add (t more : Tally) : Tally where
  requests := t.requests ++ more.requests
  pulls := t.pulls + more.pulls
  success := t.success || more.success

@[simp] theorem tally_append (deeds more : List Deed) :
    tally (deeds ++ more) = (tally deeds).add (tally more) := by
  simp [tally, Tally.add]

@[simp] theorem tally_nil : tally [] = {} := rfl

@[simp] theorem Tally.add_nothing (t : Tally) : t.add {} = t := by simp [Tally.add]

theorem tally_noted (notes : List Note) :
    tally (notes.map .noted) = { success := (Note.events notes).any isSuccess } := by
  have hrequests : (notes.map Deed.noted).filterMap request? = [] := by
    rw [List.filterMap_map, List.filterMap_eq_nil_iff]
    exact fun _ _ => rfl
  have hpulls : (notes.map Deed.noted).countP isLinkPull = 0 := by
    rw [List.countP_map, List.countP_eq_zero]
    exact fun _ _ => nofun
  rw [tally, hrequests, hpulls, notesOf_noted]

theorem tally_note (h : tellsSuccess entry = false) : tally [.noted entry] = {} := by
  have hnoted := tally_noted [entry]
  rw [tellsSuccess] at h
  rw [h] at hnoted
  exact hnoted

theorem tally_stored (devices : List Device) : tally [.stored devices] = {} := rfl

theorem tally_need {order : Order} {next : Except Fault Text → Activity α}
    (h : run.phase ≠ .submitting) : tally (Task.job order run next).need.deeds = {} := by
  cases hphase : run.phase with
  | submitting => exact absurd hphase h
  | _ =>
    simp only [Task.need, Job.Run.need, hphase]
    rfl

/-- The job has been asked for at most once, and the link table has been
pulled if the job has succeeded. -/
structure Tally.Final (t : Tally) : Prop where
  single : t.requests.length ≤ 1
  type : ∀ request ∈ t.requests, request.type = refreshType
  pulls : t.pulls = if t.success then 1 else 0

-- ---------------------------------------------------------------------------
-- The course of a refresh
-- ---------------------------------------------------------------------------

/-- How a refresh goes on when its job has ended: it pulls the link table after
a success, and it asks nothing more. -/
structure Concludes (next : Except Fault Text → Activity Bool) : Prop where
  ok : ∀ text, ∃ taking, next (.ok text) = .call .links taking ∧
    ∀ answer, (taking answer).Within quiet
  error : ∀ why, (next (.error why)).Within quiet

/-- Where a refresh stands, and its tally. -/
inductive Stage : Work Bool → Tally → Prop where
  | begins {order : Order} : tellsSuccess entry = false → order.type = refreshType →
      Concludes next →
      Stage (.acting (.note entry (.job order next))) {}
  | orders {order : Order} : order.type = refreshType → Concludes next →
      Stage (.acting (.job order next)) {}
  | runs {request : JobRequest} : request.type = refreshType → Concludes next → Underway run →
      Stage (.waiting (.job order run next)) { requests := [request] }
  | ended {request : JobRequest} : request.type = refreshType → Concludes next →
      run.phase = .ended result → (success = true ↔ ∃ text, result = .ok text) →
      Stage (.waiting (.job order run next)) { requests := [request], success }
  | pulls {request : JobRequest} {taking : Except Fault LinkTable → Activity Bool} :
      request.type = refreshType → (∀ answer, (taking answer).Within quiet) →
      Stage (.acting (.call .links taking)) { requests := [request], success := true }
  | pulling {taking : Except Fault LinkTable → Activity Bool} : t.Final →
      (∀ answer, (taking answer).Within quiet) → Stage (.waiting (.calling .links taking)) t
  | closes : t.Final → rest.Within quiet → Stage (.acting rest) t
  | ends : t.Final → Stage (.waiting (.finished value)) t

theorem stage_first : Stage (.acting (quietly autoRefresh)) {} := by
  refine .begins rfl rfl ⟨fun text => ⟨_, rfl, fun answer => ?_⟩, fun why => ?_⟩
  · exact (quiet_pulledLinks answer).quietly
  · exact (quiet_refreshFailed why).quietly

/-- The job has ended. -/
theorem stage_concluded {request : JobRequest} (htype : request.type = refreshType)
    (hnext : Concludes next) (hsuccess : success = true ↔ ∃ text, result = .ok text) :
    Stage (.acting (next result)) { requests := [request], success } := by
  cases result with
  | ok text =>
    obtain ⟨taking, htaken, hquiet⟩ := hnext.ok text
    obtain rfl : success = true := hsuccess.mpr ⟨text, rfl⟩
    rw [htaken]
    exact .pulls htype hquiet
  | error why =>
    have hnone : success = false := by
      rw [← Bool.not_eq_true, hsuccess]
      exact nofun
    rw [hnone]
    exact .closes ⟨Nat.le_refl 1, List.forall_mem_singleton.mpr htype, rfl⟩ (hnext.error why)

section
variable {w : Work Bool} {b : Beat Bool} {t : Tally}

theorem Stage.act (h : Stage w t) (hacting : Acting now cancelled s w b) :
    Stage b.work (t.add (tally b.deeds)) := by
  cases h with
  | begins hentry htype hnext =>
    cases hacting with
    | note =>
      rw [tally_note hentry, Tally.add_nothing]
      exact .orders htype hnext
  | orders htype hnext =>
    cases hacting with
    | refused =>
      rw [tally_nil, Tally.add_nothing]
      exact .closes ⟨Nat.zero_le 1, List.forall_mem_nil _, rfl⟩ (hnext.error _)
    | enters => exact .runs htype hnext (.inl rfl)
  | runs htype hnext hrun =>
    cases hacting with
    | leaves _ _ _ hphase =>
      rcases hrun with hother | ⟨job, hother | hother, -⟩ <;>
        rw [hphase] at hother <;> cases hother
  | ended htype hnext hphase hsuccess =>
    cases hacting with
    | leaves _ _ _ hphase' =>
      obtain rfl := Job.Phase.ended.inj (hphase.symm.trans hphase')
      rw [tally_nil, Tally.add_nothing]
      exact stage_concluded htype hnext hsuccess
  | pulls htype htaking =>
    cases hacting with
    | call =>
      refine .pulling ⟨Nat.le_refl 1, List.forall_mem_singleton.mpr htype, rfl⟩ htaking
  | pulling => cases hacting
  | ends => cases hacting
  | closes hfinal hrest =>
    cases hacting with
    | done =>
      rw [tally_nil, Tally.add_nothing]
      exact .ends hfinal
    | note =>
      rw [tally_note hrest.1, Tally.add_nothing]
      exact .closes hfinal hrest.2
    | store =>
      rw [tally_stored, Tally.add_nothing]
      exact .closes hfinal hrest.2
    | look =>
      rw [tally_nil, Tally.add_nothing]
      exact .closes hfinal (hrest _)
    | call => exact hrest.1.elim
    | refused | enters => exact hrest.1.elim

theorem Stage.answer (h : Stage w t) (hanswering : Answering now cancelled s w a b) :
    Stage b.work (t.add (tally b.deeds)) := by
  cases h with
  | begins | orders | pulls | closes | ends => cases hanswering
  | runs htype hnext hrun =>
    cases hanswering with
    | heard _ _ _ _ hfits hstep =>
      rw [tally_append, tally_noted]
      cases advance_heard hrun hfits hstep with
      | goesOn htracks ho hsuccess =>
        rw [tally_need (ne_submitting htracks), hsuccess]
        exact .runs htype hnext (.inr ⟨_, htracks, ho⟩)
      | ends hphase hsuccess =>
        rw [tally_need (by simp [hphase])]
        exact .ended htype hnext hphase (by simpa [Tally.add] using hsuccess)
  | ended _ _ hphase =>
    cases hanswering with
    | heard _ _ _ a hfits =>
      cases a <;> simp [Task.need, Job.Run.need, hphase, Need.fits] at hfits
  | pulling hfinal htaking =>
    cases hanswering with
    | called =>
      rw [tally_nil, Tally.add_nothing]
      exact .closes hfinal (htaking _)

/-- What a refresh has come to. -/
structure Refreshed (w : Work Bool) (t : Tally) : Prop where
  single : t.requests.length ≤ 1
  type : ∀ request ∈ t.requests, request.type = refreshType
  /-- The link table is not pulled before the job has succeeded. -/
  after : t.pulls ≤ if t.success then 1 else 0
  pulls : w.outcome? ≠ none → t.pulls = if t.success then 1 else 0

theorem Stage.refreshed (h : Stage w t) : Refreshed w t := by
  cases h with
  | begins | orders => exact ⟨Nat.zero_le 1, List.forall_mem_nil _, Nat.le_refl 0, fun _ => rfl⟩
  | runs htype =>
    exact ⟨Nat.le_refl 1, List.forall_mem_singleton.mpr htype, Nat.le_refl 0, fun _ => rfl⟩
  | ended htype | pulls htype =>
    exact ⟨Nat.le_refl 1, List.forall_mem_singleton.mpr htype, Nat.zero_le _,
      fun hended => absurd rfl hended⟩
  | pulling hfinal | closes hfinal | ends hfinal =>
    exact ⟨hfinal.single, hfinal.type, Nat.le_of_eq hfinal.pulls, fun _ => hfinal.pulls⟩

end

-- ---------------------------------------------------------------------------
-- The refreshes of a session
-- ---------------------------------------------------------------------------

def deedsOf (i : Nat) (seen : List Entry) : List Deed :=
  (seen.filter fun e => e.thread == i).map Entry.deed

theorem deedsOf_append (i : Nat) (seen more : List Entry) :
    deedsOf i (seen ++ more) = deedsOf i seen ++ deedsOf i more := by
  simp [deedsOf]

theorem deedsOf_eq_nil (h : ∀ e ∈ seen, e.thread ≠ i) : deedsOf i seen = [] := by
  rw [deedsOf, List.map_eq_nil_iff, List.filter_eq_nil_iff]
  exact fun e he heq => h e he (beq_iff_eq.mp heq)

theorem deedsOf_own (i : Nat) (owner : Owner) (deeds : List Deed) :
    deedsOf i (deeds.map fun deed => { thread := i, owner, deed }) = deeds := by
  have hown : ∀ e ∈ deeds.map fun deed => ({ thread := i, owner, deed } : Entry),
      (e.thread == i) = true := by
    intro e he
    obtain ⟨deed, -, rfl⟩ := List.mem_map.mp he
    exact beq_self_eq_true i
  rw [deedsOf, List.filter_eq_self.mpr hown, List.map_map]
  exact List.map_id deeds

namespace Live

/-- A refresh among the threads was there before, or it is about to begin. -/
structure Comes (threads next : List Thread) : Prop where
  length : threads.length ≤ next.length
  refresh (j : Nat) (u : Thread) : next[j]? = some u → u.owner = .refresh →
    (∃ t : Thread, threads[j]? = some t ∧ t.owner = .refresh ∧ t.work = u.work) ∨
      threads.length ≤ j ∧ u.work = .acting (quietly autoRefresh)

/-- Every refresh stands where its deeds have led. -/
structure Refreshes (l : Live) (seen : List Entry) : Prop where
  stages (i : Nat) (t : Thread) : l.threads[i]? = some t → t.owner = .refresh →
    Stage t.work (tally (deedsOf i seen))
  bound : ∀ e ∈ seen, e.thread < l.threads.length

section
variable {l next : Live} {threads : List Thread} {t u : Thread} {i : Nat} {seen : List Entry}

theorem comes_set (hi : threads[i]? = some t) (howner : u.owner = t.owner)
    (hwork : t.owner = .refresh → t.work = u.work) : Comes threads (threads.set i u) := by
  refine ⟨Nat.le_of_eq List.length_set.symm, fun j v hv hrefresh => .inl ?_⟩
  by_cases hji : j = i
  · subst hji
    rw [List.getElem?_set_self (List.getElem?_eq_some_iff.mp hi).1] at hv
    obtain rfl := Option.some.inj hv
    rw [howner] at hrefresh
    exact ⟨t, hi, hrefresh, hwork hrefresh⟩
  · rw [List.getElem?_set_ne (Ne.symm hji)] at hv
    exact ⟨v, hv, hrefresh, rfl⟩

theorem comes_append {more : List Thread}
    (hmore : ∀ t ∈ more, t.owner = .refresh → t.work = .acting (quietly autoRefresh)) :
    Comes threads (threads ++ more) := by
  refine ⟨by simp, fun j v hv hrefresh => ?_⟩
  rw [List.getElem?_append] at hv
  split at hv
  case isTrue => exact .inl ⟨v, hv, hrefresh, rfl⟩
  case isFalse hle =>
    exact .inr ⟨Nat.le_of_not_lt hle, hmore v (List.mem_of_getElem? hv) hrefresh⟩

theorem Comes.trans {mid last : List Thread} (h : Comes threads mid) (hlast : Comes mid last) :
    Comes threads last := by
  refine ⟨Nat.le_trans h.length hlast.length, fun j v hv hrefresh => ?_⟩
  rcases hlast.refresh j v hv hrefresh with ⟨u, hu, howner, hwork⟩ | ⟨hle, hwork⟩
  · rw [← hwork]
    exact h.refresh j u hu howner
  · exact .inr ⟨Nat.le_trans h.length hle, hwork⟩

theorem Refreshes.still (h : l.Refreshes seen) (hcomes : Comes l.threads next.threads) :
    next.Refreshes (seen ++ []) := by
  rw [List.append_nil]
  refine ⟨fun j u hu hrefresh => ?_, fun e he => Nat.lt_of_lt_of_le (h.bound e he) hcomes.length⟩
  rcases hcomes.refresh j u hu hrefresh with ⟨t, ht, howner, hwork⟩ | ⟨hle, hwork⟩
  · rw [← hwork]
    exact h.stages j t ht howner
  · have hunseen : ∀ e ∈ seen, e.thread ≠ j := fun e he =>
      Nat.ne_of_lt (Nat.lt_of_lt_of_le (h.bound e he) hle)
    rw [hwork, deedsOf_eq_nil hunseen]
    exact stage_first

theorem Refreshes.beat (h : l.Refreshes seen) (hi : l.threads[i]? = some t) {b : Beat Bool}
    (hstage : ∀ {before}, Stage t.work before → Stage b.work (before.add (tally b.deeds))) :
    (l.beat i t b).1.Refreshes (seen ++ (l.beat i t b).2) := by
  have hlt := (List.getElem?_eq_some_iff.mp hi).1
  refine ⟨fun j u hu hrefresh => ?_, ?_⟩
  · rw [deedsOf_append, tally_append]
    by_cases hji : j = i
    · subst hji
      have hget : (l.beat j t b).1.threads[j]? = some { t with work := b.work } :=
        List.getElem?_set_self hlt
      obtain rfl := Option.some.inj (hget.symm.trans hu)
      rw [Live.beat, deedsOf_own]
      exact hstage (h.stages j t hi hrefresh)
    · have hget : (l.beat i t b).1.threads[j]? = l.threads[j]? :=
        List.getElem?_set_ne (Ne.symm hji)
      have hother : ∀ e ∈ (l.beat i t b).2, e.thread ≠ j := by
        intro e he
        obtain ⟨deed, -, rfl⟩ := List.mem_map.mp he
        exact Ne.symm hji
      rw [deedsOf_eq_nil hother, tally_nil, Tally.add_nothing]
      exact h.stages j u (hget.symm.trans hu) hrefresh
  · intro e he
    show e.thread < (l.threads.set i _).length
    rw [List.length_set]
    rcases List.mem_append.mp he with he | he
    · exact h.bound e he
    · obtain ⟨deed, -, rfl⟩ := List.mem_map.mp he
      exact hlt

theorem refreshes_step (h : l.Refreshes seen) (hstep : Step l m next entries) :
    next.Refreshes (seen ++ entries) := by
  cases hstep with
  | start =>
    refine h.still (comes_append fun t ht hrefresh => ?_)
    rcases List.mem_pair.mp ht with rfl | rfl <;> cases hrefresh
  | close | cancel =>
    exact h.still ⟨Nat.le_refl _, fun j u hu hrefresh => .inl ⟨u, hu, hrefresh, rfl⟩⟩
  | commission c => exact h.still (comes_append (List.forall_mem_singleton.mpr nofun))
  | giveUp hi => exact h.still (comes_set hi rfl fun _ => rfl)
  | act hi hacting => exact h.beat hi fun hstage => hstage.act hacting
  | answer hi _ hanswering => exact h.beat hi fun hstage => hstage.answer hanswering
  | hear hi howner => exact h.still (comes_set hi rfl fun hrefresh => by simp [howner] at hrefresh)
  | due => exact h.still (comes_append (List.forall_mem_singleton.mpr nofun))
  | tick hi howner => exact h.still (comes_set hi rfl fun hrefresh => by simp [howner] at hrefresh)
  | refresh hi howner =>
    have hrests := comes_set (u := .resting .ticker) hi howner.symm fun hrefresh => by
      simp [howner] at hrefresh
    exact h.still (hrests.trans (comes_append (List.forall_mem_singleton.mpr fun _ => rfl)))
  | leave hi _ _ hleave => cases hleave <;> exact h.still (comes_set hi rfl fun _ => rfl)

theorem refreshes_after (client : Rest.Client) (url : Text) (settings : Settings)
    (moves : List Move) : ((of client url settings).after moves).Refreshes
      ((of client url settings).deeds moves) := by
  refine run_keeps (P := Refreshes) (fun _ _ _ _ _ h hstep => refreshes_step h hstep) moves _ []
    ⟨fun i t ht => ?_, List.forall_mem_nil _⟩
  cases ht

end

/-- Every tick looks at the session, and a refresh is started on those that are
to start one, and on no other; any two lie as far apart as link qualities may get
old. A refresh asks for its job at most once, and has pulled the link table once
in the end if the job has succeeded, and never else. -/
theorem refreshes_regular (client : Rest.Client) (url : Text) (settings : Settings)
    (moves : List Move) :
    ((of client url settings).after moves).Regular settings
        ((of client url settings).ticking {} moves) ∧
      ∀ i t, ((of client url settings).after moves).threads[i]? = some t → t.owner = .refresh →
        Refreshed t.work (tally (deedsOf i ((of client url settings).deeds moves))) := by
  refine ⟨(timely_after client url settings moves).regular, fun i t ht hrefresh => ?_⟩
  exact ((refreshes_after client url settings moves).stages i t ht hrefresh).refreshed

/-- The first tick after a link has opened starts a refresh; the next one comes
while the job runs, which succeeds after that. The pull that follows fails. -/
def refreshing : List Move :=
  let receipt : Text := "\x7b\"status\":\"ok\",\"data\":\x7b\"job_id\":7\x7d\x7d"
  let report : Text := "\x7b\"status\":\"ok\",\"data\":\x7b\"state\":\"succeeded\"\x7d\x7d"
  let answer (text : Text) : Answer := .exchanged (.ok ("/jobs", { body := text }))
  [.start false, .hear 0 1 .dialed, .act 0 1, .act 0 1, .act 0 1,
    .tick 1, .act 1 2, .act 1 2, .act 1 2, .act 1 2, .refresh 1,
    .act 2 2, .act 2 2, .answer 2 3 (answer receipt), .tick 1, .act 1 4, .act 1 4, .act 1 4,
    .answer 2 5 (answer report), .act 2 5, .act 2 5, .answer 2 6 (.exchanged (.error .canceled))]

example : (labSession.ticking {} refreshing).begun = 2 ∧
    (labSession.ticking {} refreshing).looks.map Tick.started = [false, true] ∧
    (tally (deedsOf 2 (labSession.deeds refreshing))).success = true ∧
    (tally (deedsOf 2 (labSession.deeds refreshing))).pulls = 1 := by
  decide +kernel

end Live

end MeshConsole.Session
