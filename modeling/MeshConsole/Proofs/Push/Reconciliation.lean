import MeshConsole.Proofs.Push.Pulls

/-!
# One pull for each open

`one_shot`: in a timed run whose handler reconciles, the pull of an open
starts once, at the open's instant plus the delay, if until then the link
does not open again and the run is not cancelled; otherwise it never starts.
Losing the connection does not matter. At any time at most one pull is not
called off, that of the latest open, and a run that has returned has none
left and starts none any more.

Time passes between happenings: a pull that waits starts when its instant
comes. What happens at that very instant goes before it.
-/

namespace MeshConsole.Push

-- ---------------------------------------------------------------------------
-- Timed runs
-- ---------------------------------------------------------------------------

namespace Run

/-- Lets time pass up to `now`. A pull whose instant comes before it starts
at that instant. -/
def wake (r : Run) (now : Instant) : Run × List (Instant × Signal) :=
  r.meets ((r.waits.filter (·.1 < now)).map fun w => (w.1, .pullDue w.2))

/-- A run through all that happens to it from outside, up to `now`. -/
def elapse : Run → List (Instant × Happening) → Instant → Run × List (Instant × Signal)
  | r, [], now => r.wake now
  | r, (t, h) :: rest, now =>
    let (ready, woken) := r.wake t
    let (next, signals) := ready.step t h
    let (last, later) := next.elapse rest now
    (last, woken ++ signals.map (t, ·) ++ later)

theorem elapse_cons (r : Run) (t : Instant) (h : Happening) (rest : List (Instant × Happening))
    (now : Instant) :
    r.elapse ((t, h) :: rest) now =
      ((((r.wake t).1.step t h).1.elapse rest now).1,
        (r.wake t).2 ++ ((r.wake t).1.step t h).2.map (t, ·) ++
          (((r.wake t).1.step t h).1.elapse rest now).2) := rfl

end Run

/-- The instants at which signals of a kind were given. -/
def timesOf (kind : Signal → Bool) (log : List (Instant × Signal)) : List Instant :=
  (log.filter fun entry => kind entry.2).map Prod.fst

@[simp] theorem timesOf_append (kind : Signal → Bool) (log more : List (Instant × Signal)) :
    timesOf kind (log ++ more) = timesOf kind log ++ timesOf kind more := by
  simp [timesOf]

def Signal.opens : Signal → Bool
  | .publish (.connection _ connected _) => connected
  | _ => false

def Signal.starts (number : Nat) : Signal → Bool
  | .reconcile other => other == number
  | _ => false

/-- The instants at which the link opened. -/
def opensIn (log : List (Instant × Signal)) : List Instant := timesOf Signal.opens log

/-- The instants at which the pull of a number started. -/
def startsIn (number : Nat) (log : List (Instant × Signal)) : List Instant :=
  timesOf (Signal.starts number) log

theorem timesOf_stamped (kind : Signal → Bool) (signals : List Signal) (t : Instant) :
    timesOf kind (signals.map (t, ·)) = (signals.filter kind).map fun _ => t := by
  simp [timesOf, List.filter_map, Function.comp_def]

theorem startsIn_reconcile (due : Instant) (number other : Nat) :
    startsIn number [(due, .reconcile other)] = if other = number then [due] else [] := by
  by_cases h : other = number <;> simp [startsIn, timesOf, Signal.starts, h]

/-- Whether a signal tells neither of an open nor of a start. -/
def Signal.idle : Signal → Bool
  | .publish (.connection _ connected _) => !connected
  | .reconcile _ => false
  | _ => true

theorem idle_times {signals : List Signal} (h : signals.all Signal.idle = true) (t : Instant) :
    opensIn (signals.map (t, ·)) = [] ∧ ∀ n, startsIn n (signals.map (t, ·)) = [] := by
  have hnone {kind : Signal → Bool} (hk : ∀ s : Signal, s.idle = true → kind s = false) :
      timesOf kind (signals.map (t, ·)) = [] := by
    rw [timesOf_stamped, List.filter_eq_nil_iff.mpr, List.map_nil]
    intro s hs
    rw [hk s (List.all_eq_true.mp h s hs)]
    nofun
  refine ⟨hnone fun s hs => ?_, fun n => hnone fun s hs => ?_⟩
  · unfold Signal.opens
    split
    · simpa [Signal.idle] using hs
    · rfl
  · unfold Signal.starts
    split
    · cases hs
    · rfl

theorem idle_of_ofFrame {s : Signal} (h : s.ofFrame = true) : s.idle = true := by
  unfold Signal.idle
  split
  · cases h
  · cases h
  · rfl

-- ---------------------------------------------------------------------------
-- What comes from outside
-- ---------------------------------------------------------------------------

namespace Run

/-- A run whose handler pulls after this delay. -/
structure Ready (delay : Duration) (r : Run) : Prop extends Sound r where
  handler : r.handler = .reconciling
  timing : r.link.timing.reconcile = delay

theorem Ready.step (hr : Ready delay r) (hs : (r.step now h).1.Sound) :
    Ready delay (r.step now h).1 := by
  have hfixed : Fixed .reconciling r.link.url r.link.timing (r.step now h).1 :=
    step_fixed ⟨hr.handler, rfl, rfl⟩ now h
  refine ⟨hs, hfixed.handler, ?_⟩
  rw [hfixed.timing]
  exact hr.timing

theorem step_start (hr : Ready delay r) (hw : (instant, number) ∈ r.waits) (now : Instant) :
    Ready delay (r.step now (.pullDue number)).1 ∧
      (r.step now (.pullDue number)).1.waits = [] ∧
      (r.step now (.pullDue number)).1.scheduled = r.scheduled ∧
      (r.step now (.pullDue number)).1.phase = r.phase ∧
      (r.step now (.pullDue number)).2 = [.reconcile number] := by
  have hstep : r.step now (.pullDue number) = r.onPullDue number := by simp [Run.step]
  obtain ⟨hsound, hwaits⟩ := sound_onPullDue hr.toSound hw
  refine ⟨hr.step (by rw [hstep]; exact hsound), by rw [hstep]; exact hwaits, ?_, ?_, ?_⟩ <;>
    rw [hstep, onPullDue_waiting hw]

/-- What comes from outside either opens the link and has a new pull wait in
place of all others, or ends the run and all waiting, or leaves what waits as
it is. -/
inductive PullTurn (delay : Duration) (r : Run) (now : Instant) : Happening → Prop where
  | opens : r.phase = .dialing → opensIn ((r.step now .dialed).2.map (now, ·)) = [now] →
      (r.step now .dialed).1.waits = [(now.plus delay, r.scheduled)] →
      (r.step now .dialed).1.scheduled = r.scheduled + 1 → PullTurn delay r now .dialed
  | ends : opensIn ((r.step now .cancelled).2.map (now, ·)) = [] →
      (r.step now .cancelled).1.waits = [] → (r.step now .cancelled).1.phase = .finished →
      (r.step now .cancelled).1.scheduled = r.scheduled → PullTurn delay r now .cancelled
  | rests : h ≠ .cancelled → opensIn ((r.step now h).2.map (now, ·)) = [] →
      (r.step now h).1.waits = r.waits →
      (r.phase = .finished → (r.step now h).1.phase = .finished) →
      (r.step now h).1.scheduled = r.scheduled → PullTurn delay r now h

theorem schedule_idle (r : Run) (due : Instant) : (r.schedule due).2.all Signal.idle = true := by
  simp [schedule, callOff, Signal.idle]

theorem onCancelled_idle (r : Run) : r.onCancelled.2.all Signal.idle = true := by
  unfold onCancelled
  split <;> simp [callOff, Signal.idle]

theorem onFailed_idle (r : Run) (why : Fault) : (r.onFailed why).2.all Signal.idle = true := rfl

/-- The step of an open. -/
theorem step_opens (hr : Ready delay r) (hp : r.phase = .dialing)
    (hstep : r.step now .dialed = r.onDialed now) :
    Ready delay (r.step now .dialed).1 ∧
      (∀ n, startsIn n ((r.step now .dialed).2.map (now, ·)) = []) ∧
      PullTurn delay r now .dialed := by
  have hlinked : r.linked.Sound := hr.toSound.of_same rfl rfl rfl fun _ => nofun
  obtain ⟨hsound, hwaits⟩ :=
    sound_schedule hlinked nofun (now.plus r.link.timing.reconcile)
  obtain ⟨hopens, hstarts⟩ :=
    idle_times (schedule_idle r.linked (now.plus r.link.timing.reconcile)) now
  have hdialed := hstep.trans (onDialed_reconciling hr.handler now)
  refine ⟨hr.step (by rw [hdialed]; exact hsound), fun n => ?_, .opens hp ?_ ?_ ?_⟩ <;> rw [hdialed]
  · rw [List.map_append, startsIn, timesOf_append]
    exact hstarts n
  · rw [List.map_append, opensIn, timesOf_append]
    exact congrArg (now :: ·) hopens
  · rw [hwaits, hr.timing]
    rfl
  · rfl

theorem step_pulls (hr : Ready delay r) (now : Instant) (h : Happening)
    (hh : ∀ n, h ≠ .pullDue n) :
    Ready delay (r.step now h).1 ∧ (∀ n, startsIn n ((r.step now h).2.map (now, ·)) = []) ∧
      PullTurn delay r now h := by
  -- A step that leaves the pulls alone and says nothing of them.
  have hrests {next : Run} {signals : List Signal} (hstep : r.step now h = (next, signals))
      (hc : h ≠ .cancelled) (hi : signals.all Signal.idle = true) (hsound : next.Sound)
      (hwaits : next.waits = r.waits) (hscheduled : next.scheduled = r.scheduled)
      (hphase : r.phase = .finished → next.phase = .finished) :
      Ready delay (r.step now h).1 ∧ (∀ n, startsIn n ((r.step now h).2.map (now, ·)) = []) ∧
        PullTurn delay r now h := by
    obtain ⟨hopens, hstarts⟩ := idle_times hi now
    refine ⟨hr.step (by rw [hstep]; exact hsound), ?_, .rests hc ?_ ?_ ?_ ?_⟩ <;> rw [hstep]
    · exact hstarts
    · exact hopens
    · exact hwaits
    · exact hphase
    · exact hscheduled
  have hsame {next : Run} (hpulls : next.pulls = r.pulls) (hslot : next.slot = r.slot)
      (hscheduled : next.scheduled = r.scheduled) (hphase : next.phase ≠ .finished) :
      next.Sound := hr.toSound.of_same hpulls hslot hscheduled fun _ => hphase
  cases step_cases r now h with
  | dialed hp hs => exact step_opens hr hp hs
  | dialFailed why hp hs =>
    exact hrests hs nofun (onFailed_idle r why) (hsame rfl rfl rfl nofun) rfl rfl (by simp [hp])
  | frame bytes hp hs =>
    refine hrests hs nofun ?_ (hsame rfl rfl rfl (by simp [hp])) rfl rfl id
    exact List.all_eq_true.mpr fun s hm =>
      idle_of_ofFrame (List.all_eq_true.mp (receive_ofFrame r.link r.handler bytes) s hm)
  | readFailed why hp hs =>
    exact hrests hs nofun (onFailed_idle r why) (hsame rfl rfl rfl nofun) rfl rfl (by simp [hp])
  | waited wait hp hs =>
    exact hrests hs nofun rfl (hsame rfl rfl rfl nofun) rfl rfl (by simp [hp])
  | cancelled hs =>
    obtain ⟨hsound, hwaits, hphase, hscheduled⟩ := sound_onCancelled hr.toSound
    obtain ⟨hopens, hstarts⟩ := idle_times (onCancelled_idle r) now
    refine ⟨hr.step (by rw [hs]; exact hsound), ?_, .ends ?_ ?_ ?_ ?_⟩ <;> rw [hs]
    · exact hstarts
    · exact hopens
    · exact hwaits
    · exact hphase
    · exact hscheduled
  | pullDue number hs => exact absurd rfl (hh number)
  | pullReturned number hs =>
    obtain ⟨hsound, hwaits⟩ := sound_onPullReturned hr.toSound number
    exact hrests hs nofun rfl hsound hwaits rfl id
  | ignored hc ha hs => exact hrests hs hc rfl hr.toSound rfl rfl id

-- ---------------------------------------------------------------------------
-- Time that passes
-- ---------------------------------------------------------------------------

/-- Up to `now` either nothing is due, or the one pull that waits starts when
it is due. -/
inductive Waking (delay : Duration) (r : Run) (now : Instant) : Prop where
  | quiet : (∀ w ∈ r.waits, now ≤ w.1) → r.wake now = (r, []) → Waking delay r now
  | starts (due : Instant) (number : Nat) : r.waits = [(due, number)] → due < now →
      Ready delay (r.wake now).1 → (r.wake now).1.waits = [] →
      (r.wake now).1.scheduled = r.scheduled → (r.wake now).1.phase = r.phase →
      (r.wake now).2 = [(due, .reconcile number)] →
      Waking delay r now

theorem wake_cases (hr : Ready delay r) (now : Instant) : Waking delay r now := by
  rcases hr.toSound.waits_cases with hnone | ⟨due, number, hone⟩
  · refine .quiet (by rw [hnone]; nofun) ?_
    rw [wake, hnone]
    rfl
  · by_cases hdue : due < now
    · obtain ⟨hready, hwaits, hscheduled, hphase, hsignals⟩ :=
        step_start hr (by rw [hone]; exact List.mem_singleton_self _) due
      have hwake : r.wake now = r.meets [(due, .pullDue number)] := by
        simp [wake, hone, hdue]
      rw [meets_cons, hsignals] at hwake
      refine .starts due number hone hdue ?_ ?_ ?_ ?_ ?_ <;> rw [hwake]
      · exact hready
      · exact hwaits
      · exact hscheduled
      · exact hphase
      · rfl
    · refine .quiet (by rw [hone]; simpa using hdue) ?_
      simp [wake, hone, hdue]

theorem wake_ready (hr : Ready delay r) (now : Instant) :
    Ready delay (r.wake now).1 ∧ (r.wake now).1.scheduled = r.scheduled ∧
      (r.wake now).1.phase = r.phase ∧ opensIn (r.wake now).2 = [] := by
  cases wake_cases hr now with
  | quiet _ hwake =>
    rw [hwake]
    exact ⟨hr, rfl, rfl, rfl⟩
  | starts due number _ _ hready _ hscheduled hphase hlog =>
    rw [hlog]
    exact ⟨hready, hscheduled, hphase, rfl⟩

/-- A run in which the pull of a number does not wait, and never will. -/
structure Settled (number : Nat) (r : Run) : Prop where
  below : number < r.scheduled
  waits : ∀ w ∈ r.waits, w.2 ≠ number

theorem Settled.of_none {r next : Run} (hn : number < r.scheduled) (hwaits : next.waits = [])
    (hscheduled : next.scheduled = r.scheduled) : Settled number next :=
  ⟨hscheduled ▸ hn, by rw [hwaits]; nofun⟩

theorem Settled.of_newer {r next : Run} (hn : number < r.scheduled)
    (hwaits : next.waits = [(due, r.scheduled)])
    (hscheduled : next.scheduled = r.scheduled + 1) : Settled number next := by
  refine ⟨hscheduled ▸ Nat.lt_succ_of_lt hn, ?_⟩
  rw [hwaits]
  intro w hw
  rw [List.mem_singleton.mp hw]
  exact Nat.ne_of_gt hn

theorem wake_settled (hr : Ready delay r) (hn : Settled number r) (now : Instant) :
    Settled number (r.wake now).1 ∧ startsIn number (r.wake now).2 = [] := by
  cases wake_cases hr now with
  | quiet _ hwake =>
    rw [hwake]
    exact ⟨hn, rfl⟩
  | starts due other hone _ _ hwaits hscheduled _ hlog =>
    have hne : other ≠ number :=
      hn.waits (due, other) (by rw [hone]; exact List.mem_singleton_self _)
    refine ⟨.of_none hn.below hwaits hscheduled, ?_⟩
    rw [hlog, startsIn_reconcile, if_neg hne]

theorem PullTurn.settled (ht : PullTurn delay r now h) (hn : Settled number r) :
    Settled number (r.step now h).1 := by
  cases ht with
  | opens _ _ hwaits hscheduled => exact .of_newer hn.below hwaits hscheduled
  | ends _ hwaits _ hscheduled => exact .of_none hn.below hwaits hscheduled
  | rests _ _ hwaits _ hscheduled =>
    exact ⟨hscheduled ▸ hn.below, by rw [hwaits]; exact hn.waits⟩

theorem wake_due (hr : Ready delay r) (hw : r.waits = [(due, number)]) (hdue : due < now) :
    Settled number (r.wake now).1 ∧ startsIn number (r.wake now).2 = [due] := by
  cases wake_cases hr now with
  | quiet hnone _ =>
    have hle : now ≤ due := hnone (due, number) (by rw [hw]; exact List.mem_singleton_self _)
    exact absurd hdue (Int.not_lt.mpr hle)
  | starts other n hone _ _ hwaits hscheduled _ hlog =>
    cases hw.symm.trans hone
    have hlatest := hr.toSound.of_waits hw
    refine ⟨.of_none (by omega) hwaits hscheduled, ?_⟩
    rw [hlog, startsIn_reconcile, if_pos rfl]

theorem wake_early (hr : Ready delay r) (hw : r.waits = [(due, number)]) (hdue : now ≤ due) :
    r.wake now = (r, []) := by
  cases wake_cases hr now with
  | quiet _ hwake => exact hwake
  | starts other n hone hlt =>
    cases hw.symm.trans hone
    exact absurd hlt (Int.not_lt.mpr hdue)

/-- What waits was scheduled before. -/
theorem wake_scheduled (hr : Ready delay r) (now : Instant) (k : Nat) :
    startsIn (r.scheduled + k) (r.wake now).2 = [] := by
  cases wake_cases hr now with
  | quiet _ hwake =>
    rw [hwake]
    rfl
  | starts due number hone _ _ _ _ _ hlog =>
    have hlatest := hr.toSound.of_waits hone
    rw [hlog, startsIn_reconcile, if_neg (by omega)]

-- ---------------------------------------------------------------------------
-- Whole courses
-- ---------------------------------------------------------------------------

/-- Everything comes from outside. -/
def FromOutside (course : List (Instant × Happening)) : Prop := ∀ e ∈ course, ∀ n, e.2 ≠ .pullDue n

theorem opensIn_elapse_cons (hr : Ready delay r) (t : Instant) (h : Happening)
    (rest : List (Instant × Happening)) (now : Instant) :
    opensIn (r.elapse ((t, h) :: rest) now).2 =
      opensIn (((r.wake t).1.step t h).2.map (t, ·)) ++
        opensIn (((r.wake t).1.step t h).1.elapse rest now).2 := by
  have hnone := (wake_ready hr t).2.2.2
  simp only [elapse_cons, opensIn, timesOf_append] at hnone ⊢
  rw [hnone, List.nil_append]

theorem startsIn_elapse_cons (hr : Ready delay r) (t : Instant) (h : Happening)
    (hh : ∀ n, h ≠ .pullDue n) (rest : List (Instant × Happening)) (now : Instant) (number : Nat) :
    startsIn number (r.elapse ((t, h) :: rest) now).2 =
      startsIn number (r.wake t).2 ++
        startsIn number (((r.wake t).1.step t h).1.elapse rest now).2 := by
  have hnone := (step_pulls (wake_ready hr t).1 t h hh).2.1 number
  simp only [elapse_cons, startsIn, timesOf_append] at hnone ⊢
  rw [hnone, List.append_nil]

theorem elapse_ready (hr : Ready delay r) (ho : FromOutside course) (now : Instant) :
    Ready delay (r.elapse course now).1 ∧
      (r.elapse course now).1.scheduled = r.scheduled + (opensIn (r.elapse course now).2).length ∧
      (opensIn (r.elapse course now).2).Sublist (course.map Prod.fst) := by
  induction course generalizing r with
  | nil =>
    obtain ⟨hready, hscheduled, -, hopens⟩ := wake_ready hr now
    rw [elapse, hopens]
    exact ⟨hready, hscheduled, List.Sublist.refl []⟩
  | cons e rest ih =>
    obtain ⟨t, h⟩ := e
    obtain ⟨hawake, hkept, -, -⟩ := wake_ready hr t
    obtain ⟨hnext, -, hturn⟩ := step_pulls hawake t h (ho _ List.mem_cons_self)
    obtain ⟨hready, hscheduled, hsub⟩ := ih hnext fun e he => ho e (List.mem_cons_of_mem _ he)
    rw [opensIn_elapse_cons hr, elapse_cons]
    refine ⟨hready, ?_⟩
    rw [hscheduled]
    cases hturn with
    | opens _ hopens _ hone =>
      rw [hopens, hone, hkept, List.length_append, List.length_singleton, Nat.add_assoc]
      exact ⟨rfl, hsub.cons_cons t⟩
    | ends hopens _ _ hsame | rests _ hopens _ _ hsame =>
      rw [hopens, hsame, hkept, List.nil_append]
      exact ⟨rfl, hsub.cons t⟩

theorem elapse_settled (hr : Ready delay r) (hn : Settled number r) (ho : FromOutside course)
    (now : Instant) : startsIn number (r.elapse course now).2 = [] := by
  induction course generalizing r with
  | nil => exact (wake_settled hr hn now).2
  | cons e rest ih =>
    obtain ⟨t, h⟩ := e
    obtain ⟨hsettled, hnone⟩ := wake_settled hr hn t
    obtain ⟨hnext, -, hturn⟩ := step_pulls (wake_ready hr t).1 t h (ho _ List.mem_cons_self)
    rw [startsIn_elapse_cons hr t h (ho _ List.mem_cons_self), hnone, List.nil_append]
    exact ih hnext (hturn.settled hsettled) fun e he => ho e (List.mem_cons_of_mem _ he)

/-- A run that has ended opens its link no more. -/
theorem elapse_finished (hr : Ready delay r) (hp : r.phase = .finished) (ho : FromOutside course)
    (now : Instant) : opensIn (r.elapse course now).2 = [] := by
  induction course generalizing r with
  | nil => exact (wake_ready hr now).2.2.2
  | cons e rest ih =>
    obtain ⟨t, h⟩ := e
    obtain ⟨hawake, -, hphase, -⟩ := wake_ready hr t
    obtain ⟨hnext, -, hturn⟩ := step_pulls hawake t h (ho _ List.mem_cons_self)
    have hrest : FromOutside rest := fun e he => ho e (List.mem_cons_of_mem _ he)
    rw [opensIn_elapse_cons hr]
    cases hturn with
    | opens hdialing _ _ _ =>
      rw [hphase, hp] at hdialing
      cases hdialing
    | ends hopens _ hfinished _ => rw [hopens, ih hnext hfinished hrest, List.nil_append]
    | rests _ hopens _ hfinished _ =>
      rw [hopens, ih hnext (hfinished (hphase.trans hp)) hrest, List.nil_append]

end Run

/-- The instants before `now` at which a pull starts that is due at `due`:
it starts then, unless one of the later `opens` or a cancellation has come
by then. -/
def startsOf (due now : Instant) (opens : List Instant) (course : List (Instant × Happening)) :
    List Instant :=
  if due < now ∧ (∀ u ∈ opens, due < u) ∧ ∀ e ∈ course, e.2 = .cancelled → due < e.1 then [due]
  else []

theorem startsOf_cons (hh : h ≠ .cancelled) :
    startsOf due now opens ((t, h) :: course) = startsOf due now opens course := by
  have hiff : (∀ e ∈ (t, h) :: course, e.2 = .cancelled → due < e.1) ↔
      ∀ e ∈ course, e.2 = .cancelled → due < e.1 := by
    rw [List.forall_mem_cons]
    exact ⟨And.right, fun hrest => ⟨fun he => absurd he hh, hrest⟩⟩
  simp only [startsOf, hiff]

/-- What happens from outside, in the order of time and up to `now`. -/
structure Timed (course : List (Instant × Happening)) (now : Instant) : Prop where
  ordered : course.Pairwise fun e f => e.1 ≤ f.1
  past : ∀ e ∈ course, e.1 ≤ now
  outside : Run.FromOutside course

theorem Timed.head_le (hs : Timed ((t, h) :: rest) now) (he : e ∈ (t, h) :: rest) : t ≤ e.1 := by
  rcases List.mem_cons.mp he with rfl | he
  · exact Int.le_refl _
  · exact (List.pairwise_cons.mp hs.ordered).1 e he

theorem Timed.tail (hs : Timed (e :: rest) now) : Timed rest now where
  ordered := (List.pairwise_cons.mp hs.ordered).2
  past f hf := hs.past f (List.mem_cons_of_mem _ hf)
  outside f hf := hs.outside f (List.mem_cons_of_mem _ hf)

/-- Nothing calls a pull off that is due before anything happens. -/
theorem startsOf_first (hs : Timed ((t, h) :: rest) now) (hdue : due < t)
    (hopens : opens ⊆ ((t, h) :: rest).map Prod.fst) :
    startsOf due now opens ((t, h) :: rest) = [due] := by
  refine if_pos ⟨?_, fun u hu => ?_, fun e he _ => ?_⟩
  · exact Int.lt_of_lt_of_le hdue (hs.past _ List.mem_cons_self)
  · obtain ⟨e, he, rfl⟩ := List.mem_map.mp (hopens hu)
    exact Int.lt_of_lt_of_le hdue (hs.head_le he)
  · exact Int.lt_of_lt_of_le hdue (hs.head_le he)

namespace Run

/-- The fate of the pull that waits. -/
theorem elapse_waiting (hr : Ready delay r) (hw : r.waits = [(due, number)])
    (hs : Timed course now) :
    startsIn number (r.elapse course now).2 =
      startsOf due now (opensIn (r.elapse course now).2) course := by
  induction course generalizing r with
  | nil =>
    rw [elapse, (wake_ready hr now).2.2.2]
    by_cases hdue : due < now
    · rw [(wake_due hr hw hdue).2, startsOf, if_pos ⟨hdue, nofun, nofun⟩]
    · rw [wake_early hr hw (Int.not_lt.mp hdue), startsOf, if_neg fun hd => hdue hd.1]
      rfl
  | cons e rest ih =>
    obtain ⟨t, h⟩ := e
    have hout := hs.outside _ List.mem_cons_self
    by_cases hdue : due < t
    · -- It starts before anything else happens.
      obtain ⟨hsettled, hstart⟩ := wake_due hr hw hdue
      obtain ⟨hnext, -, hturn⟩ := step_pulls (wake_ready hr t).1 t h hout
      have hlast := elapse_settled hnext (hturn.settled hsettled) hs.tail.outside now
      rw [startsIn_elapse_cons hr t h hout, hstart, hlast,
        startsOf_first hs hdue (elapse_ready hr hs.outside now).2.2.subset]
      rfl
    · -- It still waits, and what happens may call it off.
      have hwake := wake_early hr hw (Int.not_lt.mp hdue)
      have hlatest := hr.toSound.of_waits hw
      obtain ⟨hnext, -, hturn⟩ := step_pulls hr t h hout
      rw [startsIn_elapse_cons hr t h hout, opensIn_elapse_cons hr, hwake]
      show [] ++ _ = _
      rw [List.nil_append]
      cases hturn with
      | opens _ hopens hwaits hscheduled =>
        have hsettled : Settled number (r.step t .dialed).1 :=
          .of_newer (by omega) hwaits hscheduled
        rw [elapse_settled hnext hsettled hs.tail.outside now, startsOf, if_neg]
        rintro ⟨-, hopen, -⟩
        rw [hopens] at hopen
        exact hdue (hopen t List.mem_cons_self)
      | ends _ hwaits _ hscheduled =>
        have hsettled : Settled number (r.step t .cancelled).1 :=
          .of_none (by omega) hwaits hscheduled
        rw [elapse_settled hnext hsettled hs.tail.outside now, startsOf, if_neg]
        rintro ⟨-, -, hcancel⟩
        exact hdue (hcancel _ List.mem_cons_self rfl)
      | rests hc hopens hwaits _ _ =>
        rw [hopens, List.nil_append, startsOf_cons hc]
        exact ih hnext (hwaits.trans hw) hs.tail

/-- The fate of the pull of each open. -/
theorem elapse_opened (hr : Ready delay r) (hs : Timed course now) (k : Nat) :
    startsIn (r.scheduled + k) (r.elapse course now).2 =
      match (opensIn (r.elapse course now).2)[k]? with
      | none => []
      | some t =>
        startsOf (t.plus delay) now ((opensIn (r.elapse course now).2).drop (k + 1)) course := by
  induction course generalizing r k with
  | nil =>
    rw [elapse, (wake_ready hr now).2.2.2]
    exact wake_scheduled hr now k
  | cons e rest ih =>
    obtain ⟨t, h⟩ := e
    have hout := hs.outside _ List.mem_cons_self
    obtain ⟨hawake, hkept, -, -⟩ := wake_ready hr t
    obtain ⟨hnext, -, hturn⟩ := step_pulls hawake t h hout
    rw [startsIn_elapse_cons hr t h hout, opensIn_elapse_cons hr, wake_scheduled hr,
      List.nil_append]
    cases hturn with
    | opens _ hopens hwaits hscheduled =>
      rw [hopens]
      cases k with
      | zero =>
        rw [Nat.add_zero, elapse_waiting hnext (hkept ▸ hwaits) hs.tail]
        exact (startsOf_cons (h := .dialed) nofun).symm
      | succ k =>
        have hrest := ih hnext hs.tail k
        rw [hscheduled, hkept, Nat.add_right_comm, Nat.add_assoc] at hrest
        rw [hrest]
        simp only [List.singleton_append, List.getElem?_cons_succ, List.drop_succ_cons,
          startsOf_cons (h := Happening.dialed) nofun]
    | ends hopens _ hfinished hscheduled =>
      have hrest := ih hnext hs.tail k
      rw [hscheduled, hkept] at hrest
      rw [hrest, hopens, elapse_finished hnext hfinished hs.tail.outside now]
      rfl
    | rests hc hopens hwaits _ hscheduled =>
      have hrest := ih hnext hs.tail k
      rw [hscheduled, hkept] at hrest
      rw [hrest, hopens, List.nil_append]
      simp only [startsOf_cons hc]

theorem hasReturned_iff {r : Run} :
    r.hasReturned = true ↔ r.phase = .finished ∧ r.pulls = [] := by
  simp [hasReturned]

theorem step_returned {r : Run} (hr : r.hasReturned = true) (now : Instant) (h : Happening) :
    r.step now h = (r, []) := by
  obtain ⟨hphase, hpulls⟩ := hasReturned_iff.mp hr
  cases step_cases r now h with
  | dialed hp | dialFailed _ hp | frame _ hp | readFailed _ hp | waited _ hp =>
    rw [hphase] at hp
    cases hp
  | cancelled hs =>
    rw [hs, onCancelled]
    simp only [hphase]
  | pullDue number hs =>
    rw [hs]
    exact onPullDue_other (by simp [waits, hpulls])
  | pullReturned number hs => rw [hs, onPullReturned, hpulls, List.filter_nil, ← hpulls]
  | ignored _ _ hs => exact hs

theorem elapse_returned {r : Run} (hr : r.hasReturned = true)
    (course : List (Instant × Happening)) (now : Instant) : r.elapse course now = (r, []) := by
  have hwake (t : Instant) : r.wake t = (r, []) := by
    simp [wake, waits, (hasReturned_iff.mp hr).2]
  induction course with
  | nil => exact hwake now
  | cons e rest ih =>
    obtain ⟨t, h⟩ := e
    rw [elapse_cons, hwake, step_returned hr, ih]
    rfl

end Run

/-- What a run has made of its pulls after a course up to `now`, of which
`log` tells. The pulls are numbered like the opens they belong to. -/
structure OneShot (delay : Duration) (course : List (Instant × Happening)) (now : Instant)
    (r : Run) (log : List (Instant × Signal)) : Prop where
  /-- The pull of an open starts once, after the delay, or is called off
  before that and never starts. -/
  starts : ∀ n t, (opensIn log)[n]? = some t →
    startsIn n log = startsOf (t.plus delay) now ((opensIn log).drop (n + 1)) course
  /-- There is no pull without an open. -/
  needsOpen : ∀ n, (opensIn log)[n]? = none → startsIn n log = []
  live : (r.pulls.filter fun p => !p.calledOff).length ≤ 1
  latest : ∀ p ∈ r.pulls, p.calledOff = false → p.number + 1 = (opensIn log).length
  /-- When the loop has ended, the pulls that are left run and are called
  off. -/
  finished : r.phase = .finished → ∀ p ∈ r.pulls, p.due? = none ∧ p.calledOff = true
  returned : r.hasReturned = true →
    r.pulls = [] ∧ ∀ later till, r.elapse later till = (r, [])

/-- A timed run from its start on, whatever happens to it. -/
theorem one_shot (url : Text) (timing : Timing) (cancelled : Bool)
    (course : List (Instant × Happening)) (now : Instant) (hs : Timed course now) :
    OneShot timing.effective.reconcile course now
      ((Run.start (Link.new url timing) .reconciling cancelled).elapse course now).1
      ((Run.start (Link.new url timing) .reconciling cancelled).elapse course now).2 := by
  have hstart : Run.Ready timing.effective.reconcile
      (Run.start (Link.new url timing) .reconciling cancelled) := by
    cases cancelled <;> exact ⟨⟨nofun, List.Pairwise.nil, nofun, nofun⟩, rfl, rfl⟩
  have hzero : (Run.start (Link.new url timing) .reconciling cancelled).scheduled = 0 := by
    cases cancelled <;> rfl
  have hfate (n : Nat) := Run.elapse_opened hstart hs n
  obtain ⟨hready, hscheduled, -⟩ := Run.elapse_ready hstart hs.outside now
  simp only [hzero, Nat.zero_add] at hfate hscheduled
  exact {
    starts := fun n t hopen => by rw [hfate n, hopen]
    needsOpen := fun n hopen => by rw [hfate n, hopen]
    live := hready.toSound.live_le_one
    latest := fun p hp hoff => hscheduled ▸ (hready.live p hp hoff).2.1
    finished := fun hp p hm => hready.toSound.of_finished hp hm
    returned := fun hr => ⟨(Run.hasReturned_iff.mp hr).2, Run.elapse_returned hr⟩ }

/-- The link opens three times. The second open comes too early for the
first pull; the second pull starts although the link is lost; cancelling
comes too early for the third. -/
def flapping : List (Instant × Happening) := [
  (0, .dialed), (500000000, .readFailed .socket), (1000000000, .waited), (1100000000, .dialed),
  (2000000000, .readFailed .socket), (3000000000, .waited), (3100000000, .dialed),
  (4000000000, .cancelled), (5000000000, .pullReturned 1)]

def flapped : Run × List (Instant × Signal) :=
  (Run.start (Link.new "ws://gw/ws" {}) .reconciling false).elapse flapping 6000000000

theorem starts_flapping : opensIn flapped.2 = [0, 1100000000, 3100000000] ∧
    startsIn 0 flapped.2 = [] ∧ startsIn 1 flapped.2 = [2300000000] ∧ startsIn 2 flapped.2 = [] ∧
    flapped.1.pulls = [] := by
  have htimed : Timed flapping 6000000000 :=
    ⟨by decide, by decide, by simp [Run.FromOutside, flapping]⟩
  have h : OneShot (1200 * Duration.millisecond) flapping 6000000000 flapped.1 flapped.2 :=
    one_shot "ws://gw/ws" {} false flapping 6000000000 htimed
  have hopens : opensIn flapped.2 = [0, 1100000000, 3100000000] := by decide +kernel
  refine ⟨hopens, ?_, ?_, ?_, (h.returned (by decide +kernel)).1⟩
  · rw [h.starts 0 0 (by rw [hopens]; rfl), hopens]
    decide +kernel
  · rw [h.starts 1 1100000000 (by rw [hopens]; rfl), hopens]
    decide +kernel
  · rw [h.starts 2 3100000000 (by rw [hopens]; rfl), hopens]
    decide +kernel

end MeshConsole.Push
