import MeshConsole.Proofs.Push.Pulls

/-!
# What a run signals, and what it has running

No step of a run signals more than the loop can carry out in a few steps, and
none announces a device list or a job (`cost_step`, `step_ordinary`). The
pulls that run are those that have started and not returned: opening and
cancelling a connection leaves them alone (`runs_step`, `runs_due`,
`runs_returned`). Whoever adds up the numbers that a run has told to call off
knows which of its pulls are called off (`CalledOff.step`).
-/

namespace MeshConsole.Push

-- ---------------------------------------------------------------------------
-- Signals
-- ---------------------------------------------------------------------------

/-- The signal announces neither a device list nor a job. -/
def Signal.isOrdinary : Signal → Bool
  | .publish (.devices _) => false
  | .publish (.job _) => false
  | _ => true

/-- The steps that the loop makes on a signal at most. -/
def Signal.cost : Signal → Nat
  | .log _ => 1
  | .publish _ => 1
  | .deliver _ => 4
  | _ => 0

def cost : List Signal → Nat
  | [] => 0
  | signal :: rest => signal.cost + cost rest

@[simp] theorem cost_append (signals more : List Signal) :
    cost (signals ++ more) = cost signals + cost more := by
  induction signals with
  | nil => exact (Nat.zero_add _).symm
  | cons signal rest ih =>
    show signal.cost + cost (rest ++ more) = signal.cost + cost rest + cost more
    rw [ih, Nat.add_assoc]

theorem cost_eq_zero {signals : List Signal} (h : ∀ signal ∈ signals, signal.cost = 0) :
    cost signals = 0 := by
  induction signals with
  | nil => rfl
  | cons signal rest ih =>
    rw [cost, h signal List.mem_cons_self, ih fun s hs => h s (List.mem_cons_of_mem _ hs)]

theorem cost_callOff (r : Run) (picks : Nat → Bool) : cost (r.callOff picks).2 = 0 := by
  refine cost_eq_zero fun signal hs => ?_
  obtain ⟨p, -, rfl⟩ := List.mem_map.mp hs
  rfl

theorem cost_schedule (r : Run) (due : Instant) : cost (r.schedule due).2 = 0 := by
  have hcalled := cost_callOff r fun number => r.slot == some number
  simp only [Run.schedule, cost_append, hcalled]
  rfl

theorem cost_receive (l : Link) (handler : Handler) (frame : Text) :
    cost (l.receive handler frame).2 ≤ 7 := by
  have hversion (m : Message) : cost (Link.versionSignals m) ≤ 2 := by
    unfold Link.versionSignals
    split
    · exact Nat.zero_le 2
    · split
      · exact Nat.zero_le 2
      · exact Nat.le_refl 2
  have hdispatch (m : Message) : cost (Link.dispatchSignals handler m) ≤ 5 := by
    unfold Link.dispatchSignals
    split
    · exact Nat.le_of_ble_eq_true rfl
    · split
      · exact Nat.le_of_ble_eq_true rfl
      · split <;> exact Nat.le_of_ble_eq_true rfl
  rcases receive_cases l handler frame with
    ⟨why, -, hr⟩ | ⟨m, -, -, hr⟩ | ⟨m, seq, -, -, -, hr⟩ | ⟨m, seq, -, -, -, hr⟩ <;> rw [hr]
  · exact Nat.le_of_ble_eq_true rfl
  · rw [cost_append]
    exact Nat.add_le_add (hversion m) (hdispatch m)
  · exact Nat.le_of_ble_eq_true rfl
  · rw [cost_append]
    exact Nat.add_le_add (hversion m) (hdispatch m)

namespace Run

theorem cost_onCancelled (r : Run) : cost r.onCancelled.2 ≤ 1 := by
  have hcalled := cost_callOff { r with
    link := { r.link with state := .closed }, phase := .finished, slot := none } fun _ => true
  unfold onCancelled
  cases r.phase with
  | finished => exact Nat.zero_le 1
  | waiting delay => exact Nat.le_trans (Nat.le_of_eq hcalled) (Nat.zero_le 1)
  | dialing =>
    simp only [cost_append, hcalled]
    exact Nat.le_refl 1
  | reading =>
    show cost ([.closeSocket, .publish (.connection r.link.url false 0)] ++ _) ≤ 1
    rw [cost_append, hcalled]
    exact Nat.le_refl 1

theorem cost_step (r : Run) (now : Instant) (h : Happening) : cost (r.step now h).2 ≤ 7 := by
  cases step_cases r now h with
  | dialed hp hs =>
    rw [hs]
    by_cases hr : r.handler = .reconciling
    · rw [onDialed_reconciling hr, cost_append, cost_schedule]
      exact Nat.le_of_ble_eq_true rfl
    · rw [onDialed_plain hr]
      exact Nat.le_of_ble_eq_true rfl
  | dialFailed why hp hs | readFailed why hp hs =>
    rw [hs]
    exact Nat.le_of_ble_eq_true rfl
  | frame bytes hp hs =>
    rw [hs]
    exact cost_receive _ _ _
  | cancelled hs =>
    rw [hs]
    exact Nat.le_trans (cost_onCancelled r) (by decide)
  | pullDue number hs =>
    rw [hs]
    unfold onPullDue
    split <;> exact Nat.zero_le 7
  | waited _ _ hs | pullReturned _ hs | ignored _ _ hs =>
    rw [hs]
    exact Nat.zero_le 7

theorem ordinary_callOff (r : Run) (picks : Nat → Bool) :
    (r.callOff picks).2.all Signal.isOrdinary = true := by
  simp [callOff, Signal.isOrdinary]

/-- A link leaves it to the session to announce device lists and jobs. -/
theorem step_ordinary (r : Run) (now : Instant) (h : Happening) :
    (r.step now h).2.all Signal.isOrdinary = true := by
  cases step_cases r now h with
  | dialed hp hs =>
    rw [hs]
    by_cases hr : r.handler = .reconciling
    · have hcalled := ordinary_callOff r.linked fun number => r.linked.slot == some number
      rw [onDialed_reconciling hr]
      simp only [schedule, List.all_append, hcalled]
      rfl
    · rw [onDialed_plain hr]
      rfl
  | dialFailed why hp hs | readFailed why hp hs =>
    rw [hs]
    rfl
  | frame bytes hp hs =>
    rw [hs]
    refine List.all_eq_true.mpr fun s hm => ?_
    have hframe := List.all_eq_true.mp (receive_ofFrame r.link r.handler bytes) s hm
    cases s with
    | publish event =>
      cases event with
      | devices | job => cases hframe
      | _ => rfl
    | _ => rfl
  | cancelled hs =>
    have hcalled := ordinary_callOff { r with
      link := { r.link with state := .closed }, phase := .finished, slot := none } fun _ => true
    rw [hs, onCancelled]
    cases r.phase with
    | finished => rfl
    | waiting delay => exact hcalled
    | dialing | reading => simp [hcalled, Signal.isOrdinary]
  | pullDue number hs =>
    rw [hs]
    unfold onPullDue
    split <;> rfl
  | waited _ _ hs | pullReturned _ hs | ignored _ _ hs =>
    rw [hs]
    rfl

-- ---------------------------------------------------------------------------
-- Pulls that run
-- ---------------------------------------------------------------------------

/-- The pull with this number is under way. -/
def Runs (r : Run) (number : Nat) : Prop := ∃ p ∈ r.pulls, p.number = number ∧ p.due? = none

theorem runs_callOff (r : Run) (picks : Nat → Bool) :
    (r.callOff picks).1.Runs number ↔ r.Runs number := by
  constructor
  · rintro ⟨p, hp, rfl, hdue⟩
    obtain ⟨q, hq, hkeep⟩ := List.mem_filterMap.mp hp
    refine ⟨q, hq, ?_⟩
    cases hstage : q.stage with
    | due instant =>
      split at hkeep
      · simp [Pull.callOff, hstage] at hkeep
      · cases hkeep
        simp [Pull.due?, hstage] at hdue
    | running =>
      refine ⟨?_, by simp [Pull.due?, hstage]⟩
      split at hkeep
      · simp only [Pull.callOff, hstage] at hkeep
        cases hkeep
        rfl
      · cases hkeep
        rfl
  · rintro ⟨p, hp, rfl, hdue⟩
    have hstage : p.stage = .running := by
      cases hstage : p.stage with
      | due instant => simp [Pull.due?, hstage] at hdue
      | running => rfl
    by_cases hpick : picks p.number = true
    · refine ⟨{ p with calledOff := true }, List.mem_filterMap.mpr ⟨p, hp, ?_⟩, rfl, hdue⟩
      rw [if_pos hpick, Pull.callOff, hstage]
    · exact ⟨p, List.mem_filterMap.mpr ⟨p, hp, if_neg hpick⟩, rfl, hdue⟩

theorem runs_schedule (r : Run) (due : Instant) :
    (r.schedule due).1.Runs number ↔ r.Runs number := by
  rw [← runs_callOff r fun number => r.slot == some number]
  constructor
  · rintro ⟨p, hp, hnumber, hdue⟩
    rcases List.mem_append.mp hp with hp | hp
    · exact ⟨p, hp, hnumber, hdue⟩
    · cases List.mem_singleton.mp hp
      cases hdue
  · rintro ⟨p, hp, hrest⟩
    exact ⟨p, List.mem_append_left _ hp, hrest⟩

/-- What runs is changed by pulls that start or return, and by nothing else. -/
theorem runs_step (r : Run) (now : Instant) {h : Happening} (hdue : ∀ n, h ≠ .pullDue n)
    (hreturned : ∀ n, h ≠ .pullReturned n) :
    (r.step now h).1.Runs number ↔ r.Runs number := by
  cases step_cases r now h with
  | dialed hp hs =>
    rw [hs]
    by_cases hr : r.handler = .reconciling
    · rw [onDialed_reconciling hr]
      exact runs_schedule r.linked _
    · rw [onDialed_plain hr]
      exact Iff.rfl
  | cancelled hs =>
    rw [hs, onCancelled]
    cases r.phase with
    | finished => exact Iff.rfl
    | dialing | reading | waiting => exact runs_callOff { r with
        link := { r.link with state := .closed }, phase := .finished, slot := none } fun _ => true
  | dialFailed _ _ hs | frame _ _ hs | readFailed _ _ hs | waited _ _ hs | ignored _ _ hs =>
    exact hs ▸ Iff.rfl
  | pullDue number => exact absurd rfl (hdue number)
  | pullReturned number => exact absurd rfl (hreturned number)

theorem runs_due {r : Run} (hw : (instant, started) ∈ r.waits) (now : Instant) :
    (r.step now (.pullDue started)).1.Runs number ↔ r.Runs number ∨ number = started := by
  have hstep : r.step now (.pullDue started) = r.onPullDue started := by simp [step]
  rw [hstep, onPullDue_waiting hw]
  constructor
  · rintro ⟨p, hp, rfl, hdue⟩
    obtain ⟨q, hq, rfl⟩ := List.mem_map.mp hp
    by_cases hn : q.number = started
    · simp [hn]
    · rw [if_neg hn] at hdue ⊢
      exact .inl ⟨q, hq, rfl, hdue⟩
  · rintro (⟨p, hp, rfl, hdue⟩ | rfl)
    · refine ⟨_, List.mem_map.mpr ⟨p, hp, rfl⟩, ?_⟩
      split
      · exact ⟨rfl, rfl⟩
      · exact ⟨rfl, hdue⟩
    · obtain ⟨p, hp, -, rfl⟩ := mem_waits.mp hw
      exact ⟨_, List.mem_map.mpr ⟨p, hp, rfl⟩, by simp [Pull.due?]⟩

theorem runs_returned (r : Run) (now : Instant) (returned : Nat) :
    (r.step now (.pullReturned returned)).1.Runs number ↔ r.Runs number ∧ number ≠ returned := by
  have hstep : r.step now (.pullReturned returned) = (r.onPullReturned returned, []) := by
    simp [step]
  rw [hstep]
  constructor
  · rintro ⟨p, hp, rfl, hdue⟩
    obtain ⟨hmem, hkept⟩ := List.mem_filter.mp hp
    exact ⟨⟨p, hmem, rfl, hdue⟩, by simpa [hdue] using hkept⟩
  · rintro ⟨⟨p, hp, rfl, hdue⟩, hne⟩
    exact ⟨p, List.mem_filter.mpr ⟨hp, by simp [hne]⟩, rfl, hdue⟩

/-- A number waits or runs, not both. -/
theorem Sound.not_runs {r : Run} (hs : r.Sound) (hw : (instant, number) ∈ r.waits) :
    ¬ r.Runs number := by
  rintro ⟨p, hp, rfl, hdue⟩
  obtain ⟨q, hq, hqdue, hnumber⟩ := mem_waits.mp hw
  obtain ⟨i, hi, rfl⟩ := List.getElem_of_mem hp
  obtain ⟨j, hj, rfl⟩ := List.getElem_of_mem hq
  have hordered := List.pairwise_iff_getElem.mp hs.ordered
  rcases Nat.lt_trichotomy i j with hlt | heq | hgt
  · exact absurd hnumber (Nat.ne_of_gt (hordered i j hi hj hlt))
  · subst heq
    rw [hqdue] at hdue
    cases hdue
  · exact absurd hnumber (Nat.ne_of_lt (hordered j i hj hi hgt))

-- ---------------------------------------------------------------------------
-- Pulls that are called off
-- ---------------------------------------------------------------------------

/-- Of the pulls of a run, those with a number in `C` are called off. -/
structure CalledOff (r : Run) (C : Nat → Prop) : Prop where
  off : ∀ p ∈ r.pulls, p.calledOff = true ↔ C p.number
  fresh : ∀ n, r.scheduled ≤ n → ¬ C n

theorem mem_calls {r : Run} : .unschedule n ∈ (r.callOff picks).2 ↔
    ∃ p ∈ r.pulls, p.number = n ∧ picks n = true ∧ p.calledOff = false := by
  simp only [callOff, List.mem_map, List.mem_filter, Bool.and_eq_true, Bool.not_eq_true',
    Signal.unschedule.injEq]
  constructor
  · rintro ⟨p, ⟨hp, hpick, hoff⟩, rfl⟩
    exact ⟨p, hp, rfl, hpick, hoff⟩
  · rintro ⟨p, hp, rfl, hpick, hoff⟩
    exact ⟨p, ⟨hp, hpick, hoff⟩, rfl⟩

section
variable {r next : Run} {C : Nat → Prop} {signals : List Signal}

theorem CalledOff.congr {D : Nat → Prop} (hc : r.CalledOff C) (h : ∀ n, C n ↔ D n) :
    r.CalledOff D where
  off p hp := (hc.off p hp).trans (h p.number)
  fresh n hn hd := hc.fresh n hn ((h n).mpr hd)

/-- Nothing is called off. -/
theorem CalledOff.of_quiet (hc : r.CalledOff C)
    (hpulls : ∀ p ∈ next.pulls, ∃ q ∈ r.pulls, p.number = q.number ∧ p.calledOff = q.calledOff)
    (hscheduled : next.scheduled = r.scheduled) (hsignals : ∀ n, .unschedule n ∉ signals) :
    next.CalledOff fun n => C n ∨ .unschedule n ∈ signals := by
  refine ⟨fun p hp => ?_, fun n hn => ?_⟩
  · obtain ⟨q, hq, hnumber, hoff⟩ := hpulls p hp
    rw [hnumber, hoff, hc.off q hq]
    exact (or_iff_left (hsignals q.number)).symm
  · rw [or_iff_left (hsignals n)]
    exact hc.fresh n (hscheduled ▸ hn)

theorem CalledOff.callOff (hc : r.CalledOff C) (hbelow : ∀ p ∈ r.pulls, p.number < r.scheduled)
    (picks : Nat → Bool) :
    (r.callOff picks).1.CalledOff fun n => C n ∨ .unschedule n ∈ (r.callOff picks).2 := by
  refine ⟨fun p hp => ?_, fun n hn => ?_⟩
  · obtain ⟨q, hq, hnumber, ⟨hpick, hoff, -⟩ | ⟨hpick, rfl⟩⟩ := mem_callOff hp
    · rw [hoff, hnumber]
      refine iff_of_true rfl ?_
      cases hbefore : q.calledOff with
      | true => exact .inl ((hc.off q hq).mp hbefore)
      | false => exact .inr (mem_calls.mpr ⟨q, hq, rfl, hpick, hbefore⟩)
    · rw [hc.off p hq, mem_calls, hpick]
      simp
  · rintro (hn' | hn')
    · exact hc.fresh n hn hn'
    · obtain ⟨p, hp, rfl, -⟩ := mem_calls.mp hn'
      exact absurd (hbelow p hp) (Nat.not_lt.mpr hn)

theorem CalledOff.schedule (hc : r.CalledOff C) (hbelow : ∀ p ∈ r.pulls, p.number < r.scheduled)
    (due : Instant) :
    (r.schedule due).1.CalledOff fun n => C n ∨ .unschedule n ∈ (r.schedule due).2 := by
  have hcalled := hc.callOff hbelow fun number => r.slot == some number
  have hmem (n : Nat) : .unschedule n ∈ (r.schedule due).2 ↔
      .unschedule n ∈ (r.callOff fun number => r.slot == some number).2 := by
    simp [Run.schedule]
  simp only [hmem]
  refine ⟨fun p hp => ?_, fun n hn => hcalled.fresh n (Nat.le_of_succ_le hn)⟩
  rcases List.mem_append.mp hp with hp | hp
  · exact hcalled.off p hp
  · -- The pull that has come is not called off yet.
    rw [List.mem_singleton.mp hp]
    exact iff_of_false nofun (hcalled.fresh r.scheduled (Nat.le_refl _))

theorem CalledOff.step (hs : r.Sound) (hc : r.CalledOff C) (now : Instant) (h : Happening) :
    (r.step now h).1.CalledOff fun n => C n ∨ .unschedule n ∈ (r.step now h).2 := by
  have hsame : ∀ p ∈ r.pulls, ∃ q ∈ r.pulls, p.number = q.number ∧ p.calledOff = q.calledOff :=
    fun p hp => ⟨p, hp, rfl, rfl⟩
  cases step_cases r now h with
  | dialed hp hstep =>
    rw [hstep]
    by_cases hr : r.handler = .reconciling
    · have hscheduled := CalledOff.schedule (r := r.linked) ⟨hc.off, hc.fresh⟩ hs.below
        (now.plus r.link.timing.reconcile)
      rw [onDialed_reconciling hr]
      simpa [Link.opened] using hscheduled
    · rw [onDialed_plain hr]
      exact hc.of_quiet hsame rfl (by simp [Link.opened])
  | dialFailed why hp hstep =>
    rw [hstep]
    exact hc.of_quiet hsame rfl (by simp [onFailed, Link.failed])
  | frame bytes hp hstep =>
    rw [hstep]
    refine hc.of_quiet hsame rfl fun n hn => ?_
    have hframe := List.all_eq_true.mp (receive_ofFrame r.link r.handler bytes) _ hn
    cases hframe
  | readFailed why hp hstep =>
    rw [hstep]
    exact hc.of_quiet hsame rfl (by simp [onFailed, Link.failed])
  | waited delay hp hstep =>
    rw [hstep]
    exact hc.of_quiet hsame rfl (by simp)
  | cancelled hstep =>
    rw [hstep]
    by_cases hfinished : r.phase = .finished
    · have hstill : r.onCancelled = (r, []) := by simp [onCancelled, hfinished]
      rw [hstill]
      exact hc.of_quiet hsame rfl (by simp)
    · have hcalled := CalledOff.callOff (r := r.hungUp) ⟨hc.off, hc.fresh⟩ hs.below fun _ => true
      have hmem (n : Nat) : .unschedule n ∈ r.onCancelled.2 ↔
          .unschedule n ∈ (r.hungUp.callOff fun _ => true).2 := by
        unfold onCancelled
        cases hphase : r.phase with
        | finished => exact absurd hphase hfinished
        | dialing | reading | waiting => simp [hungUp]
      simp only [hmem, onCancelled_going hfinished]
      exact hcalled
  | pullDue number hstep =>
    rw [hstep, onPullDue]
    split
    · refine hc.of_quiet (fun p hp => ?_) rfl (by simp)
      obtain ⟨q, hq, rfl⟩ := List.mem_map.mp hp
      refine ⟨q, hq, ?_⟩
      split <;> exact ⟨rfl, rfl⟩
    · exact hc.of_quiet hsame rfl (by simp)
  | pullReturned number hstep =>
    rw [hstep]
    exact hc.of_quiet (fun p hp => hsame p (List.mem_filter.mp hp).1) rfl (by simp)
  | ignored hcancelled hawaits hstep =>
    rw [hstep]
    exact hc.of_quiet hsame rfl (by simp)

end

end Run

end MeshConsole.Push
