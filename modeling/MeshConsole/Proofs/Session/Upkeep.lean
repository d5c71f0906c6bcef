import MeshConsole.Proofs.Push.Signals
import MeshConsole.Proofs.Session.Conduct
import MeshConsole.Proofs.Session.Lifetime

/-!
# What a session keeps up

`Live.Sound` holds of a session at any time, whatever its threads and its
callers do: the link is in order, every thread conducts itself and has
returned only with its work done, the pulls that run are those that a thread
carries out, and the link has a loop until it has returned.

Of what threads hold while they work, a list or a place at a desk, only the
steps of the thread itself tell (`step_shifts`).
-/

namespace MeshConsole.Session

-- ---------------------------------------------------------------------------
-- Work
-- ---------------------------------------------------------------------------

/-- The steps of a job that are left at most when it is not waited for. -/
def stepsLeft : Job.Phase → Nat
  | .submitting => 4
  | .polling _ => 3
  | .waiting _ => 2
  | .ended _ => 1

/-- The rest of the work is done within `n` steps, where `weight` is left. -/
def Work.Conducts (weight : α → Nat) (n : Nat) : Work α → Prop
  | .acting rest => ∃ owed, Conduct weight owed n rest
  | .waiting (.finished value) => weight value ≤ n
  | .waiting (.calling _ next) => ∃ m < n, ∀ answer, Conduct weight none m (next answer)
  | .waiting (.job _ run next) =>
    ∃ m, m + stepsLeft run.phase ≤ n ∧ ∀ result, Conduct weight none m (next result)

theorem acting_conducts {weight : α → Nat} (h : Acting now cancelled s w b)
    (hw : w.Conducts weight n) :
    (∃ m < n, b.work.Conducts weight m) ∧ b.state.run = s.run := by
  cases h with
  | done value =>
    obtain ⟨_, hconduct⟩ := hw
    cases hconduct with
    | done hvalue => exact ⟨⟨_, hvalue, Nat.le_refl _⟩, rfl⟩
  | note entry next =>
    obtain ⟨_, hconduct⟩ := hw
    cases hconduct with
    | note _ hnext | tells hnext => exact ⟨⟨_, Nat.lt_succ_self _, _, hnext⟩, rfl⟩
  | store change next =>
    obtain ⟨_, hconduct⟩ := hw
    cases hconduct with
    | keeps hkeep hnext | writes hkeep hnext =>
      exact ⟨⟨_, Nat.lt_succ_self _, _, hnext⟩, (hkeep s).1.run⟩
  | look next =>
    obtain ⟨_, hconduct⟩ := hw
    cases hconduct with
    | look hnext => exact ⟨⟨_, Nat.lt_succ_self _, _, hnext _⟩, rfl⟩
  | call question next =>
    obtain ⟨_, hconduct⟩ := hw
    cases hconduct with
    | call hnext => exact ⟨⟨_, Nat.lt_succ_self _, _, Nat.lt_succ_self _, hnext⟩, rfl⟩
  | refused order next hactive =>
    obtain ⟨_, hconduct⟩ := hw
    cases hconduct with
    | job hnext => exact ⟨⟨_, Nat.lt_add_of_pos_right (by decide), _, hnext _⟩, rfl⟩
  | enters order next hactive =>
    obtain ⟨_, hconduct⟩ := hw
    cases hconduct with
    | job hnext => exact ⟨⟨_, Nat.lt_succ_self _, _, Nat.le_refl _, hnext⟩, rfl⟩
  | leaves order run next hphase =>
    obtain ⟨m, hle, hnext⟩ := hw
    rw [hphase] at hle
    exact ⟨⟨m, hle, none, hnext _⟩, rfl⟩

theorem onSubmitted_left (run : Job.Run) (now : Instant) (answer : Except Fault JobReceipt) :
    stepsLeft (run.onSubmitted now answer).1.phase ≤ 3 := by
  unfold Job.Run.onSubmitted
  cases answer with
  | error why => exact Nat.le_of_ble_eq_true rfl
  | ok receipt =>
    simp only
    split <;> exact Nat.le_of_ble_eq_true rfl

theorem onPolled_left (run : Job.Run) (now : Instant) (cancelled : Bool) (job : Job.Progress)
    (answer : Except Fault JobReport) :
    stepsLeft (run.onPolled now cancelled job answer).1.phase ≤ 2 := by
  unfold Job.Run.onPolled
  cases answer with
  | error why => exact Nat.le_of_ble_eq_true rfl
  | ok report =>
    simp only
    split
    · exact Nat.le_of_ble_eq_true rfl
    · split
      · exact Nat.le_of_ble_eq_true rfl
      · split <;> exact Nat.le_of_ble_eq_true rfl

/-- An answer leads a job on, except that a wait that is over by itself leads
back to the next poll. -/
theorem stepsLeft_step {order : Order} {run : Job.Run} {next : Except Fault Text → Activity α}
    (now : Instant) (cancelled : Bool) (hfits : (Task.job order run next).need.fits a = true) :
    stepsLeft (run.step now cancelled (Task.happening run a)).1.phase < stepsLeft run.phase ∨
      a = .waited ∧ stepsLeft (run.step now cancelled (Task.happening run a)).1.phase =
        stepsLeft run.phase + 1 := by
  cases hphase : run.phase with
  | submitting =>
    cases a with
    | exchanged outcome =>
      simp only [Task.happening, hphase, Job.Run.step]
      exact .inl (Nat.lt_succ_of_le (onSubmitted_left _ _ _))
    | waited | interrupted => simp [Task.need, Job.Run.need, hphase, Need.fits] at hfits
  | polling job =>
    cases a with
    | exchanged outcome =>
      simp only [Task.happening, hphase, Job.Run.step]
      exact .inl (Nat.lt_succ_of_le (onPolled_left _ _ _ _ _))
    | waited | interrupted => simp [Task.need, Job.Run.need, hphase, Need.fits] at hfits
  | waiting job =>
    cases a with
    | exchanged outcome => simp [Task.need, Job.Run.need, hphase, Need.fits] at hfits
    | waited =>
      simp only [Task.happening, Job.Run.step, hphase]
      exact .inr ⟨trivial, rfl⟩
    | interrupted =>
      simp only [Task.happening, Job.Run.step, hphase]
      exact .inl (Nat.le_refl 2)
  | ended result => cases a <;> simp [Task.need, Job.Run.need, hphase, Need.fits] at hfits

theorem answering_conducts {weight : α → Nat} (h : Answering now cancelled s w a b)
    (hw : w.Conducts weight n) :
    ((∃ m < n, b.work.Conducts weight m) ∨ a = .waited ∧ b.work.Conducts weight (n + 1)) ∧
      b.state = s := by
  refine ⟨?_, by cases h <;> rfl⟩
  cases h with
  | called call next outcome =>
    obtain ⟨m, hlt, hnext⟩ := hw
    exact .inl ⟨m, hlt, none, hnext _⟩
  | heard order run next a hfits hstep =>
    obtain ⟨m, hle, hnext⟩ := hw
    have hleft := stepsLeft_step now cancelled hfits
    simp only [hstep] at hleft
    rcases hleft with hlt | ⟨rfl, heq⟩
    · exact .inl ⟨_, Nat.lt_of_lt_of_le (Nat.add_lt_add_left hlt m) hle, m, Nat.le_refl _, hnext⟩
    · refine .inr ⟨rfl, m, ?_, hnext⟩
      omega

-- ---------------------------------------------------------------------------
-- What threads set out to do
-- ---------------------------------------------------------------------------

theorem conduct_quietly {weight : Bool → Nat} (h : Conduct (fun _ => k) owed n a)
    (hk : weight false ≤ k) : Conduct weight owed n (quietly a) :=
  h.bind fun _ => .done (Nat.lt_succ_of_le hk)

theorem conduct_carry {signal : Push.Signal} (h : signal.isOrdinary = true) :
    Conduct (fun _ => k) none (k + 1 + signal.cost) (carry signal) := by
  cases signal with
  | log line => exact .note rfl (.done (Nat.lt_succ_self k))
  | publish event =>
    refine .note ?_ (.done (Nat.lt_succ_self k))
    cases event with
    | devices | job => cases h
    | _ => rfl
  | deliver payload => exact conduct_payload payload
  | closeSocket | schedule | reconcile | unschedule => exact .done (Nat.lt_succ_self k)

theorem conduct_carryAll {weight : Bool → Nat} {signals : List Push.Signal}
    (h : signals.all Push.Signal.isOrdinary = true) :
    Conduct weight none (weight false + 1 + Push.cost signals) (carryAll signals) := by
  induction signals with
  | nil => exact .done (Nat.lt_succ_self _)
  | cons signal rest ih =>
    rw [List.all_cons, Bool.and_eq_true] at h
    have hcarry := conduct_carry (k := weight false + Push.cost rest) h.1
    have hall : Conduct weight none _ (carryAll (signal :: rest)) :=
      hcarry.bind fun _ => (ih h.2).mono (by omega)
    refine hall.mono ?_
    rw [Push.cost]
    omega

theorem conduct_errand (errand : Errand) :
    Conduct (fun _ => k) none (k + 30) errand.activity := by
  cases errand with
  | reconcile => exact conduct_reconcile
  | refreshStatus =>
    exact ((conduct_refreshStatus (k := k)).bind fun _ => .done (by omega)).mono (by omega)
  | delete addr =>
    exact ((conduct_deleteDevice (k := k) addr).bind fun _ => .done (by omega)).mono (by omega)
  | rename addr name =>
    exact ((conduct_renameDevice (k := k) addr name).bind fun _ => .done (by omega)).mono (by omega)

theorem conduct_commission (c : Commission) : Conduct (fun _ => k) none (k + 30) c.activity := by
  cases c with
  | submit order =>
    exact (conduct_quietly (conduct_submit order) (Nat.le_refl k)).mono (by omega)
  | errand errand => exact conduct_quietly (conduct_errand errand) (Nat.le_refl k)
  | permitJoin => exact (conduct_quietly conduct_permitJoin (Nat.le_refl k)).mono (by omega)
  | control command =>
    exact (conduct_quietly (conduct_control command) (Nat.le_refl k)).mono (by omega)
  | saveWifi credentials =>
    exact (conduct_quietly (conduct_saveWifi credentials) (Nat.le_refl k)).mono (by omega)
  | take payload =>
    exact (conduct_quietly (conduct_payload payload) (Nat.le_refl k)).mono (by omega)

-- ---------------------------------------------------------------------------
-- Threads
-- ---------------------------------------------------------------------------

/-- What is left of the work of a thread when it has nothing to do. A tick
that asks for a refresh leaves the refresh to be done. -/
def Owner.weight : Owner → Bool → Nat
  | .ticker, true => 17
  | _, _ => 1

theorem Owner.weight_false (owner : Owner) : owner.weight false = 1 := by cases owner <;> rfl

structure Thread.Sound (t : Thread) : Prop where
  conducts : ∃ n, t.work.Conducts t.owner.weight n
  left : t.left = true → t.work.outcome? ≠ none

theorem Acting.outcome? (h : Acting now cancelled s w b) : w.outcome? = none := by
  cases h <;> rfl

theorem Answering.outcome? (h : Answering now cancelled s w a b) : w.outcome? = none := by
  cases h <;> rfl

theorem sound_resting (owner : Owner) : (Thread.resting owner).Sound :=
  ⟨⟨1, Nat.le_of_eq owner.weight_false⟩, nofun⟩

theorem sound_spawned {a : Activity Bool} (h : Conduct owner.weight none n a) :
    Thread.Sound { owner, work := .acting a } := ⟨⟨n, none, h⟩, nofun⟩

theorem conduct_pull (number : Nat) :
    Conduct (Owner.pull number).weight none 31 (quietly reconcile) :=
  conduct_quietly (conduct_reconcile (k := 1)) (Nat.le_refl 1)

theorem conduct_refresh : Conduct Owner.refresh.weight none 15 (quietly autoRefresh) :=
  conduct_quietly (conduct_autoRefresh (k := 1)) (Nat.le_refl 1)

theorem conduct_ticker : Conduct Owner.ticker.weight none 21 tick :=
  conduct_tick (k := 17) fun value => by cases value <;> decide

theorem conduct_caller (c : Commission) : Conduct Owner.caller.weight none 31 c.activity := by
  have hweight : Owner.caller.weight = fun _ => 1 := by
    funext value
    cases value <;> rfl
  rw [hweight]
  exact conduct_commission c

theorem conduct_loop (r : Push.Run) (now : Instant) (h : Push.Happening) :
    Conduct Owner.loop.weight none (2 + Push.cost (r.step now h).2)
      (carryAll (r.step now h).2) :=
  conduct_carryAll (r.step_ordinary now h)

namespace Live

/-- Thread `i` carries out the pull with this number. -/
def Pulls (l : Live) (i number : Nat) : Prop :=
  ∃ t, l.threads[i]? = some t ∧ t.owner = .pull number ∧ t.left = false

theorem pulls_set {l m : Live} (hi : l.threads[i]? = some t)
    (hthreads : m.threads = l.threads.set i u) (howner : u.owner = t.owner)
    (hleft : u.left = t.left) : m.Pulls j number ↔ l.Pulls j number := by
  have hlt := (List.getElem?_eq_some_iff.mp hi).1
  unfold Pulls
  rw [hthreads]
  by_cases hji : j = i
  · subst hji
    rw [List.getElem?_set_self hlt, hi]
    simp [howner, hleft]
  · simp [Ne.symm hji]

theorem pulls_append {l m : Live} (hthreads : m.threads = l.threads ++ more)
    (hmore : ∀ t ∈ more, ∀ n, t.owner ≠ .pull n) : m.Pulls j number ↔ l.Pulls j number := by
  unfold Pulls
  rw [hthreads]
  constructor
  · rintro ⟨t, ht, howner, hleft⟩
    rw [List.getElem?_append] at ht
    split at ht
    · exact ⟨t, ht, howner, hleft⟩
    · exact absurd howner (hmore t (List.mem_of_getElem? ht) number)
  · rintro ⟨t, ht, hrest⟩
    exact ⟨t, by rw [List.getElem?_append_left (List.getElem?_eq_some_iff.mp ht).1, ht], hrest⟩

theorem pulls_spawn {l : Live} {a : Activity Bool} :
    (l.spawn (.pull n) a).Pulls j number ↔
      l.Pulls j number ∨ j = l.threads.length ∧ number = n := by
  unfold Pulls spawn
  rcases Nat.lt_trichotomy j l.threads.length with hlt | heq | hgt
  · simp [List.getElem?_append_left hlt, Nat.ne_of_lt hlt]
  · subst heq
    simp only [List.getElem?_concat_length, Option.some.injEq, exists_eq_left', Owner.pull.injEq,
      List.getElem?_length, reduceCtorEq, false_and, exists_false, false_or, true_and, and_true]
    exact eq_comm
  · simp [List.getElem?_append_right (Nat.le_of_lt hgt), Nat.le_of_lt hgt, Nat.ne_of_gt hgt,
      Nat.sub_ne_zero_of_lt hgt]

theorem pulls_gone {l m : Live} (hi : l.threads[i]? = some t)
    (hthreads : m.threads = l.threads.set i { t with left := true }) :
    m.Pulls j number ↔ j ≠ i ∧ l.Pulls j number := by
  have hlt := (List.getElem?_eq_some_iff.mp hi).1
  unfold Pulls
  rw [hthreads]
  by_cases hji : j = i
  · subst hji
    simp [hlt]
  · simp [hji, Ne.symm hji]

-- ---------------------------------------------------------------------------
-- A session
-- ---------------------------------------------------------------------------

structure Sound (l : Live) : Prop where
  ready : ∃ delay, Push.Run.Ready delay l.session.run
  settles : l.session.run.Settles
  matched : l.session.run.Matched
  threads : ∀ t ∈ l.threads, t.Sound
  /-- The pulls that run are those that threads carry out. -/
  pulls : ∀ number, (∃ i, l.Pulls i number) ↔ l.session.run.Runs number
  single : ∀ i j number, l.Pulls i number → l.Pulls j number → i = j
  idle : l.started = false → l.session.run.hasReturned = true
  /-- The link has a loop until it has returned. -/
  looping : l.started = true →
    (∃ t ∈ l.threads, t.owner = .loop ∧ t.left = false) ∨ l.session.run.hasReturned = true
  closing : l.closing = true → l.cancelled = true ∧ l.started = true

theorem sound_of (client : Rest.Client) (url : Text) (settings : Settings) :
    (of client url settings).Sound where
  ready := ⟨_, ⟨nofun, .nil, nofun, nofun⟩, rfl, rfl⟩
  settles _ := ⟨rfl, nofun⟩
  matched := rfl
  threads := nofun
  pulls number := ⟨fun ⟨_, _, h, _⟩ => by simp [of] at h, nofun⟩
  single _ _ _ h := by obtain ⟨_, h, _⟩ := h; simp [of] at h
  idle _ := rfl
  looping := nofun
  closing := nofun

/-- A step that leaves the link alone. -/
theorem Sound.of_threads {l next : Live} (hs : l.Sound)
    (hrun : next.session.run = l.session.run) (hstarted : next.started = l.started)
    (hclosing : next.closing = true → next.cancelled = true ∧ next.started = true)
    (hthreads : ∀ t ∈ next.threads, t.Sound)
    (hpulls : ∀ i number, next.Pulls i number ↔ l.Pulls i number)
    (hlooping : (∃ t ∈ l.threads, t.owner = .loop ∧ t.left = false) →
      (∃ t ∈ next.threads, t.owner = .loop ∧ t.left = false) ∨
        next.session.run.hasReturned = true) :
    next.Sound where
  ready := hrun ▸ hs.ready
  settles := hrun ▸ hs.settles
  matched := hrun ▸ hs.matched
  threads := hthreads
  pulls number := by
    simp only [hpulls, hrun]
    exact hs.pulls number
  single i j number hi hj :=
    hs.single i j number ((hpulls i number).mp hi) ((hpulls j number).mp hj)
  idle h := hrun ▸ hs.idle (hstarted ▸ h)
  looping h := by
    rcases hs.looping (hstarted ▸ h) with hloop | hreturned
    · exact hlooping hloop
    · exact .inr (hrun ▸ hreturned)
  closing := hclosing

theorem mem_put {l : Live} {u : Thread} (h : u ∈ (l.put i t).threads) : u ∈ l.threads ∨ u = t :=
  List.mem_or_eq_of_mem_set h

theorem mem_spawn {l : Live} {u : Thread} (h : u ∈ (l.spawn owner a).threads) :
    u ∈ l.threads ∨ u = { owner, work := .acting a } := by
  rcases List.mem_append.mp h with h | h
  · exact .inl h
  · exact .inr (List.mem_singleton.mp h)

/-- A loop that is there stays there when its thread is changed and does not
leave. -/
theorem loop_set {threads : List Thread} (hi : threads[i]? = some t)
    (hloop : ∃ v ∈ threads, v.owner = .loop ∧ v.left = false)
    (hkeep : t.owner = .loop → t.left = false → u.owner = .loop ∧ u.left = false) :
    ∃ v ∈ threads.set i u, v.owner = .loop ∧ v.left = false := by
  obtain ⟨v, hv, howner, hleft⟩ := hloop
  obtain ⟨j, hj, rfl⟩ := List.getElem_of_mem hv
  have hlt := (List.getElem?_eq_some_iff.mp hi).1
  by_cases hji : j = i
  · subst hji
    have ht : threads[j] = t := (List.getElem?_eq_some_iff.mp hi).2
    exact ⟨u, List.mem_set hlt _, hkeep (ht ▸ howner) (ht ▸ hleft)⟩
  · refine ⟨_, ?_, howner, hleft⟩
    exact List.mem_iff_getElem.mpr ⟨j, by simpa using hj, by simp [Ne.symm hji]⟩

theorem ready_step {r : Push.Run} (hr : Push.Run.Ready delay r) (now : Instant)
    (h : Push.Happening) (hdue : ∀ n, h = .pullDue n → ∃ instant, (instant, n) ∈ r.waits) :
    Push.Run.Ready delay (r.step now h).1 := by
  by_cases hpull : ∃ n, h = .pullDue n
  · obtain ⟨n, rfl⟩ := hpull
    obtain ⟨instant, hw⟩ := hdue n rfl
    exact (Push.Run.step_start hr hw now).1
  · exact (Push.Run.step_pulls hr now h fun n hn => hpull ⟨n, hn⟩).1

theorem heard?_outside {happening heard : Push.Happening} {c : Bool}
    (h : heard? c happening = some heard) :
    (∀ n, heard ≠ .pullDue n) ∧ ∀ n, heard ≠ .pullReturned n := by
  cases happening with
  | dialed | frame =>
    cases h
    exact ⟨nofun, nofun⟩
  | dialFailed | readFailed | waited | cancelled =>
    cases c <;> cases h <;> exact ⟨nofun, nofun⟩
  | pullDue | pullReturned => cases h

/-- One thread has changed, and has not come or left. -/
theorem Sound.put {l m : Live} (hs : l.Sound) (hi : l.threads[i]? = some t)
    (hthreads : m.threads = l.threads.set i u) (howner : u.owner = t.owner)
    (hleft : u.left = t.left) (hu : u.Sound) (hrun : m.session.run = l.session.run)
    (hstarted : m.started = l.started) (hclosing : m.closing = l.closing)
    (hcancelled : m.cancelled = l.cancelled) : m.Sound := by
  refine hs.of_threads hrun hstarted ?_ ?_ (fun j number => pulls_set hi hthreads howner hleft) ?_
  · rw [hclosing, hcancelled, hstarted]
    exact hs.closing
  · intro v hv
    rw [hthreads] at hv
    rcases List.mem_or_eq_of_mem_set hv with hv | rfl
    · exact hs.threads v hv
    · exact hu
  · intro hloop
    rw [hthreads]
    refine .inl (loop_set hi hloop fun hloops hstays => ?_)
    exact ⟨howner.trans hloops, hleft.trans hstays⟩

theorem Sound.spawn {l : Live} (hs : l.Sound) (howner : ∀ n, owner ≠ .pull n)
    (ha : Conduct owner.weight none n a) : (l.spawn owner a).Sound := by
  refine hs.of_threads rfl rfl hs.closing ?_ (fun i number => pulls_append rfl ?_) ?_
  · intro t ht
    rcases mem_spawn ht with ht | rfl
    · exact hs.threads t ht
    · exact sound_spawned ha
  · intro t ht
    rw [List.mem_singleton.mp ht]
    exact howner
  · rintro ⟨t, ht, hloop⟩
    exact .inl ⟨t, List.mem_append_left _ ht, hloop⟩

theorem sound_start {l : Live} (hs : l.Sound) (hstarted : l.started = false) (cancelled : Bool) :
    Sound { l with
      session := { l.session with
        run := .start l.session.run.link l.session.run.handler cancelled }
      started := true
      cancelled
      threads := l.threads ++ [.resting .loop, .resting .ticker] } := by
  obtain ⟨delay, hready⟩ := hs.ready
  have hnone : ∀ i number, ¬ l.Pulls i number := by
    intro i number hi
    obtain ⟨p, hp, -⟩ := (hs.pulls number).mp ⟨i, hi⟩
    rw [(Push.Run.hasReturned_iff.mp (hs.idle hstarted)).2] at hp
    cases hp
  have hpulls : ∀ i number, ¬ Pulls { l with
      session := { l.session with
        run := .start l.session.run.link l.session.run.handler cancelled }
      started := true
      cancelled
      threads := l.threads ++ [.resting .loop, .resting .ticker] } i number := by
    intro i number hi
    refine hnone i number ((pulls_append rfl ?_).mp hi)
    simp [Thread.resting]
  have hrun : (Push.Run.start l.session.run.link l.session.run.handler cancelled).pulls = [] := by
    cases cancelled <;> rfl
  refine ⟨⟨delay, ?_⟩, Push.Run.settles_start _ _ _, ?_, ?_, ?_, ?_, nofun, ?_, ?_⟩
  · cases cancelled <;> exact ⟨⟨nofun, .nil, nofun, nofun⟩, hready.handler, hready.timing⟩
  · cases cancelled <;> rfl
  · intro t ht
    rcases List.mem_append.mp ht with ht | ht
    · exact hs.threads t ht
    · rcases List.mem_pair.mp ht with rfl | rfl
      · exact sound_resting .loop
      · exact sound_resting .ticker
  · intro number
    refine ⟨fun ⟨i, hi⟩ => absurd hi (hpulls i number), fun ⟨p, hp, _⟩ => ?_⟩
    rw [hrun] at hp
    cases hp
  · exact fun i j number hi => absurd hi (hpulls i number)
  · exact fun _ => .inl ⟨.resting .loop, by simp, rfl, rfl⟩
  · intro hclosing
    rw [(hs.closing hclosing).2] at hstarted
    cases hstarted

theorem sound_hear {l : Live} (hs : l.Sound) (hi : l.threads[i]? = some t)
    (howner : t.owner = .loop) (hleft : t.left = false) (hphase : l.session.run.phase ≠ .finished)
    (hh : heard? l.cancelled h = some h') (now : Instant) :
    Sound ((l.withRun (l.session.run.step now h').1).put i
      { t with work := .acting (carryAll (l.session.run.step now h').2) }) := by
  obtain ⟨hdue, hreturned⟩ := heard?_outside hh
  obtain ⟨delay, hready⟩ := hs.ready
  have hpulls : ∀ j number, Pulls ((l.withRun (l.session.run.step now h').1).put i
      { t with work := .acting (carryAll (l.session.run.step now h').2) }) j number ↔
      l.Pulls j number := fun j number => pulls_set hi rfl rfl rfl
  have hloops : ∃ v ∈ l.threads.set i
      { t with work := .acting (carryAll (l.session.run.step now h').2) },
      v.owner = .loop ∧ v.left = false :=
    loop_set hi ⟨t, List.mem_of_getElem? hi, howner, hleft⟩ fun _ _ => ⟨howner, hleft⟩
  refine ⟨⟨delay, ready_step hready now h' fun n hn => absurd hn (hdue n)⟩,
    hs.settles.step now h', (Push.Run.step_shift _ now h').matched hs.matched, ?_, ?_, ?_, ?_,
    fun _ => .inl hloops, hs.closing⟩
  · intro v hv
    rcases mem_put hv with hv | rfl
    · exact hs.threads v hv
    · refine ⟨⟨_, none, howner ▸ conduct_loop _ now h'⟩, ?_⟩
      rw [hleft]
      exact nofun
  · intro number
    simp only [hpulls]
    exact (hs.pulls number).trans (Push.Run.runs_step _ now hdue hreturned).symm
  · exact fun j k number hj hk =>
      hs.single j k number ((hpulls j number).mp hj) ((hpulls k number).mp hk)
  · intro hstarted
    exact absurd (Push.Run.hasReturned_iff.mp (hs.idle hstarted)).1 hphase

/-- The pull that waits has a thread from now on. -/
theorem sound_due {l : Live} (hs : l.Sound) (hw : (instant, number) ∈ l.session.run.waits)
    (now : Instant) :
    Sound ((l.withRun (l.session.run.step now (.pullDue number)).1).spawn (.pull number)
      (quietly reconcile)) := by
  obtain ⟨delay, hready⟩ := hs.ready
  have hfree := hready.toSound.not_runs hw
  have hreturned : l.session.run.hasReturned = true → False := by
    intro hreturned
    obtain ⟨p, hp, -⟩ := Push.Run.mem_waits.mp hw
    rw [(Push.Run.hasReturned_iff.mp hreturned).2] at hp
    cases hp
  have hpulls : ∀ j k, Pulls ((l.withRun (l.session.run.step now (.pullDue number)).1).spawn
      (.pull number) (quietly reconcile)) j k ↔
      l.Pulls j k ∨ j = l.threads.length ∧ k = number := fun j k => pulls_spawn
  refine ⟨⟨delay, ready_step hready now _ ?_⟩, hs.settles.step now _,
    (Push.Run.step_shift _ now _).matched hs.matched, ?_, ?_, ?_, ?_, ?_, hs.closing⟩
  · rintro n ⟨⟩
    exact ⟨instant, hw⟩
  · intro v hv
    rcases mem_spawn hv with hv | rfl
    · exact hs.threads v hv
    · exact sound_spawned (conduct_pull number)
  · intro k
    refine Iff.trans ?_ (Push.Run.runs_due hw now).symm
    simp only [hpulls, exists_or, hs.pulls]
    simp
  · intro i j k hi hj
    rcases (hpulls i k).mp hi with hi | ⟨rfl, rfl⟩ <;> rcases (hpulls j k).mp hj with hj | ⟨rfl, hk⟩
    · exact hs.single i j k hi hj
    · exact absurd ((hs.pulls k).mp ⟨i, hi⟩) (hk ▸ hfree)
    · exact absurd ((hs.pulls k).mp ⟨j, hj⟩) hfree
    · rfl
  · exact fun hstarted => absurd (hs.idle hstarted) hreturned
  · intro hstarted
    rcases hs.looping hstarted with ⟨t, ht, hloop⟩ | hr
    · exact .inl ⟨t, List.mem_append_left _ ht, hloop⟩
    · exact absurd hr hreturned

/-- A pull has returned, and its thread has left. -/
theorem sound_pulled {l : Live} (hs : l.Sound) (hi : l.threads[i]? = some t)
    (hleft : t.left = false) (hgone : Thread.Sound { t with left := true })
    (howner : t.owner = .pull number) (now : Instant) :
    Sound ((l.withRun (l.session.run.step now (.pullReturned number)).1).put i
      { t with left := true }) := by
  obtain ⟨delay, hready⟩ := hs.ready
  have hpulls : ∀ j k, Pulls ((l.withRun (l.session.run.step now (.pullReturned number)).1).put i
      { t with left := true }) j k ↔ j ≠ i ∧ l.Pulls j k := fun j k => pulls_gone hi rfl
  have hreturned : l.session.run.hasReturned = true →
      (l.session.run.step now (.pullReturned number)).1.hasReturned = true := by
    intro hreturned
    rw [Push.Run.step_returned hreturned]
    exact hreturned
  refine ⟨⟨delay, ready_step hready now _ nofun⟩, hs.settles.step now _,
    (Push.Run.step_shift _ now _).matched hs.matched, ?_, ?_, ?_,
    fun hstarted => hreturned (hs.idle hstarted), ?_, hs.closing⟩
  · intro v hv
    rcases mem_put hv with hv | rfl
    · exact hs.threads v hv
    · exact hgone
  · intro k
    refine Iff.trans ?_ (Push.Run.runs_returned _ now number).symm
    rw [← hs.pulls]
    simp only [hpulls]
    constructor
    · rintro ⟨j, hne, hj⟩
      refine ⟨⟨j, hj⟩, ?_⟩
      rintro rfl
      exact hne (hs.single j i k hj ⟨t, hi, howner, hleft⟩)
    · rintro ⟨⟨j, u, hu, hpull, hstays⟩, hne⟩
      refine ⟨j, ?_, u, hu, hpull, hstays⟩
      rintro rfl
      cases hi.symm.trans hu
      exact hne (Owner.pull.inj (hpull.symm.trans howner))
  · exact fun j k m hj hk => hs.single j k m ((hpulls j m).mp hj).2 ((hpulls k m).mp hk).2
  · intro hstarted
    rcases hs.looping hstarted with hloop | hr
    · exact .inl (loop_set hi hloop fun hloops => by simp [howner] at hloops)
    · exact .inr (hreturned hr)

theorem sound_leave {l : Live} (hs : l.Sound) (hi : l.threads[i]? = some t)
    (hleft : t.left = false) (houtcome : t.work.outcome? = some value)
    (hleave : Leave l now t value next) : Sound (next.put i { t with left := true }) := by
  have hgone : Thread.Sound { t with left := true } := by
    refine ⟨(hs.threads t (List.mem_of_getElem? hi)).conducts, fun _ => ?_⟩
    rw [houtcome]
    exact nofun
  have hthreads : ∀ v ∈ (l.put i { t with left := true }).threads, v.Sound := by
    intro v hv
    rcases mem_put hv with hv | rfl
    · exact hs.threads v hv
    · exact hgone
  -- Only the thread of a pull takes a pull with it.
  have hpulls (hother : ∀ n, t.owner ≠ .pull n) (j k : Nat) :
      (l.put i { t with left := true }).Pulls j k ↔ l.Pulls j k := by
    rw [pulls_gone hi rfl, and_iff_right_iff_imp]
    rintro ⟨u, hu, hpull, -⟩ rfl
    cases hi.symm.trans hu
    exact hother k hpull
  have hothers (hloop : t.owner ≠ .loop) (hpull : ∀ n, t.owner ≠ .pull n) :
      Sound (l.put i { t with left := true }) :=
    hs.of_threads rfl rfl hs.closing hthreads (hpulls hpull) fun hloops =>
      .inl (loop_set hi hloops fun h => absurd h hloop)
  cases hleave with
  | loop howner hreturned =>
    exact hs.of_threads rfl rfl hs.closing hthreads (hpulls (by simp [howner]))
      fun _ => .inr hreturned
  | ticker howner hcancelled => exact hothers (by simp [howner]) (by simp [howner])
  | pull number howner => exact sound_pulled hs hi hleft hgone howner now
  | other howner =>
    rcases howner with howner | howner <;> exact hothers (by simp [howner]) (by simp [howner])

theorem sound_beat {l : Live} (hs : l.Sound) (hi : l.threads[i]? = some t) {b : Beat Bool}
    (hrun : b.state.run = l.session.run) (houtcome : t.work.outcome? = none)
    (hconducts : ∃ n, b.work.Conducts t.owner.weight n) : (l.beat i t b).1.Sound := by
  have hleft : t.left = true → b.work.outcome? ≠ none := fun hleft =>
    absurd houtcome ((hs.threads t (List.mem_of_getElem? hi)).left hleft)
  exact hs.put hi rfl rfl rfl ⟨hconducts, hleft⟩ hrun rfl rfl rfl

theorem sound_step {l next : Live} (hs : l.Sound) (hstep : Step l m next entries) : next.Sound := by
  cases hstep with
  | start cancelled hstarted => exact sound_start hs hstarted cancelled
  | close hstarted =>
    exact hs.of_threads rfl rfl (fun _ => ⟨rfl, hstarted⟩) hs.threads (fun _ _ => Iff.rfl) .inl
  | cancel hstarted =>
    exact hs.of_threads rfl rfl (fun _ => ⟨rfl, hstarted⟩) hs.threads (fun _ _ => Iff.rfl) .inl
  | commission c => exact hs.spawn nofun (conduct_caller c)
  | giveUp hi howner =>
    obtain ⟨hconducts, hleft⟩ := hs.threads _ (List.mem_of_getElem? hi)
    exact hs.put hi rfl rfl rfl ⟨hconducts, hleft⟩ rfl rfl rfl rfl
  | act hi hacting =>
    obtain ⟨n, hn⟩ := (hs.threads _ (List.mem_of_getElem? hi)).conducts
    obtain ⟨⟨m, -, hm⟩, hrun⟩ := acting_conducts hacting hn
    exact sound_beat hs hi hrun hacting.outcome? ⟨m, hm⟩
  | answer hi hcut hanswering =>
    obtain ⟨n, hn⟩ := (hs.threads _ (List.mem_of_getElem? hi)).conducts
    obtain ⟨hm, hstate⟩ := answering_conducts hanswering hn
    refine sound_beat hs hi (congrArg State.run hstate) hanswering.outcome? ?_
    rcases hm with ⟨m, -, hm⟩ | ⟨-, hm⟩
    · exact ⟨m, hm⟩
    · exact ⟨_, hm⟩
  | hear hi howner hleft hidle hphase hheard => exact sound_hear hs hi howner hleft hphase hheard _
  | due hw => exact sound_due hs hw _
  | tick hi howner hleft hidle =>
    refine hs.put hi rfl rfl rfl ⟨⟨21, none, ?_⟩, fun h => ?_⟩ rfl rfl rfl rfl
    · exact howner ▸ conduct_ticker
    · rw [hleft] at h
      cases h
  | refresh hi howner hleft hidle =>
    have hput : (l.put _ (.resting .ticker)).Sound :=
      hs.put hi rfl howner.symm hleft.symm (sound_resting .ticker) rfl rfl rfl rfl
    exact hput.spawn nofun conduct_refresh
  | leave hi hleft houtcome hleave => exact sound_leave hs hi hleft houtcome hleave

theorem sound_after (client : Rest.Client) (url : Text) (settings : Settings)
    (moves : List Move) : ((of client url settings).after moves).Sound :=
  after_keeps (fun _ _ _ _ hs hstep => sound_step hs hstep) moves _ (sound_of client url settings)

-- ---------------------------------------------------------------------------
-- What the threads hold
-- ---------------------------------------------------------------------------

/-- What the work of each thread holds. -/
def held (f : Work Bool → Option β) (l : Live) : List (Option β) := l.threads.map fun t => f t.work

/-- Only work that is under way holds anything. -/
structure Holding (f : Work Bool → Option β) : Prop where
  ended : ∀ w : Work Bool, w.outcome? ≠ none → f w = none
  begun : ∀ {weight : Bool → Nat} {n : Nat} {a : Activity Bool}, Conduct weight none n a →
    f (.acting a) = none

theorem Holding.resting {f : Work Bool → Option β} (hf : Holding f) (owner : Owner) :
    f (Thread.resting owner).work = none := hf.ended _ (Option.some_ne_none false)

theorem Holding.begins {f : Work Bool → Option β} (hf : Holding f) {w : Work Bool}
    (h : w.outcome? ≠ none) {a : Activity Bool} (ha : Conduct weight none n a) :
    f (.acting a) = f w := (hf.begun ha).trans (hf.ended w h).symm

/-- A step, by what it does to what the threads hold. -/
inductive Shifts (f : Work Bool → Option β) (l : Live) : Live → List Entry → Prop where
  /-- Threads may have come that hold nothing yet. -/
  | still (k : Nat) : next.held f = l.held f ++ List.replicate k none →
      next.session.devices = l.session.devices → next.session.desk = l.session.desk →
      next.session.submissions = l.session.submissions → Shifts f l next []
  | acts : l.threads[i]? = some t → t.work.Conducts t.owner.weight n →
      Acting now (l.isCancelled t) l.session t.work b →
      Shifts f l (l.beat i t b).1 (l.beat i t b).2
  | answers : l.threads[i]? = some t → t.work.Conducts t.owner.weight n →
      Answering now (l.isCancelled t) l.session t.work a b →
      Shifts f l (l.beat i t b).1 (l.beat i t b).2

section
variable {f : Work Bool → Option β} {l next : Live} {t u : Thread} {i : Nat}

theorem held_get (hi : l.threads[i]? = some t) : (l.held f)[i]? = some (f t.work) := by
  simp [held, hi]

theorem held_put : (l.put i t).held f = (l.held f).set i (f t.work) := List.map_set

theorem held_same (hi : l.threads[i]? = some t) (hheld : f u.work = f t.work) :
    (l.put i u).held f = l.held f := by
  obtain ⟨hlt, hget⟩ := List.getElem?_eq_some_iff.mp (held_get (f := f) hi)
  rw [held_put, hheld, ← hget, List.set_getElem_self hlt]

/-- A thread goes on that holds after the step what it held before. -/
theorem shifts_put (hi : l.threads[i]? = some t) (hthreads : next.threads = l.threads.set i u)
    (hheld : f u.work = f t.work) (hdevices : next.session.devices = l.session.devices)
    (hdesk : next.session.desk = l.session.desk)
    (hsubmissions : next.session.submissions = l.session.submissions) : Shifts f l next [] := by
  refine .still 0 ?_ hdevices hdesk hsubmissions
  rw [List.replicate_zero, List.append_nil, ← held_same hi hheld, held, hthreads]
  rfl

theorem shifts_spawn {a : Activity Bool} (ha : f (.acting a) = none)
    (hheld : next.held f = l.held f ++ [f (.acting a)])
    (hdevices : next.session.devices = l.session.devices)
    (hdesk : next.session.desk = l.session.desk)
    (hsubmissions : next.session.submissions = l.session.submissions) : Shifts f l next [] := by
  rw [ha] at hheld
  exact .still 1 hheld hdevices hdesk hsubmissions

end

theorem step_shifts {f : Work Bool → Option β} (hf : Holding f) {l next : Live} (hs : l.Sound)
    (h : Step l m next entries) : Shifts f l next entries := by
  cases h with
  | start =>
    refine .still 2 ?_ rfl rfl rfl
    show (l.threads ++ _).map _ = _
    rw [List.map_append, List.map_cons, List.map_cons, hf.resting, hf.resting]
    rfl
  | close | cancel => exact .still 0 (List.append_nil _).symm rfl rfl rfl
  | commission c =>
    exact shifts_spawn (hf.begun (conduct_caller c)) List.map_append rfl rfl rfl
  | giveUp hi => exact shifts_put hi rfl rfl rfl rfl rfl
  | act hi hacting =>
    obtain ⟨n, hn⟩ := (hs.threads _ (List.mem_of_getElem? hi)).conducts
    exact .acts hi hn hacting
  | answer hi _ hanswering =>
    obtain ⟨n, hn⟩ := (hs.threads _ (List.mem_of_getElem? hi)).conducts
    exact .answers hi hn hanswering
  | hear hi _ _ hidle =>
    exact shifts_put hi rfl (hf.begins hidle (conduct_loop _ _ _)) rfl rfl rfl
  | @due _ number _ hw =>
    exact shifts_spawn (hf.begun (conduct_pull number)) List.map_append rfl rfl rfl
  | tick hi _ _ hidle =>
    have hidle := hidle ▸ Option.some_ne_none false
    exact shifts_put hi rfl (hf.begins hidle conduct_ticker) rfl rfl rfl
  | refresh hi _ _ hwants =>
    have hended := hf.ended _ (hwants ▸ Option.some_ne_none true)
    refine shifts_spawn (hf.begun conduct_refresh) ?_ rfl rfl rfl
    rw [← held_same hi ((hf.resting .ticker).trans hended.symm)]
    exact List.map_append
  | leave hi _ _ hleave => cases hleave <;> exact shifts_put hi rfl rfl rfl rfl rfl

end Live

end MeshConsole.Session
