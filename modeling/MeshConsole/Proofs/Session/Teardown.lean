import MeshConsole.Proofs.Session.Upkeep

/-!
# Closing a session

`teardown`: whatever a session goes through, and at whatever moment it is
closed, closing returns without an error. By then the link is closed and no
thread of the session's own is left, and none of them is heard of again.

That closing does return takes that what the session waits for is over once
its context is cancelled: requests are answered or fail, dials and reads
fail, waits are cut short. Each move that comes of this brings the session
nearer to its end, and while closing has not returned there is one to make.
-/

namespace MeshConsole.Session

-- ---------------------------------------------------------------------------
-- What is left to do
-- ---------------------------------------------------------------------------

/-- The thread needs at most so many moves to leave, if it is the session's. -/
def Thread.Needs (t : Thread) (n : Nat) : Prop :=
  t.owner.isOwn = true → t.left = false → t.work.Conducts t.owner.weight n

theorem Thread.Needs.of_other {t : Thread} (howner : t.owner.isOwn = false) (n : Nat) :
    t.Needs n := by
  intro hown
  rw [howner] at hown
  cases hown

theorem Thread.Needs.of_left {t : Thread} (hleft : t.left = true) (n : Nat) : t.Needs n := by
  intro _ hstays
  rw [hleft] at hstays
  cases hstays

theorem needs_resting (owner : Owner) : (Thread.resting owner).Needs 1 :=
  fun _ _ => Nat.le_of_eq owner.weight_false

/-- The moves that threads need at most, together. -/
inductive Load : List Thread → Nat → Prop where
  | nil : Load [] 0
  | cons {t : Thread} : t.Needs k → Load rest n → Load (t :: rest) (k + n)

section
variable {threads : List Thread}

theorem Load.set (h : Load threads n) (hi : threads[i]? = some t) :
    ∃ k rest, t.Needs k ∧ n = k + rest ∧
      ∀ (u : Thread) (m : Nat), u.Needs m → Load (threads.set i u) (m + rest) := by
  induction h generalizing i with
  | nil => simp at hi
  | @cons k others n v hv hothers ih =>
    cases i with
    | zero =>
      cases hi
      exact ⟨k, n, hv, rfl, fun u m hu => .cons hu hothers⟩
    | succ i =>
      obtain ⟨j, rest, ht, rfl, hset⟩ := ih hi
      refine ⟨j, k + rest, ht, Nat.add_left_comm k j rest, fun u m hu => ?_⟩
      rw [Nat.add_left_comm m k rest]
      exact .cons hv (hset u m hu)

theorem Load.append {t : Thread} (h : Load threads n) (ht : t.Needs k) :
    Load (threads ++ [t]) (n + k) := by
  induction h with
  | nil =>
    rw [Nat.add_comm]
    exact .cons ht .nil
  | cons hv _ ih =>
    rw [Nat.add_assoc]
    exact .cons hv ih

theorem exists_load (h : ∀ t ∈ threads, t.Sound) : ∃ n, Load threads n := by
  induction threads with
  | nil => exact ⟨0, .nil⟩
  | cons t rest ih =>
    obtain ⟨ht, hrest⟩ := List.forall_mem_cons.mp h
    obtain ⟨k, hk⟩ := ht.conducts
    obtain ⟨n, hn⟩ := ih hrest
    exact ⟨k + n, .cons (fun _ _ => hk) hn⟩

end

namespace Live

def isOwn (l : Live) (i : Nat) : Bool := l.threads[i]?.any fun t => t.owner.isOwn

def byOwn (l : Live) : Move → Bool
  | .act i _ => l.isOwn i
  | .answer i .. => l.isOwn i
  | .hear i .. => l.isOwn i
  | .due .. => true
  | .tick i => l.isOwn i
  | .refresh i => l.isOwn i
  | .leave i _ => l.isOwn i
  | _ => false

/-- The move goes on as if nothing was cancelled: the link hears of anything
but its end, or the time of a pull, a tick or a wait comes. -/
def stirs (l : Live) : Move → Bool
  | .start _ => true
  | .hear _ _ h => heard? l.cancelled h != some .cancelled
  | .due .. => true
  | .tick _ => true
  | .answer i _ .waited => l.isOwn i
  | _ => false

/-- The move brings the session nearer to its end. -/
def unwinds (l : Live) (m : Move) : Bool := l.byOwn m && !l.stirs m

/-- How many of the moves that are in turn have a property. -/
def count (p : Live → Move → Bool) : Live → List Move → Nat
  | _, [] => 0
  | l, m :: rest =>
    match l.step? m with
    | none => l.count p rest
    | some (next, _) => (if p l m then 1 else 0) + next.count p rest

def linkLoad (r : Push.Run) : Nat := if r.phase = .finished then 0 else 3

/-- The session's own threads need at most so many moves to leave. -/
def Loaded (l : Live) (n : Nat) : Prop := ∃ k, Load l.threads k ∧ k + linkLoad l.session.run ≤ n

def stirring : Nat := 31

def toll (l : Live) (m : Move) : Nat := if l.unwinds m then 1 else 0

def gain (l : Live) (m : Move) : Nat := if l.stirs m then stirring else 0

/-- A load is less by a move that unwinds, and more only by one that stirs. -/
def Lightens (l : Live) (m : Move) (next : Live) : Prop :=
  ∀ n, l.Loaded n → ∃ k, next.Loaded k ∧ k + l.toll m ≤ n + l.gain m

theorem linkLoad_le (r : Push.Run) : linkLoad r ≤ 3 := by
  unfold linkLoad
  split <;> decide

theorem lightens_set {l next : Live} (hi : l.threads[i]? = some t)
    (hthreads : next.threads = l.threads.set i u)
    (hu : ∀ k, t.Needs k → ∃ j, u.Needs j ∧
      j + linkLoad next.session.run + l.toll m ≤ k + linkLoad l.session.run + l.gain m) :
    l.Lightens m next := by
  rintro n ⟨k, hload, hle⟩
  obtain ⟨k, rest, ht, rfl, hset⟩ := hload.set hi
  obtain ⟨j, hj, hle'⟩ := hu k ht
  refine ⟨_, ⟨_, hthreads ▸ hset u j hj, Nat.le_refl _⟩, ?_⟩
  omega

theorem lightens_append {l next : Live} (hthreads : next.threads = l.threads ++ [u])
    (hu : u.Needs j) (hle : j + linkLoad next.session.run + l.toll m ≤
      linkLoad l.session.run + l.gain m) : l.Lightens m next := by
  rintro n ⟨k, hload, hle'⟩
  refine ⟨_, ⟨_, hthreads ▸ hload.append hu, Nat.le_refl _⟩, ?_⟩
  omega

theorem Lightens.of_same {l next : Live} (hthreads : next.threads = l.threads)
    (hrun : next.session.run = l.session.run) (htoll : l.toll m = 0) : l.Lightens m next := by
  rintro n ⟨k, hload, hle⟩
  refine ⟨n, ⟨k, hthreads ▸ hload, hrun ▸ hle⟩, ?_⟩
  omega

theorem isOwn_of {l : Live} (hi : l.threads[i]? = some t) : l.isOwn i = t.owner.isOwn := by
  simp [isOwn, hi]

theorem lightens_beat {l : Live} (hs : l.Sound) (hi : l.threads[i]? = some t) {b : Beat Bool}
    (hrun : b.state.run = l.session.run) (houtcome : t.work.outcome? = none)
    (hown : l.byOwn m = t.owner.isOwn)
    (hb : t.owner.isOwn = true → ∀ k, t.work.Conducts t.owner.weight k →
      ∃ j, b.work.Conducts t.owner.weight j ∧ j + l.toll m ≤ k + l.gain m) :
    l.Lightens m (l.beat i t b).1 := by
  have hrun' : (l.beat i t b).1.session.run = l.session.run := hrun
  refine lightens_set (u := { t with work := b.work }) hi rfl fun k hk => ?_
  rw [hrun']
  cases howner : t.owner.isOwn with
  | true =>
    have hleft : t.left = false := by
      cases hleft : t.left with
      | false => rfl
      | true => exact absurd houtcome ((hs.threads t (List.mem_of_getElem? hi)).left hleft)
    obtain ⟨j, hwork, hle⟩ := hb howner k (hk howner hleft)
    exact ⟨j, fun _ _ => hwork, by omega⟩
  | false =>
    have htoll : l.toll m = 0 := by simp [toll, unwinds, hown, howner]
    exact ⟨0, .of_other (t := { t with work := b.work }) howner 0, by omega⟩

theorem toll_le (l : Live) (m : Move) : l.toll m ≤ 1 := by
  unfold toll
  split <;> decide

theorem toll_stirs {l : Live} (h : l.stirs m = true) : l.toll m = 0 ∧ l.gain m = stirring := by
  simp [toll, gain, unwinds, h]

theorem weight_le {weight : Bool → Nat} {w : Work Bool} (h : w.Conducts weight k)
    (houtcome : w.outcome? = some value) : weight value ≤ k := by
  cases w with
  | acting rest => cases houtcome
  | waiting task =>
    cases task with
    | finished v =>
      cases houtcome
      exact h
    | calling | job => cases houtcome

/-- What has nothing to do has still to leave. -/
theorem one_le {w : Work Bool} {owner : Owner} (h : w.Conducts owner.weight k)
    (houtcome : w.outcome? ≠ none) : 1 ≤ k := by
  obtain ⟨value, hvalue⟩ := Option.ne_none_iff_exists'.mp houtcome
  have hpos : 1 ≤ owner.weight value := by
    unfold Owner.weight
    split <;> decide
  exact Nat.le_trans hpos (weight_le h hvalue)

theorem lightens_start {l : Live} (cancelled : Bool) :
    l.Lightens (.start cancelled) { l with
      session := { l.session with
        run := .start l.session.run.link l.session.run.handler cancelled }
      started := true
      cancelled
      threads := l.threads ++ [.resting .loop, .resting .ticker] } := by
  rintro n ⟨k, hload, hle⟩
  have hload' := (hload.append (needs_resting .loop)).append (needs_resting .ticker)
  rw [List.append_assoc] at hload'
  refine ⟨_, ⟨_, hload', Nat.le_refl _⟩, ?_⟩
  have hlink := linkLoad_le (.start l.session.run.link l.session.run.handler cancelled)
  show k + 1 + 1 + linkLoad (.start l.session.run.link l.session.run.handler cancelled) + 0 ≤
    n + stirring
  unfold stirring
  omega

theorem lightens_act {l : Live} (hs : l.Sound) (hi : l.threads[i]? = some t)
    (h : Acting now (l.isCancelled t) l.session t.work b) :
    l.Lightens (.act i now) (l.beat i t b).1 := by
  obtain ⟨n, hn⟩ := (hs.threads t (List.mem_of_getElem? hi)).conducts
  have hrun := (acting_conducts h hn).2
  refine lightens_beat hs hi hrun h.outcome? (isOwn_of hi) fun _ k hk => ?_
  obtain ⟨⟨j, hlt, hj⟩, -⟩ := acting_conducts h hk
  have htoll := l.toll_le (.act i now)
  exact ⟨j, hj, by omega⟩

theorem lightens_answer {l : Live} (hs : l.Sound) (hi : l.threads[i]? = some t)
    (h : Answering now (l.isCancelled t) l.session t.work a b) :
    l.Lightens (.answer i now a) (l.beat i t b).1 := by
  obtain ⟨n, hn⟩ := (hs.threads t (List.mem_of_getElem? hi)).conducts
  have hrun := congrArg State.run (answering_conducts h hn).2
  refine lightens_beat hs hi hrun h.outcome? (isOwn_of hi) fun howner k hk => ?_
  rcases (answering_conducts h hk).1 with ⟨j, hlt, hj⟩ | ⟨rfl, hj⟩
  · have htoll := l.toll_le (.answer i now a)
    exact ⟨j, hj, by omega⟩
  · have hstirs : l.stirs (.answer i now .waited) = true := (isOwn_of hi).trans howner
    obtain ⟨htoll, hgain⟩ := toll_stirs hstirs
    refine ⟨_, hj, ?_⟩
    rw [htoll, hgain, stirring]
    omega

theorem lightens_hear {l : Live} (hs : l.Sound) (hi : l.threads[i]? = some t)
    (howner : t.owner = .loop) (hleft : t.left = false) (hidle : t.work.outcome? ≠ none)
    (hphase : l.session.run.phase ≠ .finished) (hh : heard? l.cancelled h = some h') :
    l.Lightens (.hear i now h) ((l.withRun (l.session.run.step now h').1).put i
      { t with work := .acting (carryAll (l.session.run.step now h').2) }) := by
  refine lightens_set hi rfl fun k hk => ?_
  refine ⟨_, fun _ _ => ⟨none, howner ▸ conduct_loop _ now h'⟩, ?_⟩
  have hone := one_le (hk (by rw [howner]; rfl) hleft) hidle
  have hlink : linkLoad l.session.run = 3 := if_neg hphase
  rw [hlink]
  show _ + linkLoad (l.session.run.step now h').1 + _ ≤ _
  by_cases hcancelled : h' = .cancelled
  · subst hcancelled
    obtain ⟨delay, hready⟩ := hs.ready
    have hstep : l.session.run.step now .cancelled = l.session.run.onCancelled := by
      simp [Push.Run.step]
    have hended : linkLoad l.session.run.onCancelled.1 = 0 :=
      if_pos (Push.Run.sound_onCancelled hready.toSound).2.2.1
    have hcost := l.session.run.cost_onCancelled
    have htoll := l.toll_le (.hear i now h)
    rw [hstep, hended]
    omega
  · have hstirs : l.stirs (.hear i now h) = true := by simp [stirs, hh, hcancelled]
    obtain ⟨htoll, hgain⟩ := toll_stirs hstirs
    have hcost := l.session.run.cost_step now h'
    have hlink' := linkLoad_le (l.session.run.step now h').1
    rw [htoll, hgain, stirring]
    omega

theorem lightens_leave {l : Live} (hs : l.Sound) (hi : l.threads[i]? = some t)
    (hleft : t.left = false) (houtcome : t.work.outcome? = some value)
    (hleave : Leave l now t value next) :
    l.Lightens (.leave i now) (next.put i { t with left := true }) := by
  have hthreads : next.threads = l.threads := by cases hleave <;> rfl
  have hphase : next.session.run.phase = l.session.run.phase := by
    cases hleave with
    | pull number howner => simp [withRun, Push.Run.step, Push.Run.onPullReturned]
    | _ => rfl
  have hlink : linkLoad next.session.run = linkLoad l.session.run := by
    rw [linkLoad, hphase, linkLoad]
  have hset : (next.put i { t with left := true }).threads =
      l.threads.set i { t with left := true } := by rw [← hthreads]; rfl
  refine lightens_set hi hset fun k hk => ⟨0, .of_left (t := { t with left := true }) rfl 0, ?_⟩
  show 0 + linkLoad next.session.run + _ ≤ _
  have htoll := l.toll_le (.leave i now)
  rw [hlink]
  cases howner : t.owner.isOwn with
  | true =>
    have hone := one_le (hk howner hleft) (houtcome ▸ Option.some_ne_none value)
    omega
  | false =>
    have hnone : l.toll (.leave i now) = 0 := by
      simp [toll, unwinds, byOwn, isOwn_of hi, howner]
    omega

theorem lightens_due {l : Live} (hs : l.Sound) (hw : (instant, number) ∈ l.session.run.waits) :
    l.Lightens (.due number now) ((l.withRun (l.session.run.step now (.pullDue number)).1).spawn
      (.pull number) (quietly reconcile)) := by
  obtain ⟨delay, hready⟩ := hs.ready
  refine lightens_append rfl (fun _ _ => ⟨none, conduct_pull number⟩) ?_
  have hphase := (Push.Run.step_start hready hw now).2.2.2.1
  have hlink : linkLoad (l.session.run.step now (.pullDue number)).1 =
      linkLoad l.session.run := by rw [linkLoad, hphase, linkLoad]
  obtain ⟨htoll, hgain⟩ := toll_stirs (l := l) (m := .due number now) rfl
  show 31 + linkLoad (l.session.run.step now (.pullDue number)).1 + _ ≤ _
  rw [htoll, hgain, hlink, stirring]
  omega

theorem lightens_tick {l : Live} (hi : l.threads[i]? = some t) (howner : t.owner = .ticker) :
    l.Lightens (.tick i) (l.put i { t with work := .acting tick }) := by
  refine lightens_set hi rfl fun k hk => ⟨21, fun _ _ => ⟨none, howner ▸ conduct_ticker⟩, ?_⟩
  obtain ⟨htoll, hgain⟩ := toll_stirs (l := l) (m := .tick i) rfl
  show 21 + linkLoad l.session.run + _ ≤ _
  rw [htoll, hgain, stirring]
  omega

theorem lightens_refresh {l : Live} (hi : l.threads[i]? = some t) (howner : t.owner = .ticker)
    (hleft : t.left = false) (hwants : t.work.outcome? = some true) :
    l.Lightens (.refresh i)
      ((l.put i (.resting .ticker)).spawn .refresh (quietly autoRefresh)) := by
  rintro n ⟨k, hload, hle⟩
  obtain ⟨k, rest, ht, rfl, hset⟩ := hload.set hi
  have hweight : 17 ≤ k := by
    have hconducts := weight_le (ht (by rw [howner]; rfl) hleft) hwants
    rwa [howner] at hconducts
  have hload' : Load _ (1 + rest + 15) := (hset _ 1 (needs_resting .ticker)).append
    (t := { owner := .refresh, work := .acting (quietly autoRefresh) })
    fun _ _ => ⟨none, conduct_refresh⟩
  refine ⟨_, ⟨_, hload', Nat.le_refl _⟩, ?_⟩
  have htoll := l.toll_le (.refresh i)
  show 1 + rest + 15 + linkLoad l.session.run + _ ≤ n + _
  omega

theorem lightens_step {l next : Live} (hs : l.Sound) (hstep : Step l m next entries) :
    l.Lightens m next := by
  cases hstep with
  | start cancelled hstarted => exact lightens_start cancelled
  | close hstarted => exact .of_same rfl rfl rfl
  | cancel hstarted => exact .of_same rfl rfl rfl
  | commission c =>
    exact lightens_append (j := 0) rfl (.of_other rfl 0) (Nat.le_of_eq (Nat.zero_add _))
  | giveUp hi howner =>
    refine lightens_set hi rfl fun k _ => ⟨0, .of_other (by simp [howner, Owner.isOwn]) 0, ?_⟩
    show 0 + linkLoad l.session.run + 0 ≤ _
    omega
  | act hi hacting => exact lightens_act hs hi hacting
  | answer hi hcut hanswering => exact lightens_answer hs hi hanswering
  | hear hi howner hleft hidle hphase hheard =>
    exact lightens_hear hs hi howner hleft hidle hphase hheard
  | due hw => exact lightens_due hs hw
  | tick hi howner hleft hidle => exact lightens_tick hi howner
  | refresh hi howner hleft hidle => exact lightens_refresh hi howner hleft hidle
  | leave hi hleft houtcome hleave => exact lightens_leave hs hi hleft houtcome hleave

theorem count_le {l : Live} (hs : l.Sound) (hl : l.Loaded n) (moves : List Move) :
    l.count unwinds moves ≤ n + stirring * l.count stirs moves := by
  induction moves generalizing l n with
  | nil => exact Nat.zero_le _
  | cons m rest ih =>
    cases h : l.step? m with
    | none =>
      simp only [count, h]
      exact ih hs hl
    | some result =>
      obtain ⟨next, entries⟩ := result
      have hstep := step_cases h
      obtain ⟨k, hk, hle⟩ := lightens_step hs hstep n hl
      have hrest := ih (sound_step hs hstep) hk
      simp only [count, h, Nat.mul_add]
      have hgain : l.gain m = stirring * if l.stirs m then 1 else 0 := by
        unfold gain
        split <;> rfl
      rw [← hgain]
      show l.toll m + _ ≤ _
      omega

theorem Sound.loaded {l : Live} (hs : l.Sound) : ∃ n, l.Loaded n := by
  obtain ⟨k, hk⟩ := exists_load hs.threads
  exact ⟨_, k, hk, Nat.le_refl _⟩

-- ---------------------------------------------------------------------------
-- There is a move to make
-- ---------------------------------------------------------------------------

/-- Some move brings the session nearer to its end. -/
def GoesOn (l : Live) : Prop := ∃ m, l.unwinds m = true ∧ (l.step? m).isSome = true

theorem exists_acting (now : Instant) (c : Bool) (s : State) (rest : Activity α) :
    ∃ b, Acting now c s (.acting rest) b := by
  cases rest with
  | done value => exact ⟨_, .done value⟩
  | note entry next => exact ⟨_, .note entry next⟩
  | store change next => exact ⟨_, .store change next⟩
  | look next => exact ⟨_, .look next⟩
  | call question next => exact ⟨_, .call question next⟩
  | job order next =>
    cases hactive : s.desk.isActive order.type with
    | true => exact ⟨_, .refused order next hactive⟩
    | false => exact ⟨_, .enters order next hactive⟩

section
variable {l : Live} {t : Thread} {i : Nat}

theorem goesOn_act (hi : l.threads[i]? = some t) (hown : t.owner.isOwn = true)
    (h : Acting 0 (l.isCancelled t) l.session t.work b) : l.GoesOn := by
  refine ⟨.act i 0, ?_, ?_⟩
  · simp [unwinds, byOwn, stirs, isOwn_of hi, hown]
  · simp [step?, hi, act?_eq_some.mpr h]

/-- The gateway may answer anything, and a wait may be cut short. -/
theorem goesOn_answer (hi : l.threads[i]? = some t) (hown : t.owner.isOwn = true)
    (hcancelled : l.isCancelled t = true) (ha : a ≠ .waited)
    (h : Answering 0 (l.isCancelled t) l.session t.work a b) : l.GoesOn := by
  refine ⟨.answer i 0 a, ?_, ?_⟩
  · cases a with
    | waited => exact absurd rfl ha
    | _ => simp [unwinds, byOwn, stirs, isOwn_of hi, hown]
  · have hb := answer?_eq_some.mpr h
    rw [hcancelled] at hb
    cases a with
    | waited => exact absurd rfl ha
    | _ => simp [step?, hi, hb, hcancelled]

theorem goesOn_busy (hi : l.threads[i]? = some t) (hown : t.owner.isOwn = true)
    (hcancelled : l.isCancelled t = true) (hbusy : t.work.outcome? = none) : l.GoesOn := by
  obtain ⟨owner, work, gaveUp, left⟩ := t
  cases work with
  | acting rest =>
    obtain ⟨b, hb⟩ := exists_acting 0 _ l.session rest
    exact goesOn_act hi hown hb
  | waiting task =>
    cases task with
    | finished value => cases hbusy
    | calling call next =>
      exact goesOn_answer (a := .exchanged (.error .canceled)) hi hown hcancelled (by simp)
        (.called call next _)
    | job order run next =>
      cases hphase : run.phase with
      | submitting | polling =>
        exact goesOn_answer (a := .exchanged (.error .canceled)) hi hown hcancelled (by simp)
          (.heard order run next _ (by simp [Task.need, Job.Run.need, hphase, Need.fits]) rfl)
      | waiting job =>
        exact goesOn_answer (a := .interrupted) hi hown hcancelled (by simp)
          (.heard order run next _ (by simp [Task.need, Job.Run.need, hphase, Need.fits]) rfl)
      | ended result => exact goesOn_act hi hown (.leaves order run next hphase)

theorem goesOn_leave (hi : l.threads[i]? = some t) (hown : t.owner.isOwn = true)
    (hleft : t.left = false) (houtcome : t.work.outcome? = some value)
    (hleave : (l.leave? i 0 t value).isSome = true) : l.GoesOn := by
  refine ⟨.leave i 0, ?_, ?_⟩
  · simp [unwinds, byOwn, stirs, isOwn_of hi, hown]
  · simp [step?, hi, houtcome, hleft, hleave]

/-- The loop hears that it is cancelled, waits for the pulls, and leaves. -/
theorem goesOn_loop (hs : l.Sound) (hcancelled : l.cancelled = true)
    (hi : l.threads[i]? = some t) (howner : t.owner = .loop) (hleft : t.left = false)
    (houtcome : t.work.outcome? = some value) : l.GoesOn := by
  have hown : t.owner.isOwn = true := by rw [howner]; rfl
  by_cases hphase : l.session.run.phase = .finished
  · cases hpulls : l.session.run.pulls with
    | nil =>
      have hreturned := Push.Run.hasReturned_iff.mpr ⟨hphase, hpulls⟩
      exact goesOn_leave hi hown hleft houtcome (by simp [leave?, howner, hreturned])
    | cons p rest =>
      -- The loop has to wait, so it is the thread of a pull that moves.
      have hp : p ∈ l.session.run.pulls := by rw [hpulls]; exact List.mem_cons_self
      have hruns : l.session.run.Runs p.number :=
        ⟨p, hp, rfl, (hs.settles hphase).running p hp⟩
      obtain ⟨j, u, hj, hpull, hstays⟩ := (hs.pulls p.number).mpr hruns
      have hpullOwn : u.owner.isOwn = true := by rw [hpull]; rfl
      cases hwork : u.work.outcome? with
      | none => exact goesOn_busy hj hpullOwn (by simp [isCancelled, hpull, hcancelled]) hwork
      | some v => exact goesOn_leave hj hpullOwn hstays hwork (by simp [leave?, hpull])
  · refine ⟨.hear i 0 .cancelled, ?_, ?_⟩
    · simp [unwinds, byOwn, stirs, isOwn_of hi, hown, heard?, hcancelled]
    · simp [step?, hi, heard?, hcancelled, howner, hleft, houtcome, hphase]

theorem isCancelled_awaited (hcancelled : l.cancelled = true)
    (hawaited : t.owner.isAwaited = true) : t.owner.isOwn = true ∧ l.isCancelled t = true := by
  unfold isCancelled
  cases howner : t.owner with
  | loop | ticker | refresh => exact ⟨rfl, hcancelled⟩
  | pull | caller =>
    rw [howner] at hawaited
    cases hawaited

end

theorem exists_awaited {l : Live} (hclosing : l.closing = true) (hopen : l.closed? = none) :
    ∃ t ∈ l.threads, t.owner.isAwaited = true ∧ t.left = false := by
  simpa [closed?, hclosing] using hopen

theorem goesOn {l : Live} (hs : l.Sound) (hclosing : l.closing = true) (hopen : l.closed? = none) :
    l.GoesOn := by
  obtain ⟨hcancelled, -⟩ := hs.closing hclosing
  obtain ⟨t, ht, hawaited, hleft⟩ := exists_awaited hclosing hopen
  obtain ⟨i, hi⟩ := List.getElem?_of_mem ht
  obtain ⟨hown, hcut⟩ := isCancelled_awaited hcancelled hawaited
  cases houtcome : t.work.outcome? with
  | none => exact goesOn_busy hi hown hcut houtcome
  | some value =>
    cases howner : t.owner with
    | loop => exact goesOn_loop hs hcancelled hi howner hleft houtcome
    | ticker =>
      cases value with
      | false => exact goesOn_leave hi hown hleft houtcome (by simp [leave?, howner, hcancelled])
      | true =>
        -- The refresh is started first, and gives up at its first question.
        refine ⟨.refresh i, ?_, ?_⟩
        · simp [unwinds, byOwn, stirs, isOwn_of hi, hown]
        · simp [step?, hi, howner, hleft, houtcome]
    | refresh => exact goesOn_leave hi hown hleft houtcome (by simp [leave?, howner])
    | pull | caller =>
      rw [howner] at hawaited
      cases hawaited

-- ---------------------------------------------------------------------------
-- Nothing is left
-- ---------------------------------------------------------------------------

/-- The link is closed, and no thread of the session's own is left: no loop,
no pull, no ticker and no refresh. -/
structure TornDown (l : Live) : Prop where
  phase : l.session.run.phase = .finished
  state : l.session.run.link.state = .closed
  pulls : l.session.run.pulls = []
  gone : ∀ t ∈ l.threads, t.owner.isOwn = true → t.left = true

theorem closed?_eq_some {l : Live} (h : l.closed? = some result) :
    result = .ok () ∧ l.closing = true ∧
      ∀ t ∈ l.threads, t.owner.isAwaited = true → t.left = true := by
  simp only [closed?, Option.ite_none_right_eq_some, Bool.and_eq_true, Option.some.injEq,
    List.all_eq_true, Bool.or_eq_true, Bool.not_eq_true'] at h
  obtain ⟨⟨hclosing, hall⟩, rfl⟩ := h
  refine ⟨rfl, hclosing, fun t ht hawaited => (hall t ht).resolve_left ?_⟩
  simp [hawaited]

theorem Sound.tornDown {l : Live} (hs : l.Sound) (hstarted : l.started = true)
    (hall : ∀ t ∈ l.threads, t.owner.isAwaited = true → t.left = true) : l.TornDown := by
  have hreturned : l.session.run.hasReturned = true := by
    rcases hs.looping hstarted with ⟨t, ht, howner, hleft⟩ | hreturned
    · rw [hall t ht (by rw [howner]; rfl)] at hleft
      cases hleft
    · exact hreturned
  obtain ⟨hphase, hpulls⟩ := Push.Run.hasReturned_iff.mp hreturned
  refine ⟨hphase, ?_, hpulls, fun t ht hown => ?_⟩
  · rw [hs.matched, hphase]
    rfl
  · cases howner : t.owner with
    | loop | ticker | refresh => exact hall t ht (by rw [howner]; rfl)
    | pull number =>
      cases hleft : t.left with
      | true => rfl
      | false =>
        obtain ⟨i, hi⟩ := List.getElem?_of_mem ht
        obtain ⟨p, hp, -⟩ := (hs.pulls number).mp ⟨i, t, hi, howner, hleft⟩
        rw [hpulls] at hp
        cases hp
    | caller =>
      rw [howner] at hown
      cases hown

theorem started_step {l next : Live} (h : Step l m next entries) (hstarted : l.started = true) :
    next.started = true := by
  cases h with
  | start => rfl
  | leave _ _ _ hleave => cases hleave <;> exact hstarted
  | _ => exact hstarted

theorem closing_step {l next : Live} (h : Step l m next entries) (hclosing : l.closing = true) :
    next.closing = true := by
  cases h with
  | close => rfl
  | leave _ _ _ hleave => cases hleave <;> exact hclosing
  | _ => exact hclosing

namespace TornDown

variable {l next : Live} {t u : Thread} {i : Nat}

/-- Who has not left is a caller. -/
theorem not_own (ht : l.TornDown) (hi : l.threads[i]? = some t) (hleft : t.left = false) :
    t.owner.isOwn = false := by
  refine Bool.eq_false_iff.mpr fun hown => ?_
  rw [ht.gone t (List.mem_of_getElem? hi) hown] at hleft
  cases hleft

theorem not_own_of_busy (ht : l.TornDown) (hs : l.Sound) (hi : l.threads[i]? = some t)
    (hbusy : t.work.outcome? = none) : t.owner.isOwn = false := by
  refine ht.not_own hi (Bool.eq_false_iff.mpr fun hleft => ?_)
  exact (hs.threads t (List.mem_of_getElem? hi)).left hleft hbusy

/-- A step that only callers have a part in. -/
theorem of_callers (ht : l.TornDown) (hrun : next.session.run = l.session.run)
    (hthreads : ∀ t ∈ next.threads, t ∈ l.threads ∨ t.owner.isOwn = false) : next.TornDown where
  phase := hrun ▸ ht.phase
  state := hrun ▸ ht.state
  pulls := hrun ▸ ht.pulls
  gone t hmem hown := by
    rcases hthreads t hmem with hbefore | hcaller
    · exact ht.gone t hbefore hown
    · rw [hcaller] at hown
      cases hown

theorem beat (ht : l.TornDown) {b : Beat Bool} (hcaller : t.owner.isOwn = false)
    (hrun : b.state.run = l.session.run) :
    (l.beat i t b).1.TornDown ∧ ∀ e ∈ (l.beat i t b).2, e.owner.isOwn = false := by
  refine ⟨ht.of_callers hrun fun u hu => ?_, fun e he => ?_⟩
  · rcases List.mem_or_eq_of_mem_set hu with hu | rfl
    · exact .inl hu
    · exact .inr hcaller
  · obtain ⟨deed, -, rfl⟩ := List.mem_map.mp he
    exact hcaller

theorem put (ht : l.TornDown) (hcaller : u.owner.isOwn = false) : (l.put i u).TornDown := by
  refine ht.of_callers rfl fun v hv => ?_
  rcases mem_put hv with hv | rfl
  · exact .inl hv
  · exact .inr hcaller

theorem step (ht : l.TornDown) (hs : l.Sound) (hstarted : l.started = true)
    (hstep : Step l m next entries) :
    next.TornDown ∧ ∀ e ∈ entries, e.owner.isOwn = false := by
  cases hstep with
  | start cancelled hfresh =>
    rw [hstarted] at hfresh
    cases hfresh
  | close | cancel => exact ⟨ht.of_callers rfl fun _ => .inl, List.forall_mem_nil _⟩
  | commission c =>
    refine ⟨ht.of_callers rfl fun t hmem => ?_, List.forall_mem_nil _⟩
    rcases mem_spawn hmem with hmem | rfl
    · exact .inl hmem
    · exact .inr rfl
  | @giveUp i t hi howner =>
    refine ⟨ht.put ?_, List.forall_mem_nil _⟩
    show t.owner.isOwn = false
    rw [howner]
    rfl
  | act hi hacting =>
    obtain ⟨n, hn⟩ := (hs.threads _ (List.mem_of_getElem? hi)).conducts
    exact ht.beat (ht.not_own_of_busy hs hi hacting.outcome?) (acting_conducts hacting hn).2
  | answer hi _ hanswering =>
    obtain ⟨n, hn⟩ := (hs.threads _ (List.mem_of_getElem? hi)).conducts
    exact ht.beat (ht.not_own_of_busy hs hi hanswering.outcome?)
      (congrArg State.run (answering_conducts hanswering hn).2)
  | hear _ _ _ _ hphase => exact absurd ht.phase hphase
  | due hw =>
    obtain ⟨p, hp, -⟩ := Push.Run.mem_waits.mp hw
    rw [ht.pulls] at hp
    cases hp
  | tick hi howner hleft | refresh hi howner hleft =>
    have hcaller := ht.not_own hi hleft
    rw [howner] at hcaller
    cases hcaller
  | leave hi hleft _ hleave =>
    have hcaller := ht.not_own hi hleft
    cases hleave with
    | other => exact ⟨ht.put hcaller, List.forall_mem_nil _⟩
    | loop howner | ticker howner | pull _ howner =>
      rw [howner] at hcaller
      cases hcaller

/-- Nothing of the session's own comes back or is heard of. -/
theorem after (ht : l.TornDown) (hs : l.Sound) (hstarted : l.started = true)
    (later : List Move) :
    (l.after later).TornDown ∧ ∀ e ∈ l.deeds later, e.owner.isOwn = false := by
  refine (run_keeps (P := fun l seen => (l.Sound ∧ l.started = true) ∧
    l.TornDown ∧ ∀ e ∈ seen, e.owner.isOwn = false) (fun l seen m next entries h hstep => ?_)
    later l [] ⟨⟨hs, hstarted⟩, ht, List.forall_mem_nil _⟩).2
  obtain ⟨⟨hs, hstarted⟩, ht, hseen⟩ := h
  obtain ⟨hnext, hentries⟩ := ht.step hs hstarted hstep
  exact ⟨⟨sound_step hs hstep, started_step hstep hstarted⟩, hnext,
    List.forall_mem_append.mpr ⟨hseen, hentries⟩⟩

end TornDown

-- ---------------------------------------------------------------------------
-- Any history
-- ---------------------------------------------------------------------------

/-- What closing comes to. -/
structure Closes (l : Live) : Prop where
  returned : ∀ result, l.closed? = some result →
    result = .ok () ∧ ∀ later, (l.after later).TornDown ∧
      ∀ e ∈ l.deeds later, e.owner.isOwn = false
  /-- While closing has not returned there is a move to make that brings the
  session nearer to its end, and there are only so many such moves. -/
  returns : l.closing = true → ∃ n, ∀ later, (l.after later).closed? = none →
    (l.after later).GoesOn ∧ l.count unwinds later ≤ n + stirring * l.count stirs later

theorem Sound.closes {l : Live} (hs : l.Sound) : l.Closes where
  returned result h := by
    obtain ⟨hresult, hclosing, hall⟩ := closed?_eq_some h
    obtain ⟨-, hstarted⟩ := hs.closing hclosing
    exact ⟨hresult, fun later => (hs.tornDown hstarted hall).after hs hstarted later⟩
  returns hclosing := by
    obtain ⟨n, hn⟩ := hs.loaded
    refine ⟨n, fun later hopen => ⟨?_, count_le hs hn later⟩⟩
    have hlater := after_keeps (P := fun l => l.Sound ∧ l.closing = true)
      (fun l m next entries h hstep => ⟨sound_step h.1 hstep, closing_step hstep h.2⟩) later l
      ⟨hs, hclosing⟩
    exact goesOn hlater.1 hlater.2 hopen

/-- Any session, at any time. -/
theorem teardown (client : Rest.Client) (url : Text) (settings : Settings) (moves : List Move) :
    ((of client url settings).after moves).Closes :=
  (after_keeps (fun _ _ _ _ => sound_step) moves _ (sound_of client url settings)).closes

/-- Closed while it dials, a session is down after the loop has announced the
loss and the two threads have left. -/
example : (labSession.after [.start false, .close, .hear 0 1 .cancelled, .act 0 1, .act 0 1,
    .leave 1 1, .leave 0 1]).closed? = some (.ok ()) := by rfl

end Live

end MeshConsole.Session
