import MeshConsole.Proofs.Elapsed
import MeshConsole.Proofs.Session.Permits

/-!
# Ticks

A tick looks at the session once and settles from what it finds whether a
refresh of the link table is started. `Tick.Due` says which ticks are to start
one, of the settings that the session was made with and of the ticks before
it; `timely_after`: every tick looks, and these are the ticks that start one,
whatever comes between them, and between what threads.
-/

namespace MeshConsole.Session

open Telemetry (Note Event)

/-- How old link qualities may get. -/
def Settings.staleAfter (settings : Settings) : Duration := settings.radio.effective.staleThreshold

theorem staleAfter_pos (settings : Settings) : 0 < settings.staleAfter.toInt :=
  Duration.orElse_pos (by decide) settings.radio.staleThreshold

-- ---------------------------------------------------------------------------
-- Ticks and what they start
-- ---------------------------------------------------------------------------

/-- When a tick looks at the session, what it finds, and whether a refresh has
been started on it. -/
structure Tick where
  now : Instant
  found : State
  started : Bool := false

/-- What the ticker has done: how many ticks have begun, and those that have
looked at the session, the newest first. -/
structure TickLog where
  begun : Nat := 0
  looks : List Tick := []

/-- When a refresh was last started. -/
def lastStart? (ticks : List Tick) : Option Instant := (ticks.find? Tick.started).map Tick.now

/-- The tick is to start a refresh. -/
structure Tick.Due (settings : Settings) (earlier : List Tick) (t : Tick) : Prop where
  enabled : settings.autoRefresh = true
  opened : t.found.run.link.state = .opened
  stale : t.found.monitor.isStale t.now = true
  free : t.found.desk.isActive "lqi_refresh" = false
  rested : ∀ last, lastStart? earlier = some last → settings.staleAfter.toInt ≤ t.now - last

/-- Refreshes have been started on the ticks that were to start one. -/
inductive Paced (settings : Settings) : List Tick → Prop where
  | nil : Paced settings []
  | cons {t : Tick} {earlier : List Tick} : (t.started = true ↔ t.Due settings earlier) →
      Paced settings earlier → Paced settings (t :: earlier)

/-- The state has the settings that ticks go by. -/
structure Follows (settings : Settings) (s : State) : Prop where
  autoRefresh : s.autoRefresh = settings.autoRefresh
  radio : s.monitor.settings = settings.radio.effective

section
variable {settings : Settings} {ticks earlier : List Tick} {t : Tick}

theorem Follows.steady (h : Follows settings s) (hsteady : Steady s next) :
    Follows settings next :=
  ⟨hsteady.autoRefresh.trans h.autoRefresh, hsteady.radio.trans h.radio⟩

theorem wantsRefresh_iff (s : State) (now : Instant) :
    s.wantsRefresh now = true ↔ s.autoRefresh = true ∧ s.run.link.state = .opened ∧
      s.monitor.isStale now = true ∧ s.desk.isActive "lqi_refresh" = false ∧
      ∀ last, s.lastAutoRefresh = some last →
        s.monitor.settings.staleThreshold ≤ now.since last := by
  cases hlast : s.lastAutoRefresh <;> simp [State.wantsRefresh, hlast, and_assoc]

theorem Tick.due_iff (h : Follows settings t.found)
    (hlast : t.found.lastAutoRefresh = lastStart? earlier) :
    t.found.wantsRefresh t.now = true ↔ t.Due settings earlier := by
  have hrested (last : Instant) : t.found.monitor.settings.staleThreshold ≤ t.now.since last ↔
      settings.staleAfter.toInt ≤ t.now - last := by
    rw [h.radio]
    exact Instant.le_since_iff (.inr (staleAfter_pos settings))
  simp only [wantsRefresh_iff, h.autoRefresh, hlast, hrested]
  constructor
  · rintro ⟨henabled, hopened, hstale, hfree, hrested⟩
    exact ⟨henabled, hopened, hstale, hfree, hrested⟩
  · rintro ⟨henabled, hopened, hstale, hfree, hrested⟩
    exact ⟨henabled, hopened, hstale, hfree, hrested⟩

theorem lastStart?_started (h : t.started = true) : lastStart? (t :: earlier) = some t.now := by
  rw [lastStart?, List.find?_cons_of_pos h]
  rfl

theorem lastStart?_other (h : t.started = false) :
    lastStart? (t :: earlier) = lastStart? earlier := by
  rw [lastStart?, List.find?_cons_of_neg (by simp [h])]
  rfl

theorem Paced.of_append (h : Paced settings (later ++ t :: earlier)) :
    (t.started = true ↔ t.Due settings earlier) ∧ Paced settings earlier := by
  induction later with
  | nil =>
    cases h with
    | cons hdue hearlier => exact ⟨hdue, hearlier⟩
  | cons _ _ ih =>
    cases h with
    | cons _ hrest => exact ih hrest

/-- What lies between two starts. -/
def Apart (settings : Settings) (later earlier : Tick) : Prop :=
  settings.staleAfter.toInt ≤ later.now - earlier.now

theorem Paced.apart (h : Paced settings ticks) :
    (ticks.filter Tick.started).Pairwise (Apart settings) := by
  induction h with
  | nil => exact .nil
  | @cons t earlier hdue _ ih =>
    cases hstarted : t.started with
    | false =>
      rw [List.filter_cons_of_neg (by simp [hstarted])]
      exact ih
    | true =>
      rw [List.filter_cons_of_pos hstarted]
      refine List.pairwise_cons.mpr ⟨fun e he => ?_, ih⟩
      have hrested := (hdue.mp hstarted).rested
      rw [lastStart?, ← List.head?_filter] at hrested
      cases hstarts : earlier.filter Tick.started with
      | nil =>
        rw [hstarts] at he
        cases he
      | cons last before =>
        rw [hstarts] at he hrested ih
        have hlast := hrested last.now rfl
        rcases List.mem_cons.mp he with rfl | hbefore
        · exact hlast
        -- The last start lies behind the one before, since rests are not empty.
        · have hrest : settings.staleAfter.toInt ≤ last.now - e.now :=
            (List.pairwise_cons.mp ih).1 e hbefore
          have hpos := staleAfter_pos settings
          show settings.staleAfter.toInt ≤ t.now - e.now
          have hlast : settings.staleAfter.toInt ≤ t.now - last.now := hlast
          omega

end

-- ---------------------------------------------------------------------------
-- The ticker
-- ---------------------------------------------------------------------------

/-- What a tick does once it has told of the view. -/
def Tick.verdict (t : Tick) : Activity Bool :=
  if t.found.wantsRefresh t.now then
    .store (fun state => { state with lastAutoRefresh := some t.now }) (.done true)
  else .done false

/-- What a tick does once it has looked. -/
def glance (scene : Scene) : Activity Bool :=
  .note (.publish (.links (scene.state.view scene.now)))
    (Tick.verdict { now := scene.now, found := scene.state })

/-- Where the ticker stands, with the last refresh that the session
remembers. -/
inductive Stands (settings : Settings) : List Tick → Option Instant → Work Bool → Prop where
  | rests : Paced settings ticks → last = lastStart? ticks →
      Stands settings ticks last (.waiting (.finished false))
  | begins : Paced settings ticks → last = lastStart? ticks →
      Stands settings ticks last (.acting (.look glance))
  | tells (entry : Note) : Paced settings earlier → last = lastStart? earlier →
      (t.found.wantsRefresh t.now = true ↔ t.Due settings earlier) → t.started = false →
      Stands settings (t :: earlier) last (.acting (.note entry t.verdict))
  | judges : Paced settings earlier → last = lastStart? earlier →
      (t.found.wantsRefresh t.now = true ↔ t.Due settings earlier) → t.started = false →
      Stands settings (t :: earlier) last (.acting t.verdict)
  | grants : Paced settings earlier → last = some t.now → t.Due settings earlier →
      t.started = false → Stands settings (t :: earlier) last (.acting (.done true))
  | wants : Paced settings earlier → last = some t.now → t.Due settings earlier →
      t.started = false → Stands settings (t :: earlier) last (.waiting (.finished true))

def Work.looks : Work α → Bool
  | .acting (.look _) => true
  | _ => false

/-- The ticker stands where its ticks have led, and each that has begun has
looked at the session, or is about to. -/
structure InTime (settings : Settings) (log : TickLog) (last : Option Instant) (w : Work Bool) :
    Prop where
  stands : Stands settings log.looks last w
  begun : log.begun = log.looks.length + if w.looks then 1 else 0

section
variable {settings : Settings} {ticks : List Tick} {log : TickLog} {w : Work Bool} {b : Beat Bool}

theorem Tick.verdict_looks (t : Tick) : (Work.acting t.verdict).looks = false := by
  unfold Tick.verdict
  split <;> rfl

theorem looks_of_outcome {w : Work α} (h : w.outcome? ≠ none) : w.looks = false := by
  cases w with
  | acting => exact absurd rfl h
  | waiting => rfl

theorem Stands.act (h : Stands settings ticks last w) (hlast : s.lastAutoRefresh = last)
    (hfollows : Follows settings s) (hacting : Acting now cancelled s w b) :
    Stands settings (if w.looks then { now, found := s } :: ticks else ticks)
      b.state.lastAutoRefresh b.work ∧ b.work.looks = false ∧ Follows settings b.state := by
  subst hlast
  cases h with
  | rests => cases hacting
  | wants => cases hacting
  | begins hpaced hlast =>
    cases hacting with
    | look =>
      exact ⟨.tells _ hpaced hlast (Tick.due_iff hfollows hlast) rfl, rfl, hfollows⟩
  | tells entry hpaced hlast hdue hstarted =>
    cases hacting with
    | note => exact ⟨.judges hpaced hlast hdue hstarted, Tick.verdict_looks _, hfollows⟩
  | judges hpaced hlast hdue hstarted =>
    unfold Tick.verdict at hacting ⊢
    split at hacting
    case isTrue hwants =>
      rw [if_pos hwants]
      cases hacting with
      | store =>
        exact ⟨.grants hpaced rfl (hdue.mp hwants) hstarted, rfl, hfollows.autoRefresh,
          hfollows.radio⟩
    case isFalse hrests =>
      rw [if_neg hrests]
      cases hacting with
      | done =>
        refine ⟨.rests (.cons ?_ hpaced) ?_, rfl, hfollows⟩
        · rw [hstarted, ← hdue, Bool.not_eq_true _ |>.mp hrests]
        · exact hlast.trans (lastStart?_other hstarted).symm
  | grants hpaced hlast hdue hstarted =>
    cases hacting with
    | done => exact ⟨.wants hpaced hlast hdue hstarted, rfl, hfollows⟩

theorem InTime.act (h : InTime settings log last w) (hlast : s.lastAutoRefresh = last)
    (hfollows : Follows settings s) (hacting : Acting now cancelled s w b) :
    InTime settings
      (if w.looks then { log with looks := { now, found := s } :: log.looks } else log)
      b.state.lastAutoRefresh b.work ∧ Follows settings b.state := by
  obtain ⟨hstands, hlooked, hnext⟩ := h.stands.act hlast hfollows hacting
  have hbegun := h.begun
  refine ⟨⟨?_, ?_⟩, hnext⟩
  · rw [apply_ite TickLog.looks]
    exact hstands
  · rw [hlooked]
    cases hlooks : w.looks with
    | true | false =>
      rw [hlooks] at hbegun
      exact hbegun

theorem Stands.paced (h : Stands settings ticks last w) (hrests : w.outcome? = some false) :
    Paced settings ticks ∧ last = lastStart? ticks := by
  cases h with
  | rests hpaced hlast => exact ⟨hpaced, hlast⟩
  | wants => cases hrests
  | _ => cases hrests

/-- The tick has started the refresh that it is to start. -/
theorem Stands.refreshed (h : Stands settings ticks last w) (hwants : w.outcome? = some true) :
    ∃ t earlier, ticks = t :: earlier ∧ t.started = false ∧ last = some t.now ∧
      Paced settings ({ t with started := true } :: earlier) := by
  cases h with
  | @wants earlier _ t hpaced hlast hdue hstarted =>
    refine ⟨t, earlier, rfl, hstarted, hlast, .cons ⟨fun _ => ?_, fun _ => rfl⟩ hpaced⟩
    exact ⟨hdue.enabled, hdue.opened, hdue.stale, hdue.free, hdue.rested⟩
  | rests => cases hwants
  | _ => cases hwants

/-- A tick that is under way has started nothing yet. -/
theorem Stands.cases (h : Stands settings ticks last w) :
    Paced settings ticks ∨ ∃ t earlier, ticks = t :: earlier ∧ t.started = false ∧
      Paced settings earlier ∧ w.outcome? ≠ some false := by
  cases h with
  | rests hpaced | begins hpaced => exact .inl hpaced
  | tells _ hpaced _ _ hstarted => exact .inr ⟨_, _, rfl, hstarted, hpaced, nofun⟩
  | judges hpaced _ _ hstarted => exact .inr ⟨_, _, rfl, hstarted, hpaced, nofun⟩
  | grants hpaced _ _ hstarted => exact .inr ⟨_, _, rfl, hstarted, hpaced, nofun⟩
  | wants hpaced _ _ hstarted => exact .inr ⟨_, _, rfl, hstarted, hpaced, nofun⟩

/-- A tick asks nothing. -/
theorem Stands.not_answering (h : Stands settings ticks last w) :
    ¬ Answering now cancelled s w a b := by
  intro hanswering
  cases h <;> cases hanswering

end

-- ---------------------------------------------------------------------------
-- The ticks of a session
-- ---------------------------------------------------------------------------

namespace Live

def owners (l : Live) : List Owner := l.threads.map Thread.owner

/-- The log with what a move adds to it: a tick begins, the ticker looks at the
session, or it starts a refresh on the newest tick. -/
def record (l : Live) (log : TickLog) : Move → TickLog
  | .tick _ => { log with begun := log.begun + 1 }
  | .act i now =>
    if l.threads[i]?.any fun t => t.owner == .ticker && t.work.looks then
      { log with looks := { now, found := l.session } :: log.looks }
    else log
  | .refresh _ => { log with looks := log.looks.modifyHead fun t => { t with started := true } }
  | _ => log

/-- The log after some moves, on top of the one before. -/
def ticking : Live → TickLog → List Move → TickLog
  | _, before, [] => before
  | l, before, m :: rest =>
    match l.step? m with
    | none => l.ticking before rest
    | some (next, _) => next.ticking (l.record before m) rest

theorem ticking_keeps {P : Live → TickLog → Prop}
    (hstep : ∀ l before m next entries, P l before → Step l m next entries →
      P next (l.record before m))
    (moves : List Move) (l : Live) (before : TickLog) (hl : P l before) :
    P (l.after moves) (l.ticking before moves) := by
  induction moves generalizing l before with
  | nil => exact hl
  | cons m rest ih =>
    rw [ticking]
    show P ((l.step m).1.after rest) _
    cases hnext : l.step? m with
    | none =>
      rw [step, hnext]
      exact ih l before hl
    | some result =>
      rw [step, hnext]
      exact ih result.1 _ (hstep l before m _ _ hl (step_cases hnext))

structure Timely (settings : Settings) (l : Live) (log : TickLog) : Prop where
  follows : Follows settings l.session
  others : ∀ t ∈ l.threads, t.owner ≠ .ticker → t.work.Within steady
  inTime : ∀ t ∈ l.threads, t.owner = .ticker →
    InTime settings log l.session.lastAutoRefresh t.work
  idle : l.started = false →
    Owner.ticker ∉ l.owners ∧ log = {} ∧ l.session.lastAutoRefresh = none
  /-- There is one ticker. -/
  single : l.started = true → ∃ i : Nat, ∀ j : Nat, l.owners[j]? = some .ticker ↔ j = i
  refreshes : l.owners.count .refresh = log.looks.countP Tick.started

theorem timely_of (client : Rest.Client) (url : Text) (settings : Settings) :
    (of client url settings).Timely settings {} where
  follows := ⟨rfl, rfl⟩
  others := List.forall_mem_nil _
  inTime := List.forall_mem_nil _
  idle _ := ⟨List.not_mem_nil, rfl, rfl⟩
  single := nofun
  refreshes := rfl

section
variable {settings : Settings} {l next : Live} {log log' : TickLog} {t u : Thread} {i : Nat}

theorem owners_set (hi : l.threads[i]? = some t) (howner : u.owner = t.owner) :
    (l.threads.set i u).map Thread.owner = l.owners := by
  have hsame : l.owners[i]? = some u.owner := by
    rw [owners, List.getElem?_map, hi, howner]
    rfl
  obtain ⟨hlt, hget⟩ := List.getElem?_eq_some_iff.mp hsame
  rw [List.map_set, ← hget]
  exact List.set_getElem_self hlt

theorem ticker_append {owners more : List Owner} (hmore : Owner.ticker ∉ more) (j : Nat) :
    (owners ++ more)[j]? = some .ticker ↔ owners[j]? = some .ticker := by
  rw [List.getElem?_append]
  split
  · rfl
  · rename_i hle
    rw [List.getElem?_eq_none (Nat.le_of_not_lt hle)]
    exact ⟨fun hget => absurd (List.mem_of_getElem? hget) hmore, nofun⟩

/-- A thread goes on, and the ticker stands where it stood. -/
theorem Timely.put (h : l.Timely settings log) (hi : l.threads[i]? = some t)
    (hthreads : next.threads = l.threads.set i u) (howner : u.owner = t.owner)
    (hticker : t.owner = .ticker → u.work = t.work)
    (hother : t.owner ≠ .ticker → u.work.Within steady)
    (hsteady : Steady l.session next.session) (hstarted : next.started = l.started) :
    next.Timely settings log := by
  have howners : next.owners = l.owners := by
    rw [owners, hthreads, owners_set hi howner]
  refine ⟨h.follows.steady hsteady, ?_, ?_, ?_, ?_, howners ▸ h.refreshes⟩
  · intro v hv hv'
    rw [hthreads] at hv
    rcases List.mem_or_eq_of_mem_set hv with hv | rfl
    · exact h.others v hv hv'
    · exact hother (howner ▸ hv')
  · intro v hv hv'
    rw [hsteady.lastAutoRefresh]
    rw [hthreads] at hv
    rcases List.mem_or_eq_of_mem_set hv with hv | rfl
    · exact h.inTime v hv hv'
    · rw [hticker (howner ▸ hv')]
      exact h.inTime t (List.mem_of_getElem? hi) (howner ▸ hv')
  · rw [hstarted, howners, hsteady.lastAutoRefresh]
    exact h.idle
  · rw [hstarted, howners]
    exact h.single

theorem Timely.spawn (h : l.Timely settings log) {a : Activity Bool} {owner : Owner}
    (hthreads : next.threads = l.threads ++ [{ owner, work := .acting a }])
    (hticker : owner ≠ .ticker) (hrefresh : owner ≠ .refresh) (ha : a.Within steady)
    (hsteady : Steady l.session next.session) (hstarted : next.started = l.started) :
    next.Timely settings log := by
  have howners : next.owners = l.owners ++ [owner] := by
    rw [owners, hthreads, List.map_append]
    rfl
  have hmore : Owner.ticker ∉ [owner] := fun hmem => hticker (List.mem_singleton.mp hmem).symm
  refine ⟨h.follows.steady hsteady, ?_, ?_, ?_, ?_, ?_⟩
  · intro v hv hv'
    rw [hthreads] at hv
    rcases List.mem_append.mp hv with hv | hv
    · exact h.others v hv hv'
    · rw [List.mem_singleton.mp hv]
      exact ha
  · intro v hv hv'
    rw [hsteady.lastAutoRefresh]
    rw [hthreads] at hv
    rcases List.mem_append.mp hv with hv | hv
    · exact h.inTime v hv hv'
    · rw [List.mem_singleton.mp hv] at hv'
      exact absurd hv' hticker
  · rw [hstarted, howners, hsteady.lastAutoRefresh]
    intro hidle
    obtain ⟨hnone, hrest⟩ := h.idle hidle
    exact ⟨fun hmem => (List.mem_append.mp hmem).elim hnone hmore, hrest⟩
  · rw [hstarted, howners]
    intro hrunning
    obtain ⟨i, hi⟩ := h.single hrunning
    exact ⟨i, fun j => (ticker_append hmore j).trans (hi j)⟩
  · rw [howners, List.count_append, h.refreshes, List.count_singleton]
    simp [hrefresh]

/-- The ticker goes on, and may start refreshes. -/
theorem Timely.goesOn (h : l.Timely settings log) (hi : l.threads[i]? = some t)
    (howner : t.owner = .ticker) (hu : u.owner = .ticker)
    (hthreads : next.threads = l.threads.set i u ++ more)
    (hmore : ∀ v ∈ more, v.owner = .refresh ∧ v.work.Within steady)
    (hstarted : next.started = l.started) (hfollows : Follows settings next.session)
    (htime : InTime settings log' next.session.lastAutoRefresh u.work)
    (hcount : log'.looks.countP Tick.started = log.looks.countP Tick.started + more.length) :
    next.Timely settings log' := by
  have howners : next.owners = l.owners ++ more.map Thread.owner := by
    rw [owners, hthreads, List.map_append, owners_set hi (hu.trans howner.symm)]
  have hrefreshes : more.map Thread.owner = List.replicate more.length .refresh :=
    List.eq_replicate_of_mem (by simpa using fun v hv => (hmore v hv).1) |>.trans (by simp)
  have hget : l.owners[i]? = some .ticker := by
    rw [owners, List.getElem?_map, hi, ← howner]
    rfl
  have hrunning : l.started = true := by
    refine Bool.not_eq_false _ |>.mp fun hidle => ?_
    exact (h.idle hidle).1 (List.mem_of_getElem? hget)
  obtain ⟨k, hk⟩ := h.single hrunning
  obtain rfl : i = k := (hk i).mp hget
  refine ⟨hfollows, ?_, ?_, ?_, ?_, ?_⟩
  · intro v hv hv'
    rw [hthreads] at hv
    rcases List.mem_append.mp hv with hv | hv
    · rcases List.mem_or_eq_of_mem_set hv with hv | rfl
      · exact h.others v hv hv'
      · exact absurd hu hv'
    · exact (hmore v hv).2
  · intro v hv hv'
    rw [hthreads] at hv
    rcases List.mem_append.mp hv with hv | hv
    · obtain ⟨j, hj⟩ := List.mem_iff_getElem?.mp hv
      by_cases hji : j = i
      · rw [hji, List.getElem?_set_self (List.getElem?_eq_some_iff.mp hi).1] at hj
        exact Option.some.inj hj ▸ htime
      · rw [List.getElem?_set_ne (Ne.symm hji)] at hj
        refine absurd ((hk j).mp ?_) hji
        rw [owners, List.getElem?_map, hj, ← hv']
        rfl
    · rw [(hmore v hv).1] at hv'
      cases hv'
  · intro hidle
    rw [hstarted, hrunning] at hidle
    cases hidle
  · intro _
    rw [howners, hrefreshes]
    exact ⟨i, fun j => (ticker_append (by simp) j).trans (hk j)⟩
  · rw [howners, hrefreshes, List.count_append, h.refreshes, List.count_replicate_self, hcount]

theorem timely_start (h : l.Timely settings log) (hidle : l.started = false)
    (cancelled : Bool) : Timely settings { l with
      session := { l.session with
        run := .start l.session.run.link l.session.run.handler cancelled }
      started := true
      cancelled
      threads := l.threads ++ [.resting .loop, .resting .ticker] } log := by
  obtain ⟨hnone, rfl, hlast⟩ := h.idle hidle
  have howners : (l.threads ++ [Thread.resting .loop, .resting .ticker]).map Thread.owner =
      l.owners ++ [.loop, .ticker] := List.map_append
  refine ⟨⟨h.follows.autoRefresh, h.follows.radio⟩, ?_, ?_, nofun, fun _ => ?_, ?_⟩
  · intro t ht ht'
    rcases List.mem_append.mp ht with ht | ht
    · exact h.others t ht ht'
    · rcases List.mem_pair.mp ht with rfl | rfl <;> trivial
  · intro t ht ht'
    rcases List.mem_append.mp ht with ht | ht
    · exact absurd (ht' ▸ List.mem_map_of_mem ht) hnone
    · rcases List.mem_pair.mp ht with rfl | rfl
      · cases ht'
      · exact ⟨.rests .nil hlast, rfl⟩
  · refine ⟨l.owners.length + 1, fun j => ?_⟩
    rw [owners, howners, List.getElem?_append]
    split
    case isTrue hlt =>
      exact ⟨fun hget => absurd (List.mem_of_getElem? hget) hnone, fun hj => by omega⟩
    case isFalse hle =>
      obtain ⟨k, rfl⟩ := Nat.exists_eq_add_of_le (Nat.le_of_not_lt hle)
      rw [Nat.add_sub_cancel_left]
      rcases k with _ | _ | k <;> simp
  · rw [owners, howners, List.count_append, h.refreshes]
    rfl

theorem timely_act (h : l.Timely settings log) (hi : l.threads[i]? = some t) {b : Beat Bool}
    (hacting : Acting now (l.isCancelled t) l.session t.work b) :
    (l.beat i t b).1.Timely settings (l.record log (.act i now)) := by
  have hmem := List.mem_of_getElem? hi
  by_cases howner : t.owner = .ticker
  · obtain ⟨htime, hfollows⟩ := (h.inTime t hmem howner).act rfl h.follows hacting
    have hrecord : l.record log (.act i now) =
        if t.work.looks then { log with looks := { now, found := l.session } :: log.looks }
        else log := by
      simp [record, hi, howner]
    rw [hrecord]
    refine h.goesOn hi howner ?_ (List.append_nil _).symm (List.forall_mem_nil _) rfl hfollows
      htime ?_
    · exact howner
    · split <;> rfl
  · have hrecord : l.record log (.act i now) = log := by
      simp [record, hi, howner]
    rw [hrecord]
    have hwithin := h.others t hmem howner
    exact h.put hi rfl rfl (fun hticker => absurd hticker howner)
      (fun _ => hacting.within hwithin) (hacting.steady hwithin) rfl

theorem timely_answer (h : l.Timely settings log) (hi : l.threads[i]? = some t) {b : Beat Bool}
    (hanswering : Answering now (l.isCancelled t) l.session t.work a b) :
    (l.beat i t b).1.Timely settings log := by
  have hmem := List.mem_of_getElem? hi
  have hother : t.owner ≠ .ticker := fun howner =>
    (h.inTime t hmem howner).stands.not_answering hanswering
  exact h.put hi rfl rfl (fun howner => absurd howner hother)
    (fun _ => hanswering.within (h.others t hmem hother)) hanswering.steady rfl

theorem timely_step (h : l.Timely settings log) (hstep : Step l m next entries) :
    next.Timely settings (l.record log m) := by
  cases hstep with
  | start cancelled hidle => exact timely_start h hidle cancelled
  | close | cancel => exact ⟨h.follows, h.others, h.inTime, h.idle, h.single, h.refreshes⟩
  | commission c =>
    exact h.spawn rfl nofun nofun (steady_commission c) ⟨rfl, rfl, rfl⟩ rfl
  | giveUp hi howner =>
    exact h.put hi rfl rfl (fun _ => rfl) (h.others _ (List.mem_of_getElem? hi)) ⟨rfl, rfl, rfl⟩ rfl
  | act hi hacting => exact timely_act h hi hacting
  | answer hi _ hanswering => exact timely_answer h hi hanswering
  | hear hi howner =>
    refine h.put hi rfl rfl (fun hticker => ?_) (fun _ => steady_carryAll _) ⟨rfl, rfl, rfl⟩ rfl
    rw [howner] at hticker
    cases hticker
  | due => exact h.spawn rfl nofun nofun steady_reconcile.quietly ⟨rfl, rfl, rfl⟩ rfl
  | tick hi howner _ hrests =>
    obtain ⟨hstands, hbegun⟩ := h.inTime _ (List.mem_of_getElem? hi) howner
    obtain ⟨hpaced, hlast⟩ := hstands.paced hrests
    rw [looks_of_outcome (by simp [hrests])] at hbegun
    refine h.goesOn hi howner ?_ (List.append_nil _).symm (List.forall_mem_nil _) rfl h.follows
      ⟨.begins hpaced hlast, congrArg (· + 1) hbegun⟩ rfl
    exact howner
  | refresh hi howner _ hwants =>
    obtain ⟨hstands, hbegun⟩ := h.inTime _ (List.mem_of_getElem? hi) howner
    obtain ⟨t, earlier, hlooks, hstarted, hlast, hpaced⟩ := hstands.refreshed hwants
    rw [looks_of_outcome (by simp [hwants]), hlooks] at hbegun
    have hrecord (i : Nat) : l.record log (.refresh i) =
        { log with looks := { t with started := true } :: earlier } := by
      rw [record, hlooks]
      rfl
    rw [hrecord]
    refine h.goesOn hi howner rfl rfl ?_ rfl h.follows ⟨.rests hpaced ?_, hbegun⟩ ?_
    · exact List.forall_mem_singleton.mpr ⟨rfl, steady_autoRefresh.quietly⟩
    · exact hlast.trans (lastStart?_started (t := { t with started := true }) rfl).symm
    · simp [hlooks, hstarted]
  | leave hi _ _ hleave =>
    have hmem := List.mem_of_getElem? hi
    cases hleave <;>
      exact h.put hi rfl rfl (fun _ => rfl) (h.others _ hmem) ⟨rfl, rfl, rfl⟩ rfl

theorem timely_after (client : Rest.Client) (url : Text) (settings : Settings)
    (moves : List Move) : ((of client url settings).after moves).Timely settings
      ((of client url settings).ticking {} moves) :=
  ticking_keeps (P := fun l log => l.Timely settings log)
    (fun _ _ _ _ _ h hstep => timely_step h hstep) moves _ {} (timely_of client url settings)

-- ---------------------------------------------------------------------------
-- What ticks have started
-- ---------------------------------------------------------------------------

/-- No tick is under way. -/
def BetweenTicks (l : Live) : Prop :=
  ∀ t ∈ l.threads, t.owner = .ticker → t.work.outcome? = some false

theorem Timely.ticker (h : l.Timely settings log) (hrunning : l.started = true) :
    ∃ t ∈ l.threads, t.owner = .ticker ∧ InTime settings log l.session.lastAutoRefresh t.work := by
  obtain ⟨i, hi⟩ := h.single hrunning
  have hget := (hi i).mpr rfl
  rw [owners, List.getElem?_map, Option.map_eq_some_iff] at hget
  obtain ⟨ticker, hticker, howner⟩ := hget
  have hmem := List.mem_of_getElem? hticker
  exact ⟨ticker, hmem, howner, h.inTime ticker hmem howner⟩

theorem Timely.paced (h : l.Timely settings log) :
    Paced settings log.looks ∨ ∃ t earlier, log.looks = t :: earlier ∧ t.started = false ∧
      Paced settings earlier ∧ ¬ l.BetweenTicks := by
  cases hrunning : l.started with
  | false =>
    obtain ⟨-, rfl, -⟩ := h.idle hrunning
    exact .inl .nil
  | true =>
    obtain ⟨ticker, hmem, howner, hstands, -⟩ := h.ticker hrunning
    refine hstands.cases.imp_right ?_
    rintro ⟨t, earlier, heq, hstarted, hpaced, houtcome⟩
    exact ⟨t, earlier, heq, hstarted, hpaced, fun hrests => houtcome (hrests ticker hmem howner)⟩

/-- How ticks and refreshes go together. -/
structure Regular (settings : Settings) (l : Live) (log : TickLog) : Prop where
  /-- Every tick looks at the session, once. -/
  looks : log.looks.length ≤ log.begun ∧ log.begun ≤ log.looks.length + 1 ∧
    (l.BetweenTicks → log.begun = log.looks.length)
  due {later earlier : List Tick} {t : Tick} : log.looks = later ++ t :: earlier →
    t.started = true → t.Due settings earlier
  /-- A tick that is over has started what it is to start. -/
  starts {later earlier : List Tick} {t : Tick} : log.looks = later ++ t :: earlier →
    later ≠ [] ∨ l.BetweenTicks → t.Due settings earlier → t.started = true
  apart : (log.looks.filter Tick.started).Pairwise (Apart settings)
  refreshes : l.owners.count .refresh = log.looks.countP Tick.started

theorem Timely.looks (h : l.Timely settings log) :
    log.looks.length ≤ log.begun ∧ log.begun ≤ log.looks.length + 1 ∧
      (l.BetweenTicks → log.begun = log.looks.length) := by
  cases hrunning : l.started with
  | false =>
    obtain ⟨-, rfl, -⟩ := h.idle hrunning
    exact ⟨Nat.le_refl 0, Nat.zero_le 1, fun _ => rfl⟩
  | true =>
    obtain ⟨ticker, hmem, howner, -, hbegun⟩ := h.ticker hrunning
    refine ⟨by omega, ?_, fun hrests => ?_⟩
    · rw [hbegun]
      split <;> simp
    · rw [looks_of_outcome (by simp [hrests ticker hmem howner])] at hbegun
      exact hbegun

theorem Timely.regular (h : l.Timely settings log) : l.Regular settings log := by
  rcases h.paced with hpaced | ⟨newest, rest, hlooks, hstarted, hpaced, hunder⟩
  · refine ⟨h.looks, fun heq => ?_, fun heq _ => ?_, hpaced.apart, h.refreshes⟩
    · exact (heq ▸ hpaced).of_append.1.mp
    · exact (heq ▸ hpaced).of_append.1.mpr
  · refine ⟨h.looks, fun {later _ _} heq hstart => ?_, fun {later _ _} heq hover => ?_, ?_,
      h.refreshes⟩
    · rw [hlooks] at heq
      cases later with
      | nil =>
        obtain ⟨rfl, -⟩ := List.cons.inj heq
        rw [hstarted] at hstart
        cases hstart
      | cons _ later =>
        obtain ⟨-, rfl⟩ := List.cons.inj heq
        exact hpaced.of_append.1.mp hstart
    · rw [hlooks] at heq
      cases later with
      | nil => exact absurd (hover.resolve_left (fun hne => hne rfl)) hunder
      | cons _ later =>
        obtain ⟨-, rfl⟩ := List.cons.inj heq
        exact hpaced.of_append.1.mpr
    · rw [hlooks, List.filter_cons_of_neg (by simp [hstarted])]
      exact hpaced.apart

end

end Live

end MeshConsole.Session
