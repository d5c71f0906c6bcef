import MeshConsole.Proofs.Job.Traced
import MeshConsole.Proofs.Session.Upkeep

/-!
# Which device list is announced last

A session stores a device list in one step and announces it in the next, and
other threads may come in between. `last_announced`: as soon as every list
that was stored has been announced, the list that was announced last is the
session's, unless the session's list was stored while the thread that
announced last was between its two steps (`refresh_overtaken`).
-/

namespace MeshConsole.Session

open Telemetry (Note)

def Deed.announces? : Deed → Option (List Device)
  | .noted (.publish (.devices devices)) => some devices
  | _ => none

def announcements (seen : List Entry) : List (List Device) :=
  seen.filterMap fun e => e.deed.announces?

theorem announcements_append (seen more : List Entry) :
    announcements (seen ++ more) = announcements seen ++ announcements more :=
  List.filterMap_append

theorem announcements_eq_nil {seen : List Entry} (h : ∀ e ∈ seen, e.deed.announces? = none) :
    announcements seen = [] := List.filterMap_eq_nil_iff.mpr h

-- ---------------------------------------------------------------------------
-- One step of a thread
-- ---------------------------------------------------------------------------

/-- The device list that has been stored and is announced next. -/
def Work.owes? : Work α → Option (List Device)
  | .acting (.note (.publish (.devices devices)) _) => some devices
  | _ => none

theorem Conduct.owes {weight : α → Nat} (h : Conduct weight owed n a) :
    (Work.acting a).owes? = owed := by
  cases h with
  | @note entry _ next hnote =>
    cases entry with
    | log => rfl
    | publish event =>
      cases event with
      | devices => cases hnote
      | _ => rfl
  | _ => rfl

/-- What a step of a thread means for the device list, by what the thread
owes before the step and after it. -/
inductive Telling (s next : State) (deeds : List Deed) :
    Option (List Device) → Option (List Device) → Prop where
  | quiet : next.devices = s.devices → (∀ deed ∈ deeds, deed.announces? = none) →
      Telling s next deeds none none
  | stores (devices : List Device) : next.devices = devices → deeds = [.stored devices] →
      Telling s next deeds none (some devices)
  | tells (devices : List Device) : next.devices = s.devices →
      deeds = [.noted (.publish (.devices devices))] → Telling s next deeds (some devices) none

theorem announces?_need (need : Need) : ∀ deed ∈ need.deeds, deed.announces? = none := by
  intro deed hm
  cases need with
  | exchange call =>
    cases List.mem_singleton.mp hm
    rfl
  | nothing | pause => cases hm

theorem acting_telling {weight : α → Nat} (h : Acting now cancelled s w b)
    (hw : w.Conducts weight n) : Telling s b.state b.deeds w.owes? b.work.owes? := by
  cases h with
  | done value => exact .quiet rfl (List.forall_mem_nil _)
  | note entry next =>
    obtain ⟨owed, hconduct⟩ := hw
    cases hconduct with
    | note hnote hnext =>
      have hquiet := Conduct.owes (.note hnote hnext)
      rw [hquiet, hnext.owes]
      refine .quiet rfl fun deed hm => ?_
      cases List.mem_singleton.mp hm
      cases entry with
      | log => rfl
      | publish event =>
        cases event with
        | devices => cases hnote
        | _ => rfl
    | tells hnext =>
      rw [hnext.owes]
      exact .tells _ rfl rfl
  | store change next =>
    obtain ⟨owed, hconduct⟩ := hw
    cases hconduct with
    | keeps hkeep hnext =>
      rw [hnext.owes]
      refine .quiet (hkeep s).2 fun deed hm => ?_
      cases List.mem_singleton.mp hm
      rfl
    | writes hkeep hnext =>
      rw [hnext.owes]
      exact .stores _ (hkeep s).2 (by rw [(hkeep s).2])
  | look next =>
    obtain ⟨owed, hconduct⟩ := hw
    cases hconduct with
    | look hnext =>
      rw [(hnext _).owes]
      exact .quiet rfl (List.forall_mem_nil _)
  | call question next => exact .quiet rfl (announces?_need (.exchange question))
  | refused order next hactive =>
    obtain ⟨owed, hconduct⟩ := hw
    cases hconduct with
    | job hnext =>
      rw [(hnext _).owes]
      exact .quiet rfl (List.forall_mem_nil _)
  | enters order next hfree =>
    exact .quiet rfl (announces?_need (Task.job order { ticket := order.ticket s } next).need)
  | leaves order run next hphase =>
    obtain ⟨m, hle, hnext⟩ := hw
    rw [(hnext _).owes]
    exact .quiet rfl (List.forall_mem_nil _)

theorem answering_telling {weight : α → Nat} (h : Answering now cancelled s w a b)
    (hw : w.Conducts weight n) : Telling s b.state b.deeds w.owes? b.work.owes? := by
  cases h with
  | called call next outcome =>
    obtain ⟨m, hlt, hnext⟩ := hw
    rw [(hnext _).owes]
    exact .quiet rfl (List.forall_mem_nil _)
  | @heard later notes order run next a hfits hstep =>
    have htraces := Job.traces_step run now cancelled (Task.happening run a)
    rw [hstep] at htraces
    refine .quiet rfl fun deed hm => ?_
    rcases List.mem_append.mp hm with hm | hm
    · obtain ⟨note, hnote, rfl⟩ := List.mem_map.mp hm
      cases note with
      | log => rfl
      | publish event =>
        obtain ⟨change, rfl, -⟩ := htraces event hnote
        rfl
    · exact announces?_need _ deed hm

theorem owes?_idle {w : Work α} (h : w.outcome? ≠ none) : w.owes? = none := by
  cases w with
  | acting => exact absurd rfl h
  | waiting => rfl

namespace Live

-- ---------------------------------------------------------------------------
-- One step of a session
-- ---------------------------------------------------------------------------

/-- Thread `i` has stored the list and has yet to announce it. -/
def Owes (l : Live) (i : Nat) (devices : List Device) : Prop :=
  ∃ t, l.threads[i]? = some t ∧ t.work.owes? = some devices

inductive Turns (l next : Live) (entries : List Entry) : Prop where
  | quiet : (∀ i devices, next.Owes i devices ↔ l.Owes i devices) →
      next.session.devices = l.session.devices →
      (∀ e ∈ entries, e.deed.announces? = none ∧ ∀ devices, ¬ l.Owes e.thread devices) →
      Turns l next entries
  | stores (i : Nat) (owner : Owner) (devices : List Device) :
      (∀ j d, next.Owes j d ↔ l.Owes j d ∨ j = i ∧ d = devices) → (∀ d, ¬ l.Owes i d) →
      next.session.devices = devices → entries = [⟨i, owner, .stored devices⟩] →
      Turns l next entries
  | tells (i : Nat) (owner : Owner) (devices : List Device) : l.Owes i devices →
      (∀ j d, next.Owes j d ↔ j ≠ i ∧ l.Owes j d) → next.session.devices = l.session.devices →
      entries = [⟨i, owner, .noted (.publish (.devices devices))⟩] → Turns l next entries

section
variable {l next : Live} {t u : Thread} {i : Nat}

theorem owes_get (hi : l.threads[i]? = some t) :
    l.Owes i devices ↔ t.work.owes? = some devices := by
  simp [Owes, hi]

theorem owes_set (hi : l.threads[i]? = some t) (hthreads : next.threads = l.threads.set i u) :
    next.Owes j devices ↔ if j = i then u.work.owes? = some devices else l.Owes j devices := by
  have hlt := (List.getElem?_eq_some_iff.mp hi).1
  unfold Owes
  rw [hthreads]
  by_cases hji : j = i
  · subst hji
    simp [hlt]
  · simp [hji, Ne.symm hji]

theorem turns_beat (hi : l.threads[i]? = some t) {b : Beat Bool}
    (htelling : Telling l.session b.state b.deeds t.work.owes? b.work.owes?) :
    Turns l (l.beat i t b).1 (l.beat i t b).2 := by
  have hset : ∀ j devices, (l.beat i t b).1.Owes j devices ↔
      if j = i then b.work.owes? = some devices else l.Owes j devices :=
    fun j devices => owes_set (u := { t with work := b.work }) hi rfl
  have hold : ∀ devices, l.Owes i devices ↔ t.work.owes? = some devices :=
    fun devices => owes_get hi
  generalize hbefore : t.work.owes? = before at htelling hold
  generalize hafter : b.work.owes? = after at htelling hset
  cases htelling with
  | quiet hdevices hdeeds =>
    refine .quiet (fun j devices => ?_) hdevices fun e he => ?_
    · rw [hset]
      by_cases hji : j = i
      · subst hji
        simp [hold]
      · simp [hji]
    · obtain ⟨deed, hm, rfl⟩ := List.mem_map.mp he
      exact ⟨hdeeds deed hm, fun devices howes => nomatch (hold devices).mp howes⟩
  | stores devices hdevices hdeeds =>
    refine .stores i t.owner devices (fun j d => ?_) (fun d howes => nomatch (hold d).mp howes)
      hdevices (by rw [beat, hdeeds]; rfl)
    rw [hset]
    by_cases hji : j = i
    · subst hji
      simp [hold, eq_comm]
    · simp [hji]
  | tells devices hdevices hdeeds =>
    refine .tells i t.owner devices ((hold devices).mpr rfl) (fun j d => ?_) hdevices
      (by rw [beat, hdeeds]; rfl)
    rw [hset]
    by_cases hji : j = i <;> simp [hji]

end

theorem holding_owes : Holding Work.owes? where
  ended _ h := owes?_idle h
  begun h := h.owes

theorem owes_held {l : Live} : l.Owes i devices ↔ (l.held Work.owes?)[i]? = some (some devices) := by
  simp [Owes, held]

theorem step_turns {l next : Live} (hs : l.Sound) (h : Step l m next entries) :
    Turns l next entries := by
  cases step_shifts holding_owes hs h with
  | still k hheld hdevices =>
    refine .quiet (fun i devices => ?_) hdevices (List.forall_mem_nil _)
    rw [owes_held, owes_held, hheld, List.getElem?_append]
    split
    · rfl
    · rename_i hle
      simp [List.getElem?_replicate, List.getElem?_eq_none (Nat.le_of_not_lt hle)]
  | acts hi hn hacting => exact turns_beat hi (acting_telling hacting hn)
  | answers hi hn hanswering => exact turns_beat hi (answering_telling hanswering hn)

-- ---------------------------------------------------------------------------
-- All that was seen
-- ---------------------------------------------------------------------------

/-- Thread `i` stored the list, and has done nothing since. The session still
has that list, unless another thread has stored the session's list since. -/
inductive Stored (seen : List Entry) (i : Nat) (devices shown : List Device) : Prop where
  | mk (before : List Entry) (owner : Owner) (since : List Entry) :
      seen = before ++ ⟨i, owner, .stored devices⟩ :: since → (∀ e ∈ since, e.thread ≠ i) →
      (shown = devices ∨ ∃ e ∈ since, e.deed = .stored shown) → Stored seen i devices shown

/-- Between the two steps of the thread that announced the list `told` last,
another thread stored the list `shown`. -/
inductive Overtaken (seen : List Entry) (told shown : List Device) : Prop where
  | mk (before : List Entry) (i : Nat) (owner later : Owner) (between after : List Entry) :
      seen = before ++ ⟨i, owner, .stored told⟩ ::
        (between ++ ⟨i, later, .noted (.publish (.devices told))⟩ :: after) →
      (∀ e ∈ between, e.thread ≠ i) → (∃ e ∈ between, e.deed = .stored shown) →
      announcements after = [] → Overtaken seen told shown

/-- What was announced last, against the session's list. -/
inductive Told (seen : List Entry) (shown : List Device) : Prop where
  | nothing : announcements seen = [] → shown = [] → Told seen shown
  | last : (announcements seen).getLast? = some told → shown = told ∨ Overtaken seen told shown →
      Told seen shown

theorem Stored.append (h : Stored seen i devices shown) (hmore : ∀ e ∈ more, e.thread ≠ i)
    (hshown : next = shown ∨ ∃ e ∈ more, e.deed = .stored next) :
    Stored (seen ++ more) i devices next := by
  obtain ⟨before, owner, since, rfl, hsince, hstored⟩ := h
  refine ⟨before, owner, since ++ more, by simp, List.forall_mem_append.mpr ⟨hsince, hmore⟩, ?_⟩
  rcases hshown with rfl | ⟨e, he, hdeed⟩
  · refine hstored.imp_right fun ⟨e, he, hdeed⟩ => ⟨e, List.mem_append_left _ he, hdeed⟩
  · exact .inr ⟨e, List.mem_append_right _ he, hdeed⟩

theorem Stored.told (h : Stored seen i devices shown) (owner : Owner) :
    Told (seen ++ [⟨i, owner, .noted (.publish (.devices devices))⟩]) shown := by
  have hlast (entry : Entry) (he : announcements [entry] = [devices]) :
      (announcements (seen ++ [entry])).getLast? = some devices := by
    rw [announcements_append, he, List.getLast?_concat]
  refine .last (hlast _ rfl) ?_
  obtain ⟨before, first, since, rfl, hsince, hstored⟩ := h
  rcases hstored with heq | hstored
  · exact .inl heq
  · exact .inr ⟨before, i, first, owner, since, [], by simp, hsince, hstored, rfl⟩

/-- Nothing is announced, and the session keeps its list. -/
theorem Told.append (h : Told seen shown) (hmore : announcements more = []) :
    Told (seen ++ more) shown := by
  cases h with
  | nothing hnone hshown => exact .nothing (by rw [announcements_append, hnone, hmore]; rfl) hshown
  | last hlast hshown =>
    refine .last (by rw [announcements_append, hmore, List.append_nil]; exact hlast) ?_
    refine hshown.imp_right fun hovertaken => ?_
    obtain ⟨before, i, owner, later, between, after, rfl, hbetween, hstored, hafter⟩ := hovertaken
    refine ⟨before, i, owner, later, between, after ++ more, by simp, hbetween, hstored, ?_⟩
    rw [announcements_append, hafter, hmore]
    rfl

structure Announced (l : Live) (seen : List Entry) : Prop where
  stored : ∀ i devices, l.Owes i devices → Stored seen i devices l.session.devices
  told : (∃ i devices, l.Owes i devices) ∨ Told seen l.session.devices

theorem Turns.announced {l next : Live} (h : Turns l next entries) (ha : l.Announced seen) :
    next.Announced (seen ++ entries) := by
  cases h with
  | quiet howes hdevices hentries =>
    refine ⟨fun i devices hi => ?_, ?_⟩
    · rw [hdevices]
      have hi := (howes i devices).mp hi
      refine (ha.stored i devices hi).append (fun e he heq => ?_) (.inl rfl)
      exact (hentries e he).2 devices (heq ▸ hi)
    · simp only [howes, hdevices]
      exact ha.told.imp_right fun ht =>
        ht.append (announcements_eq_nil fun e he => (hentries e he).1)
  | stores i owner devices howes hfree hdevices hentries =>
    subst hentries
    refine ⟨fun j d hj => ?_, .inl ⟨i, devices, (howes i devices).mpr (.inr ⟨rfl, rfl⟩)⟩⟩
    rw [hdevices]
    rcases (howes j d).mp hj with hj | ⟨rfl, rfl⟩
    · refine (ha.stored j d hj).append (fun e he => ?_)
        (.inr ⟨_, List.mem_singleton_self _, rfl⟩)
      rw [List.mem_singleton.mp he]
      rintro rfl
      exact hfree d hj
    · exact ⟨seen, owner, [], rfl, List.forall_mem_nil _, .inl rfl⟩
  | tells i owner devices hi howes hdevices hentries =>
    -- What the thread did not see since it stored is what may overtake it.
    subst hentries
    refine ⟨fun j d hj => ?_, .inr ?_⟩
    · rw [hdevices]
      obtain ⟨hne, hj⟩ := (howes j d).mp hj
      refine (ha.stored j d hj).append (fun e he => ?_) (.inl rfl)
      rw [List.mem_singleton.mp he]
      exact Ne.symm hne
    · rw [hdevices]
      exact (ha.stored i devices hi).told owner

theorem announced_after (client : Rest.Client) (url : Text) (settings : Settings)
    (moves : List Move) : ((of client url settings).after moves).Announced
      ((of client url settings).deeds moves) := by
  have hfirst : (of client url settings).Announced [] := by
    refine ⟨fun i devices hi => ?_, .inr (.nothing rfl rfl)⟩
    obtain ⟨t, ht, -⟩ := hi
    cases ht
  have hrun := run_keeps (P := fun l seen => l.Sound ∧ l.Announced seen)
    (fun l seen m next entries h hstep =>
      ⟨sound_step h.1 hstep, (step_turns h.1 hstep).announced h.2⟩)
    moves _ [] ⟨sound_of client url settings, hfirst⟩
  exact hrun.2

/-- Any session, when no thread has yet to announce what it has stored, as
none has that has come to its end. -/
theorem last_announced (client : Rest.Client) (url : Text) (settings : Settings)
    (moves : List Move)
    (h : ∀ t ∈ ((of client url settings).after moves).threads, t.work.owes? = none) :
    Told ((of client url settings).deeds moves)
      ((of client url settings).after moves).session.devices := by
  refine (announced_after client url settings moves).told.resolve_left ?_
  rintro ⟨i, devices, t, ht, howes⟩
  rw [h t (List.mem_of_getElem? ht)] at howes
  cases howes

/-- A caller pulls the status, which lists a lamp. Once its list is stored
the link pushes that there is no device, and the caller goes on. -/
def overtaking : List Move :=
  let status : Text :=
    "\x7b\"status\":\"ok\",\"data\":\x7b\"devices\":[\x7b\"short_addr\":4097\x7d]\x7d\x7d"
  let push : Text := "\x7b\"type\":\"devices_delta\",\"seq\":1,\"data\":\x7b\"devices\":[]\x7d\x7d"
  [.start false, .hear 0 1 .dialed, .act 0 1, .act 0 1, .act 0 1,
    .commission (.errand .refreshStatus), .act 2 2,
    .answer 2 3 (.exchanged (.ok ("/status", { body := status }))), .act 2 3, .act 2 3,
    .hear 0 4 (.frame push), .act 0 4, .act 0 4, .act 0 4, .act 0 4,
    .act 2 5, .act 2 5]

theorem told_overtaking :
    (∀ t ∈ (labSession.after overtaking).threads, t.work.owes? = none) ∧
      Told (labSession.deeds overtaking) (labSession.after overtaking).session.devices := by
  have hall : ∀ t ∈ (labSession.after overtaking).threads, t.work.owes? = none := by
    decide +kernel
  exact ⟨hall, last_announced _ _ _ overtaking hall⟩

/-- Every thread has come to its end, listeners were told of the lamp last,
and the session has no device. -/
theorem refresh_overtaken :
    (∀ t ∈ (labSession.after overtaking).threads, t.work.outcome? ≠ none) ∧
      (announcements (labSession.deeds overtaking)).getLast? = some [{ addr := 0x1001 }] ∧
      (labSession.after overtaking).session.devices = [] := by
  refine ⟨by decide +kernel, by decide +kernel, by decide +kernel⟩

end Live

end MeshConsole.Session
