import MeshConsole.Job.Call

/-!
# At most one outstanding job per type

`exclusive_after`: any number of calls enter at one desk, hear of their jobs
and leave in any order. In every state this leads to, no two calls hold the
same type, a type is active exactly while a call holds it, a call is refused
exactly while another holds its type, and a refused call changes nothing.
Entering and leaving are atomic at the desk.
-/

namespace MeshConsole.Job

open Telemetry (Note)

/-- Calls at one desk, numbered in the order in which they entered. -/
structure Floor where
  desk : Desk Text := {}
  calls : List Call := []

inductive Move where
  | enter (ticket : Ticket)
  | hear (caller : Nat) (m : Moment)
  | leave (caller : Nat)

/-- What a call that finds its type held returns. -/
def Call.refused (ticket : Ticket) : Call :=
  .returned (.error (.within ticket.type .jobInProgress))

/-- The type that a call holds, from its registration to its return. -/
def Call.holds? : Call → Option Text
  | .registered run => some run.ticket.type
  | .returned _ => none

namespace Floor

def step (f : Floor) : Move → Floor × List Note
  | .enter ticket =>
    let (desk, call) := Call.enter f.desk ticket
    ({ desk, calls := f.calls ++ [call] }, [])
  | .hear i m =>
    match f.calls[i]? with
    | none => (f, [])
    | some call =>
      let (call, notes) := call.hear m
      ({ f with calls := f.calls.set i call }, notes)
  | .leave i =>
    match f.calls[i]? with
    | none => (f, [])
    | some call =>
      let (desk, call) := call.leave f.desk
      ({ desk, calls := f.calls.set i call }, [])

/-- The floor after any moves, from an empty one on. -/
def after (moves : List Move) : Floor := moves.foldl (fun f move => (f.step move).1) {}

/-- Call `i` is registered and of this type. -/
def Holds (f : Floor) (i : Nat) (type : Text) : Prop :=
  f.calls[i]?.bind Call.holds? = some type

end Floor

-- ---------------------------------------------------------------------------
-- One call
-- ---------------------------------------------------------------------------

/-- A call whose run has not ended does not leave. -/
theorem leave_cases (desk : Desk Text) (call : Call) :
    call.leave desk = (desk, call) ∨
    ∃ run result, call = .registered run ∧ run.phase = .ended result := by
  cases call with
  | returned => exact .inl rfl
  | registered run =>
    cases hp : run.phase with
    | ended result => exact .inr ⟨run, result, rfl, hp⟩
    | _ => exact .inl (by simp [Call.leave, hp])

theorem onSubmitted_ticket (run : Run) : (run.onSubmitted now answer).1.ticket = run.ticket := by
  unfold Run.onSubmitted
  cases answer with
  | error => rfl
  | ok receipt => by_cases hid : receipt.id ≤ 0 <;> simp [hid, Run.finish]

theorem onPolled_ticket (run : Run) :
    (run.onPolled now cancelled job answer).1.ticket = run.ticket := by
  unfold Run.onPolled
  cases answer with
  | error => rfl
  | ok report =>
    by_cases hs : report.state = succeeded
    · simp [hs, Run.finish]
    · by_cases hf : report.state = failed ∨ report.done = true
      · simp [hs, hf, Run.finish]
      · simp only [hs, hf, if_false]
        split <;> rfl

theorem step_ticket (run : Run) (h : Happening) :
    (run.step now cancelled h).1.ticket = run.ticket := by
  unfold Run.step
  split
  · exact onSubmitted_ticket run
  · exact onPolled_ticket run
  · rfl
  · rfl
  · rfl

/-- Whatever a call hears, it keeps its type. -/
theorem hear_holds? (call : Call) (m : Moment) : (call.hear m).1.holds? = call.holds? := by
  cases call with
  | returned => rfl
  | registered run => exact congrArg (fun t : Ticket => some t.type) (step_ticket run m.happening)

-- ---------------------------------------------------------------------------
-- One move
-- ---------------------------------------------------------------------------

namespace Floor

/-- The desk knows exactly the types that calls hold, each held by one call. -/
structure Sound (f : Floor) : Prop where
  active_iff : ∀ type, f.desk.isActive type = true ↔ ∃ i, f.Holds i type
  unique : ∀ i j type, f.Holds i type → f.Holds j type → i = j

theorem Sound.of_same {f g : Floor} (hs : f.Sound) (hdesk : g.desk = f.desk)
    (hsame : ∀ i type, g.Holds i type ↔ f.Holds i type) : g.Sound where
  active_iff type := by
    simp only [hdesk, hsame]
    exact hs.active_iff type
  unique i j type hi hj := hs.unique i j type ((hsame i type).mp hi) ((hsame j type).mp hj)

theorem holds_append {f : Floor} {d : Desk Text} :
    Holds { desk := d, calls := f.calls ++ [call] } i type ↔
      f.Holds i type ∨ i = f.calls.length ∧ call.holds? = some type := by
  unfold Holds
  rcases Nat.lt_trichotomy i f.calls.length with hlt | heq | hgt
  · simp [List.getElem?_append_left hlt, Nat.ne_of_lt hlt]
  · subst heq
    simp
  · simp [List.getElem?_append_right (Nat.le_of_lt hgt), Nat.le_of_lt hgt, Nat.ne_of_gt hgt,
      Nat.sub_ne_zero_of_lt hgt]

theorem holds_set {f : Floor} {d : Desk Text} (hi : f.calls[i]? = some old) :
    Holds { desk := d, calls := f.calls.set i call } j type ↔
      if j = i then call.holds? = some type else f.Holds j type := by
  have hlt : i < f.calls.length := (List.getElem?_eq_some_iff.mp hi).1
  unfold Holds
  by_cases hji : j = i
  · subst hji
    simp [hlt]
  · simp [hji, Ne.symm hji]

theorem set_same {items : List α} (hi : items[i]? = some item) : items.set i item = items := by
  obtain ⟨hlt, rfl⟩ := List.getElem?_eq_some_iff.mp hi
  exact List.set_getElem_self hlt

theorem step_enter_held {f : Floor} (h : f.desk.isActive ticket.type = true) :
    f.step (.enter ticket) = ({ f with calls := f.calls ++ [.refused ticket] }, []) := by
  simp [step, Call.enter, Desk.register?, h, Call.refused]

theorem step_enter_free {f : Floor} (h : f.desk.isActive ticket.type = false) :
    f.step (.enter ticket) =
      ({ desk := { held := ticket.type :: f.desk.held }
         calls := f.calls ++ [.registered { ticket }] }, []) := by
  simp [step, Call.enter, Desk.register?, h]

theorem sound_refused {f : Floor} (hs : f.Sound) (ticket : Ticket) :
    Sound { f with calls := f.calls ++ [.refused ticket] } := by
  refine hs.of_same rfl ?_
  intro i type
  rw [holds_append]
  simp [Call.refused, Call.holds?]

/-- Call `i` takes a type that is free. -/
theorem Sound.takes {f g : Floor} (hs : f.Sound) (hfree : f.desk.isActive type = false)
    (hdesk : g.desk = { held := type :: f.desk.held })
    (hholds : ∀ j other, g.Holds j other ↔ f.Holds j other ∨ j = i ∧ other = type) : g.Sound := by
  -- No call held the type before, so call `i` is the only one.
  have hnone : ∀ j, ¬ f.Holds j type := by
    intro j hj
    rw [(hs.active_iff type).mpr ⟨j, hj⟩] at hfree
    cases hfree
  refine ⟨?_, ?_⟩
  · intro other
    have hactive : g.desk.isActive other = true ↔
        other = type ∨ f.desk.isActive other = true := by
      rw [hdesk]
      simp [Desk.isActive]
    rw [hactive, hs.active_iff]
    simp only [hholds, exists_or]
    constructor
    · rintro (rfl | h)
      · exact .inr ⟨_, rfl, rfl⟩
      · exact .inl h
    · rintro (h | ⟨_, _, rfl⟩)
      · exact .inr h
      · exact .inl rfl
  · intro j k other hj hk
    rw [hholds] at hj hk
    rcases hj with hj | ⟨rfl, rfl⟩ <;> rcases hk with hk | ⟨rfl, hother⟩
    · exact hs.unique j k other hj hk
    · exact absurd (hother ▸ hj) (hnone j)
    · exact absurd hk (hnone k)
    · rfl

theorem sound_registered {f : Floor} (hs : f.Sound)
    (hfree : f.desk.isActive ticket.type = false) :
    Sound { desk := { held := ticket.type :: f.desk.held }
            calls := f.calls ++ [.registered { ticket }] } := by
  refine hs.takes (i := f.calls.length) hfree rfl fun j other => ?_
  rw [holds_append]
  simp only [Call.holds?, Option.some.injEq, eq_comm (a := other)]

theorem sound_enter {f : Floor} (hs : f.Sound) (ticket : Ticket) :
    (f.step (.enter ticket)).1.Sound := by
  cases h : f.desk.isActive ticket.type with
  | true =>
    rw [step_enter_held h]
    exact sound_refused hs ticket
  | false =>
    rw [step_enter_free h]
    exact sound_registered hs h

theorem sound_hear {f : Floor} (hs : f.Sound) (i : Nat) (m : Moment) :
    (f.step (.hear i m)).1.Sound := by
  cases hi : f.calls[i]? with
  | none => simpa [step, hi] using hs
  | some call =>
    refine hs.of_same (by simp [step, hi]) ?_
    intro j type
    simp only [step, hi]
    rw [holds_set hi, hear_holds?]
    by_cases hji : j = i
    · subst hji
      simp [Holds, hi]
    · simp [hji]

theorem step_leave_ended {f : Floor} (hi : f.calls[i]? = some (.registered run))
    (hp : run.phase = .ended result) :
    f.step (.leave i) =
      ({ desk := f.desk.release run.ticket.type
         calls := f.calls.set i (.returned result) }, []) := by
  simp [step, hi, Call.leave, hp]

theorem sound_released {f : Floor} (hs : f.Sound) (hi : f.calls[i]? = some (.registered run)) :
    Sound { desk := f.desk.release run.ticket.type
            calls := f.calls.set i (.returned result) } := by
  have hown : f.Holds i run.ticket.type := by simp [Holds, hi, Call.holds?]
  have hrest : ∀ j type, Holds { desk := f.desk.release run.ticket.type
                                 calls := f.calls.set i (.returned result) } j type ↔
      j ≠ i ∧ f.Holds j type := by
    intro j type
    rw [holds_set hi]
    by_cases hji : j = i <;> simp [hji, Call.holds?]
  refine ⟨?_, ?_⟩
  · intro type
    rw [Desk.isActive_release, Bool.and_eq_true, decide_eq_true_eq, hs.active_iff]
    simp only [hrest]
    constructor
    · rintro ⟨hne, j, hj⟩
      refine ⟨j, ?_, hj⟩
      rintro rfl
      exact hne (Option.some.inj (hj.symm.trans hown))
    · -- Another call cannot hold the type that is given back.
      rintro ⟨j, hne, hj⟩
      refine ⟨?_, j, hj⟩
      rintro rfl
      exact hne (hs.unique j i _ hj hown)
  · intro j k type hj hk
    exact hs.unique j k type ((hrest j type).mp hj).2 ((hrest k type).mp hk).2

theorem sound_leave {f : Floor} (hs : f.Sound) (i : Nat) : (f.step (.leave i)).1.Sound := by
  cases hi : f.calls[i]? with
  | none => simpa [step, hi] using hs
  | some call =>
    rcases leave_cases f.desk call with hsame | ⟨run, result, rfl, hp⟩
    · have hstep : (f.step (.leave i)).1 = f := by simp [step, hi, hsame, set_same hi]
      rwa [hstep]
    · rw [step_leave_ended hi hp]
      exact sound_released hs hi

theorem sound_step {f : Floor} (hs : f.Sound) (move : Move) : (f.step move).1.Sound := by
  cases move with
  | enter ticket => exact sound_enter hs ticket
  | hear i m => exact sound_hear hs i m
  | leave i => exact sound_leave hs i

theorem sound_foldl {f : Floor} (hs : f.Sound) (moves : List Move) :
    (moves.foldl (fun f move => (f.step move).1) f).Sound := by
  induction moves generalizing f with
  | nil => exact hs
  | cons move rest ih => exact ih (sound_step hs move)

theorem sound_after (moves : List Move) : (after moves).Sound := by
  refine sound_foldl ⟨?_, ?_⟩ moves
  · simp [Desk.isActive, Holds]
  · simp [Holds]

-- ---------------------------------------------------------------------------
-- Any moves
-- ---------------------------------------------------------------------------

/-- What holds at the desk at any time. -/
structure Exclusive (f : Floor) : Prop where
  unique : ∀ i j type, f.Holds i type → f.Holds j type → i = j
  active_iff : ∀ type, f.desk.isActive type = true ↔ ∃ i, f.Holds i type
  refused_iff : ∀ ticket, (f.step (.enter ticket)).1.calls[f.calls.length]? =
    some (.refused ticket) ↔ ∃ i, f.Holds i ticket.type
  /-- A refusal publishes nothing and leaves the desk and all other calls as
  they were. -/
  refused : ∀ ticket i, f.Holds i ticket.type →
    f.step (.enter ticket) = ({ f with calls := f.calls ++ [.refused ticket] }, [])
  /-- A call that has returned, as a refused one has from the start, asks
  for nothing and changes nothing any more. -/
  returned : ∀ i result, f.calls[i]? = some (.returned result) →
    (Call.returned result).need = .nothing ∧ (∀ m, f.step (.hear i m) = (f, [])) ∧
      f.step (.leave i) = (f, [])
  /-- However a run has ended, its call gives the type back as it returns. -/
  leaves : ∀ i run result, f.calls[i]? = some (.registered run) → run.phase = .ended result →
    (f.step (.leave i)).1.calls[i]? = some (.returned result) ∧
      (f.step (.leave i)).1.desk.isActive run.ticket.type = false
  empty : (∀ call ∈ f.calls, ∃ result, call = .returned result) → f.desk.held = []

theorem Sound.refused_iff {f : Floor} (hs : f.Sound) (ticket : Ticket) :
    (f.step (.enter ticket)).1.calls[f.calls.length]? = some (.refused ticket) ↔
      ∃ i, f.Holds i ticket.type := by
  rw [← hs.active_iff]
  cases h : f.desk.isActive ticket.type with
  | true => simp [step_enter_held h]
  | false => simp [step_enter_free h, Call.refused]

theorem Sound.refused {f : Floor} (hs : f.Sound) (ticket : Ticket) (h : f.Holds i ticket.type) :
    f.step (.enter ticket) = ({ f with calls := f.calls ++ [.refused ticket] }, []) :=
  step_enter_held ((hs.active_iff ticket.type).mpr ⟨i, h⟩)

theorem step_returned {f : Floor} (hi : f.calls[i]? = some (.returned result)) :
    (∀ m, f.step (.hear i m) = (f, [])) ∧ f.step (.leave i) = (f, []) := by
  refine ⟨fun m => ?_, ?_⟩
  · simp [step, hi, Call.hear, set_same hi]
  · simp [step, hi, Call.leave, set_same hi]

theorem leaves_ended {f : Floor} (hi : f.calls[i]? = some (.registered run))
    (hp : run.phase = .ended result) :
    (f.step (.leave i)).1.calls[i]? = some (.returned result) ∧
      (f.step (.leave i)).1.desk.isActive run.ticket.type = false := by
  have hlt := (List.getElem?_eq_some_iff.mp hi).1
  rw [step_leave_ended hi hp]
  exact ⟨List.getElem?_set_self hlt, by simp⟩

theorem Sound.empty {f : Floor} (hs : f.Sound)
    (hall : ∀ call ∈ f.calls, ∃ result, call = .returned result) : f.desk.held = [] := by
  refine List.eq_nil_iff_forall_not_mem.mpr fun type hmem => ?_
  obtain ⟨i, hi⟩ := (hs.active_iff type).mp (by simpa [Desk.isActive] using hmem)
  obtain ⟨call, hget, hcall⟩ := Option.bind_eq_some_iff.mp hi
  obtain ⟨result, rfl⟩ := hall call (List.mem_of_getElem? hget)
  cases hcall

/-- Any number of calls, entering, hearing and leaving in any order. -/
theorem exclusive_after (moves : List Move) : (after moves).Exclusive where
  unique := (sound_after moves).unique
  active_iff := (sound_after moves).active_iff
  refused_iff := (sound_after moves).refused_iff
  refused ticket _ h := (sound_after moves).refused ticket h
  returned _ _ hi := ⟨rfl, step_returned hi⟩
  leaves _ _ _ hi hp := leaves_ended hi hp
  empty := (sound_after moves).empty

end Floor

end MeshConsole.Job
