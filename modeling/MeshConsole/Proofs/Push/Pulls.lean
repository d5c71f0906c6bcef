import MeshConsole.Proofs.Push.Course

/-!
# The pulls of a run

What the slot of a run amounts to, `Run.Sound`: of all pulls that have not
returned, at most the latest is live, and none is when the loop has ended. So
at most one pull waits for its instant. The lemmas below say what each kind
of happening makes of the pulls and keeps of this.
-/

namespace MeshConsole.Push

namespace Run

-- ---------------------------------------------------------------------------
-- Waiting and live pulls
-- ---------------------------------------------------------------------------

/-- The instants that pulls wait for, with their numbers. -/
def waits (r : Run) : List (Instant × Nat) :=
  r.pulls.filterMap fun p => p.due?.map fun instant => (instant, p.number)

/-- How the pulls of a run stand to its slot: a pull that waits is live, and
only the latest pull may be live, until the loop ends. -/
structure Sound (r : Run) : Prop where
  below : ∀ p ∈ r.pulls, p.number < r.scheduled
  ordered : r.pulls.Pairwise fun p q => p.number < q.number
  waiting : ∀ p ∈ r.pulls, p.due? ≠ none → p.calledOff = false
  live : ∀ p ∈ r.pulls, p.calledOff = false →
    r.slot = some p.number ∧ p.number + 1 = r.scheduled ∧ r.phase ≠ .finished

theorem Sound.of_same {r next : Run} (hs : r.Sound) (hpulls : next.pulls = r.pulls)
    (hslot : next.slot = r.slot) (hscheduled : next.scheduled = r.scheduled)
    (hphase : r.phase ≠ .finished → next.phase ≠ .finished) : next.Sound := by
  refine ⟨?_, ?_, ?_, ?_⟩ <;> rw [hpulls]
  · rw [hscheduled]
    exact hs.below
  · exact hs.ordered
  · exact hs.waiting
  · intro p hp hoff
    obtain ⟨hpslot, hpnumber, hpphase⟩ := hs.live p hp hoff
    rw [hslot, hscheduled]
    exact ⟨hpslot, hpnumber, hphase hpphase⟩

theorem waits_eq_nil {r : Run} (h : ∀ p ∈ r.pulls, p.due? = none) : r.waits = [] := by
  refine List.filterMap_eq_nil_iff.mpr fun p hp => ?_
  rw [h p hp]
  rfl

theorem mem_waits {r : Run} : (instant, number) ∈ r.waits ↔
    ∃ p ∈ r.pulls, p.due? = some instant ∧ p.number = number := by
  simp only [waits, List.mem_filterMap, Option.map_eq_some_iff, Prod.mk.injEq]
  constructor
  · rintro ⟨p, hp, _, hdue, rfl, rfl⟩
    exact ⟨p, hp, hdue, rfl⟩
  · rintro ⟨p, hp, hdue, rfl⟩
    exact ⟨p, hp, instant, hdue, rfl, rfl⟩

theorem Sound.of_wait {r : Run} (hs : r.Sound) (hw : w ∈ r.waits) : w.2 + 1 = r.scheduled := by
  obtain ⟨p, hp, hdue, hnumber⟩ := mem_waits.mp hw
  rw [← hnumber]
  exact (hs.live p hp (hs.waiting p hp (by rw [hdue]; nofun))).2.1

theorem Sound.of_waits {r : Run} (hs : r.Sound) (hw : r.waits = [(instant, number)]) :
    number + 1 = r.scheduled :=
  hs.of_wait (w := (instant, number)) (by rw [hw]; exact List.mem_singleton_self _)

theorem Sound.of_finished {r : Run} (hs : r.Sound) (hp : r.phase = .finished)
    (hm : p ∈ r.pulls) : p.due? = none ∧ p.calledOff = true := by
  have hoff : p.calledOff = true := by
    cases hoff : p.calledOff with
    | false => exact absurd hp (hs.live p hm hoff).2.2
    | true => rfl
  refine ⟨?_, hoff⟩
  cases hdue : p.due? with
  | none => rfl
  | some instant =>
    rw [hs.waiting p hm (by rw [hdue]; nofun)] at hoff
    cases hoff

/-- There is but one latest number. -/
theorem length_le_one {numbers : List Nat} (ho : numbers.Pairwise (· < ·))
    (hlatest : ∀ m ∈ numbers, m + 1 = n) : numbers.length ≤ 1 := by
  match numbers with
  | [] => exact Nat.zero_le 1
  | [_] => exact Nat.le_refl 1
  | i :: j :: rest =>
    have hlt : i < j := List.rel_of_pairwise_cons ho List.mem_cons_self
    have hi : i + 1 = n := hlatest i (by simp)
    have hj : j + 1 = n := hlatest j (by simp)
    omega

theorem Sound.live_le_one {r : Run} (hs : r.Sound) :
    (r.pulls.filter fun p => !p.calledOff).length ≤ 1 := by
  rw [← List.length_map Pull.number]
  refine length_le_one (n := r.scheduled)
    ((hs.ordered.filter _).map Pull.number fun p q hpq => hpq) fun n hn => ?_
  obtain ⟨p, hp, rfl⟩ := List.mem_map.mp hn
  obtain ⟨hmem, hoff⟩ := List.mem_filter.mp hp
  exact (hs.live p hmem (by simpa using hoff)).2.1

/-- At most one pull waits. -/
theorem Sound.waits_cases {r : Run} (hs : r.Sound) :
    r.waits = [] ∨ ∃ instant number, r.waits = [(instant, number)] := by
  have hordered : r.waits.Pairwise fun v w => v.2 < w.2 := by
    refine hs.ordered.filterMap _ ?_
    intro p q hpq v hv w hw
    obtain ⟨i, -, rfl⟩ := Option.map_eq_some_iff.mp hv
    obtain ⟨j, -, rfl⟩ := Option.map_eq_some_iff.mp hw
    exact hpq
  have hle : (r.waits.map Prod.snd).length ≤ 1 := by
    refine length_le_one (n := r.scheduled)
      (hordered.map Prod.snd fun v w hvw => hvw) fun n hn => ?_
    obtain ⟨w, hw, rfl⟩ := List.mem_map.mp hn
    exact hs.of_wait hw
  match hwaits : r.waits with
  | [] => exact .inl rfl
  | [(instant, number)] => exact .inr ⟨instant, number, rfl⟩
  | v :: w :: rest => simp [hwaits] at hle

-- ---------------------------------------------------------------------------
-- Pulls that are called off
-- ---------------------------------------------------------------------------

/-- A pull that is left after some were called off was among them and runs,
or was not among them. -/
theorem mem_callOff {r : Run} (hp : p ∈ (r.callOff picks).1.pulls) :
    ∃ q ∈ r.pulls, p.number = q.number ∧
      (picks q.number = true ∧ p.calledOff = true ∧ p.due? = none ∨
        picks q.number = false ∧ p = q) := by
  obtain ⟨q, hq, hkeep⟩ := List.mem_filterMap.mp hp
  refine ⟨q, hq, ?_⟩
  cases hpick : picks q.number with
  | true =>
    rw [hpick, if_pos rfl, Pull.callOff] at hkeep
    cases hstage : q.stage with
    | due instant => simp [hstage] at hkeep
    | running =>
      rw [hstage] at hkeep
      cases hkeep
      exact ⟨rfl, .inl ⟨rfl, rfl, rfl⟩⟩
  | false =>
    rw [hpick] at hkeep
    cases hkeep
    exact ⟨rfl, .inr ⟨rfl, rfl⟩⟩

theorem ordered_callOff {r : Run} (hs : r.Sound) (picks : Nat → Bool) :
    (r.callOff picks).1.pulls.Pairwise fun p q => p.number < q.number := by
  have hnumber {p q : Pull} (h : (if picks p.number then p.callOff else some p) = some q) :
      q.number = p.number := by
    split at h
    · rw [Pull.callOff] at h
      split at h <;> cases h
      rfl
    · cases h
      rfl
  refine hs.ordered.filterMap _ ?_
  intro p q hpq p' hp q' hq
  rw [hnumber hp, hnumber hq]
  exact hpq

/-- Calling off every live pull leaves none that waits and none that is
live. -/
theorem dead_callOff {r : Run} (hs : r.Sound)
    (hpicks : ∀ p ∈ r.pulls, p.calledOff = false → picks p.number = true)
    (hp : p ∈ (r.callOff picks).1.pulls) :
    p.number < r.scheduled ∧ p.calledOff = true ∧ p.due? = none := by
  obtain ⟨q, hq, hnumber, hcase⟩ := mem_callOff hp
  refine ⟨hnumber ▸ hs.below q hq, ?_⟩
  rcases hcase with ⟨-, hoff, hdue⟩ | ⟨hpick, rfl⟩
  · exact ⟨hoff, hdue⟩
  · cases hoff : p.calledOff with
    | false =>
      rw [hpicks p hq hoff] at hpick
      cases hpick
    | true =>
      cases hdue : p.due? with
      | none => exact ⟨rfl, rfl⟩
      | some instant =>
        rw [hs.waiting p hq (by rw [hdue]; nofun)] at hoff
        cases hoff

-- ---------------------------------------------------------------------------
-- One happening
-- ---------------------------------------------------------------------------

theorem sound_schedule {r : Run} (hs : r.Sound) (hphase : r.phase ≠ .finished) (due : Instant) :
    (r.schedule due).1.Sound ∧ (r.schedule due).1.waits = [(due, r.scheduled)] := by
  have hdead {p : Pull} (hp : p ∈ (r.callOff fun number => r.slot == some number).1.pulls) :
      p.number < r.scheduled ∧ p.calledOff = true ∧ p.due? = none :=
    dead_callOff hs (fun q hq hoff => by simp [(hs.live q hq hoff).1]) hp
  have hpulls : (r.schedule due).1.pulls =
      (r.callOff fun number => r.slot == some number).1.pulls ++
        [{ number := r.scheduled, stage := .due due }] := rfl
  refine ⟨⟨?_, ?_, ?_, ?_⟩, ?_⟩
  · intro p hp
    show p.number < r.scheduled + 1
    rw [hpulls] at hp
    rcases List.mem_append.mp hp with hp | hp
    · exact Nat.lt_succ_of_lt (hdead hp).1
    · rw [List.mem_singleton.mp hp]
      exact Nat.lt_succ_self _
  · rw [hpulls]
    refine List.pairwise_append.mpr ⟨ordered_callOff hs _, List.pairwise_singleton _ _, ?_⟩
    intro p hp q hq
    rw [List.mem_singleton.mp hq]
    exact (hdead hp).1
  · intro p hp hdue
    rw [hpulls] at hp
    rcases List.mem_append.mp hp with hp | hp
    · exact absurd (hdead hp).2.2 hdue
    · rw [List.mem_singleton.mp hp]
  · intro p hp hoff
    rw [hpulls] at hp
    rcases List.mem_append.mp hp with hp | hp
    · rw [(hdead hp).2.1] at hoff
      cases hoff
    · rw [List.mem_singleton.mp hp]
      exact ⟨rfl, rfl, hphase⟩
  · rw [waits, hpulls, List.filterMap_append]
    have hkept : waits (r.callOff fun number => r.slot == some number).1 = [] :=
      waits_eq_nil fun p hp => (hdead hp).2.2
    rw [waits] at hkept
    rw [hkept]
    rfl

/-- A run whose loop has ended, before its pulls are called off. -/
def hungUp (r : Run) : Run :=
  { r with link := { r.link with state := .closed }, phase := .finished, slot := none }

theorem onCancelled_going {r : Run} (h : r.phase ≠ .finished) :
    r.onCancelled.1 = (r.hungUp.callOff fun _ => true).1 := by
  unfold onCancelled
  cases hphase : r.phase with
  | finished => exact absurd hphase h
  | dialing | reading | waiting => rfl

theorem sound_onCancelled {r : Run} (hs : r.Sound) :
    r.onCancelled.1.Sound ∧ r.onCancelled.1.waits = [] ∧ r.onCancelled.1.phase = .finished ∧
      r.onCancelled.1.scheduled = r.scheduled := by
  by_cases hfinished : r.phase = .finished
  · have hsame : r.onCancelled = (r, []) := by simp [onCancelled, hfinished]
    rw [hsame]
    exact ⟨hs, waits_eq_nil fun p hp => (hs.of_finished hfinished hp).1, hfinished, rfl⟩
  · have hdead {p : Pull} (hp : p ∈ (r.callOff fun _ => true).1.pulls) :
        p.number < r.scheduled ∧ p.calledOff = true ∧ p.due? = none :=
      dead_callOff hs (fun _ _ _ => rfl) hp
    have hordered := ordered_callOff hs fun _ => true
    rw [onCancelled_going hfinished]
    refine ⟨⟨fun p hp => (hdead hp).1, hordered, ?_, ?_⟩,
      waits_eq_nil fun p hp => (hdead hp).2.2, rfl, rfl⟩
    · intro p hp hdue
      exact absurd (hdead hp).2.2 hdue
    · intro p hp hoff
      rw [(hdead hp).2.1] at hoff
      cases hoff

/-- The run in which a pull has started. -/
theorem onPullDue_waiting {r : Run} (hw : (instant, number) ∈ r.waits) :
    r.onPullDue number = ({ r with pulls := r.pulls.map fun p =>
      if p.number = number then { p with stage := .running } else p }, [.reconcile number]) := by
  obtain ⟨p, hp, hdue, hnumber⟩ := mem_waits.mp hw
  unfold onPullDue
  refine if_pos (List.any_eq_true.mpr ⟨p, hp, ?_⟩)
  simp [hdue, hnumber]

theorem onPullDue_other {r : Run} (hw : ∀ instant, (instant, number) ∉ r.waits) :
    r.onPullDue number = (r, []) := by
  unfold onPullDue
  refine if_neg fun hany => ?_
  obtain ⟨p, hp, hsome⟩ := List.any_eq_true.mp hany
  rw [Bool.and_eq_true, beq_iff_eq] at hsome
  obtain ⟨instant, hdue⟩ := Option.isSome_iff_exists.mp hsome.2
  exact hw instant (mem_waits.mpr ⟨p, hp, hdue, hsome.1⟩)

theorem sound_onPullDue {r : Run} (hs : r.Sound) (hw : (instant, number) ∈ r.waits) :
    (r.onPullDue number).1.Sound ∧ (r.onPullDue number).1.waits = [] := by
  -- The pull that starts is the only one that waits.
  have hother {p : Pull} (hp : p ∈ r.pulls) (hne : p.number ≠ number) : p.due? = none := by
    cases hdue : p.due? with
    | none => rfl
    | some other =>
      have hlatest := hs.of_wait hw
      have hlatest' := hs.of_wait (mem_waits.mpr ⟨p, hp, hdue, rfl⟩)
      exact absurd (by omega) hne
  have hstage {p : Pull} (hp : p ∈ r.pulls) :
      (if p.number = number then { p with stage := .running } else p).due? = none := by
    by_cases hn : p.number = number
    · rw [if_pos hn]
      rfl
    · rw [if_neg hn]
      exact hother hp hn
  have hkept (p : Pull) : (if p.number = number then { p with stage := .running } else p).number =
      p.number ∧ (if p.number = number then { p with stage := .running } else p).calledOff =
      p.calledOff := by
    split <;> exact ⟨rfl, rfl⟩
  rw [onPullDue_waiting hw]
  refine ⟨⟨?_, ?_, ?_, ?_⟩, waits_eq_nil ?_⟩
  · intro p hp
    obtain ⟨q, hq, rfl⟩ := List.mem_map.mp hp
    rw [(hkept q).1]
    exact hs.below q hq
  · refine hs.ordered.map _ ?_
    intro p q hpq
    rw [(hkept p).1, (hkept q).1]
    exact hpq
  · intro p hp hdue
    obtain ⟨q, hq, rfl⟩ := List.mem_map.mp hp
    exact absurd (hstage hq) hdue
  · intro p hp hoff
    obtain ⟨q, hq, rfl⟩ := List.mem_map.mp hp
    rw [(hkept q).2] at hoff
    rw [(hkept q).1]
    exact hs.live q hq hoff
  · intro p hp
    obtain ⟨q, hq, rfl⟩ := List.mem_map.mp hp
    exact hstage hq

theorem sound_onPullReturned {r : Run} (hs : r.Sound) (number : Nat) :
    (r.onPullReturned number).Sound ∧ (r.onPullReturned number).waits = r.waits := by
  have hmem {p : Pull} (hp : p ∈ (r.onPullReturned number).pulls) : p ∈ r.pulls :=
    (List.mem_filter.mp hp).1
  refine ⟨⟨fun p hp => hs.below p (hmem hp), hs.ordered.filter _,
    fun p hp => hs.waiting p (hmem hp), fun p hp => hs.live p (hmem hp)⟩, ?_⟩
  -- What is taken away does not wait.
  rw [waits, onPullReturned, List.filterMap_filter, waits]
  congr 1
  funext p
  cases hdue : p.due? with
  | none => simp
  | some instant => simp

end Run

end MeshConsole.Push
