import MeshConsole.Proofs.Push.Standing
import MeshConsole.Proofs.Session.Threads
import MeshConsole.Session.Live

/-!
# The life of a session

`step_cases` says once what a step of a session with its threads can do;
`run_keeps`: what each step keeps, any moves keep.
-/

namespace MeshConsole.Session

namespace Live

-- ---------------------------------------------------------------------------
-- One step
-- ---------------------------------------------------------------------------

/-- Why a thread may return, and the session that it leaves behind. -/
inductive Leave (l : Live) (now : Instant) (t : Thread) : Bool → Live → Prop where
  | loop : t.owner = .loop → l.session.run.hasReturned = true → Leave l now t value l
  | ticker : t.owner = .ticker → l.cancelled = true → Leave l now t false l
  | pull (number : Nat) : t.owner = .pull number →
      Leave l now t value (l.withRun (l.session.run.step now (.pullReturned number)).1)
  | other : t.owner = .refresh ∨ t.owner = .caller → Leave l now t value l

/-- All that a step can do. -/
inductive Step (l : Live) : Move → Live → List Entry → Prop where
  | start (cancelled : Bool) : l.started = false →
      Step l (.start cancelled)
        { l with
          session := { l.session with
            run := .start l.session.run.link l.session.run.handler cancelled }
          started := true
          cancelled
          threads := l.threads ++ [.resting .loop, .resting .ticker] } []
  | close : l.started = true → Step l .close { l with cancelled := true, closing := true } []
  | cancel : l.started = true → Step l .cancel { l with cancelled := true } []
  | commission (c : Commission) : Step l (.commission c) (l.spawn .caller c.activity) []
  | giveUp : l.threads[i]? = some t → t.owner = .caller →
      Step l (.giveUp i) (l.put i { t with gaveUp := true }) []
  | act : l.threads[i]? = some t → Acting now (l.isCancelled t) l.session t.work b →
      Step l (.act i now) (l.beat i t b).1 (l.beat i t b).2
  | answer : l.threads[i]? = some t → (a = .interrupted → l.isCancelled t = true) →
      Answering now (l.isCancelled t) l.session t.work a b →
      Step l (.answer i now a) (l.beat i t b).1 (l.beat i t b).2
  | hear : l.threads[i]? = some t → t.owner = .loop → t.left = false → t.work.outcome? ≠ none →
      l.session.run.phase ≠ .finished → heard? l.cancelled h = some h' →
      Step l (.hear i now h)
        ((l.withRun (l.session.run.step now h').1).put i
          { t with work := .acting (carryAll (l.session.run.step now h').2) }) []
  | due : (instant, number) ∈ l.session.run.waits →
      Step l (.due number now)
        ((l.withRun (l.session.run.step now (.pullDue number)).1).spawn (.pull number)
          (quietly reconcile)) []
  | tick : l.threads[i]? = some t → t.owner = .ticker → t.left = false →
      t.work.outcome? = some false →
      Step l (.tick i) (l.put i { t with work := .acting Session.tick }) []
  | refresh : l.threads[i]? = some t → t.owner = .ticker → t.left = false →
      t.work.outcome? = some true →
      Step l (.refresh i)
        ((l.put i (.resting .ticker)).spawn .refresh (quietly autoRefresh)) []
  | leave : l.threads[i]? = some t → t.left = false → t.work.outcome? = some value →
      Leave l now t value next →
      Step l (.leave i now) (next.put i { t with left := true }) []

theorem leave_cases {l : Live} {t : Thread} (h : l.leave? i now t value = some next) :
    ∃ l', Leave l now t value l' ∧ next = l'.put i { t with left := true } := by
  unfold leave? at h
  cases howner : t.owner with
  | loop =>
    simp only [howner, Option.ite_none_right_eq_some, Option.some.injEq] at h
    exact ⟨l, .loop howner h.1, h.2.symm⟩
  | ticker =>
    simp only [howner, Option.ite_none_right_eq_some, Option.some.injEq, Bool.and_eq_true,
      Bool.not_eq_true'] at h
    obtain ⟨⟨hcancelled, rfl⟩, rfl⟩ := h
    exact ⟨l, .ticker howner hcancelled, rfl⟩
  | pull number =>
    simp only [howner, Option.some.injEq] at h
    exact ⟨_, .pull number howner, h.symm⟩
  | refresh =>
    simp only [howner, Option.some.injEq] at h
    exact ⟨l, .other (.inl howner), h.symm⟩
  | caller =>
    simp only [howner, Option.some.injEq] at h
    exact ⟨l, .other (.inr howner), h.symm⟩

theorem step_cases {l : Live} {m : Move} (h : l.step? m = some (next, entries)) :
    Step l m next entries := by
  cases m with
  | start cancelled =>
    simp only [step?] at h
    split at h
    case isTrue => cases h
    case isFalse hstarted =>
      cases h
      exact .start cancelled (Bool.eq_false_iff.mpr hstarted)
  | close =>
    simp only [step?, Option.ite_none_right_eq_some] at h
    obtain ⟨hstarted, ⟨⟩⟩ := h
    exact .close hstarted
  | cancel =>
    simp only [step?, Option.ite_none_right_eq_some] at h
    obtain ⟨hstarted, ⟨⟩⟩ := h
    exact .cancel hstarted
  | commission c =>
    cases h
    exact .commission c
  | giveUp i =>
    obtain ⟨t, ht, h⟩ := Option.bind_eq_some_iff.mp h
    rw [Option.ite_none_right_eq_some] at h
    obtain ⟨howner, ⟨⟩⟩ := h
    exact .giveUp ht howner
  | act i now =>
    obtain ⟨t, ht, h⟩ := Option.bind_eq_some_iff.mp h
    obtain ⟨b, hb, ⟨⟩⟩ := Option.bind_eq_some_iff.mp h
    exact .act ht (act?_eq_some.mp hb)
  | answer i now a =>
    obtain ⟨t, ht, h⟩ := Option.bind_eq_some_iff.mp h
    obtain ⟨b, hb, h⟩ := Option.bind_eq_some_iff.mp h
    have hanswering := answer?_eq_some.mp hb
    cases a with
    | interrupted =>
      simp only [Option.ite_none_right_eq_some] at h
      obtain ⟨hcut, ⟨⟩⟩ := h
      exact .answer ht (fun _ => hcut) hanswering
    | exchanged outcome | waited =>
      cases h
      exact .answer ht nofun hanswering
  | hear i now h' =>
    obtain ⟨t, ht, h⟩ := Option.bind_eq_some_iff.mp h
    obtain ⟨heard, hheard, h⟩ := Option.bind_eq_some_iff.mp h
    rw [Option.ite_none_right_eq_some] at h
    obtain ⟨⟨howner, hleft, hidle, hphase⟩, ⟨⟩⟩ := h
    exact .hear ht howner hleft hidle hphase hheard
  | due number now =>
    simp only [step?, Option.ite_none_right_eq_some] at h
    obtain ⟨hany, ⟨⟩⟩ := h
    obtain ⟨p, hp, hdue⟩ := List.any_eq_true.mp hany
    rw [Bool.and_eq_true, beq_iff_eq] at hdue
    obtain ⟨instant, hinstant⟩ := Option.isSome_iff_exists.mp hdue.2
    exact .due (Push.Run.mem_waits.mpr ⟨p, hp, hinstant, hdue.1⟩)
  | tick i =>
    obtain ⟨t, ht, h⟩ := Option.bind_eq_some_iff.mp h
    rw [Option.ite_none_right_eq_some] at h
    obtain ⟨⟨howner, hleft, hidle⟩, ⟨⟩⟩ := h
    exact .tick ht howner hleft hidle
  | refresh i =>
    obtain ⟨t, ht, h⟩ := Option.bind_eq_some_iff.mp h
    rw [Option.ite_none_right_eq_some] at h
    obtain ⟨⟨howner, hleft, hidle⟩, ⟨⟩⟩ := h
    exact .refresh ht howner hleft hidle
  | leave i now =>
    obtain ⟨t, ht, h⟩ := Option.bind_eq_some_iff.mp h
    obtain ⟨value, hvalue, h⟩ := Option.bind_eq_some_iff.mp h
    split at h
    case isTrue => cases h
    case isFalse hleft =>
      obtain ⟨gone, hgone, heq⟩ := Option.map_eq_some_iff.mp h
      obtain ⟨l', hleave, rfl⟩ := leave_cases hgone
      cases heq
      exact .leave ht (Bool.eq_false_iff.mpr hleft) hvalue hleave

theorem step_eq (l : Live) (m : Move) :
    l.step m = (l, []) ∨ Step l m (l.step m).1 (l.step m).2 := by
  unfold step
  cases h : l.step? m with
  | none => exact .inl rfl
  | some result => exact .inr (step_cases h)

/-- What every step keeps, of the session and of all that was seen so far,
holds after any moves. -/
theorem run_keeps {P : Live → List Entry → Prop}
    (hstep : ∀ l seen m next entries, P l seen → Step l m next entries → P next (seen ++ entries))
    (moves : List Move) (l : Live) (seen : List Entry) (hl : P l seen) :
    P (l.after moves) (seen ++ l.deeds moves) := by
  induction moves generalizing l seen with
  | nil =>
    rw [deeds, List.append_nil]
    exact hl
  | cons m rest ih =>
    have hnext : P (l.step m).1 (seen ++ (l.step m).2) := by
      rcases step_eq l m with hsame | hnext
      · rw [hsame, List.append_nil]
        exact hl
      · exact hstep l seen m _ _ hl hnext
    rw [deeds, ← List.append_assoc]
    exact ih (l.step m).1 _ hnext

theorem after_keeps {P : Live → Prop}
    (hstep : ∀ l m next entries, P l → Step l m next entries → P next) (moves : List Move)
    (l : Live) (hl : P l) : P (l.after moves) :=
  run_keeps (P := fun l _ => P l) (fun l _ m next entries => hstep l m next entries) moves l [] hl

end Live

end MeshConsole.Session
