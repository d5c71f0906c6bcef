import MeshConsole.Proofs.Push.Gate
import MeshConsole.Push.Run

/-!
# The course of a run

A run hears of one happening after another, each at its instant.
`step_cases` says once what a step can do. What a step keeps, a whole
course keeps; no step changes who takes the payloads, the address of the
link, or its timing.
-/

namespace MeshConsole.Push

/-- Whether the loop goes on to another phase at a happening. -/
def Phase.awaits : Phase → Happening → Bool
  | .dialing, .dialed => true
  | .dialing, .dialFailed _ => true
  | .reading, .readFailed _ => true
  | .waiting _, .waited => true
  | _, _ => false

/-- Whether a signal can come of a frame. -/
def Signal.ofFrame : Signal → Bool
  | .log _ => true
  | .deliver _ => true
  | .publish (.received ..) => true
  | .publish (.dropped ..) => true
  | .publish (.versionMismatch ..) => true
  | _ => false

theorem receive_ofFrame (l : Link) (handler : Handler) (frame : Text) :
    (l.receive handler frame).2.all Signal.ofFrame = true := by
  have hversion (m : Message) : (Link.versionSignals m).all Signal.ofFrame = true := by
    unfold Link.versionSignals
    split
    · rfl
    · split <;> rfl
  have hdispatch (m : Message) : (Link.dispatchSignals handler m).all Signal.ofFrame = true := by
    unfold Link.dispatchSignals
    split
    · rfl
    · split
      · rfl
      · split <;> rfl
  rcases receive_cases l handler frame with
    ⟨why, -, hr⟩ | ⟨m, -, -, hr⟩ | ⟨m, seq, -, -, -, hr⟩ | ⟨m, seq, -, -, -, hr⟩ <;> rw [hr]
  · rfl
  · rw [List.all_append, hversion, hdispatch, Bool.and_self]
  · rfl
  · rw [List.all_append, hversion, hdispatch, Bool.and_self]

namespace Run

/-- A run after all that happens to it, with what it signals meanwhile. -/
def meets : Run → List (Instant × Happening) → Run × List (Instant × Signal)
  | r, [] => (r, [])
  | r, (now, h) :: rest =>
    let (next, signals) := r.step now h
    let (last, later) := next.meets rest
    (last, signals.map (now, ·) ++ later)

@[simp] theorem meets_nil (r : Run) : r.meets [] = (r, []) := rfl

theorem meets_cons (r : Run) (now : Instant) (h : Happening) (rest : List (Instant × Happening)) :
    r.meets ((now, h) :: rest) =
      (((r.step now h).1.meets rest).1,
        (r.step now h).2.map (now, ·) ++ ((r.step now h).1.meets rest).2) := rfl

/-- What every step keeps holds after any course. -/
theorem meets_keeps {P : Run → Prop} (hstep : ∀ r now h, P r → P (r.step now h).1)
    (course : List (Instant × Happening)) (r : Run) (hr : P r) : P (r.meets course).1 := by
  induction course generalizing r with
  | nil => exact hr
  | cons e rest ih =>
    rw [meets_cons]
    exact ih _ (hstep r e.1 e.2 hr)

/-- The run on a link that has just opened, before its pull is scheduled. -/
def linked (r : Run) : Run := { r with link := r.link.opened.1, phase := .reading }

theorem onDialed_reconciling {r : Run} (h : r.handler = .reconciling) (now : Instant) :
    r.onDialed now = ((r.linked.schedule (now.plus r.link.timing.reconcile)).1,
      r.link.opened.2 ++ (r.linked.schedule (now.plus r.link.timing.reconcile)).2) := by
  unfold onDialed
  exact if_pos h

theorem onDialed_plain {r : Run} (h : r.handler ≠ .reconciling) (now : Instant) :
    r.onDialed now = (r.linked, r.link.opened.2) := by
  unfold onDialed
  exact if_neg h

-- ---------------------------------------------------------------------------
-- One step
-- ---------------------------------------------------------------------------

/-- All that a step can do. -/
inductive StepCase (r : Run) (now : Instant) : Happening → Prop where
  | dialed : r.phase = .dialing → r.step now .dialed = r.onDialed now → StepCase r now .dialed
  | dialFailed (why) : r.phase = .dialing → r.step now (.dialFailed why) = r.onFailed why →
      StepCase r now (.dialFailed why)
  | frame (bytes) : r.phase = .reading → r.step now (.frame bytes) =
        ({ r with link := (r.link.receive r.handler bytes).1 },
          (r.link.receive r.handler bytes).2) →
      StepCase r now (.frame bytes)
  | readFailed (why) : r.phase = .reading → r.step now (.readFailed why) =
        ((r.onFailed why).1, .closeSocket :: (r.onFailed why).2) →
      StepCase r now (.readFailed why)
  | waited (delay) : r.phase = .waiting delay → r.step now .waited =
        ({ r with link := { r.link with state := .connecting }, phase := .dialing }, []) →
      StepCase r now .waited
  | cancelled : r.step now .cancelled = r.onCancelled → StepCase r now .cancelled
  | pullDue (number) : r.step now (.pullDue number) = r.onPullDue number →
      StepCase r now (.pullDue number)
  | pullReturned (number) : r.step now (.pullReturned number) = (r.onPullReturned number, []) →
      StepCase r now (.pullReturned number)
  | ignored : h ≠ .cancelled → r.phase.awaits h = false → r.step now h = (r, []) →
      StepCase r now h

theorem step_cases (r : Run) (now : Instant) (h : Happening) : StepCase r now h := by
  cases h with
  | dialed =>
    cases hp : r.phase with
    | dialing => exact .dialed hp (by simp [step, hp])
    | _ => exact .ignored nofun (by rw [hp]; rfl) (by simp [step, hp])
  | dialFailed why =>
    cases hp : r.phase with
    | dialing => exact .dialFailed why hp (by simp [step, hp])
    | _ => exact .ignored nofun (by rw [hp]; rfl) (by simp [step, hp])
  | frame bytes =>
    cases hp : r.phase with
    | reading => exact .frame bytes hp (by simp [step, hp])
    | _ => exact .ignored nofun (by rw [hp]; rfl) (by simp [step, hp])
  | readFailed why =>
    cases hp : r.phase with
    | reading => exact .readFailed why hp (by simp [step, hp])
    | _ => exact .ignored nofun (by rw [hp]; rfl) (by simp [step, hp])
  | waited =>
    cases hp : r.phase with
    | waiting delay => exact .waited delay hp (by simp [step, hp])
    | _ => exact .ignored nofun (by rw [hp]; rfl) (by simp [step, hp])
  | cancelled => exact .cancelled (by simp [step])
  | pullDue number => exact .pullDue number (by simp [step])
  | pullReturned number => exact .pullReturned number (by simp [step])

/-- What a run is set up with. -/
structure Fixed (handler : Handler) (url : Text) (timing : Timing) (r : Run) : Prop where
  handler : r.handler = handler
  url : r.link.url = url
  timing : r.link.timing = timing

theorem step_fixed {handler : Handler} (hf : Fixed handler url timing r) (now : Instant)
    (h : Happening) : Fixed handler url timing (r.step now h).1 := by
  obtain ⟨hh, hu, ht⟩ := hf
  cases step_cases r now h with
  | dialed hp hs =>
    rw [hs]
    by_cases hr : r.handler = .reconciling
    · rw [onDialed_reconciling hr]
      exact ⟨hh, hu, ht⟩
    · rw [onDialed_plain hr]
      exact ⟨hh, hu, ht⟩
  | dialFailed why hp hs =>
    rw [hs]
    exact ⟨hh, hu, ht⟩
  | frame bytes hp hs =>
    rw [hs, receive_link]
    exact ⟨hh, hu, ht⟩
  | readFailed why hp hs =>
    rw [hs]
    exact ⟨hh, hu, ht⟩
  | waited delay hp hs =>
    rw [hs]
    exact ⟨hh, hu, ht⟩
  | cancelled hs =>
    rw [hs]
    unfold onCancelled
    split <;> exact ⟨hh, hu, ht⟩
  | pullDue number hs =>
    rw [hs]
    unfold onPullDue
    split <;> exact ⟨hh, hu, ht⟩
  | pullReturned number hs =>
    rw [hs]
    exact ⟨hh, hu, ht⟩
  | ignored hc ha hs =>
    rw [hs]
    exact ⟨hh, hu, ht⟩

end Run

end MeshConsole.Push
