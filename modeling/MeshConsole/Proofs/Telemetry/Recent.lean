import MeshConsole.Proofs.Telemetry.JobBoard

/-!
# Recent errors and jobs

A board writes errors and finished jobs into rings. `newest_shown`: a snapshot
shows just the newest of each, as many as there is room for, the newest first.
-/

namespace MeshConsole.Telemetry

/-- What a client error is shown as; one that comes without a fault is only
counted. -/
def Event.errorText? : Event → Option Text
  | .clientError (some fault) context _ => some (context ++ ": " ++ fault.message)
  | _ => none

/-- The texts of all errors, oldest first. -/
def errorTexts (events : List (Instant × Event)) : List Text :=
  (events.map Prod.snd).filterMap Event.errorText?

/-- The changes that finished a job, oldest first. -/
def finishedJobs (events : List (Instant × Event)) : List JobChange :=
  ((events.map Prod.snd).filterMap Event.jobChange?).filter (isTerminal ·.state)

theorem errorText_ne_nil (h : text ∈ errorTexts events) : text ≠ [] := by
  have hcolon : (": " : Text) ≠ [] := by decide
  obtain ⟨event, -, htext⟩ := List.mem_filterMap.mp h
  cases event with
  | clientError fault context severity =>
    cases fault with
    | none => cases htext
    | some fault =>
      cases htext
      simp [hcolon]
  | _ => cases htext

theorem fold_recentErrors (b : Board) (now : Instant) (event : Event) :
    (b.fold now event).recentErrors =
      event.errorText?.elim b.recentErrors b.recentErrors.push := by
  cases event with
  | clientError fault context severity => cases fault <;> rfl
  | job change =>
    obtain ⟨_, _, _, hframe⟩ := b.fold_job now change
    rw [hframe]
    rfl
  | _ => rfl

/-- What a board makes of errors, whatever else it folds between them. -/
theorem after_errors (b : Board) (events : List (Instant × Event)) :
    (b.after events).recentErrors = (errorTexts events).foldl Ring.push b.recentErrors :=
  Board.after_view Board.recentErrors fold_recentErrors b events

/-- Settings that ask for room get as much. -/
theorem Settings.effective_recent (settings : Settings) (herrors : 0 < settings.recentErrors)
    (hjobs : 0 < settings.recentJobs) :
    settings.effective.recentErrors = settings.recentErrors ∧
      settings.effective.recentJobs = settings.recentJobs := by
  simp only [effective]
  constructor <;> split <;> omega

/-- `events` are all that the board has folded. -/
theorem newest_shown (settings : Settings) (herrors : 0 < settings.recentErrors)
    (hjobs : 0 < settings.recentJobs) (started : Instant) (events : List (Instant × Event))
    (hids : ∀ change ∈ finishedJobs events, change.id ≠ 0) (waiting : Nat) (now : Instant) :
    (((Board.new settings started).after events).snapshot waiting now).recentErrors =
      (errorTexts events).reverse.take settings.recentErrors.toNat ∧
    (((Board.new settings started).after events).snapshot waiting now).recentJobs =
      (finishedJobs events).reverse.take settings.recentJobs.toNat := by
  obtain ⟨hroom, hplaces⟩ := settings.effective_recent herrors hjobs
  have htexts : ((Board.new settings started).after events).recentErrors.entries =
      (errorTexts events).reverse.take settings.recentErrors.toNat := by
    rw [after_errors, ← hroom]
    exact Ring.entries_foldl_push _ settings.effective_recentErrors_pos _
  have hchanges : ((Board.new settings started).after events).recentJobs.entries =
      (finishedJobs events).reverse.take settings.recentJobs.toNat := by
    rw [(after_jobs _ events).2.1, ← hplaces]
    exact Ring.entries_foldl_push _ settings.effective_recentJobs_pos _
  -- The snapshot passes over empty texts and jobs without an id, but there are none.
  constructor
  · simp only [Board.snapshot, htexts]
    refine List.filter_eq_self.mpr fun text htext => ?_
    simpa using errorText_ne_nil (List.mem_reverse.mp (List.mem_of_mem_take htext))
  · simp only [Board.snapshot, hchanges]
    refine List.filter_eq_self.mpr fun change hchange => ?_
    simpa using hids change (List.mem_reverse.mp (List.mem_of_mem_take hchange))

/-- Room for two errors and one job, and more of both. -/
def crowdedEvents : List (Instant × Event) := [
  (1, .clientError (some (.other "refused")) "dial" .warning),
  (2, .job { id := 4, type := "scan", state := "running" }),
  (3, .clientError none "read" .error),
  (4, .clientError (some (.other "reset")) "read" .error),
  (5, .job { id := 4, type := "scan", state := "succeeded" }),
  (6, .clientError (some (.other "")) "" .info),
  (7, .job { id := 5, type := "update", state := "failed", reason := "timeout" })]

def crowdedSnapshot : Snapshot :=
  ((Board.new { recentErrors := 2, recentJobs := 1 } 0).after crowdedEvents).snapshot 0 9

theorem newest_crowded :
    (∀ change ∈ finishedJobs crowdedEvents, change.id ≠ 0) ∧
    crowdedSnapshot.recentErrors = [": ", "read: reset"] ∧
    crowdedSnapshot.recentJobs =
      [{ id := 5, type := "update", state := "failed", reason := "timeout" }] := by
  have hids : ∀ change ∈ finishedJobs crowdedEvents, change.id ≠ 0 := by decide
  obtain ⟨herrors, hjobs⟩ := newest_shown { recentErrors := 2, recentJobs := 1 } (by decide)
    (by decide) 0 crowdedEvents hids 0 9
  exact ⟨hids, herrors.trans (by decide), hjobs.trans (by decide)⟩

end MeshConsole.Telemetry
