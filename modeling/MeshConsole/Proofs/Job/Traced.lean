import MeshConsole.Job.Run

/-!
# What a job publishes

Whatever happens to a job, all that it publishes are job changes, and they
are traced by the request of its submission (`traces_step`).
-/

namespace MeshConsole.Job

open Telemetry (Note)

/-- What is published are job changes, traced by the request of the ticket. -/
def Ticket.Traces (t : Ticket) (notes : List Note) : Prop :=
  ∀ event, .publish event ∈ notes → ∃ change, event = .job change ∧ change.requestId = t.requestId

namespace Ticket.Traces

variable {t : Ticket}

theorem nil (t : Ticket) : t.Traces [] := by
  intro event hm
  cases hm

theorem append (h : t.Traces notes) (hmore : t.Traces more) : t.Traces (notes ++ more) := by
  intro event hm
  rcases List.mem_append.mp hm with hm | hm
  · exact h event hm
  · exact hmore event hm

theorem log (h : t.Traces notes) (line : Text) : t.Traces (.log line :: notes) := by
  intro event hm
  rcases List.mem_cons.mp hm with heq | hm
  · cases heq
  · exact h event hm

theorem publish (h : t.Traces notes) (job : Progress) (state reason : Text) :
    t.Traces ((t.publish job state reason).2 :: notes) := by
  intro event hm
  rcases List.mem_cons.mp hm with heq | hm
  · cases heq
    exact ⟨_, rfl, rfl⟩
  · exact h event hm

end Ticket.Traces

theorem traces_observe (t : Ticket) (job : Progress) (state : Text) :
    t.Traces (t.observe job state).2 := by
  have hnil := Ticket.Traces.nil t
  unfold Ticket.observe
  split
  · exact hnil
  · split
    · exact hnil.log _
    · exact hnil.publish job state []

theorem traces_onSubmitted (run : Run) (now : Instant) (answer : Except Fault JobReceipt) :
    run.ticket.Traces (run.onSubmitted now answer).2 := by
  have hnil := Ticket.Traces.nil run.ticket
  unfold Run.onSubmitted
  cases answer with
  | error why => exact hnil
  | ok receipt =>
    by_cases hid : receipt.id ≤ 0
    · simp only [hid, if_true]
      exact hnil
    · simp only [hid, if_false]
      exact (hnil.log _).publish _ _ _

theorem traces_onPolled (run : Run) (now : Instant) (cancelled : Bool) (job : Progress)
    (answer : Except Fault JobReport) :
    run.ticket.Traces (run.onPolled now cancelled job answer).2 := by
  have hnil := Ticket.Traces.nil run.ticket
  have hobserve := traces_observe run.ticket job
  unfold Run.onPolled
  cases answer with
  | error why => exact (hnil.publish _ _ _).log _
  | ok report =>
    by_cases hs : report.state = succeeded
    · simp only [hs, if_true]
      exact (hobserve succeeded).append (hnil.log _)
    · simp only [hs, if_false]
      by_cases hf : report.state = failed ∨ report.done = true
      · simp only [hf, if_true]
        exact (hnil.log _).publish _ _ _
      · simp only [hf, if_false]
        split
        · exact (hobserve _).append ((hnil.log _).publish _ _ _)
        · exact hobserve _

theorem traces_step (run : Run) (now : Instant) (cancelled : Bool) (h : Happening) :
    run.ticket.Traces (run.step now cancelled h).2 := by
  have hnil := Ticket.Traces.nil run.ticket
  unfold Run.step
  split
  · exact traces_onSubmitted run now _
  · exact traces_onPolled run now cancelled _ _
  · exact hnil
  · exact (hnil.publish _ _ _).log _
  · exact hnil

end MeshConsole.Job
