import MeshConsole.Proofs.Bench.Gateway
import MeshConsole.Session.Net
import MeshConsole.Simulator.Visit

/-!
# Exchanges on a bench

A call to the simulated gateway is an exchange on a visit: the gateway serves it
when it is sent, and the task hears of its fate later (`call_visits`,
`answer_tells`). What the session takes in are moves between it and its gateway
(`hear_moves`, `spawn_moves`, `answer_moves`).
-/

namespace MeshConsole.Bench

open Session (Activity Net)
open Simulator (Effect Visit)

-- ---------------------------------------------------------------------------
-- The gateway is served once
-- ---------------------------------------------------------------------------

section
variable (w : World)

theorem simulator_hear (h : Push.Happening) : (w.hear h).simulator = w.simulator := by
  unfold World.hear
  split
  · exact congrArg Wire.simulator (wire_tellLink w _)
  · rfl

theorem simulator_pushFrame (frame : Text) : (w.pushFrame frame).simulator = w.simulator := by
  have hbreak (v : World) : v.breakLink.simulator = v.simulator := by
    unfold World.breakLink
    split
    · exact (congrArg Wire.simulator (World.beside_rearm _ _).wire).trans (simulator_hear _ _)
    · rfl
  have hclients : (w.clients.foldl (fun w client => w.observe (.clientFrame client frame))
      w).simulator = w.simulator :=
    congrArg Wire.simulator
      (World.Beside.foldl (fun w client => World.beside_observe w _) w w.clients).wire
  simp only [World.pushFrame]
  split
  · exact hclients
  · split
    · exact (hbreak _).trans hclients
    · exact (simulator_hear _ _).trans hclients

/-- What comes of a change of the gateway does not change it again. -/
theorem simulator_applyEffects (result : Simulator × List Effect) :
    (w.applyEffects result).simulator = result.1 := by
  suffices h : ∀ (effects : List Effect) (v : World),
      (effects.foldl World.simulatorEffect v).simulator = v.simulator from h result.2 _
  intro effects
  induction effects with
  | nil => exact fun v => rfl
  | cons effect rest ih =>
    intro v
    refine (ih _).trans ?_
    cases effect with
    | log line =>
      show (if v.silentSimulator then v else _ : World).simulator = v.simulator
      split <;> rfl
    | push frame => exact simulator_pushFrame v frame

end

-- ---------------------------------------------------------------------------
-- Calls
-- ---------------------------------------------------------------------------

/-- The wait ends with this answer to a process. -/
def Pending.Answers (p : Pending) (id : Nat) (a : Session.Answer) : Prop :=
  p.wake = .answer id a ∨ p.onCancel = some (.answer id a)

/-- What an exchange that was begun comes to when it is told an answer. -/
structure Told (w v : World) (call : Rest.Call) (fate : Visit.Fate) (a : Session.Answer) :
    Prop where
  exchange : ∀ {α : Type} (x : Visit α) answered cancelled, x.simulator = w.simulator →
    x.session.client = w.session.client →
    x.exchange call w.now answered cancelled fate =
      { x with simulator := v.simulator }.tell answered cancelled a

theorem told_refused {w : World} {call : Rest.Call} {why : Fault}
    (h : w.session.client.request call = .error why) :
    Told w w call .answered (.exchanged (.error why)) := by
  refine ⟨fun x answered cancelled hsimulator hclient => ?_⟩
  simp only [Visit.exchange, hclient, h, ← hsimulator]

/-- What a fate leaves the gateway with, and what the task is told. -/
def ended (s : Simulator) (now : Instant) (request : Rest.Request) :
    Visit.Fate → Simulator × Session.Answer
  | .answered =>
    let served := s.ask now request
    (served.simulator, .exchanged (.ok (request.url.path, served.response)))
  | .unanswered why => ((s.ask now request).simulator, .exchanged (.error why))
  | .unsent why => (s, .exchanged (.error why))

theorem told_ended {w v : World} {call : Rest.Call} {request : Rest.Request}
    (h : w.session.client.request call = .ok request) (fate : Visit.Fate)
    (hv : v.simulator = (ended w.simulator w.now request fate).1) :
    Told w v call fate (ended w.simulator w.now request fate).2 := by
  refine ⟨fun x answered cancelled hsimulator hclient => ?_⟩
  cases fate <;> simp only [Visit.exchange, hclient, h, hv, ended, ← hsimulator]

/-- A call to the simulated gateway waits for one answer. Whatever ends the
wait, and whenever, that is a fate of the exchange. -/
theorem call_visits (w : World) (hgateway : w.gateway = .simulated) (id : Nat)
    (scopes : List Scope) (call : Rest.Call)
    (hstays : ∀ request, w.session.client.request call = .ok request →
      (w.simulator.ask w.now request).response.status ≠ 301) :
    ∃ v p, w.call id scopes call = v.pend p ∧ (∃ a, p.wake = .answer id a) ∧
      ∀ a, p.Answers id a → ∃ fate, Told w v call fate a := by
  -- A wait that nothing cuts short brings the one answer that it ends with.
  have hnow {v : World} {a : Session.Answer} {fate : Visit.Fate} (h : Told w v call fate a) :
      ∃ u p, v.pendNow (.answer id a) = u.pend p ∧ (∃ a, p.wake = .answer id a) ∧
        ∀ a, p.Answers id a → ∃ fate, Told w u call fate a := by
    refine ⟨v, _, rfl, ⟨a, rfl⟩, ?_⟩
    rintro b (hb | hb)
    · cases hb
      exact ⟨fate, h⟩
    · cases hb
  unfold World.call
  split
  · rename_i why hrequest
    exact hnow (told_refused hrequest)
  · rename_i request hrequest
    have hseen : (w.observe (.request request)).simulator = w.simulator := rfl
    simp only [World.send]
    split
    · exact hnow (told_ended hrequest (.unsent (request.failed .canceled)) hseen)
    · rw [show (w.observe (.request request)).gateway = .simulated from hgateway]
      simp only [World.exchangeSimulated]
      split
      · exact hnow (told_ended hrequest
          (.unsent (request.failed (.other "connection refused"))) hseen)
      · let served := w.simulator.ask w.now request
        let v : World :=
          (w.observe (.request request)).applyEffects (served.simulator, served.effects)
        have hv : v.simulator = served.simulator := simulator_applyEffects _ _
        have hcanceled := told_ended hrequest (.unanswered (request.failed .canceled)) hv
        -- A wait that is cut short brings the refusal in place of its own answer.
        have hafter {time : Duration} {a : Session.Answer} {fate : Visit.Fate}
            (h : Told w v call fate a) :
            ∃ u p, v.pendAfter time scopes (.answer id a)
                (some (.answer id (.exchanged (.error (request.failed .canceled))))) = u.pend p ∧
              (∃ a, p.wake = .answer id a) ∧
              ∀ a, p.Answers id a → ∃ fate, Told w u call fate a := by
          refine ⟨v, _, rfl, ⟨a, rfl⟩, ?_⟩
          rintro b (hb | hb)
          · cases hb
            exact ⟨fate, h⟩
          · cases hb
            exact ⟨_, hcanceled⟩
        have hstatus : served.response.status ≠ 301 := hstays request hrequest
        have hdelay : ¬ World.simulatedDelay ≤ 0 := by decide
        split
        · rename_i next hnext
          cases (if_neg hstatus).symm.trans hnext
        · simp only [World.answerAfter, if_neg hdelay]
          split
          · exact hafter (told_ended hrequest (.unanswered (request.failed .deadline)) hv)
          · exact hafter (told_ended hrequest .answered hv)

/-- An answer is told to the task like on a visit, and the bench goes on from
there. -/
theorem answer_tells {w : World} {id : Nat} {p : Process} {task : Session.Task Outcome}
    (hp : w.processes.get? id = some p) (hbody : p.body = .task task) (a : Session.Answer)
    (htakes : task.need.takes (w.isCancelled p.scopes) a = true) (s : Simulator) :
    let told := ({ simulator := s, session := w.session, task } : Visit Outcome).tell w.now
      (w.isCancelled p.scopes) a
    ∃ notes, w.answer id a =
      w.proceed id p { state := told.session, notes, task := told.task } := by
  refine ⟨(task.answer w.now (w.isCancelled p.scopes) w.session a).notes, ?_⟩
  simp only [World.answer, hp, hbody, htakes, if_true]
  rfl

-- ---------------------------------------------------------------------------
-- What the session takes in
-- ---------------------------------------------------------------------------

section
variable {w : World} {n : Net} (hn : n.session = w.session)
include hn

/-- A push that comes to the link is delivered. -/
theorem hear_moves (htaker : w.taker = .session) {frame : Text} {rest}
    (hpushes : n.pushes = (frame, version) :: rest) :
    (n.step (.deliver w.now)).session = (w.hear (.frame frame)).session := by
  have hheard : (w.hear (.frame frame)).session = n.session.hear w.now frame := by
    rw [hn]
    exact congrArg Stand.session (stand_tellLink htaker (.frame frame)).1
  rw [hheard]
  cases version <;> simp only [Net.step, hpushes]

/-- A process that pulls the status starts. -/
theorem spawn_moves {a : Activity Outcome} (errand : Session.Errand)
    (htwin : a.Twin errand.activity) (scopes : List Scope) (ending : Ending) :
    ∃ stop : Session.Stop Outcome,
      w.spawn a scopes ending = { w with nextProcess := w.nextProcess + 1 }.proceed w.nextProcess
        { body := .task stop.task, scopes, ending } stop ∧
      (n.step (.start errand w.now (w.isCancelled scopes))).session = stop.state := by
  refine ⟨a.run w.now (w.isCancelled scopes) w.session, rfl, ?_⟩
  rw [← (htwin.run w.now (w.isCancelled scopes) w.session).state, ← hn]
  rfl

/-- A process that pulls the status takes an answer in. -/
theorem answer_moves {id i : Nat} {p : Process} {task : Session.Task Outcome}
    {u : Session.Task Unit} {outcome : Session.Exchange} {version : Session.Version}
    (hp : w.processes.get? id = some p) (hbody : p.body = .task task) (htwin : task.Twin u)
    (hi : n.pulls[i]? = some { task := u, answer := some (outcome, version) })
    (htakes : task.need.takes (w.isCancelled p.scopes) (.exchanged outcome) = true) :
    ∃ stop : Session.Stop Outcome,
      w.answer id (.exchanged outcome) = w.proceed id p stop ∧
      (n.step (.apply i w.now (w.isCancelled p.scopes))).session = stop.state := by
  let cancelled := w.isCancelled p.scopes
  refine ⟨task.answer w.now cancelled w.session (.exchanged outcome), ?_, ?_⟩
  · simp only [World.answer, hp, hbody, htakes, if_true]
    rfl
  · have hstate := (htwin.answer w.now cancelled w.session (.exchanged outcome)).state
    rw [← hstate, ← hn]
    simp only [Net.step, hi]
    split <;> rfl

end

end MeshConsole.Bench
