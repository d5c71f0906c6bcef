import MeshConsole.Rest.Client
import MeshConsole.Session.Intake
import MeshConsole.Session.Task

/-!
# What counts as success

An answer of the gateway says by its envelope whether it is a success. An
answer with a status code of success and without an envelope, or with one that
has no status, counts as one all the same, mostly with the empty reply
(`success_iff`). A session that has asked for the link table loses its own
over that (`rows_unread`).
-/

namespace MeshConsole

namespace Rest

open Json (Tree)

/-- The envelope that a body is, if it is one. -/
def Envelope.read? (body : Text) : Option Envelope :=
  if body.trimSpace.isEmpty then none else Tree.parse? body >>= Envelope.reader {}

/-- The body is an envelope that calls the answer a success. -/
def SaysOk (body : Text) : Prop := ∃ e, Envelope.read? body = some e ∧ e.status = "ok"

/-- The status code is one of success. -/
structure Response.IsSuccess (r : Response) : Prop where
  least : 200 ≤ r.status
  most : r.status < 300

/-- What a call makes of the data of an answer. -/
def Call.Reads (call : Call) (reply : call.Reply) : Option Text → Prop
  | none => reply = call.emptyReply
  | some data => Tree.parse? data >>= call.reader call.emptyReply = some reply

section
variable {body : Text} {e : Envelope}

theorem ofBody_read (h : Envelope.read? body = some e) : Envelope.ofBody body = e := by
  unfold Envelope.read? at h
  unfold Envelope.ofBody
  split at h
  · cases h
  next hblank => simp [hblank, h]

theorem ofBody_unread (h : Envelope.read? body = none) :
    ∃ message, Envelope.ofBody body = { message } := by
  unfold Envelope.read? at h
  unfold Envelope.ofBody
  split at h
  next hblank => exact ⟨[], by simp [hblank]⟩
  next hblank => exact ⟨body.trimSpace, by simp [hblank, h]⟩

end

section
variable {r : Response} (hsuccess : r.IsSuccess) (call : Call) (path : Text)
include hsuccess

/-- The status code passes, so it is up to the envelope. -/
theorem reply_ok_iff (reply : call.Reply) :
    call.reply path r = .ok reply ↔
      ((Envelope.ofBody r.body).status = [] ∨ (Envelope.ofBody r.body).status = "ok") ∧
        call.Reads reply (Envelope.ofBody r.body).data := by
  have hcode : (r.status < 200 || 300 ≤ r.status) = false := by
    simp [hsuccess.least, hsuccess.most]
  unfold Call.reply
  generalize Envelope.ofBody r.body = e
  simp only [hcode]
  by_cases hstatus : e.status = [] ∨ e.status = "ok"
  · have hpass : (!e.status.isEmpty && e.status != "ok") = false := by
      rcases hstatus with h | h <;> simp [h]
    simp only [hpass, hstatus, true_and]
    cases e.data with
    | none => simp [Call.Reads, eq_comm]
    | some data =>
      cases hread : Tree.parse? data >>= call.reader call.emptyReply <;>
        simp [Call.Reads, hread]
  · have hstop : (!e.status.isEmpty && e.status != "ok") = true := by
      simpa using hstatus
    simp [hstop, hstatus]

theorem reply_unread (hunread : Envelope.read? r.body = none) :
    call.reply path r = .ok call.emptyReply := by
  obtain ⟨message, henvelope⟩ := ofBody_unread hunread
  rw [reply_ok_iff hsuccess, henvelope]
  exact ⟨.inl rfl, rfl⟩

/-- When an answer with a code of success counts as one: it has no envelope,
and then its reply is empty, or its envelope has the status `ok` or none, and
data that can be read or none. The second part leaves out what has the status
`ok`. -/
theorem success_iff (reply : call.Reply) :
    (call.reply path r = .ok reply ↔
      (Envelope.read? r.body = none ∧ reply = call.emptyReply) ∨
        ∃ e, Envelope.read? r.body = some e ∧ (e.status = [] ∨ e.status = "ok") ∧
          call.Reads reply e.data) ∧
    (call.reply path r = .ok reply ∧ ¬ SaysOk r.body ↔
      (Envelope.read? r.body = none ∧ reply = call.emptyReply) ∨
        ∃ e, Envelope.read? r.body = some e ∧ e.status = [] ∧ call.Reads reply e.data) := by
  rw [reply_ok_iff hsuccess]
  cases hread : Envelope.read? r.body with
  | none =>
    obtain ⟨message, henvelope⟩ := ofBody_unread hread
    simp [SaysOk, hread, henvelope, Call.Reads]
  | some e =>
    have hok : ("ok" : Text) ≠ [] := by decide
    simp only [ofBody_read hread, SaysOk, hread]
    constructor
    · simp
    · by_cases hstatus : e.status = "ok"
      · simp [hstatus, hok]
      · simp [hstatus]

end

/-- No content is taken for an empty link table. -/
theorem success_of_nothing :
    Call.links.reply "/api/v1/lqi" { status := 204 } = .ok {} ∧ ¬ SaysOk [] :=
  (success_iff ⟨by decide, by decide⟩ .links "/api/v1/lqi" {}).2.mpr (.inl ⟨rfl, rfl⟩)

end Rest

namespace Session

open Rest (Envelope)

variable {r : Rest.Response}

/-- A pull of the link table that is answered without an envelope leaves the
session without any row, whatever it had. -/
theorem rows_unread (hsuccess : r.IsSuccess) (hunread : Envelope.read? r.body = none)
    (s later : State) (asked now : Instant) (cancelled : Bool) (path : Text) :
    ((pullLinks.run asked cancelled s).task.answer now cancelled later
      (.exchanged (.ok (path, r)))).state.monitor.rows = [] := by
  have hreply := Rest.reply_unread hsuccess .links path hunread
  simp only [pullLinks, Activity.ask, Bind.bind, Activity.bind, Activity.run, Task.answer,
    outcomeOf, hreply]
  rfl

/-- What a gateway serves while it starts. -/
def startingPage : Text := "<html>starting</html>"

/-- A session that knows of one link. -/
def linked : State :=
  let idle := State.idle (Rest.Client.new "http://gw" "" 0) (.new "ws://gw/ws" {}) .reconciling {}
  { idle with monitor := { idle.monitor with rows := [{ addr := 0x1001 }] } }

/-- The page is no envelope, and still it is taken for a link table; the
session forgets its link. -/
theorem startingPage_taken :
    Envelope.read? startingPage = none ∧
    Rest.Call.links.reply "/api/v1/lqi" { body := startingPage } = .ok {} ∧
    linked.monitor.rows = [{ addr := 0x1001 }] ∧
    ((pullLinks.run 0 false linked).task.answer 1 false linked
      (.exchanged (.ok ("/api/v1/lqi", { body := startingPage })))).state.monitor.rows = [] := by
  have hunread : Envelope.read? startingPage = none := by decide +kernel
  have hsuccess : Rest.Response.IsSuccess { body := startingPage } := ⟨by decide, by decide⟩
  exact ⟨hunread, Rest.reply_unread hsuccess _ _ hunread, rfl,
    rows_unread hsuccess hunread linked linked 0 1 false _⟩

end Session

end MeshConsole
