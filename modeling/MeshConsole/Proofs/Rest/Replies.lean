import MeshConsole.Job.Run
import MeshConsole.Proofs.Json.Fields
import MeshConsole.Proofs.Json.Peek
import MeshConsole.Simulator.Handler

/-!
# Replies to the simulator's answers

The simulator's answer to a call is an envelope around a value. The client
unwraps it and reads the value field by field (`reply_okResponse`); the receipt
and the report of a job come out as they went in.
-/

namespace MeshConsole

open Json
open Json.Value (Plain object_ne_null)

theorem Text.trimSpace_ne_nil (rest : Text) :
    (Text.trimSpace (Ascii.openBrace :: rest)).isEmpty = false := by
  have hhead : Text.headGlyph Ascii.openBrace rest =
      .scalar Ascii.openBrace.toNat [Ascii.openBrace] := rfl
  have hspace : Text.isSpaceCode Ascii.openBrace.toNat = false := by decide
  rw [Text.trimSpace, Text.glyphs_cons, hhead,
    List.dropWhile_cons_of_neg (by simp [hspace, Glyph.code])]
  simp only [List.reverse_cons, List.dropWhile_append]
  split
  · rw [List.dropWhile_cons_of_neg (by simp [hspace, Glyph.code])]
    rfl
  · simp [Glyph.bytes]

namespace Rest

open Simulator (okResponse errorResponse)

/-- The envelope of a body that was written as one. -/
theorem ofBody_envelope (members : Members) (hkeys : PlainKeys (members.map Prod.fst))
    (hplain : ∀ m ∈ members, Plain n m.2) (hdepth : n < Tree.depthLimit) (status : Int) :
    ∃ trees, Wrote members trees ∧ Tree.membersSkippable trees = true ∧
      ∀ e, Envelope.reader {} (.object trees) = some e →
        Envelope.ofBody (Simulator.envelope status members).body = e := by
  obtain ⟨written, hwritten, hperm⟩ := map_perm members
  have hbody : (Simulator.envelope status members).body =
      (Value.object written).render ++ [Ascii.newline] := by
    rw [← hwritten]
    rfl
  obtain ⟨trees, hparse, hwrote, hskip⟩ :=
    parse?_wrote hperm hkeys hplain hdepth (by decide : Gap [Ascii.newline])
  obtain ⟨rest, hrest⟩ := Plain.render_cons (.object fun m hm => hplain m (hperm.mem_iff.mp hm))
  refine ⟨trees, hwrote, hskip, fun e hread => ?_⟩
  rw [Envelope.ofBody, hbody]
  simp only [hparse, hread, Option.bind_eq_bind, Option.bind_some]
  rw [hrest, List.cons_append]
  simp [Text.trimSpace_ne_nil]

section
variable {data : Value} (hplain : Plain n data) (hdepth : n < Tree.depthLimit)
  (hnull : data ≠ .null)
include hplain hdepth hnull

omit hplain hdepth in
theorem read_envelope (hwrote : Wrote [("status", .text "ok"), ("data", data)] trees)
    (hskip : Tree.membersSkippable trees = true) :
    Envelope.reader {} (.object trees) = some { status := "ok", data := some data.render } := by
  let keys : List Text := ["status", "data"]
  have hfields : ∀ key ∈ keys, key ∈ (["status", "data", "error", "message"] : List Text) := by
    decide
  have herror : Key.hashBytes "error" ∉ keys.map Key.hashBytes := by decide
  have hmessage : Key.hashBytes "message" ∉ keys.map Key.hashBytes := by decide
  have hok : ("ok" : Text).scrub = "ok" := by decide
  obtain ⟨tree, hdata⟩ := hwrote.raw hskip (.tail _ (.head _)) hnull none
  have hstatus := hwrote.text (.head _) []
  rw [Envelope.reader, record_wrote hwrote hfields]
  simp only [hstatus, hdata, hwrote.absent herror, hwrote.absent hmessage]
  rw [hok]
  rfl

/-- The envelope of a value. -/
theorem ofBody_okResponse :
    Envelope.ofBody (okResponse data).body = { status := "ok", data := some data.render } := by
  let members : Members := [("status", .text "ok"), ("data", data)]
  have hkeys : PlainKeys (["status", "data"] : List Text) := by decide
  have hmembers : ∀ m ∈ members, Plain n m.2 :=
    List.forall_mem_cons.mpr ⟨.text, List.forall_mem_cons.mpr ⟨hplain, nofun⟩⟩
  obtain ⟨trees, hwrote, hskip, hread⟩ :=
    ofBody_envelope members hkeys hmembers hdepth 200
  exact hread _ (read_envelope hnull hwrote hskip)

/-- The reply is what the call's reader makes of the value. -/
theorem reply_okResponse (call : Call) (path : Text) {reply : call.Reply}
    (hread : Tree.parse? data.render >>= call.reader call.emptyReply = some reply) :
    call.reply path (okResponse data) = .ok reply := by
  have hstatus : ((okResponse data).status < 200 || 300 ≤ (okResponse data).status) = false := rfl
  rw [Call.reply, ofBody_okResponse hplain hdepth hnull]
  simp only [hstatus, hread]
  rfl

end

theorem reply_refused {call : Call} (path : Text) {response : Response}
    (h : 300 ≤ response.status) : ∃ why, call.reply path response = .error why := by
  have hcode : (response.status < 200 || 300 ≤ response.status) = true := by simp [h]
  simp only [Call.reply, hcode, if_true]
  exact ⟨_, rfl⟩

section
variable (code message : Text)

theorem read_refusal (hwrote : Wrote [("status", .text "error"),
      ("error", .map [("code", .text code), ("message", .text message)])] trees) :
    Envelope.reader {} (.object trees) = some {
      status := "error", error := some { code := code.scrub, message := message.scrub } } := by
  let keys : List Text := ["status", "error"]
  have hfields : ∀ key ∈ keys, key ∈ (["status", "data", "error", "message"] : List Text) := by
    decide
  have hdata : Key.hashBytes "data" ∉ keys.map Key.hashBytes := by decide
  have hmessage : Key.hashBytes "message" ∉ keys.map Key.hashBytes := by decide
  have hstatus : ("error" : Text).scrub = "error" := by decide
  have hinner : PlainKeys (["code", "message"] : List Text) := by decide
  obtain ⟨tree, hshows, hfield⟩ := hwrote.field (.tail _ (.head _))
  obtain ⟨fields, rfl, hwrote'⟩ := hshows.wrote_map hinner
  have hbody : ErrorBody.reader {} (.object fields) =
      some { code := code.scrub, message := message.scrub } := by
    refine (record_wrote hwrote' (fun _ hkey => hkey) _).trans ?_
    simp only [hwrote'.text (.head _), hwrote'.text (.tail _ (.head _))]
    rfl
  have herror : Reader.optional {} ErrorBody.reader none (.object fields) =
      some (some { code := code.scrub, message := message.scrub }) :=
    congrArg (Option.map some) hbody
  rw [Envelope.reader, record_wrote hwrote hfields]
  simp only [hwrote.text (.head _), hwrote.raw_absent hdata, hfield, herror,
    hwrote.absent hmessage]
  rw [hstatus]
  rfl

/-- The code and the message of a refusal are read back. -/
theorem reply_errorResponse (call : Call) (path : Text) {status : Int} (hstatus : 300 ≤ status)
    (hmessage : message ≠ []) : call.reply path (errorResponse status code message) =
      .error (.rejected status code.scrub message.scrub) := by
  let members : Members :=
    [("status", .text "error"), ("error", .map [("code", .text code), ("message", .text message)])]
  have hkeys : PlainKeys (["status", "error"] : List Text) := by decide
  have herror : Plain 1 (.map [("code", .text code), ("message", .text message)]) :=
    .map (List.forall_mem_cons.mpr ⟨.text, List.forall_mem_cons.mpr ⟨.text, nofun⟩⟩)
  have hplain : ∀ m ∈ members, Plain 1 m.2 :=
    List.forall_mem_cons.mpr ⟨.text, List.forall_mem_cons.mpr ⟨herror, nofun⟩⟩
  obtain ⟨trees, hwrote, -, hread⟩ :=
    ofBody_envelope members hkeys hplain (by decide) status
  have henvelope := hread _ (read_refusal code message hwrote)
  have hbody : Envelope.ofBody (errorResponse status code message).body = {
    status := "error", error := some { code := code.scrub, message := message.scrub } } := henvelope
  have hcode : ((errorResponse status code message).status < 200 ||
      300 ≤ (errorResponse status code message).status) = true := by
    simp [errorResponse, Simulator.envelope, hstatus]
  have hscrub : message.scrub.isEmpty = false :=
    List.isEmpty_eq_false_iff.mpr (Text.scrub_ne_nil hmessage)
  rw [Call.reply, hbody]
  simp only [hcode, if_true, Envelope.rejection, Option.map_some, Option.getD_some, hscrub]
  rfl

end

/-- A receipt is read back. -/
theorem reply_receipt (request : JobRequest) (path : Text) (receipt : JobReceipt) :
    (Call.submitJob request).reply path (okResponse receipt.toJson) =
      .ok { receipt with type := receipt.type.scrub, state := receipt.state.scrub } := by
  let keys : List Text := ["job_id", "type", "state"]
  let members : Members := [("job_id", .int receipt.id.toInt), ("type", .text receipt.type),
    ("state", .text receipt.state)]
  have hkeys : PlainKeys keys := by decide
  have hplain : ∀ m ∈ members, Plain 0 m.2 :=
    List.forall_mem_cons.mpr ⟨.int, List.forall_mem_cons.mpr ⟨.text,
      List.forall_mem_cons.mpr ⟨.text, List.forall_mem_nil _⟩⟩⟩
  obtain ⟨trees, hparse, hwrote, -⟩ :=
    parse?_wrote_alone (.refl members) hkeys hplain (by decide)
  have hread : JobReceipt.reader {} (.object trees) =
      some { receipt with type := receipt.type.scrub, state := receipt.state.scrub } := by
    refine (record_wrote hwrote (fun _ hkey => hkey) _).trans ?_
    simp only [hwrote.int64 (.head _), hwrote.text (.tail _ (.head _)),
      hwrote.text (.tail _ (.tail _ (.head _)))]
    rfl
  refine reply_okResponse (.object hplain) (by decide) (object_ne_null _) _ path ?_
  show Tree.parse? (Value.object members).render >>= JobReceipt.reader {} = _
  rw [hparse]
  exact hread

/-- What a report says of a job. -/
structure Reports (report : JobReport) (job : Simulator.SimJob) : Prop where
  state : report.state = job.state.scrub
  done : report.done = job.isDone
  result : report.result = job.result.map Value.render

/-- What is sent of a job. -/
def reportMembers (job : Simulator.SimJob) : Members := [
  ("job_id", .int job.id.toInt),
  ("type", .text job.type),
  ("state", .text job.state),
  ("done", .bool job.isDone),
  ("created_ms", .int job.createdMs.toNat),
  ("updated_ms", .int job.updatedMs.toNat),
  ("error", .text (if job.failure.isEmpty then "ESP_OK" else job.failure)),
  ("result", job.result.getD .null)]

section
variable {job : Simulator.SimJob}
  (hresult : ∀ result, job.result = some result → Plain n result ∧ result ≠ .null)
include hresult

theorem plain_reportMembers : ∀ m ∈ reportMembers job, Plain n m.2 := by
  have hlast : Plain n (job.result.getD .null) := by
    cases hjob : job.result with
    | none => exact .null
    | some result => exact (hresult result hjob).1
  simp only [reportMembers, List.forall_mem_cons]
  exact ⟨.int, .text, .text, .bool, .int, .int, .text, hlast, List.forall_mem_nil _⟩

theorem read_reportMembers (hwrote : Wrote (reportMembers job) trees)
    (hskip : Tree.membersSkippable trees = true) :
    ∃ report, JobReport.reader {} (.object trees) = some report ∧ Reports report job := by
  let failure : Text := if job.failure.isEmpty then "ESP_OK" else job.failure
  have hid : (("job_id" : Text), Value.int job.id.toInt) ∈ reportMembers job := by
    simp [reportMembers]
  have htype : (("type" : Text), Value.text job.type) ∈ reportMembers job := by
    simp [reportMembers]
  have hstate : (("state" : Text), Value.text job.state) ∈ reportMembers job := by
    simp [reportMembers]
  have hdone : (("done" : Text), Value.bool job.isDone) ∈ reportMembers job := by
    simp [reportMembers]
  have hcreated : (("created_ms" : Text), Value.int job.createdMs.toNat) ∈ reportMembers job := by
    simp [reportMembers]
  have hupdated : (("updated_ms" : Text), Value.int job.updatedMs.toNat) ∈ reportMembers job := by
    simp [reportMembers]
  have hfailure : (("error" : Text), Value.text failure) ∈ reportMembers job := by
    simp [reportMembers, failure]
  have hvalue : (("result" : Text), job.result.getD .null) ∈ reportMembers job := by
    simp [reportMembers]
  obtain ⟨found, hfound, htext⟩ :=
    hwrote.raw_getD hskip hvalue (fun v hv => (hresult v hv).2) none
  obtain ⟨tree, herror⟩ := hwrote.raw hskip hfailure nofun none
  let report : JobReport := {
    id := job.id, type := job.type.scrub, state := job.state.scrub, done := job.isDone
    createdMs := job.createdMs, updatedMs := job.updatedMs
    error := some (Value.text failure).render, result := found.map Prod.snd }
  refine ⟨report, ?_, rfl, rfl, htext⟩
  refine (record_wrote hwrote (fun _ hkey => hkey) _).trans ?_
  simp only [hwrote.int64 hid, hwrote.text htype, hwrote.text hstate, hwrote.bool hdone,
    hwrote.uint64 hcreated, hwrote.uint64 hupdated, herror, hfound]
  rfl

/-- A report is read back, its result as it was written. -/
theorem reply_report (id : Int64) (path : Text) (hdepth : n + 1 < Tree.depthLimit) :
    ∃ report, (Call.job id).reply path (okResponse job.toJson) = .ok report ∧
      Reports report job := by
  have hplain := plain_reportMembers hresult
  have hkeys : PlainKeys (["job_id", "type", "state", "done", "created_ms", "updated_ms", "error",
      "result"] : List Text) := by
    decide
  obtain ⟨written, hwritten, hperm⟩ := map_perm (reportMembers job)
  obtain ⟨trees, hparse, hwrote, hskip⟩ :=
    parse?_wrote_alone hperm hkeys hplain (by omega)
  obtain ⟨report, hread, hreports⟩ := read_reportMembers hresult hwrote hskip
  have hjson : job.toJson = .object written := hwritten
  have hobject : Plain (n + 1) job.toJson := by
    rw [hjson]
    exact .object fun m hm => hplain m (hperm.mem_iff.mp hm)
  refine ⟨report, ?_, hreports⟩
  refine reply_okResponse hobject hdepth (hjson ▸ object_ne_null _) _ path ?_
  rw [hjson, hparse]
  exact hread

end

end Rest

namespace Job

open Json.Peek

theorem nextValue_quotedText (t rest : Text) :
    nextValue (Ascii.colon :: (Value.quotedText t ++ rest)) =
      some (some (.string t.scrub), rest) := by
  have hescaped := escaped_glyphs t
  rw [quotedText_append]
  conv_lhs => whnf
  rw [hescaped.spelled.shut.quotedBody]
  simp only [List.reverse_nil, List.nil_append, hescaped.bodyText]

/-- The text that stands for the result's `error` comes back as it was. -/
theorem failureReason_of_result {f : Text} (hutf8 : f.isUtf8 = true) (hne : f ≠ [])
    (h : report.result = some (Value.map [("error", .text f)]).render) :
    failureReason report = f := by
  have hrender : (Value.map [("error", .text f)]).render = Ascii.openBrace ::
      (Value.quotedText "error" ++ Ascii.colon :: (Value.quotedText f ++ [Ascii.closeBrace])) := by
    rw [Value.map_singleton, Value.render_object (n := 0)]
    · simp [Value.memberText, Value.afterCommas]
      rfl
    · exact List.forall_mem_cons.mpr ⟨.text, List.forall_mem_nil _⟩
  have hkey : ("error" : Text).scrub = "error" := by decide
  have hfound : member? "error" (Value.map [("error", .text f)]).render = some (.string f) := by
    rw [hrender]
    refine (member?_object (List.forall_mem_nil _ : Gap []) _ _).trans ?_
    rw [quotedText_append, seek_step (escaped_glyphs _).spelled (by decide) (by decide)
      (nextValue_quotedText f _), if_pos hkey, Text.scrub_of_isUtf8 hutf8]
  have hresult : report.result >>= member? "error" = some (.string f) := by
    rw [h]
    exact hfound
  rw [failureReason, hresult]
  simp [nonEmptyString?, hne]

end Job

end MeshConsole
