import MeshConsole.Proofs.Json.Rereading
import MeshConsole.Proofs.Simulator.Frames
import MeshConsole.Proofs.Simulator.Requests
import MeshConsole.Proofs.Text.Bytes

/-!
# Payloads of jobs

A submission has its type and its payload in one object. The simulator takes
the last of the keys that have the hash of `type`. The keys are sorted, and
capitals come before small letters, so no spelling of `type` comes after it. A
key of the same hash may be no spelling of it at all and come after it: then
the payload makes another job of the submission (`scan_resets`), and no other
keys can (`submission_keeps_type_iff`).
-/

namespace MeshConsole

open Json
open Json.Value (quotedText)

namespace Json

/-- Whether what is written with a key is read as the field `name`. -/
def readsAs (name key : Text) : Bool := (Key.written key).hash? == some (Key.hashBytes name)

theorem readsAs_spelling {name key : Text} (hname : ∀ b ∈ name, b < 0x80)
    (h : Text.lowerAscii key = name) : readsAs name key = true := by
  rw [readsAs, Key.hash?_spelling hname h]
  exact beq_self_eq_true _

theorem readsAs_type : readsAs "type" "type" = true := readsAs_spelling (by decide) rfl

end Json

-- ---------------------------------------------------------------------------
-- The fields of a submission
-- ---------------------------------------------------------------------------

namespace JobRequest

/-- What a payload may be: a map from texts to values that can be written. -/
structure IsProper (request : JobRequest) : Prop where
  type : request.type.isUtf8 = true
  keys : ∀ m ∈ request.payload, m.1.isUtf8 = true
  distinct : (request.payload.map Prod.fst).Nodup
  values : ∀ m ∈ request.payload, m.2.Writable

/-- A key other than `type` that comes after it and has its hash. -/
structure Impostor (key : Text) : Prop where
  after : Text.le "type" key = true
  other : key ≠ "type"
  hash : readsAs "type" key = true

/-- A spelling of `type` is read as the type, but comes before it. -/
theorem spelling_no_impostor {key : Text} (h : Text.lowerAscii key = "type") :
    readsAs "type" key = true ∧ ¬ Impostor key := by
  refine ⟨readsAs_spelling (by decide) h, fun himpostor => himpostor.other ?_⟩
  exact Text.le_antisymm (h ▸ Text.le_lowerAscii key) himpostor.after

/-- What is sent, but for the order. -/
def fields (request : JobRequest) : Members :=
  (("type" : Text), .text request.type) :: request.payload.filter (·.1 != ("type" : Text))

section
variable {request : JobRequest}

theorem fields_cases (hm : m ∈ request.fields) :
    m = (("type" : Text), .text request.type) ∨ m ∈ request.payload ∧ m.1 ≠ ("type" : Text) := by
  rcases List.mem_cons.mp hm with rfl | hm
  · exact .inl rfl
  · obtain ⟨hpayload, hother⟩ := List.mem_filter.mp hm
    exact .inr ⟨hpayload, bne_iff_ne.mp hother⟩

variable (h : request.IsProper)
include h

theorem scrub_fields (hm : m ∈ request.fields) : m.1.scrub = m.1 := by
  have htype : ("type" : Text).scrub = "type" := by decide
  rcases fields_cases hm with rfl | ⟨hpayload, -⟩
  · exact htype
  · exact Text.scrub_of_isUtf8 (h.keys m hpayload)

theorem writable_fields : ∀ m ∈ request.fields, m.2.Writable := by
  intro m hm
  rcases fields_cases hm with rfl | ⟨hpayload, -⟩
  · rfl
  · exact h.values m hpayload

theorem nodup_fields : (request.fields.map Prod.fst).Nodup := by
  rw [fields, List.map_cons, List.nodup_cons]
  refine ⟨fun hmem => ?_, ?_⟩
  · obtain ⟨m, hm, hkey⟩ := List.mem_map.mp hmem
    exact bne_iff_ne.mp (List.mem_filter.mp hm).2 hkey
  · exact h.distinct.sublist (List.filter_sublist.map Prod.fst)

/-- Sorted by their keys, no field after the type is read as the type, if no
impostor is among them. -/
theorem type_last (hno : ∀ m ∈ request.payload, ¬ Impostor m.1) {written : Members}
    (hperm : written.Perm request.fields)
    (hsorted : written.Pairwise fun a b => Text.le a.1 b.1 = true) :
    ∃ front, (written.filter fun m => readsAs "type" m.1) =
      front ++ [(("type" : Text), .text request.type)] := by
  obtain ⟨before, after, rfl⟩ := List.append_of_mem (hperm.mem_iff.mpr (.head _))
  have hlate : ∀ m ∈ after, Text.le "type" m.1 = true :=
    (List.pairwise_cons.mp (List.pairwise_append.mp hsorted).2.1).1
  have hdistinct : ("type" : Text) ∉ after.map Prod.fst := by
    have hnodup := (hperm.map Prod.fst).nodup_iff.mpr (nodup_fields h)
    rw [List.map_append, List.map_cons] at hnodup
    exact (List.nodup_cons.mp (List.nodup_append.mp hnodup).2.1).1
  have hnone : (after.filter fun m => readsAs "type" m.1) = [] := by
    refine List.filter_eq_nil_iff.mpr fun m hm hreads => ?_
    have hother : m.1 ≠ "type" := fun heq => hdistinct (heq ▸ List.mem_map_of_mem hm)
    have hmem : m ∈ request.fields :=
      hperm.mem_iff.mp (List.mem_append_right _ (.tail _ hm))
    rcases fields_cases hmem with rfl | ⟨hpayload, -⟩
    · exact hother rfl
    · exact hno m hpayload ⟨hlate m hm, hother, hreads⟩
  rw [List.filter_append, List.filter_cons, if_pos readsAs_type, hnone]
  exact ⟨_, rfl⟩

end

end JobRequest

namespace Json

theorem Names.filter {members : Members} (name : Text) (h : List.Forall₂ Names members trees) :
    List.Forall₂ Names (members.filter fun m => readsAs name m.1)
      (trees.filter (Tree.Member.isNamed name)) := by
  refine List.rel_filter ?_ h
  rintro m tree ⟨hkey, -⟩
  simp only [Tree.Member.isNamed, readsAs, hkey]

/-- The last text among the readings of a field is what is read. -/
theorem field_of_last {members : Members} {name t : Text} (h : List.Forall₂ Names members trees)
    (hlast : ∃ front, (members.filter fun m => readsAs name m.1) = front ++ [(key, .text t)])
    (hread : Reader.field name Reader.text old trees = some found) : found = t.scrub := by
  obtain ⟨front, hfront⟩ := hlast
  have hnames := List.rel_reverse (Names.filter name h)
  rw [hfront, List.reverse_concat] at hnames
  rw [Reader.field] at hread
  generalize trees.filter (Tree.Member.isNamed name) = named at hnames hread
  obtain ⟨member, rest, hmember, -, hnamed⟩ := List.forall₂_cons_left_iff.mp hnames
  obtain rfl : named = rest.reverse ++ [member] := by
    rw [← List.reverse_reverse named, hnamed, List.reverse_cons]
  rw [List.foldlM_append, Option.bind_eq_bind, Option.bind_eq_some_iff] at hread
  obtain ⟨value, -, hstep⟩ := hread
  rw [List.foldlM_cons, hmember.text t rfl] at hstep
  exact (Option.some.inj hstep).symm

theorem Value.ShowsMember.names (h : Value.ShowsMember m member) : Names m member := by
  obtain ⟨hshows⟩ := h
  refine ⟨rfl, fun t ht => ?_⟩
  rw [ht] at hshows
  cases hshows
  rfl

theorem shown_of_mem {members : Members} (h : List.Forall₂ Value.ShowsMember members trees)
    (hmember : member ∈ trees) : ∃ m ∈ members, Value.ShowsMember m member := by
  induction h with
  | nil => cases hmember
  | cons hshows _ ih =>
    rcases List.mem_cons.mp hmember with rfl | hmember
    · exact ⟨_, .head _, hshows⟩
    · obtain ⟨m, hm, hshows⟩ := ih hmember
      exact ⟨m, .tail _ hm, hshows⟩

/-- A field is read when each of its readings succeeds. -/
theorem field_keeps {P : α → Prop} {read : Reader α} {trees : List Tree.Member}
    (hstep : ∀ m ∈ trees, m.isNamed name = true → ∀ value, P value →
      ∃ next, read value m.value = some next ∧ P next) (hold : P old) :
    ∃ found, Reader.field name read old trees = some found ∧ P found := by
  have hnamed : ∀ m ∈ trees.filter (Tree.Member.isNamed name), ∀ value, P value →
      ∃ next, read value (Tree.Member.value m) = some next ∧ P next := fun m hm =>
    hstep m (List.mem_filter.mp hm).1 (List.mem_filter.mp hm).2
  rw [Reader.field]
  generalize trees.filter (Tree.Member.isNamed name) = named at hnamed
  induction named generalizing old with
  | nil => exact ⟨old, rfl, hold⟩
  | cons m named ih =>
    obtain ⟨hm, hnamed⟩ := List.forall_mem_cons.mp hnamed
    obtain ⟨next, hread, hnext⟩ := hm old hold
    rw [List.foldlM_cons, hread]
    exact ih hnext hnamed

end Json

namespace JobRequest

section
variable {request : JobRequest} (h : request.IsProper)
include h

/-- The fields as they are sent. -/
theorem toJson_sorted : ∃ written, request.toJson = .object written ∧
    written.Perm request.fields ∧ (Value.object written).Writable ∧
    written.Pairwise fun a b => Text.le a.1 b.1 = true := by
  obtain ⟨written, hwritten, hperm⟩ : ∃ written, written = request.fields.mergeSort
      (fun a b => Text.le a.1 b.1) ∧ written.Perm request.fields :=
    ⟨_, rfl, List.mergeSort_perm _ _⟩
  refine ⟨written, by rw [hwritten]; rfl, hperm, ?_, ?_⟩
  · exact .object fun m hm => writable_fields h m (hperm.mem_iff.mp hm)
  · rw [hwritten]
    exact List.pairwise_mergeSort (fun a b c => Text.le_trans a.1 b.1 c.1)
      (fun a b => Text.le_total a.1 b.1) _

theorem type_of_order (hno : ∀ m ∈ request.payload, ¬ Impostor m.1)
    {order : Simulator.JobOrder}
    (hread : Simulator.readBody? Simulator.JobOrder.reader {} request.toJson.render = some order) :
    order.type = request.type := by
  obtain ⟨written, hjson, hperm, hwritable, hsorted⟩ := toJson_sorted h
  rw [hjson, Simulator.readBody?] at hread
  obtain ⟨tree, hfirst, hreader⟩ := Option.bind_eq_some_iff.mp hread
  obtain ⟨trees, rfl, hnames⟩ := first?_members hwritable hfirst
  rw [Simulator.JobOrder.reader, Reader.record] at hreader
  split at hreader
  case isFalse => cases hreader
  case isTrue =>
    obtain ⟨type, htype, hreader⟩ := Option.bind_eq_some_iff.mp hreader
    obtain ⟨delay, -, hreader⟩ := Option.bind_eq_some_iff.mp hreader
    obtain rfl := Option.some.inj hreader
    rw [← Text.scrub_of_isUtf8 h.type]
    exact field_of_last hnames (type_last h hno hperm hsorted) htype

end

-- ---------------------------------------------------------------------------
-- The members of a body
-- ---------------------------------------------------------------------------

/-- One member for the type, one for each other field of the payload, and no
more. -/
structure Flattens (request : JobRequest) (members : List Strict.Member) : Prop where
  distinct : (members.map Strict.Member.key).Nodup
  type : ∃ text, { key := "type", value := text } ∈ members ∧
    Strict.string? text = some request.type
  payload : ∀ m ∈ request.payload, m.1 ≠ ("type" : Text) →
    { key := m.1, value := m.2.render } ∈ members
  keys : ∀ key ∈ members.map Strict.Member.key, key = "type" ∨ key ∈ request.payload.map Prod.fst

section
variable {request : JobRequest} (h : request.IsProper)
include h

theorem flattens_body : ∃ members, Strict.object? request.toJson.render =
      some { text := request.toJson.render, members } ∧ request.Flattens members := by
  obtain ⟨written, hjson, hperm, hwritable, -⟩ := toJson_sorted h
  have hkeys : ((written.map Entry.of).map Entry.member).map Strict.Member.key =
      written.map Prod.fst := by
    rw [List.map_map, List.map_map]
    refine List.map_congr_left fun m hm => ?_
    show (Quoted.of m.1).name = m.1
    rw [Quoted.name_of, scrub_fields h (hperm.mem_iff.mp hm)]
  have hmember {m : Text × Value} (hm : m ∈ request.fields) :
      { key := m.1, value := m.2.render } ∈ (written.map Entry.of).map Entry.member := by
    refine List.mem_map.mpr ⟨Entry.of m, List.mem_map_of_mem (hperm.mem_iff.mpr hm), ?_⟩
    rw [Entry.member, Entry.of, Quoted.name_of, scrub_fields h hm]
  refine ⟨_, by rw [hjson]; exact object?_of_render? hwritable, ?_, ?_, ?_, ?_⟩
  · rw [hkeys]
    exact (hperm.map Prod.fst).nodup_iff.mpr (nodup_fields h)
  · refine ⟨quotedText request.type, hmember (.head _), ?_⟩
    rw [Push.string?_quotedText, Text.scrub_of_isUtf8 h.type]
  · intro m hm hother
    exact hmember (.tail _ (List.mem_filter.mpr ⟨hm, bne_iff_ne.mpr hother⟩))
  · intro key hkey
    rw [hkeys] at hkey
    obtain ⟨m, hm, rfl⟩ := List.mem_map.mp hkey
    rcases fields_cases (hperm.mem_iff.mp hm) with rfl | ⟨hpayload, -⟩
    · exact .inl rfl
    · exact .inr (List.mem_map_of_mem hpayload)

end

end JobRequest

-- ---------------------------------------------------------------------------
-- Submissions
-- ---------------------------------------------------------------------------

namespace Simulator

/-- A submission is refused, or one job of the type is queued. -/
inductive Submits (s : Simulator) (type : Text) : Served → Prop where
  | refused (message : Text) : Submits s type { simulator := s, response := invalid message }
  | queued {effects : List Effect} (job : SimJob) : job.id = s.lastJobId + 1 → job.type = type →
      Submits s type {
        simulator := { s with lastJobId := job.id, jobs := s.jobs.set job.id job }
        effects
        response := okResponse (JobReceipt.toJson { id := job.id, type, state := job.state }) }

theorem Submits.type_eq (h : Submits s type served) (hok : served.response.status = 200)
    (hjob : served.simulator.jobs.get? (s.lastJobId + 1) = some job) : job.type = type := by
  cases h with
  | refused =>
    have hcode : (400 : Int) = 200 := hok
    exact absurd hcode (by decide)
  | queued job' hid htype =>
    rw [hid, Table.get?_set, if_pos rfl] at hjob
    exact Option.some.inj hjob ▸ htype

section
variable {r : Incoming} (hmethod : r.method = "POST") (hpath : r.url.path = jobsPath)
include hmethod hpath

theorem serve_jobs (s : Simulator) (now : Instant) : s.serve now r = s.serveSubmit now r :=
  serve_route (hpath ▸ clean_jobsPath) (hpath ▸ ofPath?_jobsPath) hmethod s now

theorem serve_proper {request : JobRequest} (h : request.IsProper)
    (hno : ∀ m ∈ request.payload, ¬ JobRequest.Impostor m.1)
    (hbody : r.body = request.toJson.render) (s : Simulator) (now : Instant) :
    Submits s request.type (s.serve now r) := by
  rw [serve_jobs hmethod hpath, serveSubmit, hbody]
  cases hread : readBody? JobOrder.reader {} request.toJson.render with
  | none => exact .refused _
  | some order =>
    have htype := JobRequest.type_of_order h hno hread
    dsimp only
    split
    · exact .refused _
    · rw [htype]
      exact .queued (s.queueJob now request.type order.delayMs).2 rfl rfl

theorem serve_order (hread : readBody? JobOrder.reader {} r.body = some order)
    (hknown : order.type ∈ jobTypes) (s : Simulator) (now : Instant) :
    (s.serve now r).simulator = (s.queueJob now order.type order.delayMs).1 ∧
      (s.serve now r).response = okResponse (JobReceipt.toJson {
        id := s.lastJobId + 1, type := order.type, state := "queued" }) := by
  have hcontains : jobTypes.contains order.type = true := by simpa using hknown
  rw [serve_jobs hmethod hpath, serveSubmit, hread]
  simp only [hcontains, Bool.not_true]
  exact ⟨rfl, rfl⟩

end

end Simulator

-- ---------------------------------------------------------------------------
-- Impostors
-- ---------------------------------------------------------------------------

namespace JobRequest

/-- A scan, with a payload that asks for a factory reset wherever it is read
as the type. -/
def imposture (keys : List Text) : JobRequest where
  type := "scan"
  payload := keys.map fun key =>
    (key, if readsAs "type" key then .text "factory_reset" else .null)

section
variable {keys : List Text}

theorem imposture_keys : (imposture keys).payload.map Prod.fst = keys := by
  simp [imposture, Function.comp_def]

/-- A field of the request that is read as the type is the type itself or asks
for a factory reset. All others are empty. -/
theorem imposture_cases (hm : m ∈ (imposture keys).fields) :
    m = (("type" : Text), .text "scan") ∨
      m.1 ≠ "type" ∧ m.2 = if readsAs "type" m.1 then .text "factory_reset" else .null := by
  rcases fields_cases hm with rfl | ⟨hpayload, hother⟩
  · exact .inl rfl
  · obtain ⟨key, -, rfl⟩ := List.mem_map.mp hpayload
    exact .inr ⟨hother, rfl⟩

theorem imposture_value (hm : m ∈ (imposture keys).fields) :
    (readsAs "type" m.1 = true ∧ ∃ t, m.2 = .text t) ∨
      readsAs "type" m.1 = false ∧ m.2 = .null := by
  rcases imposture_cases hm with rfl | ⟨-, hvalue⟩
  · exact .inl ⟨readsAs_type, _, rfl⟩
  · cases hreads : readsAs "type" m.1 with
    | true => exact .inl ⟨rfl, _, by rw [hvalue, if_pos hreads]⟩
    | false => exact .inr ⟨rfl, by rw [hvalue, if_neg (by simp [hreads])]⟩

theorem imposture_plain (hm : m ∈ (imposture keys).fields) : Value.Plain 0 m.2 := by
  obtain ⟨-, t, ht⟩ | ⟨-, hnull⟩ := imposture_value hm
  · exact ht ▸ .text
  · exact hnull ▸ .null

section
variable {trees : List Tree.Member}
  (hmembers : ∀ member ∈ trees, ∃ m ∈ (imposture keys).fields, Value.ShowsMember m member)
include hmembers

theorem imposture_accepted (names : List Text) :
    trees.all (Tree.Member.isAccepted names) = true := by
  refine List.all_eq_true.mpr fun member hmember => ?_
  obtain ⟨m, hm, hshows⟩ := hmembers member hmember
  obtain @⟨_, tree, rest, hvalue⟩ := hshows
  have hskippable : tree.isSkippable = true := by
    obtain ⟨-, t, ht⟩ | ⟨-, hnull⟩ := imposture_value hm
    · rw [ht] at hvalue
      cases hvalue
      rfl
    · rw [hnull] at hvalue
      cases hvalue
      rfl
  exact Bool.or_eq_true _ _ ▸ .inr hskippable

theorem imposture_type : ∃ found, Reader.field "type" Reader.text [] trees = some found := by
  have hstep : ∀ m ∈ trees, m.isNamed "type" = true → ∀ value, True →
      ∃ next, Reader.text value m.value = some next ∧ True := by
    intro member hmember hnamed value _
    obtain ⟨m, hm, hshows⟩ := hmembers member hmember
    obtain @⟨_, tree, rest, hvalue⟩ := hshows
    obtain ⟨-, t, ht⟩ | ⟨hreads, -⟩ := imposture_value hm
    · rw [ht] at hvalue
      cases hvalue
      exact ⟨_, rfl, trivial⟩
    · exact absurd (hreads.symm.trans hnamed) Bool.false_ne_true
  obtain ⟨found, hfound, -⟩ := field_keeps hstep trivial
  exact ⟨found, hfound⟩

theorem imposture_delay : Reader.field "reboot_delay_ms" Reader.int64 0 trees = some 0 := by
  have hstep : ∀ m ∈ trees, m.isNamed "reboot_delay_ms" = true → ∀ value, value = 0 →
      ∃ next, Reader.int64 value m.value = some next ∧ next = 0 := by
    intro member hmember hnamed value hzero
    obtain ⟨m, hm, hshows⟩ := hmembers member hmember
    obtain @⟨_, tree, rest, hvalue⟩ := hshows
    obtain ⟨hreads, -⟩ | ⟨-, hnull⟩ := imposture_value hm
    · have hdelay : some (Key.hashBytes "type") = some (Key.hashBytes "reboot_delay_ms") :=
        (eq_of_beq hreads).symm.trans (eq_of_beq hnamed)
      exact absurd hdelay (by decide)
    · rw [hnull] at hvalue
      cases hvalue
      exact ⟨value, rfl, hzero⟩
  obtain ⟨found, hfound, rfl⟩ := field_keeps hstep rfl
  exact hfound

end

/-- Behind the type an impostor is read last. -/
theorem imposture_last {written : Members} (hkey : key ∈ keys) (himpostor : Impostor key)
    (hperm : written.Perm (imposture keys).fields)
    (hsorted : written.Pairwise fun a b => Text.le a.1 b.1 = true) :
    ∃ front last, (written.filter fun m => readsAs "type" m.1) =
      front ++ [(last, .text "factory_reset")] := by
  have hmem : (key, Value.text "factory_reset") ∈ written.filter fun m => readsAs "type" m.1 := by
    refine List.mem_filter.mpr ⟨hperm.mem_iff.mpr (.tail _ ?_), himpostor.hash⟩
    refine List.mem_filter.mpr ⟨List.mem_map.mpr ⟨key, hkey, ?_⟩, bne_iff_ne.mpr himpostor.other⟩
    rw [if_pos himpostor.hash]
  obtain hnil | ⟨front, last, hlast⟩ :=
    List.eq_nil_or_concat' (written.filter fun m => readsAs "type" m.1)
  · rw [hnil] at hmem
    cases hmem
  · obtain ⟨hwritten, hreads⟩ : last ∈ written ∧ readsAs "type" last.1 = true :=
      List.mem_filter.mp (hlast ▸ List.mem_append_right _ (.head _))
    rcases imposture_cases (hperm.mem_iff.mp hwritten) with rfl | ⟨-, hvalue⟩
    · have hordered := hsorted.filter fun m => readsAs "type" m.1
      rw [hlast] at hordered hmem
      rcases List.mem_append.mp hmem with hfront | hsame
      · have hearly := (List.pairwise_append.mp hordered).2.2 _ hfront _ (.head _)
        exact absurd (Text.le_antisymm hearly himpostor.after) himpostor.other
      · have hkey := congrArg Prod.fst (List.mem_singleton.mp hsame)
        exact absurd hkey himpostor.other
    · rw [if_pos hreads] at hvalue
      exact ⟨front, last.1, by rw [hlast, ← hvalue]⟩

variable (hutf8 : ∀ key ∈ keys, key.isUtf8 = true) (hdistinct : keys.Nodup)
include hutf8 hdistinct

theorem imposture_proper : (imposture keys).IsProper where
  type := by
    have hscan : ("scan" : Text).isUtf8 = true := by decide
    exact hscan
  keys m hm := by
    obtain ⟨key, hkey, rfl⟩ := List.mem_map.mp hm
    exact hutf8 key hkey
  distinct := by rwa [imposture_keys]
  values m hm := by
    obtain ⟨key, -, rfl⟩ := List.mem_map.mp hm
    dsimp only
    split <;> rfl

/-- What the simulator reads is a factory reset. -/
theorem imposture_order (hkey : key ∈ keys) (himpostor : Impostor key) :
    Simulator.readBody? Simulator.JobOrder.reader {} (imposture keys).toJson.render =
      some { type := "factory_reset" } := by
  obtain ⟨written, hjson, hperm, -, hsorted⟩ := toJson_sorted (imposture_proper hutf8 hdistinct)
  have hplain : Value.Plain 1 (.object written) :=
    .object fun m hm => imposture_plain (hperm.mem_iff.mp hm)
  obtain ⟨trees, hfirst, hshows⟩ := first?_object hplain (by decide) Simulator.bodyPortion
  have hmembers : ∀ member ∈ trees, ∃ m ∈ (imposture keys).fields,
      Value.ShowsMember m member := by
    intro member hmember
    obtain ⟨m, hm, hshown⟩ := shown_of_mem hshows hmember
    exact ⟨m, hperm.mem_iff.mp hm, hshown⟩
  have htype : Reader.field "type" Reader.text [] trees = some ("factory_reset" : Text) := by
    have hscrub : ("factory_reset" : Text).scrub = "factory_reset" := by decide
    obtain ⟨front, last, hlast⟩ := imposture_last hkey himpostor hperm hsorted
    obtain ⟨found, hfound⟩ := imposture_type hmembers
    have hnames : List.Forall₂ Names written trees := hshows.imp fun _ _ h => h.names
    rw [hfound, field_of_last hnames ⟨front, hlast⟩ hfound, hscrub]
  rw [hjson, Simulator.readBody?, hfirst]
  show Simulator.JobOrder.reader {} (.object trees) = _
  rw [Simulator.JobOrder.reader, Reader.record, if_pos (imposture_accepted hmembers _)]
  simp only [htype, imposture_delay hmembers]
  rfl

end

end JobRequest

namespace Simulator

/-- The keys of a payload that leave a submission its type, whatever stands
under them, are those without an impostor. Whatever they are, the body has the
type and the payload in it, each field once; and no spelling of `type` is an
impostor. -/
theorem submission_keeps_type_iff {keys : List Text} (hutf8 : ∀ key ∈ keys, key.isUtf8 = true)
    (hdistinct : keys.Nodup) :
    (∀ request : JobRequest, request.IsProper → request.payload.map Prod.fst = keys →
      ∃ members, Strict.object? request.toJson.render =
        some { text := request.toJson.render, members } ∧ request.Flattens members) ∧
    ((∀ request : JobRequest, request.IsProper → request.payload.map Prod.fst = keys →
        ∀ (s : Simulator) (now : Instant) (r : Incoming), r.method = "POST" →
          r.url.path = jobsPath → r.body = request.toJson.render →
          Submits s request.type (s.serve now r)) ↔
      ∀ key ∈ keys, ¬ JobRequest.Impostor key) ∧
    ∀ key, Text.lowerAscii key = "type" → readsAs "type" key = true ∧
      ¬ JobRequest.Impostor key := by
  refine ⟨fun request h _ => JobRequest.flattens_body h, ⟨fun hkeeps key hkey himpostor => ?_,
    fun hno request h hkeys s now r hmethod hpath hbody => ?_⟩,
    fun key => JobRequest.spelling_no_impostor⟩
  · let r : Incoming := {
      method := "POST", url := { path := jobsPath }
      body := (JobRequest.imposture keys).toJson.render }
    have hsubmits := hkeeps _ (JobRequest.imposture_proper hutf8 hdistinct)
      JobRequest.imposture_keys {} 0 r rfl rfl rfl
    obtain ⟨hsimulator, hresponse⟩ := serve_order (r := r) rfl rfl
      (JobRequest.imposture_order hutf8 hdistinct hkey himpostor) (by decide) {} 0
    have htype : ("factory_reset" : Text) = "scan" :=
      hsubmits.type_eq (by rw [hresponse]; rfl) (by rw [hsimulator]; rfl)
    exact absurd htype (by decide)
  · refine serve_proper hmethod hpath h (fun m hm => ?_) hbody s now
    exact hno m.1 (hkeys ▸ List.mem_map_of_mem hm)

/-- A scan whose payload asks for something else in three spellings. -/
def disguised : JobRequest where
  type := "scan"
  payload := [("TYPE", .text "factory_reset"), ("type", .text "update"), ("Type", .null),
    ("reboot_delay_ms", .int 5)]

theorem disguised_scans : Submits oneDevice "scan" (oneDevice.serve 0 {
    method := "POST", url := { path := jobsPath }, body := disguised.toJson.render }) := by
  have hproper : disguised.IsProper := ⟨by decide, by decide, by decide, by decide⟩
  have hno : ∀ key ∈ disguised.payload.map Prod.fst, ¬ JobRequest.Impostor key := by
    have hnone : ∀ key ∈ disguised.payload.map Prod.fst,
        Text.le "type" key = true → key = "type" := by
      decide
    exact fun key hkey himpostor => himpostor.other (hnone key hkey himpostor.after)
  have hutf8 : ∀ key ∈ disguised.payload.map Prod.fst, key.isUtf8 = true := by decide
  obtain ⟨-, hkeeps, -⟩ := submission_keeps_type_iff hutf8 (by decide)
  exact hkeeps.mpr hno disguised hproper rfl _ _ _ rfl rfl rfl

/-- A scan with a word in its payload that is no spelling of `type`. -/
def colliding : JobRequest where
  type := "scan"
  payload := [("zrvhrn5inypf9lqjqttwc", .text "factory_reset")]

def collidingScan : Incoming where
  method := "POST"
  url := { path := jobsPath }
  body := colliding.toJson.render

/-- The word has the hash of `type`: a factory reset is queued, and no scan. -/
theorem scan_resets : colliding.IsProper ∧
    ((oneDevice.serve 0 collidingScan).simulator.jobs.get? (oneDevice.lastJobId + 1)).map
      SimJob.type = some ("factory_reset" : Text) ∧
    ¬ Submits oneDevice colliding.type (oneDevice.serve 0 collidingScan) := by
  let word : Text := "zrvhrn5inypf9lqjqttwc"
  have hword : JobRequest.Impostor word := ⟨by decide, by decide, by decide⟩
  have hcolliding : colliding = JobRequest.imposture [word] := by
    rw [JobRequest.imposture, List.map_singleton, if_pos hword.hash]
    rfl
  have hread : readBody? JobOrder.reader {} (JobRequest.imposture [word]).toJson.render =
      some { type := "factory_reset" } :=
    JobRequest.imposture_order (by decide) (by decide) (.head _) hword
  obtain ⟨hsimulator, hresponse⟩ := serve_order (r := collidingScan) rfl rfl
    (by rw [collidingScan, hcolliding]; exact hread) (by decide) oneDevice 0
  refine ⟨⟨by decide, by decide, by decide, by decide⟩, by rw [hsimulator]; rfl,
    fun hsubmits => ?_⟩
  have hsame : ("factory_reset" : Text) = "scan" :=
    hsubmits.type_eq (by rw [hresponse]; rfl) (by rw [hsimulator]; rfl)
  exact absurd hsame (by decide)

end Simulator

end MeshConsole
