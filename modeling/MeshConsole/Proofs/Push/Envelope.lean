import MeshConsole.Proofs.Json.Object
import MeshConsole.Push.Message

/-!
# Envelopes

A frame with a `status` member is an envelope, and what counts of it is the
value of its first `data` member. `decode_envelope`: the envelope decodes as
that value alone, whatever stands around it, and is refused when the value is
no object. The value is not unwrapped a second time.
-/

namespace MeshConsole.Push

open Json

/-- The value of the first entry with this name, as written. -/
def firstValue (name : Text) (entries : List Entry) : Option Text :=
  (entries.find? (·.key.name == name)).map (·.value)

theorem get?_entries (name : Text) (entries : List Entry) :
    Strict.Object.get? { text, members := entries.map Entry.member } name =
      firstValue name entries := by
  rw [Strict.Object.get?, List.find?_map, Option.map_map]
  rfl

theorem isSome_firstValue :
    (firstValue name entries).isSome = true ↔ ∃ e ∈ entries, e.key.name = name := by
  rw [firstValue, Option.isSome_map, List.find?_isSome]
  simp only [beq_iff_eq]

theorem isValue_of_firstValue (hvalues : ∀ e ∈ entries, IsValue e.value)
    (h : firstValue name entries = some t) : IsValue t := by
  obtain ⟨e, he, rfl⟩ := Option.map_eq_some_iff.mp h
  exact hvalues e (List.mem_of_find?_eq_some he)

/-- What an envelope must hold. -/
def required : Option α → Except Malformed α
  | none => .error .envelopeWithoutData
  | some inner => .ok inner

section
variable {entries : List Entry} {frame text inner : Text}
  (hobject : Strict.object? frame = some { text, members := entries.map Entry.member })
include hobject

/-- What unwrapping makes of an object depends on two of its members. -/
theorem unwrap_entries :
    unwrap frame =
      if (firstValue "status" entries).isSome then
        required (firstValue "data" entries >>= Strict.object?)
      else .ok { text, members := entries.map Entry.member } := by
  simp only [unwrap, hobject, Strict.Object.has, get?_entries]
  cases firstValue "data" entries >>= Strict.object? <;> rfl

section
variable (hstatus : ∃ e ∈ entries, e.key.name = "status")
include hstatus

theorem unwrap_envelope (hdata : firstValue "data" entries = some inner)
    (hinner : Strict.object? inner = some root) : unwrap frame = .ok root := by
  rw [unwrap_entries hobject, if_pos (isSome_firstValue.mpr hstatus), hdata]
  simp [hinner, required]

theorem unwrap_envelope_without_data (hvalues : ∀ e ∈ entries, IsValue e.value)
    (hdata : ∀ inner members, firstValue "data" entries = some inner →
      ¬ Joined (Document.object members).tokens inner) :
    unwrap frame = .error .envelopeWithoutData := by
  rw [unwrap_entries hobject, if_pos (isSome_firstValue.mpr hstatus)]
  cases h : firstValue "data" entries with
  | none => rfl
  | some inner =>
    obtain ⟨d, hd⟩ := isValue_of_firstValue hvalues h
    have hnone : Strict.object? inner = none := by
      refine object?_eq_none hd.framed fun members heq => ?_
      subst heq
      exact hdata inner members h hd
    simp [hnone, required]

end

theorem unwrap_bare (hstatus : ∀ e ∈ entries, e.key.name ≠ "status") :
    unwrap frame = .ok { text, members := entries.map Entry.member } := by
  rw [unwrap_entries hobject, if_neg]
  intro h
  obtain ⟨e, he, hname⟩ := isSome_firstValue.mp h
  exact hstatus e he hname

end

theorem name_of_writes {p : Text → Prop} (h : List.Forall₂ Entry.Writes members entries)
    (hmembers : ∀ m ∈ members, p m.1.name) : ∀ e ∈ entries, p e.key.name := by
  induction h with
  | nil => simp
  | cons hm _ ih =>
    obtain ⟨hfirst, hrest⟩ := List.forall_mem_cons.mp hmembers
    exact List.forall_mem_cons.mpr ⟨hm.1 ▸ hfirst, ih hrest⟩

/-- An envelope decodes as the object in its first `data` member does on its
own; without one it is refused. Neither the other members nor the blanks
matter. -/
theorem decode_envelope {entries : List Entry} {frame : Text}
    (hvalues : ∀ e ∈ entries, IsValue e.value) (hframe : Framed (entriesTokens entries) frame)
    (hstatus : ∃ e ∈ entries, e.key.name = "status") :
    (∀ inner members, firstValue "data" entries = some inner →
      Joined (Document.object members).tokens inner → (∀ m ∈ members, m.1.name ≠ "status") →
      ∃ message, decode inner = .ok message ∧ decode frame = .ok message) ∧
    ((∀ inner members, firstValue "data" entries = some inner →
      ¬ Joined (Document.object members).tokens inner) →
      decode frame = .error .envelopeWithoutData) := by
  have hobject := object?_eq_some_iff.mpr ⟨entries, hvalues, hframe, rfl⟩
  constructor
  · intro inner members hdata hinner hbare
    obtain ⟨entries', hwrites, hobject'⟩ := object?_document hinner.framed
    have hframe' := unwrap_envelope hobject hstatus hdata hobject'
    have hinner' := unwrap_bare hobject' (name_of_writes (p := (· ≠ "status")) hwrites hbare)
    exact ⟨_, congrArg (Except.map Message.ofObject) hinner',
      congrArg (Except.map Message.ofObject) hframe'⟩
  · intro hdata
    exact congrArg (Except.map Message.ofObject)
      (unwrap_envelope_without_data hobject hstatus hvalues hdata)

def statusKey : Quoted := ⟨"status", by decide⟩

def dataKey : Quoted := ⟨"data", by decide⟩

def typeKey : Quoted := ⟨"type", by decide⟩

def seqKey : Quoted := ⟨"seq", by decide⟩

def linkUpdate : List (Quoted × Document) :=
  [(typeKey, .string ⟨"lqi_state", by decide⟩), (seqKey, .number ⟨"7", by decide⟩),
    (dataKey, .object [(statusKey, .null)])]

def wrappedUpdate : List Entry :=
  [⟨seqKey, "1"⟩, ⟨statusKey, "null"⟩,
    ⟨dataKey, Text.join [] (Document.object linkUpdate).tokens⟩, ⟨dataKey, "2"⟩]

/-- Neither the envelope's own sequence number and later `data` nor the
`status` further down is seen. -/
theorem decode_wrappedUpdate :
    ∃ message,
      decode "\x7b\"type\":\"lqi_state\",\"seq\":7,\"data\":\x7b\"status\":null\x7d\x7d" =
        .ok message ∧
      decode (("\x7b \"seq\" : 1 , \"status\" : null , \"data\" : " : Text) ++
        "\x7b\"type\":\"lqi_state\",\"seq\":7,\"data\":\x7b\"status\":null\x7d\x7d" ++
        " , \"data\" : 2 \x7d") = .ok message := by
  have hinner : Joined (Document.object linkUpdate).tokens
      (Text.join [] (Document.object linkUpdate).tokens) :=
    joined_join (by simp [Gap]) (Document.tokens_ne_nil _)
  have hframe : Joined (entriesTokens wrappedUpdate)
      (Text.join " " (entriesTokens wrappedUpdate)) :=
    joined_join (by decide) (by simp [entriesTokens, enclosed, wrappedUpdate])
  exact (decode_envelope (by decide) hframe.framed (by decide)).1 _ linkUpdate rfl hinner
    (by decide)

end MeshConsole.Push
