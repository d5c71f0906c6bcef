import MeshConsole.Proofs.Json.Alike
import MeshConsole.Proofs.Push.Envelope

/-!
# Classification

What a frame is about is a property of the document it writes.
`decode_heading` gives the heading of a message (all of it but the payload)
as a function of the document, so blanks cannot matter, and that function
looks members up by name, so their order cannot matter either
(`decode_alike`).
-/

namespace MeshConsole.Push

open Json Json.Document

-- ---------------------------------------------------------------------------
-- Headings
-- ---------------------------------------------------------------------------

/-- A message without its payload. -/
structure Heading where
  kind : Kind
  type : Text
  seq : Option UInt64
  version : Option Int64
  ts : Int64
  deriving DecidableEq

def Message.heading (m : Message) : Heading where
  kind := m.kind
  type := m.type
  seq := m.seq
  version := m.version
  ts := m.ts

/-- The names a type goes by. -/
def aliases : List (Text × Kind) :=
  [("devices_delta", .devicesDelta), ("health_state", .healthState), ("lqi_update", .linkUpdate),
    ("lqi_state", .linkUpdate)]

/-- The kind of the first `type`, if that is an alias; else a member that
marks a flat status message decides. -/
def kindOf (members : List (Quoted × Document)) : Kind :=
  match lookup "type" members >>= text? >>= (List.lookup · aliases) with
  | some kind => kind
  | none =>
    if ∃ name ∈ legacyKeys, (lookup name members).isSome then .legacyStatus else .unknown

def Heading.ofMembers (members : List (Quoted × Document)) : Heading where
  kind := kindOf members
  type := (lookup "type" members >>= text?).getD []
  seq := lookup "seq" members >>= literal? >>= sequence?
  version := lookup "version" members >>= literal? >>= signed?
  ts := (lookup "ts" members >>= literal? >>= signed?).getD 0

/-- The members of the object a document is about: those of its first `data`
when it has a `status`, else its own. -/
def root? (d : Document) : Except Malformed (List (Quoted × Document)) :=
  match d.members? with
  | none => .error .frame
  | some members =>
    if (lookup "status" members).isSome then required (lookup "data" members >>= members?)
    else .ok members

-- ---------------------------------------------------------------------------
-- Decoding follows the document
-- ---------------------------------------------------------------------------

theorem string?_of_head (hb : b ≠ Ascii.quote) : Strict.string? (b :: rest) = none := by
  unfold Strict.string?
  split
  next heq => exact absurd (List.head_eq_of_cons_eq heq) hb
  next => rfl

theorem string?_document {d : Document} (h : Joined d.tokens t) :
    Strict.string? t = d.text? := by
  obtain ⟨b, rest, rfl, hb⟩ := begins_document h
  cases d with
  | string quoted =>
    rw [Document.tokens, joined_single_iff] at h
    rw [h]
    show (Strict.stringBody [] (quoted.body ++ [Ascii.quote])).map _ = _
    rw [isBody_iff.mp quoted.isBody]
    rfl
  | null | bool _ | number _ | array _ | object _ =>
    refine string?_of_head ?_
    rintro rfl
    obtain ⟨quoted, heq⟩ := hb.string
    cases heq

theorem number?_document {d : Document} (h : Joined d.tokens t) :
    Strict.number? t = d.literal? := by
  obtain ⟨b, rest, rfl, hb⟩ := begins_document h
  cases d with
  | number numeral =>
    rw [Document.tokens, joined_single_iff] at h
    rw [literal?, ← h]
    exact if_pos (by simpa [Document.Begins] using hb)
  | bool value => cases value <;> (obtain rfl : b = _ := hb; rfl)
  | null | string _ | array _ | object _ =>
    obtain rfl : b = _ := hb
    rfl

/-- A reading that is for numbers alone depends on the literal. -/
theorem reading_document {f : Text → Option α} (hf : ∀ t, Strict.number? t = none → f t = none)
    {d : Document} (h : Joined d.tokens t) : f t = d.literal? >>= f := by
  have hnumber := number?_document h
  cases d with
  | number numeral =>
    rw [Document.tokens, joined_single_iff] at h
    rw [h]
    rfl
  | null | bool _ | string _ | array _ | object _ => exact hf t hnumber

theorem sequence?_eq_none (t : Text) (h : Strict.number? t = none) : sequence? t = none := by
  unfold sequence?
  rw [h]
  rfl

theorem signed?_eq_none (t : Text) (h : Strict.number? t = none) : signed? t = none := by
  unfold signed?
  rw [h]
  rfl

theorem firstValue_cases (h : List.Forall₂ Entry.Writes members entries) (name : Text) :
    lookup name members = none ∧ firstValue name entries = none ∨
      ∃ d t, lookup name members = some d ∧ firstValue name entries = some t ∧
        Joined d.tokens t := by
  induction h with
  | nil => exact .inl ⟨rfl, rfl⟩
  | @cons m e members entries hm _ ih =>
    by_cases hname : m.1.name = name
    · refine .inr ⟨m.2, e.value, ?_, ?_, hm.2⟩
      · rw [lookup_cons, if_pos hname]
      · simp [firstValue, hm.1, hname]
    · rw [lookup_cons, if_neg hname]
      have hentries : firstValue name (e :: entries) = firstValue name entries := by
        simp [firstValue, hm.1, hname]
      rwa [hentries]

theorem firstValue_bind (h : List.Forall₂ Entry.Writes members entries) (name : Text)
    {f : Text → Option α} {g : Document → Option α}
    (hfg : ∀ d t, Joined (Document.tokens d) t → f t = g d) :
    firstValue name entries >>= f = lookup name members >>= g := by
  rcases firstValue_cases h name with ⟨hd, ht⟩ | ⟨d, t, hd, ht, hjoined⟩
  · rw [hd, ht]
    rfl
  · rw [hd, ht]
    exact hfg d t hjoined

theorem firstValue_reading (h : List.Forall₂ Entry.Writes members entries) (name : Text)
    {f : Text → Option α} (hf : ∀ t, Strict.number? t = none → f t = none) :
    firstValue name entries >>= f = lookup name members >>= literal? >>= f := by
  rw [bind_assoc]
  exact firstValue_bind h name fun d t => reading_document hf

theorem isSome_firstValue_writes (h : List.Forall₂ Entry.Writes members entries) (name : Text) :
    (firstValue name entries).isSome = (lookup name members).isSome := by
  rcases firstValue_cases h name with ⟨hd, ht⟩ | ⟨d, t, hd, ht, -⟩ <;> rw [hd, ht] <;> rfl

theorem ofType?_eq (type : Text) : Kind.ofType? type = List.lookup type aliases := by
  simp only [Kind.ofType?, aliases, List.lookup_cons, List.lookup_nil]
  repeat' split
  all_goals simp_all

/-- A missing type is no alias. -/
theorem ofType?_getD (type? : Option Text) :
    Kind.ofType? (type?.getD []) = type? >>= (List.lookup · aliases) := by
  cases type? with
  | none => rfl
  | some type => exact ofType?_eq type

section
variable (h : List.Forall₂ Entry.Writes members entries)
include h

theorem isLegacy_writes :
    isLegacy { text, members := entries.map Entry.member } =
      decide (∃ name ∈ legacyKeys, (lookup name members).isSome) := by
  rw [Bool.eq_iff_iff]
  simp only [isLegacy, List.any_eq_true, decide_eq_true_eq, Strict.Object.has, get?_entries,
    isSome_firstValue_writes h]

theorem heading_ofObject :
    (Message.ofObject { text, members := entries.map Entry.member }).heading =
      Heading.ofMembers members := by
  have htype := firstValue_bind h "type" fun d t => string?_document
  have hseq := firstValue_reading h "seq" sequence?_eq_none
  have hversion := firstValue_reading h "version" signed?_eq_none
  have hts := firstValue_reading h "ts" signed?_eq_none
  simp only [Message.ofObject, get?_entries, isLegacy_writes h, htype, hseq, hversion, hts,
    ofType?_getD]
  simp only [Heading.ofMembers, kindOf, Message.heading]
  cases lookup "type" members >>= text? >>= (List.lookup · aliases) with
  | some kind => rfl
  | none =>
    by_cases hlegacy : ∃ name ∈ legacyKeys, (lookup name members).isSome
    · simp [hlegacy]
    · simp [hlegacy]

end

theorem object?_heading {d : Document} (h : Framed d.tokens t) :
    (Strict.object? t).map (fun root => (Message.ofObject root).heading) =
      d.members?.map Heading.ofMembers := by
  cases d with
  | object members =>
    obtain ⟨entries, hwrites, hobject⟩ := object?_document h
    rw [hobject]
    exact congrArg some (heading_ofObject hwrites)
  | null | bool _ | number _ | string _ | array _ =>
    rw [object?_eq_none h (by simp)]
    rfl

/-- The `data` of an envelope is read as an object, whatever its own members
say. -/
theorem data_heading (h : List.Forall₂ Entry.Writes members entries) :
    (firstValue "data" entries >>= Strict.object?).map
        (fun root => (Message.ofObject root).heading) =
      (lookup "data" members >>= members?).map Heading.ofMembers := by
  rcases firstValue_cases h "data" with ⟨hd, ht⟩ | ⟨d, t, hd, ht, hjoined⟩
  · rw [hd, ht]
    rfl
  · rw [hd, ht]
    exact object?_heading hjoined.framed

theorem map_required {f : α → γ} {g : β → γ} (h : Option.map f x = Option.map g y) :
    (required x).map f = (required y).map g := by
  cases x with
  | none =>
    cases y with
    | none => rfl
    | some b => cases h
  | some a =>
    cases y with
    | none => cases h
    | some b => exact congrArg Except.ok (Option.some.inj h)

theorem decode_unwrap (frame : Text) :
    (decode frame).map Message.heading =
      (unwrap frame).map fun root => (Message.ofObject root).heading := by
  unfold decode
  cases unwrap frame <;> rfl

/-- What decoding tells of a frame beside its payload is told by the document
that the frame writes. -/
theorem decode_heading {d : Document} (h : Framed d.tokens frame) :
    (decode frame).map Message.heading = (root? d).map Heading.ofMembers := by
  cases d with
  | object members =>
    obtain ⟨entries, hwrites, hobject⟩ := object?_document h
    have hdata := data_heading hwrites
    rw [decode_unwrap, unwrap_entries hobject, isSome_firstValue_writes hwrites]
    simp only [root?, members?]
    split
    next => exact map_required hdata
    next => exact congrArg Except.ok (heading_ofObject hwrites)
  | null | bool _ | number _ | string _ | array _ =>
    have hnone := object?_eq_none h (by simp)
    rw [decode, unwrap, hnone]
    rfl

-- ---------------------------------------------------------------------------
-- Neither blanks nor the order of members matter
-- ---------------------------------------------------------------------------

theorem ofMembers_agree (h : Agree members members') :
    Heading.ofMembers members = Heading.ofMembers members' := by
  have hliteral := fun name => h.bind name fun _ _ => Alike.literal?
  have htext := fun name => h.bind name fun _ _ => Alike.text?
  simp only [Heading.ofMembers, kindOf, hliteral, htext, h.isSome]

theorem members_heading (h : Alike d d') :
    d.members?.map Heading.ofMembers = d'.members?.map Heading.ofMembers := by
  obtain ⟨hx, hy⟩ | ⟨members, members', hx, hy, hagree⟩ := rel_cases h.agree
  · rw [hx, hy]
  · rw [hx, hy]
    exact congrArg some (ofMembers_agree hagree)

theorem root_heading (h : Alike d d') :
    (root? d).map Heading.ofMembers = (root? d').map Heading.ofMembers := by
  obtain ⟨hx, hy⟩ | ⟨members, members', hx, hy, hagree⟩ := rel_cases h.agree
  · rw [root?, root?, hx, hy]
  · have hdata : (lookup "data" members >>= members?).map Heading.ofMembers =
        (lookup "data" members' >>= members?).map Heading.ofMembers := by
      simp only [Option.bind_eq_bind, Option.map_bind]
      exact hagree.bind "data" fun _ _ => members_heading
    simp only [root?, hx, hy, hagree.isSome]
    split
    next => exact map_required hdata
    next => exact congrArg Except.ok (ofMembers_agree hagree)

/-- Frames that write the same document, with any blanks and with the members
in any order that is the same for those of one name, are read alike; and the
kind they are given is that of their root. -/
theorem decode_alike {d d' : Document} (h : Alike d d') (hframe : Framed d.tokens frame)
    (hframe' : Framed d'.tokens frame') :
    (decode frame).map Message.heading = (decode frame').map Message.heading ∧
      ∀ root, root? d = .ok root → ∃ message, decode frame = .ok message ∧
        message.kind = kindOf root := by
  have hheading := decode_heading hframe
  constructor
  · rw [hheading, decode_heading hframe', root_heading h]
  · intro root hroot
    rw [hroot] at hheading
    cases hdecode : decode frame with
    | error => rw [hdecode] at hheading; cases hheading
    | ok message =>
      rw [hdecode] at hheading
      exact ⟨message, rfl, congrArg Heading.kind (Except.ok.inj hheading)⟩

def deltaMembers : List (Quoted × Document) :=
  [(typeKey, .string ⟨"devices_delta", by decide⟩), (seqKey, .number ⟨"3", by decide⟩),
    (⟨"pan_id", by decide⟩, .null)]

def delta : Document :=
  .object [(statusKey, .bool true), (dataKey, .object deltaMembers)]

def turnedDelta : Document :=
  .object [(dataKey, .object deltaMembers.reverse), (statusKey, .bool true)]

theorem delta_alike : Alike delta turnedDelta := by
  have hinner : Alike (.object deltaMembers) (.object deltaMembers.reverse) :=
    .of_perm deltaMembers.reverse_perm.symm (by decide)
  exact .trans (.member [_] [] _ hinner) (.swap [] [] (by decide))

/-- The same envelope with its members turned round on both levels and blanks
between them. -/
theorem decode_turnedRound :
    ∃ message,
      decode (("\x7b\"status\":true,\"data\":\x7b\"type\":\"devices_delta\"," : Text) ++
        "\"seq\":3,\"pan_id\":null\x7d\x7d") = .ok message ∧ message.kind = .devicesDelta ∧
      (decode (("\x7b \"data\" : \x7b \"pan_id\" : null , \"seq\" : 3 , " : Text) ++
        "\"type\" : \"devices_delta\" \x7d , \"status\" : true \x7d")).map Message.heading =
        .ok message.heading := by
  have hframe : Joined delta.tokens (Text.join [] delta.tokens) :=
    joined_join (by simp [Gap]) delta.tokens_ne_nil
  have hturned : Joined turnedDelta.tokens (Text.join " " turnedDelta.tokens) :=
    joined_join (by decide) turnedDelta.tokens_ne_nil
  obtain ⟨hheading, hkind⟩ := decode_alike delta_alike hframe.framed hturned.framed
  obtain ⟨message, hmessage, hdelta⟩ := hkind deltaMembers rfl
  refine ⟨message, hmessage, hdelta, ?_⟩
  rw [hmessage] at hheading
  exact hheading.symm

end MeshConsole.Push
