import MeshConsole.Proofs.Json.Object
import MeshConsole.Proofs.Json.RealText

/-!
# What is written is JSON

A value that can be written at all is written by the letter of the grammar
(`isValue_of_render?`), however deep it is and whatever its numbers are.
-/

namespace MeshConsole.Json

open Document (itemsTokens membersTokens)
open Value (glyphText quotedText realText? renderItems? renderMembers?)

-- ---------------------------------------------------------------------------
-- Strings
-- ---------------------------------------------------------------------------

theorem isHex_of_hex4? (h : hex4? a b c d = some code) :
    Strict.isHex a = true ∧ Strict.isHex b = true ∧ Strict.isHex c = true ∧
      Strict.isHex d = true := by
  unfold hex4? at h
  obtain ⟨w, ha, h⟩ := Option.bind_eq_some_iff.mp h
  obtain ⟨x, hb, h⟩ := Option.bind_eq_some_iff.mp h
  obtain ⟨y, hc, h⟩ := Option.bind_eq_some_iff.mp h
  obtain ⟨z, hd, -⟩ := Option.bind_eq_some_iff.mp h
  simp [Strict.isHex, ha, hb, hc, hd]

theorem Escaped.isBody (h : Escaped body text) : IsBody body := by
  induction h with
  | nil => exact .nil
  | plain hblank hquote hbackslash _ ih => exact .plain hblank hquote hbackslash ih
  | escape hbyte _ ih => exact .escape (by rw [hbyte]; rfl) ih
  | code hcode _ _ ih =>
    obtain ⟨ha, hb, hc, hd⟩ := isHex_of_hex4? hcode
    exact .code ha hb hc hd ih

/-- A text as it is written between quotes. -/
def Quoted.of (t : Text) : Quoted := ⟨t.glyphs.flatMap glyphText, (escaped_glyphs t).isBody⟩

@[simp] theorem Quoted.text_of (t : Text) : (Quoted.of t).text = quotedText t := rfl

@[simp] theorem Quoted.name_of (t : Text) : (Quoted.of t).name = t.scrub :=
  (escaped_glyphs t).unescape []

-- ---------------------------------------------------------------------------
-- Lists and objects
-- ---------------------------------------------------------------------------

/-- What follows a group up to the closing bracket: further groups, each after
a comma. -/
def Follows (close : UInt8) (tail : Text) (groups : List (List Text)) : Prop :=
  ∀ group u, Joined group u → Joined (separated close group groups) (u ++ (tail ++ [close]))

theorem Follows.nil (close : UInt8) : Follows close [] [] := by
  intro group u hu
  exact (joined_separated_nil (joined_ne_nil hu)).mpr ⟨u, [], hu, nofun, rfl⟩

theorem Follows.cons (hhead : Joined group head) (h : Follows close tail groups) :
    Follows close (Ascii.comma :: (head ++ tail)) (group :: groups) := by
  intro before u hu
  refine (joined_separated_cons (joined_ne_nil hu)).mpr
    ⟨u, [], [], _, hu, nofun, nofun, h group head hhead, ?_⟩
  simp

theorem Follows.enclosed (hhead : Joined group head) (h : Follows close tail groups)
    (opening : UInt8) :
    Joined (Json.enclosed opening close (group :: groups))
      (opening :: (head ++ tail ++ [close])) := by
  refine joined_enclosed_cons.mpr ⟨[], _, nofun, h group head hhead, ?_⟩
  simp

theorem joined_member (key : Text) (h : Joined tokens t) :
    Joined (memberTokens (.of key, tokens)) (quotedText key ++ Ascii.colon :: t) :=
  (joined_member_iff (joined_ne_nil h)).mpr ⟨[], [], t, nofun, nofun, h, rfl⟩

-- ---------------------------------------------------------------------------
-- Values
-- ---------------------------------------------------------------------------

/-- The two parts that a step of writing is put together from. -/
theorem parts_of_bind {x y : Option Text} {join : Text → Text → Text}
    (h : (x.bind fun head => y.bind fun tail => some (join head tail)) = some t) :
    ∃ head tail, x = some head ∧ y = some tail ∧ join head tail = t := by
  obtain ⟨head, hhead, h⟩ := Option.bind_eq_some_iff.mp h
  obtain ⟨tail, htail, h⟩ := Option.bind_eq_some_iff.mp h
  exact ⟨head, tail, hhead, htail, Option.some.inj h⟩

mutual

theorem isValue_of_render? : ∀ (v : Value) {t : Text}, v.render? = some t → IsValue t
  | .null, _, h => by
    cases h
    exact ⟨.null, .single _⟩
  | .bool true, _, h => by
    cases h
    exact ⟨.bool true, .single _⟩
  | .bool false, _, h => by
    cases h
    exact ⟨.bool false, .single _⟩
  | .int i, _, h => by
    cases h
    exact ⟨.number ⟨Text.ofInt i, isNumber_ofInt i⟩, .single _⟩
  | .real x, t, h => ⟨.number ⟨t, isNumber_realText? h⟩, .single t⟩
  | .text t, _, h => by
    cases h
    exact ⟨.string (.of t), .single _⟩
  | .list [], _, h => by
    cases h
    exact ⟨.array [], joined_enclosed_nil.mpr ⟨[], nofun, rfl⟩⟩
  | .list (item :: rest), _, h => by
    obtain ⟨head, tail, hhead, htail, rfl⟩ := parts_of_bind h
    obtain ⟨d, hd⟩ := isValue_of_render? item hhead
    obtain ⟨ds, hds⟩ := follows_renderItems? rest htail
    exact ⟨.array (d :: ds), hds.enclosed hd _⟩
  | .object [], _, h => by
    cases h
    exact ⟨.object [], joined_enclosed_nil.mpr ⟨[], nofun, rfl⟩⟩
  | .object ((key, value) :: rest), _, h => by
    obtain ⟨head, tail, hhead, htail, rfl⟩ := parts_of_bind h
    obtain ⟨d, hd⟩ := isValue_of_render? value hhead
    obtain ⟨ds, hds⟩ := follows_renderMembers? rest htail
    exact ⟨.object ((.of key, d) :: ds), hds.enclosed (joined_member key hd) _⟩

theorem follows_renderItems? : ∀ (items : List Value) {tail : Text},
    renderItems? items = some tail → ∃ ds, Follows Ascii.closeBracket tail (itemsTokens ds)
  | [], _, h => by
    cases h
    exact ⟨[], .nil _⟩
  | item :: rest, _, h => by
    obtain ⟨head, tail, hhead, htail, rfl⟩ := parts_of_bind h
    obtain ⟨d, hd⟩ := isValue_of_render? item hhead
    obtain ⟨ds, hds⟩ := follows_renderItems? rest htail
    exact ⟨d :: ds, hds.cons hd⟩

theorem follows_renderMembers? : ∀ (members : List (Text × Value)) {tail : Text},
    renderMembers? members = some tail →
      ∃ ds, Follows Ascii.closeBrace tail ((membersTokens ds).map memberTokens)
  | [], _, h => by
    cases h
    exact ⟨[], .nil _⟩
  | (key, value) :: rest, _, h => by
    obtain ⟨head, tail, hhead, htail, rfl⟩ := parts_of_bind h
    obtain ⟨d, hd⟩ := isValue_of_render? value hhead
    obtain ⟨ds, hds⟩ := follows_renderMembers? rest htail
    exact ⟨(.of key, d) :: ds, hds.cons (joined_member key hd)⟩

end

-- ---------------------------------------------------------------------------
-- Members of what is written
-- ---------------------------------------------------------------------------

theorem render_eq (h : Value.render? v = some t) : v.render = t := by rw [Value.render, h]; rfl

/-- A member, its value as it is written. -/
def Entry.of (m : Text × Value) : Entry := ⟨.of m.1, m.2.render⟩

theorem joined_entry (m : Text × Value) :
    Joined (Entry.of m).tokens (quotedText m.1 ++ Ascii.colon :: m.2.render) :=
  joined_member m.1 (.single _)

theorem follows_entries {members : List (Text × Value)} {tail : Text}
    (h : renderMembers? members = some tail) :
    Follows Ascii.closeBrace tail ((members.map Entry.of).map Entry.tokens) ∧
      ∀ e ∈ members.map Entry.of, IsValue e.value := by
  induction members generalizing tail with
  | nil =>
    cases h
    exact ⟨.nil _, nofun⟩
  | cons m rest ih =>
    obtain ⟨head, tail, hhead, htail, rfl⟩ := parts_of_bind h
    obtain rfl := render_eq hhead
    obtain ⟨hfollows, hvalues⟩ := ih htail
    exact ⟨hfollows.cons (joined_entry m),
      List.forall_mem_cons.mpr ⟨isValue_of_render? m.2 hhead, hvalues⟩⟩

/-- The reader of frames finds the members of an object as they were written. -/
theorem object?_of_render? {members : List (Text × Value)} {t : Text}
    (h : (Value.object members).render? = some t) :
    Strict.object? t = some { text := t, members := (members.map Entry.of).map Entry.member } := by
  have hjoined : Joined (entriesTokens (members.map Entry.of)) t ∧
      (∀ e ∈ members.map Entry.of, IsValue e.value) ∧ skipBlanks t = t := by
    cases members with
    | nil =>
      cases h
      exact ⟨joined_enclosed_nil.mpr ⟨[], nofun, rfl⟩, nofun, rfl⟩
    | cons m rest =>
      obtain ⟨head, tail, hhead, htail, rfl⟩ := parts_of_bind h
      obtain rfl := render_eq hhead
      obtain ⟨hfollows, hvalues⟩ := follows_entries htail
      exact ⟨hfollows.enclosed (joined_entry m) _,
        List.forall_mem_cons.mpr ⟨isValue_of_render? m.2 hhead, hvalues⟩, rfl⟩
  obtain ⟨hjoined, hvalues, hskip⟩ := hjoined
  exact object?_eq_some_iff.mpr ⟨_, hvalues, hjoined.framed, by rw [hskip]⟩

end MeshConsole.Json
