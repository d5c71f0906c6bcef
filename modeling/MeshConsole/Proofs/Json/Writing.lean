import MeshConsole.Proofs.Json.Keys
import MeshConsole.Proofs.Json.Reading
import MeshConsole.Proofs.Numeral.Decimal

/-!
# Reading what was written

A value that the library writes is read back as the same value
(`Plain.readValue`), and by whoever passes over it, passed over. Only numbers
that are not whole are left out, as their digits may be rounded.
-/

namespace MeshConsole.Json

-- ---------------------------------------------------------------------------
-- What is written
-- ---------------------------------------------------------------------------

namespace Value

/-- Nested at most so deep, and without numbers that are not whole. -/
inductive Plain : Nat → Value → Prop
  | null {n} : Plain n .null
  | bool {n b} : Plain n (.bool b)
  | int {n i} : Plain n (.int i)
  | text {n t} : Plain n (.text t)
  | list {n items} : (∀ item ∈ items, Plain n item) → Plain (n + 1) (.list items)
  | object {n members} : (∀ m ∈ members, Plain n m.2) → Plain (n + 1) (.object members)

/-- A member that was written and is followed by `rest`, with its value read as `tree`. -/
def shown (m : Text × Value) (tree : Tree) (rest : Text) : Tree.Member :=
  (.written m.1, tree, m.2.render ++ rest, rest)

mutual

/-- The tree is that of a text written for the value. -/
inductive Shows : Value → Tree → Prop
  | null : Shows .null .null
  | bool {b} : Shows (.bool b) (.bool b)
  | int {i skippable} : Shows (.int i) (.number (Text.ofInt i) skippable)
  | text {t} : Shows (.text t) (.string t.scrub)
  | list {items trees} : List.Forall₂ Shows items trees → Shows (.list items) (.array trees)
  | object {members trees} :
      List.Forall₂ ShowsMember members trees → Shows (.object members) (.object trees)

inductive ShowsMember : Text × Value → Tree.Member → Prop
  | mk {m tree rest} : Shows m.2 tree → ShowsMember m (shown m tree rest)

end

/-- Groups, each after a comma. -/
def afterCommas (groups : List Text) : Text := groups.flatMap fun group => Ascii.comma :: group

def memberText (m : Text × Value) : Text := quotedText m.1 ++ Ascii.colon :: m.2.render

theorem renderItems?_eq (h : ∀ item ∈ items, item.render? = some item.render) :
    renderItems? items = some (afterCommas (items.map render)) := by
  induction items with
  | nil => rfl
  | cons item items ih =>
    obtain ⟨hitem, hitems⟩ := List.forall_mem_cons.mp h
    rw [renderItems?, hitem, ih hitems]
    rfl

theorem renderMembers?_eq (h : ∀ m ∈ members, m.2.render? = some m.2.render) :
    renderMembers? members = some (afterCommas (members.map memberText)) := by
  induction members with
  | nil => rfl
  | cons m members ih =>
    obtain ⟨hm, hmembers⟩ := List.forall_mem_cons.mp h
    rw [renderMembers?, hm, ih hmembers]
    simp [afterCommas, memberText]

theorem render?_list (h : ∀ v ∈ item :: items, v.render? = some v.render) :
    (Value.list (item :: items)).render? = some (Ascii.openBracket ::
      (item.render ++ (afterCommas (items.map render) ++ [Ascii.closeBracket]))) := by
  obtain ⟨hitem, hitems⟩ := List.forall_mem_cons.mp h
  rw [render?, hitem, renderItems?_eq hitems]
  simp

theorem render?_object (h : ∀ v ∈ m :: members, v.2.render? = some v.2.render) :
    (Value.object (m :: members)).render? = some (Ascii.openBrace ::
      (memberText m ++ (afterCommas (members.map memberText) ++ [Ascii.closeBrace]))) := by
  obtain ⟨hm, hmembers⟩ := List.forall_mem_cons.mp h
  rw [render?, hm, renderMembers?_eq hmembers]
  simp [memberText]

theorem Plain.render? (h : Plain n v) : v.render? = some v.render := by
  induction h with
  | null => rfl
  | @bool _ b => cases b <;> rfl
  | int => rfl
  | text => rfl
  | @list n items _ ih =>
    cases items with
    | nil => rfl
    | cons item items => rw [render, render?_list ih, Option.getD_some]
  | @object n members _ ih =>
    cases members with
    | nil => rfl
    | cons m members => rw [render, render?_object ih, Option.getD_some]

theorem render_list (h : ∀ v ∈ item :: items, Plain n v) :
    (Value.list (item :: items)).render = Ascii.openBracket ::
      (item.render ++ (afterCommas (items.map render) ++ [Ascii.closeBracket])) := by
  rw [render, render?_list fun v hv => (h v hv).render?, Option.getD_some]

theorem render_object (h : ∀ v ∈ m :: members, Plain n v.2) :
    (Value.object (m :: members)).render = Ascii.openBrace ::
      (memberText m ++ (afterCommas (members.map memberText) ++ [Ascii.closeBrace])) := by
  rw [render, render?_object fun v hv => (h v hv).render?, Option.getD_some]

end Value

-- ---------------------------------------------------------------------------
-- Numbers
-- ---------------------------------------------------------------------------

theorem isSimple_of_digits (h : ∀ b ∈ t, Ascii.isDigit b = true) :
    Literal.isSimple false t = true := by
  induction t with
  | nil => rfl
  | cons b rest ih =>
    obtain ⟨hb, hrest⟩ := List.forall_mem_cons.mp h
    have hdot : b ≠ Ascii.dot := by
      rintro rfl
      exact absurd hb (by decide)
    rw [Literal.isSimple]
    · simp [hb, ih hrest]
    · exact hdot

theorem isSkippable_digit : ∀ d < 10,
    (Literal.run? [Text.digit d]).isSome = true ∧ Literal.fitsSingle [Text.digit d] = true ∧
      Ascii.isDigit (Text.digit d) = true ∧ Text.digit d ≠ Ascii.minus := by
  decide

/-- In plain view, a numeral may be passed over when something follows it. -/
theorem isSkippable_ofInt (hahead : ∀ t, ahead t = t.length) (hrest : rest ≠ []) (i : Int) :
    Literal.isSkippable ahead (Text.ofInt i ++ rest) (Text.ofInt i) = true := by
  have hdigits := Text.isDigit_ofNat i.natAbs
  have hminus : (Ascii.minus == Ascii.zero) = false := rfl
  have hsimple := isSimple_of_digits hdigits
  have hne := Text.ofNat_ne_nil i.natAbs
  unfold Text.ofInt
  split
  · have hlength : (Text.ofNat i.natAbs).length + 1 <
        ahead (Ascii.minus :: (Text.ofNat i.natAbs ++ rest)) := by
      have hpos := List.length_pos_iff.mpr hrest
      rw [hahead, List.length_cons, List.length_append]
      omega
    simp [Literal.isSkippable, hminus, hsimple, hne, hlength]
  · by_cases hsmall : i.natAbs < 10
    · obtain ⟨hrun, hsingle, hdigit, hnominus⟩ := isSkippable_digit _ hsmall
      rw [Text.ofNat_of_lt hsmall]
      simp [Literal.isSkippable, hrun, hsingle, hdigit, hnominus, Literal.startsWithNeedlessZero]
    · obtain ⟨first, more, ht, hfirst⟩ := Text.ofNat_cons (i.natAbs / 10)
      rw [Text.ofNat_of_le (by omega), ht, List.cons_append] at hdigits ⊢
      obtain ⟨hdigit, hmore⟩ := List.forall_mem_cons.mp hdigits
      have hzero : (first == Ascii.zero) = false := by
        refine beq_eq_false_iff_ne.mpr fun h => ?_
        have := (hfirst h).1
        omega
      have hnominus : (first == Ascii.minus) = false := by
        refine beq_eq_false_iff_ne.mpr ?_
        rintro rfl
        exact absurd hdigit (by decide)
      simp [Literal.isSkippable, hahead, hzero, hnominus, hdigit, isSimple_of_digits hmore,
        List.length_pos_iff, hrest]

theorem ofInt_cons (i : Int) :
    ∃ b rest, Text.ofInt i = b :: rest ∧ (b = Ascii.minus ∨ Ascii.isDigit b = true) := by
  unfold Text.ofInt
  split
  · exact ⟨_, _, rfl, .inl rfl⟩
  · obtain ⟨first, more, ht, _⟩ := Text.ofNat_cons i.natAbs
    exact ⟨first, more, ht, .inr (Text.isDigit_ofNat i.natAbs first (by simp [ht]))⟩

theorem isNumberByte_ofInt (i : Int) : ∀ b ∈ Text.ofInt i, Tree.isNumberByte b = true := by
  have hdigits : ∀ b ∈ Text.ofNat i.natAbs, Tree.isNumberByte b = true := fun b hb => by
    simp [Tree.isNumberByte, Text.isDigit_ofNat i.natAbs b hb]
  unfold Text.ofInt
  split
  · exact List.forall_mem_cons.mpr ⟨rfl, hdigits⟩
  · exact hdigits

theorem isNumberByte_delimiter (h : isDelimiter b = true) : Tree.isNumberByte b = false := by
  rcases isDelimiter_cases h with rfl | rfl | rfl | rfl | rfl | rfl | rfl <;> rfl

/-- No other value starts with the first byte of a number. -/
theorem readValue_literal (hfirst : ∃ b more, literal = b :: more ∧
      (b = Ascii.minus ∨ Ascii.isDigit b = true))
    (hbytes : ∀ b ∈ literal, Tree.isNumberByte b = true) (hrest : Ended rest) (fuel : Nat) :
    Tree.readValue ahead (fuel + 1) depth (literal ++ rest) =
      some (.number literal (Literal.isSkippable ahead (literal ++ rest) literal), rest) := by
  obtain ⟨b, more, ht, hb⟩ := hfirst
  have hspan := span_append_stops hbytes (hrest.stops fun _ => isNumberByte_delimiter)
  have hskip : skipBlanks (literal ++ rest) = literal ++ rest := by
    rw [ht]
    exact skipBlanks_cons (isBlank_of_not_delimiter (isDelimiter_number hb)) _
  have hother : ∀ c ∈ [Ascii.openBrace, Ascii.openBracket, Ascii.quote, Ascii.lowerT, Ascii.lowerF,
      Ascii.lowerN], ∀ t, literal ++ rest ≠ c :: t := by
    intro c hc t heq
    have hfirst : ∀ c ∈ [Ascii.openBrace, Ascii.openBracket, Ascii.quote, Ascii.lowerT,
        Ascii.lowerF, Ascii.lowerN], ¬ (c = Ascii.minus ∨ Ascii.isDigit c = true) := by decide
    rw [ht] at heq
    exact hfirst c hc (List.head_eq_of_cons_eq heq ▸ hb)
  unfold Tree.readValue
  rw [hskip]
  split
  next heq => exact absurd heq (hother _ (by simp) _)
  next heq => exact absurd heq (hother _ (by simp) _)
  next heq => exact absurd heq (hother _ (by simp) _)
  next heq => exact absurd heq (hother _ (by simp) _)
  next heq => exact absurd heq (hother _ (by simp) _)
  next heq => exact absurd heq (hother _ (by simp) _)
  next =>
    rw [hspan]
    simp [ht]

theorem readValue_ofInt (hrest : Ended rest) (fuel : Nat) (i : Int) :
    Tree.readValue ahead (fuel + 1) depth (Text.ofInt i ++ rest) =
      some (.number (Text.ofInt i)
        (Literal.isSkippable ahead (Text.ofInt i ++ rest) (Text.ofInt i)), rest) :=
  readValue_literal (ofInt_cons i) (isNumberByte_ofInt i) hrest fuel

-- ---------------------------------------------------------------------------
-- Values
-- ---------------------------------------------------------------------------

open Value

theorem quotedText_append (t rest : Text) :
    quotedText t ++ rest = Ascii.quote :: (t.glyphs.flatMap glyphText ++ Ascii.quote :: rest) := by
  simp [quotedText]

theorem plainFront_quoted (body rest : Text) :
    Tree.plainFront (body ++ Ascii.quote :: rest) = Tree.plainFront body := by
  rw [Tree.plainFront, List.takeWhile_append]
  split
  next h =>
    have hstop : (!(Ascii.quote == Ascii.quote || Ascii.quote == Ascii.backslash)) = false := rfl
    rw [Tree.plainFront, (List.takeWhile_prefix _).eq_of_length h, List.takeWhile_cons, hstop]
    exact List.append_nil body
  next => rfl

theorem readKey_quotedText (ahead : Text → Nat) (t rest : Text) :
    Tree.readKey ahead (quotedText t ++ rest) = some (.written t, rest) := by
  rw [quotedText_append]
  show (Tree.stringBody ahead _).map (fun body =>
    (Key.name body.1 (Tree.plainFront _).length body.2.1, body.2.2)) = _
  rw [(escaped_glyphs t).stringBody, plainFront_quoted]
  rfl

theorem readValue_quotedText (t rest : Text) :
    Tree.readValue ahead (fuel + 1) depth (quotedText t ++ rest) =
      some (.string t.scrub, rest) := by
  rw [quotedText_append]
  -- The first byte is a quotation mark, and so the branch is known.
  conv_lhs => whnf
  rw [(escaped_glyphs t).stringBody]

theorem Value.Plain.render_cons (h : Plain n (.object members)) :
    ∃ rest, (Value.object members).render = Ascii.openBrace :: rest := by
  cases h with
  | object h =>
    cases members with
    | nil => exact ⟨_, rfl⟩
    | cons m members => exact ⟨_, render_object h⟩

theorem Value.Plain.starts (h : Plain n v) : Starts v.render := by
  cases h with
  | null => exact .of_cons rfl _
  | @bool _ b => cases b <;> exact .of_cons rfl _
  | @int _ i =>
    obtain ⟨b, rest, ht, hb⟩ := ofInt_cons i
    exact ⟨b, rest, ht, isDelimiter_number hb⟩
  | text => exact .of_cons rfl _
  | @list _ items h =>
    cases items with
    | nil => exact .of_cons rfl _
    | cons item items =>
      rw [render_list h]
      exact .of_cons rfl _
  | @object _ members hmembers =>
    obtain ⟨rest, hrest⟩ := Plain.render_cons (.object hmembers)
    exact ⟨_, rest, hrest, rfl⟩

theorem ended_cons (h : isDelimiter b = true) (t : Text) : Ended (b :: t) :=
  Ended.of_gap_cons (nofun : Gap []) h

section
variable (ahead : Text → Nat)

/-- A tree is read back that shows the value. When the whole text was in view,
the value may also be passed over, a number only when something follows it. -/
def ReadBack (depth : Nat) (v : Value) : Prop :=
  ∀ fuel rest, v.render.length < fuel → Ended rest → ∃ tree,
    Tree.readValue ahead fuel depth (v.render ++ rest) = some (tree, rest) ∧ Shows v tree ∧
      ((∀ t, ahead t = t.length) → (∀ i, v = .int i → rest ≠ []) → tree.isSkippable = true)

end

section
variable {ahead : Text → Nat}

theorem ReadBack.of_scalar (tree : Text → Tree) (hpos : 0 < v.render.length)
    (hshows : ∀ rest, Shows v (tree rest))
    (hread : ∀ fuel rest, Ended rest →
      Tree.readValue ahead (fuel + 1) depth (v.render ++ rest) = some (tree rest, rest))
    (hskip : (∀ t, ahead t = t.length) → ∀ rest, (∀ i, v = .int i → rest ≠ []) →
      (tree rest).isSkippable = true) :
    ReadBack ahead depth v := by
  intro fuel rest hfuel hrest
  obtain ⟨fuel, rfl⟩ : ∃ k, fuel = k + 1 := ⟨fuel - 1, by omega⟩
  exact ⟨tree rest, hread fuel rest hrest, hshows rest, fun hahead => hskip hahead rest⟩

/-- What follows the first group, up to the end of the brackets. -/
def closing (close : UInt8) (groups : List Text) (rest : Text) : Text :=
  afterCommas groups ++ close :: rest

theorem ended_closing (hclose : isDelimiter close = true) (groups : List Text) (rest : Text) :
    Ended (closing close groups rest) := by
  cases groups with
  | nil => exact ended_cons hclose _
  | cons group groups => exact ended_cons rfl _

theorem closing_ne_nil (close : UInt8) (groups : List Text) (rest : Text) :
    closing close groups rest ≠ [] := by
  simp [closing]

theorem closing_cons (close : UInt8) (group : Text) (groups : List Text) (rest : Text) :
    closing close (group :: groups) rest = Ascii.comma :: (group ++ closing close groups rest) := by
  simp [closing, afterCommas]

theorem length_afterCommas (group : Text) (groups : List Text) :
    (afterCommas (group :: groups)).length = group.length + 1 + (afterCommas groups).length := by
  simp [afterCommas]
  omega

theorem readItems_back (hall : ∀ v ∈ item :: items, ReadBack ahead depth v) (fuel : Nat)
    (done : List Tree) (rest : Text)
    (hfuel : item.render.length + (afterCommas (items.map render)).length < fuel) :
    ∃ trees, Tree.readItems ahead (fuel + 1) depth done
        (item.render ++ closing Ascii.closeBracket (items.map render) rest) =
          some (.array (done.reverse ++ trees), rest) ∧
      List.Forall₂ Shows (item :: items) trees ∧
      ((∀ t, ahead t = t.length) → Tree.areSkippable trees = true) := by
  induction items generalizing item done fuel with
  | nil =>
    obtain ⟨tree, hread, hshows, hskip⟩ := hall item (by simp) fuel
      (closing Ascii.closeBracket [] rest) (by omega) (ended_closing rfl _ _)
    refine ⟨[tree], ?_, .cons hshows .nil, fun hahead => ?_⟩
    · rw [Tree.readItems, List.map_nil, hread]
      show some (Tree.array (tree :: done).reverse, rest) = _
      rw [List.reverse_cons]
    · simp [Tree.areSkippable, hskip hahead fun _ _ => closing_ne_nil _ _ _]
  | cons next items ih =>
    obtain ⟨hitem, hitems⟩ := List.forall_mem_cons.mp hall
    rw [List.map_cons, length_afterCommas] at hfuel
    obtain ⟨fuel, rfl⟩ : ∃ k, fuel = k + 1 := ⟨fuel - 1, by omega⟩
    obtain ⟨tree, hread, hshows, hskip⟩ := hitem (fuel + 1)
      (closing Ascii.closeBracket ((next :: items).map render) rest) (by omega)
      (ended_closing rfl _ _)
    obtain ⟨trees, hreads, hshow, hskips⟩ := ih hitems fuel (tree :: done) (by omega)
    refine ⟨tree :: trees, ?_, .cons hshows hshow, fun hahead => ?_⟩
    · rw [Tree.readItems, hread, List.map_cons, closing_cons]
      refine Eq.trans hreads ?_
      rw [List.reverse_cons, List.append_assoc, List.singleton_append]
    · simp [Tree.areSkippable, hskip hahead fun _ _ => closing_ne_nil _ _ _, hskips hahead]

theorem memberText_append (m : Text × Value) (rest : Text) :
    memberText m ++ rest = quotedText m.1 ++ Ascii.colon :: (m.2.render ++ rest) := by
  simp [memberText]

theorem length_render_lt (m : Text × Value) : m.2.render.length < (memberText m).length := by
  rw [memberText, List.length_append, List.length_cons]
  omega

theorem skipBlanks_memberText (m : Text × Value) (rest : Text) :
    skipBlanks (memberText m ++ rest) = memberText m ++ rest := by
  rw [memberText_append, quotedText_append]
  rfl

section
variable {m : Text × Value} (hstarts : Starts m.2.render)
  (hread : Tree.readValue ahead fuel depth (m.2.render ++ rest) = some (tree, rest))
  (done : List Tree.Member)
include hstarts hread

theorem readMembers_last (hrest : rest = Ascii.closeBrace :: after) :
    Tree.readMembers ahead (fuel + 1) depth done (memberText m ++ rest) =
      some (.object (List.reverse (shown m tree rest :: done)), after) := by
  have hskip : skipBlanks (m.2.render ++ rest) = m.2.render ++ rest :=
    skipBlanks_starts (nofun : Gap []) (hstarts.append rest)
  rw [memberText_append, Tree.readMembers, readKey_quotedText]
  conv_lhs => whnf
  rw [hskip, hread, hrest]
  rfl

theorem readMembers_next (hrest : rest = Ascii.comma :: (memberText next ++ more)) :
    Tree.readMembers ahead (fuel + 1) depth done (memberText m ++ rest) =
      Tree.readMembers ahead fuel depth (shown m tree rest :: done) (memberText next ++ more) := by
  have hskip : skipBlanks (m.2.render ++ rest) = m.2.render ++ rest :=
    skipBlanks_starts (nofun : Gap []) (hstarts.append rest)
  rw [memberText_append, Tree.readMembers, readKey_quotedText]
  conv_lhs => whnf
  rw [hskip, hread, hrest]
  exact congrArg _ (skipBlanks_memberText next more)

end

theorem readMembers_back (hplain : ∀ v ∈ m :: members, Plain n v.2)
    (hall : ∀ v ∈ m :: members, ReadBack ahead depth v.2) (fuel : Nat) (done : List Tree.Member)
    (rest : Text)
    (hfuel : (memberText m).length + (afterCommas (members.map memberText)).length < fuel) :
    ∃ trees, Tree.readMembers ahead (fuel + 1) depth done
        (memberText m ++ closing Ascii.closeBrace (members.map memberText) rest) =
          some (.object (done.reverse ++ trees), rest) ∧
      List.Forall₂ ShowsMember (m :: members) trees ∧
      ((∀ t, ahead t = t.length) → Tree.membersSkippable trees = true) := by
  have hlength := length_render_lt m
  have hstarts := (hplain m (by simp)).starts
  induction members generalizing m done fuel with
  | nil =>
    obtain ⟨tree, hread, hshows, hskip⟩ := hall m (by simp) fuel
      (closing Ascii.closeBrace [] rest) (by omega) (ended_closing rfl _ _)
    refine ⟨[shown m tree (closing Ascii.closeBrace [] rest)], ?_, .cons (.mk hshows) .nil,
      fun hahead => ?_⟩
    · rw [List.map_nil, readMembers_last hstarts hread done rfl, List.reverse_cons]
    · simp [Tree.membersSkippable, shown, Key.written, hskip hahead fun _ _ => closing_ne_nil _ _ _]
  | cons next members ih =>
    obtain ⟨_, hmembers⟩ := List.forall_mem_cons.mp hplain
    obtain ⟨hm, hbacks⟩ := List.forall_mem_cons.mp hall
    have hend : Ended (closing Ascii.closeBrace ((next :: members).map memberText) rest) :=
      ended_closing rfl _ _
    have hne := closing_ne_nil Ascii.closeBrace ((next :: members).map memberText) rest
    have hnext := closing_cons Ascii.closeBrace (memberText next) (members.map memberText) rest
    rw [List.map_cons] at hend hne ⊢
    generalize closing Ascii.closeBrace (memberText next :: _) rest = after at hend hne hnext ⊢
    rw [List.map_cons, length_afterCommas] at hfuel
    obtain ⟨fuel, rfl⟩ : ∃ k, fuel = k + 1 := ⟨fuel - 1, by omega⟩
    obtain ⟨tree, hread, hshows, hskip⟩ := hm (fuel + 1) after (by omega) hend
    obtain ⟨trees, hreads, hshow, hskips⟩ := ih hmembers hbacks fuel (shown m tree after :: done)
      (by omega) (length_render_lt next) (hmembers next (by simp)).starts
    refine ⟨shown m tree after :: trees, ?_, .cons (.mk hshows) hshow, fun hahead => ?_⟩
    · rw [readMembers_next hstarts hread done hnext, hreads, List.reverse_cons, List.append_assoc,
        List.singleton_append]
    · simp [Tree.membersSkippable, shown, Key.written, hskip hahead fun _ _ => hne, hskips hahead]

theorem readValue_array (hstarts : Starts t) :
    Tree.readValue ahead (fuel + 1) (depth + 1) (Ascii.openBracket :: t) =
      Tree.readItems ahead fuel depth [] t := by
  obtain ⟨b, rest, rfl, hb⟩ := hstarts
  have hskip : skipBlanks (b :: rest) = b :: rest := skipBlanks_cons (isBlank_of_not_delimiter hb) _
  have hclose : b ≠ Ascii.closeBracket := by
    rintro rfl
    exact absurd hb (by decide)
  conv_lhs => whnf
  rw [hskip]
  split
  next heq _ => exact absurd (List.head_eq_of_cons_eq heq) hclose
  next hdepth _ =>
    cases hdepth
    rfl
  next hdepth => exact absurd hdepth (by simp)

theorem readValue_object (m : Text × Value) (t : Text) :
    Tree.readValue ahead (fuel + 1) (depth + 1) (Ascii.openBrace :: (memberText m ++ t)) =
      Tree.readMembers ahead fuel depth [] (memberText m ++ t) := by
  rw [memberText_append, quotedText_append]
  rfl

theorem ReadBack.int (i : Int) : ReadBack ahead depth (.int i) := by
  obtain ⟨b, more, ht, -⟩ := ofInt_cons i
  refine .of_scalar _ ?_ (fun _ => .int) (fun fuel rest hrest => readValue_ofInt hrest fuel i)
    (fun hahead rest hrest => isSkippable_ofInt hahead (hrest i rfl) i)
  show 0 < (Text.ofInt i).length
  simp [ht]

theorem ReadBack.list (hall : ∀ item ∈ items, Plain n item)
    (hback : ∀ item ∈ items, ReadBack ahead depth item) :
    ReadBack ahead (depth + 1) (.list items) := by
  intro fuel rest hfuel hrest
  obtain ⟨fuel, rfl⟩ : ∃ k, fuel = k + 1 := ⟨fuel - 1, by omega⟩
  cases items with
  | nil => exact ⟨.array [], rfl, .list .nil, fun _ _ => rfl⟩
  | cons item items =>
    rw [render_list hall] at hfuel ⊢
    simp only [List.length_cons, List.length_append, List.length_nil] at hfuel
    obtain ⟨fuel, rfl⟩ : ∃ k, fuel = k + 1 := ⟨fuel - 1, by omega⟩
    obtain ⟨trees, hread, hshows, hskip⟩ := readItems_back hback fuel [] rest (by omega)
    refine ⟨.array trees, ?_, .list hshows, fun hahead _ => hskip hahead⟩
    have hstarts := (hall item (by simp)).starts.append
      (closing Ascii.closeBracket (items.map render) rest)
    rw [List.reverse_nil, List.nil_append] at hread
    rw [← hread, ← readValue_array hstarts]
    simp [closing]

theorem ReadBack.object {members : Members} (hall : ∀ m ∈ members, Plain n m.2)
    (hback : ∀ m ∈ members, ReadBack ahead depth m.2) :
    ReadBack ahead (depth + 1) (.object members) := by
  intro fuel rest hfuel hrest
  obtain ⟨fuel, rfl⟩ : ∃ k, fuel = k + 1 := ⟨fuel - 1, by omega⟩
  cases members with
  | nil => exact ⟨.object [], rfl, .object .nil, fun _ _ => rfl⟩
  | cons m members =>
    rw [render_object hall] at hfuel ⊢
    simp only [List.length_cons, List.length_append, List.length_nil] at hfuel
    obtain ⟨fuel, rfl⟩ : ∃ k, fuel = k + 1 := ⟨fuel - 1, by omega⟩
    obtain ⟨trees, hread, hshows, hskip⟩ := readMembers_back hall hback fuel [] rest (by omega)
    refine ⟨.object trees, ?_, .object hshows, fun hahead _ => hskip hahead⟩
    rw [List.reverse_nil, List.nil_append] at hread
    rw [← hread, ← readValue_object]
    simp [closing]

/-- What is written for a value is read back. -/
theorem Value.Plain.readBack (h : Plain n v) (hdepth : n ≤ depth) : ReadBack ahead depth v := by
  induction h generalizing depth with
  | null =>
    exact .of_scalar (fun _ => .null) (by decide) (fun _ => .null) (fun _ _ _ => rfl)
      (fun _ _ _ => rfl)
  | @bool _ b =>
    refine .of_scalar (fun _ => .bool b) ?_ (fun _ => .bool) ?_ (fun _ _ _ => rfl)
    · cases b <;> decide
    · cases b <;> exact fun _ _ _ => rfl
  | int => exact .int _
  | @text _ t =>
    exact .of_scalar (fun _ => .string t.scrub) (Nat.succ_pos _) (fun _ => .text)
      (fun _ rest _ => readValue_quotedText t rest) (fun _ _ _ => rfl)
  | list hall ih =>
    obtain ⟨depth, rfl⟩ : ∃ k, depth = k + 1 := ⟨depth - 1, by omega⟩
    exact .list hall fun v hv => ih v hv (Nat.le_of_succ_le_succ hdepth)
  | object hall ih =>
    obtain ⟨depth, rfl⟩ : ∃ k, depth = k + 1 := ⟨depth - 1, by omega⟩
    exact .object hall fun m hm => ih m hm (Nat.le_of_succ_le_succ hdepth)

end

theorem parse?_of_readValue (hread : Tree.readValue List.length (t.length + 1) Tree.depthLimit t =
    some (tree, rest)) (hrest : Gap rest) : Tree.parse? t = some tree := by
  rw [Tree.parse?, hread]
  simp only [skipBlanks_eq_nil_iff.mpr hrest]

theorem Ended.of_gap (h : Gap t) : Ended t := fun b hb => by
  simp [isDelimiter, h b (List.mem_of_mem_head? hb)]

/-- An object that the library writes is read back as a whole, with blanks
after it or without. -/
theorem parse?_object (h : Plain n (.object members)) (hdepth : n ≤ Tree.depthLimit)
    (hgap : Gap gap) :
    ∃ trees, Tree.parse? ((Value.object members).render ++ gap) = some (.object trees) ∧
      List.Forall₂ ShowsMember members trees ∧ Tree.membersSkippable trees = true := by
  obtain ⟨tree, hread, hshows, hskip⟩ := h.readBack hdepth
    (((Value.object members).render ++ gap).length + 1) gap
    (by rw [List.length_append]; omega) (.of_gap hgap)
  cases hshows with
  | object hshows =>
    exact ⟨_, parse?_of_readValue hread hgap, hshows, hskip (fun _ => rfl) nofun⟩

/-- So is one that comes in portions. -/
theorem first?_object (h : Plain n (.object members)) (hdepth : n ≤ Tree.depthLimit)
    (portion : Nat) :
    ∃ trees, Tree.first? portion (Value.object members).render = some (.object trees) ∧
      List.Forall₂ ShowsMember members trees := by
  have hback : ReadBack (Tree.portionAhead portion (Value.object members).render)
    Tree.depthLimit (.object members) := h.readBack hdepth
  obtain ⟨tree, hread, hshows, -⟩ :=
    hback ((Value.object members).render.length + 1) [] (by omega) (by simp [Ended])
  cases hshows with
  | object hshows =>
    rw [List.append_nil] at hread
    exact ⟨_, by rw [Tree.first?, hread]; rfl, hshows⟩

end MeshConsole.Json
