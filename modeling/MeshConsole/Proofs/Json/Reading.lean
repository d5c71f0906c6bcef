import MeshConsole.Proofs.Json.Spelling
import MeshConsole.Proofs.Json.Value

/-!
# Reading trees

What reading a text into a tree can come to, said once for values
(`readValue_reading`), keys, members and items. Everything that is shown of
payloads starts from these cases.
-/

namespace MeshConsole.Json

section
variable (ahead : Text → Nat) (n : Nat)

/-- What reading a value that starts here can come to. -/
inductive Reading : Text → Tree → Text → Prop
  | null {rest} : Reading (wordNull ++ rest) .null rest
  | true {rest} : Reading (wordTrue ++ rest) (.bool true) rest
  | false {rest} : Reading (wordFalse ++ rest) (.bool false) rest
  | number {literal rest} : literal ≠ [] → (∀ b ∈ literal, Tree.isNumberByte b = true) →
      Reading (literal ++ rest)
        (.number literal (Literal.isSkippable ahead (literal ++ rest) literal)) rest
  | string {t value rest} : Tree.stringBody ahead t = some (value, true, rest) →
      Reading (Ascii.quote :: t) (.string value) rest
  | emptyArray {gap rest} : Gap gap →
      Reading (Ascii.openBracket :: (gap ++ Ascii.closeBracket :: rest)) (.array []) rest
  | array {level gap t tree rest} : Gap gap →
      Tree.readItems ahead n level [] t = some (tree, rest) →
      Reading (Ascii.openBracket :: (gap ++ t)) tree rest
  | emptyObject {gap rest} : Gap gap →
      Reading (Ascii.openBrace :: (gap ++ Ascii.closeBrace :: rest)) (.object []) rest
  | object {level gap t tree rest} : Gap gap →
      Tree.readMembers ahead n level [] t = some (tree, rest) →
      Reading (Ascii.openBrace :: (gap ++ t)) tree rest

end

theorem readValue_reading (h : Tree.readValue ahead (n + 1) depth t = some (tree, rest)) :
    Reading ahead n (skipBlanks t) tree rest := by
  unfold Tree.readValue at h
  split at h
  next inside heq =>
    rw [heq]
    obtain ⟨gap, hgap, hinside⟩ := gap_skipBlanks inside
    split at h
    next after hclose =>
      cases h
      rw [hclose] at hinside
      rw [hinside]
      exact .emptyObject hgap
    next first depth hfirst =>
      rw [hfirst] at hinside
      rw [hinside]
      exact .object hgap h
    next => cases h
  next inside heq =>
    rw [heq]
    obtain ⟨gap, hgap, hinside⟩ := gap_skipBlanks inside
    split at h
    next after hclose =>
      cases h
      rw [hclose] at hinside
      rw [hinside]
      exact .emptyArray hgap
    next =>
      rw [hinside]
      exact .array hgap h
    next => cases h
  next inside heq =>
    rw [heq]
    split at h
    next hbody =>
      cases h
      exact .string hbody
    next => cases h
  next inside heq =>
    obtain ⟨after, hafter, hpair⟩ := Option.map_eq_some_iff.mp h
    cases hpair
    rw [heq, after?_sound hafter]
    exact .true
  next inside heq =>
    obtain ⟨after, hafter, hpair⟩ := Option.map_eq_some_iff.mp h
    cases hpair
    rw [heq, after?_sound hafter]
    exact .false
  next inside heq =>
    obtain ⟨after, hafter, hpair⟩ := Option.map_eq_some_iff.mp h
    cases hpair
    rw [heq, after?_sound hafter]
    exact .null
  next =>
    cases hspan : (skipBlanks t).span Tree.isNumberByte with
    | mk literal after =>
      rw [hspan] at h
      simp only at h
      split at h
      next => cases h
      next hne =>
        cases h
        obtain ⟨hliteral, ht⟩ := span_split hspan
        rw [ht]
        exact .number (by simpa using hne) hliteral

theorem readMembers_cases (h : Tree.readMembers ahead (n + 1) depth done t = some (tree, rest)) :
    ∃ key after gap inside value r, Tree.readKey ahead t = some (key, after) ∧ Gap gap ∧
      after = gap ++ Ascii.colon :: inside ∧
      Tree.readValue ahead n depth (skipBlanks inside) = some (value, r) ∧
      ((∃ gap next, Gap gap ∧ r = gap ++ Ascii.comma :: next ∧
          Tree.readMembers ahead n depth ((key, value, skipBlanks inside, r) :: done)
            (skipBlanks next) = some (tree, rest)) ∨
        ∃ gap, Gap gap ∧ r = gap ++ Ascii.closeBrace :: rest ∧
          tree = .object ((key, value, skipBlanks inside, r) :: done).reverse) := by
  unfold Tree.readMembers at h
  split at h
  next => cases h
  next key after hkey =>
    split at h
    next inside hcolon =>
      obtain ⟨gap, hgap, hafter⟩ := gap_skipBlanks after
      rw [hcolon] at hafter
      simp only at h
      split at h
      next => cases h
      next value r hvalue =>
        refine ⟨key, after, gap, inside, value, r, hkey, hgap, hafter, hvalue, ?_⟩
        have hread := (afterValue_brace
          (fun next => Tree.readMembers ahead n depth
            ((key, value, skipBlanks inside, r) :: done) (skipBlanks next))
          (fun after => (Tree.object ((key, value, skipBlanks inside, r) :: done).reverse, after))
          (skipBlanks r)).symm.trans h
        rcases afterValue_cases hread with
          ⟨gap, next, hgap, hr, hnext⟩ | ⟨gap, next, hgap, hr, hstop⟩
        · exact .inl ⟨gap, next, hgap, hr, hnext⟩
        · obtain ⟨rfl, rfl⟩ := Prod.mk.inj hstop
          exact .inr ⟨gap, hgap, hr, rfl⟩
    next => cases h

theorem readItems_cases (h : Tree.readItems ahead (n + 1) depth done t = some (tree, rest)) :
    ∃ value r, Tree.readValue ahead n depth t = some (value, r) ∧
      ((∃ gap next, Gap gap ∧ r = gap ++ Ascii.comma :: next ∧
          Tree.readItems ahead n depth (value :: done) next = some (tree, rest)) ∨
        ∃ gap, Gap gap ∧ r = gap ++ Ascii.closeBracket :: rest ∧
          tree = .array (value :: done).reverse) := by
  unfold Tree.readItems at h
  split at h
  next => cases h
  next value r hvalue =>
    refine ⟨value, r, hvalue, ?_⟩
    have hread := (afterValue_bracket (Tree.readItems ahead n depth (value :: done))
      (fun after => (Tree.array (value :: done).reverse, after)) (skipBlanks r)).symm.trans h
    rcases afterValue_cases hread with ⟨gap, next, hgap, hr, hnext⟩ | ⟨gap, next, hgap, hr, hstop⟩
    · exact .inl ⟨gap, next, hgap, hr, hnext⟩
    · obtain ⟨rfl, rfl⟩ := Prod.mk.inj hstop
      exact .inr ⟨gap, hgap, hr, rfl⟩

/-- A key is a string or the word `null`. -/
theorem readKey_cases (h : Tree.readKey ahead t = some (key, after)) :
    (∃ text plain clean body, key = .name text plain clean ∧ Spelled body text ∧
        t = Ascii.quote :: (body ++ Ascii.quote :: after)) ∨
      key = .null ∧ t = wordNull ++ after := by
  unfold Tree.readKey at h
  split at h
  next t =>
    obtain ⟨⟨text, clean, after'⟩, hbody, heq⟩ := Option.map_eq_some_iff.mp h
    cases heq
    obtain ⟨body, hspelled, rfl⟩ := stringBody_spelled hbody
    exact .inl ⟨text, _, clean, body, rfl, hspelled, rfl⟩
  next t =>
    obtain ⟨after', hafter, heq⟩ := Option.map_eq_some_iff.mp h
    cases heq
    rw [after?_sound hafter]
    exact .inr ⟨rfl, rfl⟩
  next => cases h

theorem readMembers_object (h : Tree.readMembers ahead n depth done t = some (tree, rest)) :
    ∃ members, tree = .object (done.reverse ++ members) := by
  induction n generalizing done t with
  | zero => simp [Tree.readMembers] at h
  | succ n ih =>
    obtain ⟨key, _, _, inside, value, r, -, -, -, -, hnext⟩ := readMembers_cases h
    rcases hnext with ⟨_, next, -, -, hmembers⟩ | ⟨_, -, -, rfl⟩
    · obtain ⟨members, rfl⟩ := ih hmembers
      exact ⟨_ :: members, by simp; rfl⟩
    · exact ⟨[_], by simp; rfl⟩

theorem readItems_array (h : Tree.readItems ahead n depth done t = some (tree, rest)) :
    ∃ items, tree = .array items := by
  induction n generalizing done t with
  | zero => simp [Tree.readItems] at h
  | succ n ih =>
    obtain ⟨value, r, -, hnext⟩ := readItems_cases h
    rcases hnext with ⟨_, next, -, -, hitems⟩ | ⟨_, -, -, rfl⟩
    · exact ih hitems
    · exact ⟨_, rfl⟩

/-- The member read first, and the members that follow it. -/
theorem readMembers_split
    (h : Tree.readMembers ahead (n + 1) depth done t =
      some (.object (done.reverse ++ members), rest)) :
    ∃ key gap inside value r more, Gap gap ∧
      Tree.readKey ahead t = some (key, gap ++ Ascii.colon :: inside) ∧
      Tree.readValue ahead n depth (skipBlanks inside) = some (value, r) ∧
      members = (key, value, skipBlanks inside, r) :: more ∧
      ((∃ gap next, Gap gap ∧ r = gap ++ Ascii.comma :: next ∧
          Tree.readMembers ahead n depth ((key, value, skipBlanks inside, r) :: done)
            (skipBlanks next) =
            some (.object (((key, value, skipBlanks inside, r) :: done).reverse ++ more), rest)) ∨
        more = [] ∧ ∃ gap, Gap gap ∧ r = gap ++ Ascii.closeBrace :: rest) := by
  obtain ⟨key, _, gap, inside, value, r, hread, hgap, rfl, hvalue, hnext⟩ := readMembers_cases h
  rcases hnext with ⟨gap', next, hgap', hr, hmembers⟩ | ⟨gap', hgap', hr, htree⟩
  · obtain ⟨more, htree⟩ := readMembers_object hmembers
    have hsplit : members = (key, value, skipBlanks inside, r) :: more := by simpa using htree
    rw [htree] at hmembers
    exact ⟨key, gap, inside, value, r, more, hgap, hread, hvalue, hsplit,
      .inl ⟨gap', next, hgap', hr, hmembers⟩⟩
  · exact ⟨key, gap, inside, value, r, [], hgap, hread, hvalue, by simpa using htree,
      .inr ⟨rfl, gap', hgap', hr⟩⟩

theorem parse?_cases (h : Tree.parse? t = some tree) :
    ∃ rest, Reading List.length t.length (skipBlanks t) tree rest ∧
      (Gap rest ∨ ∃ gap more, Gap gap ∧ rest = gap ++ 0 :: more) := by
  unfold Tree.parse? at h
  split at h
  next => cases h
  next tree' rest hread =>
    obtain ⟨gap, hgap, hrest⟩ := gap_skipBlanks rest
    refine ⟨rest, ?_⟩
    split at h
    next hblank =>
      cases h
      exact ⟨readValue_reading hread, .inl (skipBlanks_eq_nil_iff.mp hblank)⟩
    next b more hmore =>
      split at h
      next hb =>
        cases h
        rw [hmore, eq_of_beq hb] at hrest
        exact ⟨readValue_reading hread, .inr ⟨gap, more, hgap, hrest⟩⟩
      next => cases h

end MeshConsole.Json
