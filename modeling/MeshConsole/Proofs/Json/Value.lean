import MeshConsole.Proofs.Json.Scalar

/-!
# Reading values

`passes`: whatever the grammar writes in fewer than `n` bytes is passed over
with fuel `n`. `written`: whatever is passed over is written by the grammar.
The three functions that pass over values, members and items call each other
with one unit of fuel less, so each statement is about all three and is
proved by induction on the fuel.
-/

namespace MeshConsole.Json

open Strict

-- ---------------------------------------------------------------------------
-- Values
-- ---------------------------------------------------------------------------

/-- The text starts with a byte that a value may start with. -/
def Starts (t : Text) : Prop := ∃ b rest, t = b :: rest ∧ isDelimiter b = false

theorem Starts.append (h : Starts t) (rest : Text) : Starts (t ++ rest) := by
  obtain ⟨b, more, rfl, hb⟩ := h
  exact ⟨b, more ++ rest, rfl, hb⟩

theorem isBlank_of_not_delimiter (h : isDelimiter b = false) : isBlank b = false := by
  simp only [isDelimiter, Bool.or_eq_false_iff] at h
  exact h.1.1.1

theorem skipBlanks_starts (hgap : Gap gap) (h : Starts t) : skipBlanks (gap ++ t) = t := by
  obtain ⟨b, rest, rfl, hb⟩ := h
  rw [skipBlanks_gap hgap, skipBlanks_cons (isBlank_of_not_delimiter hb)]

theorem Starts.of_cons (h : isDelimiter b = false) (t : Text) : Starts (b :: t) := ⟨b, t, rfl, h⟩

theorem isDelimiter_number (h : b = Ascii.minus ∨ Ascii.isDigit b = true) :
    isDelimiter b = false := by
  rcases h with rfl | h
  · rfl
  · cases hd : isDelimiter b with
    | false => rfl
    | true => exact absurd h (by simp [isDelimiter_not_digit hd])

/-- The first byte tells what kind of value follows. -/
def Document.Begins : Document → UInt8 → Prop
  | .null, b => b = Ascii.lowerN
  | .bool true, b => b = Ascii.lowerT
  | .bool false, b => b = Ascii.lowerF
  | .number _, b => b = Ascii.minus ∨ Ascii.isDigit b = true
  | .string _, b => b = Ascii.quote
  | .array _, b => b = Ascii.openBracket
  | .object _, b => b = Ascii.openBrace

theorem head_enclosed (h : Joined (enclosed opening close groups) v) :
    ∃ rest, v = opening :: rest := by
  cases groups with
  | nil =>
    obtain ⟨gap, -, rfl⟩ := joined_enclosed_nil.mp h
    exact ⟨_, rfl⟩
  | cons group groups =>
    obtain ⟨gap, u, -, -, rfl⟩ := joined_enclosed_cons.mp h
    exact ⟨_, rfl⟩

theorem begins_document {d : Document} (h : Joined d.tokens v) :
    ∃ b rest, v = b :: rest ∧ d.Begins b := by
  cases d with
  | array items =>
    obtain ⟨rest, rfl⟩ := head_enclosed h
    exact ⟨_, rest, rfl, rfl⟩
  | object members =>
    obtain ⟨rest, rfl⟩ := head_enclosed h
    exact ⟨_, rest, rfl, rfl⟩
  | number numeral =>
    rw [Document.tokens, joined_single_iff] at h
    obtain ⟨b, rest, heq, hb⟩ := numeral.isNumber.head
    exact ⟨b, rest, h.trans heq, hb⟩
  | bool value =>
    cases value
    all_goals
      rw [Document.tokens, joined_single_iff] at h
      exact ⟨_, _, h, rfl⟩
  | null | string _ =>
    rw [Document.tokens, joined_single_iff] at h
    exact ⟨_, _, h, rfl⟩

theorem Document.Begins.not_delimiter {d : Document} (h : d.Begins b) : isDelimiter b = false := by
  cases d with
  | number numeral => exact isDelimiter_number h
  | bool value => cases value <;> (obtain rfl : b = _ := h; rfl)
  | null | string _ | array _ | object _ =>
    obtain rfl : b = _ := h
    rfl

theorem Document.Begins.object {d : Document} (h : d.Begins Ascii.openBrace) :
    ∃ members, d = .object members := by
  cases d with
  | object members => exact ⟨members, rfl⟩
  | bool value => cases value <;> (rw [Begins] at h; exact absurd h (by decide))
  | null | number _ | string _ | array _ =>
    rw [Begins] at h
    exact absurd h (by decide)

theorem Document.Begins.string {d : Document} (h : d.Begins Ascii.quote) :
    ∃ quoted, d = .string quoted := by
  cases d with
  | string quoted => exact ⟨quoted, rfl⟩
  | bool value => cases value <;> (rw [Begins] at h; exact absurd h (by decide))
  | null | number _ | array _ | object _ =>
    rw [Begins] at h
    exact absurd h (by decide)

theorem starts_document (h : Joined (Document.tokens d) v) : Starts v := by
  obtain ⟨b, rest, rfl, hb⟩ := begins_document h
  exact .of_cons hb.not_delimiter rest

theorem after?_append (start t : Text) : Text.after? start (start ++ t) = some t := by
  induction start with
  | nil => rfl
  | cons b start ih => simp [Text.after?, ih]

theorem after?_sound (h : Text.after? start t = some rest) : t = start ++ rest := by
  induction start generalizing t with
  | nil => simpa [Text.after?] using h
  | cons a start ih =>
    cases t with
    | nil => simp [Text.after?] at h
    | cons b t =>
      simp only [Text.after?] at h
      split at h
      next hab => rw [ih h, eq_of_beq hab]; rfl
      next => cases h

section
variable {t rest : Text}

theorem skipValue_skipBlanks (fuel : Nat) (t : Text) :
    skipValue fuel (skipBlanks t) = skipValue fuel t := by
  cases fuel with
  | zero => rfl
  | succ fuel => rw [skipValue, skipBlanks_idem, skipValue]

theorem skipValue_brace (h : skipBlanks t = Ascii.openBrace :: rest) (fuel : Nat) :
    skipValue (fuel + 1) t =
      match skipBlanks rest with
      | Ascii.closeBrace :: after => some after
      | first => skipMembers fuel first := by
  rw [← skipValue_skipBlanks, h]
  rfl

theorem skipValue_bracket (h : skipBlanks t = Ascii.openBracket :: rest) (fuel : Nat) :
    skipValue (fuel + 1) t =
      match skipBlanks rest with
      | Ascii.closeBracket :: after => some after
      | first => skipItems fuel first := by
  rw [← skipValue_skipBlanks, h]
  rfl

theorem skipValue_quote (h : skipBlanks t = Ascii.quote :: rest) (fuel : Nat) :
    skipValue (fuel + 1) t = (stringBody [] rest).map Prod.snd := by
  rw [← skipValue_skipBlanks, h]
  rfl

theorem skipValue_null (h : skipBlanks t = Ascii.lowerN :: rest) (fuel : Nat) :
    skipValue (fuel + 1) t = Text.after? "ull" rest := by
  rw [← skipValue_skipBlanks, h]
  rfl

theorem skipValue_true (h : skipBlanks t = Ascii.lowerT :: rest) (fuel : Nat) :
    skipValue (fuel + 1) t = Text.after? "rue" rest := by
  rw [← skipValue_skipBlanks, h]
  rfl

theorem skipValue_false (h : skipBlanks t = Ascii.lowerF :: rest) (fuel : Nat) :
    skipValue (fuel + 1) t = Text.after? "alse" rest := by
  rw [← skipValue_skipBlanks, h]
  rfl

theorem skipValue_number (h : skipBlanks t = b :: rest)
    (hb : b = Ascii.minus ∨ Ascii.isDigit b = true) (fuel : Nat) :
    skipValue (fuel + 1) t = skipNumber (b :: rest) := by
  rw [skipValue, h]
  split
  case h_7 => rfl
  all_goals
    next heq =>
      rw [List.head_eq_of_cons_eq heq] at hb
      exact absurd hb (by decide)

/-- What comes after a value of a list and the blanks behind it: more of the
list, or its end. -/
def afterValue (close : UInt8) (more : Text → Option α) (stop : Text → α) : Text → Option α
  | [] => none
  | b :: next => if b = Ascii.comma then more next else if b = close then some (stop next) else none

section
variable {more : Text → Option α} {stop : Text → α}

theorem afterValue_comma (hgap : Gap gap) :
    afterValue close more stop (skipBlanks (gap ++ Ascii.comma :: next)) = more next := by
  rw [skipBlanks_gap hgap, skipBlanks_cons rfl, afterValue, if_pos rfl]

theorem afterValue_close (hgap : Gap gap) (hblank : isBlank close = false)
    (hcomma : close ≠ Ascii.comma) :
    afterValue close more stop (skipBlanks (gap ++ close :: next)) = some (stop next) := by
  rw [skipBlanks_gap hgap, skipBlanks_cons hblank, afterValue, if_neg hcomma, if_pos rfl]

theorem afterValue_cases (h : afterValue close more stop (skipBlanks t) = some a) :
    (∃ gap next, Gap gap ∧ t = gap ++ Ascii.comma :: next ∧ more next = some a) ∨
      (∃ gap next, Gap gap ∧ t = gap ++ close :: next ∧ a = stop next) := by
  obtain ⟨gap, hgap, ht⟩ := gap_skipBlanks t
  cases hu : skipBlanks t with
  | nil =>
    rw [hu] at h
    cases h
  | cons b next =>
    rw [hu] at h ht
    rw [afterValue] at h
    split at h
    next hb => exact .inl ⟨gap, next, hgap, hb ▸ ht, h⟩
    next =>
      split at h
      next hb => exact .inr ⟨gap, next, hgap, hb ▸ ht, by simpa using h.symm⟩
      next => cases h

theorem afterValue_brace (more : Text → Option α) (stop : Text → α) (u : Text) :
    (match u with
      | Ascii.comma :: next => more next
      | Ascii.closeBrace :: after => some (stop after)
      | _ => none) = afterValue Ascii.closeBrace more stop u := by
  split
  next => rfl
  next => rfl
  next hcomma hclose =>
    cases u with
    | nil => rfl
    | cons b next =>
      have h₁ : b ≠ Ascii.comma := fun h => hcomma next (congrArg (· :: next) h)
      have h₂ : b ≠ Ascii.closeBrace := fun h => hclose next (congrArg (· :: next) h)
      rw [afterValue, if_neg h₁, if_neg h₂]

theorem afterValue_bracket (more : Text → Option α) (stop : Text → α) (u : Text) :
    (match u with
      | Ascii.comma :: next => more next
      | Ascii.closeBracket :: after => some (stop after)
      | _ => none) = afterValue Ascii.closeBracket more stop u := by
  split
  next => rfl
  next => rfl
  next hcomma hclose =>
    cases u with
    | nil => rfl
    | cons b next =>
      have h₁ : b ≠ Ascii.comma := fun h => hcomma next (congrArg (· :: next) h)
      have h₂ : b ≠ Ascii.closeBracket := fun h => hclose next (congrArg (· :: next) h)
      rw [afterValue, if_neg h₁, if_neg h₂]

end

theorem quoted_cons (key : Quoted) (t : Text) :
    key.text ++ t = Ascii.quote :: (key.body ++ Ascii.quote :: t) := by
  simp [Quoted.text]

/-- The body of a key and what follows its colon. -/
def keyed? : Text → Option (Text × Text)
  | Ascii.quote :: rest =>
    match stringBody [] rest with
    | none => none
    | some (body, rest) =>
      match skipBlanks rest with
      | Ascii.colon :: value => some (body, value)
      | _ => none
  | _ => none

theorem keyed?_member (key : Quoted) (hgap : Gap gap) (t : Text) :
    keyed? (key.text ++ (gap ++ Ascii.colon :: t)) = some (key.body, t) := by
  have hbody := stringBody_append key.isBody [] (gap ++ Ascii.colon :: t)
  have hcolon := skipBlanks_starts hgap (.of_cons (b := Ascii.colon) rfl t)
  rw [quoted_cons]
  unfold keyed?
  split
  next rest heq =>
    obtain rfl := (List.cons.inj heq).2
    split
    next h => cases hbody.symm.trans h
    next h =>
      cases hbody.symm.trans h
      split
      next h =>
        cases hcolon.symm.trans h
        rfl
      next h => exact absurd hcolon (h _)
  next h => exact absurd rfl (h _)

theorem keyed?_sound (h : keyed? t = some (body, value)) :
    ∃ (key : Quoted) (gap : Text), Gap gap ∧ t = key.text ++ (gap ++ Ascii.colon :: value) := by
  unfold keyed? at h
  split at h
  next t' =>
    split at h
    next => cases h
    next rest hbody =>
      split at h
      next hcolon =>
        cases h
        obtain ⟨more, hmore, -, rfl⟩ := stringBody_sound hbody
        obtain ⟨gap, hgap, hrest⟩ := gap_skipBlanks rest
        rw [hcolon] at hrest
        obtain rfl : rest = gap ++ Ascii.colon :: value := hrest
        exact ⟨⟨more, hmore⟩, gap, hgap, (quoted_cons ⟨more, hmore⟩ _).symm⟩
      next => cases h
  next => cases h

theorem skipMembers_keyed (fuel : Nat) (t : Text) :
    skipMembers (fuel + 1) t =
      (keyed? t).bind fun key =>
        (skipValue fuel key.2).bind fun rest =>
          afterValue Ascii.closeBrace (fun next => skipMembers fuel (skipBlanks next)) id
            (skipBlanks rest) := by
  conv => lhs; unfold skipMembers
  fun_cases keyed? t with
  | case1 rest hbody => simp only [hbody, Option.bind_none]
  | case2 rest body after hbody value hcolon =>
    simp only [hbody, hcolon, Option.bind_some]
    cases skipValue fuel value with
    | none => rfl
    | some rest => exact afterValue_brace _ id (skipBlanks rest)
  | case3 rest body after hbody hcolon => simp only [hbody, Option.bind_none]
  | case4 t hquote => simp only [Option.bind_none]

/-- The members of an object, once a key and its colon are passed. -/
theorem skipMembers_member (key : Quoted) (hgap : Gap gap) (fuel : Nat) :
    skipMembers (fuel + 1) (key.text ++ (gap ++ Ascii.colon :: t)) =
      (skipValue fuel t).bind fun rest =>
        afterValue Ascii.closeBrace (fun next => skipMembers fuel (skipBlanks next)) id
          (skipBlanks rest) := by
  rw [skipMembers_keyed, keyed?_member key hgap, Option.bind_some]

theorem key_of_skipMembers (h : skipMembers (fuel + 1) t = some rest) :
    ∃ (key : Quoted) (gap value : Text), Gap gap ∧
      t = key.text ++ (gap ++ Ascii.colon :: value) := by
  rw [skipMembers_keyed, Option.bind_eq_some_iff] at h
  obtain ⟨⟨body, value⟩, hkeyed, -⟩ := h
  obtain ⟨key, gap, hgap, ht⟩ := keyed?_sound hkeyed
  exact ⟨key, gap, value, hgap, ht⟩

theorem skipItems_succ (fuel : Nat) :
    skipItems (fuel + 1) t =
      (skipValue fuel t).bind fun rest =>
        afterValue Ascii.closeBracket (skipItems fuel) id (skipBlanks rest) := by
  rw [skipItems]
  cases skipValue fuel t with
  | none => rfl
  | some rest => exact afterValue_bracket _ id (skipBlanks rest)

end

/-- What the grammar writes in fewer than `n` bytes is passed over. -/
structure Passes (n : Nat) : Prop where
  value : ∀ (d : Document) (gap v rest : Text), Gap gap → Joined d.tokens v → v.length < n →
    Ended rest → skipValue n (gap ++ (v ++ rest)) = some rest
  members : ∀ (m : Quoted × Document) (ms : List (Quoted × Document)) (t rest : Text),
    Joined (separated Ascii.closeBrace (memberTokens (m.1, m.2.tokens))
      ((Document.membersTokens ms).map memberTokens)) t →
    t.length < n → skipMembers n (t ++ rest) = some rest
  items : ∀ (d : Document) (ds : List Document) (gap t rest : Text), Gap gap →
    Joined (separated Ascii.closeBracket d.tokens (Document.itemsTokens ds)) t →
    t.length < n → skipItems n (gap ++ (t ++ rest)) = some rest

theorem Ended.of_gap_cons (hgap : Gap gap) (hb : isDelimiter b = true) : Ended (gap ++ b :: t) := by
  cases gap with
  | nil =>
    intro c hc
    cases hc
    exact hb
  | cons d gap =>
    intro c hc
    cases hc
    simp [isDelimiter, hgap d (by simp)]

theorem Quoted.starts (q : Quoted) (rest : Text) : Starts (q.text ++ rest) :=
  .of_cons rfl _

theorem starts_member (h : Joined (separated close (memberTokens (key, tokens)) rest) t)
    (hne : tokens ≠ []) : ∃ more, t = key.text ++ more := by
  cases rest with
  | nil =>
    obtain ⟨u, gap, hu, -, rfl⟩ := (joined_separated_nil (memberTokens_ne_nil _)).mp h
    obtain ⟨gap₁, gap₂, v, -, -, -, rfl⟩ := (joined_member_iff hne).mp hu
    exact ⟨_, by rw [List.append_assoc]⟩
  | cons next rest =>
    obtain ⟨u, gap, gap', w, hu, -, -, -, rfl⟩ :=
      (joined_separated_cons (memberTokens_ne_nil _)).mp h
    obtain ⟨gap₁, gap₂, v, -, -, -, rfl⟩ := (joined_member_iff hne).mp hu
    exact ⟨_, by rw [List.append_assoc]⟩

theorem starts_item (h : Joined (separated close (Document.tokens d) rest) t) : Starts t := by
  cases rest with
  | nil =>
    obtain ⟨u, gap, hu, -, rfl⟩ := (joined_separated_nil d.tokens_ne_nil).mp h
    exact (starts_document hu).append _
  | cons next rest =>
    obtain ⟨u, gap, gap', w, hu, -, -, -, rfl⟩ := (joined_separated_cons d.tokens_ne_nil).mp h
    exact (starts_document hu).append _

theorem Passes.succ_members (ih : Passes n) (m : Quoted × Document)
    (ms : List (Quoted × Document)) (t rest : Text)
    (h : Joined (separated Ascii.closeBrace (memberTokens (m.1, m.2.tokens))
      ((Document.membersTokens ms).map memberTokens)) t) (hlen : t.length < n + 1) :
    skipMembers (n + 1) (t ++ rest) = some rest := by
  cases ms with
  | nil =>
    obtain ⟨u, gap, hu, hgap, rfl⟩ := (joined_separated_nil (memberTokens_ne_nil _)).mp h
    obtain ⟨gap₁, gap₂, v, hgap₁, hgap₂, hv, rfl⟩ := (joined_member_iff m.2.tokens_ne_nil).mp hu
    have hvalue := ih.value m.2 gap₂ v (gap ++ Ascii.closeBrace :: rest) hgap₂ hv
      (by simp at hlen; omega) (.of_gap_cons hgap rfl)
    simp only [List.append_assoc, List.cons_append, List.nil_append]
    rw [skipMembers_member m.1 hgap₁, hvalue, Option.bind_some,
      afterValue_close hgap rfl (by decide), id]
  | cons next ms =>
    obtain ⟨u, gap, gap', w, hu, hgap, hgap', hw, rfl⟩ :=
      (joined_separated_cons (memberTokens_ne_nil _)).mp h
    obtain ⟨gap₁, gap₂, v, hgap₁, hgap₂, hv, rfl⟩ := (joined_member_iff m.2.tokens_ne_nil).mp hu
    have hvalue := ih.value m.2 gap₂ v (gap ++ Ascii.comma :: (gap' ++ (w ++ rest))) hgap₂ hv
      (by simp at hlen; omega) (.of_gap_cons hgap rfl)
    have hstart : Starts (w ++ rest) := by
      obtain ⟨more, rfl⟩ := starts_member hw next.2.tokens_ne_nil
      rw [List.append_assoc]
      exact next.1.starts _
    simp only [List.append_assoc, List.cons_append]
    rw [skipMembers_member m.1 hgap₁, hvalue, Option.bind_some, afterValue_comma hgap,
      skipBlanks_starts hgap' hstart]
    exact ih.members next ms w rest hw (by simp at hlen; omega)

theorem Passes.succ_items (ih : Passes n) (d : Document) (ds : List Document) (gap t rest : Text)
    (hgap : Gap gap) (h : Joined (separated Ascii.closeBracket d.tokens (Document.itemsTokens ds)) t)
    (hlen : t.length < n + 1) : skipItems (n + 1) (gap ++ (t ++ rest)) = some rest := by
  cases ds with
  | nil =>
    obtain ⟨v, gap', hv, hgap', rfl⟩ := (joined_separated_nil d.tokens_ne_nil).mp h
    have hvalue := ih.value d gap v (gap' ++ Ascii.closeBracket :: rest) hgap hv
      (by simp at hlen; omega) (.of_gap_cons hgap' rfl)
    simp only [List.append_assoc, List.cons_append, List.nil_append]
    rw [skipItems_succ, hvalue, Option.bind_some, afterValue_close hgap' rfl (by decide), id]
  | cons next ds =>
    obtain ⟨v, gap₁, gap₂, w, hv, hgap₁, hgap₂, hw, rfl⟩ :=
      (joined_separated_cons d.tokens_ne_nil).mp h
    have hvalue := ih.value d gap v (gap₁ ++ Ascii.comma :: (gap₂ ++ (w ++ rest))) hgap hv
      (by simp at hlen; omega) (.of_gap_cons hgap₁ rfl)
    simp only [List.append_assoc, List.cons_append]
    rw [skipItems_succ, hvalue, Option.bind_some, afterValue_comma hgap₁]
    exact ih.items next ds gap₂ w rest hgap₂ hw (by simp at hlen; omega)

theorem Passes.succ_value (ih : Passes n) (d : Document) (gap v rest : Text) (hgap : Gap gap)
    (hv : Joined d.tokens v) (hlen : v.length < n + 1) (hrest : Ended rest) :
    skipValue (n + 1) (gap ++ (v ++ rest)) = some rest := by
  have hskip : skipBlanks (gap ++ (v ++ rest)) = v ++ rest :=
    skipBlanks_starts hgap ((starts_document hv).append rest)
  cases d with
  | null =>
    rw [joined_single_iff.mp hv] at hskip ⊢
    exact (skipValue_null hskip n).trans (after?_append _ rest)
  | bool value =>
    cases value with
    | true =>
      rw [joined_single_iff.mp hv] at hskip ⊢
      exact (skipValue_true hskip n).trans (after?_append _ rest)
    | false =>
      rw [joined_single_iff.mp hv] at hskip ⊢
      exact (skipValue_false hskip n).trans (after?_append _ rest)
  | number numeral =>
    obtain ⟨b, more, htext, hb⟩ := numeral.isNumber.head
    have hnumber := skipNumber_append numeral.isNumber hrest
    rw [joined_single_iff.mp hv] at hskip ⊢
    rw [htext] at hskip hnumber ⊢
    exact (skipValue_number hskip hb n).trans hnumber
  | string quoted =>
    have hbody : stringBody [] (quoted.body ++ Ascii.quote :: rest) = some (quoted.body, rest) :=
      stringBody_append quoted.isBody [] rest
    rw [joined_single_iff.mp hv] at hskip ⊢
    simp only [Quoted.text, List.cons_append, List.append_assoc, List.nil_append] at hskip ⊢
    rw [skipValue_quote hskip, hbody, Option.map_some]
  | array items =>
    cases items with
    | nil =>
      obtain ⟨gap', hgap', rfl⟩ := joined_enclosed_nil.mp hv
      simp only [List.cons_append, List.append_assoc, List.nil_append] at hskip ⊢
      rw [skipValue_bracket hskip, skipBlanks_gap hgap', skipBlanks_cons rfl]
      rfl
    | cons item items =>
      obtain ⟨gap', u, hgap', hu, rfl⟩ := joined_enclosed_cons.mp hv
      have hstart := (starts_item hu).append rest
      have hitems := ih.items item items [] u rest (by simp [Gap]) hu (by simp at hlen; omega)
      simp only [List.cons_append, List.append_assoc] at hskip ⊢
      rw [skipValue_bracket hskip, skipBlanks_starts hgap' hstart]
      obtain ⟨b, more, hmore, hb⟩ := hstart
      rw [List.nil_append] at hitems
      split
      next heq =>
        rw [List.head_eq_of_cons_eq (hmore.symm.trans heq)] at hb
        exact absurd hb (by decide)
      next => exact hitems
  | object members =>
    cases members with
    | nil =>
      obtain ⟨gap', hgap', rfl⟩ := joined_enclosed_nil.mp hv
      simp only [List.cons_append, List.append_assoc, List.nil_append] at hskip ⊢
      rw [skipValue_brace hskip, skipBlanks_gap hgap', skipBlanks_cons rfl]
      rfl
    | cons m ms =>
      obtain ⟨gap', u, hgap', hu, rfl⟩ := joined_enclosed_cons.mp hv
      have hmembers := ih.members m ms u rest hu (by simp at hlen; omega)
      obtain ⟨more, rfl⟩ := starts_member hu m.2.tokens_ne_nil
      simp only [List.cons_append, List.append_assoc] at hskip hmembers ⊢
      rw [skipValue_brace hskip, skipBlanks_starts hgap' (m.1.starts _)]
      exact hmembers

theorem passes (n : Nat) : Passes n := by
  induction n with
  | zero =>
    exact ⟨fun _ _ _ _ _ _ h => absurd h (Nat.not_lt_zero _),
      fun _ _ _ _ _ h => absurd h (Nat.not_lt_zero _),
      fun _ _ _ _ _ _ _ h => absurd h (Nat.not_lt_zero _)⟩
  | succ n ih => exact ⟨ih.succ_value, ih.succ_members, ih.succ_items⟩

-- ---------------------------------------------------------------------------
-- Only what the grammar writes is passed over
-- ---------------------------------------------------------------------------

/-- What is passed over with fuel `n` is written by the grammar. -/
structure Written (n : Nat) : Prop where
  value : ∀ t rest, skipValue n t = some rest →
    ∃ (gap v : Text) (d : Document), Gap gap ∧ Joined d.tokens v ∧ t = gap ++ (v ++ rest)
  members : ∀ t rest, skipMembers n t = some rest →
    ∃ (m : Quoted × Document) (ms : List (Quoted × Document)) (u : Text),
      Joined (separated Ascii.closeBrace (memberTokens (m.1, m.2.tokens))
        ((Document.membersTokens ms).map memberTokens)) u ∧ t = u ++ rest
  items : ∀ t rest, skipItems n t = some rest →
    ∃ (gap : Text) (d : Document) (ds : List Document) (u : Text), Gap gap ∧
      Joined (separated Ascii.closeBracket d.tokens (Document.itemsTokens ds)) u ∧
      t = gap ++ (u ++ rest)

theorem Written.succ_members (ih : Written n) (t rest : Text)
    (h : skipMembers (n + 1) t = some rest) :
    ∃ (m : Quoted × Document) (ms : List (Quoted × Document)) (u : Text),
      Joined (separated Ascii.closeBrace (memberTokens (m.1, m.2.tokens))
        ((Document.membersTokens ms).map memberTokens)) u ∧ t = u ++ rest := by
  obtain ⟨key, gap, value, hgap, rfl⟩ := key_of_skipMembers h
  rw [skipMembers_member key hgap, Option.bind_eq_some_iff] at h
  obtain ⟨r, hvalue, h⟩ := h
  obtain ⟨gap', v, d, hgap', hv, rfl⟩ := ih.value _ _ hvalue
  have hmember : Joined (memberTokens (key, d.tokens))
      (key.text ++ (gap ++ Ascii.colon :: (gap' ++ v))) :=
    (joined_member_iff d.tokens_ne_nil).mpr ⟨gap, gap', v, hgap, hgap', hv, rfl⟩
  rcases afterValue_cases h with ⟨gap₁, next, hgap₁, rfl, hnext⟩ | ⟨gap₁, next, hgap₁, rfl, hnext⟩
  · obtain ⟨m, ms, u, hu, hskip⟩ := ih.members _ _ hnext
    obtain ⟨gap₂, hgap₂, hsplit⟩ := gap_skipBlanks next
    rw [hskip] at hsplit
    refine ⟨(key, d), m :: ms, _, (joined_separated_cons (memberTokens_ne_nil _)).mpr
      ⟨_, gap₁, gap₂, u, hmember, hgap₁, hgap₂, hu, rfl⟩, ?_⟩
    rw [hsplit]
    simp
  · refine ⟨(key, d), [], _, (joined_separated_nil (memberTokens_ne_nil _)).mpr
      ⟨_, gap₁, hmember, hgap₁, rfl⟩, ?_⟩
    rw [hnext]
    simp

theorem Written.succ_items (ih : Written n) (t rest : Text) (h : skipItems (n + 1) t = some rest) :
    ∃ (gap : Text) (d : Document) (ds : List Document) (u : Text), Gap gap ∧
      Joined (separated Ascii.closeBracket d.tokens (Document.itemsTokens ds)) u ∧
      t = gap ++ (u ++ rest) := by
  rw [skipItems_succ, Option.bind_eq_some_iff] at h
  obtain ⟨r, hvalue, h⟩ := h
  obtain ⟨gap, v, d, hgap, hv, rfl⟩ := ih.value _ _ hvalue
  rcases afterValue_cases h with ⟨gap₁, next, hgap₁, rfl, hnext⟩ | ⟨gap₁, next, hgap₁, rfl, hnext⟩
  · obtain ⟨gap₂, d', ds, u, hgap₂, hu, rfl⟩ := ih.items _ _ hnext
    refine ⟨gap, d, d' :: ds, _, hgap, (joined_separated_cons d.tokens_ne_nil).mpr
      ⟨v, gap₁, gap₂, u, hv, hgap₁, hgap₂, hu, rfl⟩, ?_⟩
    simp
  · refine ⟨gap, d, [], _, hgap, (joined_separated_nil d.tokens_ne_nil).mpr
      ⟨v, gap₁, hv, hgap₁, rfl⟩, ?_⟩
    rw [hnext]
    simp

theorem Written.succ_value (ih : Written n) (t rest : Text) (h : skipValue (n + 1) t = some rest) :
    ∃ (gap v : Text) (d : Document), Gap gap ∧ Joined d.tokens v ∧ t = gap ++ (v ++ rest) := by
  obtain ⟨gap, hgap, ht⟩ := gap_skipBlanks t
  unfold skipValue at h
  split at h
  next inside heq =>
    rw [heq] at ht
    obtain ⟨gap', hgap', hinside⟩ := gap_skipBlanks inside
    split at h
    next after hclose =>
      cases h
      rw [hclose] at hinside
      refine ⟨gap, _, .object [], hgap, joined_enclosed_nil.mpr ⟨gap', hgap', rfl⟩, ?_⟩
      rw [ht, hinside]
      simp
    next =>
      obtain ⟨m, ms, u, hu, hskip⟩ := ih.members _ _ h
      rw [hskip] at hinside
      refine ⟨gap, _, .object (m :: ms), hgap,
        joined_enclosed_cons.mpr ⟨gap', u, hgap', hu, rfl⟩, ?_⟩
      rw [ht, hinside]
      simp
  next inside heq =>
    rw [heq] at ht
    obtain ⟨gap', hgap', hinside⟩ := gap_skipBlanks inside
    split at h
    next after hclose =>
      cases h
      rw [hclose] at hinside
      refine ⟨gap, _, .array [], hgap, joined_enclosed_nil.mpr ⟨gap', hgap', rfl⟩, ?_⟩
      rw [ht, hinside]
      simp
    next =>
      obtain ⟨gap₁, d, ds, u, hgap₁, hu, hskip⟩ := ih.items _ _ h
      rw [hskip] at hinside
      refine ⟨gap, _, .array (d :: ds), hgap,
        joined_enclosed_cons.mpr ⟨gap' ++ gap₁, u, hgap'.append hgap₁, hu, rfl⟩, ?_⟩
      rw [ht, hinside]
      simp
  next body heq =>
    rw [heq] at ht
    obtain ⟨⟨body', rest'⟩, hbody, rfl⟩ := Option.map_eq_some_iff.mp h
    obtain ⟨more, hmore, -, rfl⟩ := stringBody_sound hbody
    refine ⟨gap, _, .string ⟨more, hmore⟩, hgap, joined_single_iff.mpr rfl, ?_⟩
    rw [ht, quoted_cons]
    rfl
  next word heq =>
    rw [heq, after?_sound h] at ht
    exact ⟨gap, _, .bool true, hgap, joined_single_iff.mpr rfl, ht⟩
  next word heq =>
    rw [heq, after?_sound h] at ht
    exact ⟨gap, _, .bool false, hgap, joined_single_iff.mpr rfl, ht⟩
  next word heq =>
    rw [heq, after?_sound h] at ht
    exact ⟨gap, _, .null, hgap, joined_single_iff.mpr rfl, ht⟩
  next =>
    obtain ⟨number, hnumber, heq⟩ := skipNumber_sound h
    rw [heq] at ht
    exact ⟨gap, _, .number ⟨number, hnumber⟩, hgap, joined_single_iff.mpr rfl, ht⟩

theorem written (n : Nat) : Written n := by
  induction n with
  | zero => exact ⟨fun _ _ h => (nomatch h), fun _ _ h => (nomatch h), fun _ _ h => (nomatch h)⟩
  | succ n ih => exact ⟨ih.succ_value, ih.succ_members, ih.succ_items⟩

end MeshConsole.Json
