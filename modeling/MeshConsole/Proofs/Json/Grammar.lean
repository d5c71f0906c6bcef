import MeshConsole.Json.Strict

/-!
# The grammar of JSON

A document is a tree whose scalars keep their spelling. Its tokens are what
is left of a text without the blanks between them, and a text writes the
document when it consists of these tokens with any blanks in between
(`Joined`) or also around (`Framed`). Nothing here reads a text; that the
reader of frames accepts just these texts is shown in `Proofs.Json.Object`.
-/

namespace MeshConsole.Json

-- ---------------------------------------------------------------------------
-- Scalars
-- ---------------------------------------------------------------------------

/-- What may stand between the quotes of a string. -/
inductive IsBody : Text → Prop
  | nil : IsBody []
  | plain {b rest} : Ascii.blank ≤ b → b ≠ Ascii.quote → b ≠ Ascii.backslash → IsBody rest →
      IsBody (b :: rest)
  | escape {letter rest} : (simpleEscape? letter).isSome = true → IsBody rest →
      IsBody (Ascii.backslash :: letter :: rest)
  | code {a b c d rest} : Strict.isHex a = true → Strict.isHex b = true → Strict.isHex c = true →
      Strict.isHex d = true → IsBody rest →
      IsBody (Ascii.backslash :: Ascii.lowerU :: a :: b :: c :: d :: rest)

def IsDigits (t : Text) : Prop := t ≠ [] ∧ ∀ b ∈ t, Ascii.isDigit b = true

/-- Digits without a needless zero before them. -/
inductive IsWhole : Text → Prop
  | zero : IsWhole [Ascii.zero]
  | digits {b rest} : Ascii.isDigit b = true → b ≠ Ascii.zero →
      (∀ c ∈ rest, Ascii.isDigit c = true) → IsWhole (b :: rest)

inductive IsFraction : Text → Prop
  | none : IsFraction []
  | digits {t} : IsDigits t → IsFraction (Ascii.dot :: t)

inductive IsExponent : Text → Prop
  | none : IsExponent []
  | digits {mark sign t} : mark = 0x65 ∨ mark = 0x45 →
      sign = [] ∨ sign = [Ascii.plus] ∨ sign = [Ascii.minus] → IsDigits t →
      IsExponent (mark :: (sign ++ t))

inductive IsNumber : Text → Prop
  | mk {sign whole fraction exponent} : sign = [] ∨ sign = [Ascii.minus] → IsWhole whole →
      IsFraction fraction → IsExponent exponent →
      IsNumber (sign ++ (whole ++ (fraction ++ exponent)))

structure Numeral where
  text : Text
  isNumber : IsNumber text

/-- A string, by what stands between its quotes. -/
structure Quoted where
  body : Text
  isBody : IsBody body

def Quoted.text (q : Quoted) : Text := Ascii.quote :: (q.body ++ [Ascii.quote])

/-- The text a string stands for. -/
def Quoted.name (q : Quoted) : Text := unescape q.body

-- ---------------------------------------------------------------------------
-- Documents and their tokens
-- ---------------------------------------------------------------------------

inductive Document where
  | null
  | bool (value : Bool)
  | number (numeral : Numeral)
  | string (quoted : Quoted)
  | array (items : List Document)
  | object (members : List (Quoted × Document))

/-- Groups of tokens with commas between them, up to the closing bracket. -/
def separated (close : UInt8) : List Text → List (List Text) → List Text
  | group, [] => group ++ [[close]]
  | group, next :: rest => group ++ [Ascii.comma] :: separated close next rest

def enclosed (opening close : UInt8) : List (List Text) → List Text
  | [] => [[opening], [close]]
  | group :: rest => [opening] :: separated close group rest

/-- The tokens of a member, given those of its value. -/
def memberTokens (m : Quoted × List Text) : List Text := m.1.text :: [Ascii.colon] :: m.2

/-- The tokens of an object, given those of its values. -/
def objectTokens (members : List (Quoted × List Text)) : List Text :=
  enclosed Ascii.openBrace Ascii.closeBrace (members.map memberTokens)

def wordNull : Text := Ascii.lowerN :: "ull"
def wordTrue : Text := Ascii.lowerT :: "rue"
def wordFalse : Text := Ascii.lowerF :: "alse"

namespace Document

mutual

def tokens : Document → List Text
  | .null => [wordNull]
  | .bool true => [wordTrue]
  | .bool false => [wordFalse]
  | .number numeral => [numeral.text]
  | .string quoted => [quoted.text]
  | .array items => enclosed Ascii.openBracket Ascii.closeBracket (itemsTokens items)
  | .object members => objectTokens (membersTokens members)

def itemsTokens : List Document → List (List Text)
  | [] => []
  | item :: rest => item.tokens :: itemsTokens rest

def membersTokens : List (Quoted × Document) → List (Quoted × List Text)
  | [] => []
  | (key, value) :: rest => (key, value.tokens) :: membersTokens rest

end

end Document

-- ---------------------------------------------------------------------------
-- Texts
-- ---------------------------------------------------------------------------

-- A byte is one of finitely many, so the search for instances could as well
-- run through all of them.
instance (priority := high) decidableForallByte (p : UInt8 → Prop) [DecidablePred p] (t : Text) :
    Decidable (∀ b ∈ t, p b) :=
  List.decidableBAll p t

/-- Blanks and nothing else. -/
def Gap (t : Text) : Prop := ∀ b ∈ t, isBlank b = true

instance : Decidable (Gap t) := inferInstanceAs (Decidable (∀ b ∈ t, isBlank b = true))

/-- The text is these tokens in order, with any blanks between neighbours. -/
inductive Joined : List Text → Text → Prop
  | single (token : Text) : Joined [token] token
  | cons (token : Text) {gap rest t} : Gap gap → Joined rest t →
      Joined (token :: rest) (token ++ (gap ++ t))

/-- The text is these tokens in order, with any blanks between and around
them. -/
def Framed (tokens : List Text) (t : Text) : Prop :=
  ∃ before middle after, Gap before ∧ Joined tokens middle ∧ Gap after ∧
    t = before ++ (middle ++ after)

/-- The text is a value, from its first byte to its last. -/
def IsValue (t : Text) : Prop := ∃ d : Document, Joined d.tokens t

/-- A member of an object, its value kept as the text it is written in. -/
structure Entry where
  key : Quoted
  value : Text

def Entry.tokens (e : Entry) : List Text := memberTokens (e.key, [e.value])

/-- The parts of an object whose values are kept as texts. -/
def entriesTokens (entries : List Entry) : List Text :=
  enclosed Ascii.openBrace Ascii.closeBrace (entries.map Entry.tokens)

-- ---------------------------------------------------------------------------
-- Taking joined texts apart
-- ---------------------------------------------------------------------------

theorem joined_ne_nil (h : Joined tokens t) : tokens ≠ [] := by
  cases h <;> simp

theorem joined_single_iff : Joined [token] t ↔ t = token := by
  constructor
  · intro h
    cases h with
    | single => rfl
    | cons _ _ h => exact absurd rfl (joined_ne_nil h)
  · rintro rfl
    exact .single _

theorem joined_cons_iff (hne : rest ≠ []) :
    Joined (token :: rest) t ↔ ∃ gap u, Gap gap ∧ Joined rest u ∧ t = token ++ (gap ++ u) := by
  constructor
  · intro h
    cases h with
    | single => exact absurd rfl hne
    | cons _ hgap h => exact ⟨_, _, hgap, h, rfl⟩
  · rintro ⟨gap, u, hgap, h, rfl⟩
    exact .cons token hgap h

theorem joined_append_iff (hx : xs ≠ []) (hy : ys ≠ []) :
    Joined (xs ++ ys) t ↔
      ∃ u gap v, Joined xs u ∧ Gap gap ∧ Joined ys v ∧ t = u ++ (gap ++ v) := by
  induction xs generalizing t with
  | nil => exact absurd rfl hx
  | cons token xs ih =>
    cases xs with
    | nil =>
      simp only [List.singleton_append, joined_cons_iff hy, joined_single_iff]
      exact ⟨fun ⟨gap, v, hgap, hv, ht⟩ => ⟨_, gap, v, rfl, hgap, hv, ht⟩,
        fun ⟨_, gap, v, hu, hgap, hv, ht⟩ => ⟨gap, v, hgap, hv, hu ▸ ht⟩⟩
    | cons next xs =>
      have hne : next :: xs ≠ [] := by simp
      rw [List.cons_append, joined_cons_iff (List.append_ne_nil_of_left_ne_nil hne ys)]
      simp only [joined_cons_iff hne]
      constructor
      · rintro ⟨gap, w, hgap, hw, rfl⟩
        obtain ⟨u, gap', v, hu, hgap', hv, rfl⟩ := (ih hne).mp hw
        exact ⟨_, gap', v, ⟨gap, u, hgap, hu, rfl⟩, hgap', hv, by simp⟩
      · rintro ⟨_, gap', v, ⟨gap, u, hgap, hu, rfl⟩, hgap', hv, rfl⟩
        exact ⟨gap, _, hgap, (ih hne).mpr ⟨u, gap', v, hu, hgap', hv, rfl⟩, by simp⟩

/-- The same blanks between all neighbours. -/
theorem joined_join (hgap : Gap gap) (hne : tokens ≠ []) :
    Joined tokens (Text.join gap tokens) := by
  induction tokens with
  | nil => exact absurd rfl hne
  | cons token rest ih =>
    cases rest with
    | nil => exact .single token
    | cons next rest =>
      rw [Text.join, List.append_assoc]
      · exact .cons token hgap (ih (by simp))
      · simp

theorem separated_ne_nil (close : UInt8) (group : List Text) (rest : List (List Text)) :
    separated close group rest ≠ [] := by
  cases rest <;> simp [separated]

theorem joined_separated_nil (hne : group ≠ []) :
    Joined (separated close group []) t ↔
      ∃ u gap, Joined group u ∧ Gap gap ∧ t = u ++ (gap ++ [close]) := by
  rw [separated, joined_append_iff hne (by simp)]
  simp only [joined_single_iff]
  exact ⟨fun ⟨u, gap, _, hu, hgap, hv, ht⟩ => ⟨u, gap, hu, hgap, hv ▸ ht⟩,
    fun ⟨u, gap, hu, hgap, ht⟩ => ⟨u, gap, _, hu, hgap, rfl, ht⟩⟩

theorem joined_separated_cons (hne : group ≠ []) :
    Joined (separated close group (next :: rest)) t ↔
      ∃ u gap gap' v, Joined group u ∧ Gap gap ∧ Gap gap' ∧ Joined (separated close next rest) v ∧
        t = u ++ (gap ++ Ascii.comma :: (gap' ++ v)) := by
  rw [separated, joined_append_iff hne (by simp)]
  simp only [joined_cons_iff (separated_ne_nil close next rest)]
  constructor
  · rintro ⟨u, gap, _, hu, hgap, ⟨gap', v, hgap', hv, rfl⟩, rfl⟩
    exact ⟨u, gap, gap', v, hu, hgap, hgap', hv, rfl⟩
  · rintro ⟨u, gap, gap', v, hu, hgap, hgap', hv, rfl⟩
    exact ⟨u, gap, _, hu, hgap, ⟨gap', v, hgap', hv, rfl⟩, rfl⟩

theorem joined_enclosed_nil :
    Joined (enclosed opening close []) t ↔ ∃ gap, Gap gap ∧ t = opening :: (gap ++ [close]) := by
  rw [enclosed, joined_cons_iff (by simp)]
  simp only [joined_single_iff]
  exact ⟨fun ⟨gap, _, hgap, hu, ht⟩ => ⟨gap, hgap, hu ▸ ht⟩,
    fun ⟨gap, hgap, ht⟩ => ⟨gap, _, hgap, rfl, ht⟩⟩

theorem joined_enclosed_cons :
    Joined (enclosed opening close (group :: rest)) t ↔
      ∃ gap u, Gap gap ∧ Joined (separated close group rest) u ∧ t = opening :: (gap ++ u) := by
  rw [enclosed, joined_cons_iff (separated_ne_nil close group rest)]
  rfl

theorem memberTokens_ne_nil (m : Quoted × List Text) : memberTokens m ≠ [] := by
  simp [memberTokens]

theorem joined_member_iff (hne : tokens ≠ []) :
    Joined (memberTokens (key, tokens)) t ↔
      ∃ gap gap' v, Gap gap ∧ Gap gap' ∧ Joined tokens v ∧
        t = key.text ++ (gap ++ Ascii.colon :: (gap' ++ v)) := by
  rw [memberTokens, joined_cons_iff (by simp)]
  simp only [joined_cons_iff hne]
  constructor
  · rintro ⟨gap, _, hgap, ⟨gap', v, hgap', hv, rfl⟩, rfl⟩
    exact ⟨gap, gap', v, hgap, hgap', hv, rfl⟩
  · rintro ⟨gap, gap', v, hgap, hgap', hv, rfl⟩
    exact ⟨gap, _, hgap, ⟨gap', v, hgap', hv, rfl⟩, rfl⟩

theorem joined_entry_iff (e : Entry) :
    Joined e.tokens t ↔ ∃ gap gap', Gap gap ∧ Gap gap' ∧
      t = e.key.text ++ (gap ++ Ascii.colon :: (gap' ++ e.value)) := by
  rw [Entry.tokens, joined_member_iff (by simp)]
  simp only [joined_single_iff]
  exact ⟨fun ⟨gap, gap', _, hgap, hgap', hv, ht⟩ => ⟨gap, gap', hgap, hgap', hv ▸ ht⟩,
    fun ⟨gap, gap', hgap, hgap', ht⟩ => ⟨gap, gap', _, hgap, hgap', rfl, ht⟩⟩

theorem Document.tokens_ne_nil (d : Document) : d.tokens ≠ [] := by
  cases d with
  | bool value => cases value <;> simp [tokens]
  | array items => cases items <;> simp [tokens, itemsTokens, enclosed]
  | object members => cases members <;> simp [tokens, membersTokens, objectTokens, enclosed]
  | _ => simp [tokens]

end MeshConsole.Json
