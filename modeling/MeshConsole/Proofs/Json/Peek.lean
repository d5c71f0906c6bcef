import MeshConsole.Proofs.Json.Reading

/-!
# Peeking at a member

The quick look at a payload and the reading of it are two readers of one
text. Where the text is read into an object whose keys are plain, the quick
look finds an array exactly when the first member with the key is one
(`member?_array_iff`).
-/

namespace MeshConsole.Json

open Peek

-- ---------------------------------------------------------------------------
-- Passing over values
-- ---------------------------------------------------------------------------

/-- The bytes that passing over takes notice of. -/
def marks : List UInt8 :=
  [Ascii.quote, Ascii.openBrace, Ascii.openBracket, 0x28, Ascii.closeBrace, Ascii.closeBracket,
    0x29]

theorem not_mem_marks {p : UInt8 → Bool} (h : p b = true) (hp : ∀ b ∈ marks, p b = false) :
    b ∉ marks := by
  intro hb
  rw [hp b hb] at h
  cases h

theorem squash_inert (h : ∀ b ∈ front, b ∉ marks) (d : Nat) (t : Text) :
    squash d false (front ++ t) = squash d false t := by
  induction front with
  | nil => rfl
  | cons b front ih =>
    obtain ⟨hb, hfront⟩ := List.forall_mem_cons.mp h
    simp only [marks, List.mem_cons, List.not_mem_nil, or_false, not_or] at hb
    rw [← ih hfront, List.cons_append, squash.eq_def]
    simp [hb]

theorem squash_gap (h : Gap gap) (d : Nat) (t : Text) :
    squash d false (gap ++ t) = squash d false t :=
  squash_inert (fun b hb => not_mem_marks (h b hb) (by decide)) d t

theorem squash_skipBlanks (d : Nat) (t : Text) :
    squash d false (skipBlanks t) = squash d false t :=
  skipBlanks_invariant (fun _ t hgap => squash_gap hgap d t) t

theorem squash_cons (h : b ∉ marks) (d : Nat) (t : Text) :
    squash d false (b :: t) = squash d false t := by
  have hinert : squash d false ([b] ++ t) = squash d false t := squash_inert (by simpa using h) d t
  exact hinert

/-- Where passing over goes on after a closing bracket. -/
def leave : Nat → Text → Text
  | 0, t => t
  | d + 1, t => squash (d + 1) false t

theorem squash_close (h : b = Ascii.closeBrace ∨ b = Ascii.closeBracket) (d : Nat) (t : Text) :
    squash (d + 1) false (b :: t) = leave d t := by
  rcases h with rfl | rfl <;> cases d <;> rfl

theorem squash_key (h : Tree.readKey ahead t = some (key, after)) (d : Nat) :
    squash d false t = squash d false after := by
  rcases readKey_cases h with ⟨text, _, clean, body, -, hspelled, rfl⟩ | ⟨-, rfl⟩
  · exact hspelled.shut.squash d after
  · exact squash_inert (by decide) d after

/-- Whatever is read with fuel `n` is passed over. -/
structure Passed (ahead : Text → Nat) (n : Nat) : Prop where
  value : ∀ depth t tree rest, Tree.readValue ahead n depth t = some (tree, rest) →
    ∀ d, squash (d + 1) false t = squash (d + 1) false rest
  members : ∀ depth done t tree rest, Tree.readMembers ahead n depth done t = some (tree, rest) →
    ∀ d, squash (d + 1) false t = leave d rest
  items : ∀ depth done t tree rest, Tree.readItems ahead n depth done t = some (tree, rest) →
    ∀ d, squash (d + 1) false t = leave d rest

theorem Passed.succ_members (ih : Passed ahead n)
    (h : Tree.readMembers ahead (n + 1) depth done t = some (tree, rest)) (d : Nat) :
    squash (d + 1) false t = leave d rest := by
  obtain ⟨key, _, gap, inside, value, r, hkey, hgap, rfl, hvalue, hnext⟩ := readMembers_cases h
  rw [squash_key hkey, squash_gap hgap, squash_cons (by decide), ← squash_skipBlanks,
    ih.value _ _ _ _ hvalue]
  rcases hnext with ⟨gap, next, hgap, rfl, hmembers⟩ | ⟨gap, hgap, rfl, -⟩
  · rw [squash_gap hgap, squash_cons (by decide), ← squash_skipBlanks]
    exact ih.members _ _ _ _ _ hmembers d
  · rw [squash_gap hgap]
    exact squash_close (.inl rfl) d rest

theorem Passed.succ_items (ih : Passed ahead n)
    (h : Tree.readItems ahead (n + 1) depth done t = some (tree, rest)) (d : Nat) :
    squash (d + 1) false t = leave d rest := by
  obtain ⟨value, r, hvalue, hnext⟩ := readItems_cases h
  rw [ih.value _ _ _ _ hvalue]
  rcases hnext with ⟨gap, next, hgap, rfl, hitems⟩ | ⟨gap, hgap, rfl, -⟩
  · rw [squash_gap hgap, squash_cons (by decide)]
    exact ih.items _ _ _ _ _ hitems d
  · rw [squash_gap hgap]
    exact squash_close (.inr rfl) d rest

theorem Passed.reading (ih : Passed ahead n) (h : Reading ahead n t tree rest) (d : Nat) :
    squash (d + 1) false t = squash (d + 1) false rest := by
  cases h with
  | null => exact squash_inert (by decide) _ _
  | true => exact squash_inert (by decide) _ _
  | false => exact squash_inert (by decide) _ _
  | number _ hliteral =>
    exact squash_inert (fun b hb => not_mem_marks (hliteral b hb) (by decide)) _ _
  | string hbody =>
    obtain ⟨body, hspelled, rfl⟩ := stringBody_spelled hbody
    exact hspelled.shut.squash _ _
  | emptyArray hgap =>
    show squash (d + 2) false _ = _
    rw [squash_gap hgap]
    exact squash_close (.inr rfl) (d + 1) rest
  | array hgap hitems =>
    show squash (d + 2) false _ = _
    rw [squash_gap hgap]
    exact ih.items _ _ _ _ _ hitems (d + 1)
  | emptyObject hgap =>
    show squash (d + 2) false _ = _
    rw [squash_gap hgap]
    exact squash_close (.inl rfl) (d + 1) rest
  | object hgap hmembers =>
    show squash (d + 2) false _ = _
    rw [squash_gap hgap]
    exact ih.members _ _ _ _ _ hmembers (d + 1)

theorem passed (ahead : Text → Nat) (n : Nat) : Passed ahead n := by
  induction n with
  | zero =>
    refine ⟨fun _ _ _ _ h => ?_, fun _ _ _ _ _ h => ?_, fun _ _ _ _ _ h => ?_⟩
    · simp [Tree.readValue] at h
    · simp [Tree.readMembers] at h
    · simp [Tree.readItems] at h
  | succ n ih =>
    refine ⟨fun depth t tree rest h d => ?_, fun _ _ _ _ _ => ih.succ_members,
      fun _ _ _ _ _ => ih.succ_items⟩
    rw [← squash_skipBlanks]
    exact ih.reading (readValue_reading h) d

-- ---------------------------------------------------------------------------
-- Finding the next key and the next value
-- ---------------------------------------------------------------------------

theorem nextKey_inert (h : ∀ b ∈ front, b ≠ Ascii.quote ∧ b ≠ Ascii.closeBrace) (t : Text) :
    nextKey (front ++ t) = nextKey t := by
  induction front with
  | nil => rfl
  | cons b front ih =>
    obtain ⟨hb, hfront⟩ := List.forall_mem_cons.mp h
    rw [← ih hfront, List.cons_append, nextKey]
    simp [hb]

theorem nextKey_gap (h : Gap gap) (t : Text) : nextKey (gap ++ t) = nextKey t := by
  refine nextKey_inert (fun b hb => ?_) t
  rcases isBlank_cases (h b hb) with rfl | rfl | rfl | rfl <;> decide

theorem nextKey_skipBlanks (t : Text) : nextKey (skipBlanks t) = nextKey t :=
  skipBlanks_invariant (fun _ t hgap => nextKey_gap hgap t) t

theorem nextValue_gap (h : Gap gap) (t : Text) : nextValue (gap ++ t) = nextValue t := by
  induction gap with
  | nil => rfl
  | cons b gap ih =>
    obtain ⟨hb, hgap⟩ := List.forall_mem_cons.mp h
    rw [← ih hgap]
    rcases isBlank_cases hb with rfl | rfl | rfl | rfl <;> rfl

theorem nextValue_skipBlanks (t : Text) : nextValue (skipBlanks t) = nextValue t :=
  skipBlanks_invariant (fun _ t hgap => nextValue_gap hgap t) t

theorem length_squash_le (d : Nat) (inString : Bool) (t : Text) :
    (squash d inString t).length ≤ t.length := by
  fun_induction squash d inString t with grind

theorem length_quotedBody_le (h : quotedBody done t = some (body, rest)) :
    rest.length ≤ t.length := by
  fun_induction quotedBody done t with
  | case1 => cases h
  | case2 =>
    cases h
    simp
  | case3 _ _ _ ih =>
    have := ih h
    simp only [List.length_cons]
    omega
  | case4 _ _ _ _ _ ih =>
    have := ih h
    simp only [List.length_cons]
    omega

theorem length_dropWhile_le (p : UInt8 → Bool) (t : Text) : (t.dropWhile p).length ≤ t.length :=
  (List.dropWhile_suffix p).length_le

theorem length_nextValue_lt (h : nextValue t = some (found, rest)) : rest.length < t.length := by
  fun_induction nextValue t with
  | case1 => cases h
  | case2 _ _ _ _ _ hbody =>
    cases h
    exact Nat.lt_succ_of_le (length_quotedBody_le hbody)
  | case3 =>
    cases h
    simp
  | case4 =>
    cases h
    exact Nat.lt_succ_of_le (length_squash_le _ _ _)
  | case5 =>
    cases h
    exact Nat.lt_succ_of_le (length_squash_le _ _ _)
  | case6 b t _ _ _ hword =>
    cases h
    have hlower : Ascii.isLower b = true := by
      simp only [Bool.or_eq_true, Bool.and_eq_true, beq_iff_eq] at hword
      rcases hword with (rfl | rfl) | ⟨rfl, -⟩ <;> rfl
    rw [List.dropWhile_cons_of_pos hlower]
    exact Nat.lt_succ_of_le (length_dropWhile_le _ t)
  | case7 =>
    cases h
    exact Nat.lt_succ_of_le (length_dropWhile_le _ _)
  | case8 _ _ _ _ _ _ _ ih =>
    have := ih h
    simp only [List.length_cons]
    omega

/-- The quick look can tell where the value starts: a number that may be passed
over starts with a digit or a minus sign, other literals need not. -/
def Tree.IsLegible : Tree → Prop
  | .number _ skippable => skippable = true
  | _ => True

theorem isSkippable_head (h : Literal.isSkippable ahead t literal = true) :
    ∃ b rest, literal = b :: rest ∧ (b = Ascii.minus ∨ Ascii.isDigit b = true) := by
  cases literal with
  | nil => cases h
  | cons b rest =>
    refine ⟨b, rest, rfl, ?_⟩
    by_contra hb
    obtain ⟨hminus, hdigit⟩ := not_or.mp hb
    have hzero : b ≠ Ascii.zero := by
      rintro rfl
      exact hdigit rfl
    simp [Literal.isSkippable, hminus, hdigit, hzero] at h

def Tree.IsArray (tree : Tree) : Prop := ∃ items, tree = .array items

/-- Where the quick look takes a number to end. -/
def endsNumber (b : UInt8) : Bool :=
  b ≤ Ascii.blank || b == Ascii.comma || b == Ascii.closeBracket || b == Ascii.closeBrace

theorem nextValue_number (hb : b = Ascii.minus ∨ Ascii.isDigit b = true) (t : Text) :
    nextValue (b :: t) = some (some .other, t.dropWhile fun c => !endsNumber c) := by
  rcases hb with rfl | hdigit
  · rfl
  · have hne : ∀ c, Ascii.isDigit c = false → b ≠ c := by
      rintro c hc rfl
      simp [hc] at hdigit
    rw [nextValue]
    simp [hne Ascii.quote rfl, hne Ascii.openBrace rfl, hne Ascii.openBracket rfl, hne 0x74 rfl,
      hne 0x66 rfl, hne 0x6E rfl, hdigit, endsNumber]

theorem isNumberByte_goesOn (h : Tree.isNumberByte b = true) : (!endsNumber b) = true := by
  simp only [Tree.isNumberByte, Ascii.isDigit, Bool.or_eq_true, Bool.and_eq_true,
    decide_eq_true_eq, beq_iff_eq] at h
  rcases h with ((((⟨hlow, hhigh⟩ | rfl) | rfl) | rfl) | rfl) | rfl
  · have hblank : ¬ b ≤ Ascii.blank := fun hb => absurd (UInt8.le_trans hlow hb) (by decide)
    have hne : ∀ c : UInt8, ¬ c ≤ 0x39 → b ≠ c := by
      rintro c hc rfl
      exact hc hhigh
    have hcomma : b ≠ Ascii.comma := by
      rintro rfl
      exact absurd hlow (by decide)
    simp [endsNumber, hblank, hcomma, hne Ascii.closeBracket (by decide),
      hne Ascii.closeBrace (by decide)]
  all_goals rfl

theorem nextValue_reading (h : Reading ahead n t tree rest) (hrest : Ended rest)
    (hlegible : tree.IsLegible) :
    ∃ found, nextValue t = some (some found, rest) ∧ (found = .array ↔ tree.IsArray) := by
  have hlower : Stops Ascii.isLower rest := hrest.stops fun b hb => by
    rcases isDelimiter_cases hb with rfl | rfl | rfl | rfl | rfl | rfl | rfl <;> rfl
  cases h with
  | null | true | false =>
    refine ⟨.other, ?_, by simp [Tree.IsArray]⟩
    exact congrArg (fun after => some (some Found.other, after))
      (dropWhile_append_stops (by decide) hlower)
  | number _ hliteral =>
    obtain ⟨b, literal, rfl, hb⟩ := isSkippable_head hlegible
    refine ⟨.other, ?_, by simp [Tree.IsArray]⟩
    rw [List.cons_append, nextValue_number hb, dropWhile_append_stops]
    · exact fun c hc => isNumberByte_goesOn (hliteral c (List.mem_cons_of_mem _ hc))
    · exact hrest.stops fun c hc => by
        rcases isDelimiter_cases hc with rfl | rfl | rfl | rfl | rfl | rfl | rfl <;> rfl
  | string hbody =>
    obtain ⟨body, hspelled, rfl⟩ := stringBody_spelled hbody
    refine ⟨.string (bodyText body), ?_, by simp [Tree.IsArray]⟩
    rw [nextValue, if_pos (beq_self_eq_true _), hspelled.shut.quotedBody]
    rfl
  | emptyArray hgap =>
    refine ⟨.array, ?_, by simp [Tree.IsArray]⟩
    show some (some Found.array, squash 1 false _) = _
    rw [squash_gap hgap]
    rfl
  | array hgap hitems =>
    obtain ⟨items, rfl⟩ := readItems_array hitems
    refine ⟨.array, ?_, by simp [Tree.IsArray]⟩
    show some (some Found.array, squash 1 false _) = _
    rw [squash_gap hgap, (passed ahead n).items _ _ _ _ _ hitems 0]
    rfl
  | emptyObject hgap =>
    refine ⟨.object, ?_, by simp [Tree.IsArray]⟩
    show some (some Found.object, squash 1 false _) = _
    rw [squash_gap hgap]
    rfl
  | object hgap hmembers =>
    obtain ⟨members, rfl⟩ := readMembers_object hmembers
    refine ⟨.object, ?_, by simp [Tree.IsArray]⟩
    show some (some Found.object, squash 1 false _) = _
    rw [squash_gap hgap, (passed ahead n).members _ _ _ _ _ hmembers 0]
    rfl

-- ---------------------------------------------------------------------------
-- Seeking a member
-- ---------------------------------------------------------------------------

namespace Tree.Member

/-- The key is just this text. -/
def isExactly (name : Text) (m : Member) : Bool :=
  match m.key with
  | .name text _ _ => text == name
  | .null => false

/-- The key is a string without control bytes, and the value is legible. -/
def IsLegible (m : Member) : Prop :=
  (∃ text plain clean, m.key = .name text plain clean ∧ ∀ b ∈ text, Ascii.blank ≤ b) ∧ m.value.IsLegible

/-- The value of the first member with just this key. -/
def valueOf? (name : Text) (members : List Member) : Option Tree :=
  (members.find? (isExactly name)).map value

end Tree.Member

theorem seek_congr (h : nextKey t = nextKey t') (key : Text) (fuel : Nat) :
    seek key fuel t = seek key fuel t' := by
  cases fuel with
  | zero => rfl
  | succ fuel => rw [seek, seek, h]

theorem seek_end (h : nextKey t = none) (key : Text) (fuel : Nat) : seek key fuel t = none := by
  cases fuel with
  | zero => rfl
  | succ fuel => rw [seek, h]

theorem seek_step (hspelled : Spelled body text) (hplain : ∀ b ∈ text, Ascii.blank ≤ b)
    (hkey : ∀ b ∈ key, b < 0x80) (hvalue : nextValue after = some (some found, r)) (fuel : Nat) :
    seek key (fuel + 1) (Ascii.quote :: (body ++ Ascii.quote :: after)) =
      if text = key then some found else seek key fuel r := by
  have hnext : nextKey (Ascii.quote :: (body ++ Ascii.quote :: after)) = some (body, after) :=
    hspelled.shut.quotedBody [] after
  rw [seek, hnext]
  simp only [hvalue, beq_iff_eq, (hspelled.bodyText hplain).eq_iff hkey]

theorem nextValue_member (hgap : Gap gap)
    (hvalue : Tree.readValue ahead n depth (skipBlanks inside) = some (value, r)) (hr : Ended r)
    (hlegible : value.IsLegible) :
    ∃ found, nextValue (gap ++ Ascii.colon :: inside) = some (some found, r) ∧
      (found = .array ↔ value.IsArray) := by
  cases n with
  | zero => simp [Tree.readValue] at hvalue
  | succ n =>
    have hreading := readValue_reading hvalue
    rw [skipBlanks_idem] at hreading
    obtain ⟨found, hfound, harray⟩ := nextValue_reading hreading hr hlegible
    refine ⟨found, ?_, harray⟩
    rw [nextValue_gap hgap]
    show nextValue inside = _
    rw [← nextValue_skipBlanks, hfound]

theorem valueOf?_cons (name text : Text) (plain : Nat) (clean : Bool) (value : Tree)
    (texts : Text × Text) (more : List Tree.Member) :
    Tree.Member.valueOf? name ((.name text plain clean, value, texts) :: more) =
      if text = name then some value else Tree.Member.valueOf? name more := by
  by_cases h : text = name <;>
    simp [Tree.Member.valueOf?, Tree.Member.isExactly, Tree.Member.key, Tree.Member.value, h]

/-- Seeking finds an array exactly when the first member with this key is
one. -/
theorem seek_members (hkey : ∀ b ∈ key, b < 0x80)
    (h : Tree.readMembers ahead n depth done t = some (.object (done.reverse ++ members), rest))
    (hmembers : ∀ m ∈ members, Tree.Member.IsLegible m) (hfuel : t.length < fuel) :
    seek key fuel t = some .array ↔
      ∃ items, Tree.Member.valueOf? key members = some (.array items) := by
  induction n generalizing done t members fuel with
  | zero => simp [Tree.readMembers] at h
  | succ n ih =>
    obtain ⟨fuel, rfl⟩ : ∃ k, fuel = k + 1 := ⟨fuel - 1, by omega⟩
    obtain ⟨key', gap, inside, value, r, more, hgap, hread, hvalue, rfl, hnext⟩ :=
      readMembers_split h
    obtain ⟨⟨⟨text, plain, clean, hname, hplain⟩, hlegible⟩, hmore⟩ := List.forall_mem_cons.mp hmembers
    obtain rfl : key' = .name text plain clean := hname
    have hr : Ended r := by
      rcases hnext with ⟨gap, next, hgap, rfl, -⟩ | ⟨-, gap, hgap, rfl⟩
      · exact .of_gap_cons hgap rfl
      · exact .of_gap_cons hgap rfl
    obtain ⟨found, hfound, harray⟩ := nextValue_member hgap hvalue hr hlegible
    rcases readKey_cases hread with ⟨_, _, _, body, heq, hspelled, rfl⟩ | ⟨heq, -⟩
    · cases heq
      rw [seek_step hspelled hplain hkey hfound, valueOf?_cons]
      by_cases htext : text = key
      · rw [if_pos htext, if_pos htext]
        simpa [Tree.IsArray] using harray
      · rw [if_neg htext, if_neg htext]
        rcases hnext with ⟨gap', next, hgap', rfl, hrest⟩ | ⟨rfl, gap', hgap', rfl⟩
        · have hseek : nextKey (gap' ++ Ascii.comma :: next) = nextKey (skipBlanks next) := by
            rw [nextKey_gap hgap', nextKey_skipBlanks]
            rfl
          have hlength := length_nextValue_lt hfound
          have hskip := length_dropWhile_le isBlank next
          rw [seek_congr hseek]
          refine ih hrest hmore ?_
          simp only [List.length_cons, List.length_append] at hfuel hlength ⊢
          rw [skipBlanks]
          omega
        · have hend : nextKey (gap' ++ Ascii.closeBrace :: rest) = none := by
            rw [nextKey_gap hgap']
            rfl
          rw [seek_end hend]
          simp [Tree.Member.valueOf?]
    · cases heq

/-- The quick look starts at the first bracket. -/
theorem not_bracket_of_gap (h : Gap gap) :
    ∀ b ∈ gap, (!(b == Ascii.openBrace || b == Ascii.openBracket)) = true := by
  intro b hb
  rcases isBlank_cases (h b hb) with rfl | rfl | rfl | rfl <;> rfl

theorem member?_object (hgap : Gap gap) (key t : Text) :
    member? key (gap ++ Ascii.openBrace :: t) = seek key (t.length + 1) t := by
  have hstart : (gap ++ Ascii.openBrace :: t).dropWhile
      (fun b => !(b == Ascii.openBrace || b == Ascii.openBracket)) = Ascii.openBrace :: t :=
    dropWhile_append_stops (not_bracket_of_gap hgap) (by simp [Stops])
  rw [member?, hstart]
  rfl

/-- The quick look finds an array exactly when the first member with this key
is one. -/
theorem member?_array_iff (hkey : ∀ b ∈ key, b < 0x80)
    (h : Tree.parse? t = some (.object members))
    (hmembers : ∀ m ∈ members, Tree.Member.IsLegible m) :
    member? key t = some .array ↔
      ∃ items, Tree.Member.valueOf? key members = some (.array items) := by
  obtain ⟨rest, hreading, -⟩ := parse?_cases h
  obtain ⟨gap, hgap, ht⟩ := gap_skipBlanks t
  rw [ht]
  generalize skipBlanks t = u at hreading
  cases hreading with
  | emptyObject hinside =>
    rw [member?_object hgap, seek_end (by rw [nextKey_gap hinside]; rfl)]
    simp [Tree.Member.valueOf?]
  | @object level inside t' _ _ hinside hread =>
    rw [member?_object hgap, seek_congr (nextKey_gap hinside t')]
    have hfuel : t'.length < (inside ++ t').length + 1 := by
      rw [List.length_append]
      omega
    exact seek_members hkey hread hmembers hfuel
  | array _ hread =>
    obtain ⟨items, heq⟩ := readItems_array hread
    cases heq

/-- Nothing is found in the word `null`. -/
theorem member?_null (h : Tree.parse? t = some .null) (hnul : 0 ∉ t) (key : Text) :
    member? key t = none := by
  obtain ⟨rest, hreading, hrest⟩ := parse?_cases h
  obtain ⟨gap, hgap, ht⟩ := gap_skipBlanks t
  have hnull : skipBlanks t = wordNull ++ rest := by
    generalize skipBlanks t = u at hreading
    cases hreading with
    | null => rfl
    | array _ hread =>
      obtain ⟨items, heq⟩ := readItems_array hread
      cases heq
    | object _ hread =>
      obtain ⟨members, heq⟩ := readMembers_object hread
      cases heq
  rw [hnull] at ht
  have hblank : Gap rest := by
    rcases hrest with hblank | ⟨gap', more, -, rfl⟩
    · exact hblank
    · exact absurd (by rw [ht]; simp) hnul
  have hnone : t.dropWhile (fun b => !(b == Ascii.openBrace || b == Ascii.openBracket)) = [] := by
    have hall : ∀ b ∈ t, (!(b == Ascii.openBrace || b == Ascii.openBracket)) = true := by
      rw [ht]
      exact List.forall_mem_append.mpr ⟨not_bracket_of_gap hgap,
        List.forall_mem_append.mpr ⟨by decide, not_bracket_of_gap hblank⟩⟩
    have hdrop : (t ++ []).dropWhile _ = _ := List.dropWhile_append_of_pos hall
    simpa using hdrop
  rw [member?, hnone]

end MeshConsole.Json
