import MeshConsole.Proofs.Json.Grammar

/-!
# Reading blanks, strings and numbers

For each function of the strict reader that passes over a string or a part
of a number, two lemmas: what the grammar writes is passed over to its end
(`_append`), and what is passed over is written by the grammar (`_sound`).
A number is passed over as far as it can be, so it needs a text behind it
that cannot continue it (`Ended`).
-/

namespace MeshConsole.Json

open Strict

-- ---------------------------------------------------------------------------
-- Blanks
-- ---------------------------------------------------------------------------

theorem skipBlanks_gap (h : Gap gap) (t : Text) : skipBlanks (gap ++ t) = skipBlanks t :=
  List.dropWhile_append_of_pos h

theorem skipBlanks_cons (h : isBlank b = false) (t : Text) : skipBlanks (b :: t) = b :: t := by
  simp [skipBlanks, h]

theorem Gap.append (h : Gap s) (h' : Gap t) : Gap (s ++ t) := by
  intro b hb
  exact (List.mem_append.mp hb).elim (h b) (h' b)

theorem gap_skipBlanks (t : Text) : ∃ gap, Gap gap ∧ t = gap ++ skipBlanks t :=
  ⟨t.takeWhile isBlank, fun _ hb => List.all_eq_true.mp List.all_takeWhile _ hb,
    List.takeWhile_append_dropWhile.symm⟩

/-- No blank is left once they are skipped. -/
theorem gap_eq_nil (h : skipBlanks t = gap ++ u) (hgap : Gap gap) : gap = [] := by
  cases gap with
  | nil => rfl
  | cons b gap =>
    have hhead := List.head?_dropWhile_not isBlank t
    rw [show t.dropWhile isBlank = b :: (gap ++ u) from h] at hhead
    exact absurd (hgap b (by simp)) (by simpa using hhead)

theorem skipBlanks_idem (t : Text) : skipBlanks (skipBlanks t) = skipBlanks t := by
  obtain ⟨gap, hgap, ht⟩ := gap_skipBlanks (skipBlanks t)
  obtain rfl := gap_eq_nil ht hgap
  exact ht.symm

/-- What no blanks in front can change, skipping them does not change. -/
theorem skipBlanks_invariant {f : Text → α} (h : ∀ gap t, Gap gap → f (gap ++ t) = f t)
    (t : Text) : f (skipBlanks t) = f t := by
  obtain ⟨gap, hgap, ht⟩ := gap_skipBlanks t
  have hskip := h gap (skipBlanks t) hgap
  rw [← ht] at hskip
  exact hskip.symm

theorem isBlank_cases (h : isBlank b = true) :
    b = Ascii.blank ∨ b = Ascii.newline ∨ b = Ascii.tab ∨ b = Ascii.carriageReturn := by
  simpa [isBlank, or_assoc] using h

theorem skipBlanks_eq_nil_iff : skipBlanks t = [] ↔ Gap t := by
  constructor
  · intro h
    obtain ⟨gap, hgap, ht⟩ := gap_skipBlanks t
    rw [h, List.append_nil] at ht
    exact ht ▸ hgap
  · intro h
    have := skipBlanks_gap h []
    rwa [List.append_nil] at this

-- ---------------------------------------------------------------------------
-- Strings
-- ---------------------------------------------------------------------------

theorem stringBody_quote (done rest : Text) :
    stringBody done (Ascii.quote :: rest) = some (done.reverse, rest) := rfl

theorem stringBody_code (ha : isHex a = true) (hb : isHex b = true) (hc : isHex c = true)
    (hd : isHex d = true) (done rest : Text) :
    stringBody done (Ascii.backslash :: Ascii.lowerU :: a :: b :: c :: d :: rest) =
      stringBody (d :: c :: b :: a :: Ascii.lowerU :: Ascii.backslash :: done) rest := by
  show (if isHex a && isHex b && isHex c && isHex d then _ else none) = _
  simp [ha, hb, hc, hd]

theorem stringBody_escape (h : (simpleEscape? letter).isSome = true) (done rest : Text) :
    stringBody done (Ascii.backslash :: letter :: rest) =
      stringBody (letter :: Ascii.backslash :: done) rest := by
  conv => lhs; unfold stringBody
  split
  next heq => cases heq
  next heq => exact absurd (List.head_eq_of_cons_eq heq) (by decide)
  next heq =>
    have hu : letter = Ascii.lowerU := List.head_eq_of_cons_eq (List.tail_eq_of_cons_eq heq)
    rw [hu] at h
    exact absurd h (by decide)
  next heq =>
    cases heq
    exact if_pos h
  next hnot heq =>
    cases heq
    exact (hnot _ _ rfl rfl).elim

theorem stringBody_plain (hb : Ascii.blank ≤ b) (hq : b ≠ Ascii.quote) (hs : b ≠ Ascii.backslash)
    (done rest : Text) : stringBody done (b :: rest) = stringBody (b :: done) rest := by
  rw [stringBody]
  · simp [UInt8.not_lt.mpr hb, hs]
  · exact hq
  · exact fun _ _ _ _ _ h => absurd h hs
  · exact fun _ _ h => absurd h hs

theorem stringBody_append (h : IsBody body) (done rest : Text) :
    stringBody done (body ++ Ascii.quote :: rest) = some (done.reverse ++ body, rest) := by
  induction h generalizing done with
  | nil => rw [List.nil_append, stringBody_quote, List.append_nil]
  | plain hb hq hs _ ih =>
    rw [List.cons_append, stringBody_plain hb hq hs, ih]
    simp
  | escape h _ ih =>
    rw [List.cons_append, List.cons_append, stringBody_escape h, ih]
    simp
  | code ha hb hc hd _ ih =>
    simp only [List.cons_append]
    rw [stringBody_code ha hb hc hd, ih]
    simp

theorem stringBody_sound (h : stringBody done t = some (body, rest)) :
    ∃ more, IsBody more ∧ body = done.reverse ++ more ∧ t = more ++ Ascii.quote :: rest := by
  fun_induction stringBody done t with
  | case1 => cases h
  | case2 =>
    cases h
    exact ⟨[], .nil, by simp, rfl⟩
  | case3 done a b c d t hhex ih =>
    obtain ⟨more, hmore, rfl, rfl⟩ := ih h
    simp only [Bool.and_eq_true] at hhex
    obtain ⟨⟨⟨ha, hb⟩, hc⟩, hd⟩ := hhex
    exact ⟨_, .code ha hb hc hd hmore, by simp, rfl⟩
  | case4 => cases h
  | case5 done letter t _ hletter ih =>
    obtain ⟨more, hmore, rfl, rfl⟩ := ih h
    exact ⟨_, .escape hletter hmore, by simp, rfl⟩
  | case6 => cases h
  | case7 => cases h
  | case8 done b t hquote _ _ hplain ih =>
    obtain ⟨more, hmore, rfl, rfl⟩ := ih h
    simp only [Bool.or_eq_true, decide_eq_true_eq, beq_iff_eq, not_or, UInt8.not_lt] at hplain
    exact ⟨_, .plain hplain.1 hquote hplain.2 hmore, by simp, rfl⟩

theorem isBody_iff : IsBody body ↔ stringBody [] (body ++ [Ascii.quote]) = some (body, []) := by
  constructor
  · exact fun h => stringBody_append h [] []
  · intro h
    obtain ⟨more, hmore, rfl, -⟩ := stringBody_sound h
    exact hmore

instance : Decidable (IsBody body) := decidable_of_iff _ isBody_iff.symm

-- ---------------------------------------------------------------------------
-- Numbers
-- ---------------------------------------------------------------------------

/-- The text starts with no byte that `p` holds of. -/
def Stops (p : UInt8 → Bool) (t : Text) : Prop := ∀ b ∈ t.head?, p b = false

theorem dropWhile_append_stops {p : UInt8 → Bool} (h : ∀ b ∈ t, p b = true) (hrest : Stops p rest) :
    (t ++ rest).dropWhile p = rest := by
  rw [List.dropWhile_append_of_pos h]
  cases rest with
  | nil => rfl
  | cons b rest => exact List.dropWhile_cons_of_neg (by simpa [Stops] using hrest)

theorem IsDigits.head (h : IsDigits t) : ∃ b rest, t = b :: rest ∧ Ascii.isDigit b = true := by
  obtain ⟨hne, hall⟩ := h
  cases t with
  | nil => exact absurd rfl hne
  | cons b rest => exact ⟨b, rest, rfl, hall b (by simp)⟩

theorem skipDigits_append (h : IsDigits digits) (hrest : Stops Ascii.isDigit rest) :
    skipDigits (digits ++ rest) = some rest := by
  obtain ⟨hne, hall⟩ := h
  cases digits with
  | nil => exact absurd rfl hne
  | cons b digits =>
    rw [List.forall_mem_cons] at hall
    rw [List.cons_append, skipDigits, if_pos hall.1, dropWhile_append_stops hall.2 hrest]

theorem skipDigits_sound (h : skipDigits t = some rest) :
    ∃ digits, IsDigits digits ∧ t = digits ++ rest := by
  unfold skipDigits at h
  split at h
  next b t' =>
    split at h
    next hb =>
      cases h
      refine ⟨b :: t'.takeWhile Ascii.isDigit, ⟨by simp, ?_⟩, ?_⟩
      · rw [List.forall_mem_cons]
        exact ⟨hb, fun _ hc => List.all_eq_true.mp List.all_takeWhile _ hc⟩
      · rw [List.cons_append, List.takeWhile_append_dropWhile]
    next => cases h
  next => cases h

theorem skipFraction_append (h : IsFraction fraction) (hrest : Stops Ascii.isDigit rest)
    (hdot : rest.head? ≠ some Ascii.dot) : skipFraction (fraction ++ rest) = some rest := by
  cases h with
  | none =>
    unfold skipFraction
    split
    next heq =>
      rw [List.nil_append] at heq
      rw [heq] at hdot
      exact absurd rfl hdot
    next => rfl
  | digits h => exact skipDigits_append h hrest

theorem skipFraction_sound (h : skipFraction t = some rest) :
    ∃ fraction, IsFraction fraction ∧ t = fraction ++ rest := by
  unfold skipFraction at h
  split at h
  next =>
    obtain ⟨digits, hdigits, rfl⟩ := skipDigits_sound h
    exact ⟨_, .digits hdigits, rfl⟩
  next =>
    cases h
    exact ⟨[], .none, rfl⟩

theorem skipExponent_append (h : IsExponent exponent) (hrest : Stops Ascii.isDigit rest)
    (hmark : Stops (fun b => b == 0x65 || b == 0x45) rest) :
    skipExponent (exponent ++ rest) = some rest := by
  cases h with
  | none =>
    cases rest with
    | nil => rfl
    | cons b rest =>
      have hb : (b == 0x65 || b == 0x45) = false := hmark b rfl
      simp [skipExponent, hb]
  | @digits mark sign digits hm hsign hdigits =>
    have hm' : (mark == 0x65 || mark == 0x45) = true := by simpa using hm
    have hskip := skipDigits_append hdigits hrest
    rw [List.cons_append, skipExponent.eq_def]
    simp only [hm', if_true]
    rcases hsign with rfl | rfl | rfl
    · obtain ⟨b, more, rfl, hb⟩ := hdigits.head
      split
      next heq =>
        rw [List.head_eq_of_cons_eq heq] at hb
        exact absurd hb (by decide)
      next heq =>
        rw [List.head_eq_of_cons_eq heq] at hb
        exact absurd hb (by decide)
      next => exact hskip
    · exact hskip
    · exact hskip

theorem skipExponent_sound (h : skipExponent t = some rest) :
    ∃ exponent, IsExponent exponent ∧ t = exponent ++ rest := by
  unfold skipExponent at h
  split at h
  next mark t' =>
    split at h
    next hm =>
      have hm : mark = 0x65 ∨ mark = 0x45 := by simpa using hm
      split at h
      all_goals
        obtain ⟨digits, hdigits, rfl⟩ := skipDigits_sound h
      · exact ⟨_, .digits hm (.inr (.inl rfl)) hdigits, rfl⟩
      · exact ⟨_, .digits hm (.inr (.inr rfl)) hdigits, rfl⟩
      · exact ⟨_, .digits hm (.inl rfl) hdigits, rfl⟩
    next =>
      cases h
      exact ⟨[], .none, rfl⟩
  next =>
    cases h
    exact ⟨[], .none, rfl⟩

/-- What follows an optional minus sign. -/
def unsigned : Text → Text
  | Ascii.minus :: rest => rest
  | rest => rest

/-- What follows the whole part of a number. -/
def skipWhole : Text → Option Text
  | Ascii.zero :: rest => some rest
  | rest => skipDigits rest

theorem skipNumber_eq (t : Text) :
    skipNumber t =
      (skipWhole (unsigned t)).bind fun t => (skipFraction t).bind skipExponent := by
  have hwhole : ∀ u : Text,
      (match u with
      | Ascii.zero :: rest => (some rest).bind fun t => (skipFraction t).bind skipExponent
      | rest => (skipDigits rest).bind fun t => (skipFraction t).bind skipExponent) =
      (skipWhole u).bind fun t => (skipFraction t).bind skipExponent := by
    intro u
    unfold skipWhole
    split <;> rfl
  exact hwhole (unsigned t)

theorem skipWhole_append (h : IsWhole whole) (hrest : Stops Ascii.isDigit rest) :
    skipWhole (whole ++ rest) = some rest := by
  cases h with
  | zero => rfl
  | @digits b digits hb hzero hall =>
    have hdigits : IsDigits (b :: digits) := ⟨by simp, by simpa [hb] using hall⟩
    unfold skipWhole
    split
    next heq => exact absurd (List.head_eq_of_cons_eq heq) hzero
    next => exact skipDigits_append hdigits hrest

theorem skipWhole_sound (h : skipWhole t = some rest) :
    ∃ whole, IsWhole whole ∧ t = whole ++ rest := by
  unfold skipWhole at h
  split at h
  next =>
    cases h
    exact ⟨_, .zero, rfl⟩
  next hzero =>
    obtain ⟨digits, ⟨hne, hall⟩, rfl⟩ := skipDigits_sound h
    cases digits with
    | nil => exact absurd rfl hne
    | cons b digits =>
      rw [List.forall_mem_cons] at hall
      exact ⟨_, .digits hall.1 (fun hb => hzero _ (by rw [hb]; rfl)) hall.2, rfl⟩

theorem unsigned_append (h : IsWhole whole) (rest : Text) :
    unsigned (whole ++ rest) = whole ++ rest := by
  unfold unsigned
  split
  next heq =>
    cases h with
    | zero => exact absurd (List.head_eq_of_cons_eq heq) (by decide)
    | digits hb _ _ =>
      rw [List.head_eq_of_cons_eq heq] at hb
      exact absurd hb (by decide)
  next => rfl

/-- Bytes that may follow a value. -/
def isDelimiter (b : UInt8) : Bool :=
  isBlank b || b == Ascii.comma || b == Ascii.closeBracket || b == Ascii.closeBrace

/-- A value that stands before this text has come to its end. -/
def Ended (t : Text) : Prop := ∀ b ∈ t.head?, isDelimiter b = true

theorem Ended.stops (h : Ended t) (hp : ∀ b, isDelimiter b = true → p b = false) : Stops p t :=
  fun b hb => hp b (h b hb)

theorem isDelimiter_cases (h : isDelimiter b = true) :
    b = Ascii.blank ∨ b = Ascii.newline ∨ b = Ascii.tab ∨ b = Ascii.carriageReturn ∨
      b = Ascii.comma ∨ b = Ascii.closeBracket ∨ b = Ascii.closeBrace := by
  simpa [isDelimiter, isBlank, or_assoc] using h

theorem isDelimiter_not_digit (h : isDelimiter b = true) : Ascii.isDigit b = false := by
  rcases isDelimiter_cases h with rfl | rfl | rfl | rfl | rfl | rfl | rfl <;> rfl

theorem Stops.of_fraction (h : IsFraction fraction) (hrest : Stops Ascii.isDigit rest) :
    Stops Ascii.isDigit (fraction ++ rest) := by
  cases h with
  | none => exact hrest
  | digits _ =>
    rintro b hb
    cases hb
    rfl

theorem IsExponent.head (h : IsExponent exponent) (hrest : Ended rest) :
    ∀ b ∈ (exponent ++ rest).head?, b = 0x65 ∨ b = 0x45 ∨ isDelimiter b = true := by
  intro b hb
  cases h with
  | none => exact .inr (.inr (hrest b hb))
  | digits hmark _ _ =>
    cases hb
    exact hmark.elim .inl fun h => .inr (.inl h)

theorem skipNumber_append (h : IsNumber t) (hrest : Ended rest) :
    skipNumber (t ++ rest) = some rest := by
  obtain @⟨sign, whole, fraction, exponent, hsign, hwhole, hfraction, hexponent⟩ := h
  have hunsigned : unsigned (sign ++ (whole ++ (fraction ++ exponent)) ++ rest) =
      whole ++ (fraction ++ (exponent ++ rest)) := by
    rcases hsign with rfl | rfl
    · simpa using unsigned_append hwhole (fraction ++ (exponent ++ rest))
    · show whole ++ (fraction ++ exponent) ++ rest = _
      simp
  have hdigit : Stops Ascii.isDigit (exponent ++ rest) := by
    intro b hb
    rcases hexponent.head hrest b hb with rfl | rfl | hb
    · rfl
    · rfl
    · exact isDelimiter_not_digit hb
  have hdot : (exponent ++ rest).head? ≠ some Ascii.dot := by
    intro hb
    rcases hexponent.head hrest _ hb with h | h | h <;> exact absurd h (by decide)
  have hmark : Stops (fun b => b == 0x65 || b == 0x45) rest := by
    intro b hb
    rcases isDelimiter_cases (hrest b hb) with rfl | rfl | rfl | rfl | rfl | rfl | rfl <;> rfl
  rw [skipNumber_eq, hunsigned, skipWhole_append hwhole (.of_fraction hfraction hdigit),
    Option.bind_some, skipFraction_append hfraction hdigit hdot, Option.bind_some,
    skipExponent_append hexponent (hrest.stops fun _ => isDelimiter_not_digit) hmark]

theorem skipNumber_sound (h : skipNumber t = some rest) :
    ∃ number, IsNumber number ∧ t = number ++ rest := by
  rw [skipNumber_eq] at h
  simp only [Option.bind_eq_some_iff] at h
  obtain ⟨t₁, hwhole, t₂, hfraction, hexponent⟩ := h
  obtain ⟨exponent, he, rfl⟩ := skipExponent_sound hexponent
  obtain ⟨fraction, hf, rfl⟩ := skipFraction_sound hfraction
  obtain ⟨whole, hw, hunsigned⟩ := skipWhole_sound hwhole
  have hsign : ∃ sign, (sign = [] ∨ sign = [Ascii.minus]) ∧ t = sign ++ unsigned t := by
    unfold unsigned
    split
    · exact ⟨_, .inr rfl, rfl⟩
    · exact ⟨[], .inl rfl, rfl⟩
  obtain ⟨sign, hs, ht⟩ := hsign
  rw [hunsigned] at ht
  exact ⟨_, .mk hs hw hf he, by rw [ht]; simp⟩

theorem isNumber_iff : IsNumber t ↔ skipNumber t = some [] := by
  constructor
  · intro h
    have hskip : skipNumber (t ++ []) = some [] := skipNumber_append h (by simp [Ended])
    rwa [List.append_nil] at hskip
  · intro h
    obtain ⟨number, hnumber, ht⟩ := skipNumber_sound h
    rwa [ht, List.append_nil]

instance : Decidable (IsNumber t) := decidable_of_iff _ isNumber_iff.symm

theorem IsNumber.head (h : IsNumber t) :
    ∃ b rest, t = b :: rest ∧ (b = Ascii.minus ∨ Ascii.isDigit b = true) := by
  obtain @⟨sign, whole, fraction, exponent, hsign, hwhole, -, -⟩ := h
  rcases hsign with rfl | rfl
  · cases hwhole with
    | zero => exact ⟨_, _, rfl, .inr rfl⟩
    | digits hb _ _ => exact ⟨_, _, rfl, .inr hb⟩
  · exact ⟨_, _, rfl, .inl rfl⟩

end MeshConsole.Json
