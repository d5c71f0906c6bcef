import MeshConsole.Proofs.Text.Bytes
import MeshConsole.Url.Escape

/-!
# Escapes are undone

What a part of a URL shows with escapes is read back as it was
(`unescape?_escape`), by the same part and by every other that lets the bytes
pass.
-/

namespace MeshConsole.Url

/-- The byte may not stand for itself where a part is read. -/
def refuses (part : Part) (b : UInt8) : Bool :=
  (part == .host || part == .zone) && b < 0x80 && mustEscape part b

/-- A byte that one part writes is read by another, escaped or as it is. -/
def Passes (written read : Part) (b : UInt8) : Prop :=
  if mustEscape written b = true then mayBeEscaped read b.toNat = true else refuses read b = false

/-- A digit of an escape. -/
def escapeDigit (d : Nat) : UInt8 := Ascii.toUpper (Ascii.hexDigit d)

/-- The bytes that an escape is written with. -/
def escapeBytes : Text := "%0123456789ABCDEF"

-- ---------------------------------------------------------------------------
-- One byte
-- ---------------------------------------------------------------------------

theorem mustEscape_percent (part : Part) : mustEscape part Ascii.percent = true := by
  cases part <;> rfl

theorem ne_percent (h : mustEscape part b = false) : b ≠ Ascii.percent := by
  rintro rfl
  simp [mustEscape_percent] at h

theorem of_among {P : UInt8 → Prop} (hall : ∀ b ∈ Text.ofString bytes, P b)
    (h : among bytes b = true) : P b := hall b (List.contains_iff_mem.mp h)

theorem hexValue?_escapeDigit : ∀ d < 16, Ascii.hexValue? (escapeDigit d) = some d := by decide

theorem percentByte_eq (b : UInt8) :
    percentByte b = [Ascii.percent, escapeDigit (b.toNat / 16), escapeDigit (b.toNat % 16)] := by
  have hhigh : b.toNat / 16 % 16 = b.toNat / 16 := by
    have := b.toNat_lt
    omega
  simp [percentByte, Text.hexDigits, Text.upperAscii, escapeDigit, hhigh]

theorem unescape?_cons (h : b ≠ Ascii.percent) (rest : Text) :
    unescape? part (b :: rest) =
      if refuses part b then none else (unescape? part rest).map (b :: ·) := by
  rw [unescape?]
  · simp [h, refuses]
  · exact fun _ _ _ heq _ => h heq

theorem unescape?_percent (ha : Ascii.hexValue? a = some high) (hb : Ascii.hexValue? b = some low)
    (rest : Text) : unescape? part (Ascii.percent :: a :: b :: rest) =
      if mayBeEscaped part (high * 16 + low) then
        (unescape? part rest).map ((high * 16 + low).toUInt8 :: ·)
      else none := by
  refine (unescape?.eq_2 part a b rest).trans ?_
  rw [ha, hb]

theorem unescape?_percentByte (h : mayBeEscaped part b.toNat = true) (rest : Text) :
    unescape? part (percentByte b ++ rest) = (unescape? part rest).map (b :: ·) := by
  have hlt := b.toNat_lt
  have hvalue : b.toNat / 16 * 16 + b.toNat % 16 = b.toNat := by omega
  have hbyte : b.toNat.toUInt8 = b := UInt8.ofNat_toNat
  rw [percentByte_eq]
  show unescape? part (Ascii.percent :: _ :: _ :: rest) = _
  rw [unescape?_percent (hexValue?_escapeDigit _ (by omega)) (hexValue?_escapeDigit _ (by omega)),
    hvalue, if_pos h, hbyte]

-- ---------------------------------------------------------------------------
-- Texts
-- ---------------------------------------------------------------------------

theorem escape_cons (part : Part) (b : UInt8) (t : Text) :
    escape part (b :: t) = (if mustEscape part b then percentByte b else [b]) ++ escape part t := by
  simp [escape]

theorem escape_append (part : Part) (s t : Text) :
    escape part (s ++ t) = escape part s ++ escape part t := by
  simp [escape]

theorem escape_of_plain (h : ∀ b ∈ t, mustEscape part b = false) : escape part t = t := by
  induction t with
  | nil => rfl
  | cons b t ih =>
    obtain ⟨hb, ht⟩ := List.forall_mem_cons.mp h
    simp [escape_cons, hb, ih ht]

theorem unescape?_escape {written read : Part} (h : ∀ b ∈ t, Passes written read b)
    (rest : Text) : unescape? read (escape written t ++ rest) = (unescape? read rest).map (t ++ ·) := by
  induction t with
  | nil => simp [escape]
  | cons b t ih =>
    obtain ⟨hb, ht⟩ := List.forall_mem_cons.mp h
    rw [escape_cons, List.append_assoc]
    unfold Passes at hb
    split at hb
    · rw [if_pos ‹_›, unescape?_percentByte hb, ih ht, Option.map_map]
      rfl
    · rename_i hplain
      rw [if_neg hplain, List.singleton_append, unescape?_cons (ne_percent (by simpa using hplain)),
        hb, ih ht, if_neg Bool.false_ne_true, Option.map_map]
      rfl

theorem unescape?_escape_nil {written read : Part} (h : ∀ b ∈ t, Passes written read b) :
    unescape? read (escape written t) = some t := by
  simpa [unescape?] using unescape?_escape h []

/-- A path holds every byte. -/
theorem passes_path (written : Part) (b : UInt8) : Passes written .path b := by
  unfold Passes
  split <;> rfl

theorem passes_user (written : Part) (b : UInt8) : Passes written .user b := by
  unfold Passes
  split <;> rfl

theorem mem_escape (h : b ∈ escape part t) :
    b ∈ t ∧ mustEscape part b = false ∨ b ∈ escapeBytes := by
  obtain ⟨c, hc, hb⟩ := List.mem_flatMap.mp h
  split at hb
  · have hlt := c.toNat_lt
    have hdigit : ∀ d < 16, escapeDigit d ∈ escapeBytes := by decide
    rw [percentByte_eq] at hb
    simp only [List.mem_cons, List.not_mem_nil, or_false] at hb
    rcases hb with rfl | rfl | rfl
    · exact .inr (by decide)
    · exact .inr (hdigit _ (by omega))
    · exact .inr (hdigit _ (by omega))
  · rename_i hplain
    rw [List.mem_singleton.mp hb]
    exact .inl ⟨hc, by simpa using hplain⟩

/-- A separator that a part escapes is not in what it shows. -/
theorem not_mem_escape (hb : b ∉ escapeBytes) (h : mustEscape part b = true) :
    b ∉ escape part t := fun hmem =>
  (mem_escape hmem).elim (fun hplain => by simp [h] at hplain) hb

theorem not_mem_escape_of_not_mem (hb : b ∉ escapeBytes) (h : b ∉ t) : b ∉ escape part t :=
  fun hmem => (mem_escape hmem).elim (fun hplain => h hplain.1) hb

-- ---------------------------------------------------------------------------
-- Reading
-- ---------------------------------------------------------------------------

/-- A text and what it stands for in a part, byte by byte. -/
inductive Unescapes (part : Part) : Text → Text → Prop
  | nil : Unescapes part [] []
  | plain {b t u} : b ≠ Ascii.percent → refuses part b = false → Unescapes part t u →
      Unescapes part (b :: t) (b :: u)
  | escaped {a b high low t u} : Ascii.hexValue? a = some high → Ascii.hexValue? b = some low →
      mayBeEscaped part (high * 16 + low) = true → Unescapes part t u →
      Unescapes part (Ascii.percent :: a :: b :: t) ((high * 16 + low).toUInt8 :: u)

theorem unescape?_eq_some_iff : unescape? part t = some u ↔ Unescapes part t u := by
  constructor
  · intro h
    fun_induction unescape? part t generalizing u with
    | case1 =>
      cases h
      exact .nil
    | case2 a b rest high low hb ha value hmay =>
      rename_i ih
      obtain ⟨u, hu, rfl⟩ := Option.map_eq_some_iff.mp h
      exact .escaped ha hb hmay (ih hu)
    | case3 => cases h
    | case4 => cases h
    | case5 => cases h
    | case6 => cases h
    | case7 b rest _ hb hrefuses ih =>
      obtain ⟨u, hu, rfl⟩ := Option.map_eq_some_iff.mp h
      exact .plain (by simpa using hb) (Bool.not_eq_true _ |>.mp hrefuses) (ih hu)
  · intro h
    induction h with
    | nil => rfl
    | plain hb hrefuses _ ih => simp [unescape?_cons hb, hrefuses, ih]
    | escaped ha hb hmay _ ih => simp [unescape?_percent ha hb, hmay, ih]

theorem Unescapes.append (h : Unescapes part s u) (h' : Unescapes part t v) :
    Unescapes part (s ++ t) (u ++ v) := by
  induction h with
  | nil => exact h'
  | plain hb hrefuses _ ih => exact .plain hb hrefuses ih
  | escaped ha hb hmay _ ih => exact .escaped ha hb hmay ih

/-- An escape does not reach over a byte that is no digit of it. -/
theorem Unescapes.split (hb : b ≠ Ascii.percent) (hdigit : Ascii.hexValue? b = none)
    (h : Unescapes part (s ++ b :: t) u) :
    ∃ v w, Unescapes part s v ∧ Unescapes part (b :: t) w ∧ u = v ++ w := by
  generalize htext : s ++ b :: t = text at h
  induction h generalizing s with
  | nil => simp at htext
  | @plain c rest u hc hrefuses hrest ih =>
    cases s with
    | nil =>
      obtain ⟨rfl, rfl⟩ := List.cons.inj htext
      exact ⟨[], _, .nil, .plain hc hrefuses hrest, rfl⟩
    | cons d s =>
      obtain ⟨rfl, hrest⟩ := List.cons.inj htext
      obtain ⟨v, w, hv, hw, rfl⟩ := ih hrest
      exact ⟨_, w, .plain hc hrefuses hv, hw, rfl⟩
  | @escaped a c high low rest u ha hc hmay hrest ih =>
    match s, htext with
    | [], htext => exact absurd (List.head_eq_of_cons_eq htext) hb
    | [_], htext =>
      simp only [List.cons_append, List.nil_append, List.cons.injEq] at htext
      rw [← htext.2.1, hdigit] at ha
      cases ha
    | [_, _], htext =>
      simp only [List.cons_append, List.nil_append, List.cons.injEq] at htext
      rw [← htext.2.2.1, hdigit] at hc
      cases hc
    | _ :: _ :: _ :: s, htext =>
      simp only [List.cons_append, List.cons.injEq] at htext
      obtain ⟨rfl, rfl, rfl, hrest⟩ := htext
      obtain ⟨v, w, hv, hw, rfl⟩ := ih hrest
      exact ⟨_, w, .escaped ha hc hmay hv, hw, rfl⟩

theorem hexValue?_lt (h : Ascii.hexValue? b = some d) : d < 16 := by
  have hall : ∀ b : UInt8, (Ascii.hexValue? b).all (· < 16) = true := forall_byte (by decide +kernel)
  simpa [h] using hall b

/-- A byte of what a text stands for is in the text, or was escaped in it. -/
theorem Unescapes.mem (h : Unescapes part t u) (hb : b ∈ u) :
    b ∈ t ∧ refuses part b = false ∨ mayBeEscaped part b.toNat = true := by
  induction h with
  | nil => cases hb
  | plain _ hrefuses _ ih =>
    rcases List.mem_cons.mp hb with rfl | hb
    · exact .inl ⟨by simp, hrefuses⟩
    · exact (ih hb).imp_left fun hmem => ⟨List.mem_cons_of_mem _ hmem.1, hmem.2⟩
  | @escaped a c high low rest u ha hc hmay _ ih =>
    rcases List.mem_cons.mp hb with rfl | hb
    · have hhigh := hexValue?_lt ha
      have hlow := hexValue?_lt hc
      have hvalue : (high * 16 + low).toUInt8.toNat = high * 16 + low :=
        Nat.mod_eq_of_lt (by omega)
      exact .inr (by rwa [hvalue])
    · refine (ih hb).imp_left fun hmem => ⟨?_, hmem.2⟩
      simp [hmem.1]

theorem Unescapes.of_plain (h : ∀ b ∈ t, b ≠ Ascii.percent ∧ refuses part b = false) :
    Unescapes part t t := by
  induction t with
  | nil => exact .nil
  | cons b t ih =>
    obtain ⟨hb, ht⟩ := List.forall_mem_cons.mp h
    exact .plain hb.1 hb.2 (ih ht)

end MeshConsole.Url
