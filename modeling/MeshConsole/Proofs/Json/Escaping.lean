import Mathlib.Algebra.Group.Nat.Defs
import MeshConsole.Json.Value
import MeshConsole.Proofs.Json.Spelling

/-!
# Strings as they are written

The library writes a string glyph by glyph, and escapes what it must. Every
reader of strings takes such a string for the text it was written for
(`escaped_glyphs`), apart from the bytes that belong to no glyph
(`Text.scrub`).
-/

namespace MeshConsole

-- ---------------------------------------------------------------------------
-- Glyphs
-- ---------------------------------------------------------------------------

/-- The bytes of a glyph; U+FFFD for a stray byte. -/
def Glyph.scrub : Glyph → Text
  | .scalar _ bytes => bytes
  | .stray _ => Text.encodeCode 0xFFFD

namespace Text

theorem bits_eq_mod (b : UInt8) (width : Nat) : bits b (2 ^ width - 1) = b.toNat % 2 ^ width :=
  Nat.and_two_pow_sub_one_eq_mod ..

theorem shiftLeft_or (high : Nat) {width unit : Nat} (hunit : 2 ^ width = unit) (h : low < unit) :
    high <<< width ||| low = high * unit + low := by
  subst hunit
  rw [← Nat.shiftLeft_add_eq_or_of_lt h, Nat.shiftLeft_eq]

section
variable (a b c d : UInt8)

theorem code_two : bits a 0x1F <<< 6 ||| bits b 0x3F = a.toNat % 32 * 64 + b.toNat % 64 := by
  have ha : bits a 0x1F = a.toNat % 32 := bits_eq_mod a 5
  have hb : bits b 0x3F = b.toNat % 64 := bits_eq_mod b 6
  have hlow : b.toNat % 64 < 64 := Nat.mod_lt _ (by decide)
  rw [ha, hb, shiftLeft_or _ (by decide) hlow]

theorem code_three : bits a 0x0F <<< 12 ||| bits b 0x3F <<< 6 ||| bits c 0x3F =
    a.toNat % 16 * 4096 + (b.toNat % 64 * 64 + c.toNat % 64) := by
  have ha : bits a 0x0F = a.toNat % 16 := bits_eq_mod a 4
  have hb : bits b 0x3F = b.toNat % 64 := bits_eq_mod b 6
  have hc : bits c 0x3F = c.toNat % 64 := bits_eq_mod c 6
  have hlow : c.toNat % 64 < 64 := Nat.mod_lt _ (by decide)
  have hmid : b.toNat % 64 * 64 + c.toNat % 64 < 4096 := by omega
  rw [Nat.or_assoc, ha, hb, hc, shiftLeft_or _ (by decide) hlow, shiftLeft_or _ (by decide) hmid]

theorem code_four :
    bits a 0x07 <<< 18 ||| bits b 0x3F <<< 12 ||| bits c 0x3F <<< 6 ||| bits d 0x3F =
      a.toNat % 8 * 262144 + (b.toNat % 64 * 4096 + (c.toNat % 64 * 64 + d.toNat % 64)) := by
  have ha : bits a 0x07 = a.toNat % 8 := bits_eq_mod a 3
  have hb : bits b 0x3F = b.toNat % 64 := bits_eq_mod b 6
  have hc : bits c 0x3F = c.toNat % 64 := bits_eq_mod c 6
  have hd : bits d 0x3F = d.toNat % 64 := bits_eq_mod d 6
  have hlow : d.toNat % 64 < 64 := Nat.mod_lt _ (by decide)
  have hmid : c.toNat % 64 * 64 + d.toNat % 64 < 4096 := by omega
  have hhigh : b.toNat % 64 * 4096 + (c.toNat % 64 * 64 + d.toNat % 64) < 262144 := by omega
  rw [Nat.or_assoc, Nat.or_assoc, ha, hb, hc, hd, shiftLeft_or _ (by decide) hlow,
    shiftLeft_or _ (by decide) hmid, shiftLeft_or _ (by decide) hhigh]

end

/-- Following byte of a glyph. -/
def Tail (b : UInt8) : Prop := 0x80 ≤ b.toNat ∧ b.toNat ≤ 0xBF

theorem isTail_iff (b : UInt8) : isTail b = true ↔ Tail b := by
  simp [isTail, Tail, UInt8.le_iff_toNat_le]

/-- The glyph that a text starts with. -/
inductive Begins : Text → Glyph → Prop
  | ascii {a rest} : a.toNat < 0x80 → Begins (a :: rest) (.scalar a.toNat [a])
  | two {a b rest} : 0xC2 ≤ a.toNat → a.toNat ≤ 0xDF → Tail b →
      Begins (a :: b :: rest) (.scalar (a.toNat % 32 * 64 + b.toNat % 64) [a, b])
  | three {a b c rest} : 0xE0 ≤ a.toNat → a.toNat ≤ 0xEF → (a.toNat = 0xE0 → 0xA0 ≤ b.toNat) →
      Tail b → Tail c → Begins (a :: b :: c :: rest)
        (.scalar (a.toNat % 16 * 4096 + (b.toNat % 64 * 64 + c.toNat % 64)) [a, b, c])
  | four {a b c d rest} : 0xF0 ≤ a.toNat → a.toNat ≤ 0xF4 → (a.toNat = 0xF0 → 0x90 ≤ b.toNat) →
      Tail b → Tail c → Tail d → Begins (a :: b :: c :: d :: rest)
        (.scalar (a.toNat % 8 * 262144 +
          (b.toNat % 64 * 4096 + (c.toNat % 64 * 64 + d.toNat % 64))) [a, b, c, d])
  | stray {a rest} : Begins (a :: rest) (.stray a)

theorem least_tail {a b only least : UInt8} (hleast : 0x80 ≤ least.toNat)
    (h : (if a == only then least else 0x80) ≤ b) :
    0x80 ≤ b.toNat ∧ (a.toNat = only.toNat → least.toNat ≤ b.toNat) := by
  rw [UInt8.le_iff_toNat_le] at h
  split at h
  · exact ⟨Nat.le_trans hleast h, fun _ => h⟩
  · rename_i hne
    exact ⟨h, fun heq => absurd (UInt8.toNat_inj.mp heq) (by simpa using hne)⟩

theorem greatest_tail {a b only greatest : UInt8} (hgreatest : greatest.toNat ≤ 0xBF)
    (h : b ≤ if a == only then greatest else 0xBF) : b.toNat ≤ 0xBF := by
  rw [UInt8.le_iff_toNat_le] at h
  split at h
  · exact Nat.le_trans h hgreatest
  · exact h

theorem headGlyph_begins (a : UInt8) (rest : Text) : Begins (a :: rest) (headGlyph a rest) := by
  unfold headGlyph
  split
  · rename_i ha
    exact .ascii (UInt8.lt_iff_toNat_lt.mp ha)
  split
  · rename_i ha
    simp only [Bool.and_eq_true, decide_eq_true_eq, UInt8.le_iff_toNat_le] at ha
    split
    · rename_i b more
      split
      · rename_i hb
        rw [code_two]
        exact .two ha.1 ha.2 ((isTail_iff b).mp hb)
      · exact .stray
    · exact .stray
  split
  · rename_i ha
    simp only [Bool.and_eq_true, decide_eq_true_eq, UInt8.le_iff_toNat_le] at ha
    split
    · extract_lets low high
      split
      · rename_i hbc
        simp only [Bool.and_eq_true, decide_eq_true_eq, isTail_iff] at hbc
        obtain ⟨⟨hlow, hhigh⟩, hc⟩ := hbc
        obtain ⟨hb, htight⟩ := least_tail (by decide) hlow
        rw [code_three]
        exact .three ha.1 ha.2 htight ⟨hb, greatest_tail (by decide) hhigh⟩ hc
      · exact .stray
    · exact .stray
  split
  · rename_i ha
    simp only [Bool.and_eq_true, decide_eq_true_eq, UInt8.le_iff_toNat_le] at ha
    split
    · extract_lets low high
      split
      · rename_i hbcd
        simp only [Bool.and_eq_true, decide_eq_true_eq, isTail_iff] at hbcd
        obtain ⟨⟨⟨hlow, hhigh⟩, hc⟩, hd⟩ := hbcd
        obtain ⟨hb, htight⟩ := least_tail (by decide) hlow
        rw [code_four]
        exact .four ha.1 ha.2 htight ⟨hb, greatest_tail (by decide) hhigh⟩ hc hd
      · exact .stray
    · exact .stray
  · exact .stray

theorem glyphsFrom_done (skip : Nat) (t : Text) (done : List Glyph) :
    glyphsFrom skip t done = done.reverse ++ glyphsFrom skip t [] := by
  induction t generalizing skip done with
  | nil => cases skip <;> simp [glyphsFrom]
  | cons a rest ih =>
    cases skip with
    | zero =>
      rw [glyphsFrom, ih, glyphsFrom, ih _ [_]]
      simp
    | succ skip => exact ih skip done

theorem glyphsFrom_skip (skip : Nat) (t : Text) :
    glyphsFrom skip t [] = glyphs (t.drop skip) := by
  induction t generalizing skip with
  | nil => cases skip <;> simp [glyphsFrom, glyphs]
  | cons a rest ih =>
    cases skip with
    | zero => rfl
    | succ skip => exact ih skip

theorem glyphs_cons (a : UInt8) (rest : Text) :
    glyphs (a :: rest) =
      headGlyph a rest :: glyphs (rest.drop ((headGlyph a rest).bytes.length - 1)) := by
  rw [glyphs, glyphsFrom, glyphsFrom_done, glyphsFrom_skip]
  rfl

theorem Begins.bytes (h : Begins t glyph) :
    glyph.bytes ++ t.tail.drop (glyph.bytes.length - 1) = t := by
  cases h <;> rfl

/-- Glyphs are all that a text consists of. -/
theorem glyphs_induction {P : Text → List Glyph → Prop} (hnil : P [] [])
    (hcons : ∀ glyph rest glyphs, Begins (glyph.bytes ++ rest) glyph → P rest glyphs →
      P (glyph.bytes ++ rest) (glyph :: glyphs)) (t : Text) : P t t.glyphs := by
  induction hn : t.length using Nat.strongRecOn generalizing t with
  | ind n ih =>
    cases t with
    | nil => exact hnil
    | cons a rest =>
      have hbegins := headGlyph_begins a rest
      have hbytes := hbegins.bytes
      rw [List.tail_cons] at hbytes
      have hrest := ih (rest.drop ((headGlyph a rest).bytes.length - 1)).length
        (by simp at hn ⊢; omega) _ rfl
      have h := hcons _ _ _ (by rwa [hbytes]) hrest
      rw [hbytes] at h
      rwa [glyphs_cons]

/-- The text with U+FFFD for every stray byte. -/
def scrub (t : Text) : Text := t.glyphs.flatMap Glyph.scrub

theorem scrub_of_isUtf8 {t : Text} (h : t.isUtf8 = true) : t.scrub = t := by
  have hall : t.glyphs.all Glyph.isScalar = true := h
  refine glyphs_induction (P := fun t glyphs => glyphs.all Glyph.isScalar = true →
    glyphs.flatMap Glyph.scrub = t) (fun _ => rfl) ?_ t hall
  intro glyph rest glyphs _ ih hscalar
  rw [List.all_cons, Bool.and_eq_true] at hscalar
  rw [List.flatMap_cons, ih hscalar.2]
  cases glyph with
  | scalar => rfl
  | stray => cases hscalar.1

/-- Each stray byte becomes three. -/
theorem length_scrub (t : Text) :
    t.scrub.length = t.length + 2 * t.glyphs.countP (!·.isScalar) := by
  refine glyphs_induction (P := fun t glyphs => (glyphs.flatMap Glyph.scrub).length =
    t.length + 2 * glyphs.countP (!·.isScalar)) rfl ?_ t
  intro glyph rest glyphs _ ih
  rw [List.flatMap_cons, List.length_append, List.length_append, ih, List.countP_cons]
  cases glyph with
  | scalar => simp [Glyph.scrub, Glyph.bytes, Glyph.isScalar]; omega
  | stray =>
    have hthree : (Glyph.stray ‹_›).scrub.length = 3 := rfl
    rw [hthree]
    simp [Glyph.bytes, Glyph.isScalar]
    omega

theorem scrub_eq_self_iff {t : Text} : t.scrub = t ↔ t.isUtf8 = true := by
  refine ⟨fun hsame => ?_, scrub_of_isUtf8⟩
  have hlength := length_scrub t
  rw [hsame] at hlength
  have hnone : t.glyphs.countP (!·.isScalar) = 0 := by omega
  refine List.all_eq_true.mpr fun glyph hglyph => ?_
  simpa using List.countP_eq_zero.mp hnone glyph hglyph

theorem scrub_ne_nil {t : Text} (h : t ≠ []) : t.scrub ≠ [] := by
  have hpos := List.length_pos_iff.mpr h
  rw [← List.length_pos_iff, length_scrub]
  omega

end Text

namespace Json

open Text (encodeCode scrub Begins)

-- ---------------------------------------------------------------------------
-- Escaped strings
-- ---------------------------------------------------------------------------

/-- What is written between quotes, and the text it was written for. -/
inductive Escaped : Text → Text → Prop
  | nil : Escaped [] []
  | plain {b body text} : Ascii.blank ≤ b → b ≠ Ascii.quote → b ≠ Ascii.backslash →
      Escaped body text → Escaped (b :: body) (b :: text)
  | escape {letter byte body text} : simpleEscape? letter = some byte → Escaped body text →
      Escaped (Ascii.backslash :: letter :: body) (byte :: text)
  | code {a b c d code body text} : hex4? a b c d = some code → isSurrogate code = false →
      Escaped body text →
      Escaped (Ascii.backslash :: Ascii.lowerU :: a :: b :: c :: d :: body)
        (encodeCode code ++ text)

theorem Escaped.append (h : Escaped body text) (h' : Escaped body' text') :
    Escaped (body ++ body') (text ++ text') := by
  induction h with
  | nil => exact h'
  | plain hblank hquote hbackslash _ ih => exact .plain hblank hquote hbackslash ih
  | escape hbyte _ ih => exact .escape hbyte ih
  | code hcode hscalar _ ih =>
    rw [List.append_assoc]
    exact .code hcode hscalar ih

theorem Escaped.spelled (h : Escaped body text) : Spelled body text := by
  induction h with
  | nil => exact .nil
  | plain _ hquote hbackslash _ ih => exact .plain hquote hbackslash ih
  | escape hbyte _ ih => exact .escape hbyte ih
  | code hcode hscalar _ ih => exact .code hcode hscalar ih

theorem Escaped.of_plain (h : ∀ b ∈ t, Ascii.blank ≤ b ∧ b ≠ Ascii.quote ∧ b ≠ Ascii.backslash) :
    Escaped t t := by
  induction t with
  | nil => exact .nil
  | cons b rest ih =>
    obtain ⟨⟨hblank, hquote, hbackslash⟩, hrest⟩ := List.forall_mem_cons.mp h
    exact .plain hblank hquote hbackslash (ih hrest)

theorem hexValue?_hexDigit : ∀ n < 16, Ascii.hexValue? (Ascii.hexDigit n) = some n := by decide

theorem hex4?_hexDigits (h : code < 0x10000) :
    ∃ a b c d, Text.hexDigits 4 code = [a, b, c, d] ∧ hex4? a b c d = some code := by
  refine ⟨_, _, _, _, rfl, ?_⟩
  simp only [hex4?, hexValue?_hexDigit _ (Nat.mod_lt _ (by decide : 0 < 16)), Option.bind_eq_bind,
    Option.bind_some, Option.pure_def, Option.some.injEq]
  omega

theorem escaped_code (hcode : code < 0x10000) (hscalar : isSurrogate code = false) :
    Escaped (("\\u" : Text) ++ Text.hexDigits 4 code) (encodeCode code) := by
  obtain ⟨a, b, c, d, hdigits, hcode⟩ := hex4?_hexDigits hcode
  rw [hdigits, ← List.append_nil (encodeCode code)]
  exact .code hcode hscalar .nil

theorem encodeCode_ascii (a : UInt8) (h : a.toNat < 0x80) : encodeCode a.toNat = [a] := by
  rw [encodeCode, if_pos h]
  exact congrArg ([·]) UInt8.ofNat_toNat

/-- The escapes of one letter. -/
theorem escaped_letter :
    ∀ a ∈ [Ascii.quote, Ascii.backslash, Ascii.newline, Ascii.carriageReturn, Ascii.tab],
      Escaped (Value.glyphText (.scalar a.toNat [a])) [a] := by
  intro a ha
  have written (letter) {a : UInt8} (h : simpleEscape? letter = some a)
      (ht : Value.glyphText (.scalar a.toNat [a]) = [Ascii.backslash, letter]) :
      Escaped (Value.glyphText (.scalar a.toNat [a])) [a] := ht ▸ .escape h .nil
  simp only [List.mem_cons, List.not_mem_nil, or_false] at ha
  rcases ha with rfl | rfl | rfl | rfl | rfl
  · exact written Ascii.quote rfl (by decide)
  · exact written Ascii.backslash rfl (by decide)
  · exact written Ascii.lowerN rfl (by decide)
  · exact written 0x72 rfl (by decide)
  · exact written Ascii.lowerT rfl (by decide)

theorem escaped_ascii (a : UInt8) (h : a.toNat < 0x80) :
    Escaped (Value.glyphText (.scalar a.toNat [a])) [a] := by
  by_cases hletter :
      a ∈ [Ascii.quote, Ascii.backslash, Ascii.newline, Ascii.carriageReturn, Ascii.tab]
  · exact escaped_letter a hletter
  · have hne {n : UInt8} (hn : a ≠ n) : ¬ (a.toNat == n.toNat) = true :=
      fun h => hn (UInt8.toNat_inj.mp (beq_iff_eq.mp h))
    simp only [List.mem_cons, List.not_mem_nil, or_false, not_or] at hletter
    obtain ⟨hquote, hbackslash, hnewline, hreturn, htab⟩ := hletter
    have htext : Value.glyphText (.scalar a.toNat [a]) =
        if (decide (a.toNat < 0x20) || a.toNat == 0x3C || a.toNat == 0x3E || a.toNat == 0x26) = true
        then ("\\u" : Text) ++ Text.hexDigits 4 a.toNat else [a] := by
      have hfirst : ¬ (a.toNat == 0x22) = true := hne hquote
      have hsecond : ¬ (a.toNat == 0x5C) = true := hne hbackslash
      have hthird : ¬ (a.toNat == 0x0A) = true := hne hnewline
      have hfourth : ¬ (a.toNat == 0x0D) = true := hne hreturn
      have hfifth : ¬ (a.toNat == 0x09) = true := hne htab
      have hline : ¬ (a.toNat == 0x2028 || a.toNat == 0x2029) = true := by
        simp only [Bool.or_eq_true, beq_iff_eq]
        omega
      simp only [Value.glyphText, if_neg hfirst, if_neg hsecond, if_neg hthird, if_neg hfourth,
        if_neg hfifth, if_neg hline]
    rw [htext]
    split
    · rw [← encodeCode_ascii a h]
      exact escaped_code (by omega) (by simp [isSurrogate]; omega)
    · rename_i hplain
      simp only [Bool.or_eq_true, decide_eq_true_eq, not_or, Nat.not_lt] at hplain
      exact .plain (UInt8.le_iff_toNat_le.mpr hplain.1.1.1) hquote hbackslash .nil

/-- Bytes beyond ASCII are written as they are, but for the two separators. -/
theorem escaped_wide (hcode : 0x80 ≤ code) (hbytes : ∀ b ∈ bytes, 0x80 ≤ b.toNat)
    (hline : code = 0x2028 ∨ code = 0x2029 → bytes = encodeCode code) :
    Escaped (Value.glyphText (.scalar code bytes)) bytes := by
  have hne {n : Nat} (hn : n < 0x80) : ¬ (code == n) = true := by
    simp only [beq_iff_eq]
    omega
  have hcontrol :
      ¬ (decide (code < 0x20) || code == 0x3C || code == 0x3E || code == 0x26) = true := by
    simp only [Bool.or_eq_true, decide_eq_true_eq, beq_iff_eq]
    omega
  simp only [Value.glyphText, if_neg (hne (n := 0x22) (by decide)),
    if_neg (hne (n := 0x5C) (by decide)), if_neg (hne (n := 0x0A) (by decide)),
    if_neg (hne (n := 0x0D) (by decide)), if_neg (hne (n := 0x09) (by decide)), if_neg hcontrol]
  split
  · rename_i hseparator
    simp only [Bool.or_eq_true, beq_iff_eq] at hseparator
    rw [hline hseparator]
    exact escaped_code (by omega) (by simp [isSurrogate]; omega)
  · refine .of_plain fun b hb => ?_
    have hhigh := hbytes b hb
    refine ⟨UInt8.le_iff_toNat_le.mpr (Nat.le_trans (by decide) hhigh), ?_, ?_⟩
    · rintro rfl
      exact absurd hhigh (by decide)
    · rintro rfl
      exact absurd hhigh (by decide)

theorem escaped_glyph (h : Begins t glyph) : Escaped (Value.glyphText glyph) glyph.scrub := by
  cases h with
  | ascii ha => exact escaped_ascii _ ha
  | two hlow hhigh hb =>
    obtain ⟨hb, hb'⟩ := hb
    refine escaped_wide (by omega) ?_ fun hline => by omega
    simp only [List.forall_mem_cons, List.not_mem_nil, false_imp_iff, implies_true, and_true]
    omega
  | @three a b c rest hlow hhigh htight hb hc =>
    obtain ⟨hb, hb'⟩ := hb
    obtain ⟨hc, hc'⟩ := hc
    refine escaped_wide (by omega) ?_ ?_
    · simp only [List.forall_mem_cons, List.not_mem_nil, false_imp_iff, implies_true, and_true]
      omega
    · intro hline
      have hbyte {b : UInt8} (n : UInt8) (h : b.toNat = n.toNat) : b = n := UInt8.toNat_inj.mp h
      obtain rfl : a = 0xE2 := hbyte 0xE2 (by simp; omega)
      obtain rfl : b = 0x80 := hbyte 0x80 (by simp; omega)
      rcases hline with hline | hline
      · obtain rfl : c = 0xA8 := hbyte 0xA8 (by simp at hline ⊢; omega)
        decide
      · obtain rfl : c = 0xA9 := hbyte 0xA9 (by simp at hline ⊢; omega)
        decide
  | four hlow hhigh htight hb hc hd =>
    obtain ⟨hb, hb'⟩ := hb
    obtain ⟨hc, hc'⟩ := hc
    obtain ⟨hd, hd'⟩ := hd
    refine escaped_wide (by omega) ?_ fun hline => by omega
    simp only [List.forall_mem_cons, List.not_mem_nil, false_imp_iff, implies_true, and_true]
    omega
  | stray =>
    exact escaped_code (by decide : 0xFFFD < 0x10000) (by decide)

/-- What is written between quotes for a text. -/
theorem escaped_glyphs (t : Text) : Escaped (t.glyphs.flatMap Value.glyphText) t.scrub := by
  refine Text.glyphs_induction (P := fun _ glyphs =>
    Escaped (glyphs.flatMap Value.glyphText) (glyphs.flatMap Glyph.scrub)) .nil ?_ t
  intro glyph rest glyphs hbegins ih
  exact (escaped_glyph hbegins).append ih

-- ---------------------------------------------------------------------------
-- Reading escaped strings
-- ---------------------------------------------------------------------------

theorem escapedBody_escape (h : simpleEscape? letter = some byte) (done body : Text) :
    Tree.escapedBody done (Ascii.backslash :: letter :: body) =
      Tree.escapedBody (byte :: done) body := by
  have hletter : letter ≠ Ascii.lowerU := by
    rintro rfl
    cases h
  conv => lhs; unfold Tree.escapedBody
  split
  next heq => cases heq
  next heq => cases heq
  next heq => exact absurd (List.head_eq_of_cons_eq (List.tail_eq_of_cons_eq heq)) hletter
  next heq =>
    cases heq
    rw [h]
  next hnot heq =>
    cases heq
    exact (hnot _ _ rfl rfl).elim

theorem escapedBody_code {code : Nat} (hcode : hex4? a b c d = some code)
    (hscalar : isSurrogate code = false) (done body : Text) :
    Tree.escapedBody done (Ascii.backslash :: Ascii.lowerU :: a :: b :: c :: d :: body) =
      Tree.escapedBody ((encodeCode code).reverse ++ done) body := by
  conv => lhs; unfold Tree.escapedBody
  split
  next heq => cases heq
  next heq => cases heq
  next heq =>
    cases heq
    simp only [hcode, hscalar, Bool.false_eq_true, if_false]
  next hnot heq =>
    cases heq
    exact (hnot _ _ _ _ _ rfl rfl).elim
  next hnot heq =>
    cases heq
    exact (hnot _ _ rfl rfl).elim

theorem escapedBody_plain (hquote : b ≠ Ascii.quote) (hbackslash : b ≠ Ascii.backslash)
    (done body : Text) :
    Tree.escapedBody done (b :: body) = Tree.escapedBody (b :: done) body := by
  rw [Tree.escapedBody]
  · exact if_neg (by simpa using hbackslash)
  · exact hquote
  · exact fun _ _ _ _ _ h => absurd h hbackslash
  · exact fun _ _ h => absurd h hbackslash

theorem Escaped.escapedBody (h : Escaped body text) (done rest : Text) :
    Tree.escapedBody done (body ++ Ascii.quote :: rest) = some (done.reverse ++ text, rest) := by
  induction h generalizing done with
  | nil =>
    rw [List.append_nil]
    rfl
  | plain _ hquote hbackslash _ ih =>
    rw [List.cons_append, escapedBody_plain hquote hbackslash, ih]
    simp
  | escape hbyte _ ih =>
    rw [List.cons_append, List.cons_append, escapedBody_escape hbyte, ih]
    simp
  | code hcode hscalar _ ih =>
    simp only [List.cons_append]
    rw [escapedBody_code hcode hscalar, ih]
    simp

theorem Escaped.unescape (h : Escaped body text) (done : Text) :
    unescape.go done body = done.reverse ++ text := by
  induction h generalizing done with
  | nil => simp [unescape.go]
  | plain hblank _ hbackslash _ ih =>
    rw [unescape_plain hblank hbackslash, ih]
    simp
  | escape hbyte _ ih =>
    rw [unescape_escape hbyte, ih]
    simp
  | code hcode hscalar _ ih =>
    rw [unescape_code hcode done hscalar, ih]
    simp

/-- The quick look takes an escaped string for the text it was written for. -/
theorem Escaped.bodyText (h : Escaped body text) : Peek.bodyText body = text := by
  unfold Peek.bodyText
  split
  · exact h.unescape []
  · rename_i hplain
    exact (h.spelled.eq_of_not_mem (by simpa using hplain)).symm

/-- A byte that needs no escape. -/
def IsPlain (b : UInt8) : Prop := Ascii.blank ≤ b ∧ b ≠ Ascii.quote ∧ b ≠ Ascii.backslash

/-- What comes before the first escape stands for itself. -/
theorem Escaped.front (h : Escaped body text) :
    ∃ front more moreText, body = front ++ more ∧ text = front ++ moreText ∧
      (∀ b ∈ front, IsPlain b) ∧ Escaped more moreText ∧
      (more = [] ∨ more.head? = some Ascii.backslash) := by
  induction h with
  | nil => exact ⟨[], [], [], rfl, rfl, nofun, .nil, .inl rfl⟩
  | @plain b body text hblank hquote hbackslash _ ih =>
    obtain ⟨front, more, moreText, rfl, rfl, hfront, hmore, hhead⟩ := ih
    exact ⟨b :: front, more, moreText, rfl, rfl,
      List.forall_mem_cons.mpr ⟨⟨hblank, hquote, hbackslash⟩, hfront⟩, hmore, hhead⟩
  | escape hbyte hbody => exact ⟨[], _, _, rfl, rfl, nofun, .escape hbyte hbody, .inr rfl⟩
  | code hcode hscalar hbody =>
    exact ⟨[], _, _, rfl, rfl, nofun, .code hcode hscalar hbody, .inr rfl⟩

/-- So does the reader of trees. -/
theorem Escaped.stringBody (h : Escaped body text) (ahead : Text → Nat) (rest : Text) :
    Tree.stringBody ahead (body ++ Ascii.quote :: rest) = some (text, true, rest) := by
  obtain ⟨front, more, moreText, rfl, rfl, hfront, hmore, hhead⟩ := h.front
  have hclean : front.all (Ascii.blank ≤ ·) = true :=
    List.all_eq_true.mpr fun b hb => decide_eq_true (hfront b hb).1
  have hgoes : ∀ b ∈ front, (!(b == Ascii.quote || b == Ascii.backslash)) = true := by
    intro b hb
    obtain ⟨_, hquote, hbackslash⟩ := hfront b hb
    simp [hquote, hbackslash]
  have hstops : Stops (fun b => !(b == Ascii.quote || b == Ascii.backslash))
      (more ++ Ascii.quote :: rest) := by
    rcases hhead with rfl | hhead
    · simp [Stops]
    · simp [Stops, List.head?_append, hhead]
  have hspan : ((front ++ more) ++ Ascii.quote :: rest).span
      (fun b => !(b == Ascii.quote || b == Ascii.backslash)) =
        (front, more ++ Ascii.quote :: rest) := by
    rw [List.append_assoc, span_append_stops hgoes hstops]
  unfold Tree.stringBody
  rw [hspan]
  simp only [hclean, Bool.true_or]
  rcases hhead with rfl | hhead
  · cases hmore
    rw [List.append_nil]
    rfl
  · obtain ⟨later, rfl⟩ : ∃ later, more = Ascii.backslash :: later := by
      cases more with
      | nil => cases hhead
      | cons b later =>
        cases hhead
        exact ⟨later, rfl⟩
    have hread := hmore.escapedBody front.reverse rest
    rw [List.reverse_reverse] at hread
    show (Tree.escapedBody front.reverse ((Ascii.backslash :: later) ++ Ascii.quote :: rest)).map
      (fun body => (body.1, true, body.2)) = _
    rw [hread]
    rfl

end Json

end MeshConsole
