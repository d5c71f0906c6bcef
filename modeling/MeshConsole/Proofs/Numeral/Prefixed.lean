import MeshConsole.Numeral.Integer
import MeshConsole.Proofs.Text.Bytes

/-!
# Numerals that tell their base

A mark or a leading zero tells the base of a numeral, and underscores may set
its digits apart. `readPrefixed_eq_ok_iff`: the reader accepts just what is
spelled so and not beyond its limit.
-/

namespace MeshConsole.Numeral

-- ---------------------------------------------------------------------------
-- Spelling
-- ---------------------------------------------------------------------------

def InBase (base : Nat) (b : UInt8) : Prop := ∃ d, digitValue? b = some d ∧ d < base

/-- The number that digits write behind what was read before them. -/
def valueFrom (base : Nat) (before : Nat) (digits : Text) : Nat :=
  digits.foldl (fun value b => value * base + (digitValue? b).getD 0) before

def valueOf (base : Nat) (digits : Text) : Nat := valueFrom base 0 digits

/-- Digits, at most one underscore between two of them, and the digits alone. -/
inductive Spaced (base : Nat) : Text → Text → Prop
  | last {b} : InBase base b → Spaced base [b] [b]
  | next {b t digits} : InBase base b → Spaced base t digits → Spaced base (b :: t) (b :: digits)
  | apart {b t digits} : InBase base b → Spaced base t digits →
      Spaced base (b :: Ascii.underscore :: t) (b :: digits)

/-- The letters that mark a base, small or capital. -/
def marks : List (UInt8 × Nat) :=
  [(0x62, 2), (0x42, 2), (0x6F, 8), (0x4F, 8), (0x78, 16), (0x58, 16)]

/-- The spellings of a number: a leading zero stands for base eight unless a mark
follows it, and an underscore may follow the mark. -/
inductive Spelled : Text → Nat → Prop
  | decimal {t digits} : t.head? ≠ some Ascii.zero → Spaced 10 t digits →
      Spelled t (valueOf 10 digits)
  | octal {t digits} : Spaced 8 (Ascii.zero :: t) digits →
      Spelled (Ascii.zero :: t) (valueOf 8 digits)
  | marked {mark base t digits} : (mark, base) ∈ marks → Spaced base t digits →
      Spelled (Ascii.zero :: mark :: t) (valueOf base digits)
  | markedApart {mark base t digits} : (mark, base) ∈ marks → Spaced base t digits →
      Spelled (Ascii.zero :: mark :: Ascii.underscore :: t) (valueOf base digits)

/-- The text without its underscores. -/
def bare (t : Text) : Text := t.filter (· != Ascii.underscore)

theorem bare_eq_self (h : Ascii.underscore ∉ t) : bare t = t :=
  List.filter_eq_self.mpr (Text.bne_of_not_mem h)

@[simp] theorem bare_underscore (t : Text) : bare (Ascii.underscore :: t) = bare t := rfl

theorem bare_cons (h : b ≠ Ascii.underscore) (t : Text) : bare (b :: t) = b :: bare t :=
  List.filter_cons_of_pos (bne_iff_ne.mpr h)

section
variable {base : Nat}

theorem InBase.ne_underscore (h : InBase base b) : b ≠ Ascii.underscore := by
  rintro rfl
  obtain ⟨d, hd, -⟩ := h
  cases hd

theorem InBase.bare_cons (h : InBase base b) (t : Text) : bare (b :: t) = b :: bare t :=
  Numeral.bare_cons h.ne_underscore t

theorem Spaced.digits_eq (h : Spaced base t digits) : digits = bare t := by
  induction h with
  | last hb => exact (hb.bare_cons []).symm
  | next hb _ ih => rw [hb.bare_cons, ih]
  | apart hb _ ih => rw [hb.bare_cons, bare_underscore, ih]

theorem Spaced.inBase (h : Spaced base t digits) : ∀ b ∈ digits, InBase base b := by
  induction h with
  | last hb => exact List.forall_mem_singleton.mpr hb
  | next hb _ ih => exact List.forall_mem_cons.mpr ⟨hb, ih⟩
  | apart hb _ ih => exact List.forall_mem_cons.mpr ⟨hb, ih⟩

theorem Spaced.of_digits (hne : digits ≠ []) (h : ∀ b ∈ digits, InBase base b) :
    Spaced base digits digits := by
  induction digits with
  | nil => exact absurd rfl hne
  | cons b rest ih =>
    obtain ⟨hb, hrest⟩ := List.forall_mem_cons.mp h
    cases rest with
    | nil => exact .last hb
    | cons next rest => exact .next hb (ih (by simp) hrest)

-- ---------------------------------------------------------------------------
-- Values
-- ---------------------------------------------------------------------------

theorem le_valueFrom (hbase : 0 < base) (before : Nat) (digits : Text) :
    before ≤ valueFrom base before digits := by
  induction digits generalizing before with
  | nil => exact Nat.le_refl _
  | cons b rest ih =>
    have hgrows : before ≤ before * base := Nat.le_mul_of_pos_right before hbase
    exact Nat.le_trans (Nat.le_trans hgrows (Nat.le_add_right _ _)) (ih _)

/-- Digits are read until one is none of the base or the limit is passed. -/
theorem readDigits_eq_ok_iff (hbase : 0 < base) (hbefore : before ≤ limit) (t : Text) :
    readDigits base limit true before t = .ok n ↔
      (∀ b ∈ bare t, InBase base b) ∧ valueFrom base before (bare t) = n ∧ n ≤ limit := by
  induction t generalizing before with
  | nil =>
    simp only [readDigits, Except.ok.injEq, bare, List.filter_nil, valueFrom, List.foldl_nil]
    exact ⟨fun h => ⟨nofun, h, h ▸ hbefore⟩, fun h => h.2.1⟩
  | cons b rest ih =>
    by_cases hb : b = Ascii.underscore
    · subst hb
      rw [readDigits, if_pos (by rfl), bare_underscore, ih hbefore]
    · have hbare := bare_cons hb rest
      have hnone (h : ¬ InBase base b) : ¬ ∀ c ∈ bare (b :: rest), InBase base c :=
        fun hall => h (hall b (by simp [hbare]))
      rw [readDigits, if_neg (by simp [hb])]
      cases hdigit : digitValue? b with
      | none =>
        have := hnone fun ⟨d, hd, _⟩ => by simp [hdigit] at hd
        simp [this]
      | some d =>
        by_cases hd : base ≤ d
        · have := hnone fun ⟨e, he, hlt⟩ => by
            rw [hdigit, Option.some.injEq] at he
            omega
          simp [hd, this]
        · have hin : InBase base b := ⟨d, hdigit, by omega⟩
          have hvalue : valueFrom base before (b :: bare rest) =
              valueFrom base (before * base + d) (bare rest) := by
            simp [valueFrom, hdigit]
          by_cases hlimit : limit < before * base + d
          · have hbeyond := le_valueFrom hbase (before * base + d) (bare rest)
            simp only [if_neg hd, if_pos hlimit, hbare, hvalue, reduceCtorEq, false_iff]
            omega
          · simp only [if_neg hd, if_neg hlimit, hbare, hvalue, List.forall_mem_cons, hin,
              true_and]
            exact ih (by omega)

-- ---------------------------------------------------------------------------
-- Underscores
-- ---------------------------------------------------------------------------

/-- What may follow a digit or a mark. -/
inductive Tail (base : Nat) : Text → Prop
  | done : Tail base []
  | digits {t digits} : Spaced base t digits → Tail base t
  | apart {t digits} : Spaced base t digits → Tail base (Ascii.underscore :: t)

theorem Spaced.tail (h : Spaced base (b :: t) digits) : Tail base t := by
  cases h with
  | last _ => exact .done
  | next _ ht => exact .digits ht
  | apart _ ht => exact .apart ht

theorem Tail.spaced (hb : InBase base b) (h : Tail base t) : ∃ digits, Spaced base (b :: t) digits := by
  cases h with
  | done => exact ⟨_, .last hb⟩
  | digits ht => exact ⟨_, .next hb ht⟩
  | apart ht => exact ⟨_, .apart hb ht⟩

theorem Tail.inBase (h : Tail base t) : ∀ b ∈ bare t, InBase base b := by
  cases h with
  | done => nofun
  | digits ht => exact ht.digits_eq ▸ ht.inBase
  | apart ht => exact ht.digits_eq ▸ ht.inBase

/-- The check of the underscores takes every digit of the base for one. -/
def Knows (hex : Bool) (base : Nat) : Prop :=
  ∀ b, InBase base b →
    (Ascii.isDigit b || (hex && 0x61 ≤ b ||| 0x20 && b ||| 0x20 ≤ 0x66)) = true

theorem groupedFrom_digit (hknows : Knows hex base) (hb : InBase base b) (before : Before)
    (t : Text) : groupedFrom hex before (b :: t) = groupedFrom hex .digit t := by
  rw [groupedFrom]
  exact if_pos (hknows b hb)

theorem groupedFrom_underscore (hex : Bool) (before : Before) (t : Text) :
    groupedFrom hex before (Ascii.underscore :: t) =
      (before == .digit && groupedFrom hex .underscore t) := by
  cases hex <;> rfl

/-- Behind a digit, and behind an underscore. -/
theorem groupedFrom_iff (hknows : Knows hex base) (h : ∀ b ∈ bare t, InBase base b) :
    (groupedFrom hex .digit t = true ↔ Tail base t) ∧
    (groupedFrom hex .underscore t = true ↔ ∃ digits, Spaced base t digits) := by
  induction t with
  | nil => exact ⟨⟨fun _ => .done, fun _ => rfl⟩, ⟨nofun, nofun⟩⟩
  | cons b t ih =>
    by_cases hb : b = Ascii.underscore
    · subst hb
      have hnone : ¬ ∃ digits, Spaced base (Ascii.underscore :: t) digits := by
        rintro ⟨_, hspaced⟩
        cases hspaced with
        | last hb => exact hb.ne_underscore rfl
        | next hb _ => exact hb.ne_underscore rfl
        | apart hb _ => exact hb.ne_underscore rfl
      rw [groupedFrom_underscore, groupedFrom_underscore]
      refine ⟨?_, by simp [hnone]⟩
      rw [show (Before.digit == .digit) = true from rfl, Bool.true_and, (ih h).2]
      constructor
      · rintro ⟨_, ht⟩
        exact .apart ht
      · rintro (_ | ht | ht)
        · exact absurd ⟨_, ht⟩ hnone
        · exact ⟨_, ht⟩
    · obtain ⟨hin, hrest⟩ := List.forall_mem_cons.mp (bare_cons hb t ▸ h)
      have hspaced : Tail base t ↔ ∃ digits, Spaced base (b :: t) digits :=
        ⟨Tail.spaced hin, fun ⟨_, ht⟩ => ht.tail⟩
      rw [groupedFrom_digit hknows hin, groupedFrom_digit hknows hin, (ih hrest).1]
      refine ⟨?_, hspaced⟩
      rw [hspaced]
      constructor
      · rintro ⟨_, ht⟩
        exact .digits ht
      · rintro (_ | ht | ht)
        · exact ⟨_, ht⟩
        · exact absurd rfl hb

theorem groupedFrom_plain (h : Ascii.underscore ∉ t) (hbefore : before ≠ .underscore) :
    groupedFrom hex before t = true := by
  induction t generalizing before with
  | nil => simpa [groupedFrom] using hbefore
  | cons b t ih =>
    rw [List.mem_cons, not_or] at h
    have hstray : (before != .underscore) = true := by simpa using hbefore
    simp [groupedFrom, Ne.symm h.1, ih h.2, hstray]

theorem wellGrouped_plain (h : Ascii.underscore ∉ t) : wellGrouped t = true := by
  unfold wellGrouped
  split
  · rename_i mark rest
    have hrest : Ascii.underscore ∉ rest := fun hmem =>
      h (List.mem_cons_of_mem _ (List.mem_cons_of_mem _ hmem))
    dsimp only
    split
    · exact groupedFrom_plain hrest (by decide)
    · exact groupedFrom_plain h (by decide)
  · exact groupedFrom_plain h (by decide)

end

-- ---------------------------------------------------------------------------
-- The reader
-- ---------------------------------------------------------------------------

/-- Underscores in the wrong place are met only where there are any. -/
theorem readPrefixed_eq_ok (hne : text ≠ []) (hsplit : splitBase text = (base, digits)) :
    readPrefixed limit text = .ok n ↔
      readDigits base limit true 0 digits = .ok n ∧ wellGrouped text = true := by
  rw [readPrefixed, if_neg (by simp [hne]), hsplit]
  cases hread : readDigits base limit true 0 digits with
  | error _ => simp [hread]
  | ok value =>
    by_cases hgrouped : wellGrouped text = true
    · simp [hread, hgrouped]
    · have hmem : Ascii.underscore ∈ text :=
        Decidable.byContradiction fun hmem => hgrouped (wellGrouped_plain hmem)
      simp [hread, hgrouped, hmem]

/-- Where the check of the underscores starts behind the digits of a base, it
accepts what is spaced well. -/
theorem spelled_digits (hbase : 0 < base) (hknows : Knows hex base) (t : Text) :
    readDigits base limit true 0 t = .ok n ∧ groupedFrom hex .digit t = true ↔
      Tail base t ∧ valueOf base (bare t) = n ∧ n ≤ limit := by
  rw [readDigits_eq_ok_iff hbase (Nat.zero_le _)]
  constructor
  · rintro ⟨⟨hin, hvalue, hlimit⟩, hgrouped⟩
    exact ⟨(groupedFrom_iff hknows hin).1.mp hgrouped, hvalue, hlimit⟩
  · rintro ⟨htail, hvalue, hlimit⟩
    exact ⟨⟨htail.inBase, hvalue, hlimit⟩, (groupedFrom_iff hknows htail.inBase).1.mpr htail⟩

theorem knows_digits (h : base ≤ 10) : Knows false base := by
  rintro b ⟨d, hd, hlt⟩
  unfold digitValue? at hd
  by_cases hdigit : Ascii.isDigit b
  · simp [hdigit]
  · simp only [hdigit, Bool.false_eq_true, if_false, Option.ite_none_right_eq_some,
      Option.some.injEq] at hd
    omega

theorem knows_hexDigits : Knows true 16 := by
  rintro b ⟨d, hd, hlt⟩
  have hall : ∀ b : UInt8, (digitValue? b).any (· < 16) = true →
      (Ascii.isDigit b || (true && 0x61 ≤ b ||| 0x20 && b ||| 0x20 ≤ 0x66)) = true :=
    forall_byte (by decide +kernel)
  exact hall b (by simpa [hd] using hlt)

/-- A letter that marks a base is no digit of base eight. -/
theorem not_inBase_mark (h : (mark, base) ∈ marks) : ¬ InBase 8 mark := by
  have hall : ∀ entry ∈ marks, ∀ d < 8, digitValue? entry.1 ≠ some d := by decide
  rintro ⟨d, hd, hlt⟩
  exact hall _ h d hlt hd

/-- Where the mark stands, the reader goes on behind it. -/
theorem readPrefixed_marked (h : (mark, base) ∈ marks) (hne : t ≠ []) :
    readPrefixed limit (Ascii.zero :: mark :: t) = .ok n ↔
      Tail base t ∧ valueOf base (bare t) = n ∧ n ≤ limit := by
  obtain ⟨next, rest, rfl⟩ := List.exists_cons_of_ne_nil hne
  have hcases : (∃ hex, Knows hex base ∧ 0 < base ∧
      splitBase (Ascii.zero :: mark :: next :: rest) = (base, next :: rest) ∧
      wellGrouped (Ascii.zero :: mark :: next :: rest) = groupedFrom hex .digit (next :: rest)) := by
    simp only [marks, List.mem_cons, Prod.mk.injEq, List.not_mem_nil, or_false] at h
    rcases h with ⟨rfl, rfl⟩ | ⟨rfl, rfl⟩ | ⟨rfl, rfl⟩ | ⟨rfl, rfl⟩ | ⟨rfl, rfl⟩ | ⟨rfl, rfl⟩
    · exact ⟨false, knows_digits (by decide), by decide, rfl, rfl⟩
    · exact ⟨false, knows_digits (by decide), by decide, rfl, rfl⟩
    · exact ⟨false, knows_digits (by decide), by decide, rfl, rfl⟩
    · exact ⟨false, knows_digits (by decide), by decide, rfl, rfl⟩
    · exact ⟨true, knows_hexDigits, by decide, rfl, rfl⟩
    · exact ⟨true, knows_hexDigits, by decide, rfl, rfl⟩
  obtain ⟨hex, hknows, hbase, hsplit, hgrouped⟩ := hcases
  rw [readPrefixed_eq_ok (by simp) hsplit, hgrouped, spelled_digits hbase hknows]

theorem readPrefixed_bareMark (h : (mark, base) ∈ marks) :
    readPrefixed limit [Ascii.zero, mark] ≠ .ok n := by
  simp only [marks, List.mem_cons, Prod.mk.injEq, List.not_mem_nil, or_false] at h
  rcases h with ⟨rfl, rfl⟩ | ⟨rfl, rfl⟩ | ⟨rfl, rfl⟩ | ⟨rfl, rfl⟩ | ⟨rfl, rfl⟩ | ⟨rfl, rfl⟩ <;>
    exact nofun

/-- No letter that marks a base comes first. -/
def Unmarked (t : Text) : Prop := ∀ mark base, (mark, base) ∈ marks → t.head? ≠ some mark

theorem readPrefixed_octal (h : Unmarked t) :
    readPrefixed limit (Ascii.zero :: t) = .ok n ↔
      Tail 8 t ∧ valueOf 8 (bare t) = n ∧ n ≤ limit := by
  have hlower : ∀ mark : UInt8, mark ||| 0x20 = 0x62 ∨ mark ||| 0x20 = 0x6F ∨
      mark ||| 0x20 = 0x78 → ∃ entry ∈ marks, entry.1 = mark :=
    forall_byte (by decide +kernel)
  have hcases : splitBase (Ascii.zero :: t) = (8, t) ∧
      wellGrouped (Ascii.zero :: t) = groupedFrom false .digit t := by
    cases t with
    | nil => exact ⟨rfl, rfl⟩
    | cons mark rest =>
      have hnot : ¬ (mark ||| 0x20 = 0x62 ∨ mark ||| 0x20 = 0x6F ∨ mark ||| 0x20 = 0x78) := by
        intro hmark
        obtain ⟨⟨_, base⟩, hentry, rfl⟩ := hlower mark hmark
        exact h _ base hentry rfl
      simp only [not_or] at hnot
      obtain ⟨hb, ho, hx⟩ := hnot
      constructor
      · show (if mark ||| 0x20 == 0x62 && !rest.isEmpty then (2, rest)
          else if mark ||| 0x20 == 0x6F && !rest.isEmpty then (8, rest)
          else if mark ||| 0x20 == 0x78 && !rest.isEmpty then (16, rest)
          else (8, mark :: rest)) = (8, mark :: rest)
        simp [hb, ho, hx]
      · show (if mark ||| 0x20 == 0x62 || mark ||| 0x20 == 0x6F || mark ||| 0x20 == 0x78 then
            groupedFrom (mark ||| 0x20 == 0x78) .digit rest
          else groupedFrom false .none (Ascii.zero :: mark :: rest)) = _
        rw [if_neg (by simp [hb, ho, hx])]
        rfl
  rw [readPrefixed_eq_ok (by simp) hcases.1, hcases.2,
    spelled_digits (by decide) (knows_digits (by decide))]

theorem readPrefixed_decimal (h : first ≠ Ascii.zero) :
    readPrefixed limit (first :: t) = .ok n ↔
      InBase 10 first ∧ Tail 10 t ∧ valueOf 10 (first :: bare t) = n ∧ n ≤ limit := by
  have hsplit : splitBase (first :: t) = (10, first :: t) := by
    unfold splitBase
    split
    · exact absurd (List.head_eq_of_cons_eq ‹_›) h
    · exact absurd (List.head_eq_of_cons_eq ‹_›) h
    · rfl
  have hgrouped : wellGrouped (first :: t) = groupedFrom false .none (first :: t) := by
    unfold wellGrouped
    split
    · exact absurd (List.head_eq_of_cons_eq ‹_›) h
    · rfl
  have hknows : Knows false 10 := knows_digits (by decide)
  rw [readPrefixed_eq_ok (by simp) hsplit, hgrouped, readDigits_eq_ok_iff (by decide) (Nat.zero_le _)]
  constructor
  · rintro ⟨⟨hin, hvalue, hlimit⟩, hgrouped⟩
    have hfirst : first ≠ Ascii.underscore := by
      rintro rfl
      cases hgrouped
    rw [bare_cons hfirst] at hin hvalue
    obtain ⟨hfirst, hrest⟩ := List.forall_mem_cons.mp hin
    rw [groupedFrom_digit hknows hfirst, (groupedFrom_iff hknows hrest).1] at hgrouped
    exact ⟨hfirst, hgrouped, hvalue, hlimit⟩
  · rintro ⟨hfirst, htail, hvalue, hlimit⟩
    have hin : ∀ b ∈ first :: bare t, InBase 10 b :=
      List.forall_mem_cons.mpr ⟨hfirst, htail.inBase⟩
    rw [hfirst.bare_cons, groupedFrom_digit hknows hfirst, (groupedFrom_iff hknows htail.inBase).1]
    exact ⟨⟨hin, hvalue, hlimit⟩, htail⟩

-- ---------------------------------------------------------------------------
-- The reader accepts the spellings
-- ---------------------------------------------------------------------------

theorem Spaced.ne_nil (h : Spaced base t digits) : t ≠ [] := by
  cases h <;> simp

theorem mark_unique (h : (mark, base) ∈ marks) (h' : (mark, other) ∈ marks) : other = base := by
  have hall : ∀ entry ∈ marks, ∀ entry' ∈ marks, entry.1 = entry'.1 → entry'.2 = entry.2 := by
    decide
  exact hall _ h _ h' rfl

theorem spelled_marked_iff (h : (mark, base) ∈ marks) :
    Spelled (Ascii.zero :: mark :: t) n ↔
      t ≠ [] ∧ Tail base t ∧ valueOf base (bare t) = n := by
  constructor
  · rintro (⟨hhead, -⟩ | hspaced | ⟨hmark, hspaced⟩ | ⟨hmark, hspaced⟩)
    · exact absurd rfl hhead
    · have hmark : mark ≠ Ascii.underscore := by
        have hall : ∀ entry ∈ marks, entry.1 ≠ Ascii.underscore := by decide
        exact hall _ h
      exact absurd (hspaced.tail.inBase mark (by simp [bare_cons hmark])) (not_inBase_mark h)
    · rw [mark_unique h hmark] at hspaced ⊢
      exact ⟨hspaced.ne_nil, .digits hspaced, by rw [hspaced.digits_eq]⟩
    · rw [mark_unique h hmark] at hspaced ⊢
      exact ⟨by simp, .apart hspaced, by rw [hspaced.digits_eq, bare_underscore]⟩
  · rintro ⟨hne, htail, rfl⟩
    cases htail with
    | done => exact absurd rfl hne
    | digits ht =>
      rw [← ht.digits_eq]
      exact .marked h ht
    | apart ht =>
      rw [bare_underscore, ← ht.digits_eq]
      exact .markedApart h ht

/-- A leading zero adds nothing to the value. -/
theorem valueOf_zero (base : Nat) (digits : Text) :
    valueOf base (Ascii.zero :: digits) = valueOf base digits := by
  show valueFrom base (0 * base + 0) digits = valueFrom base 0 digits
  rw [Nat.zero_mul]

theorem spelled_octal_iff (h : Unmarked t) :
    Spelled (Ascii.zero :: t) n ↔ Tail 8 t ∧ valueOf 8 (bare t) = n := by
  have hzero : InBase 8 Ascii.zero := ⟨0, by decide, by decide⟩
  constructor
  · rintro (⟨hhead, -⟩ | hspaced | ⟨hmark, -⟩ | ⟨hmark, -⟩)
    · exact absurd rfl hhead
    · refine ⟨hspaced.tail, ?_⟩
      rw [hspaced.digits_eq, hzero.bare_cons, valueOf_zero]
    · exact absurd rfl (h _ _ hmark)
    · exact absurd rfl (h _ _ hmark)
  · rintro ⟨htail, rfl⟩
    obtain ⟨digits, hspaced⟩ := htail.spaced hzero
    have hdigits := hspaced.digits_eq
    rw [hzero.bare_cons] at hdigits
    rw [← valueOf_zero, ← hdigits]
    exact .octal hspaced

theorem spelled_decimal_iff (h : first ≠ Ascii.zero) :
    Spelled (first :: t) n ↔
      InBase 10 first ∧ Tail 10 t ∧ valueOf 10 (first :: bare t) = n := by
  constructor
  · rintro (⟨-, hspaced⟩ | hspaced | ⟨hmark, -⟩ | ⟨hmark, -⟩)
    · have hfirst : InBase 10 first := by cases hspaced <;> assumption
      exact ⟨hfirst, hspaced.tail, by rw [hspaced.digits_eq, hfirst.bare_cons]⟩
    · exact absurd rfl h
    · exact absurd rfl h
    · exact absurd rfl h
  · rintro ⟨hfirst, htail, rfl⟩
    obtain ⟨digits, hspaced⟩ := htail.spaced hfirst
    have hdigits := hspaced.digits_eq
    rw [hfirst.bare_cons] at hdigits
    rw [← hdigits]
    exact .decimal (by simpa using h) hspaced

/-- The reader accepts the spelled numbers up to its limit, and nothing else. -/
theorem readPrefixed_eq_ok_iff :
    readPrefixed limit text = .ok n ↔ Spelled text n ∧ n ≤ limit := by
  cases text with
  | nil =>
    constructor
    · exact nofun
    · rintro ⟨⟨-, hspaced⟩, -⟩
      exact absurd rfl hspaced.ne_nil
  | cons first t =>
    by_cases hfirst : first = Ascii.zero
    · subst hfirst
      by_cases hmarked : Unmarked t
      · rw [readPrefixed_octal hmarked, spelled_octal_iff hmarked, and_assoc]
      · simp only [Unmarked, Classical.not_forall, Classical.not_not] at hmarked
        obtain ⟨mark, base, hmark, hhead⟩ := hmarked
        obtain ⟨rest, rfl⟩ := List.head?_eq_some_iff.mp hhead
        rw [spelled_marked_iff hmark]
        by_cases hne : rest = []
        · subst hne
          simp [readPrefixed_bareMark hmark]
        · rw [readPrefixed_marked hmark hne]
          simp [hne, and_assoc]
    · rw [readPrefixed_decimal hfirst, spelled_decimal_iff hfirst, and_assoc, and_assoc]

end MeshConsole.Numeral
