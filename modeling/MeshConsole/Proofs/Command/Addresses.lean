import Mathlib.Data.List.Induction
import MeshConsole.Command.Invocation
import MeshConsole.Proofs.Numeral.Prefixed

/-!
# Addresses on the command line

An address is read as a numeral that tells its base. It is documented as a
decimal numeral, or a hexadecimal one behind `0x`; `address_spelled` says where
the two agree and which texts are read otherwise.
-/

namespace MeshConsole.Command

open Numeral

/-- The documented forms of a number. -/
inductive Documented : Text → Nat → Prop
  | decimal {digits} : digits ≠ [] → (∀ b ∈ digits, Ascii.isDigit b = true) →
      Documented digits (valueOf 10 digits)
  | hexadecimal {mark digits} : mark = 0x78 ∨ mark = 0x58 → digits ≠ [] →
      (∀ b ∈ digits, InBase 16 b) → Documented (Ascii.zero :: mark :: digits) (valueOf 16 digits)

/-- No underscore is in the text, and behind a leading zero stands nothing or the
mark of hexadecimal digits. -/
structure Unambiguous (t : Text) : Prop where
  joined : Ascii.underscore ∉ t
  zero : ∀ mark rest, t = Ascii.zero :: mark :: rest → mark = 0x78 ∨ mark = 0x58

-- ---------------------------------------------------------------------------
-- Digits
-- ---------------------------------------------------------------------------

theorem isDigit_of_inBase {base : Nat} (hbase : base ≤ 10) (h : InBase base b) :
    Ascii.isDigit b = true := by
  simpa using knows_digits hbase b h

theorem inBase_ten_iff : InBase 10 b ↔ Ascii.isDigit b = true := by
  refine ⟨isDigit_of_inBase (Nat.le_refl _), fun h => ?_⟩
  have hall : ∀ b : UInt8, Ascii.isDigit b = true → (digitValue? b).any (· < 10) = true :=
    forall_byte (by decide +kernel)
  obtain ⟨d, hd, hlt⟩ := (Option.any_eq_true _ _).mp (hall b h)
  exact ⟨d, hd, by simpa using hlt⟩

theorem valueOf_concat (base : Nat) (digits : Text) (b : UInt8) :
    valueOf base (digits ++ [b]) = valueOf base digits * base + (digitValue? b).getD 0 := by
  simp [valueOf, valueFrom, List.foldl_append]

theorem valueOf_eight_le (digits : Text) : valueOf 8 digits ≤ valueOf 10 digits := by
  induction digits using List.reverseRecOn with
  | nil => exact Nat.le_refl _
  | append_singleton digits b ih =>
    rw [valueOf_concat, valueOf_concat]
    omega

theorem lt_eight_of_valueOf_eq (hin : ∀ b ∈ digits, InBase 8 b)
    (h : valueOf 8 digits = valueOf 10 digits) : valueOf 10 digits < 8 := by
  cases digits using List.reverseRecOn with
  | nil => decide
  | append_singleton digits b =>
    obtain ⟨d, hd, hlt⟩ := hin b (by simp)
    have hle := valueOf_eight_le digits
    rw [valueOf_concat, valueOf_concat, hd, Option.getD_some] at h
    rw [valueOf_concat, hd, Option.getD_some]
    omega

theorem valueOf_eq_of_lt_eight (hin : ∀ b ∈ digits, InBase 10 b) (h : valueOf 10 digits < 8) :
    (∀ b ∈ digits, InBase 8 b) ∧ valueOf 8 digits = valueOf 10 digits := by
  induction digits using List.reverseRecOn with
  | nil => exact ⟨by simp, rfl⟩
  | append_singleton digits b ih =>
    obtain ⟨d, hd, -⟩ := hin b (by simp)
    rw [valueOf_concat, hd, Option.getD_some] at h
    obtain ⟨hdigits, hvalue⟩ := ih (fun c hc => hin c (by simp [hc])) (by omega)
    refine ⟨?_, by rw [valueOf_concat, valueOf_concat, hd, Option.getD_some]; omega⟩
    intro c hc
    rcases List.mem_append.mp hc with hc | hc
    · exact hdigits c hc
    · exact List.mem_singleton.mp hc ▸ ⟨d, hd, by omega⟩

-- ---------------------------------------------------------------------------
-- Spellings and documented forms
-- ---------------------------------------------------------------------------

theorem mark_sixteen (h : mark = 0x78 ∨ mark = 0x58) : (mark, 16) ∈ marks := by
  rcases h with rfl | rfl <;> decide

theorem unambiguous_hexadecimal (hmark : mark = 0x78 ∨ mark = 0x58)
    (h : ∀ b ∈ digits, InBase 16 b) : Unambiguous (Ascii.zero :: mark :: digits) where
  joined := by
    have hrest : Ascii.underscore ∉ digits := fun hmem => (h _ hmem).ne_underscore rfl
    rcases hmark with rfl | rfl
    · exact List.not_mem_cons_of_ne_of_not_mem (by decide)
        (List.not_mem_cons_of_ne_of_not_mem (by decide) hrest)
    · exact List.not_mem_cons_of_ne_of_not_mem (by decide)
        (List.not_mem_cons_of_ne_of_not_mem (by decide) hrest)
  zero m rest heq := by
    simp only [List.cons.injEq, true_and] at heq
    exact heq.1 ▸ hmark

theorem spelled_iff_documented (h : Unambiguous t) : Spelled t n ↔ Documented t n := by
  constructor
  · rintro (⟨-, hspaced⟩ | @⟨t, digits, hspaced⟩ | @⟨mark, base, t, digits, hmark, hspaced⟩ | -)
    · have hbare : bare t = t := bare_eq_self h.joined
      have hin := hspaced.inBase
      rw [hspaced.digits_eq, hbare] at hin ⊢
      exact .decimal hspaced.ne_nil fun b hb => inBase_ten_iff.mp (hin b hb)
    · cases t with
      | nil =>
        rw [hspaced.digits_eq]
        exact @Documented.decimal [Ascii.zero] (by simp) (by decide)
      | cons mark rest =>
        have hmark := mark_sixteen (h.zero mark rest rfl)
        have hplain : mark ≠ Ascii.underscore := by
          rintro rfl
          exact h.joined (by simp)
        have hin := hspaced.tail.inBase mark (by simp [bare_cons hplain])
        exact absurd hin (not_inBase_mark hmark)
    · have hx := h.zero mark t rfl
      obtain rfl := mark_unique (mark_sixteen hx) hmark
      have hjoined : Ascii.underscore ∉ t := fun hmem => h.joined (by simp [hmem])
      have hin := hspaced.inBase
      rw [hspaced.digits_eq, bare_eq_self hjoined] at hin ⊢
      exact .hexadecimal hx hspaced.ne_nil hin
    · exact absurd (by simp) h.joined
  · rintro (⟨hne, hdigits⟩ | ⟨hmark, hne, hdigits⟩)
    · have hspaced : Spaced 10 t t :=
        .of_digits hne fun b hb => inBase_ten_iff.mpr (hdigits b hb)
      by_cases hzero : t.head? = some Ascii.zero
      · obtain ⟨rest, rfl⟩ := List.head?_eq_some_iff.mp hzero
        cases rest with
        | nil => exact .octal (t := []) (.last ⟨0, by decide, by decide⟩)
        | cons mark rest =>
          rcases h.zero mark rest rfl with rfl | rfl
          · exact absurd (hdigits 0x78 (by simp)) (by decide)
          · exact absurd (hdigits 0x58 (by simp)) (by decide)
      · exact .decimal hzero hspaced
    · exact .marked (mark_sixteen hmark) (.of_digits hne hdigits)

/-- A documented form that is ambiguous has decimal digits behind a zero, and so
it is spelled in base eight. -/
theorem spelled_ambiguous (h : ¬ Unambiguous t) (hdoc : Documented t m) :
    (∀ b ∈ t, InBase 10 b) ∧ valueOf 10 t = m ∧
      ∀ n, Spelled t n ↔ (∀ b ∈ t, InBase 8 b) ∧ valueOf 8 t = n := by
  rcases hdoc with ⟨hne, hdigits⟩ | ⟨hmark, -, hdigits⟩
  · have hin : ∀ b ∈ t, InBase 10 b := fun b hb => inBase_ten_iff.mpr (hdigits b hb)
    have hjoined : Ascii.underscore ∉ t := fun hmem => (hin _ hmem).ne_underscore rfl
    obtain ⟨mark, rest, rfl, -⟩ : ∃ mark rest, t = Ascii.zero :: mark :: rest ∧
        ¬ (mark = 0x78 ∨ mark = 0x58) := by
      by_contra hnone
      exact h ⟨hjoined, fun mark rest heq => by_contra fun hx => hnone ⟨mark, rest, heq, hx⟩⟩
    have hunmarked : Unmarked (mark :: rest) := by
      rintro _ base hmem ⟨⟩
      have hall : ∀ entry ∈ marks, Ascii.isDigit entry.1 = false := by decide
      exact absurd (hdigits mark (by simp)) (by simp [hall _ hmem])
    refine ⟨hin, rfl, fun n => ?_⟩
    rw [spelled_octal_iff hunmarked, valueOf_zero, bare_eq_self fun hmem => hjoined (by simp [hmem])]
    refine and_congr_left fun _ => ⟨fun htail => ?_, fun height => ?_⟩
    · have := htail.inBase
      rw [bare_eq_self fun hmem => hjoined (by simp [hmem])] at this
      exact List.forall_mem_cons.mpr ⟨⟨0, by decide, by decide⟩, this⟩
    · exact .digits (.of_digits (by simp) (List.forall_mem_cons.mp height).2)
  · exact absurd (unambiguous_hexadecimal hmark hdigits) h

-- ---------------------------------------------------------------------------
-- Addresses
-- ---------------------------------------------------------------------------

theorem readShortAddr?_eq_some_iff :
    readShortAddr? text = some a ↔ 0 < a.toNat ∧ Spelled text a.toNat := by
  have hlt := a.toNat_lt
  have hread : readPrefixed 0xFFFF text = .ok a.toNat ↔ Spelled text a.toNat ∧ a.toNat ≤ 0xFFFF :=
    readPrefixed_eq_ok_iff
  have hlimit : a.toNat ≤ 0xFFFF := by omega
  rw [and_iff_left hlimit] at hread
  rw [← hread, readShortAddr?]
  cases h : readPrefixed 0xFFFF text with
  | error _ => simp
  | ok n =>
    have hn := (readPrefixed_eq_ok_iff.mp h).2
    have hword : n.toUInt16.toNat = n := Nat.mod_eq_of_lt (by omega)
    cases n with
    | zero => simp; omega
    | succ n =>
      simp only [Option.some.injEq, Except.ok.injEq]
      constructor
      · rintro rfl
        exact ⟨by omega, hword.symm⟩
      · rintro ⟨-, heq⟩
        exact UInt16.toNat_inj.mp (hword.trans heq)

/-- An address is read from its spellings and from nothing else. An unambiguous
text is read as documented; of the others just those are whose address is below
eight, behind zeros. -/
theorem address_spelled (text : Text) (a : UInt16) :
    (readShortAddr? text = some a ↔ 0 < a.toNat ∧ Spelled text a.toNat) ∧
    (Unambiguous text → (readShortAddr? text = some a ↔ 0 < a.toNat ∧ Documented text a.toNat)) ∧
    (¬ Unambiguous text → (readShortAddr? text = some a ∧ Documented text a.toNat ↔
      0 < a.toNat ∧ a.toNat < 8 ∧ Documented text a.toNat)) := by
  refine ⟨readShortAddr?_eq_some_iff, fun h => ?_, fun h => ?_⟩
  · rw [readShortAddr?_eq_some_iff, spelled_iff_documented h]
  · rw [readShortAddr?_eq_some_iff]
    constructor
    · rintro ⟨⟨hpos, hspelled⟩, hdoc⟩
      obtain ⟨-, hvalue, hoctal⟩ := spelled_ambiguous h hdoc
      obtain ⟨hin, hsame⟩ := (hoctal _).mp hspelled
      exact ⟨hpos, hvalue ▸ lt_eight_of_valueOf_eq hin (hsame.trans hvalue.symm), hdoc⟩
    · rintro ⟨hpos, hlt, hdoc⟩
      obtain ⟨hin, hvalue, hoctal⟩ := spelled_ambiguous h hdoc
      obtain ⟨height, hsame⟩ := valueOf_eq_of_lt_eight hin (hvalue ▸ hlt)
      exact ⟨⟨hpos, (hoctal _).mpr ⟨height, hsame.trans hvalue⟩⟩, hdoc⟩

/-- Ten behind a zero: the device that is switched off has the address eight. -/
theorem padded_ten_misread :
    Documented "010" 10 ∧ readShortAddr? "010" = some 8 ∧
      invoke ["device", "off", "010"] =
        .ok (.device (.control { addr := 8, endpoint := 1, switch := 0 }) []) :=
  ⟨@Documented.decimal "010" (by decide) (by decide), by decide, by decide +kernel⟩

end MeshConsole.Command
