import Mathlib.Data.List.TakeDrop
import Mathlib.Data.List.TakeWhile
import MeshConsole.Text.Basic

/-!
# Bytes of a text

A statement about every byte is a statement about 256 numbers. A text is cut
at the first of some byte, and loses those at an end when it is trimmed.

Texts are compared as lists of bytes are (`le_iff`), so they are in a linear
order. Capitals come before small letters (`le_lowerAscii`).
-/

namespace MeshConsole

theorem forall_byte {P : UInt8 → Prop} (h : ∀ n < 256, P n.toUInt8) (b : UInt8) : P b := by
  have hb : b.toNat.toUInt8 = b := UInt8.ofNat_toNat
  exact hb ▸ h b.toNat b.toNat_lt

namespace Text

variable {b : UInt8} {s t : Text}

-- ---------------------------------------------------------------------------
-- Cutting
-- ---------------------------------------------------------------------------

theorem bne_of_not_mem (h : b ∉ t) : ∀ c ∈ t, (c != b) = true :=
  fun _ hc => bne_iff_ne.mpr fun heq => h (heq ▸ hc)

theorem span_before (h : b ∉ s) (t : Text) : (s ++ b :: t).span (· != b) = (s, b :: t) := by
  rw [List.span_eq_takeWhile_dropWhile, List.takeWhile_append_of_pos (bne_of_not_mem h),
    List.dropWhile_append_of_pos (bne_of_not_mem h)]
  simp

theorem span_whole (h : b ∉ t) : t.span (· != b) = (t, []) := by
  rw [List.span_eq_takeWhile_dropWhile, List.takeWhile_eq_self_iff.mpr (bne_of_not_mem h),
    List.dropWhile_eq_nil_iff.mpr (bne_of_not_mem h)]

theorem cut?_eq_none (h : b ∉ t) : cut? b t = none := by
  rw [cut?, span_whole h]

theorem cut?_append (h : b ∉ s) (t : Text) : cut? b (s ++ b :: t) = some (s, t) := by
  rw [cut?, span_before h]

-- ---------------------------------------------------------------------------
-- Trimming
-- ---------------------------------------------------------------------------

theorem trimLeft_replicate_append (b : UInt8) (t : Text) (k : Nat) :
    trimLeft b (List.replicate k b ++ t) = trimLeft b t := by
  have hall : ∀ c ∈ List.replicate k b, (c == b) = true := by simp +contextual
  exact List.dropWhile_append_of_pos hall

theorem trimRight_append_replicate (b : UInt8) (t : Text) (k : Nat) :
    trimRight b (t ++ List.replicate k b) = trimRight b t := by
  rw [trimRight, List.reverse_append, List.reverse_replicate]
  exact congrArg List.reverse (trimLeft_replicate_append b t.reverse k)

theorem trimRight_concat (h : last ≠ b) : trimRight b (t ++ [last]) = t ++ [last] := by
  simp [trimRight, h]

theorem mem_trimLeft {c : UInt8} (h : c ∈ t) (hne : c ≠ b) : c ∈ trimLeft b t := by
  rw [← List.takeWhile_append_dropWhile (p := (· == b)) (l := t)] at h
  rcases List.mem_append.mp h with h | h
  · exact absurd (by simpa using List.mem_takeWhile_imp h) hne
  · exact h

-- ---------------------------------------------------------------------------
-- Byte order
-- ---------------------------------------------------------------------------

theorem le_iff {s t : Text} : le s t = true ↔ s ≤ t := by
  induction s generalizing t with
  | nil => simp [le]
  | cons a s ih =>
    cases t with
    | nil => simp [le]
    | cons b t =>
      rw [le, List.cons_le_cons_iff]
      by_cases hab : a = b
      · subst hab
        simp [ih, UInt8.lt_irrefl]
      · simp [hab]

theorem le_total (s t : Text) : (le s t || le t s) = true := by
  simpa [le_iff] using List.le_total s t

theorem le_trans (r s t : Text) (hrs : le r s = true) (hst : le s t = true) : le r t = true :=
  le_iff.mpr (List.le_trans (le_iff.mp hrs) (le_iff.mp hst))

theorem le_antisymm {s t : Text} (hst : le s t = true) (hts : le t s = true) : s = t :=
  List.le_antisymm (le_iff.mp hst) (le_iff.mp hts)

-- ---------------------------------------------------------------------------
-- Capitals
-- ---------------------------------------------------------------------------

theorem isUpper_iff {b : UInt8} :
    Ascii.isUpper b = true ↔ 0x41 ≤ b.toNat ∧ b.toNat ≤ 0x5A := by
  simp only [Ascii.isUpper, Bool.and_eq_true, decide_eq_true_eq, UInt8.le_iff_toNat_le]
  rfl

theorem toNat_toLower {b : UInt8} (h : Ascii.isUpper b = true) :
    (Ascii.toLower b).toNat = b.toNat + 0x20 := by
  obtain ⟨-, hlast⟩ := isUpper_iff.mp h
  rw [Ascii.toLower, if_pos h, UInt8.toNat_add]
  exact Nat.mod_eq_of_lt (by show b.toNat + 32 < 256; omega)

theorem lt_toLower {b : UInt8} (h : Ascii.isUpper b = true) : b < Ascii.toLower b := by
  rw [UInt8.lt_iff_toNat_lt, toNat_toLower h]
  omega

/-- No spelling with capitals comes after the one without. -/
theorem le_lowerAscii (t : Text) : le t (lowerAscii t) = true := by
  induction t with
  | nil => rfl
  | cons b t ih =>
    show (if b == Ascii.toLower b then le t (lowerAscii t) else b < Ascii.toLower b) = true
    cases hupper : Ascii.isUpper b with
    | true =>
      have hlt := lt_toLower hupper
      rw [if_neg (by simpa using UInt8.ne_of_lt hlt)]
      exact decide_eq_true hlt
    | false =>
      have hsame : Ascii.toLower b = b := by simp [Ascii.toLower, hupper]
      rw [hsame, if_pos (beq_self_eq_true b)]
      exact ih

end Text

end MeshConsole
