import MeshConsole.Proofs.Json.Writing
import MeshConsole.Push.Message

/-!
# Whole numbers of a frame

A number of a frame is taken for a binary64 number first, and by its digits
where that is too coarse. Together the two readings lose nothing: a 64-bit
integer in plain digits is read as it stands there (`sequence?_denotes`,
`signed?_denotes`).
-/

namespace MeshConsole

-- ---------------------------------------------------------------------------
-- Whole numbers as binary64 numbers
-- ---------------------------------------------------------------------------

namespace Binary64

theorem roundHalfEven_one (n : Nat) : roundHalfEven n 1 = n := by
  simp [roundHalfEven, Nat.mod_one]

theorem div_le_roundHalfEven (n d : Nat) : n / d ≤ roundHalfEven n d := by
  simp only [roundHalfEven]
  split
  · exact Nat.le_refl _
  split
  · exact Nat.le_succ _
  · exact Nat.le_add_right _ _

theorem floorLog_whole (h : n ≠ 0) : floorLog 2 ((n.log2 : Int) - Nat.log2 1) n 1 = n.log2 := by
  have hone : ((n.log2 : Int) - Nat.log2 1) = n.log2 := by simp [show Nat.log2 1 = 0 by decide]
  have hreached : 1 * Nat.pow 2 (n.log2 : Int).toNat ≤ n := by
    rw [Nat.one_mul]
    exact Nat.log2_self_le h
  rw [hone]
  unfold floorLog
  simp only [Int.natCast_nonneg, if_true, hreached]

section
variable (negative : Bool)

/-- Up to 53 bits nothing is rounded. -/
theorem ofFraction_fine (hpos : n ≠ 0) (h : n < 2 ^ 53) :
    ∃ k : Nat, ofFraction negative n 1 = .finite negative (n * 2 ^ k) (-(k : Int)) := by
  have hlog : n.log2 < 53 := (Nat.log2_lt hpos).mpr h
  obtain ⟨k, hk⟩ : ∃ k, n.log2 + k = 52 := ⟨52 - n.log2, by omega⟩
  have hexponent : max ((n.log2 : Int) - 52) leastExponent = -(k : Int) := by
    unfold leastExponent
    omega
  have hsignificand : (if 0 ≤ -(k : Int) then roundHalfEven n (1 * Nat.pow 2 (-(k : Int)).toNat)
      else roundHalfEven (n * Nat.pow 2 (- -(k : Int)).toNat) 1) = n * 2 ^ k := by
    split
    · obtain rfl : k = 0 := by omega
      simpa using roundHalfEven_one n
    · rw [roundHalfEven_one, Int.neg_neg, Int.toNat_natCast]
      rfl
  have hnotop : ¬ n * 2 ^ k = Nat.pow 2 53 := by
    refine Nat.ne_of_lt ?_
    calc n * 2 ^ k
        < 2 ^ (n.log2 + 1) * 2 ^ k :=
          Nat.mul_lt_mul_of_pos_right Nat.lt_log2_self (Nat.two_pow_pos _)
      _ = 2 ^ 53 := by rw [← Nat.pow_add]; congr 1; omega
  have hfinite : ¬ greatestExponent < -(k : Int) := by
    unfold greatestExponent
    omega
  refine ⟨k, ?_⟩
  unfold ofFraction
  simp only [if_neg hpos, floorLog_whole hpos, hexponent, hsignificand, if_neg hnotop,
    if_neg hfinite]

/-- Beyond, the number is a multiple of two or more, and no smaller than the
least such integer. -/
theorem ofFraction_coarse (h : 2 ^ 53 ≤ n) :
    ofFraction negative n 1 = .infinite negative ∨
      ∃ significand exponent : Nat, 2 ^ 52 ≤ significand ∧ 0 < exponent ∧
        ofFraction negative n 1 = .finite negative significand exponent := by
  have hpos : n ≠ 0 := by rintro rfl; simp at h
  obtain ⟨k, hk⟩ : ∃ k, n.log2 = 53 + k := ⟨n.log2 - 53, by
    have := (Nat.le_log2 hpos).mpr h
    omega⟩
  have hexponent : max ((n.log2 : Int) - 52) leastExponent = ((k + 1 : Nat) : Int) := by
    unfold leastExponent
    omega
  have hround : 2 ^ 52 ≤ roundHalfEven n (1 * Nat.pow 2 (k + 1)) := by
    refine Nat.le_trans ?_ (div_le_roundHalfEven _ _)
    rw [Nat.one_mul, Nat.pow_eq, Nat.le_div_iff_mul_le (Nat.two_pow_pos _)]
    calc 2 ^ 52 * 2 ^ (k + 1) = 2 ^ n.log2 := by rw [hk, ← Nat.pow_add]; congr 1; omega
      _ ≤ n := Nat.log2_self_le hpos
  unfold ofFraction
  simp only [if_neg hpos, floorLog_whole hpos, hexponent, Int.natCast_nonneg, if_true,
    Int.toNat_natCast]
  by_cases htop : roundHalfEven n (1 * Nat.pow 2 (k + 1)) = Nat.pow 2 53
  · rw [if_pos htop]
    by_cases hover : greatestExponent < ((k + 1 : Nat) : Int) + 1
    · exact .inl (if_pos hover)
    · exact .inr ⟨Nat.pow 2 52, k + 2, Nat.le_refl _, Nat.succ_pos _, if_neg hover⟩
  · rw [if_neg htop]
    by_cases hover : greatestExponent < ((k + 1 : Nat) : Int)
    · exact .inl (if_pos hover)
    · exact .inr ⟨_, k + 1, hround, Nat.succ_pos _, if_neg hover⟩

end

theorem truncate?_scaled (negative : Bool) (n k : Nat) :
    (Binary64.finite negative (n * 2 ^ k) (-(k : Int))).truncate? =
      some (if negative then -(n : Int) else n) := by
  have hfraction : (fraction (n * 2 ^ k) (-(k : Int))).1 /
      (fraction (n * 2 ^ k) (-(k : Int))).2 = n := by
    unfold fraction
    split
    · obtain rfl : k = 0 := by omega
      simp
    · rw [Int.neg_neg, Int.toNat_natCast]
      exact Nat.mul_div_cancel _ (Nat.two_pow_pos k)
  simp only [truncate?, hfraction]

theorem truncate?_zero (negative : Bool) (k : Nat) :
    (Binary64.finite negative 0 (-(k : Int))).truncate? = some 0 := by
  have hscaled := truncate?_scaled negative 0 k
  rw [Nat.zero_mul] at hscaled
  rw [hscaled]
  cases negative <;> rfl

theorem truncate?_multiple (negative : Bool) (significand k : Nat) :
    (Binary64.finite negative significand (k : Int)).truncate? =
      some (if negative then -((significand * 2 ^ k : Nat) : Int) else (significand * 2 ^ k : Nat)) := by
  simp [truncate?, fraction]

theorem isAtLeastZero_ofFraction (n d : Nat) : (ofFraction false n d).isAtLeastZero = true := by
  unfold ofFraction
  split
  · rfl
  · exact (apply_ite isAtLeastZero _ _ _).trans (ite_self true)

theorem isAtLeastZero_ofDecimal (digits : Nat) (exponent : Int) :
    (ofDecimal false digits exponent).isAtLeastZero = true := by
  unfold ofDecimal
  split
  · rfl
  simp only
  split
  · rfl
  split
  · rfl
  split
  · exact isAtLeastZero_ofFraction _ _
  · exact isAtLeastZero_ofFraction _ _

end Binary64

namespace Push

open Binary64

theorem natAbs_signed (negative : Bool) (n : Nat) :
    (if negative then -(n : Int) else n).natAbs = n := by
  cases negative <;> simp

/-- An integer is taken for what it is as long as all smaller ones are
binary64 numbers, too. -/
theorem exactInt?_ofFraction (negative : Bool) (hpos : n ≠ 0) :
    exactInt? (ofFraction negative n 1) =
      if n ≤ maxExact then some (if negative then -(n : Int) else n) else none := by
  unfold exactInt?
  by_cases h : n < 2 ^ 53
  · obtain ⟨k, hk⟩ := ofFraction_fine negative hpos h
    rw [hk, truncate?_scaled]
    simp only [natAbs_signed]
  · have hbeyond : ¬ n ≤ maxExact := by
      simp only [maxExact, Nat.pow_eq]
      omega
    rw [if_neg hbeyond]
    rcases ofFraction_coarse negative (Nat.not_lt.mp h) with hk | ⟨significand, k, hs, hk, hvalue⟩
    · rw [hk]
      rfl
    · rw [hvalue, truncate?_multiple]
      have hlarge : 2 ^ 52 * 2 ^ 1 ≤ significand * 2 ^ k :=
        Nat.mul_le_mul hs (Nat.pow_le_pow_right (by decide) hk)
      have hover : ¬ significand * 2 ^ k ≤ maxExact := by
        simp only [maxExact, Nat.pow_eq]
        omega
      simp only [natAbs_signed, if_neg hover]

theorem exactInt?_ofDecimal (negative : Bool) (n : Nat) :
    exactInt? (ofDecimal negative n 0) =
      if n ≤ maxExact then some (if negative then -(n : Int) else n) else none := by
  by_cases hpos : n = 0
  · subst hpos
    have hzero : (ofDecimal negative 0 0).truncate? = some 0 := truncate?_zero negative 1074
    rw [exactInt?, hzero]
    cases negative <;> rfl
  unfold ofDecimal
  simp only [if_neg hpos, Int.zero_add]
  by_cases hlong : 320 < ((Nat.toDigits 10 n).length : Int)
  · have hbeyond : ¬ n ≤ maxExact := by
      intro hn
      have hshort : (Nat.toDigits 10 n).length ≤ 320 :=
        (Nat.length_toDigits_le_iff (by decide) (by decide)).mpr
          (Nat.lt_of_le_of_lt hn (by decide +kernel))
      omega
    rw [if_pos hlong, if_neg hbeyond]
    rfl
  · have hshort : ¬ ((Nat.toDigits 10 n).length : Int) < -340 := by omega
    simp only [if_neg hlong, if_neg hshort]
    simpa using exactInt?_ofFraction negative hpos

-- ---------------------------------------------------------------------------
-- Numerals
-- ---------------------------------------------------------------------------

theorem digitsValue_ofNat (n : Nat) : Scientific.digitsValue (Text.ofNat n) = n := by
  have hdigit : ∀ d < 10, (Text.digit d).toNat - 0x30 = d := by decide
  refine Text.ofNat_induction (P := fun n t => Scientific.digitsValue t = n) ?_ ?_ n
  · intro d hd
    simp [Scientific.digitsValue, hdigit d hd]
  · intro n t d _ hd ht
    unfold Scientific.digitsValue at ht ⊢
    rw [List.foldl_append, ht, List.foldl_cons, List.foldl_nil, hdigit d hd, Nat.mul_comm]

instance : Decidable (Json.IsDigits t) := inferInstanceAs (Decidable (_ ∧ _))

/-- A text of plain digits, or of a minus sign and plain digits, and the integer
it stands for. -/
inductive Denotes : Text → Int → Prop
  | digits {t} : Json.IsDigits t → Denotes t (Scientific.digitsValue t)
  | negated {t} : Json.IsDigits t → Denotes (Ascii.minus :: t) (-(Scientific.digitsValue t : Int))

theorem isDigits_ofNat (n : Nat) : Json.IsDigits (Text.ofNat n) :=
  ⟨Text.ofNat_ne_nil n, Text.isDigit_ofNat n⟩

theorem denotes_ofInt (i : Int) : Denotes (Text.ofInt i) i := by
  have hdigits := isDigits_ofNat i.natAbs
  unfold Text.ofInt
  split
  case isTrue hneg =>
    have hdenotes := Denotes.negated hdigits
    rwa [digitsValue_ofNat, show -(i.natAbs : Int) = i by omega] at hdenotes
  case isFalse hpos =>
    have hdenotes := Denotes.digits hdigits
    rwa [digitsValue_ofNat, show (i.natAbs : Int) = i by omega] at hdenotes

/-- What is read once the sign is known. -/
theorem readUnsigned_digits (negative : Bool) (h : Json.IsDigits t) :
    (let (whole, text) := t.span Ascii.isDigit
     let (decimals, text) :=
       match text with
       | Ascii.dot :: rest => rest.span Ascii.isDigit
       | rest => ([], rest)
     if whole.isEmpty && decimals.isEmpty then none
     else do
       let exponent ← Scientific.readExponent? text
       return ({ negative, digits := Scientific.digitsValue (whole ++ decimals)
                 exponent := exponent - decimals.length } : Scientific)) =
      some { negative, digits := Scientific.digitsValue t, exponent := 0 } := by
  have hspan : t.span Ascii.isDigit = (t, []) := by
    have hspan := Json.span_append_stops h.2 (by simp [Json.Stops] : Json.Stops Ascii.isDigit [])
    rwa [List.append_nil] at hspan
  have hsome : (t.isEmpty && List.isEmpty ([] : Text)) = false := by simp [h.1]
  rw [hspan]
  simp only [hsome, List.append_nil]
  rfl

theorem read?_digits (h : Json.IsDigits t) :
    Scientific.read? t =
      some { negative := false, digits := Scientific.digitsValue t, exponent := 0 } := by
  have hread := readUnsigned_digits false h
  obtain ⟨first, rest, rfl, hdigit⟩ := h.head
  unfold Scientific.read?
  split
  next heq =>
    split at heq
    next hminus => exact absurd (List.head_eq_of_cons_eq hminus ▸ hdigit) (by decide)
    next hplus => exact absurd (List.head_eq_of_cons_eq hplus ▸ hdigit) (by decide)
    next =>
      cases heq
      exact hread

theorem numeral_digits (h : Json.IsDigits t) :
    (Json.Strict.number? t >>= Scientific.read?) =
      some { negative := false, digits := Scientific.digitsValue t, exponent := 0 } := by
  have hread := read?_digits h
  obtain ⟨first, rest, rfl, hdigit⟩ := h.head
  rw [Json.Strict.number?, hdigit, Bool.or_true, if_pos rfl]
  exact hread

theorem numeral_negated (h : Json.IsDigits t) :
    (Json.Strict.number? (Ascii.minus :: t) >>= Scientific.read?) =
      some { negative := true, digits := Scientific.digitsValue t, exponent := 0 } :=
  readUnsigned_digits true h

theorem Denotes.numeral (h : Denotes t i) : ∃ (negative : Bool) (digits : Nat),
    (Json.Strict.number? t >>= Scientific.read?) = some { negative, digits, exponent := 0 } ∧
      (if negative then -(digits : Int) else digits) = i := by
  cases h with
  | digits h => exact ⟨_, _, numeral_digits h, rfl⟩
  | negated h => exact ⟨_, _, numeral_negated h, rfl⟩

/-- The digits of a number, wrapped into 64 bits. -/
theorem wrappedDigits?_digits (h : Json.IsDigits t) :
    wrappedDigits? t = some (Scientific.digitsValue t).toUInt64 := by
  have hall : t.all Ascii.isDigit = true := List.all_eq_true.mpr h.2
  have hfold (n : Nat) (t : Text) :
      t.foldl (fun n b => n * 10 + (b.toNat - 0x30).toUInt64) n.toUInt64 =
        (t.foldl (fun n b => 10 * n + (b.toNat - 0x30)) n).toUInt64 := by
    induction t generalizing n with
    | nil => rfl
    | cons b rest ih =>
      have hstep : n.toUInt64 * 10 + (b.toNat - 0x30).toUInt64 =
          (10 * n + (b.toNat - 0x30)).toUInt64 := by
        rw [Nat.mul_comm]
        exact ((UInt64.ofNat_add _ _).trans (congrArg (· + _) (UInt64.ofNat_mul _ _))).symm
      rw [List.foldl_cons, List.foldl_cons, hstep, ih]
  simpa [wrappedDigits?, h.1, hall, Scientific.digitsValue] using hfold 0 t

theorem isAtLeastZero_zero (negative : Bool) : (ofDecimal negative 0 0).isAtLeastZero = true := by
  cases negative <;> rfl

/-- A sequence number in plain digits is read as it stands there. -/
theorem sequence?_denotes (n : UInt64) (h : Denotes t n.toNat) : sequence? t = some n := by
  generalize hi : (n.toNat : Int) = i at h
  cases h with
  | digits h =>
    have hvalue : Scientific.digitsValue t = n.toNat := by omega
    have hexact := exactInt?_ofDecimal false n.toNat
    have hwrapped := wrappedDigits?_digits h
    unfold sequence?
    rw [numeral_digits h, hvalue]
    simp only [Scientific.toBinary64, isAtLeastZero_ofDecimal, hexact, hwrapped, hvalue]
    by_cases hsmall : n.toNat ≤ maxExact
    · simp [hsmall]
    · simp [hsmall]
  | @negated t h =>
    -- Only zero has both signs.
    have hvalue : Scientific.digitsValue t = 0 := by omega
    have hzero : n = 0 := UInt64.toNat_inj.mp (by simp; omega)
    have hexact := exactInt?_ofDecimal true 0
    unfold sequence?
    rw [numeral_negated h, hvalue, hzero]
    simp only [Scientific.toBinary64, isAtLeastZero_zero, hexact]
    rfl

theorem toInt64_ofNat (n : Nat) : n.toUInt64.toInt64 = Int64.ofInt n := by
  rw [Int64.ofInt_eq_ofNat]
  exact UInt64.toInt64_ofNat'

theorem wrapped_denotes : Denotes t i →
    (match t with
      | Ascii.minus :: digits => (wrappedDigits? digits).map fun n => -n.toInt64
      | digits => (wrappedDigits? digits).map (·.toInt64)) = some (Int64.ofInt i) := by
  intro h
  cases h with
  | digits h =>
    split
    next => exact absurd (h.2 Ascii.minus (by simp)) (by decide)
    next => rw [wrappedDigits?_digits h, Option.map_some, toInt64_ofNat]
  | negated h =>
    show (wrappedDigits? _).map _ = _
    rw [wrappedDigits?_digits h, Option.map_some, toInt64_ofNat, ← Int64.ofInt_neg]

/-- So is a version and a time. -/
theorem signed?_denotes (i : Int64) (h : Denotes t i.toInt) : signed? t = some i := by
  have hwrapped := wrapped_denotes h
  rw [Int64.ofInt_toInt] at hwrapped
  obtain ⟨negative, digits, hnumeral, hvalue⟩ := h.numeral
  have hexact := exactInt?_ofDecimal negative digits
  unfold signed?
  rw [hnumeral]
  simp only [Scientific.toBinary64, hexact, hvalue]
  by_cases hsmall : digits ≤ maxExact
  · rw [if_pos hsmall]
    simp
  · simp only [if_neg hsmall]
    split
    next n heq => exact heq.symm.trans hwrapped
    next heq => cases heq.symm.trans hwrapped

theorem sequence?_ofNat (n : UInt64) : sequence? (Text.ofInt n.toNat) = some n :=
  sequence?_denotes n (denotes_ofInt _)

theorem signed?_ofInt (i : Int64) : signed? (Text.ofInt i.toInt) = some i :=
  signed?_denotes i (denotes_ofInt _)

end Push

end MeshConsole
