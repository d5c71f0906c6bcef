import Mathlib.Data.List.DropRight
import MeshConsole.Proofs.Json.Writing

/-!
# Numbers that are not whole

Every finite binary64 number is written as a JSON number
(`isNumber_realText?`), with an exponent or without. Its digits are those of
the shortest decimal, which is not zero unless the number is
(`shortest_ne_zero`).
-/

namespace MeshConsole

namespace Binary64

-- ---------------------------------------------------------------------------
-- The shortest decimal
-- ---------------------------------------------------------------------------

theorem pow_toDigits_le (h : n ≠ 0) : 10 ^ ((Nat.toDigits 10 n).length - 1) ≤ n := by
  by_cases hone : (Nat.toDigits 10 n).length - 1 = 0
  · rw [hone]
    exact Nat.one_le_iff_ne_zero.mpr h
  · refine Nat.le_of_not_lt fun hlt => ?_
    have hle := (Nat.length_toDigits_le_iff (by decide) (by omega)).mpr hlt
    omega

theorem lt_pow_toDigits (n : Nat) : n < 10 ^ (Nat.toDigits 10 n).length := by
  have hpos : 0 < (Nat.toDigits 10 n).length := by
    have hne := Text.ofNat_ne_nil n
    rw [Text.ofNat, ne_eq, List.map_eq_nil_iff] at hne
    exact List.length_pos_iff.mpr hne
  exact (Nat.length_toDigits_le_iff (by decide) hpos).mp (Nat.le_refl _)

theorem fraction_pos (h : 0 < significand) (exponent : Int) :
    0 < (fraction significand exponent).1 ∧ 0 < (fraction significand exponent).2 := by
  unfold fraction
  split
  · exact ⟨Nat.mul_pos h (Nat.two_pow_pos _), Nat.one_pos⟩
  · exact ⟨h, Nat.two_pow_pos _⟩

theorem interval_low_pos (h : 0 < significand) (exponent : Int) :
    0 < (interval significand exponent).low.1 := by
  unfold interval
  simp only
  split
  · exact (fraction_pos (by omega) _).1
  · exact (fraction_pos (by omega) _).1

theorem decimalRatio_pos (digits : Nat) (exponent : Int) :
    0 < (decimalRatio digits exponent).2 := by
  unfold decimalRatio
  split
  · exact Nat.one_pos
  · exact Nat.pow_pos (by decide)

/-- Zero rounds to no number but zero. -/
theorem contains_zero {i : Interval} (hlow : 0 < i.low.1) (exponent : Int) :
    i.contains (decimalRatio 0 exponent) = false := by
  have hpos := decimalRatio_pos 0 exponent
  have hzero : (decimalRatio 0 exponent).1 = 0 := by
    unfold decimalRatio
    split <;> simp
  have hbelow : Ratio.lt (decimalRatio 0 exponent) i.low = true := by
    simp [Ratio.lt, hzero, hlow, hpos]
  have habove : Ratio.lt i.low (decimalRatio 0 exponent) = false := by
    simp [Ratio.lt, hzero]
  simp [Interval.contains, hbelow, habove]

theorem roundHalfEven_ne_zero (hd : 0 < d) (h : d ≤ n) : roundHalfEven n d ≠ 0 := by
  have hone : 1 ≤ n / d := (Nat.one_le_div_iff hd).mpr h
  unfold roundHalfEven
  simp only
  split
  · omega
  split
  · omega
  · omega

theorem search_ne_zero {value : Ratio} {inside : Interval} {top : Int} (hvalue : 0 < value.2)
    (hlow : 0 < inside.low.1) (fuel count : Nat)
    (hlast : value.2 * (decimalRatio 1 (top - (count + fuel : Nat) + 1)).1 ≤
      value.1 * (decimalRatio 1 (top - (count + fuel : Nat) + 1)).2) :
    (search value inside top fuel count).1 ≠ 0 := by
  have hunit : ∀ exponent, 0 < (decimalRatio 1 exponent).1 := by
    intro exponent
    unfold decimalRatio
    split
    · exact Nat.mul_pos Nat.one_pos (Nat.pow_pos (by decide))
    · exact Nat.one_pos
  have hinside : ∀ {digits : Nat} {exponent},
      inside.contains (decimalRatio digits exponent) = true → digits ≠ 0 := by
    rintro digits exponent h rfl
    rw [contains_zero hlow] at h
    cases h
  induction fuel generalizing count with
  | zero => exact roundHalfEven_ne_zero (Nat.mul_pos hvalue (hunit _)) hlast
  | succ fuel ih =>
    rw [search]
    refine iteInduction (motive := fun found : Nat × Int => found.1 ≠ 0) hinside fun _ => ?_
    refine iteInduction (motive := fun found : Nat × Int => found.1 ≠ 0) hinside fun _ => ?_
    refine ih (count + 1) ?_
    rw [show count + 1 + fuel = count + (fuel + 1) by omega]
    exact hlast

theorem floorLog_le (base : Nat) (estimate : Int) (n d : Nat) :
    floorLog base estimate n d ≤ estimate := by
  unfold floorLog
  exact iteInduction (motive := (· ≤ estimate)) (fun _ => Int.le_refl _) fun _ => by omega

/-- A decimal below the number by ten places or more is no more than it. -/
theorem unit_le {value : Ratio} (h : 0 < value.1)
    (hunit : unit ≤ ((Nat.toDigits 10 value.1).length : Int) - (Nat.toDigits 10 value.2).length - 1) :
    value.2 * (decimalRatio 1 unit).1 ≤ value.1 * (decimalRatio 1 unit).2 := by
  have hvalue := pow_toDigits_le (Nat.ne_of_gt h)
  have hbelow := Nat.le_of_lt (lt_pow_toDigits value.2)
  generalize (Nat.toDigits 10 value.1).length = m at *
  generalize (Nat.toDigits 10 value.2).length = n at *
  unfold decimalRatio
  split
  · obtain ⟨k, rfl⟩ : ∃ k : Nat, unit = k := ⟨unit.toNat, by omega⟩
    calc value.2 * (1 * Nat.pow 10 ((k : Int).toNat))
        ≤ 10 ^ n * 10 ^ k := by
          rw [Nat.one_mul, Int.toNat_natCast]
          exact Nat.mul_le_mul_right _ hbelow
      _ = 10 ^ (n + k) := (Nat.pow_add ..).symm
      _ ≤ 10 ^ (m - 1) := Nat.pow_le_pow_right (by decide) (by omega)
      _ ≤ value.1 * 1 := by rwa [Nat.mul_one]
  · obtain ⟨k, rfl⟩ : ∃ k : Nat, unit = -(k : Int) := ⟨(-unit).toNat, by omega⟩
    calc value.2 * 1 ≤ 10 ^ n := by rwa [Nat.mul_one]
      _ ≤ 10 ^ (m - 1 + k) := Nat.pow_le_pow_right (by decide) (by omega)
      _ = 10 ^ (m - 1) * 10 ^ k := Nat.pow_add ..
      _ ≤ value.1 * Nat.pow 10 (- -(k : Int)).toNat := by
        rw [Int.neg_neg, Int.toNat_natCast]
        exact Nat.mul_le_mul_right _ hvalue

theorem shortest_ne_zero (h : significand ≠ 0) (exponent : Int) :
    (shortest significand exponent).1 ≠ 0 := by
  have hpos : 0 < significand := Nat.pos_of_ne_zero h
  obtain ⟨hn, hd⟩ := fraction_pos hpos exponent
  refine search_ne_zero hd (interval_low_pos hpos exponent) 16 1 (unit_le hn ?_)
  have htop := floorLog_le 10 (((Nat.toDigits 10 (ratio significand exponent).1).length : Int) -
    (Nat.toDigits 10 (ratio significand exponent).2).length) (ratio significand exponent).1
    (ratio significand exponent).2
  simp only [ratio] at *
  omega

end Binary64

namespace Json

-- ---------------------------------------------------------------------------
-- Texts of numbers
-- ---------------------------------------------------------------------------

theorem isWhole_cons (h : ∀ b ∈ first :: rest, Ascii.isDigit b = true)
    (hfirst : first ≠ Ascii.zero) : IsWhole (first :: rest) := by
  obtain ⟨hdigit, hrest⟩ := List.forall_mem_cons.mp h
  exact .digits hdigit hfirst hrest

theorem isWhole_ofNat (n : Nat) : IsWhole (Text.ofNat n) := by
  have hdigits := Text.isDigit_ofNat n
  obtain ⟨first, rest, ht, hfirst⟩ := Text.ofNat_cons n
  rw [ht] at hdigits ⊢
  by_cases hzero : first = Ascii.zero
  · obtain ⟨-, rfl⟩ := hfirst hzero
    rw [hzero]
    exact .zero
  · exact isWhole_cons hdigits hzero

theorem signText_cases (negative : Bool) :
    (if negative then [Ascii.minus] else []) = ([] : Text) ∨
      (if negative then [Ascii.minus] else []) = [Ascii.minus] := by
  cases negative <;> simp

theorem isNumber_whole (h : IsWhole whole) (hfraction : IsFraction fraction) (negative : Bool) :
    IsNumber ((if negative then [Ascii.minus] else []) ++ (whole ++ fraction)) := by
  have hnumber := IsNumber.mk (signText_cases negative) h hfraction .none
  rwa [List.append_nil] at hnumber

theorem isNumber_ofInt (i : Int) : IsNumber (Text.ofInt i) := by
  have hwhole := isWhole_ofNat i.natAbs
  unfold Text.ofInt
  split
  · simpa using isNumber_whole hwhole .none true
  · simpa using isNumber_whole hwhole .none false

theorem trimRight_starts (b : UInt8) (t : Text) : Text.trimRight b t <+: t :=
  List.rdropWhile_prefix (· == b) t

theorem trimRight_cons (h : first ≠ b) (rest : Text) :
    ∃ more, Text.trimRight b (first :: rest) = first :: more ∧ more <+: rest := by
  have hstart := trimRight_starts b (first :: rest)
  cases htrim : Text.trimRight b (first :: rest) with
  | nil =>
    have hall := List.rdropWhile_eq_nil_iff.mp htrim first List.mem_cons_self
    exact absurd (eq_of_beq hall) h
  | cons c more =>
    rw [htrim, List.cons_prefix_cons] at hstart
    obtain ⟨rfl, hmore⟩ := hstart
    exact ⟨more, rfl, hmore⟩

theorem isDigit_trimRight (h : ∀ b ∈ t, Ascii.isDigit b = true) :
    ∀ b ∈ Text.trimRight Ascii.zero t, Ascii.isDigit b = true :=
  fun b hb => h b ((trimRight_starts _ _).subset hb)

theorem isFraction_digits (h : ∀ b ∈ t, Ascii.isDigit b = true) :
    IsFraction (if t.isEmpty then [] else Ascii.dot :: t) := by
  cases t with
  | nil => exact .none
  | cons => exact .digits ⟨List.cons_ne_nil _ _, h⟩

/-- Digits with a point among them, and zeros before them where they do not
reach up to it. -/
theorem isWhole_padded (n : Nat) (hplaces : 0 < places) :
    IsWhole ((List.replicate (places + 1 - (Text.ofNat n).length) Ascii.zero ++ Text.ofNat n).take
      ((List.replicate (places + 1 - (Text.ofNat n).length) Ascii.zero ++ Text.ofNat n).length -
        places)) := by
  have hdigits := Text.isDigit_ofNat n
  obtain ⟨first, rest, ht, hfirst⟩ := Text.ofNat_cons n
  by_cases hshort : (Text.ofNat n).length ≤ places
  · obtain ⟨k, hk⟩ : ∃ k, places + 1 - (Text.ofNat n).length = k + 1 :=
      ⟨places - (Text.ofNat n).length, by omega⟩
    have hone : (List.replicate (k + 1) Ascii.zero ++ Text.ofNat n).length - places = 1 := by
      rw [List.length_append, List.length_replicate]
      omega
    rw [hk, hone, List.replicate_succ, List.cons_append, List.take_succ_cons, List.take_zero]
    exact .zero
  · have hnone : places + 1 - (Text.ofNat n).length = 0 := by omega
    obtain ⟨k, hk⟩ : ∃ k, (Text.ofNat n).length - places = k + 1 :=
      ⟨(Text.ofNat n).length - places - 1, by omega⟩
    rw [hnone, List.replicate_zero, List.nil_append, hk]
    rw [ht] at hdigits hshort ⊢
    refine isWhole_cons (fun b hb => hdigits b (List.mem_of_mem_take (i := k + 1) hb))
      fun hzero => ?_
    obtain ⟨-, rfl⟩ := hfirst hzero
    exact hshort hplaces

theorem isNumber_toPositional (negative : Bool) (significand : Nat) (exponent : Int) :
    IsNumber (Binary64.toPositional (.finite negative significand exponent)) := by
  have hsign : (if negative then Text.ofString "-" else Text.ofString "") =
      if negative then [Ascii.minus] else [] := by
    cases negative <;> rfl
  unfold Binary64.toPositional
  simp only [hsign]
  split
  · exact isNumber_whole .zero .none negative
  split
  · simpa using isNumber_whole (isWhole_ofNat _) .none negative
  · rename_i hpower
    rw [List.append_assoc]
    refine isNumber_whole (isWhole_padded _ (by omega)) (isFraction_digits ?_) negative
    refine isDigit_trimRight fun b hb => ?_
    have hmem := List.mem_of_mem_drop hb
    rcases List.mem_append.mp hmem with hzero | hdigit
    · rw [List.eq_of_mem_replicate hzero]
      rfl
    · exact Text.isDigit_ofNat _ b hdigit

/-- One digit, further ones after a point, and a power of ten. -/
theorem isNumber_scaled (negative : Bool) (hdigits : digits ≠ 0) (scale : Int) :
    IsNumber ((if negative then [Ascii.minus] else []) ++
      (Text.trimRight Ascii.zero (Text.ofNat digits)).take 1 ++
      (if (Text.trimRight Ascii.zero (Text.ofNat digits)).length ≤ 1 then []
        else Ascii.dot :: (Text.trimRight Ascii.zero (Text.ofNat digits)).drop 1) ++
      (if scale < 0 then Text.ofString "e-" else Text.ofString "e+") ++
      List.replicate (2 - (Text.ofNat scale.natAbs).length) Ascii.zero ++
        Text.ofNat scale.natAbs) := by
  have hall := Text.isDigit_ofNat digits
  have hscale := Text.isDigit_ofNat scale.natAbs
  obtain ⟨first, rest, ht, hfirst⟩ := Text.ofNat_cons digits
  have hzero : first ≠ Ascii.zero := fun h => hdigits (hfirst h).1
  rw [ht] at hall ⊢
  obtain ⟨more, hmore, hstart⟩ := trimRight_cons hzero rest
  obtain ⟨hhead, hrest⟩ := List.forall_mem_cons.mp hall
  have hfraction : (if (first :: more).length ≤ 1 then [] else Ascii.dot :: more) =
      if more.isEmpty then [] else Ascii.dot :: more := by
    cases more <;> simp
  have hpower : IsExponent ((if scale < 0 then Text.ofString "e-" else Text.ofString "e+") ++
      (List.replicate (2 - (Text.ofNat scale.natAbs).length) Ascii.zero ++
        Text.ofNat scale.natAbs)) := by
    have hdigits : IsDigits (List.replicate (2 - (Text.ofNat scale.natAbs).length) Ascii.zero ++
        Text.ofNat scale.natAbs) := by
      refine ⟨by simp [Text.ofNat_ne_nil], fun b hb => ?_⟩
      rcases List.mem_append.mp hb with hb | hb
      · rw [List.eq_of_mem_replicate hb]
        rfl
      · exact hscale b hb
    split
    · exact .digits (.inl rfl) (.inr (.inr rfl)) hdigits
    · exact .digits (.inl rfl) (.inr (.inl rfl)) hdigits
  have hnumber := IsNumber.mk (signText_cases negative) (.digits hhead hzero (List.forall_mem_nil _))
    (isFraction_digits fun b hb => hrest b (hstart.subset hb)) hpower
  rw [hmore, List.take_succ_cons, List.take_zero, List.drop_succ_cons, List.drop_zero, hfraction]
  simpa using hnumber

theorem isNumber_realText? (h : Value.realText? x = some t) : IsNumber t := by
  unfold Value.realText? at h
  split at h
  · split at h
    next hne =>
      cases h
      exact isNumber_scaled _ (Binary64.shortest_ne_zero hne.1 _) _
    next =>
      cases h
      exact isNumber_toPositional _ _ _
  · cases h

end Json

end MeshConsole
