import Mathlib.Algebra.Order.Ring.Int
import Mathlib.Tactic.Ring
import Mathlib.Tactic.Linarith
import MeshConsole.Push.Backoff

/-!
# The exact wait of an attempt

`capped_iff_reaches`: for a positive base up to the cap, every attempt waits
for exactly `min (base * 2 ^ attempt) cap`, computed without bounds, if and
only if one of the products past the base lies between the cap and the end
of the 64-bit range. Where none does, the doubling steps over the cap and
wraps around, and some attempt has a negative wait.
-/

namespace MeshConsole.Push

/-- The first number past the durations. -/
def durationLimit : Int := 2 ^ 63

/-- What the waits between attempts are meant to be. -/
structure Capped (base cap : Duration) : Prop where
  exact : ∀ attempt : Int, 0 ≤ attempt →
    (backoff base cap attempt).toInt = min (base.toInt * 2 ^ attempt.toNat) cap.toInt
  within : ∀ attempt : Int, 0 ≤ attempt →
    base ≤ backoff base cap attempt ∧ backoff base cap attempt ≤ cap
  monotone : ∀ attempt later : Int, 0 ≤ attempt → attempt ≤ later →
    backoff base cap attempt ≤ backoff base cap later

/-- Some doubling of the base meets the cap before 64 bits end. -/
def Reaches (base cap : Duration) : Prop :=
  ∃ k : Nat, cap.toInt ≤ base.toInt * 2 ^ (k + 1) ∧ base.toInt * 2 ^ (k + 1) < durationLimit

-- ---------------------------------------------------------------------------
-- One doubling
-- ---------------------------------------------------------------------------

section
variable {base cap delay : Duration}

theorem toInt_lt_limit (d : Duration) : d.toInt < durationLimit := by
  simpa [durationLimit] using d.toInt_lt

theorem toInt_double (hpos : 0 < delay.toInt) (h : delay.toInt * 2 < durationLimit) :
    (delay * 2).toInt = delay.toInt * 2 := by
  unfold durationLimit at h
  rw [Int64.toInt_mul]
  exact Int.bmod_eq_of_le (by simp; omega) (by simp; omega)

/-- A delay that leaves the range comes back on its negative side. -/
theorem toInt_double_wrapped (h : durationLimit ≤ delay.toInt * 2) :
    (delay * 2).toInt = delay.toInt * 2 - 2 ^ 64 := by
  have hlt := toInt_lt_limit delay
  unfold durationLimit at h hlt
  rw [Int64.toInt_mul]
  show (delay.toInt * 2).bmod (2 ^ 64) = _
  rw [Int.bmod_def]
  omega

theorem Reaches.double_lt (hpos : 0 < delay.toInt) (h : Reaches delay cap) :
    delay.toInt * 2 < durationLimit := by
  obtain ⟨k, -, hlt⟩ := h
  have hpow : (1 : Int) ≤ 2 ^ k := one_le_pow₀ (by norm_num)
  have hle : delay.toInt * 2 ≤ delay.toInt * 2 ^ (k + 1) := by
    rw [pow_succ']
    nlinarith
  exact lt_of_le_of_lt hle hlt

/-- While the cap is not met, what reaches it still does after a doubling. -/
theorem Reaches.next (h : Reaches delay cap) (hdouble : (delay * 2).toInt = delay.toInt * 2)
    (hbelow : delay.toInt * 2 < cap.toInt) : Reaches (delay * 2) cap := by
  obtain ⟨k, hmeet, hlt⟩ := h
  cases k with
  | zero =>
    rw [zero_add, pow_one] at hmeet
    exact absurd hmeet (not_le.mpr hbelow)
  | succ k =>
    refine ⟨k, ?_⟩
    have hshift : (delay * 2).toInt * 2 ^ (k + 1) = delay.toInt * 2 ^ (k + 1 + 1) := by
      rw [hdouble]; ring
    rw [hshift]
    exact ⟨hmeet, hlt⟩

-- ---------------------------------------------------------------------------
-- The whole loop
-- ---------------------------------------------------------------------------

theorem doubled_exact (n : Nat) (hpos : 0 < delay.toInt) (hle : delay.toInt ≤ cap.toInt)
    (hreach : Reaches delay cap) :
    (doubled cap n delay).toInt = min (delay.toInt * 2 ^ n) cap.toInt := by
  induction n generalizing delay with
  | zero =>
    have hnot : ¬ cap < delay := by
      rw [Int64.lt_iff_toInt_lt]
      exact not_lt.mpr hle
    rw [doubled, if_neg hnot, pow_zero, mul_one, min_eq_left hle]
  | succ n ih =>
    have hdouble := toInt_double hpos (hreach.double_lt hpos)
    rw [doubled]
    by_cases hmeet : cap ≤ delay * 2
    · have hcap : cap.toInt ≤ delay.toInt * 2 := by
        rwa [Int64.le_iff_toInt_le, hdouble] at hmeet
      have hpow : (1 : Int) ≤ 2 ^ n := one_le_pow₀ (by norm_num)
      have hfar : cap.toInt ≤ delay.toInt * 2 ^ (n + 1) := by
        rw [pow_succ']
        nlinarith
      rw [if_pos hmeet, min_eq_right hfar]
    · have hbelow : delay.toInt * 2 < cap.toInt := by
        rwa [Int64.le_iff_toInt_le, hdouble, not_le] at hmeet
      rw [if_neg hmeet, ih (by omega) (by omega) (hreach.next hdouble hbelow), hdouble]
      ring_nf

/-- The last of `n + 1` doublings leaves the range, and none before it meets
the cap. -/
theorem doubled_wraps (n : Nat) (hpos : 0 < delay.toInt)
    (hbelow : ∀ j, 1 ≤ j → j ≤ n → delay.toInt * 2 ^ j < cap.toInt)
    (hout : durationLimit ≤ delay.toInt * 2 ^ (n + 1))
    (hin : delay.toInt * 2 ^ n < durationLimit) (hcap : 0 < cap.toInt) :
    (doubled cap (n + 1) delay).toInt = delay.toInt * 2 ^ (n + 1) - 2 ^ 64 := by
  induction n generalizing delay with
  | zero =>
    rw [zero_add, pow_one] at hout
    have hwrap := toInt_double_wrapped hout
    have hneg : (delay * 2).toInt < 0 := by
      have := toInt_lt_limit delay
      unfold durationLimit at this
      omega
    have hmeet : ¬ cap ≤ delay * 2 := by
      rw [Int64.le_iff_toInt_le]
      omega
    have hnot : ¬ cap < delay * 2 := by
      rw [Int64.lt_iff_toInt_lt]
      omega
    simp only [doubled, if_neg hmeet, if_neg hnot, zero_add, pow_one, hwrap]
  | succ n ih =>
    have hone : delay.toInt * 2 < cap.toInt := by
      simpa using hbelow 1 le_rfl (by omega)
    have hdouble := toInt_double hpos (lt_trans hone (toInt_lt_limit cap))
    have hshift : ∀ j, (delay * 2).toInt * 2 ^ j = delay.toInt * 2 ^ (j + 1) := by
      intro j
      rw [hdouble]; ring
    have hmeet : ¬ cap ≤ delay * 2 := by
      rw [Int64.le_iff_toInt_le, hdouble]
      exact not_le.mpr hone
    rw [doubled, if_neg hmeet, ih (by omega) ?_ ?_ ?_, hshift]
    · intro j hj hjn
      rw [hshift]
      exact hbelow (j + 1) (by omega) (by omega)
    · rwa [hshift]
    · rwa [hshift]

-- ---------------------------------------------------------------------------
-- Attempts
-- ---------------------------------------------------------------------------

theorem pow_maxDoublings_gt (hpos : 0 < base.toInt) {n : Nat} (h : maxDoublings ≤ n) :
    cap.toInt < base.toInt * 2 ^ n := by
  have hcap := toInt_lt_limit cap
  have hpow : (2 : Int) ^ 64 ≤ 2 ^ n := pow_le_pow_right₀ (by norm_num) h
  unfold durationLimit at hcap
  nlinarith

theorem backoff_exact (hpos : 0 < base.toInt) (hle : base.toInt ≤ cap.toInt)
    (hreach : Reaches base cap) (attempt : Int) :
    (backoff base cap attempt).toInt = min (base.toInt * 2 ^ attempt.toNat) cap.toInt := by
  rw [backoff, doubled_exact _ hpos hle hreach]
  rcases le_total attempt.toNat maxDoublings with hfew | hmany
  · rw [min_eq_left hfew]
  · rw [min_eq_right hmany, min_eq_right (pow_maxDoublings_gt hpos le_rfl).le,
      min_eq_right (pow_maxDoublings_gt hpos hmany).le]

theorem Capped.of_exact (hpos : 0 < base.toInt) (hle : base.toInt ≤ cap.toInt)
    (h : ∀ attempt : Int, 0 ≤ attempt →
      (backoff base cap attempt).toInt = min (base.toInt * 2 ^ attempt.toNat) cap.toInt) :
    Capped base cap where
  exact := h
  within attempt hattempt := by
    have hpow : (1 : Int) ≤ 2 ^ attempt.toNat := one_le_pow₀ (by norm_num)
    rw [Int64.le_iff_toInt_le, Int64.le_iff_toInt_le, h attempt hattempt]
    exact ⟨le_min (by nlinarith) hle, min_le_right _ _⟩
  monotone attempt later hattempt hlater := by
    have hpow : (2 : Int) ^ attempt.toNat ≤ 2 ^ later.toNat :=
      pow_le_pow_right₀ (by norm_num) (Int.toNat_le_toNat hlater)
    rw [Int64.le_iff_toInt_le, h attempt hattempt, h later (by omega)]
    exact min_le_min_right _ (mul_le_mul_of_nonneg_left hpow hpos.le)

/-- Where no doubling meets the cap in time, an attempt has a negative wait. -/
theorem exists_negative (hpos : 0 < base.toInt) (hle : base.toInt ≤ cap.toInt)
    (h : ¬ Reaches base cap) : ∃ attempt : Int, 0 ≤ attempt ∧ backoff base cap attempt < 0 := by
  -- The first product past the base that is at least the cap is the one that wraps.
  have hex : ∃ k : Nat, cap.toInt ≤ base.toInt * 2 ^ (k + 1) :=
    ⟨maxDoublings, (pow_maxDoublings_gt hpos (by omega)).le⟩
  obtain ⟨k, hmeet, hfirst⟩ : ∃ k : Nat, cap.toInt ≤ base.toInt * 2 ^ (k + 1) ∧
      ∀ j < k, ¬ cap.toInt ≤ base.toInt * 2 ^ (j + 1) :=
    ⟨Nat.find hex, Nat.find_spec hex, fun j hj => Nat.find_min hex hj⟩
  have hout : durationLimit ≤ base.toInt * 2 ^ (k + 1) :=
    not_lt.mp fun hlt => h ⟨k, hmeet, hlt⟩
  have hbelow : ∀ j, 1 ≤ j → j ≤ k → base.toInt * 2 ^ j < cap.toInt := by
    intro j hj hjk
    obtain ⟨i, rfl⟩ : ∃ i, j = i + 1 := ⟨j - 1, by omega⟩
    exact not_le.mp (hfirst i (by omega))
  have hin : base.toInt * 2 ^ k < durationLimit := by
    rcases Nat.eq_zero_or_pos k with rfl | hk
    · simpa using toInt_lt_limit base
    · exact lt_trans (hbelow k hk le_rfl) (toInt_lt_limit cap)
  have hfew : k + 1 ≤ maxDoublings := by
    by_contra hmany
    have hgt : cap.toInt < base.toInt * 2 ^ k := pow_maxDoublings_gt hpos (by omega)
    exact absurd (hbelow k (by unfold maxDoublings at hmany; omega) le_rfl) (not_lt.mpr hgt.le)
  refine ⟨(k + 1 : Nat), by omega, ?_⟩
  have hwrap := doubled_wraps k hpos hbelow hout hin (by omega)
  rw [Int64.lt_iff_toInt_lt, backoff, Int.toNat_natCast, min_eq_left hfew, hwrap, pow_succ,
    ← mul_assoc]
  unfold durationLimit at hin
  show _ < (0 : Int)
  omega

end

/-- The wait of every attempt is the exact one exactly when the cap is met
within 64 bits, and a connection whose cap is not may wait for a negative
time, that is not at all. -/
theorem capped_iff_reaches (base cap : Duration) (hpos : 0 < base) (hle : base ≤ cap) :
    (Capped base cap ↔ Reaches base cap) ∧
    (¬ Reaches base cap → ∃ attempt : Int, 0 ≤ attempt ∧ backoff base cap attempt < 0) := by
  rw [Int64.lt_iff_toInt_lt] at hpos
  rw [Int64.le_iff_toInt_le] at hle
  refine ⟨⟨fun hcapped => ?_, fun hreach => ?_⟩, exists_negative hpos hle⟩
  · by_contra hnot
    obtain ⟨attempt, hattempt, hneg⟩ := exists_negative hpos hle hnot
    have hbase := (hcapped.within attempt hattempt).1
    rw [Int64.le_iff_toInt_le] at hbase
    rw [Int64.lt_iff_toInt_lt] at hneg
    exact absurd (lt_of_lt_of_le hpos hbase) (not_lt.mpr hneg.le)
  · exact .of_exact hpos hle fun attempt _ => backoff_exact hpos hle hreach attempt

/-- One second up to ten: the fourth doubling meets the cap. -/
theorem capped_standard :
    (0 < Duration.second ∧ Duration.second ≤ 10 * Duration.second ∧
      Reaches Duration.second (10 * Duration.second)) ∧
    Capped Duration.second (10 * Duration.second) := by
  have hreach : Reaches Duration.second (10 * Duration.second) := ⟨3, by decide⟩
  exact ⟨⟨by decide, by decide, hreach⟩,
    (capped_iff_reaches Duration.second (10 * Duration.second) (by decide) (by decide)).1.mpr hreach⟩

/-- A base of 104 days under the greatest cap of whole milliseconds: the tenth
doubling leaves the range. -/
theorem wraps_at_ten :
    let base : Duration := 9007199255000000
    let cap : Duration := 9223372036854000000
    0 < base ∧ base ≤ cap ∧ (backoff base cap 10).toInt = -9223372036589551616 ∧
      min (base.toInt * 2 ^ 10) cap.toInt = 9223372036854000000 ∧ ¬ Capped base cap := by
  refine ⟨by decide, by decide, by decide, by decide, fun h => ?_⟩
  have hten := h.exact 10 (by decide)
  exact absurd hten (by decide)

end MeshConsole.Push
