import MeshConsole.Instant

/-!
# Elapsed time

A duration holds no more than some three hundred years, and `Instant.since`
keeps to the nearest one. Whoever asks whether as much as a duration has gone
by does not notice, and a later instant is never told a shorter time. Entries
in order of time are aged by dropping from the start.
-/

namespace MeshConsole

/-- The span is cut to what a duration can hold. -/
theorem Instant.toInt_since (later earlier : Int) :
    (Instant.since later earlier).toInt =
      max Int64.minValue.toInt (min Int64.maxValue.toInt (later - earlier)) := by
  have hlow : Int64.minValue.toInt = -9223372036854775808 := by decide
  have hhigh : Int64.maxValue.toInt = 9223372036854775807 := by decide
  simp only [since]
  split
  case isTrue hless =>
    have hless : later - earlier < Int64.minValue.toInt := hless
    omega
  case isFalse hfits =>
    have hfits : ¬ later - earlier < Int64.minValue.toInt := hfits
    split
    case isTrue hmore =>
      have hmore : Int64.maxValue.toInt < later - earlier := hmore
      omega
    case isFalse hmore =>
      have hmore : ¬ Int64.maxValue.toInt < later - earlier := hmore
      rw [Int64.toInt_ofInt_of_le] <;> omega

theorem Instant.le_since_iff {earlier later : Int} {d : Duration}
    (h : earlier ≤ later ∨ 0 < d.toInt) :
    d ≤ Instant.since later earlier ↔ d.toInt ≤ later - earlier := by
  have hlow : Int64.minValue.toInt = -9223372036854775808 := by decide
  have hmax : d.toInt ≤ Int64.maxValue.toInt := Int64.toInt_le d
  rw [Int64.le_iff_toInt_le, toInt_since]
  omega

theorem Instant.lt_since_iff {earlier later : Int} {d : Duration} (h : 0 < d.toInt)
    (hspan : later - earlier ≤ Int64.maxValue.toInt) :
    d < Instant.since later earlier ↔ d.toInt < later - earlier := by
  have hlow : Int64.minValue.toInt = -9223372036854775808 := by decide
  rw [Int64.lt_iff_toInt_lt, toInt_since]
  omega

theorem Instant.since_mono {earlier now later : Int} (h : now ≤ later) :
    Instant.since now earlier ≤ Instant.since later earlier := by
  rw [Int64.le_iff_toInt_le, toInt_since, toInt_since]
  omega

/-- Dropping from the start is enough when entries are in order of time. -/
theorem Instant.dropWhile_before {time : α → Int} {entries : List α}
    (h : entries.Pairwise (time · ≤ time ·)) (cutoff : Int) :
    entries.dropWhile (fun e => time e < cutoff) = entries.filter fun e => cutoff ≤ time e := by
  induction entries with
  | nil => rfl
  | cons e rest ih =>
    obtain ⟨hfirst, hrest⟩ := List.pairwise_cons.mp h
    by_cases he : time e < cutoff
    · have hold : ¬ cutoff ≤ time e := Int.not_le.mpr he
      simp [he, hold, ih hrest]
    · have hnew : cutoff ≤ time e := Int.not_lt.mp he
      have hall : ∀ later ∈ rest, decide (cutoff ≤ time later) = true :=
        fun later hlater => decide_eq_true (Int.le_trans hnew (hfirst later hlater))
      simp [he, hnew, List.filter_eq_self.mpr hall]

/-- A product that a duration can hold does not wrap. -/
theorem Duration.toInt_product {n : Int} {unit : Duration}
    (hleast : Int64.minValue.toInt ≤ n * unit.toInt)
    (hgreatest : n * unit.toInt ≤ Int64.maxValue.toInt) :
    (Int64.ofInt n * unit).toInt = n * unit.toInt := by
  rw [Int64.toInt_minValue] at hleast
  rw [Int64.toInt_maxValue] at hgreatest
  rw [Int64.toInt_mul, Int64.toInt_ofInt, Int64.size, Int.bmod_mul_bmod]
  exact Int.bmod_eq_of_le (by omega) (by omega)

/-- What is not positive gives way to a positive standard. -/
theorem Duration.orElse_pos {standard : Duration} (h : 0 < standard.toInt) (d : Duration) :
    0 < (if d ≤ 0 then standard else d).toInt := by
  split
  · exact h
  · exact Int64.lt_iff_toInt_lt.mp (Int64.not_le.mp ‹_›)

end MeshConsole
