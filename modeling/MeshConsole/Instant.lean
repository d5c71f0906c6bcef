import MeshConsole.Duration

/-!
# Instants

A point on the clock, in nanoseconds from the first of January 2000; instants may lie before it.
-/

namespace MeshConsole

/-- Nanoseconds from the first of January 2000, midnight. -/
abbrev Instant := Int

namespace Instant

def plus (t : Instant) (d : Duration) : Instant := t + d.toInt

def minus (t : Instant) (d : Duration) : Instant := t - d.toInt

/-- The time from `earlier` to `later`, the nearest duration when it does not fit one. -/
def since (later earlier : Instant) : Duration :=
  let elapsed := later - earlier
  if elapsed < Int64.minValue.toInt then Int64.minValue
  else if Int64.maxValue.toInt < elapsed then Int64.maxValue
  else Int64.ofInt elapsed

/-- Whole milliseconds from the start, rounded down. -/
def millis (t : Instant) : Int := t.fdiv 1000000

/-- Whole seconds from the start, rounded down. -/
def seconds (t : Instant) : Int := t.fdiv 1000000000

/-- Whole seconds from the first of January 1970. -/
def unixSeconds (t : Instant) : Int := t.seconds + 946684800

/-- The days of a year. -/
def daysOfYear (year : Nat) : Nat :=
  if year % 4 = 0 ∧ (year % 100 ≠ 0 ∨ year % 400 = 0) then 366 else 365

def daysOfMonths (year : Nat) : List Nat :=
  [31, daysOfYear year - 337, 31, 30, 31, 30, 31, 31, 30, 31, 30, 31]

/-- The year of a day that is counted from the first of `year`, and the day within it. -/
def yearOf : Nat → Nat → Nat → Nat × Nat
  | 0, year, day => (year, day)
  | fuel + 1, year, day =>
    if day < daysOfYear year then (year, day) else yearOf fuel (year + 1) (day - daysOfYear year)

def monthOf (month day : Nat) : List Nat → Nat × Nat
  | [] => (month, day)
  | days :: rest => if day < days then (month, day) else monthOf (month + 1) (day - days) rest

/-- Date and time of day as `2000/01/31 23:59:59`; an instant before the start counts as the
start. -/
def dateText (t : Instant) : Text :=
  let seconds := t.seconds.toNat
  let days := seconds / 86400
  let (year, dayOfYear) := yearOf days 2000 days
  let (month, day) := monthOf 1 dayOfYear (daysOfMonths year)
  Text.ofNat year ++ "/" ++ Text.twoDigits month ++ "/" ++ Text.twoDigits (day + 1) ++ " " ++
  Text.twoDigits (seconds % 86400 / 3600) ++ ":" ++ Text.twoDigits (seconds % 3600 / 60) ++ ":" ++
  Text.twoDigits (seconds % 60)

end Instant

end MeshConsole
