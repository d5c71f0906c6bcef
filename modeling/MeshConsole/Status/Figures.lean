import MeshConsole.Text.Basic
import MeshConsole.Table

/-!
# Figures of the status report

How counts and ages are written, and the order in which message kinds are listed.
-/

namespace MeshConsole.Status

/-- Digits from place `i` on of a numeral of `length` digits, with a comma before each at which
three, or six, or more threes are left. -/
def withCommas (length : Nat) : Nat → Text → Text
  | _, [] => []
  | i, digit :: rest =>
    let written := digit :: withCommas length (i + 1) rest
    if 0 < i && (length - i) % 3 == 0 then Ascii.comma :: written else written

/-- A count with a comma between groups of three digits. -/
def grouped (n : UInt64) : Text :=
  let digits := Text.ofNat n.toNat
  if digits.length ≤ 3 then digits else withCommas digits.length 0 digits

/-- Whole seconds as `45s`, `3m 12s` or `2h 5m`; an age below zero counts as zero. -/
def ageText (seconds : Int) : Text :=
  let n := seconds.toNat
  if n < 60 then Text.ofNat n ++ "s"
  else if n < 3600 then Text.ofNat (n / 60) ++ "m " ++ Text.ofNat (n % 60) ++ "s"
  else Text.ofNat (n / 3600) ++ "h " ++ Text.ofNat (n % 3600 / 60) ++ "m"

/-- The greater count stands first; equal counts stand in the byte order of their kinds. -/
def ranksBefore (a b : Text × UInt64) : Bool :=
  if a.2 = b.2 then Text.le a.1 b.1 else b.2 < a.2

def rankedKinds (kinds : Table Text UInt64) : List (Text × UInt64) := kinds.mergeSort ranksBefore

end MeshConsole.Status
