import MeshConsole.Text.Basic

/-!
# Binary64 numbers

A number is a sign, a significand below `2 ^ 53` and a power of two, or lies outside the finite
range. Every operation is the exact rational result rounded once to the nearest number, a tie going
to the even significand.
-/

namespace MeshConsole

inductive Binary64 where
  | finite (negative : Bool) (significand : Nat) (exponent : Int)
  | infinite (negative : Bool)
  | nan
  deriving Repr, DecidableEq

namespace Binary64

/-- The natural number nearest to `numerator / denominator`, a tie going to the even one. -/
def roundHalfEven (numerator denominator : Nat) : Nat :=
  let quotient := numerator / denominator
  let rest := 2 * (numerator % denominator)
  if rest < denominator then quotient
  else if denominator < rest then quotient + 1
  else quotient + quotient % 2

/-- The greatest `e` with `base ^ e ≤ numerator / denominator`, from an estimate that is at most
one too high. -/
def floorLog (base : Nat) (estimate : Int) (numerator denominator : Nat) : Int :=
  let reached :=
    if 0 ≤ estimate then denominator * base.pow estimate.toNat ≤ numerator
    else denominator ≤ numerator * base.pow (-estimate).toNat
  if reached then estimate else estimate - 1

def leastExponent : Int := -1074

def greatestExponent : Int := 971

def zero (negative : Bool) : Binary64 := .finite negative 0 leastExponent

/-- The number nearest to `numerator / denominator`. -/
def ofFraction (negative : Bool) (numerator denominator : Nat) : Binary64 :=
  if numerator = 0 then zero negative
  else
    let estimate : Int := (numerator.log2 : Int) - denominator.log2
    let top := floorLog 2 estimate numerator denominator
    let exponent := max (top - 52) leastExponent
    let significand :=
      if 0 ≤ exponent then roundHalfEven numerator (denominator * Nat.pow 2 exponent.toNat)
      else roundHalfEven (numerator * Nat.pow 2 (-exponent).toNat) denominator
    let (significand, exponent) :=
      if significand = Nat.pow 2 53 then (Nat.pow 2 52, exponent + 1) else (significand, exponent)
    if greatestExponent < exponent then .infinite negative
    else .finite negative significand exponent

def ofInt (i : Int) : Binary64 := ofFraction (decide (i < 0)) i.natAbs 1

/-- The number nearest to `digits * 10 ^ exponent`. Powers far outside the range are settled
without being computed. -/
def ofDecimal (negative : Bool) (digits : Nat) (exponent : Int) : Binary64 :=
  if digits = 0 then zero negative
  else
    let magnitude := exponent + ((Nat.toDigits 10 digits).length : Int)
    if 320 < magnitude then .infinite negative
    else if magnitude < -340 then zero negative
    else if 0 ≤ exponent then ofFraction negative (digits * Nat.pow 10 exponent.toNat) 1
    else ofFraction negative digits (Nat.pow 10 (-exponent).toNat)

/-- Numerator and denominator of the magnitude of `significand * 2 ^ exponent`. -/
def fraction (significand : Nat) (exponent : Int) : Nat × Nat :=
  if 0 ≤ exponent then (significand * Nat.pow 2 exponent.toNat, 1)
  else (significand, Nat.pow 2 (-exponent).toNat)

/-- The greatest integer not above the magnitude, with the sign kept; nothing beyond the finite
range. -/
def truncate? : Binary64 → Option Int
  | .finite negative significand exponent =>
    let (n, d) := fraction significand exponent
    let whole : Int := (n / d : Nat)
    some (if negative then -whole else whole)
  | _ => none

/-- Zero counts as not negative, whatever its sign. -/
def isAtLeastZero : Binary64 → Bool
  | .finite negative significand _ => !negative || significand == 0
  | .infinite negative => !negative
  | .nan => false

def mul : Binary64 → Binary64 → Binary64
  | .finite s m e, .finite t n f =>
    let (a, b) := fraction m e
    let (c, d) := fraction n f
    ofFraction (s != t) (a * c) (b * d)
  | .finite s m _, .infinite t => if m = 0 then .nan else .infinite (s != t)
  | .infinite s, .finite t n _ => if n = 0 then .nan else .infinite (s != t)
  | .infinite s, .infinite t => .infinite (s != t)
  | _, _ => .nan

def div : Binary64 → Binary64 → Binary64
  | .finite s m e, .finite t n f =>
    let (a, b) := fraction m e
    let (c, d) := fraction n f
    if n = 0 then (if m = 0 then .nan else .infinite (s != t))
    else ofFraction (s != t) (a * d) (b * c)
  | .finite s _ _, .infinite t => zero (s != t)
  | .infinite s, .finite t _ _ => .infinite (s != t)
  | _, _ => .nan

/-- The sum of two numbers neither of which is negative. -/
def addMagnitudes : Binary64 → Binary64 → Binary64
  | .finite _ m e, .finite _ n f =>
    let (a, b) := fraction m e
    let (c, d) := fraction n f
    ofFraction false (a * d + c * b) (b * d)
  | .nan, _ => .nan
  | _, .nan => .nan
  | _, _ => .infinite false

/-- The decimal text with exactly `places` digits after the point, a tie going to the even
neighbour. -/
def toFixed (places : Nat) : Binary64 → Text
  | .finite negative significand exponent =>
    let (n, d) := fraction significand exponent
    let scaled := roundHalfEven (n * Nat.pow 10 places) d
    let digits := Text.ofNat scaled
    let padded := List.replicate (places + 1 - digits.length) Ascii.zero ++ digits
    let whole := padded.take (padded.length - places)
    let decimals := padded.drop (padded.length - places)
    (if negative then [Ascii.minus] else []) ++ whole ++
      (if places = 0 then [] else Ascii.dot :: decimals)
  | .infinite negative => if negative then "-Inf" else "+Inf"
  | .nan => "NaN"

end Binary64

end MeshConsole
