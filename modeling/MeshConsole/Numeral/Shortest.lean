import MeshConsole.Numeral.Binary64

/-!
# Shortest decimal text

The text of a binary64 number with the fewest digits that read back as it, written without an
exponent.
-/

namespace MeshConsole.Binary64

/-- A positive rational as numerator and denominator. -/
abbrev Ratio := Nat × Nat

def Ratio.lt (a b : Ratio) : Bool := a.1 * b.2 < b.1 * a.2

/-- `significand * 2 ^ exponent` as a ratio. -/
def ratio (significand : Nat) (exponent : Int) : Ratio := fraction significand exponent

/-- The decimals that round to a number lie between two ends, which belong to them when the
significand is even. -/
structure Interval where
  low : Ratio
  high : Ratio
  closed : Bool

def Interval.contains (i : Interval) (x : Ratio) : Bool :=
  if i.closed then !Ratio.lt x i.low && !Ratio.lt i.high x
  else Ratio.lt i.low x && Ratio.lt x i.high

def interval (significand : Nat) (exponent : Int) : Interval where
  low :=
    if significand = Nat.pow 2 52 ∧ leastExponent < exponent then
      ratio (4 * significand - 1) (exponent - 2)
    else ratio (2 * significand - 1) (exponent - 1)
  high := ratio (2 * significand + 1) (exponent - 1)
  closed := significand % 2 == 0

def decimalRatio (digits : Nat) (exponent : Int) : Ratio :=
  if 0 ≤ exponent then (digits * Nat.pow 10 exponent.toNat, 1)
  else (digits, Nat.pow 10 (-exponent).toNat)

/-- The digits and the power of ten of the shortest decimal, trying `count` digits and more. -/
def search (value : Ratio) (inside : Interval) (top : Int) : Nat → Nat → Nat × Int
  | 0, count =>
    let exponent := top - count + 1
    let unit := decimalRatio 1 exponent
    (roundHalfEven (value.1 * unit.2) (value.2 * unit.1), exponent)
  | fuel + 1, count =>
    let exponent := top - count + 1
    let unit := decimalRatio 1 exponent
    let below := value.1 * unit.2 / (value.2 * unit.1)
    let nearest := roundHalfEven (value.1 * unit.2) (value.2 * unit.1)
    let other := if nearest = below then below + 1 else below
    if inside.contains (decimalRatio nearest exponent) then (nearest, exponent)
    else if inside.contains (decimalRatio other exponent) then (other, exponent)
    else search value inside top fuel (count + 1)

/-- The shortest decimal of a positive finite number, as digits times a power of ten. -/
def shortest (significand : Nat) (exponent : Int) : Nat × Int :=
  let value := ratio significand exponent
  let digits := fun n : Nat => ((Nat.toDigits 10 n).length : Int)
  let top := floorLog 10 (digits value.1 - digits value.2) value.1 value.2
  search value (interval significand exponent) top 16 1

/-- The shortest text in positional notation. -/
def toPositional : Binary64 → Text
  | .finite negative significand exponent =>
    let sign : Text := if negative then "-" else ""
    if significand = 0 then sign ++ "0"
    else
      let (digits, power) := shortest significand exponent
      if 0 ≤ power then sign ++ Text.ofNat (digits * Nat.pow 10 power.toNat)
      else
        let places := (-power).toNat
        let text := Text.ofNat digits
        let padded := List.replicate (places + 1 - text.length) Ascii.zero ++ text
        let whole := padded.take (padded.length - places)
        let decimals := Text.trimRight Ascii.zero (padded.drop (padded.length - places))
        sign ++ whole ++ (if decimals.isEmpty then [] else Ascii.dot :: decimals)
  | .infinite negative => if negative then "-Inf" else "+Inf"
  | .nan => "NaN"

end MeshConsole.Binary64
