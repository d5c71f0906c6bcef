import MeshConsole.Numeral.Binary64
import MeshConsole.Text.Utf8

/-!
# Durations

A duration is a signed 64-bit count of nanoseconds; arithmetic on it wraps around. The module holds
the text of a duration (`1.2s`, `2m2s`, `768ms`) and the reading of one from a flag.
-/

namespace MeshConsole

/-- Nanoseconds. -/
abbrev Duration := Int64

namespace Duration

def millisecond : Duration := 1000000
def second : Duration := 1000000000
def minute : Duration := 60000000000

/-- A count of milliseconds, wrapping around outside the range. -/
def ofMillis (n : Int) : Duration := Int64.ofInt n * millisecond

/-- A count of seconds, wrapping around outside the range. -/
def ofSeconds (n : Int) : Duration := Int64.ofInt n * second

/-- The fraction `part / 10 ^ places` after the point, without trailing zeros. -/
def fractionText (places part : Nat) : Text :=
  if part = 0 then []
  else
    let digits := Text.ofNat part
    let padded := List.replicate (places - digits.length) Ascii.zero ++ digits
    Ascii.dot :: Text.trimRight Ascii.zero padded

/-- `n / 10 ^ places` with its fraction. -/
def decimalText (places n : Nat) : Text :=
  Text.ofNat (n / Nat.pow 10 places) ++ fractionText places (n % Nat.pow 10 places)

def magnitudeText (n : Nat) : Text :=
  if n = 0 then "0s"
  else if n < 1000 then Text.ofNat n ++ "ns"
  else if n < 1000000 then decimalText 3 n ++ "µs"
  else if n < 1000000000 then decimalText 6 n ++ "ms"
  else
    let seconds := n / 1000000000
    let minutes := seconds / 60
    let tail := Text.ofNat (seconds % 60) ++ fractionText 9 (n % 1000000000) ++ "s"
    if minutes = 0 then tail
    else if minutes / 60 = 0 then Text.ofNat minutes ++ "m" ++ tail
    else Text.ofNat (minutes / 60) ++ "h" ++ Text.ofNat (minutes % 60) ++ "m" ++ tail

/-- Below a second the largest unit that keeps a whole part, else hours, minutes and seconds, with
the fraction that is needed. -/
def text (d : Duration) : Text :=
  let n := d.toInt
  if n < 0 then Ascii.minus :: magnitudeText n.natAbs else magnitudeText n.natAbs

/-- Why a text is no duration. -/
inductive Refusal where
  | invalid
  | missingUnit
  | unknownUnit (name : Text)
  deriving Repr, DecidableEq

/-- A text between quotes: every byte outside plain ASCII as `\x` and two digits. -/
def quotedBytes (t : Text) : Text :=
  let one := fun b : UInt8 =>
    if b < 0x20 || 0x80 ≤ b then ("\\x" : Text) ++ Text.hexDigits 2 b.toNat
    else if b == Ascii.quote || b == Ascii.backslash then [Ascii.backslash, b]
    else [b]
  Ascii.quote :: (t.flatMap one ++ [Ascii.quote])

def Refusal.message (source : Text) : Refusal → Text
  | .invalid => ("time: invalid duration " : Text) ++ quotedBytes source
  | .missingUnit => ("time: missing unit in duration " : Text) ++ quotedBytes source
  | .unknownUnit name =>
    ("time: unknown unit " : Text) ++ quotedBytes name ++ " in duration " ++ quotedBytes source

def unit? (name : Text) : Option Nat :=
  if name == "ns" then some 1
  else if name == "us" || name == "µs" || name == "μs" then some 1000
  else if name == "ms" then some 1000000
  else if name == "s" then some 1000000000
  else if name == "m" then some 60000000000
  else if name == "h" then some 3600000000000
  else none

def halfRange : Nat := UInt64.size / 2

/-- The digits of a whole part; nothing when they exceed half the 64-bit range. -/
def wholePart? : Nat → Text → Option Nat
  | value, [] => some value
  | value, b :: rest =>
    let next := value * 10 + (b.toNat - 0x30)
    if halfRange / 10 < value || halfRange < next then none else wholePart? next rest

/-- The digits of a fraction and their number; digits beyond the range are ignored. -/
def fractionPart : Nat → Nat → Text → Nat × Nat
  | value, count, [] => (value, count)
  | value, count, b :: rest =>
    let next := value * 10 + (b.toNat - 0x30)
    if (halfRange - 1) / 10 < value || halfRange < next then (value, count)
    else fractionPart next (count + 1) rest

/-- The nanoseconds of a fraction: a product of two rounded numbers, cut to whole nanoseconds. -/
def fractionNanos (fraction count unit : Nat) : Nat :=
  let scaled := Binary64.div (.ofInt unit) (.ofInt (Nat.pow 10 count))
  match (Binary64.mul (.ofInt fraction) scaled).truncate? with
  | some n => n.toNat
  | none => 0

/-- Adds up the terms of a duration, each a decimal and a unit. -/
def readTerms : Nat → Nat → Text → Except Refusal Nat
  | 0, _, _ => .error .invalid
  | _ + 1, total, [] => .ok total
  | fuel + 1, total, first :: tail =>
    let text := first :: tail
    if !(first == Ascii.dot || Ascii.isDigit first) then .error .invalid
    else
      let (whole, rest) := text.span Ascii.isDigit
      match wholePart? 0 whole with
      | none => .error .invalid
      | some value =>
        let (decimals, rest) :=
          match rest with
          | Ascii.dot :: rest => rest.span Ascii.isDigit
          | rest => ([], rest)
        if whole.isEmpty && decimals.isEmpty then .error .invalid
        else
          let (name, rest) := rest.span fun b => !(b == Ascii.dot || Ascii.isDigit b)
          if name.isEmpty then .error .missingUnit
          else
            match unit? name with
            | none => .error (.unknownUnit name)
            | some unit =>
              if halfRange / unit < value then .error .invalid
              else
                let (fraction, count) := fractionPart 0 0 decimals
                let term :=
                  if fraction = 0 then value * unit
                  else value * unit + fractionNanos fraction count unit
                if halfRange < term || halfRange < total + term then .error .invalid
                else readTerms fuel (total + term) rest

/-- Reads an optional sign and terms such as `1h`, `2.5s` or `300ms`; a bare `0` needs no unit. -/
def read (source : Text) : Except Refusal Duration :=
  let (negative, text) :=
    match source with
    | Ascii.minus :: rest => (true, rest)
    | Ascii.plus :: rest => (false, rest)
    | rest => (false, rest)
  if text == "0" then .ok 0
  else if text.isEmpty then .error .invalid
  else
    match readTerms (text.length + 1) 0 text with
    | .error refusal => .error refusal
    | .ok total =>
      if negative then .ok (Int64.ofInt (-(total : Int)))
      else if halfRange - 1 < total then .error .invalid
      else .ok (Int64.ofInt total)

end Duration

end MeshConsole
