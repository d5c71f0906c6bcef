/-!
# Byte text

Frames, device names and credentials reach the console as bytes and need not be UTF-8. Every text
of the library is therefore a list of bytes; string literals coerce to their UTF-8 bytes.
-/

namespace MeshConsole

/-- A text is its bytes. -/
abbrev Text := List UInt8

namespace Ascii

@[match_pattern] abbrev tab : UInt8 := 0x09
@[match_pattern] abbrev newline : UInt8 := 0x0A
@[match_pattern] abbrev carriageReturn : UInt8 := 0x0D
@[match_pattern] abbrev blank : UInt8 := 0x20
@[match_pattern] abbrev quote : UInt8 := 0x22
@[match_pattern] abbrev hash : UInt8 := 0x23
@[match_pattern] abbrev percent : UInt8 := 0x25
@[match_pattern] abbrev plus : UInt8 := 0x2B
@[match_pattern] abbrev comma : UInt8 := 0x2C
@[match_pattern] abbrev minus : UInt8 := 0x2D
@[match_pattern] abbrev dot : UInt8 := 0x2E
@[match_pattern] abbrev slash : UInt8 := 0x2F
@[match_pattern] abbrev zero : UInt8 := 0x30
@[match_pattern] abbrev colon : UInt8 := 0x3A
@[match_pattern] abbrev equals : UInt8 := 0x3D
@[match_pattern] abbrev question : UInt8 := 0x3F
@[match_pattern] abbrev atSign : UInt8 := 0x40
@[match_pattern] abbrev openBracket : UInt8 := 0x5B
@[match_pattern] abbrev backslash : UInt8 := 0x5C
@[match_pattern] abbrev closeBracket : UInt8 := 0x5D
@[match_pattern] abbrev underscore : UInt8 := 0x5F
@[match_pattern] abbrev lowerF : UInt8 := 0x66
@[match_pattern] abbrev lowerN : UInt8 := 0x6E
@[match_pattern] abbrev lowerT : UInt8 := 0x74
@[match_pattern] abbrev lowerU : UInt8 := 0x75
@[match_pattern] abbrev openBrace : UInt8 := 0x7B
@[match_pattern] abbrev closeBrace : UInt8 := 0x7D

def isDigit (b : UInt8) : Bool := 0x30 ≤ b && b ≤ 0x39

def isUpper (b : UInt8) : Bool := 0x41 ≤ b && b ≤ 0x5A

def isLower (b : UInt8) : Bool := 0x61 ≤ b && b ≤ 0x7A

def isLetter (b : UInt8) : Bool := isUpper b || isLower b

def toLower (b : UInt8) : UInt8 := if isUpper b then b + 0x20 else b

def toUpper (b : UInt8) : UInt8 := if isLower b then b - 0x20 else b

/-- The value of a hexadecimal digit. -/
def hexValue? (b : UInt8) : Option Nat :=
  if isDigit b then some (b.toNat - 0x30)
  else if 0x61 ≤ b && b ≤ 0x66 then some (b.toNat - 0x61 + 10)
  else if 0x41 ≤ b && b ≤ 0x46 then some (b.toNat - 0x41 + 10)
  else none

/-- The digit of a value below sixteen, in lower case. -/
def hexDigit (n : Nat) : UInt8 :=
  if n < 10 then (0x30 + n).toUInt8 else (0x61 + (n - 10)).toUInt8

end Ascii

namespace Text

/-- The UTF-8 bytes of a string. -/
def ofString (s : String) : Text := s.toUTF8.data.toList

instance : Coe String Text := ⟨ofString⟩

/-- The decimal numeral of a natural number. -/
def ofNat (n : Nat) : Text := (Nat.toDigits 10 n).map fun c => c.toNat.toUInt8

/-- The decimal numeral of an integer, a minus sign before a negative one. -/
def ofInt (i : Int) : Text :=
  if i < 0 then Ascii.minus :: ofNat i.natAbs else ofNat i.natAbs

/-- The decimal digits of `n`, at least two of them. -/
def twoDigits (n : Nat) : Text := if n < 10 then Ascii.zero :: ofNat n else ofNat n

/-- The `width` low hexadecimal digits of `n`, in lower case. -/
def hexDigits : Nat → Nat → Text
  | 0, _ => []
  | width + 1, n => hexDigits width (n / 16) ++ [Ascii.hexDigit (n % 16)]

def lowerAscii (t : Text) : Text := t.map Ascii.toLower

def upperAscii (t : Text) : Text := t.map Ascii.toUpper

/-- Two hexadecimal digits for each byte. -/
def toHex (t : Text) : Text := t.flatMap fun b => hexDigits 2 b.toNat

/-- Byte order, a proper beginning before what it begins. -/
def le : Text → Text → Bool
  | [], _ => true
  | _ :: _, [] => false
  | a :: s, b :: t => if a == b then le s t else a < b

/-- The text without the byte `b` at its start. -/
def trimLeft (b : UInt8) (t : Text) : Text := t.dropWhile (· == b)

/-- The text without the byte `b` at its end. -/
def trimRight (b : UInt8) (t : Text) : Text := (t.reverse.dropWhile (· == b)).reverse

/-- The text without the byte `b` at either end. -/
def trimByte (b : UInt8) (t : Text) : Text := trimRight b (trimLeft b t)

/-- What follows `start`, if the text starts with it. -/
def after? : Text → Text → Option Text
  | [], t => some t
  | _ :: _, [] => none
  | a :: start, b :: t => if a == b then after? start t else none

/-- `parts` with `separator` between neighbours. -/
def join (separator : Text) : List Text → Text
  | [] => []
  | [t] => t
  | t :: rest => t ++ separator ++ join separator rest

/-- The pieces between occurrences of the byte `b`; a text without it is one piece. -/
def splitOnByte (b : UInt8) (t : Text) : List Text :=
  let step := fun (c : UInt8) (pieces : Text × List Text) =>
    if c == b then ([], pieces.1 :: pieces.2) else (c :: pieces.1, pieces.2)
  let pieces := t.foldr step ([], [])
  pieces.1 :: pieces.2

/-- What stands before and after the first byte `b`. -/
def cut? (b : UInt8) (t : Text) : Option (Text × Text) :=
  match t.span (· != b) with
  | (_, []) => none
  | (before, _ :: after) => some (before, after)

/-- `t` written `n` times. -/
def times (t : Text) (n : Nat) : Text := (List.replicate n t).flatten

end Text

end MeshConsole
