import MeshConsole.Text.Basic

/-!
# Percent escapes

Which bytes a part of a URL shows as they are, and the escapes for the others.
-/

namespace MeshConsole.Url

/-- The parts of a URL, each with its own set of bytes that stand for themselves. -/
inductive Part where
  | path
  | host
  | zone
  | user
  | fragment
  deriving Repr, DecidableEq

def among (bytes : String) (b : UInt8) : Bool := (Text.ofString bytes).contains b

def isAlphanumeric (b : UInt8) : Bool := Ascii.isLetter b || Ascii.isDigit b

/-- Whether a byte of this part has to be escaped. -/
def mustEscape (part : Part) (b : UInt8) : Bool :=
  if isAlphanumeric b || among "-_.~" b then false
  else
    match part with
    | .path => !among "$&+,/:;=@" b
    | .host => !among "!$&'()*+,;=:[]<>\"" b
    | .zone => !among "!$&'()*+,;=:[]<>\"" b
    | .user => !among "$&+,;=" b
    | .fragment => !among "$&+,/:;=?@!()*" b

/-- `%` and two hexadecimal digits in upper case. -/
def percentByte (b : UInt8) : Text := Ascii.percent :: Text.upperAscii (Text.hexDigits 2 b.toNat)

def escape (part : Part) (t : Text) : Text :=
  t.flatMap fun b => if mustEscape part b then percentByte b else [b]

/-- A host may escape only bytes beyond ASCII and the percent sign; a zone also what a host may
show, and the blank. -/
def mayBeEscaped (part : Part) (value : Nat) : Bool :=
  match part with
  | .host => 0x80 ≤ value || value == 0x25
  | .zone => value == 0x25 || value == 0x20 || !mustEscape .host value.toUInt8
  | _ => true

/-- The text an escaped part stands for; nothing for a broken escape, or for a byte that a host may
not hold. -/
def unescape? (part : Part) : Text → Option Text
  | [] => some []
  | Ascii.percent :: a :: b :: rest =>
    match Ascii.hexValue? a, Ascii.hexValue? b with
    | some high, some low =>
      let value := high * 16 + low
      if mayBeEscaped part value then (unescape? part rest).map (value.toUInt8 :: ·) else none
    | _, _ => none
  | b :: rest =>
    if b == Ascii.percent then none
    else if (part == .host || part == .zone) && b < 0x80 && mustEscape part b then none
    else (unescape? part rest).map (b :: ·)

/-- Whether a part is written so that unescaping and showing it again loses nothing: the bytes that
other writers leave alone are let pass too. -/
def isWellEscaped (part : Part) (t : Text) : Bool :=
  t.all fun b => among "!$&'()*+,;=:@[]%" b || !mustEscape part b

end MeshConsole.Url
