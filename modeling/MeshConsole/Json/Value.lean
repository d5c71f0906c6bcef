import MeshConsole.Text.Utf8
import MeshConsole.Numeral.Shortest

/-!
# Writing JSON

The values the library writes, and their text: no blanks, the angle brackets and the ampersand as
escapes, and `\ufffd` for every byte that is not UTF-8. Members stand in the order given;
`Value.map` sorts them by key.
-/

namespace MeshConsole.Json

inductive Value where
  | null
  | bool (value : Bool)
  | int (value : Int)
  | real (value : Binary64)
  | text (value : Text)
  | list (items : List Value)
  | object (members : List (Text × Value))
  deriving Repr, Inhabited

/-- Keys with their values. -/
abbrev Members := List (Text × Value)

namespace Value

/-- An object whose members are sorted by key. -/
def map (members : Members) : Value :=
  .object (members.mergeSort fun a b => Text.le a.1 b.1)

def ofOption (write : α → Value) : Option α → Value
  | none => .null
  | some a => write a

/-- Magnitudes from the binary64 number next to one millionth on, and below `10 ^ 21`, are written
without an exponent. -/
def isPositional (magnitude : Binary64.Ratio) : Bool :=
  let least : Binary64.Ratio :=
    match Binary64.ofDecimal false 1 (-6) with
    | .finite _ significand exponent => Binary64.fraction significand exponent
    | _ => (1, Nat.pow 10 6)
  !Binary64.Ratio.lt magnitude least && Binary64.Ratio.lt magnitude (Nat.pow 10 21, 1)

/-- The text of a number; one beyond the finite range has none. -/
def realText? : Binary64 → Option Text
  | .finite negative significand exponent =>
    let x : Binary64 := .finite negative significand exponent
    if significand ≠ 0 ∧ !isPositional (Binary64.fraction significand exponent) then
      let (digits, power) := Binary64.shortest significand exponent
      let text := Text.trimRight Ascii.zero (Text.ofNat digits)
      let scale := power + ((Text.ofNat digits).length : Int) - 1
      let scaleDigits := Text.ofNat scale.natAbs
      some <| (if negative then [Ascii.minus] else []) ++ text.take 1 ++
        (if text.length ≤ 1 then [] else Ascii.dot :: text.drop 1) ++
        (if scale < 0 then ("e-" : Text) else "e+") ++
        List.replicate (2 - scaleDigits.length) Ascii.zero ++ scaleDigits
    else some x.toPositional
  | _ => none

def glyphText : Glyph → Text
  | .stray _ => "\\ufffd"
  | .scalar code bytes =>
    if code == 0x22 then "\\\""
    else if code == 0x5C then "\\\\"
    else if code == 0x0A then "\\n"
    else if code == 0x0D then "\\r"
    else if code == 0x09 then "\\t"
    else if code < 0x20 || code == 0x3C || code == 0x3E || code == 0x26 then
      ("\\u" : Text) ++ Text.hexDigits 4 code
    else if code == 0x2028 || code == 0x2029 then ("\\u" : Text) ++ Text.hexDigits 4 code
    else bytes

/-- A text between quotes. -/
def quotedText (t : Text) : Text :=
  Ascii.quote :: (t.glyphs.flatMap glyphText ++ [Ascii.quote])

mutual

/-- The text of a value; nothing when it holds a number that has none. -/
def render? : Value → Option Text
  | .null => some "null"
  | .bool true => some "true"
  | .bool false => some "false"
  | .int value => some (Text.ofInt value)
  | .real value => realText? value
  | .text value => some (quotedText value)
  | .list [] => some "[]"
  | .list (item :: rest) => do
    let head ← item.render?
    let tail ← renderItems? rest
    return Ascii.openBracket :: (head ++ tail ++ [Ascii.closeBracket])
  | .object [] => some [Ascii.openBrace, Ascii.closeBrace]
  | .object ((key, value) :: rest) => do
    let head ← value.render?
    let tail ← renderMembers? rest
    return Ascii.openBrace :: (quotedText key ++ Ascii.colon :: head ++ tail ++ [Ascii.closeBrace])

/-- Each item after a comma. -/
def renderItems? : List Value → Option Text
  | [] => some []
  | item :: rest => do
    let head ← item.render?
    let tail ← renderItems? rest
    return Ascii.comma :: (head ++ tail)

/-- Each member after a comma. -/
def renderMembers? : List (Text × Value) → Option Text
  | [] => some []
  | (key, value) :: rest => do
    let head ← value.render?
    let tail ← renderMembers? rest
    return Ascii.comma :: (quotedText key ++ Ascii.colon :: head ++ tail)

end

/-- The text of a value that holds no number beyond the finite range. -/
def render (v : Value) : Text := v.render?.getD []

end Value

end MeshConsole.Json
