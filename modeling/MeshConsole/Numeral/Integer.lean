import MeshConsole.Text.Basic

/-!
# Integer and truth-value texts

What environment variables, settings files and command-line flags may write for an integer or a
truth value.
-/

namespace MeshConsole.Numeral

/-- Why a text is no integer of the wanted width. -/
inductive Refusal where
  | syntaxError
  | outOfRange
  deriving Repr, DecidableEq

def Refusal.message : Refusal → Text
  | .syntaxError => "invalid syntax"
  | .outOfRange => "value out of range"

/-- A letter in either case counts as a digit above nine. -/
def digitValue? (b : UInt8) : Option Nat :=
  let lower := b ||| 0x20
  if Ascii.isDigit b then some (b.toNat - 0x30)
  else if Ascii.isLower lower then some (lower.toNat - 0x61 + 10)
  else none

/-- Reads digits from the left; the first fault met is the one reported. -/
def readDigits (base limit : Nat) (grouped : Bool) : Nat → Text → Except Refusal Nat
  | value, [] => .ok value
  | value, b :: rest =>
    if b == Ascii.underscore && grouped then readDigits base limit grouped value rest
    else
      match digitValue? b with
      | none => .error .syntaxError
      | some digit =>
        if base ≤ digit then .error .syntaxError
        else if limit < value * base + digit then .error .outOfRange
        else readDigits base limit grouped (value * base + digit) rest

/-- Splits a base prefix off: `0x`, `0o` and `0b` with a digit after them, else a leading zero for
base eight. -/
def splitBase : Text → Nat × Text
  | Ascii.zero :: mark :: rest =>
    let lower := mark ||| 0x20
    if lower == 0x62 && !rest.isEmpty then (2, rest)
    else if lower == 0x6F && !rest.isEmpty then (8, rest)
    else if lower == 0x78 && !rest.isEmpty then (16, rest)
    else (8, mark :: rest)
  | Ascii.zero :: rest => (8, rest)
  | text => (10, text)

/-- What stands before a byte: nothing or a stray character, a digit, an underscore. -/
inductive Before where
  | none
  | digit
  | underscore
  deriving DecidableEq

def groupedFrom (hex : Bool) : Before → Text → Bool
  | before, [] => before != .underscore
  | before, b :: rest =>
    let lower := b ||| 0x20
    if Ascii.isDigit b || (hex && 0x61 ≤ lower && lower ≤ 0x66) then groupedFrom hex .digit rest
    else if b == Ascii.underscore then before == .digit && groupedFrom hex .underscore rest
    else before != .underscore && groupedFrom hex .none rest

/-- Underscores stand only between digits or right after a base prefix. -/
def wellGrouped : Text → Bool
  | Ascii.zero :: mark :: rest =>
    let lower := mark ||| 0x20
    if lower == 0x62 || lower == 0x6F || lower == 0x78 then
      groupedFrom (lower == 0x78) .digit rest
    else groupedFrom false .none (Ascii.zero :: mark :: rest)
  | text => groupedFrom false .none text

/-- Reads a natural number of at most `limit` whose prefix tells its base. -/
def readPrefixed (limit : Nat) (text : Text) : Except Refusal Nat :=
  if text.isEmpty then .error .syntaxError
  else
    let (base, digits) := splitBase text
    match readDigits base limit true 0 digits with
    | .error refusal => .error refusal
    | .ok value =>
      if text.contains Ascii.underscore && !wellGrouped text then .error .syntaxError
      else .ok value

/-- Reads a natural number of at most `limit` in a given base. -/
def readBase (base limit : Nat) (text : Text) : Except Refusal Nat :=
  if text.isEmpty then .error .syntaxError else readDigits base limit false 0 text

/-- Reads a natural number of at most `limit` in base ten. -/
def readDecimal (limit : Nat) (text : Text) : Except Refusal Nat := readBase 10 limit text

def halfWord : Nat := UInt64.size / 2

def maxWord : Nat := UInt64.size - 1

/-- Reads an optional sign and a magnitude into 64 signed bits. -/
def readSigned (magnitude : Text → Except Refusal Nat) (text : Text) : Except Refusal Int :=
  let signed := fun (negative : Bool) (digits : Text) =>
    match magnitude digits with
    | .error refusal => .error refusal
    | .ok value =>
      if negative then
        if halfWord < value then .error .outOfRange else .ok (-(value : Int))
      else if halfWord ≤ value then .error .outOfRange
      else .ok (value : Int)
  match text with
  | Ascii.minus :: digits => signed true digits
  | Ascii.plus :: digits => signed false digits
  | digits => signed false digits

/-- A signed 64-bit integer whose prefix tells its base. -/
def readPrefixedInt (text : Text) : Except Refusal Int := readSigned (readPrefixed maxWord) text

/-- A signed 64-bit integer in base ten. -/
def readInt (text : Text) : Except Refusal Int := readSigned (readDecimal maxWord) text

/-- The six spellings of each truth value. -/
def readBool? (text : Text) : Option Bool :=
  if (["1", "t", "T", "TRUE", "true", "True"] : List Text).contains text then some true
  else if (["0", "f", "F", "FALSE", "false", "False"] : List Text).contains text then some false
  else none

end MeshConsole.Numeral
