import MeshConsole.Numeral.Binary64

/-!
# Numerals with a fraction and an exponent

Reading `-12.5e3` and the like into an integer times a power of ten.
-/

namespace MeshConsole

/-- The number `digits * 10 ^ exponent`, negated if `negative`. -/
structure Scientific where
  negative : Bool
  digits : Nat
  exponent : Int
  deriving Repr, DecidableEq

namespace Scientific

/-- The value of a run of decimal digits. -/
def digitsValue (digits : Text) : Nat :=
  digits.foldl (fun n b => 10 * n + (b.toNat - 0x30)) 0

def readExponent? : Text → Option Int
  | [] => some 0
  | mark :: rest =>
    if mark == 0x65 || mark == 0x45 then
      let (negative, digits) :=
        match rest with
        | Ascii.minus :: digits => (true, digits)
        | Ascii.plus :: digits => (false, digits)
        | digits => (false, digits)
      if digits.isEmpty || !digits.all Ascii.isDigit then none
      else
        let value : Int := digitsValue digits
        some (if negative then -value else value)
    else none

/-- Reads an optional sign, digits with an optional point among, before or after them, and an
optional exponent; at least one digit stands before the exponent. -/
def read? (text : Text) : Option Scientific :=
  let (negative, text) :=
    match text with
    | Ascii.minus :: rest => (true, rest)
    | Ascii.plus :: rest => (false, rest)
    | rest => (false, rest)
  let (whole, text) := text.span Ascii.isDigit
  let (decimals, text) :=
    match text with
    | Ascii.dot :: rest => rest.span Ascii.isDigit
    | rest => ([], rest)
  if whole.isEmpty && decimals.isEmpty then none
  else do
    let exponent ← readExponent? text
    return {
      negative
      digits := digitsValue (whole ++ decimals)
      exponent := exponent - decimals.length }

def toBinary64 (s : Scientific) : Binary64 := .ofDecimal s.negative s.digits s.exponent

end Scientific

end MeshConsole
