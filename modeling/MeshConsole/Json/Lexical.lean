import MeshConsole.Text.Utf8

/-!
# Bytes of JSON

What every reader of JSON here shares: blanks, escapes and surrogate pairs.
-/

namespace MeshConsole.Json

def isBlank (b : UInt8) : Bool :=
  b == Ascii.blank || b == Ascii.newline || b == Ascii.tab || b == Ascii.carriageReturn

def skipBlanks (t : Text) : Text := t.dropWhile isBlank

/-- The byte a one-letter escape stands for. -/
def simpleEscape? (b : UInt8) : Option UInt8 :=
  if b == Ascii.quote || b == Ascii.backslash || b == Ascii.slash then some b
  else if b == 0x62 then some 0x08
  else if b == 0x66 then some 0x0C
  else if b == 0x6E then some 0x0A
  else if b == 0x72 then some 0x0D
  else if b == 0x74 then some 0x09
  else none

/-- The number four hexadecimal digits write. -/
def hex4? (a b c d : UInt8) : Option Nat := do
  let w ← Ascii.hexValue? a
  let x ← Ascii.hexValue? b
  let y ← Ascii.hexValue? c
  let z ← Ascii.hexValue? d
  return ((w * 16 + x) * 16 + y) * 16 + z

def isSurrogate (code : Nat) : Bool := 0xD800 ≤ code && code ≤ 0xDFFF

/-- The code point of a high surrogate followed by a low one. -/
def pair? (high low : Nat) : Option Nat :=
  if 0xD800 ≤ high && high < 0xDC00 && 0xDC00 ≤ low && low ≤ 0xDFFF then
    some (0x10000 + (high - 0xD800) * 0x400 + (low - 0xDC00))
  else none

/-- The text of a string from what stands between its quotes. An escape that follows a lone high
surrogate is taken with it and both become U+FFFD; a control byte or a broken escape ends the
text. -/
def unescape (body : Text) : Text := go [] body
where
  go (done : Text) : Text → Text
    | [] => done.reverse
    | Ascii.backslash :: Ascii.lowerU :: a :: b :: c :: d :: Ascii.backslash :: Ascii.lowerU ::
        e :: f :: g :: h :: rest =>
      let code := (hex4? a b c d).getD 0
      if isSurrogate code then
        let joined := (pair? code ((hex4? e f g h).getD 0)).getD 0xFFFD
        go ((Text.encodeCode joined).reverse ++ done) rest
      else
        go ((Text.encodeCode code).reverse ++ done)
          (Ascii.backslash :: Ascii.lowerU :: e :: f :: g :: h :: rest)
    | Ascii.backslash :: Ascii.lowerU :: a :: b :: c :: d :: rest =>
      go ((Text.encodeCode ((hex4? a b c d).getD 0)).reverse ++ done) rest
    | Ascii.backslash :: letter :: rest =>
      match simpleEscape? letter with
      | some byte => go (byte :: done) rest
      | none => done.reverse
    | b :: rest =>
      if b == Ascii.backslash || b < Ascii.blank then done.reverse else go (b :: done) rest

end MeshConsole.Json
