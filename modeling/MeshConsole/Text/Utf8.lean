import MeshConsole.Text.Basic

/-!
# Reading text as code points

A text is cut into glyphs: the encoded scalar values, and the bytes that belong to none. A stray
byte is a glyph of its own, so cutting loses nothing.
-/

namespace MeshConsole

inductive Glyph where
  | scalar (code : Nat) (bytes : Text)
  | stray (byte : UInt8)
  deriving Repr, DecidableEq

namespace Glyph

def bytes : Glyph → Text
  | .scalar _ bytes => bytes
  | .stray byte => [byte]

def isScalar : Glyph → Bool
  | .scalar .. => true
  | .stray _ => false

/-- The code point a glyph counts as; a stray byte counts as U+FFFD. -/
def code : Glyph → Nat
  | .scalar code _ => code
  | .stray _ => 0xFFFD

end Glyph

namespace Text

def isTail (b : UInt8) : Bool := 0x80 ≤ b && b ≤ 0xBF

def bits (b : UInt8) (mask : Nat) : Nat := b.toNat &&& mask

/-- The glyph a text starts with, given its first byte and what follows. -/
def headGlyph (a : UInt8) (rest : Text) : Glyph :=
  if a < 0x80 then .scalar a.toNat [a]
  else if 0xC2 ≤ a && a ≤ 0xDF then
    match rest with
    | b :: _ =>
      if isTail b then .scalar (bits a 0x1F <<< 6 ||| bits b 0x3F) [a, b] else .stray a
    | [] => .stray a
  else if 0xE0 ≤ a && a ≤ 0xEF then
    match rest with
    | b :: c :: _ =>
      let low : UInt8 := if a == 0xE0 then 0xA0 else 0x80
      let high : UInt8 := if a == 0xED then 0x9F else 0xBF
      if low ≤ b && b ≤ high && isTail c then
        .scalar (bits a 0x0F <<< 12 ||| bits b 0x3F <<< 6 ||| bits c 0x3F) [a, b, c]
      else .stray a
    | _ => .stray a
  else if 0xF0 ≤ a && a ≤ 0xF4 then
    match rest with
    | b :: c :: d :: _ =>
      let low : UInt8 := if a == 0xF0 then 0x90 else 0x80
      let high : UInt8 := if a == 0xF4 then 0x8F else 0xBF
      if low ≤ b && b ≤ high && isTail c && isTail d then
        .scalar (bits a 0x07 <<< 18 ||| bits b 0x3F <<< 12 ||| bits c 0x3F <<< 6 ||| bits d 0x3F)
          [a, b, c, d]
      else .stray a
    | _ => .stray a
  else .stray a

/-- Walks the text; `skip` bytes still belong to the last glyph. -/
def glyphsFrom : Nat → Text → List Glyph → List Glyph
  | _, [], done => done.reverse
  | skip + 1, _ :: rest, done => glyphsFrom skip rest done
  | 0, a :: rest, done =>
    let glyph := headGlyph a rest
    glyphsFrom (glyph.bytes.length - 1) rest (glyph :: done)

def glyphs (t : Text) : List Glyph := glyphsFrom 0 t []

def isUtf8 (t : Text) : Bool := t.glyphs.all Glyph.isScalar

/-- The number of code points, a stray byte counting as one. -/
def codePoints (t : Text) : Nat := t.glyphs.length

/-- The UTF-8 bytes of a code point; a surrogate or a number beyond Unicode becomes U+FFFD. -/
def encodeCode (code : Nat) : Text :=
  let tail := fun n : Nat => (0x80 ||| (n &&& 0x3F)).toUInt8
  if code < 0x80 then [code.toUInt8]
  else if code < 0x800 then [(0xC0 ||| code >>> 6).toUInt8, tail code]
  else if (0xD800 ≤ code && code ≤ 0xDFFF) || code > 0x10FFFF then [0xEF, 0xBF, 0xBD]
  else if code < 0x10000 then [(0xE0 ||| code >>> 12).toUInt8, tail (code >>> 6), tail code]
  else [(0xF0 ||| code >>> 18).toUInt8, tail (code >>> 12), tail (code >>> 6), tail code]

/-- Blanks before the text, up to `width` code points in all. -/
def padLeft (width : Nat) (t : Text) : Text :=
  List.replicate (width - t.codePoints) Ascii.blank ++ t

/-- Blanks after the text, up to `width` code points in all. -/
def padRight (width : Nat) (t : Text) : Text :=
  t ++ List.replicate (width - t.codePoints) Ascii.blank

/-- The white space of Unicode. -/
def isSpaceCode (code : Nat) : Bool :=
  (0x09 ≤ code && code ≤ 0x0D) || code == 0x20 || code == 0x85 || code == 0xA0 ||
  code == 0x1680 || (0x2000 ≤ code && code ≤ 0x200A) || code == 0x2028 || code == 0x2029 ||
  code == 0x202F || code == 0x205F || code == 0x3000

/-- The text without white space at either end. -/
def trimSpace (t : Text) : Text :=
  let isSpace := fun g : Glyph => g.isScalar && isSpaceCode g.code
  let left := t.glyphs.dropWhile isSpace
  ((left.reverse.dropWhile isSpace).reverse).flatMap Glyph.bytes

end Text

end MeshConsole
