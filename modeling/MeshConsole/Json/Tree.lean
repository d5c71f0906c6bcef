import MeshConsole.Json.Key
import MeshConsole.Json.Lexical
import MeshConsole.Numeral.Scientific

/-!
# JSON documents as trees

Payloads and answers are read into a tree first; what each field makes of its value is settled by
the readers of `Json.Reader`. The tree keeps what the readers decide on: number literals as
written, and for each member where its value starts and ends in the text.

The reading is a little wider than the standard. A control byte may stand in a string after its
first escape. A number literal is any run of digits, signs, points and exponent marks; the
functions of `Literal` settle which runs are numbers of a kind. A later key may be the word `null`.
`Tree.isSkippable` says which of these trees may be passed over.

A text may come in portions. Some faults are looked for only in the portion that a string or a
number starts in: a control byte, a needless zero. `ahead` tells how much of a text is in view.
-/

namespace MeshConsole.Json

inductive Tree where
  | null
  | bool (value : Bool)
  /-- A literal as written, and whether it may be passed over unread. -/
  | number (literal : Text) (skippable : Bool)
  | string (value : Text)
  | array (items : List Tree)
  | object (members : List (Key × Tree × Text × Text))
  deriving Repr

namespace Literal

/-- Digits that do not start with a needless zero. -/
def plainDigits : Text → Bool
  | [] => false
  | [b] => Ascii.isDigit b
  | b :: rest => b != Ascii.zero && Ascii.isDigit b && rest.all Ascii.isDigit

/-- The value of plain digits in a word of `size = 2 ^ width` values. Past a tenth of the range a
digit may wrap the value around; that is noticed only when the value becomes smaller. -/
def word? (size : Nat) (digits : Text) : Option Nat :=
  if plainDigits digits then
    digits.foldlM (fun value b =>
      let digit := b.toNat - 0x30
      let next := (value * 10 + digit) % size
      if (size - 1) / 10 - 1 < value && next < value then none else some next) 0
  else none

/-- A signed integer whose magnitude is read as a word of `size` values. -/
def signed? (size : Nat) : Text → Option Int
  | Ascii.minus :: digits => do
    let value ← word? size digits
    if size / 2 < value then none else some (-(value : Int))
  | digits => do
    let value ← word? size digits
    if size / 2 ≤ value then none else some (value : Int)

/-- A point is followed by a digit. -/
def pointsPlaced : Text → Bool
  | [] => true
  | Ascii.dot :: rest => rest.head?.any Ascii.isDigit
  | _ :: rest => pointsPlaced rest

/-- A short decimal is the quotient of its digits and a power of ten, each rounded first. -/
def shortDecimal? (whole decimals : Text) : Option Binary64 :=
  let digits := Scientific.digitsValue (whole ++ decimals)
  let early := Scientific.digitsValue ((whole ++ decimals).dropLast)
  if decimals.isEmpty || 6 < decimals.length || 1844674407370955160 < early then none
  else some (Binary64.div (.ofInt digits) (.ofInt (Nat.pow 10 decimals.length)))

/-- The magnitude that a run of number bytes stands for; it may start with needless zeros. -/
def run? (literal : Text) : Option Binary64 :=
  if literal.head? == some Ascii.minus || !pointsPlaced literal then none
  else
    match Scientific.read? literal with
    | none => none
    | some value =>
      let (whole, tail) := literal.span Ascii.isDigit
      let short :=
        match tail with
        | Ascii.dot :: decimals =>
          if decimals.all Ascii.isDigit then shortDecimal? whole decimals else none
        | _ => none
      match short.getD value.toBinary64 with
      | .infinite _ => none
      | finite => some finite

def startsWithNeedlessZero : Text → Bool
  | Ascii.zero :: next :: _ => Ascii.isDigit next
  | _ => false

/-- The magnitude of a binary64 literal. -/
def magnitude? (literal : Text) : Option Binary64 :=
  if literal.head? == some Ascii.dot || startsWithNeedlessZero literal then none else run? literal

/-- A binary64 number; one beyond the range is refused. -/
def binary64? : Text → Option Binary64
  | Ascii.minus :: rest =>
    (magnitude? rest).map fun
      | .finite negative significand exponent => .finite (!negative) significand exponent
      | other => other
  | literal => magnitude? literal

/-- The value stays below the range of 32-bit floating point. -/
def fitsSingle (literal : Text) : Bool :=
  match Scientific.read? literal with
  | none => false
  | some s =>
    let magnitude := s.exponent + ((Nat.toDigits 10 s.digits).length : Int)
    if s.digits = 0 || magnitude < 30 then true
    else if 45 < magnitude then false
    else
      let bound := Nat.pow 2 128 - Nat.pow 2 103
      if 0 ≤ s.exponent then s.digits * Nat.pow 10 s.exponent.toNat < bound
      else s.digits < bound * Nat.pow 10 (-s.exponent).toNat

/-- Digits with at most one point, which a digit follows. -/
def isSimple : Bool → Text → Bool
  | _, [] => true
  | pointed, Ascii.dot :: rest =>
    !pointed && rest.head?.any Ascii.isDigit && isSimple true rest
  | pointed, b :: rest => Ascii.isDigit b && isSimple pointed rest

/-- A numeral whose binary exponent fits 32 bits. -/
def isLongNumeral (literal : Text) : Bool :=
  match Scientific.read? literal with
  | none => false
  | some s =>
    if s.digits = 0 then decide (s.exponent.natAbs < Nat.pow 2 63)
    else
      let size := ((Nat.log2 s.digits + 1 : Nat) : Int) + s.exponent
      decide (-2147483648 ≤ size ∧ size < 2147483648)

/-- What follows a minus sign, when it is not digits with a point among them in plain view. What a
binary64 number may not start with is read again as a long numeral. -/
def isSkippableMagnitude (ahead : Text → Nat) (t rest : Text) : Bool :=
  let asLong := fun _ : Unit =>
    isLongNumeral rest &&
      (pointsPlaced rest || (rest.takeWhile (· != Ascii.dot)).length + 2 == ahead t)
  if rest.head? == some Ascii.dot then
    if ahead t ≤ 1 then (run? rest).isSome else asLong ()
  else if startsWithNeedlessZero rest then
    if ahead t ≤ 2 then (run? rest).isSome else asLong ()
  else (run? rest).isSome

/-- Literals that may be passed over unread; `t` is the text from the literal on. -/
def isSkippable (ahead : Text → Nat) (t : Text) : Text → Bool
  | [] => false
  | first :: rest =>
    let isPlain := fun _ : Unit =>
      !rest.isEmpty && isSimple false rest && rest.length + 1 < ahead t
    if first == Ascii.zero then
      (run? (first :: rest)).isSome && fitsSingle (first :: rest) &&
        (!startsWithNeedlessZero (first :: rest) || ahead t ≤ 1)
    else if first == Ascii.minus then isSkippableMagnitude ahead t rest || isPlain ()
    else if Ascii.isDigit first then (run? (first :: rest)).isSome || isPlain ()
    else false

end Literal

namespace Tree

/-- A member is its key, its value, the text from the value on and the text after the value. -/
abbrev Member := Key × Tree × Text × Text

namespace Member

def key (m : Member) : Key := m.1

def value (m : Member) : Tree := m.2.1

/-- The value as written, without the blanks around it. -/
def text (m : Member) : Text := m.2.2.1.take (m.2.2.1.length - m.2.2.2.length)

end Member

/-- How deeply arrays and objects may be nested. -/
def depthLimit : Nat := 10000

/-- Reads on after an opening quote, once an escape has been met: no byte but the quote and the
backslash matters. A surrogate that pairs with no neighbour becomes U+FFFD. -/
def escapedBody (done : Text) : Text → Option (Text × Text)
  | [] => none
  | Ascii.quote :: rest => some (done.reverse, rest)
  | Ascii.backslash :: Ascii.lowerU :: a :: b :: c :: d :: rest =>
    match hex4? a b c d with
    | none => none
    | some high =>
      if isSurrogate high then
        match rest with
        | Ascii.backslash :: Ascii.lowerU :: e :: f :: g :: h :: rest =>
          match hex4? e f g h with
          | none => none
          | some low =>
            let both :=
              match pair? high low with
              | some code => Text.encodeCode code
              | none => Text.encodeCode high ++ Text.encodeCode low
            escapedBody (both.reverse ++ done) rest
        | rest => escapedBody ((Text.encodeCode high).reverse ++ done) rest
      else escapedBody ((Text.encodeCode high).reverse ++ done) rest
  | Ascii.backslash :: letter :: rest =>
    match simpleEscape? letter with
    | some byte => escapedBody (byte :: done) rest
    | none => none
  | b :: rest => if b == Ascii.backslash then none else escapedBody (b :: done) rest

/-- The text of a string after its opening quote, whether it is free of control bytes in view before
its first escape, and what follows. -/
def stringBody (ahead : Text → Nat) (t : Text) : Option (Text × Bool × Text) :=
  let (plain, rest) := t.span fun b => !(b == Ascii.quote || b == Ascii.backslash)
  let clean := plain.all (Ascii.blank ≤ ·) ||
    (plain.take (ahead (Ascii.quote :: t) - 1)).all (Ascii.blank ≤ ·)
  match rest with
  | [] => none
  | Ascii.quote :: rest => some (plain, clean, rest)
  | rest => (escapedBody plain.reverse rest).map fun body => (body.1, clean, body.2)

def isNumberByte (b : UInt8) : Bool :=
  Ascii.isDigit b || b == Ascii.plus || b == Ascii.minus || b == Ascii.dot || b == 0x65 || b == 0x45

/-- What stands before the first escape of a string. -/
def plainFront (t : Text) : Text := t.takeWhile fun b => !(b == Ascii.quote || b == Ascii.backslash)

/-- A key and what follows it. -/
def readKey (ahead : Text → Nat) : Text → Option (Key × Text)
  | Ascii.quote :: rest =>
    (stringBody ahead rest).map fun body =>
      (.name body.1 (plainFront rest).length body.2.1, body.2.2)
  | Ascii.lowerN :: rest => (Text.after? "ull" rest).map fun rest => (.null, rest)
  | _ => none

mutual

/-- The value a text starts with, at most `depth` levels deep, and what follows it. -/
def readValue (ahead : Text → Nat) : Nat → Nat → Text → Option (Tree × Text)
  | 0, _, _ => none
  | fuel + 1, depth, t =>
    match skipBlanks t with
    | Ascii.openBrace :: rest =>
      match skipBlanks rest, depth with
      | Ascii.closeBrace :: after, _ + 1 => some (.object [], after)
      | Ascii.quote :: first, depth + 1 => readMembers ahead fuel depth [] (Ascii.quote :: first)
      | _, _ => none
    | Ascii.openBracket :: rest =>
      match skipBlanks rest, depth with
      | Ascii.closeBracket :: after, _ + 1 => some (.array [], after)
      | first, depth + 1 => readItems ahead fuel depth [] first
      | _, 0 => none
    | Ascii.quote :: rest =>
      match stringBody ahead rest with
      | some (value, true, after) => some (.string value, after)
      | _ => none
    | Ascii.lowerT :: rest => (Text.after? "rue" rest).map fun rest => (.bool true, rest)
    | Ascii.lowerF :: rest => (Text.after? "alse" rest).map fun rest => (.bool false, rest)
    | Ascii.lowerN :: rest => (Text.after? "ull" rest).map fun rest => (.null, rest)
    | other =>
      let (literal, rest) := other.span isNumberByte
      if literal.isEmpty then none
      else some (.number literal (Literal.isSkippable ahead other literal), rest)

/-- The members of an object from a key on, and what follows the object. -/
def readMembers (ahead : Text → Nat) : Nat → Nat → List Member → Text → Option (Tree × Text)
  | 0, _, _, _ => none
  | fuel + 1, depth, done, t =>
    match readKey ahead t with
    | none => none
    | some (key, rest) =>
      match skipBlanks rest with
      | Ascii.colon :: rest =>
        let start := skipBlanks rest
        match readValue ahead fuel depth start with
        | none => none
        | some (value, rest) =>
          let done := (key, value, start, rest) :: done
          match skipBlanks rest with
          | Ascii.comma :: next => readMembers ahead fuel depth done (skipBlanks next)
          | Ascii.closeBrace :: after => some (.object done.reverse, after)
          | _ => none
      | _ => none

/-- The items of an array from an item on, and what follows the array. -/
def readItems (ahead : Text → Nat) : Nat → Nat → List Tree → Text → Option (Tree × Text)
  | 0, _, _, _ => none
  | fuel + 1, depth, done, t =>
    match readValue ahead fuel depth t with
    | none => none
    | some (value, rest) =>
      match skipBlanks rest with
      | Ascii.comma :: next => readItems ahead fuel depth (value :: done) next
      | Ascii.closeBracket :: after => some (.array (value :: done).reverse, after)
      | _ => none

end

/-- How much of a text that comes in portions is in view. -/
def portionAhead (portion : Nat) (whole t : Text) : Nat :=
  portion - (whole.length - t.length) % portion

/-- The first value of a text that comes in portions; what follows it does not matter. -/
def first? (portion : Nat) (t : Text) : Option Tree :=
  (readValue (portionAhead portion t) (t.length + 1) depthLimit t).map Prod.fst

/-- The text as one value; blanks may follow it, and after a NUL byte anything. -/
def parse? (t : Text) : Option Tree :=
  match readValue List.length (t.length + 1) depthLimit t with
  | none => none
  | some (tree, rest) =>
    match skipBlanks rest with
    | [] => some tree
    | b :: _ => if b == 0 then some tree else none

end Tree

namespace Tree

mutual

/-- Whether a value may be passed over. -/
def isSkippable : Tree → Bool
  | .null => true
  | .bool _ => true
  | .string _ => true
  | .number _ skippable => skippable
  | .array items => areSkippable items
  | .object members => membersSkippable members

def areSkippable : List Tree → Bool
  | [] => true
  | item :: rest => item.isSkippable && areSkippable rest

def membersSkippable : List (Key × Tree × Text × Text) → Bool
  | [] => true
  | (key, value, _, _) :: rest =>
    (match key with
      | .name _ _ clean => clean
      | .null => true) && value.isSkippable && membersSkippable rest

end

end Tree

end MeshConsole.Json
