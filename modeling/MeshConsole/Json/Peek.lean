import MeshConsole.Json.Lexical

/-!
# Peeking at a member

A quick look for one key in a text that nobody has checked. The first brace starts the object, the
first key that is exactly the one asked for is taken, and everything that does not matter is passed
over.
-/

namespace MeshConsole.Json.Peek

/-- What a peek finds. -/
inductive Found where
  | string (value : Text)
  | array
  | object
  | other
  deriving Repr, DecidableEq

/-- Reads on after an opening quote up to the next quote that is not escaped. -/
def quotedBody (done : Text) : Text → Option (Text × Text)
  | [] => none
  | Ascii.quote :: rest => some (done.reverse, rest)
  | Ascii.backslash :: b :: rest => quotedBody (b :: Ascii.backslash :: done) rest
  | b :: rest => quotedBody (b :: done) rest

/-- The text of a string body; a body without a backslash is taken as it is. -/
def bodyText (body : Text) : Text :=
  if body.contains Ascii.backslash then unescape body else body

/-- Passes over an opened bracket of any kind; `inString` while between quotes. -/
def squash : Nat → Bool → Text → Text
  | _, _, [] => []
  | depth, true, Ascii.backslash :: _ :: rest => squash depth true rest
  | depth, true, b :: rest => squash depth (b != Ascii.quote) rest
  | depth, false, b :: rest =>
    if b == Ascii.quote then squash depth true rest
    else if b == Ascii.openBrace || b == Ascii.openBracket || b == 0x28 then
      squash (depth + 1) false rest
    else if b == Ascii.closeBrace || b == Ascii.closeBracket || b == 0x29 then
      match depth with
      | 0 => rest
      | 1 => rest
      | depth + 1 => squash depth false rest
    else squash depth false rest

/-- The next value from here on and what follows it; bytes that start no value are passed over. -/
def nextValue : Text → Option (Option Found × Text)
  | [] => none
  | b :: rest =>
    if b == Ascii.quote then
      match quotedBody [] rest with
      | some (body, rest) => some (some (.string (bodyText body)), rest)
      | none => some (none, [])
    else if b == Ascii.openBrace then some (some .object, squash 1 false rest)
    else if b == Ascii.openBracket then some (some .array, squash 1 false rest)
    else if b == 0x74 || b == 0x66 || (b == 0x6E && (rest.head?.getD 0x75) == 0x75) then
      some (some .other, (b :: rest).dropWhile Ascii.isLower)
    else if b == Ascii.plus || b == Ascii.minus || Ascii.isDigit b || b == 0x69 || b == 0x49 ||
        b == 0x4E || b == 0x6E then
      some (some .other, rest.dropWhile fun c =>
        !(c ≤ Ascii.blank || c == Ascii.comma || c == Ascii.closeBracket || c == Ascii.closeBrace))
    else nextValue rest

/-- The body of the next key and what follows it; nothing at the end of the object. -/
def nextKey : Text → Option (Text × Text)
  | [] => none
  | b :: rest =>
    if b == Ascii.quote then quotedBody [] rest
    else if b == Ascii.closeBrace then none
    else nextKey rest

def seek (key : Text) : Nat → Text → Option Found
  | 0, _ => none
  | fuel + 1, t =>
    match nextKey t with
    | none => none
    | some (body, rest) =>
      match nextValue rest with
      | some (some found, rest) =>
        if bodyText body == key then some found else seek key fuel rest
      | _ => none

/-- The value of the first member `key` of the first object in the text; an array that comes before
every object has no members. -/
def member? (key : Text) (t : Text) : Option Found :=
  match t.dropWhile fun b => !(b == Ascii.openBrace || b == Ascii.openBracket) with
  | Ascii.openBrace :: rest => seek key (rest.length + 1) rest
  | _ => none

/-- The text as a string, when its first byte beyond blanks and control bytes is a quote. -/
def string? (t : Text) : Option Text :=
  match t.dropWhile (· ≤ Ascii.blank) with
  | Ascii.quote :: rest =>
    match quotedBody [] rest with
    | some (body, _) => some (bodyText body)
    | none => some (bodyText rest)
  | _ => none

end MeshConsole.Json.Peek
