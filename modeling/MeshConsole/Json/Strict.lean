import MeshConsole.Json.Lexical

/-!
# Strict JSON objects

A push frame must be one JSON value written by the letter of the standard, with blanks around it.
An object is read into its members in order, each value kept as the text it was written in; a look
up takes the first member whose key is exactly the one asked for.
-/

namespace MeshConsole.Json.Strict

def isHex (b : UInt8) : Bool := (Ascii.hexValue? b).isSome

/-- Reads on after an opening quote: what stands before the closing quote, and what follows it. -/
def stringBody (done : Text) : Text → Option (Text × Text)
  | [] => none
  | Ascii.quote :: rest => some (done.reverse, rest)
  | Ascii.backslash :: Ascii.lowerU :: a :: b :: c :: d :: rest =>
    if isHex a && isHex b && isHex c && isHex d then
      stringBody (d :: c :: b :: a :: Ascii.lowerU :: Ascii.backslash :: done) rest
    else none
  | Ascii.backslash :: letter :: rest =>
    if (simpleEscape? letter).isSome then stringBody (letter :: Ascii.backslash :: done) rest
    else none
  | b :: rest =>
    if b < Ascii.blank || b == Ascii.backslash then none else stringBody (b :: done) rest

/-- What follows at least one digit. -/
def skipDigits (t : Text) : Option Text :=
  match t with
  | b :: rest => if Ascii.isDigit b then some (rest.dropWhile Ascii.isDigit) else none
  | [] => none

def skipFraction : Text → Option Text
  | Ascii.dot :: rest => skipDigits rest
  | rest => some rest

def skipExponent : Text → Option Text
  | mark :: rest =>
    if mark == 0x65 || mark == 0x45 then
      match rest with
      | Ascii.plus :: digits => skipDigits digits
      | Ascii.minus :: digits => skipDigits digits
      | digits => skipDigits digits
    else some (mark :: rest)
  | [] => some []

/-- What follows a number: no leading zeros, digits on both sides of a point. -/
def skipNumber (t : Text) : Option Text := do
  let t := match t with
    | Ascii.minus :: rest => rest
    | rest => rest
  let t ← match t with
    | Ascii.zero :: rest => some rest
    | rest => skipDigits rest
  skipExponent (← skipFraction t)

mutual

/-- What follows the value a text starts with. -/
def skipValue : Nat → Text → Option Text
  | 0, _ => none
  | fuel + 1, t =>
    match skipBlanks t with
    | Ascii.openBrace :: rest =>
      match skipBlanks rest with
      | Ascii.closeBrace :: after => some after
      | first => skipMembers fuel first
    | Ascii.openBracket :: rest =>
      match skipBlanks rest with
      | Ascii.closeBracket :: after => some after
      | first => skipItems fuel first
    | Ascii.quote :: rest => (stringBody [] rest).map Prod.snd
    | Ascii.lowerT :: rest => Text.after? "rue" rest
    | Ascii.lowerF :: rest => Text.after? "alse" rest
    | Ascii.lowerN :: rest => Text.after? "ull" rest
    | other => skipNumber other

/-- What follows the members of an object, from a key on. -/
def skipMembers : Nat → Text → Option Text
  | 0, _ => none
  | fuel + 1, t =>
    match t with
    | Ascii.quote :: rest =>
      match stringBody [] rest with
      | none => none
      | some (_, rest) =>
        match skipBlanks rest with
        | Ascii.colon :: value =>
          match skipValue fuel value with
          | none => none
          | some rest =>
            match skipBlanks rest with
            | Ascii.comma :: next => skipMembers fuel (skipBlanks next)
            | Ascii.closeBrace :: after => some after
            | _ => none
        | _ => none
    | _ => none

/-- What follows the items of an array, from an item on. -/
def skipItems : Nat → Text → Option Text
  | 0, _ => none
  | fuel + 1, t =>
    match skipValue fuel t with
    | none => none
    | some rest =>
      match skipBlanks rest with
      | Ascii.comma :: next => skipItems fuel next
      | Ascii.closeBracket :: after => some after
      | _ => none

end

/-- A member of an object: its key, unescaped, and its value as written. -/
structure Member where
  key : Text
  value : Text
  deriving Repr, DecidableEq

/-- The part of `t` before its ending `rest`. -/
def before (t rest : Text) : Text := t.take (t.length - rest.length)

/-- Collects the members from a key on, and what follows the object. -/
def collect : Nat → List Member → Text → Option (List Member × Text)
  | 0, _, _ => none
  | fuel + 1, done, t =>
    match t with
    | Ascii.quote :: rest =>
      match stringBody [] rest with
      | none => none
      | some (key, rest) =>
        match skipBlanks rest with
        | Ascii.colon :: value =>
          let value := skipBlanks value
          match skipValue (value.length + 1) value with
          | none => none
          | some rest =>
            let done := { key := unescape key, value := before value rest } :: done
            match skipBlanks rest with
            | Ascii.comma :: next => collect fuel done (skipBlanks next)
            | Ascii.closeBrace :: after => some (done.reverse, after)
            | _ => none
        | _ => none
    | _ => none

/-- An object of a frame: its text from the brace on, and its members. -/
structure Object where
  text : Text
  members : List Member
  deriving Repr, DecidableEq

/-- The frame as an object; nothing when it is no object or not strict JSON. The object's text runs
to the end of the frame, blanks after the closing brace included. -/
def object? (frame : Text) : Option Object :=
  match skipBlanks frame with
  | Ascii.openBrace :: rest =>
    let text := Ascii.openBrace :: rest
    let inside := skipBlanks rest
    let read :=
      match inside with
      | Ascii.closeBrace :: after => some ([], after)
      | first => collect (first.length + 1) [] first
    match read with
    | none => none
    | some (members, after) => if (skipBlanks after).isEmpty then some { text, members } else none
  | _ => none

/-- The value of the first member with this key. -/
def Object.get? (o : Object) (key : Text) : Option Text :=
  (o.members.find? (·.key == key)).map (·.value)

def Object.has (o : Object) (key : Text) : Bool := (o.get? key).isSome

/-- The text of a value that is a string. -/
def string? : Text → Option Text
  | Ascii.quote :: rest => (stringBody [] rest).map fun body => unescape body.1
  | _ => none

/-- A value that is a number, as written. -/
def number? : Text → Option Text
  | b :: rest => if b == Ascii.minus || Ascii.isDigit b then some (b :: rest) else none
  | [] => none

end MeshConsole.Json.Strict
