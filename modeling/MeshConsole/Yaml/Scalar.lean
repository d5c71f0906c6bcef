import MeshConsole.Numeral.Integer
import MeshConsole.Numeral.Shortest
import MeshConsole.Text.Base64
import MeshConsole.Yaml.Moment
import MeshConsole.Yaml.Source

/-!
# YAML values

The values a settings file may hold, and what a scalar stands for: an integer, a number, a truth
value, a moment, nothing, or else its text. A tag may say which of them it has to be.
-/

namespace MeshConsole.Yaml

inductive Value where
  | null
  | bool (value : Bool)
  | int (value : Int)
  | real (value : Binary64)
  | moment (value : Moment)
  | text (value : Text)
  | list (items : List Value)
  /-- Where a key is there twice, its last value counts. -/
  | map (members : List (Value × Value))
  deriving Repr, Inhabited

def oneOf (names : List String) (t : Text) : Bool := (names.map Text.ofString).contains t

/-- The words that stand for a value of their own. -/
def word? (t : Text) : Option Value :=
  if oneOf ["", "~", "null", "Null", "NULL"] t then some .null
  else if oneOf ["true", "True", "TRUE"] t then some (.bool true)
  else if oneOf ["false", "False", "FALSE"] t then some (.bool false)
  else if oneOf [".nan", ".NaN", ".NAN"] t then some (.real .nan)
  else if oneOf [".inf", ".Inf", ".INF", "+.inf", "+.Inf", "+.INF"] t then
    some (.real (.infinite false))
  else if oneOf ["-.inf", "-.Inf", "-.INF"] t then some (.real (.infinite true))
  else none

/-- A decimal numeral with a point or an exponent among its digits as needed. A number beyond the
finite range is no number but text. -/
def finiteReal? (t : Text) : Option Value :=
  match (Scientific.read? t).map Scientific.toBinary64 with
  | some (.finite negative significand exponent) =>
    some (.real (.finite negative significand exponent))
  | _ => none

def unsigned? (t : Text) : Option Value :=
  match Numeral.readPrefixed Numeral.maxWord t with
  | .ok n => some (.int n)
  | .error _ => none

/-- Binary and octal digits that have their sign behind the mark of their base. -/
def signedBehindMark? (t : Text) : Option Value :=
  let read := fun (base : Nat) (digits : Text) =>
    match Numeral.readSigned (Numeral.readBase base Numeral.maxWord) digits with
    | .ok i => some (Value.int i)
    | .error _ => none
  match t with
  | Ascii.zero :: 0x62 :: digits => read 2 digits
  | Ascii.zero :: 0x6F :: digits => read 8 digits
  | _ => none

/-- Integers may be grouped by underscores and carry the mark of a base. -/
def number? (t : Text) : Option Value :=
  let plain := t.filter (· != Ascii.underscore)
  match Numeral.readPrefixedInt plain with
  | .ok i => some (.int i)
  | .error _ => ((unsigned? plain).or (finiteReal? plain)).or (signedBehindMark? plain)

/-- What starts with a point is a number if its underscores stand between digits. -/
def pointNumber? (t : Text) : Option Value :=
  if Numeral.wellGrouped t then finiteReal? (t.filter (· != Ascii.underscore)) else none

def isNumberStart (b : UInt8) : Bool :=
  Ascii.isDigit b || b == Ascii.plus || b == Ascii.minus

/-- What a scalar stands for by its spelling; a moment only where `mayBeMoment`. -/
def Value.ofSpelling (mayBeMoment : Bool) (t : Text) : Value :=
  match word? t with
  | some value => value
  | none =>
    match t with
    | [] => .null
    | first :: _ =>
      if first == Ascii.dot then (pointNumber? t).getD (.text t)
      else if isNumberStart first then
        match if mayBeMoment then Moment.read? t else none with
        | some m => .moment m
        | none => (number? t).getD (.text t)
      else .text t

/-- What a plain scalar without a tag stands for. -/
def Value.ofPlain (t : Text) : Value := Value.ofSpelling true t

/-- The text of a scalar; lists and maps have none. -/
def Value.scalarText : Value → Text
  | .null => []
  | .bool value => if value then "true" else "false"
  | .int value => Text.ofInt value
  | .real value => value.toPositional
  | .moment value => value.text
  | .text value => value
  | .list _ => []
  | .map _ => []

/-- The tags with a meaning of their own, in their short spelling. -/
inductive Kind where
  | null
  | bool
  | int
  | float
  | timestamp
  | str
  | binary
  | merge
  deriving Repr, DecidableEq

def Kind.tag : Kind → Text
  | .null => "!!null"
  | .bool => "!!bool"
  | .int => "!!int"
  | .float => "!!float"
  | .timestamp => "!!timestamp"
  | .str => "!!str"
  | .binary => "!!binary"
  | .merge => "!!merge"

def Kind.all : List Kind := [.null, .bool, .int, .float, .timestamp, .str, .binary, .merge]

def Kind.ofTag? (tag : Text) : Option Kind := Kind.all.find? fun kind => kind.tag == tag

/-- A value, if it is of the kind that a tag asks for. An integer of 64 signed bits counts as a
number too. -/
def Value.check (kind : Kind) (value : Value) : Except Fault Value :=
  match kind, value with
  | .null, .null => .ok .null
  | .bool, .bool b => .ok (.bool b)
  | .int, .int i => .ok (.int i)
  | .float, .real x => .ok (.real x)
  | .float, .int i =>
    if i < Numeral.halfWord then .ok (.real (Binary64.ofInt i)) else .error .meaning
  | .timestamp, .moment m => .ok (.moment m)
  | _, _ => .error .meaning

/-- What a scalar stands for under a tag, which is empty when there is none. A tag without a
meaning of its own leaves the text as it is. -/
def Value.ofScalar (tag text : Text) (isPlain : Bool) : Except Fault Value :=
  if tag.isEmpty then
    .ok (if isPlain then Value.ofPlain text else .text text)
  else
    match Kind.ofTag? tag with
    | none => .ok (.text text)
    | some .str => .ok (.text text)
    | some .merge => .ok (.text text)
    | some .binary =>
      match Text.ofBase64? text with
      | some bytes => .ok (.text bytes)
      | none => .error .meaning
    | some kind => (Value.ofSpelling (kind == .timestamp) text).check kind

end MeshConsole.Yaml
