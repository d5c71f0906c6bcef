import MeshConsole.Duration
import MeshConsole.Numeral.Integer
import MeshConsole.Table
import MeshConsole.Text.Quoted

/-!
# Command-line flags

Flags and arguments may be mixed; two dashes alone end the flags. A flag that takes a value takes
it from behind an equals sign or from the next argument, whatever that looks like.
-/

namespace MeshConsole.Command

inductive FlagKind where
  | text
  | int
  | bool
  | duration
  deriving Repr, DecidableEq

structure FlagSpec where
  name : Text
  kind : FlagKind
  short : Option UInt8 := none
  deriving Repr, DecidableEq

inductive FlagValue where
  | text (value : Text)
  | int (value : Int)
  | bool (value : Bool)
  | duration (value : Duration)
  /-- A value of none of these kinds. -/
  | other
  deriving Repr, DecidableEq

inductive FlagError where
  | badSyntax (argument : Text)
  | unknown (name : Text)
  | unknownShort (letter : UInt8) (letters : Text)
  | needsArgument (argument : Text)
  | needsArgumentShort (letter : UInt8) (letters : Text)
  | invalid (value flag reason : Text)
  | helpRequested
  deriving Repr, DecidableEq

/-- A letter between single quotes, with an escape where it would not show as itself. -/
def quotedLetter (letter : UInt8) : Text :=
  let inner :=
    if letter == 0x27 then ("\\'" : Text)
    else if letter == Ascii.quote then [Ascii.quote]
    else
      let shown := Text.quoted (Text.encodeCode letter.toNat)
      (shown.drop 1).take (shown.length - 2)
  [0x27] ++ inner ++ [0x27]

def FlagError.message : FlagError → Text
  | .badSyntax argument => ("bad flag syntax: " : Text) ++ argument
  | .unknown name => ("unknown flag: --" : Text) ++ name
  | .unknownShort letter letters =>
    ("unknown shorthand flag: " : Text) ++ quotedLetter letter ++ " in -" ++ letters
  | .needsArgument argument => ("flag needs an argument: " : Text) ++ argument
  | .needsArgumentShort letter letters =>
    ("flag needs an argument: " : Text) ++ quotedLetter letter ++ " in -" ++ letters
  | .invalid value flag reason =>
    ("invalid argument " : Text) ++ value.quoted ++ " for " ++ flag.quoted ++ " flag: " ++ reason
  | .helpRequested => "pflag: help requested"

/-- The value a text stands for, or why it stands for none. -/
def FlagKind.read (kind : FlagKind) (source : Text) : Except Text FlagValue :=
  let refusal := fun (reader why : Text) => reader ++ ": parsing " ++ source.quoted ++ ": " ++ why
  match kind with
  | .text => .ok (.text source)
  | .int =>
    match Numeral.readPrefixedInt source with
    | .ok value => .ok (.int value)
    | .error why => .error (refusal "strconv.ParseInt" why.message)
  | .bool =>
    match Numeral.readBool? source with
    | some value => .ok (.bool value)
    | none => .error (refusal "strconv.ParseBool" Numeral.Refusal.syntaxError.message)
  | .duration =>
    match Duration.read source with
    | .ok value => .ok (.duration value)
    | .error why => .error (why.message source)

/-- How a flag is named in a refusal. -/
def FlagSpec.shownName (spec : FlagSpec) : Text :=
  match spec.short with
  | some letter => ("-" : Text) ++ [letter] ++ ", --" ++ spec.name
  | none => ("--" : Text) ++ spec.name

/-- The flags that were set, each with its last value, and the other arguments. -/
structure Parsed where
  flags : Table Text FlagValue := []
  arguments : List Text := []
  deriving Repr, DecidableEq

def Parsed.set (p : Parsed) (spec : FlagSpec) (source : Text) : Except FlagError Parsed :=
  match spec.kind.read source with
  | .ok value => .ok { p with flags := p.flags.set spec.name value }
  | .error reason => .error (.invalid source spec.shownName reason)

/-- A long flag with its two dashes, and the arguments left after it. -/
def parseLong (specs : List FlagSpec) (p : Parsed) (argument : Text) (rest : List Text) :
    Except FlagError (Parsed × List Text) :=
  let body := argument.drop 2
  match body with
  | [] => .error (.badSyntax argument)
  | first :: _ =>
    if first == Ascii.minus || first == Ascii.equals then .error (.badSyntax argument)
    else
      let (name, given) :=
        match Text.cut? Ascii.equals body with
        | some (name, value) => (name, some value)
        | none => (body, none)
      match specs.find? (·.name == name) with
      | none => if name == "help" then .error .helpRequested else .error (.unknown name)
      | some spec =>
        match given, spec.kind, rest with
        | some value, _, _ => (p.set spec value).map (·, rest)
        | none, .bool, _ => (p.set spec "true").map (·, rest)
        | none, _, value :: rest => (p.set spec value).map (·, rest)
        | none, _, [] => .error (.needsArgument argument)

/-- Letters that are meant for whoever runs the tests; they are passed over. -/
def isTestSwitch (letters : Text) : Bool := (Text.after? "test." letters).isSome

/-- The letters after a single dash, and the arguments left after them. -/
def parseShort (specs : List FlagSpec) (p : Parsed) (rest : List Text) :
    Text → Except FlagError (Parsed × List Text)
  | [] => .ok (p, rest)
  | letter :: more =>
    if isTestSwitch (letter :: more) then .ok (p, rest)
    else
      match specs.find? (·.short == some letter) with
      | none =>
        if letter == 0x68 then .error .helpRequested
        else .error (.unknownShort letter (letter :: more))
      | some spec =>
        match more, spec.kind, rest with
        | Ascii.equals :: first :: value, _, _ => (p.set spec (first :: value)).map (·, rest)
        | more, .bool, _ =>
          match p.set spec "true" with
          | .ok p => parseShort specs p rest more
          | .error e => .error e
        | first :: value, _, _ => (p.set spec (first :: value)).map (·, rest)
        | [], _, value :: rest => (p.set spec value).map (·, rest)
        | [], _, [] => .error (.needsArgumentShort letter [letter])

def parseFrom (specs : List FlagSpec) : Nat → Parsed → List Text → Except FlagError Parsed
  | 0, p, _ => .ok p
  | _ + 1, p, [] => .ok p
  | fuel + 1, p, argument :: rest =>
    match argument with
    | [Ascii.minus, Ascii.minus] => .ok { p with arguments := p.arguments ++ rest }
    | Ascii.minus :: Ascii.minus :: _ =>
      match parseLong specs p argument rest with
      | .ok (p, rest) => parseFrom specs fuel p rest
      | .error e => .error e
    | Ascii.minus :: letter :: letters =>
      match parseShort specs p rest (letter :: letters) with
      | .ok (p, rest) => parseFrom specs fuel p rest
      | .error e => .error e
    | argument => parseFrom specs fuel { p with arguments := p.arguments ++ [argument] } rest

/-- Sorts arguments into flags and others; the first fault is reported. -/
def parseFlags (specs : List FlagSpec) (arguments : List Text) : Except FlagError Parsed :=
  parseFrom specs (arguments.length + 1) {} arguments

end MeshConsole.Command
