import MeshConsole.Yaml.Source

/-!
# Tokens of YAML

The marks, names and scalars a document is made of, and how each is read off its characters. The
beginning and the end of a block are tokens too; they come from indentation, not from marks.
-/

namespace MeshConsole.Yaml

/-- The text of characters. -/
def textOf (cs : List Char) : Text := cs.flatMap fun c => Text.encodeCode c.toNat

inductive Token where
  | streamEnd
  | version (major minor : Nat)
  | shorthand (handle meaning : Text)
  | documentStart
  | documentEnd
  | blockListStart
  | blockMapStart
  | blockEnd
  | flowListStart
  | flowListEnd
  | flowMapStart
  | flowMapEnd
  | item
  | comma
  | key
  | value
  | alias (name : Text)
  | anchor (name : Text)
  | tag (handle suffix : Text)
  | scalar (text : Text) (isPlain : Bool)
  deriving Repr, DecidableEq

def isNameChar (c : Char) : Bool := c.isAlphanum || c == '_' || c == '-'

/-- The characters of a tag besides those of a name. -/
def isTagMark (c : Char) : Bool :=
  c == ';' || c == '/' || c == '?' || c == ':' || c == '@' || c == '&' || c == '=' || c == '+' ||
  c == '$' || c == '.' || c == ',' || c == '!' || c == '~' || c == '*' || c == '\x27' ||
  c == '(' || c == ')' || c == '[' || c == ']' || c == '%'

def isTagChar (c : Char) : Bool := isNameChar c || isTagMark c

def hexOf? (c : Char) : Option Nat :=
  if c.toNat < 0x80 then Ascii.hexValue? c.toNat.toUInt8 else none

namespace Source

/-- An anchor or an alias: its mark, and the name that follows. -/
def takeName (fuel : Nat) (s : Source) : Except Fault (Text × Source) := do
  let (name, s) ← s.skip.takeWhile isNameChar fuel []
  let endsName := fun c =>
    c == '?' || c == ':' || c == ',' || c == ']' || c == '\x7d' || c == '%' || c == '@' ||
    c == '\x60'
  if name.isEmpty || !(s.isSpaceAt 0 || s.lookIs 0 endsName) then .error .token
  else .ok (textOf name, s)

/-- An escaped byte: a percent sign and two digits. -/
def takeEscapedByte (s : Source) : Except Fault (UInt8 × Source) := do
  let s ← s.demand 3
  match s.ahead with
  | '%' :: a :: b :: _ =>
    match hexOf? a, hexOf? b with
    | some high, some low => .ok ((high * 16 + low).toUInt8, s.skipMany 3)
    | _, _ => .error .token
  | _ => .error .token

/-- The further bytes of an escaped character; `done` is reversed. -/
def takeEscapedTail : Nat → Text → Source → Except Fault (Text × Source)
  | 0, done, s => .ok (done, s)
  | n + 1, done, s => do
    let (byte, s) ← s.takeEscapedByte
    if Text.isTail byte then takeEscapedTail n (byte :: done) s else .error .token

/-- An escaped character; `done` is reversed. -/
def takeEscapedChar (done : Text) (s : Source) : Except Fault (Text × Source) := do
  let (byte, s) ← s.takeEscapedByte
  match utf8Width? byte with
  | none => .error .token
  | some width => takeEscapedTail (width - 1) (byte :: done) s

/-- The characters of a tag; `done` is reversed. -/
def takeTagChars : Nat → Text → Source → Except Fault (Text × Source)
  | 0, _, _ => .error .token
  | fuel + 1, done, s => do
    let s ← s.demand 1
    match s.next? with
    | some c =>
      if !isTagChar c then .ok (done.reverse, s)
      else if c == '%' then
        let (done, s) ← s.takeEscapedChar done
        takeTagChars fuel done s
      else takeTagChars fuel ((textOf [c]).reverse ++ done) s.skip
    | none => .ok (done.reverse, s)

/-- The meaning of a shorthand or the suffix of a handle, which is not empty. -/
def takeTagText (fuel : Nat) (s : Source) : Except Fault (Text × Source) := do
  let (text, s) ← s.takeTagChars fuel []
  if text.isEmpty then .error .token else .ok (text, s)

/-- An exclamation mark, the name that follows, and whether another exclamation mark ends it. -/
def takeHandle (fuel : Nat) (s : Source) : Except Fault (Text × Bool × Source) := do
  let s ← s.demand 1
  if !s.nextIs '!' then .error .token
  else
    let (name, s) ← s.skip.takeWhile isNameChar fuel []
    if s.nextIs '!' then .ok (textOf ('!' :: name ++ ['!']), true, s.skip)
    else .ok (textOf ('!' :: name), false, s)

/-- A tag: in angle brackets as it is, after a handle, or after a single exclamation mark. A mark
with nothing behind it is a tag of its own. -/
def takeTag (fuel : Nat) (s : Source) : Except Fault (Token × Source) := do
  let s ← s.demand 2
  let (tag, s) ←
    if s.lookIs 1 (· == '<') then do
      let (text, s) ← (s.skipMany 2).takeTagText fuel
      if s.nextIs '>' then .ok (Token.tag [] text, s.skip) else .error .token
    else do
      let (handle, isClosed, s) ← s.takeHandle fuel
      if isClosed then
        let (suffix, s) ← s.takeTagText fuel
        .ok (Token.tag handle suffix, s)
      else
        let (suffix, s) ← s.takeTagChars fuel (handle.drop 1).reverse
        .ok (if suffix.isEmpty then Token.tag [] handle else Token.tag "!" suffix, s)
  let s ← s.demand 1
  if s.isSpaceAt 0 then .ok (tag, s) else .error .token

/-- A number of one or two digits. -/
def takeVersionNumber (fuel : Nat) (s : Source) : Except Fault (Nat × Source) := do
  let (digits, s) ← s.takeWhile Char.isDigit fuel []
  if digits.isEmpty || 2 < digits.length then .error .token
  else .ok (digits.foldl (fun n c => 10 * n + (c.toNat - 0x30)) 0, s)

def takeVersion (fuel : Nat) (s : Source) : Except Fault (Token × Source) := do
  let s ← s.skipWhile isBlank fuel
  let (major, s) ← s.takeVersionNumber fuel
  if !s.nextIs '.' then .error .token
  else
    let (minor, s) ← s.skip.takeVersionNumber fuel
    .ok (.version major minor, s)

def takeShorthand (fuel : Nat) (s : Source) : Except Fault (Token × Source) := do
  let s ← s.skipWhile isBlank fuel
  let (handle, isClosed, s) ← s.takeHandle fuel
  if !isClosed && handle != "!" then .error .token
  else
    let s ← s.demand 1
    if !s.lookIs 0 isBlank then .error .token
    else
      let s ← s.skipWhile isBlank fuel
      let (meaning, s) ← s.takeTagText fuel
      let s ← s.demand 1
      if s.isSpaceAt 0 then .ok (.shorthand handle meaning, s) else .error .token

/-- Passes blanks and a comment; nothing else may stand on the rest of the line. -/
def endLine (fuel : Nat) (s : Source) : Except Fault Source := do
  let s ← s.skipWhile isBlank fuel
  let s ← if s.nextIs '#' then s.skipWhile (fun c => !isBreak c) fuel else .ok s
  if !s.isLineEnd then .error .token
  else
    let s ← s.demand 2
    .ok s.skipBreak

/-- A directive: the version, or a shorthand for tags. -/
def takeDirective (fuel : Nat) (s : Source) : Except Fault (Token × Source) := do
  let (name, s) ← s.skip.takeWhile isNameChar fuel []
  if name.isEmpty || !s.isSpaceAt 0 then .error .token
  else
    let (token, s) ←
      if textOf name == "YAML" then s.takeVersion fuel
      else if textOf name == "TAG" then s.takeShorthand fuel
      else .error .token
    let s ← s.endLine fuel
    .ok (token, s)

end Source

/-- What stands between two words of a scalar. -/
structure Gap where
  /-- Blanks before any line end, last first. -/
  blanks : List Char := []
  isBroken : Bool := false
  first : Option Char := none
  /-- Further line ends, last first. -/
  more : List Char := []

/-- What a gap counts as, last character first: its blanks within a line, a blank for a single
line feed, and otherwise its line ends, of which a line feed that comes first is left out. -/
def Gap.folded (gap : Gap) : List Char :=
  if !gap.isBroken then gap.blanks
  else if gap.first == some '\n' then (if gap.more.isEmpty then [' '] else gap.more)
  else gap.more ++ gap.first.toList

def Gap.isEmpty (gap : Gap) : Bool := gap.blanks.isEmpty && !gap.isBroken

namespace Source

/-- Passes blanks and line ends. A tab on a later line may not stand left of `margin`. -/
def takeGap (margin : Int) : Nat → Gap → Source → Except Fault (Gap × Source)
  | 0, _, _ => .error .token
  | fuel + 1, gap, s => do
    let s ← s.demand 1
    match s.next? with
    | none => .ok (gap, s)
    | some c =>
      if isBlank c then
        if gap.isBroken && (s.column : Int) < margin && c == '\t' then .error .token
        else if gap.isBroken then takeGap margin fuel gap s.skip
        else takeGap margin fuel { gap with blanks := c :: gap.blanks } s.skip
      else if isBreak c then
        let s ← s.demand 2
        let (first, s) := s.takeBreak
        if gap.isBroken then takeGap margin fuel { gap with more := first.toList ++ gap.more } s
        else takeGap margin fuel { gap with blanks := [], isBroken := true, first } s
      else .ok (gap, s)

/-- A word of a plain scalar; `done` is reversed. Among flow marks those end it too. -/
def takePlainWord (inFlow : Bool) : Nat → List Char → Gap → Source →
    Except Fault (List Char × Gap × Source)
  | 0, _, _, _ => .error .token
  | fuel + 1, done, gap, s =>
    match s.next? with
    | none => .ok (done, gap, s)
    | some c =>
      let isFlowMark :=
        c == ',' || c == '?' || c == '[' || c == ']' || c == '\x7b' || c == '\x7d'
      if s.isSpaceAt 0 || (c == ':' && s.isSpaceAt 1) || (inFlow && isFlowMark) then
        .ok (done, gap, s)
      else do
        let s ← s.skip.demand 2
        takePlainWord inFlow fuel (c :: gap.folded ++ done) {} s

/-- A plain scalar, last character first, and the gap behind it. In a block its lines stand at or
right of `margin`. -/
def takePlain (inFlow : Bool) (margin : Int) (reach : Nat) : Nat → List Char → Gap → Source →
    Except Fault (List Char × Gap × Source)
  | 0, _, _, _ => .error .token
  | fuel + 1, done, gap, s => do
    let s ← s.demand 4
    if s.isDocumentMarker || s.nextIs '#' then .ok (done, gap, s)
    else
      let (done, gap, s) ← s.takePlainWord inFlow reach done gap
      if !s.lookIs 0 (fun c => isBlank c || isBreak c) then .ok (done, gap, s)
      else
        let (gap, s) ← s.takeGap margin reach gap
        if !inFlow && (s.column : Int) < margin then .ok (done, gap, s)
        else takePlain inFlow margin reach fuel done gap s

end Source

/-- What a letter behind a backslash stands for. -/
def escaped? (c : Char) : Option Char :=
  if c == '0' then some '\x00'
  else if c == 'a' then some '\x07'
  else if c == 'b' then some '\x08'
  else if c == 't' || c == '\t' then some '\t'
  else if c == 'n' then some '\n'
  else if c == 'v' then some '\x0b'
  else if c == 'f' then some '\x0c'
  else if c == 'r' then some '\r'
  else if c == 'e' then some '\x1b'
  else if c == ' ' || c == '\x22' || c == '\x27' || c == '\x5c' then some c
  else if c == 'N' then some '\u0085'
  else if c == '_' then some '\u00a0'
  else if c == 'L' then some '\u2028'
  else if c == 'P' then some '\u2029'
  else none

/-- How many digits follow a letter that stands for a code point. -/
def escapedDigits? (c : Char) : Option Nat :=
  if c == 'x' then some 2 else if c == 'u' then some 4 else if c == 'U' then some 8 else none

/-- The value of hexadecimal digits. -/
def hexCode? : Nat → List Char → Option Nat
  | value, [] => some value
  | value, c :: rest =>
    match hexOf? c with
    | some digit => hexCode? (value * 16 + digit) rest
    | none => none

namespace Source

/-- A code point given by `width` digits. -/
def takeCode (width : Nat) (s : Source) : Except Fault (Char × Source) := do
  let s ← s.demand width
  let digits := s.ahead.take width
  match hexCode? 0 digits with
  | none => .error .token
  | some code =>
    if digits.length < width || !code.isValidChar then .error .token
    else .ok (Char.ofNat code, s.skipMany width)

/-- What a backslash and the characters behind it stand for. -/
def takeEscape (s : Source) : Except Fault (Char × Source) :=
  match s.ahead[1]? with
  | none => .error .token
  | some letter =>
    match escapedDigits? letter with
    | some width => (s.skipMany 2).takeCode width
    | none =>
      match escaped? letter with
      | some c => .ok (c, s.skipMany 2)
      | none => .error .token

/-- A run without blanks between double quotes; `done` is reversed. `true` when it ends in a
backslash at the end of a line, which is passed. -/
def takeDoubleRun : Nat → List Char → Source → Except Fault (List Char × Bool × Source)
  | 0, _, _ => .error .token
  | fuel + 1, done, s =>
    match s.next? with
    | none => .ok (done, false, s)
    | some c =>
      if s.isSpaceAt 0 || c == '\x22' then .ok (done, false, s)
      else if c == '\x5c' && s.lookIs 1 isBreak then do
        let s ← s.demand 3
        .ok (done, true, s.skip.skipBreak)
      else if c == '\x5c' then do
        let (c, s) ← s.takeEscape
        let s ← s.demand 2
        takeDoubleRun fuel (c :: done) s
      else do
        let s ← s.skip.demand 2
        takeDoubleRun fuel (c :: done) s

/-- A run without blanks between single quotes; `done` is reversed. Two quotes stand for one. -/
def takeSingleRun : Nat → List Char → Source → Except Fault (List Char × Bool × Source)
  | 0, _, _ => .error .token
  | fuel + 1, done, s =>
    match s.next? with
    | none => .ok (done, false, s)
    | some c =>
      let isQuote := fun c => c == '\x27'
      if s.isSpaceAt 0 || (isQuote c && !s.lookIs 1 isQuote) then .ok (done, false, s)
      else do
        let s ← (if isQuote c then s.skipMany 2 else s.skip).demand 2
        takeSingleRun fuel (c :: done) s

/-- Reads on behind an opening quote up to the closing one; `done` is reversed. -/
def takeQuoted (isSingle : Bool) (reach : Nat) : Nat → List Char → Source →
    Except Fault (List Char × Source)
  | 0, _, _ => .error .token
  | fuel + 1, done, s => do
    let s ← s.demand 4
    if s.isDocumentMarker || s.next?.isNone then .error .token
    else
      let (done, isBroken, s) ←
        if isSingle then s.takeSingleRun reach done else s.takeDoubleRun reach done
      let s ← s.demand 1
      if s.nextIs (if isSingle then '\x27' else '\x22') then .ok (done.reverse, s.skip)
      else
        let (gap, s) ← s.takeGap 0 reach { isBroken }
        takeQuoted isSingle reach fuel (gap.folded ++ done) s

end Source

/-- What becomes of the line ends at the end of a block scalar. -/
inductive Chomping where
  | strip
  | clip
  | keep
  deriving Repr, DecidableEq

namespace Source

def takeChomping (s : Source) : Except Fault (Option Chomping × Source) := do
  let s ← s.demand 1
  if s.nextIs '+' then .ok (some .keep, s.skip)
  else if s.nextIs '-' then .ok (some .strip, s.skip)
  else .ok (none, s)

/-- The indentation a header gives, which is not zero. -/
def takeIndentation (s : Source) : Except Fault (Option Nat × Source) := do
  let s ← s.demand 1
  match s.next? with
  | some c =>
    if c == '0' then .error .token
    else if c.isDigit then .ok (some (c.toNat - 0x30), s.skip)
    else .ok (none, s)
  | none => .ok (none, s)

/-- The marks behind the one that starts a block scalar, in either order. -/
def takeHeader (s : Source) : Except Fault (Chomping × Option Nat × Source) := do
  let (chomping, s) ← s.takeChomping
  let (indentation, s) ← s.takeIndentation
  match chomping with
  | some chomping => .ok (chomping, indentation, s)
  | none =>
    match indentation with
    | none => .ok (.clip, none, s)
    | some _ =>
      let (chomping, s) ← s.takeChomping
      .ok (chomping.getD .clip, indentation, s)

/-- Passes empty lines and the blanks that indent the next one, no more than `indent` of them
unless that is zero. Gives the line ends, last first, and the deepest column reached. -/
def takeEmptyLines (indent : Nat) (reach : Nat) : Nat → Nat → List Char → Source →
    Except Fault (Nat × List Char × Source)
  | 0, _, _, _ => .error .token
  | fuel + 1, deepest, breaks, s => do
    let s ← indentBlanks reach s
    let deepest := max deepest s.column
    if (indent == 0 || s.column < indent) && s.nextIs '\t' then .error .token
    else if !s.lookIs 0 isBreak then .ok (deepest, breaks, s)
    else
      let s ← s.demand 2
      let (c, s) := s.takeBreak
      takeEmptyLines indent reach fuel deepest (c.toList ++ breaks) s
where
  /-- Passes blanks up to the indentation. -/
  indentBlanks : Nat → Source → Except Fault Source
    | 0, _ => .error .token
    | fuel + 1, s => do
      let s ← s.demand 1
      if (indent == 0 || s.column < indent) && s.nextIs ' ' then indentBlanks fuel s.skip
      else .ok s

/-- A block scalar as far as it is read, all texts reversed. -/
structure BlockText where
  done : List Char := []
  first : Option Char := none
  breaks : List Char
  /-- The last line began with a blank. -/
  isIndented : Bool := false

/-- The lines of a block scalar that are indented by `indent`. -/
def takeLines (isFolded : Bool) (indent : Nat) (reach : Nat) : Nat → BlockText → Source →
    Except Fault (BlockText × Source)
  | 0, _, _ => .error .token
  | fuel + 1, text, s =>
    if s.column != indent || s.next?.isNone then .ok (text, s)
    else do
      let startsBlank := s.lookIs 0 isBlank
      let joint : List Char :=
        if isFolded && !text.isIndented && !startsBlank && text.first == some '\n' then
          (if text.breaks.isEmpty then [' '] else [])
        else text.first.toList
      let (line, s) ← s.takeWhile (fun c => !isBreak c) reach []
      let s ← s.demand 2
      let (first, s) := s.takeBreak
      let (_, breaks, s) ← s.takeEmptyLines indent reach reach 0 []
      let done := line.reverse ++ text.breaks ++ joint ++ text.done
      takeLines isFolded indent reach fuel { done, first, breaks, isIndented := startsBlank } s

/-- A literal or folded scalar within a block indented by `outer`. -/
def takeBlock (isFolded : Bool) (outer : Int) (reach : Nat) (s : Source) :
    Except Fault (List Char × Source) := do
  let (chomping, given, s) ← s.skip.takeHeader
  let s ← s.endLine reach
  let offset := max outer 0
  let given := (given.map fun n => (offset + n).toNat).getD 0
  let (deepest, breaks, s) ← s.takeEmptyLines given reach reach 0 []
  let indent := if given = 0 then max (max deepest (outer + 1).toNat) 1 else given
  let s ← s.demand 1
  let (text, s) ← s.takeLines isFolded indent reach reach { breaks }
  let ending :=
    match chomping with
    | .strip => []
    | .clip => text.first.toList
    | .keep => text.breaks ++ text.first.toList
  .ok ((ending ++ text.done).reverse, s)

end Source

end MeshConsole.Yaml
