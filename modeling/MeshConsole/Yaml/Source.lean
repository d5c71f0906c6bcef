import MeshConsole.Text.Utf8

/-!
# Characters of a YAML file

A file is UTF-8, or UTF-16 when a byte order mark says so. It is taken in portions of limited
size, each decoded as a whole before any of its characters is looked at, so a fault counts only
when the portion with it is reached.
-/

namespace MeshConsole.Yaml

/-- Why a file is no YAML document. -/
inductive Fault where
  /-- Bytes that are no characters, or characters that no file may hold. -/
  | unreadable
  /-- Characters that make no token. -/
  | token
  /-- Tokens that make no document. -/
  | layout
  /-- A document that stands for no value. -/
  | meaning
  deriving Repr, DecidableEq

/-- Control characters other than tab and line ends, and a few code points that are no
characters, are left out. -/
def isAllowed (code : Nat) : Bool :=
  code == 0x09 || code == 0x0A || code == 0x0D || (0x20 ≤ code && code ≤ 0x7E) || code == 0x85 ||
  (0xA0 ≤ code && code ≤ 0xD7FF) || (0xE000 ≤ code && code ≤ 0xFFFD) ||
  (0x10000 ≤ code && code ≤ 0x10FFFF)

/-- What the bytes at hand start with. -/
inductive Head where
  | code (code : Nat) (rest : Text)
  /-- The beginning of a character whose end is not at hand. -/
  | part
  | bad

/-- How many bytes a UTF-8 character takes, by its first one. -/
def utf8Width? (b : UInt8) : Option Nat :=
  if b < 0x80 then some 1
  else if 0xC0 ≤ b && b ≤ 0xDF then some 2
  else if 0xE0 ≤ b && b ≤ 0xEF then some 3
  else if 0xF0 ≤ b && b ≤ 0xF7 then some 4
  else none

def utf8Head : Text → Head
  | [] => .part
  | a :: rest =>
    match utf8Width? a with
    | none => .bad
    | some width =>
      if (rest.take (width - 1)).length < width - 1 then .part
      else
        match Text.headGlyph a rest with
        | .scalar code _ => .code code (rest.drop (width - 1))
        | .stray _ => .bad

/-- A pair of units stands for a code point beyond the first 65536. -/
def utf16Head (bigEndian : Bool) : Text → Head
  | a :: b :: rest =>
    let unit := fun (a b : UInt8) => if bigEndian then a.toNat * 256 + b.toNat
      else b.toNat * 256 + a.toNat
    let first := unit a b
    if first / 1024 = 55 then .bad
    else if first / 1024 = 54 then
      match rest with
      | c :: d :: rest =>
        let second := unit c d
        if second / 1024 = 55 then .code (0x10000 + first % 1024 * 1024 + second % 1024) rest
        else .bad
      | _ => .part
    else .code first rest
  | _ => .part

/-- The characters of a portion, last first, and the bytes of one that is cut off at its end.
Nothing when the portion holds a fault. -/
def decode (head : Text → Head) : Nat → List Char → Text → Option (List Char × Text)
  | 0, done, rest => some (done, rest)
  | fuel + 1, done, bytes =>
    if bytes.isEmpty then some (done, [])
    else
      match head bytes with
      | .part => some (done, bytes)
      | .bad => none
      | .code code rest =>
        if isAllowed code then decode head fuel (Char.ofNat code :: done) rest else none

/-- What is read at one go. -/
inductive Portion where
  | chars (cs : List Char)
  | fault
  deriving Repr, DecidableEq

/-- How many bytes a portion takes, those left over from the one before included. -/
def portionSize : Nat := 512

/-- Cuts bytes into portions, the first of them of `room` bytes. -/
def portionsFrom (head : Text → Head) : Nat → Nat → Text → List Portion
  | 0, _, _ => []
  | fuel + 1, room, bytes =>
    if bytes.isEmpty then []
    else
      let window := bytes.take room
      match decode head (window.length + 1) [] window with
      | none => [.fault]
      | some (done, left) =>
        let beyond := bytes.drop room
        if beyond.isEmpty then
          .chars done.reverse :: if left.isEmpty then [] else [.fault]
        else .chars done.reverse :: portionsFrom head fuel portionSize (left ++ beyond)

/-- The portions of a file. An empty file counts as an empty line. -/
def portions (content : Text) : List Portion :=
  let fuel := content.length + 1
  match content with
  | 0xFF :: 0xFE :: rest => portionsFrom (utf16Head false) fuel (portionSize - 2) rest
  | 0xFE :: 0xFF :: rest => portionsFrom (utf16Head true) fuel (portionSize - 2) rest
  | 0xEF :: 0xBB :: 0xBF :: rest => portionsFrom utf8Head fuel (portionSize - 3) rest
  | [] => [.chars ['\n']]
  | rest => portionsFrom utf8Head fuel portionSize rest

def isBlank (c : Char) : Bool := c == ' ' || c == '\t'

def isBreak (c : Char) : Bool :=
  c == '\n' || c == '\r' || c == '\u0085' || c == '\u2028' || c == '\u2029'

def byteOrderMark : Char := '\ufeff'

/-- Whether a list has at least so many elements. -/
def reaches : Nat → List Char → Bool
  | 0, _ => true
  | _ + 1, [] => false
  | n + 1, _ :: rest => reaches n rest

/-- Appends portions until `n` characters are at hand or none are left. -/
def load (n : Nat) : List Char → List Portion → Except Fault (List Char × List Portion)
  | ahead, [] => .ok (ahead, [])
  | ahead, portion :: pending =>
    if reaches n ahead then .ok (ahead, portion :: pending)
    else
      match portion with
      | .fault => .error .unreadable
      | .chars cs => load n (ahead ++ cs) pending

/-- A place in a file. -/
structure Source where
  /-- The characters at hand; behind the last portion there are no more. -/
  ahead : List Char := []
  pending : List Portion
  /-- The characters that were at hand when last some were loaded began with a byte order mark. -/
  isMarked : Bool := false
  index : Nat := 0
  line : Nat := 0
  column : Nat := 0
  /-- The line ends passed since the last character that is no blank. -/
  breaks : Nat := 0

namespace Source

def ofContent (content : Text) : Source := { pending := portions content }

/-- Sees to it that `n` characters are at hand, unless the file ends before. -/
def demand (n : Nat) (s : Source) : Except Fault Source :=
  if reaches n s.ahead then .ok s
  else
    match load n s.ahead s.pending with
    | .error fault => .error fault
    | .ok (ahead, pending) =>
      .ok { s with ahead, pending, isMarked := ahead.head? == some byteOrderMark }

def next? (s : Source) : Option Char := s.ahead.head?

def nextIs (c : Char) (s : Source) : Bool := s.next? == some c

/-- The character `offset` places on, if it meets a condition. The end of the file meets none. -/
def lookIs (offset : Nat) (p : Char → Bool) (s : Source) : Bool := s.ahead[offset]?.any p

/-- Blank, line end or end of file `offset` places on. -/
def isSpaceAt (offset : Nat) (s : Source) : Bool :=
  match s.ahead[offset]? with
  | none => true
  | some c => isBlank c || isBreak c

/-- Line end or end of file right ahead. -/
def isLineEnd (s : Source) : Bool := s.next?.all isBreak

/-- Passes one character. -/
def skip (s : Source) : Source :=
  match s.ahead with
  | [] => s
  | c :: rest =>
    { s with
      ahead := rest, index := s.index + 1, column := s.column + 1,
      breaks := if isBlank c then s.breaks else 0 }

/-- Passes `n` characters. -/
def skipMany : Nat → Source → Source
  | 0, s => s
  | n + 1, s => skipMany n s.skip

/-- Passes a line end, if there is one, and gives what it counts as: a line feed, or one of the
two separators of Unicode as itself. -/
def takeBreak (s : Source) : Option Char × Source :=
  let pass := fun (length : Nat) (rest : List Char) =>
    { s with
      ahead := rest, index := s.index + length, line := s.line + 1, column := 0,
      breaks := s.breaks + 1 }
  match s.ahead with
  | '\r' :: '\n' :: rest => (some '\n', pass 2 rest)
  | c :: rest =>
    if c == '\u2028' || c == '\u2029' then (some c, pass 1 rest)
    else if isBreak c then (some '\n', pass 1 rest)
    else (none, s)
  | [] => (none, s)

def skipBreak (s : Source) : Source := s.takeBreak.2

/-- Passes characters that meet a condition. -/
def skipWhile (p : Char → Bool) : Nat → Source → Except Fault Source
  | 0, _ => .error .token
  | fuel + 1, s => do
    let s ← s.demand 1
    if s.lookIs 0 p then skipWhile p fuel s.skip else .ok s

/-- Takes characters that meet a condition; `done` is reversed. -/
def takeWhile (p : Char → Bool) : Nat → List Char → Source → Except Fault (List Char × Source)
  | 0, _, _ => .error .token
  | fuel + 1, done, s => do
    let s ← s.demand 1
    match s.next? with
    | some c => if p c then takeWhile p fuel (c :: done) s.skip else .ok (done.reverse, s)
    | none => .ok (done.reverse, s)

/-- Three times `c` at the start of a line, with space behind. -/
def isMarker (c : Char) (s : Source) : Bool :=
  s.column == 0 && s.lookIs 0 (· == c) && s.lookIs 1 (· == c) && s.lookIs 2 (· == c) &&
  s.isSpaceAt 3

def isDocumentMarker (s : Source) : Bool := s.isMarker '-' || s.isMarker '.'

/-- The distance to the next number sign, if only characters that `pass` admits stand before it;
not looked for beyond `left` characters. -/
def commentAfter? (pass : Char → Bool) : Nat → Nat → Source →
    Except Fault (Option Nat × Source)
  | 0, _, s => .ok (none, s)
  | left + 1, offset, s => do
    let s ← s.demand (offset + 1)
    match s.ahead[offset]? with
    | none => .ok (none, s)
    | some c =>
      if c == '#' then .ok (some offset, s)
      else if pass c then commentAfter? pass left (offset + 1) s
      else .ok (none, s)

/-- Passes characters and line ends up to `index`. -/
def skipTo (index : Nat) : Nat → Source → Source
  | 0, s => s
  | fuel + 1, s =>
    if s.index < index then
      skipTo index fuel (if s.lookIs 0 isBreak then s.skipBreak else s.skip)
    else s

/-- How far ahead a comment is looked for. -/
def commentReach : Nat := 512

/-- Passes a comment on the line of the last token. -/
def skipLineComment (fuel : Nat) (s : Source) : Except Fault Source := do
  if 0 < s.breaks then .ok s
  else
    let (found, s) ← s.commentAfter? isBlank commentReach 0
    match found with
    | none => .ok s
    | some offset => (s.skipMany offset).skipWhile (fun c => !isBreak c) fuel

/-- Passes a comment and those on the next lines, whatever blanks stand before them. -/
def skipComments (reach : Nat) : Nat → Source → Except Fault Source
  | 0, _ => .error .token
  | fuel + 1, s => do
    let s ← s.skipWhile (fun c => !isBreak c) reach
    let isGap := fun c => isBlank c || c == '\n' || c == '\r'
    let (found, s) ← s.commentAfter? isGap commentReach 0
    match found with
    | none => .ok s
    | some offset => skipComments reach fuel (s.skipTo (s.index + offset) reach)

end Source

end MeshConsole.Yaml
