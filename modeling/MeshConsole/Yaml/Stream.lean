import MeshConsole.Yaml.Token

/-!
# The token stream of a file

Tokens are made one at a time and wait in a queue. A scalar, an alias or a collection may turn out
to be a key once a colon follows; the token that says so then goes into the queue before it, and
with it the one that opens a block. A few tokens are always made ahead of the one that is wanted.
-/

namespace MeshConsole.Yaml

/-- A place where a key may have begun. -/
structure Candidate where
  /-- The number of its first token. -/
  number : Nat
  /-- It stands where only a key can stand. -/
  isRequired : Bool
  index : Nat
  line : Nat
  column : Nat

/-- The greatest distance between the beginning of a key and its colon. -/
def keyReach : Nat := 1024

/-- The greatest depth of collections. -/
def maxDepth : Nat := 10000

/-- Whether the colon of a key may still follow: it stands on the same line, not too far on. -/
def Candidate.isOpen (key : Candidate) (s : Source) : Except Fault Bool :=
  if key.line < s.line || key.index + keyReach < s.index then
    if key.isRequired then .error .token else .ok false
  else .ok true

structure Stream where
  source : Source
  /-- No loop over the file takes more steps than this. -/
  reach : Nat
  queue : List Token := []
  /-- How many tokens have been taken from the queue. -/
  taken : Nat := 0
  /-- The column of the innermost block; `-1` outside of all. -/
  indent : Int := -1
  /-- The columns of the blocks around it, innermost first. -/
  outer : List Int := []
  /-- How many flow collections are open. -/
  depth : Nat := 0
  /-- The candidates of the open flow collections, innermost first, and of the block around them. -/
  candidates : List (Option Candidate) := [none]
  isKeyAllowed : Bool := true

namespace Stream

def ofContent (content : Text) : Stream :=
  { source := Source.ofContent content, reach := content.length + 8 }

def push (token : Token) (s : Stream) : Stream := { s with queue := s.queue ++ [token] }

/-- Puts a token before the one with the given number. -/
def insertAt (number : Nat) (token : Token) (s : Stream) : Stream :=
  let (before, after) := s.queue.splitAt (number - s.taken)
  { s with queue := before ++ token :: after }

/-- Opens a block at a column right of the innermost one. The token goes before the one with the
given number, or else to the end. -/
def openBlock (column : Nat) (number : Option Nat) (token : Token) (s : Stream) :
    Except Fault Stream :=
  if 0 < s.depth || (column : Int) ≤ s.indent then .ok s
  else
    let outer := s.indent :: s.outer
    if maxDepth < outer.length then .error .token
    else
      let s := { s with outer, indent := column }
      match number with
      | some number => .ok (s.insertAt number token)
      | none => .ok (s.push token)

/-- Closes the blocks right of a column; `ended` counts the tokens that say so. -/
def closedBlocks (column : Int) : Int → List Int → Nat → Int × List Int × Nat
  | indent, [], ended => (indent, [], ended)
  | indent, next :: outer, ended =>
    if column < indent then closedBlocks column next outer (ended + 1)
    else (indent, next :: outer, ended)

/-- Closes the blocks right of a column. Inside a flow collection indentation says nothing. -/
def closeBlocks (column : Int) (s : Stream) : Stream :=
  if 0 < s.depth then s
  else
    let (indent, outer, ended) := closedBlocks column s.indent s.outer 0
    if ended = 0 then s
    else { s with indent, outer, queue := s.queue ++ List.replicate ended .blockEnd }

/-- Gives the candidate of the innermost collection up, unless it has to be a key. -/
def dropKey (s : Stream) : Except Fault Stream :=
  match s.candidates with
  | some key :: rest =>
    if key.isRequired then .error .token else .ok { s with candidates := none :: rest }
  | _ => .ok s

/-- Notes that a key may begin with the next token. -/
def saveKey (s : Stream) : Except Fault Stream :=
  if !s.isKeyAllowed then .ok s
  else do
    let s ← s.dropKey
    let here := s.source
    let key : Candidate := {
      number := s.taken + s.queue.length
      isRequired := s.depth == 0 && s.indent == (here.column : Int)
      index := here.index, line := here.line, column := here.column }
    .ok { s with candidates := some key :: s.candidates.tail }

/-- Passes blanks, comments and line ends. In a block a key may begin on every new line, and no tab
may stand where one may begin. -/
def toNextToken : Nat → Stream → Except Fault Stream
  | 0, _ => .error .token
  | fuel + 1, s => do
    let here ← s.source.demand 1
    let here := if here.column == 0 && here.isMarked then here.skip else here
    let isTabBlank := 0 < s.depth || !s.isKeyAllowed
    let here ← here.skipWhile (fun c => c == ' ' || (isTabBlank && c == '\t')) s.reach
    let here ← if here.nextIs '#' then here.skipComments s.reach s.reach else .ok here
    if here.lookIs 0 isBreak then
      let here ← here.demand 2
      toNextToken fuel
        { s with source := here.skipBreak, isKeyAllowed := s.depth == 0 || s.isKeyAllowed }
    else .ok { s with source := here }

/-- Ends all blocks and candidates. -/
def endBlocks (s : Stream) : Except Fault Stream := do
  let s ← (s.closeBlocks (-1)).dropKey
  .ok { s with isKeyAllowed := false }

def fetchDirective (s : Stream) : Except Fault Stream := do
  let s ← s.endBlocks
  let (token, source) ← s.source.takeDirective s.reach
  .ok ({ s with source }.push token)

def fetchMarker (token : Token) (s : Stream) : Except Fault Stream := do
  let s ← s.endBlocks
  .ok ({ s with source := s.source.skipMany 3 }.push token)

/-- The end of the file counts as the start of a line. -/
def fetchEnd (s : Stream) : Except Fault Stream := do
  let here := s.source
  let source :=
    if here.column == 0 then here else { here with column := 0, line := here.line + 1 }
  let s ← { s with source }.endBlocks
  .ok (s.push .streamEnd)

/-- Passes the mark of a token that is one character long. -/
def pushMark (token : Token) (s : Stream) : Stream :=
  { s with source := s.source.skip }.push token

def fetchFlowStart (token : Token) (s : Stream) : Except Fault Stream := do
  let s ← s.saveKey
  if maxDepth < s.depth + 1 then .error .token
  else
    let s := { s with
      candidates := none :: s.candidates, depth := s.depth + 1, isKeyAllowed := true }
    .ok (s.pushMark token)

def fetchFlowEnd (token : Token) (s : Stream) : Except Fault Stream := do
  let s ← s.dropKey
  let s :=
    if s.depth = 0 then s
    else { s with candidates := s.candidates.tail, depth := s.depth - 1 }
  .ok ({ s with isKeyAllowed := false }.pushMark token)

def fetchComma (s : Stream) : Except Fault Stream := do
  let s ← s.dropKey
  .ok ({ s with isKeyAllowed := true }.pushMark .comma)

/-- A dash. In a block it stands where a key may begin. -/
def fetchItem (s : Stream) : Except Fault Stream := do
  let s ←
    if 0 < s.depth then .ok s
    else if !s.isKeyAllowed then .error .token
    else s.openBlock s.source.column none .blockListStart
  let s ← s.dropKey
  .ok ({ s with isKeyAllowed := true }.pushMark .item)

/-- A question mark. In a block it stands where a key may begin. -/
def fetchKey (s : Stream) : Except Fault Stream := do
  let s ←
    if 0 < s.depth then .ok s
    else if !s.isKeyAllowed then .error .token
    else s.openBlock s.source.column none .blockMapStart
  let s ← s.dropKey
  .ok ({ s with isKeyAllowed := s.depth == 0 }.pushMark .key)

/-- A colon with no key on its line. In a block it stands where a key may begin. -/
def fetchBareValue (s : Stream) : Except Fault Stream := do
  let s ←
    if 0 < s.depth then .ok s
    else if !s.isKeyAllowed then .error .token
    else s.openBlock s.source.column none .blockMapStart
  .ok ({ s with isKeyAllowed := s.depth == 0 }.pushMark .value)

/-- A colon behind a candidate, which thereby is a key. -/
def fetchKeyValue (key : Candidate) (s : Stream) : Except Fault Stream := do
  let s := s.insertAt key.number .key
  let s ← s.openBlock key.column (some key.number) .blockMapStart
  .ok ({ s with isKeyAllowed := false }.pushMark .value)

/-- A colon. The candidate of the innermost collection is used up by it. -/
def fetchValue (s : Stream) : Except Fault Stream := do
  let free := { s with candidates := none :: s.candidates.tail }
  match s.candidates.head?.join with
  | none => free.fetchBareValue
  | some key => if ← key.isOpen s.source then free.fetchKeyValue key else free.fetchBareValue

/-- A token that may begin a key, read off the characters ahead. -/
def fetchWord (take : Source → Except Fault (Token × Source)) (s : Stream) :
    Except Fault Stream := do
  let s ← s.saveKey
  let (token, source) ← take s.source
  .ok ({ s with source, isKeyAllowed := false }.push token)

def fetchName (make : Text → Token) (s : Stream) : Except Fault Stream :=
  s.fetchWord fun source => do
    let (name, source) ← source.takeName s.reach
    .ok (make name, source)

def fetchQuoted (isSingle : Bool) (s : Stream) : Except Fault Stream :=
  s.fetchWord fun source => do
    let (text, source) ← source.skip.takeQuoted isSingle s.reach s.reach []
    .ok (.scalar (textOf text) false, source)

def fetchBlockScalar (isFolded : Bool) (s : Stream) : Except Fault Stream := do
  let s ← s.dropKey
  let (text, source) ← s.source.takeBlock isFolded s.indent s.reach
  .ok ({ s with source, isKeyAllowed := true }.push (.scalar (textOf text) false))

/-- A plain scalar. Behind one that ends at the end of a line a key may begin. -/
def fetchPlain (s : Stream) : Except Fault Stream := do
  let s ← s.saveKey
  let (text, gap, source) ←
    s.source.takePlain (0 < s.depth) (s.indent + 1) s.reach s.reach [] {}
  .ok ({ s with source, isKeyAllowed := gap.isBroken }.push (.scalar (textOf text.reverse) true))

/-- Marks that no plain scalar starts with, the dash, the question mark and the colon apart. -/
def isIndicator (c : Char) : Bool :=
  c == ',' || c == '[' || c == ']' || c == '\x7b' || c == '\x7d' || c == '#' || c == '&' ||
  c == '*' || c == '!' || c == '|' || c == '>' || c == '\x27' || c == '\x22' || c == '%' ||
  c == '@' || c == '\x60'

/-- Whether a plain scalar starts with `c`. -/
def startsPlain (c : Char) (s : Stream) : Bool :=
  if c == '-' then !s.source.lookIs 1 isBlank
  else if c == '?' || c == ':' then s.depth == 0 && !s.source.isSpaceAt 1
  else !isIndicator c && !isBlank c

/-- The token that starts with `c`, which stands ahead. -/
def fetchContent (c : Char) (s : Stream) : Except Fault Stream :=
  let isMark := fun mark => c == mark && (0 < s.depth || s.source.isSpaceAt 1)
  if c == '[' then s.fetchFlowStart .flowListStart
  else if c == '\x7b' then s.fetchFlowStart .flowMapStart
  else if c == ']' then s.fetchFlowEnd .flowListEnd
  else if c == '\x7d' then s.fetchFlowEnd .flowMapEnd
  else if c == ',' then s.fetchComma
  else if c == '-' && s.source.isSpaceAt 1 then s.fetchItem
  else if isMark '?' then s.fetchKey
  else if isMark ':' then s.fetchValue
  else if c == '*' then s.fetchName .alias
  else if c == '&' then s.fetchName .anchor
  else if c == '!' then s.fetchWord fun source => source.takeTag s.reach
  else if c == '|' && s.depth == 0 then s.fetchBlockScalar false
  else if c == '>' && s.depth == 0 then s.fetchBlockScalar true
  else if c == '\x27' then s.fetchQuoted true
  else if c == '\x22' then s.fetchQuoted false
  else if s.startsPlain c then s.fetchPlain
  else .error .token

/-- Makes the next token, and those that indentation adds to it. A comment behind it on its line is
passed with it. -/
def fetch (s : Stream) : Except Fault Stream := do
  let s ← s.toNextToken s.reach
  let s := s.closeBlocks s.source.column
  let source ← s.source.demand 4
  let s := { s with source }
  match source.next? with
  | none => s.fetchEnd
  | some c =>
    if source.column == 0 && c == '%' then s.fetchDirective
    else if source.isMarker '-' then s.fetchMarker .documentStart
    else if source.isMarker '.' then s.fetchMarker .documentEnd
    else
      let s ← s.fetchContent c
      if s.queue.getLast? == some .item then .ok s
      else
        let source ← s.source.skipLineComment s.reach
        .ok { s with source }

/-- Whether the first token in the queue may still turn out to begin a key. A candidate whose colon
can no longer follow is given up. -/
def headIsOpen (s : Stream) : Except Fault (Bool × Stream) :=
  let isHead := fun key : Candidate => key.number == s.taken
  match s.candidates.findSome? fun key? => key?.filter isHead with
  | none => .ok (false, s)
  | some key => do
    if ← key.isOpen s.source then .ok (true, s)
    else
      let giveUp := fun key? : Option Candidate => key?.filter fun key => !isHead key
      .ok (false, { s with candidates := s.candidates.map giveUp })

/-- Makes tokens until the first one is settled and two more wait behind it. -/
def fill : Nat → Stream → Except Fault Stream
  | 0, _ => .error .token
  | fuel + 1, s =>
    match s.queue with
    | _ :: _ :: _ :: _ => do
      let (isOpen, s) ← s.headIsOpen
      if isOpen then fill fuel (← s.fetch) else .ok s
    | _ => do fill fuel (← s.fetch)

/-- The next token, which stays in the queue. -/
def peek (s : Stream) : Except Fault (Token × Stream) := do
  let s ← s.fill (s.reach + 8)
  .ok (s.queue.head?.getD .streamEnd, s)

/-- Drops the next token. -/
def advance (s : Stream) : Stream := { s with queue := s.queue.tail, taken := s.taken + 1 }

end Stream

end MeshConsole.Yaml
