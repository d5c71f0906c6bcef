import MeshConsole.Yaml.Stream

/-!
# Nodes of a document

The tokens of a document form a tree. An alias stands for the node that was last given its name;
within that node itself it closes a circle. Only the first document of a file is looked at.
-/

namespace MeshConsole.Yaml

mutual

inductive Node where
  /-- The tag is in its short spelling, and empty where none is given. -/
  | scalar (tag text : Text) (isPlain : Bool)
  | list (items : Nodes)
  | map (members : Members)
  | alias (name : Text) (target : Node)
  | circle (name : Text)

inductive Nodes where
  | nil
  | cons (node : Node) (rest : Nodes)

inductive Members where
  | nil
  | cons (key value : Node) (rest : Members)

end

/-- Nodes from a list with the last one first. -/
def Nodes.ofReversed (rest : Nodes) : List Node → Nodes
  | [] => rest
  | node :: before => Nodes.ofReversed (.cons node rest) before

/-- Members from a list with the last one first. -/
def Members.ofReversed (rest : Members) : List (Node × Node) → Members
  | [] => rest
  | (key, value) :: before => Members.ofReversed (.cons key value rest) before

/-- A plain scalar of no characters stands where nothing does. -/
def Node.empty : Node := .scalar [] [] true

/-- A name for a node. -/
structure Anchor where
  name : Text
  serial : Nat
  /-- Nothing while the node is not complete. -/
  node : Option Node

/-- How far a document has been read. -/
structure Reading where
  stream : Stream
  /-- What the handles of tags stand for. -/
  shorthands : List (Text × Text) := []
  /-- The newest first. -/
  anchors : List Anchor := []
  named : Nat := 0

abbrev Reader := StateT Reading (Except Fault)

namespace Reader

/-- The next token, which stays. -/
def peek : Reader Token := do
  let reading ← get
  let (token, stream) ← reading.stream.peek
  set { reading with stream }
  return token

/-- Drops the next token. -/
def advance : Reader Unit :=
  modify fun reading => { reading with stream := reading.stream.advance }

def fail {α : Type} : Reader α := throw .layout

/-- The handles that stand for something without a directive. -/
def standardShorthands : List (Text × Text) := [("!", "!"), ("!!", "tag:yaml.org,2002:")]

/-- The directives before a document. Each handle is given once, and only version 1.1 is read. -/
def directives : Nat → Bool → Reader Unit
  | 0, _ => fail
  | fuel + 1, isVersioned => do
    match ← peek with
    | .version major minor =>
      if isVersioned || major ≠ 1 || minor ≠ 1 then fail
      else
        advance
        directives fuel true
    | .shorthand handle meaning =>
      let reading ← get
      if reading.shorthands.any fun entry => entry.1 == handle then fail
      else
        set { reading with shorthands := reading.shorthands ++ [(handle, meaning)] }
        advance
        directives fuel isVersioned
    | _ =>
      modify fun reading =>
        { reading with shorthands := reading.shorthands ++ standardShorthands }

/-- The short spelling of a tag. -/
def shortTag (tag : Text) : Text :=
  if tag == "!" then []
  else
    match Text.after? "tag:yaml.org,2002:" tag with
    | some name => ("!!" : Text) ++ name
    | none => tag

/-- The tag that a handle and a suffix stand for. -/
def tagOf (handle suffix : Text) : Reader Text := do
  if handle.isEmpty then return suffix
  else
    match (← get).shorthands.find? fun entry => entry.1 == handle with
    | some (_, meaning) => return meaning ++ suffix
    | none => fail

/-- What may stand before a node. -/
structure Properties where
  tag : Option Text := none
  anchor : Option Text := none

def takeAnchor? : Reader (Option Text) := do
  match ← peek with
  | .anchor name =>
    advance
    return some name
  | _ => return none

def takeTag? : Reader (Option (Text × Text)) := do
  match ← peek with
  | .tag handle suffix =>
    advance
    return some (handle, suffix)
  | _ => return none

/-- A tag and an anchor, in either order. -/
def properties : Reader Properties := do
  let first ← takeAnchor?
  let tag ← takeTag?
  let anchor ← if tag.isSome && first.isNone then takeAnchor? else pure first
  match tag with
  | none => return { anchor }
  | some (handle, suffix) => return { tag := some (← tagOf handle suffix), anchor }

/-- Starts to name a node. -/
def beginAnchor (anchor : Option Text) : Reader Nat := do
  let reading ← get
  match anchor with
  | none => return reading.named
  | some name =>
    let entry : Anchor := { name, serial := reading.named, node := none }
    set { reading with anchors := entry :: reading.anchors, named := reading.named + 1 }
    return reading.named

/-- Completes the node that was named under a serial. -/
def endAnchor (anchor : Option Text) (serial : Nat) (node : Node) : Reader Node := do
  if anchor.isSome then
    let complete := fun entry : Anchor =>
      if entry.serial = serial then { entry with node := some node } else entry
    modify fun reading => { reading with anchors := reading.anchors.map complete }
  return node

/-- The node that a name stands for. -/
def aliasOf (name : Text) : Reader Node := do
  match (← get).anchors.find? fun entry => entry.name == name with
  | none => fail
  | some entry =>
    match entry.node with
    | some node => return .alias name node
    | none => return .circle name

/-- No node stands before such a token in a block map. -/
def endsMember : Token → Bool
  | .key => true
  | .value => true
  | .blockEnd => true
  | _ => false

/-- No node stands before such a token in a flow collection. -/
def endsFlowEntry (closing : Token) (token : Token) : Bool := token == .comma || token == closing

mutual

/-- A node. Only in a block may it be a block collection itself, and only where `mayHang` a list
whose dashes stand no deeper than the key before it. -/
def node : Nat → Bool → Bool → Reader Node
  | 0, _, _ => fail
  | fuel + 1, inBlock, mayHang => do
    match ← peek with
    | .alias name =>
      advance
      aliasOf name
    | _ =>
      let given ← properties
      let serial ← beginAnchor given.anchor
      match ← peek with
      | .scalar text isPlain =>
        advance
        endAnchor given.anchor serial (.scalar (shortTag (given.tag.getD [])) text isPlain)
      | .flowListStart =>
        advance
        endAnchor given.anchor serial (.list (← flowItems fuel true []))
      | .flowMapStart =>
        advance
        endAnchor given.anchor serial (.map (← flowMembers fuel true []))
      | token =>
        if mayHang && token == .item then
          endAnchor given.anchor serial (.list (← hangingItems fuel []))
        else if inBlock && token == .blockListStart then
          advance
          endAnchor given.anchor serial (.list (← blockItems fuel []))
        else if inBlock && token == .blockMapStart then
          advance
          endAnchor given.anchor serial (.map (← blockMembers fuel []))
        else if given.anchor.isSome || given.tag.isSome then
          endAnchor given.anchor serial (.scalar (shortTag (given.tag.getD [])) [] true)
        else fail

/-- The items of a list with an indentation of its own; `done` is reversed. -/
def blockItems : Nat → List Node → Reader Nodes
  | 0, _ => fail
  | fuel + 1, done => do
    match ← peek with
    | .item =>
      advance
      let token ← peek
      if token == .item || token == .blockEnd then blockItems fuel (.empty :: done)
      else
        let item ← node fuel true false
        blockItems fuel (item :: done)
    | .blockEnd =>
      advance
      return Nodes.ofReversed .nil done
    | _ => fail

/-- The items of a list that stands no deeper than its key; `done` is reversed. -/
def hangingItems : Nat → List Node → Reader Nodes
  | 0, _ => fail
  | fuel + 1, done => do
    match ← peek with
    | .item =>
      advance
      let token ← peek
      if token == .item || endsMember token then hangingItems fuel (.empty :: done)
      else
        let item ← node fuel true false
        hangingItems fuel (item :: done)
    | _ => return Nodes.ofReversed .nil done

/-- The members of a block map; `done` is reversed. -/
def blockMembers : Nat → List (Node × Node) → Reader Members
  | 0, _ => fail
  | fuel + 1, done => do
    match ← peek with
    | .key =>
      advance
      let key ← if endsMember (← peek) then pure .empty else node fuel true true
      let value ←
        match ← peek with
        | .value =>
          advance
          if endsMember (← peek) then pure Node.empty else node fuel true true
        | _ => pure .empty
      blockMembers fuel ((key, value) :: done)
    | .blockEnd =>
      advance
      return Members.ofReversed .nil done
    | _ => fail

/-- The items up to a closing bracket; `done` is reversed. An item with a colon is a map of one
member. -/
def flowItems : Nat → Bool → List Node → Reader Nodes
  | 0, _, _ => fail
  | fuel + 1, isFirst, done => do
    let token ← peek
    if token == .flowListEnd then
      advance
      return Nodes.ofReversed .nil done
    else
      if !isFirst then
        if token == .comma then advance else fail
      match ← peek with
      | .key =>
        advance
        let (key, value) ← flowPair fuel
        flowItems fuel false (.map (.cons key value .nil) :: done)
      | .flowListEnd =>
        advance
        return Nodes.ofReversed .nil done
      | _ =>
        let item ← node fuel false false
        flowItems fuel false (item :: done)

/-- The key and the value of a single member within a list. Where the key is empty the token that
ends it is dropped. -/
def flowPair : Nat → Reader (Node × Node)
  | 0 => fail
  | fuel + 1 => do
    let token ← peek
    if token == .value || endsFlowEntry .flowListEnd token then
      advance
      return (.empty, ← flowValue fuel .flowListEnd)
    else
      let key ← node fuel false false
      return (key, ← flowValue fuel .flowListEnd)

/-- The value behind a colon, if there is one. -/
def flowValue : Nat → Token → Reader Node
  | 0, _ => fail
  | fuel + 1, closing => do
    match ← peek with
    | .value =>
      advance
      if endsFlowEntry closing (← peek) then return .empty else node fuel false false
    | _ => return .empty

/-- The members up to a closing brace; `done` is reversed. -/
def flowMembers : Nat → Bool → List (Node × Node) → Reader Members
  | 0, _, _ => fail
  | fuel + 1, isFirst, done => do
    let token ← peek
    if token == .flowMapEnd then
      advance
      return Members.ofReversed .nil done
    else
      if !isFirst then
        if token == .comma then advance else fail
      match ← peek with
      | .key =>
        advance
        let token ← peek
        let key ←
          if token == .value || endsFlowEntry .flowMapEnd token then pure Node.empty
          else node fuel false false
        let value ← flowValue fuel .flowMapEnd
        flowMembers fuel false ((key, value) :: done)
      | .flowMapEnd =>
        advance
        return Members.ofReversed .nil done
      | _ =>
        let key ← node fuel false false
        flowMembers fuel false ((key, .empty) :: done)

end

/-- Nothing of a document stands before such a token. -/
def endsDocument : Token → Bool
  | .version .. => true
  | .shorthand .. => true
  | .documentStart => true
  | .documentEnd => true
  | .streamEnd => true
  | _ => false

/-- A document with a marker before it. -/
def markedDocument (fuel : Nat) : Reader Node := do
  directives fuel false
  if (← peek) != .documentStart then fail
  else
    advance
    if endsDocument (← peek) then return .empty else node fuel true false

/-- The first document of a file, if there is one. The token behind it belongs to it. -/
def document (fuel : Nat) : Reader (Option Node) := do
  let token ← peek
  if token == .streamEnd then return none
  else
    let isMarked := endsDocument token && token != .documentEnd
    let root ←
      if isMarked then markedDocument fuel
      else do
        directives fuel false
        node fuel true false
    let _ ← peek
    return some root

end Reader

/-- Reads the first document of a file. -/
def Node.ofContent? (content : Text) : Except Fault (Option Node) := do
  let reading : Reading := { stream := .ofContent content }
  let (root, _) ← (Reader.document (8 * content.length + 64)).run reading
  return root

end MeshConsole.Yaml
