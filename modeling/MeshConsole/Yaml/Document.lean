import MeshConsole.Yaml.Node
import MeshConsole.Yaml.Scalar

/-!
# The value of a document

Nodes become values: aliases are written out, and a merge key takes over the members of other
maps that its own map does not have. A map whose keys are all texts keeps them as they are
written; in any other the keys are values too.
-/

namespace MeshConsole.Yaml

/-- How many nodes have been turned into values, and how many of them through an alias. -/
structure Tally where
  decoded : Nat := 0
  aliased : Nat := 0

/-- Beyond a thousand nodes the share that comes through aliases is limited: 99 in 100 up to
400000 nodes, 10 in 100 from 4000000 nodes on, and in between along a straight line. -/
def Tally.isExcessive (t : Tally) : Bool :=
  100 < t.aliased && 1000 < t.decoded &&
    if t.decoded ≤ 400000 then 99 * t.decoded < 100 * t.aliased
    else if 4000000 ≤ t.decoded then t.decoded < 10 * t.aliased
    else (99 * 3600000 - 89 * (t.decoded - 400000)) * t.decoded < 360000000 * t.aliased

abbrev Decoder := StateT Tally (Except Fault)

/-- Counts a node. -/
def Decoder.count (inAlias : Bool) : Decoder Unit := do
  let tally ← get
  let tally : Tally := {
    decoded := tally.decoded + 1
    aliased := if inAlias then tally.aliased + 1 else tally.aliased }
  if tally.isExcessive then throw .meaning else set tally

def mergeMark : Text := "<<"

/-- The key whose value is merged into the map it stands in. -/
def Node.isMerge : Node → Bool
  | .scalar tag text isPlain =>
    text == mergeMark && (tag == Kind.merge.tag || (tag.isEmpty && isPlain))
  | _ => false

/-- Whether a key is a text, or the merge key. -/
def Node.isTextKey : Node → Bool
  | .scalar tag text isPlain =>
    if tag.isEmpty then
      !isPlain ||
      match Value.ofPlain text with
      | .text _ => true
      | _ => false
    else tag == Kind.str.tag || tag == Kind.merge.tag
  | .alias _ target => target.isTextKey
  | _ => false

def Members.haveTextKeys : Members → Bool
  | .nil => true
  | .cons key _ rest => key.isTextKey && rest.haveTextKeys

/-- What tells keys apart as they are written: their shape, and their text or their alias. -/
def Node.spelling : Node → Nat × Text
  | .scalar _ text _ => (0, text)
  | .list _ => (1, [])
  | .map _ => (2, [])
  | .alias name _ => (3, name)
  | .circle name => (3, name)

def Members.spellings : Members → List (Nat × Text)
  | .nil => []
  | .cons key _ rest => key.spelling :: rest.spellings

/-- No key is written twice. -/
def Members.areDistinct (members : Members) : Bool := members.spellings.Nodup

/-- Whether two keys are the same. Lists and maps are no keys. -/
def Value.isSameKey : Value → Value → Bool
  | .null, .null => true
  | .bool a, .bool b => a == b
  | .int a, .int b => a == b
  | .real a, .real b => a == b && a != .nan
  | .moment a, .moment b => a == b
  | .text a, .text b => a == b
  | _, _ => false

def Value.isCollection : Value → Bool
  | .list _ => true
  | .map _ => true
  | _ => false

/-- The members of a map as they are collected, the last one first. -/
structure Collected where
  /-- The keys that a map has itself; nothing unless it is merged into another. -/
  known : Option (List Value) := none
  done : List (Value × Value) := []

/-- Whether a key is there already. -/
def Collected.knows (c : Collected) (key : Value) : Bool :=
  c.known.any fun keys => keys.any key.isSameKey

def Collected.note (c : Collected) (key : Value) : Collected :=
  { c with known := c.known.map (key :: ·) }

def Collected.add (c : Collected) (key value : Value) : Collected :=
  { c with done := (key, value) :: c.done }

/-- The text of a key in a map whose keys are texts; nothing for a key that stands for nothing. -/
def Node.textKey (inAlias : Bool) : Node → Decoder (Option Value)
  | .scalar tag text isPlain => do
    Decoder.count inAlias
    match ← Value.ofScalar tag text isPlain with
    | .null => return none
    | value => return some (if tag == Kind.binary.tag then value else .text text)
  | .alias _ target => do
    Decoder.count inAlias
    target.textKey true
  | _ => throw .meaning

def Members.hasMerge : Members → Bool
  | .nil => false
  | .cons key _ rest => key.isMerge || rest.hasMerge

mutual

/-- The value of a node. The keys of the root are texts, whatever they look like. -/
def Node.decode (inAlias isRoot : Bool) : Node → Decoder Value
  | .scalar tag text isPlain => do
    Decoder.count inAlias
    Value.ofScalar tag text isPlain
  | .list items => do
    Decoder.count inAlias
    return .list (← items.decode inAlias [])
  | .map members => do
    Decoder.count inAlias
    if !members.areDistinct then throw .meaning
    let isTextual := isRoot || members.haveTextKeys
    let own ← members.collect inAlias isTextual {}
    if members.hasMerge then
      let keys ← members.decodeKeys inAlias []
      let all ← members.merge inAlias isTextual { own with known := some keys }
      return .map all.done.reverse
    else return .map own.done.reverse
  | .alias _ target => do
    Decoder.count inAlias
    target.decode true isRoot
  | .circle _ => throw .meaning

/-- The values of nodes; `done` is reversed. -/
def Nodes.decode (inAlias : Bool) (done : List Value) : Nodes → Decoder (List Value)
  | .nil => return done.reverse
  | .cons node rest => do
    let value ← node.decode inAlias false
    rest.decode inAlias (value :: done)

/-- The keys of a map; `done` is reversed. -/
def Members.decodeKeys (inAlias : Bool) (done : List Value) : Members → Decoder (List Value)
  | .nil => return done
  | .cons key _ rest => do
    let key ← key.decode inAlias false
    rest.decodeKeys inAlias (key :: done)

/-- Adds the members of a map, merge keys and keys that are known left out. -/
def Members.collect (inAlias isTextual : Bool) : Members → Collected → Decoder Collected
  | .nil, c => return c
  | .cons key value rest, c => do
    if key.isMerge then rest.collect inAlias isTextual c
    else
      let key ← if isTextual then key.textKey inAlias else some <$> key.decode inAlias false
      match key with
      | none => rest.collect inAlias isTextual c
      | some key =>
        if c.knows key then rest.collect inAlias isTextual c
        else if key.isCollection then throw .meaning
        else
          let value ← value.decode inAlias false
          rest.collect inAlias isTextual ((c.note key).add key value)

/-- Adds what the merge key of a map stands for: a map, or each map in a list. -/
def Members.merge (inAlias isTextual : Bool) : Members → Collected → Decoder Collected
  | .nil, c => return c
  | .cons key value rest, c => do
    if key.isMerge then value.merge inAlias isTextual true c
    else rest.merge inAlias isTextual c

def Nodes.merge (inAlias isTextual : Bool) : Nodes → Collected → Decoder Collected
  | .nil, c => return c
  | .cons node rest, c => do
    let c ← node.merge inAlias isTextual false c
    rest.merge inAlias isTextual c

/-- Adds the members of a map, or of the map that an alias stands for, or, where `mayBeList`, of
all the maps in a list. -/
def Node.merge (inAlias isTextual mayBeList : Bool) : Node → Collected → Decoder Collected
  | .map members, c => do
    Decoder.count inAlias
    if !members.areDistinct then throw .meaning
    let c ← members.collect inAlias isTextual c
    members.merge inAlias isTextual c
  | .alias _ target, c => do
    Decoder.count inAlias
    target.merge true isTextual false c
  | .list items, c =>
    if mayBeList then items.merge inAlias isTextual c else throw .meaning
  | _, _ => throw .meaning

end

/-- Reads the first document of a file, which is a map or stands for nothing at all. -/
def readMap (content : Text) : Except Fault (List (Value × Value)) := do
  match ← Node.ofContent? content with
  | none => return []
  | some root =>
    match ← (root.decode false true).run' { decoded := 1 } with
    | .map members => return members
    | .null => return []
    | _ => throw .meaning

end MeshConsole.Yaml
