import MeshConsole.Json.Tree

/-!
# Reading fields

A reader takes the value a field has so far and a tree, and gives the field's new value. The key of
a field may come more than once, in any mix of upper and lower case and also as another text of its
hash; the readings follow each other in the order of the document, each over the result of the one
before. That is why the last of two numbers wins, why two objects for one key are merged, and why
the items of a second list are read over those of the first.
-/

namespace MeshConsole.Json

/-- Reads a tree over an earlier value; nothing when the tree does not fit the type. -/
abbrev Reader (α : Type) := α → Tree → Option α

namespace Reader

def bool : Reader Bool
  | old, .null => some old
  | _, .bool value => some value
  | _, _ => none

/-- A text; `null` is the empty one. -/
def text : Reader Text
  | _, .null => some []
  | _, .string value => some value
  | _, _ => none

/-- A number whose literal `convert` accepts; `null` keeps the earlier value. -/
def number (convert : Text → Option α) : Reader α
  | old, .null => some old
  | _, .number literal _ => convert literal
  | _, _ => none

def uint16 : Reader UInt16 := number fun literal => do
  let value ← Literal.word? UInt32.size literal
  if UInt16.size ≤ value then none else some value.toUInt16

def uint32 : Reader UInt32 :=
  number fun literal => (Literal.word? UInt32.size literal).map (·.toUInt32)

def uint64 : Reader UInt64 :=
  number fun literal => (Literal.word? UInt64.size literal).map (·.toUInt64)

def int32 : Reader Int32 :=
  number fun literal => (Literal.signed? UInt32.size literal).map Int32.ofInt

def int64 : Reader Int64 :=
  number fun literal => (Literal.signed? UInt64.size literal).map Int64.ofInt

def binary64 : Reader Binary64 := number Literal.binary64?

/-- A value that may be absent; `null` removes it, anything else is read over what is there. -/
def optional (zero : α) (read : Reader α) : Reader (Option α)
  | _, .null => some none
  | old, tree => (read (old.getD zero) tree).map some

/-- A list being read: its items, if any list was sent, and the items of an earlier and longer
reading that a later one may come across again. -/
structure Cells (α : Type) where
  items : Option (List α) := none
  spare : List α := []

/-- Reads each tree over the cell in its place. -/
def overCells (zero : α) (read : Reader α) :
    List α → List α → List Tree → Option (List α)
  | done, _, [] => some done.reverse
  | done, [], tree :: rest =>
    match read zero tree with
    | none => none
    | some item => overCells zero read (item :: done) [] rest
  | done, cell :: cells, tree :: rest =>
    match read cell tree with
    | none => none
    | some item => overCells zero read (item :: done) cells rest

/-- A list; `null` is no list, and an empty array forgets every cell. -/
def list (zero : α) (read : Reader α) : Reader (Cells α)
  | _, .null => some {}
  | _, .array [] => some { items := some [] }
  | old, .array trees =>
    let cells := old.items.getD [] ++ old.spare
    (overCells zero read [] cells trees).map fun items =>
      { items := some items, spare := cells.drop trees.length }
  | _, _ => none

end Reader

namespace Tree.Member

/-- Whether a member is read as the field `name`. -/
def isNamed (name : Text) (m : Member) : Bool := m.key.hash? == some (Key.hashBytes name)

/-- A member of a record is read as one of its fields or may be passed over. -/
def isAccepted (fields : List Text) (m : Member) : Bool :=
  match m.key.hash? with
  | some hash => fields.any (Key.hashBytes · == hash) || m.value.isSkippable
  | none => false

end Tree.Member

namespace Reader

/-- An object with these fields; `null` keeps the earlier value. -/
def record (fields : List Text) (read : σ → List Tree.Member → Option σ) : Reader σ
  | old, .null => some old
  | old, .object members =>
    if members.all (Tree.Member.isAccepted fields) then read old members else none
  | _, _ => none

/-- All readings of one field, in order. -/
def field (name : Text) (read : Reader α) (old : α) (members : List Tree.Member) : Option α :=
  (members.filter (Tree.Member.isNamed name)).foldlM (fun value m => read value m.value) old

/-- The last list of a field. -/
def listField (name : Text) (zero : α) (read : Reader α) (old : Option (List α))
    (members : List Tree.Member) : Option (Option (List α)) :=
  (field name (list zero read) { items := old } members).map (·.items)

/-- A field whose value is kept as the tree and the text it was written in; `null` is no value. -/
def rawField (name : Text) (old : Option (Tree × Text)) (members : List Tree.Member) :
    Option (Option (Tree × Text)) :=
  (members.filter (Tree.Member.isNamed name)).foldlM (fun _ m =>
    match m.value with
    | .null => some none
    | value => if value.isSkippable then some (some (value, m.text)) else none) old

end Reader

end MeshConsole.Json
