import MeshConsole.Json.Reader
import MeshConsole.Json.Value

/-!
# Link tables

The coordinator's neighbours with the quality of their links, as pushed or pulled in one batch.
-/

namespace MeshConsole

/-- One neighbour of a batch. Signal values are absent when the gateway reports none. -/
structure Neighbor where
  addr : UInt16 := 0
  name : Text := []
  lqi : Option Int64 := none
  rssi : Option Int64 := none
  quality : Text := []
  direct : Bool := false
  source : Text := []
  updatedMs : UInt64 := 0
  deriving Repr, DecidableEq, Inhabited

/-- What a batch says of itself: the table it was read from, and the gateway's uptime counter. -/
structure BatchMeta where
  source : Text := []
  updatedMs : UInt64 := 0
  deriving Repr, DecidableEq, Inhabited

/-- A batch of neighbours. -/
structure LinkTable where
  neighbors : Option (List Neighbor) := none
  source : Text := []
  updatedMs : UInt64 := 0
  deriving Repr, DecidableEq, Inhabited

def LinkTable.rows (t : LinkTable) : List Neighbor := t.neighbors.getD []

def LinkTable.batchMeta (t : LinkTable) : BatchMeta := ⟨t.source, t.updatedMs⟩

open Json (Reader)

def Neighbor.reader : Reader Neighbor :=
  .record ["short_addr", "name", "lqi", "rssi", "quality", "direct", "source", "updated_ms"]
    fun old members => do
      return {
        addr := ← Reader.field "short_addr" Reader.uint16 old.addr members
        name := ← Reader.field "name" Reader.text old.name members
        lqi := ← Reader.field "lqi" (Reader.optional 0 Reader.int64) old.lqi members
        rssi := ← Reader.field "rssi" (Reader.optional 0 Reader.int64) old.rssi members
        quality := ← Reader.field "quality" Reader.text old.quality members
        direct := ← Reader.field "direct" Reader.bool old.direct members
        source := ← Reader.field "source" Reader.text old.source members
        updatedMs := ← Reader.field "updated_ms" Reader.uint64 old.updatedMs members }

def LinkTable.reader : Reader LinkTable :=
  .record ["neighbors", "source", "updated_ms"] fun old members => do
    return {
      neighbors := ← Reader.listField "neighbors" {} Neighbor.reader old.neighbors members
      source := ← Reader.field "source" Reader.text old.source members
      updatedMs := ← Reader.field "updated_ms" Reader.uint64 old.updatedMs members }

/-- An empty name is left out. -/
def Neighbor.toJson (n : Neighbor) : Json.Value :=
  let name : Json.Members := if n.name.isEmpty then [] else [("name", .text n.name)]
  let signals : Json.Members := [
    ("lqi", .ofOption (fun v => .int v.toInt) n.lqi),
    ("rssi", .ofOption (fun v => .int v.toInt) n.rssi),
    ("quality", .text n.quality),
    ("direct", .bool n.direct),
    ("source", .text n.source),
    ("updated_ms", .int n.updatedMs.toNat)]
  .object (("short_addr", .int n.addr.toNat) :: (name ++ signals))

def LinkTable.toJson (t : LinkTable) : Json.Value :=
  .object [
    ("neighbors", .ofOption (fun rows => .list (rows.map Neighbor.toJson)) t.neighbors),
    ("source", .text t.source),
    ("updated_ms", .int t.updatedMs.toNat)]

end MeshConsole
