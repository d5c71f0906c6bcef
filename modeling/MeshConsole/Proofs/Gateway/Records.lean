import MeshConsole.Gateway.Device
import MeshConsole.Gateway.LinkTable
import MeshConsole.Proofs.Json.Fields

/-!
# Records of a gateway

Device lists, link tables and status answers are read back from what was
written for them, when all their texts are UTF-8. Of a link table with other
texts all but these is read back (`read_scrubbed`).
-/

namespace MeshConsole

open Json
open Json.Value (Plain Shows)

variable {tree : Tree} {trees : List Tree.Member}

theorem plain_ofOption (value : Option Int64) :
    Plain n (.ofOption (fun v => .int v.toInt) value) := by
  cases value with
  | none => exact .null
  | some => exact .int

-- ---------------------------------------------------------------------------
-- Devices
-- ---------------------------------------------------------------------------

def Device.isUtf8 (d : Device) : Bool := d.name.isUtf8

theorem plain_device (d : Device) : Plain 1 d.toJson := by
  refine .object ?_
  simp only [List.forall_mem_cons]
  exact ⟨.int, .text, List.forall_mem_nil _⟩

theorem read_device {d : Device} (hutf8 : d.isUtf8 = true) (h : Shows d.toJson tree) :
    Device.reader {} tree = some d := by
  have hkeys : PlainKeys (["short_addr", "name"] : List Text) := by decide
  obtain ⟨trees, rfl, hwrote⟩ := h.wrote hkeys
  refine (record_wrote hwrote (fun _ hkey => hkey) _).trans ?_
  simp only [hwrote.uint16 (.head _), hwrote.text (.tail _ (.head _)), Text.scrub_of_isUtf8 hutf8]
  rfl

/-- The list as it stands in an answer or in a push. -/
theorem plain_devices (devices : List Device) : Plain 2 (.list (devices.map Device.toJson)) :=
  .listOf fun d _ => plain_device d

theorem read_devices {members : Members} {devices : List Device}
    (hutf8 : ∀ d ∈ devices, d.isUtf8 = true) (hwrote : Wrote members trees)
    (hmem : (("devices" : Text), Value.list (devices.map Device.toJson)) ∈ members) :
    Reader.listField "devices" {} Device.reader none trees = some (some devices) :=
  hwrote.list hmem fun d hd _ htree => read_device (hutf8 d hd) htree

-- ---------------------------------------------------------------------------
-- Status answers
-- ---------------------------------------------------------------------------

/-- What is sent of a status with this list. -/
def statusMembers (s : Status) (devices : List Device) : Members := [
  ("pan_id", .int s.panId.toNat),
  ("channel", .int s.channel.toInt),
  ("short_addr", .int s.shortAddr.toNat),
  ("devices", .list (devices.map Device.toJson))]

theorem plain_statusMembers (s : Status) (devices : List Device) :
    ∀ m ∈ statusMembers s devices, Plain 2 m.2 := by
  simp only [statusMembers, List.forall_mem_cons]
  exact ⟨.int, .int, .int, plain_devices devices, List.forall_mem_nil _⟩

theorem toJson_status (s : Status) (devices : List Device) :
    Status.toJson { s with devices := some devices } = .object (statusMembers s devices) := rfl

theorem read_status (s : Status) {devices : List Device}
    (hutf8 : ∀ d ∈ devices, d.isUtf8 = true) :
    Tree.parse? (Status.toJson { s with devices := some devices }).render >>= Status.reader {} =
      some { s with devices := some devices } := by
  have hkeys : PlainKeys (["pan_id", "channel", "short_addr", "devices"] : List Text) := by decide
  obtain ⟨trees, hparse, hwrote, -⟩ := parse?_wrote_alone (.refl (statusMembers s devices)) hkeys
    (plain_statusMembers s devices) (by decide)
  rw [toJson_status, hparse]
  show Status.reader {} (.object trees) = _
  refine (record_wrote hwrote (fun _ hkey => hkey) _).trans ?_
  simp only [hwrote.uint16 (.head _), hwrote.int64 (.tail _ (.head _)),
    hwrote.uint16 (.tail _ (.tail _ (.head _))),
    read_devices hutf8 hwrote (.tail _ (.tail _ (.tail _ (.head _))))]
  rfl

-- ---------------------------------------------------------------------------
-- Link tables
-- ---------------------------------------------------------------------------

def Neighbor.isUtf8 (n : Neighbor) : Bool :=
  n.name.isUtf8 && n.quality.isUtf8 && n.source.isUtf8

def LinkTable.isUtf8 (t : LinkTable) : Bool := t.rows.all Neighbor.isUtf8 && t.source.isUtf8

/-- The neighbour with its texts as they can be sent. -/
def Neighbor.scrubbed (n : Neighbor) : Neighbor :=
  { n with name := n.name.scrub, quality := n.quality.scrub, source := n.source.scrub }

def LinkTable.scrubbed (t : LinkTable) : LinkTable :=
  { t with neighbors := t.neighbors.map (·.map Neighbor.scrubbed), source := t.source.scrub }

theorem scrubbed_neighbor {n : Neighbor} (hutf8 : n.isUtf8 = true) : n.scrubbed = n := by
  simp only [Neighbor.isUtf8, Bool.and_eq_true] at hutf8
  obtain ⟨⟨hname, hquality⟩, hsource⟩ := hutf8
  rw [Neighbor.scrubbed, Text.scrub_of_isUtf8 hname, Text.scrub_of_isUtf8 hquality,
    Text.scrub_of_isUtf8 hsource]

theorem scrubbed_table {t : LinkTable} (hutf8 : t.isUtf8 = true) : t.scrubbed = t := by
  obtain ⟨neighbors, source, updatedMs⟩ := t
  simp only [LinkTable.isUtf8, LinkTable.rows, Bool.and_eq_true, List.all_eq_true] at hutf8
  obtain ⟨hrows, hsource⟩ := hutf8
  cases neighbors with
  | none => rw [LinkTable.scrubbed, Text.scrub_of_isUtf8 hsource]; rfl
  | some rows =>
    have hsame : rows.map Neighbor.scrubbed = rows :=
      (List.map_congr_left fun n hn => scrubbed_neighbor (hrows n hn)).trans (List.map_id' rows)
    rw [LinkTable.scrubbed, Text.scrub_of_isUtf8 hsource, Option.map_some, hsame]

/-- What is sent of a name; an empty one is left out. -/
def nameMembers (name : Text) : Members := if name.isEmpty then [] else [("name", .text name)]

/-- What is sent of a neighbour's link. -/
def linkMembers (n : Neighbor) : Members := [
  ("lqi", .ofOption (fun v => .int v.toInt) n.lqi),
  ("rssi", .ofOption (fun v => .int v.toInt) n.rssi),
  ("quality", .text n.quality),
  ("direct", .bool n.direct),
  ("source", .text n.source),
  ("updated_ms", .int n.updatedMs.toNat)]

def neighborMembers (n : Neighbor) : Members :=
  ("short_addr", .int n.addr.toNat) :: (nameMembers n.name ++ linkMembers n)

theorem toJson_neighbor (n : Neighbor) : n.toJson = .object (neighborMembers n) := rfl

theorem plain_neighbor (n : Neighbor) : Plain 1 n.toJson := by
  have hname : ∀ m ∈ nameMembers n.name, Plain 0 m.2 := by
    unfold nameMembers
    split
    · exact List.forall_mem_nil _
    · exact List.forall_mem_cons.mpr ⟨.text, List.forall_mem_nil _⟩
  have hlink : ∀ m ∈ linkMembers n, Plain 0 m.2 := by
    simp only [linkMembers, List.forall_mem_cons]
    exact ⟨plain_ofOption _, plain_ofOption _, .text, .bool, .text, .int, List.forall_mem_nil _⟩
  rw [toJson_neighbor]
  exact .object (List.forall_mem_cons.mpr ⟨.int, List.forall_mem_append.mpr ⟨hname, hlink⟩⟩)

theorem keys_neighbor (n : Neighbor) :
    PlainKeys ((neighborMembers n).map Prod.fst) ∧
      ∀ key ∈ (neighborMembers n).map Prod.fst, key ∈ (["short_addr", "name", "lqi", "rssi",
        "quality", "direct", "source", "updated_ms"] : List Text) := by
  have hnamed : PlainKeys (["short_addr", "name", "lqi", "rssi", "quality", "direct", "source",
      "updated_ms"] : List Text) := by
    decide
  have hunnamed : PlainKeys (["short_addr", "lqi", "rssi", "quality", "direct", "source",
      "updated_ms"] : List Text) := by
    decide
  unfold neighborMembers nameMembers
  split
  · exact ⟨hunnamed, fun key hkey => List.mem_cons.mpr
      ((List.mem_cons.mp hkey).imp_right (List.mem_cons_of_mem _))⟩
  · exact ⟨hnamed, fun _ hkey => hkey⟩

/-- A name that was left out is read as the empty one. -/
theorem read_name {n : Neighbor} (hwrote : Wrote (neighborMembers n) trees) :
    Reader.field "name" Reader.text [] trees = some n.name.scrub := by
  unfold neighborMembers nameMembers at hwrote
  split at hwrote
  next hempty =>
    have hnot : Key.hashBytes "name" ∉ List.map Key.hashBytes ["short_addr", "lqi", "rssi",
        "quality", "direct", "source", "updated_ms"] := by
      decide
    rw [List.isEmpty_iff.mp hempty]
    exact hwrote.absent hnot _ _
  next => rw [hwrote.text (.tail _ (.head _))]

theorem read_neighbor {n : Neighbor} (h : Shows n.toJson tree) :
    Neighbor.reader {} tree = some n.scrubbed := by
  obtain ⟨hkeys, hfields⟩ := keys_neighbor n
  obtain ⟨trees, rfl, hwrote⟩ := Shows.wrote (toJson_neighbor n ▸ h) hkeys
  have hlink : ∀ {m}, m ∈ linkMembers n → m ∈ neighborMembers n := fun hm =>
    List.mem_cons_of_mem _ (List.mem_append_right _ hm)
  refine (record_wrote hwrote hfields _).trans ?_
  simp only [hwrote.uint16 (.head _), read_name hwrote,
    hwrote.optionalInt64 (hlink (.head _)),
    hwrote.optionalInt64 (hlink (.tail _ (.head _))),
    hwrote.text (hlink (.tail _ (.tail _ (.head _)))),
    hwrote.bool (hlink (.tail _ (.tail _ (.tail _ (.head _))))),
    hwrote.text (hlink (.tail _ (.tail _ (.tail _ (.tail _ (.head _)))))),
    hwrote.uint64 (hlink (.tail _ (.tail _ (.tail _ (.tail _ (.tail _ (.head _)))))))]
  rfl

/-- What is sent of a table. -/
def tableMembers (rows : List Neighbor) (t : LinkTable) : Members := [
  ("neighbors", .list (rows.map Neighbor.toJson)),
  ("source", .text t.source),
  ("updated_ms", .int t.updatedMs.toNat)]

theorem plain_tableMembers (rows : List Neighbor) (t : LinkTable) :
    ∀ m ∈ tableMembers rows t, Plain 2 m.2 := by
  have hrows : Plain 2 (.list (rows.map Neighbor.toJson)) := .listOf fun n _ => plain_neighbor n
  simp only [tableMembers, List.forall_mem_cons]
  exact ⟨hrows, .text, .int, List.forall_mem_nil _⟩

theorem read_rows {members : Members} {rows : List Neighbor} (hwrote : Wrote members trees)
    (hmem : (("neighbors" : Text), Value.list (rows.map Neighbor.toJson)) ∈ members) :
    Reader.listField "neighbors" {} Neighbor.reader none trees =
      some (some (rows.map Neighbor.scrubbed)) :=
  hwrote.listOf hmem fun _ _ _ htree => read_neighbor htree

section
variable {t : LinkTable} {rows : List Neighbor} (hrows : t.neighbors = some rows)
include hrows

theorem toJson_table : t.toJson = .object (tableMembers rows t) := by
  rw [LinkTable.toJson, hrows]
  rfl

theorem plain_table : Plain 3 t.toJson := by
  rw [toJson_table hrows]
  exact .object (plain_tableMembers rows t)

/-- A table is read back, row by row, but for what is not UTF-8. -/
theorem read_scrubbed : Tree.parse? t.toJson.render >>= LinkTable.reader {} = some t.scrubbed := by
  have hkeys : PlainKeys (["neighbors", "source", "updated_ms"] : List Text) := by decide
  obtain ⟨trees, hparse, hwrote, -⟩ := parse?_wrote_alone (.refl (tableMembers rows t)) hkeys
    (plain_tableMembers rows t) (by decide)
  rw [toJson_table hrows, hparse]
  show LinkTable.reader {} (.object trees) = _
  refine (record_wrote hwrote (fun _ hkey => hkey) _).trans ?_
  simp only [read_rows hwrote (.head _), hwrote.text (.tail _ (.head _)),
    hwrote.uint64 (.tail _ (.tail _ (.head _)))]
  rw [LinkTable.scrubbed, hrows]
  rfl

theorem read_table (hutf8 : t.isUtf8 = true) :
    Tree.parse? t.toJson.render >>= LinkTable.reader {} = some t := by
  rw [read_scrubbed hrows, scrubbed_table hutf8]

end

end MeshConsole
