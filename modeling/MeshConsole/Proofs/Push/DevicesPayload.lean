import MeshConsole.Proofs.Json.Fields
import MeshConsole.Proofs.Json.Peek
import MeshConsole.Push.Message

/-!
# The payload of a device list

A payload is looked at twice: a quick look checks that its `devices` is an
array, and then the whole of it is read. The two readers match keys by
different rules, so the array that is checked need not be the list that is
read (`cleared_by_case`). `devices_checked`: it is in a payload of which only
one member is read as `devices`.
-/

namespace MeshConsole.Push

open Json

/-- The key holds no control byte. -/
def isPlain (m : Tree.Member) : Bool :=
  match m.key with
  | .name text _ _ => text.all (Ascii.blank ≤ ·)
  | .null => true

/-- The two readers of a payload cannot come apart: nothing hides behind a NUL
byte, no key holds a control byte, and at most one member is read as
`devices`, which any is whose key spells it in any case. -/
structure Unambiguous (data : Text) : Prop where
  whole : 0 ∉ data
  plain : ∀ members, Tree.parse? data = some (.object members) → members.all isPlain = true
  single : ∀ members, Tree.parse? data = some (.object members) →
    (members.filter (Tree.Member.isNamed "devices")).length ≤ 1

-- ---------------------------------------------------------------------------
-- Reading one list
-- ---------------------------------------------------------------------------

theorem isLegible_of_list {zero : α} {read : Reader α} {tree : Tree}
    (h : Reader.list zero read old tree = some cells) : tree.IsLegible := by
  cases tree with
  | number literal skippable => cases h
  | null | bool _ | string _ | array _ | object _ => trivial

theorem isLegible_of_isSkippable {tree : Tree} (h : tree.isSkippable = true) :
    tree.IsLegible := by
  cases tree with
  | number literal skippable => simpa [Tree.isSkippable, Tree.IsLegible] using h
  | null | bool _ | string _ | array _ | object _ => trivial

-- ---------------------------------------------------------------------------
-- The member named `devices`
-- ---------------------------------------------------------------------------

section
variable {members : List Tree.Member} {m : Tree.Member}
  (hsingle : (members.filter (Tree.Member.isNamed "devices")).length ≤ 1)
include hsingle

theorem filter_eq_singleton (hm : m ∈ members) (hnamed : m.isNamed "devices" = true) :
    members.filter (Tree.Member.isNamed "devices") = [m] := by
  have hmem : m ∈ members.filter (Tree.Member.isNamed "devices") :=
    List.mem_filter.mpr ⟨hm, hnamed⟩
  generalize members.filter (Tree.Member.isNamed "devices") = named at *
  match named, hsingle, hmem with
  | [m'], _, hmem => rw [List.mem_singleton.mp hmem]

/-- One list is read over nothing. -/
theorem listReader_single (hall : members.all (Tree.Member.isAccepted ["devices"]) = true)
    (hm : m ∈ members) (hnamed : m.isNamed "devices" = true) :
    Device.listReader none (.object members) =
      (Reader.list {} Device.reader {} m.value).map (·.items) := by
  have hfilter := filter_eq_singleton hsingle hm hnamed
  simp only [Device.listReader, Reader.record, hall, if_true, Reader.listField, Reader.field,
    hfilter, List.foldlM_cons, List.foldlM_nil, bind_pure]

end

theorem isNamed_of_isExactly {m : Tree.Member} (h : m.isExactly "devices" = true) :
    m.isNamed "devices" = true := by
  unfold Tree.Member.isExactly at h
  split at h
  next text plain clean hkey =>
    have hascii : ∀ b ∈ ("devices" : Text), b < 0x80 := by decide
    rw [Tree.Member.isNamed, hkey, eq_of_beq h, Key.hash?_name hascii]
    exact beq_self_eq_true _
  next => cases h

theorem mem_of_valueOf? (h : Tree.Member.valueOf? "devices" members = some value) :
    ∃ m ∈ members, m.isNamed "devices" = true ∧ m.value = value := by
  obtain ⟨m, hfind, rfl⟩ := Option.map_eq_some_iff.mp h
  exact ⟨m, List.mem_of_find?_eq_some hfind, isNamed_of_isExactly (List.find?_some hfind), rfl⟩

theorem listReader_valueOf? (hall : members.all (Tree.Member.isAccepted ["devices"]) = true)
    (hsingle : (members.filter (Tree.Member.isNamed "devices")).length ≤ 1)
    (h : Tree.Member.valueOf? "devices" members = some (.array items)) :
    Device.listReader none (.object members) = (items.mapM (Device.reader {})).map some := by
  obtain ⟨m, hm, hnamed, hvalue⟩ := mem_of_valueOf? h
  rw [listReader_single hsingle hall hm hnamed, hvalue, list_array]
  cases items.mapM (Device.reader {}) <;> rfl

theorem isLegible_of_listReader
    (hall : members.all (Tree.Member.isAccepted ["devices"]) = true)
    (hsingle : (members.filter (Tree.Member.isNamed "devices")).length ≤ 1)
    (h : Device.listReader none (.object members) = some list) :
    ∀ m ∈ members, Tree.Member.isNamed "devices" m = true → (Tree.Member.value m).IsLegible := by
  intro m hm hnamed
  rw [listReader_single hsingle hall hm hnamed] at h
  obtain ⟨cells, hcells, -⟩ := Option.map_eq_some_iff.mp h
  exact isLegible_of_list hcells

/-- Members that are accepted are legible. -/
theorem isLegible_of_accepted {m : Tree.Member} (haccepted : m.isAccepted ["devices"] = true)
    (hplain : isPlain m = true) (hdevices : m.isNamed "devices" = true → m.value.IsLegible) :
    m.IsLegible := by
  unfold Tree.Member.isAccepted at haccepted
  cases hkey : m.key with
  | name text plain clean =>
    have htext : ∀ b ∈ text, Ascii.blank ≤ b := by simpa [isPlain, hkey] using hplain
    refine ⟨⟨text, plain, clean, hkey, htext⟩, ?_⟩
    split at haccepted
    next hash hhash =>
      simp only [List.any_cons, List.any_nil, Bool.or_false, Bool.or_eq_true] at haccepted
      rcases haccepted with hnamed | hskippable
      · refine hdevices ?_
        rw [Tree.Member.isNamed, hhash, eq_of_beq hnamed]
        exact beq_self_eq_true _
      · exact isLegible_of_isSkippable hskippable
    next => cases haccepted
  | null =>
    rw [hkey] at haccepted
    cases haccepted

-- ---------------------------------------------------------------------------
-- Both readers
-- ---------------------------------------------------------------------------

theorem decodePayload_eq_ok (reader : Reader α) (zero : α) (data : Text) :
    decodePayload reader zero data = .ok value ↔
      ∃ tree, Tree.parse? data = some tree ∧ reader zero tree = some value := by
  unfold decodePayload
  cases data with
  | nil =>
    have hparse : Tree.parse? [] = none := rfl
    simp [hparse]
  | cons b data =>
    cases Tree.parse? (b :: data) with
    | none => simp
    | some tree =>
      simp only [Option.bind_eq_bind, Option.bind_some]
      cases hread : reader zero tree <;> simp [hread]

theorem decodeDevices_eq_ok (data : Text) :
    decodeDevices data = .ok devices ↔ Peek.member? "devices" data = some .array ∧
      ∃ list, decodePayload Device.listReader none data = .ok list ∧ list.getD [] = devices := by
  unfold decodeDevices
  split
  next hpeek =>
    cases decodePayload Device.listReader none data with
    | error e => simp [hpeek, Except.map]
    | ok list => simp [hpeek, Except.map]
  next hpeek =>
    constructor
    · intro h
      cases h
    · rintro ⟨h, -⟩
      exact (hpeek h).elim

section
variable {data : Text} (h : Unambiguous data)
include h

/-- The quick look and the reading agree on a payload that is read as a
list. -/
theorem peek_iff {members : List Tree.Member} (hparse : Tree.parse? data = some (.object members))
    (hall : members.all (Tree.Member.isAccepted ["devices"]) = true)
    (hread : Device.listReader none (.object members) = some list) :
    Peek.member? "devices" data = some .array ↔
      ∃ items, Tree.Member.valueOf? "devices" members = some (.array items) := by
  have hlegible := isLegible_of_listReader hall (h.single members hparse) hread
  refine member?_array_iff (by decide) hparse fun m hm => ?_
  exact isLegible_of_accepted (List.all_eq_true.mp hall m hm)
    (List.all_eq_true.mp (h.plain members hparse) m hm) (hlegible m hm)

/-- What makes a payload a device list: an object all of whose members are
accepted, with an array of devices for its `devices`. -/
theorem decodeDevices_iff :
    decodeDevices data = .ok devices ↔
      ∃ members items, Tree.parse? data = some (.object members) ∧
        members.all (Tree.Member.isAccepted ["devices"]) = true ∧
        Tree.Member.valueOf? "devices" members = some (.array items) ∧
        items.mapM (Device.reader {}) = some devices := by
  rw [decodeDevices_eq_ok]
  constructor
  · rintro ⟨hpeek, list, hlist, rfl⟩
    obtain ⟨tree, hparse, hread⟩ := (decodePayload_eq_ok _ _ _).mp hlist
    cases tree with
    | null =>
      rw [member?_null hparse h.whole] at hpeek
      cases hpeek
    | object members =>
      have hall : members.all (Tree.Member.isAccepted ["devices"]) = true := by
        by_contra hall
        simp [Device.listReader, Reader.record, hall] at hread
      obtain ⟨items, hvalue⟩ := (peek_iff h hparse hall hread).mp hpeek
      rw [listReader_valueOf? hall (h.single members hparse) hvalue] at hread
      obtain ⟨devices, hitems, rfl⟩ := Option.map_eq_some_iff.mp hread
      exact ⟨members, items, hparse, hall, hvalue, hitems⟩
    | bool _ | number _ _ | string _ | array _ => cases hread
  · rintro ⟨members, items, hparse, hall, hvalue, hitems⟩
    have hread : Device.listReader none (.object members) = some (some devices) := by
      rw [listReader_valueOf? hall (h.single members hparse) hvalue, hitems]
      rfl
    exact ⟨(peek_iff h hparse hall hread).mpr ⟨items, hvalue⟩, some devices,
      (decodePayload_eq_ok _ _ _).mpr ⟨_, hparse, hread⟩, rfl⟩

end

/-- In an unambiguous payload the list that is read is the array that was
checked, item by item, and without such an array there is no list. -/
theorem devices_checked (h : Unambiguous data) :
    (∀ devices, decodeDevices data = .ok devices →
      decodePayload Device.listReader none data = .ok (some devices) ∧
      ∃ members items, Tree.parse? data = some (.object members) ∧
        Tree.Member.valueOf? "devices" members = some (.array items) ∧
        items.mapM (Device.reader {}) = some devices) ∧
    ((∀ members items, Tree.parse? data = some (.object members) →
        Tree.Member.valueOf? "devices" members ≠ some (.array items)) →
      ∃ e, decodeDevices data = .error e) := by
  constructor
  · intro devices hdevices
    obtain ⟨members, items, hparse, hall, hvalue, hitems⟩ := (decodeDevices_iff h).mp hdevices
    have hread := listReader_valueOf? hall (h.single members hparse) hvalue
    rw [hitems] at hread
    exact ⟨(decodePayload_eq_ok _ _ _).mpr ⟨_, hparse, hread⟩, members, items, hparse, hvalue,
      hitems⟩
  · intro hnone
    cases hdecode : decodeDevices data with
    | error e => exact ⟨e, rfl⟩
    | ok devices =>
      obtain ⟨members, items, hparse, -, hvalue, -⟩ := (decodeDevices_iff h).mp hdecode
      exact absurd hvalue (hnone members items hparse)

/-- One device, and a member that is passed over. -/
def oneDevice : Text :=
  ("\x7b\"devices\":[\x7b\"short_addr\":1,\"name\":\"a\"\x7d]," : Text) ++ "\"count\":1\x7d"

theorem oneDevice_unambiguous : Unambiguous oneDevice where
  whole := by decide
  plain := by
    intro members h
    cases h.symm.trans (rfl : Tree.parse? oneDevice = some (.object _))
    rfl
  single := by
    intro members h
    cases h.symm.trans (rfl : Tree.parse? oneDevice = some (.object _))
    decide

theorem devices_oneDevice :
    decodeDevices oneDevice = .ok [{ addr := 1, name := "a" }] ∧
      decodePayload Device.listReader none oneDevice = .ok (some [{ addr := 1, name := "a" }]) :=
  ⟨rfl, ((devices_checked oneDevice_unambiguous).1 _ rfl).1⟩

/-- The same device, and the list named again in another case. -/
def namedTwice : Text :=
  ("\x7b\"devices\":[\x7b\"short_addr\":1,\"name\":\"a\"\x7d]," : Text) ++ "\"Devices\":null\x7d"

/-- The array that is checked holds a device; what is read is no list at all
and stands for an empty one. -/
theorem cleared_by_case :
    (∃ members items, Tree.parse? namedTwice = some (.object members) ∧
      Tree.Member.valueOf? "devices" members = some (.array items) ∧
      items.mapM (Device.reader {}) = some [{ addr := 1, name := "a" }]) ∧
    decodePayload Device.listReader none namedTwice = .ok none ∧
    decodeDevices namedTwice = .ok [] :=
  ⟨⟨_, _, rfl, rfl, rfl⟩, rfl, rfl⟩

end MeshConsole.Push
