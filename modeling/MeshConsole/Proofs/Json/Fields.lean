import Mathlib.Data.List.Forall2
import MeshConsole.Json.Reader
import MeshConsole.Proofs.Json.Writing

/-!
# Fields of what was written

An object whose keys are plain names is read field by field, in whatever order
its members were written: a field holds what was written for it, and a field
that was not written keeps what it had.
-/

namespace MeshConsole.Json

open Value

/-- Keys of ASCII characters, no two of one hash. -/
def PlainKeys (keys : List Text) : Prop :=
  (∀ key ∈ keys, ∀ b ∈ key, b < 0x80) ∧ (keys.map Key.hashBytes).Nodup

instance : Decidable (PlainKeys keys) := inferInstanceAs (Decidable (_ ∧ _))

/-- Members read from an object that was written with `members`, in some
order. -/
structure Wrote (members : Members) (trees : List Tree.Member) : Prop where
  keys : PlainKeys (members.map Prod.fst)
  order : ∃ written, written.Perm members ∧ List.Forall₂ ShowsMember written trees

/-- Of members that no two agree in what `f` makes of their keys, one alone is
like the one looked for. -/
theorem filter_key [BEq β] [LawfulBEq β] (f : Text → β) {members : Members}
    (hnodup : ((members.map Prod.fst).map f).Nodup) (hmem : (name, value) ∈ members) :
    members.filter (fun m : Text × Value => f m.1 == f name) = [(name, value)] := by
  induction members with
  | nil => cases hmem
  | cons m members ih =>
    obtain ⟨hnot, hnodup⟩ := List.nodup_cons.mp hnodup
    have hother {other : Text × Value} (h : other ∈ members) : f other.1 ≠ f m.1 := by
      intro heq
      exact hnot (heq ▸ List.mem_map_of_mem (List.mem_map_of_mem h))
    rcases List.mem_cons.mp hmem with rfl | hmem
    · rw [List.filter_cons_of_pos (by simp), List.filter_eq_nil_iff.mpr]
      intro other h heq
      exact hother h (eq_of_beq heq)
    · rw [List.filter_cons_of_neg (by simpa using (hother hmem).symm), ih hnodup hmem]

theorem ShowsMember.filter {written : Members} (name : Text)
    (h : List.Forall₂ ShowsMember written trees) :
    List.Forall₂ ShowsMember
      (written.filter fun m => (Key.written m.1).hash? == some (Key.hashBytes name))
      (trees.filter (Tree.Member.isNamed name)) := by
  refine List.rel_filter ?_ h
  rintro m _ ⟨_⟩
  exact Iff.rfl

theorem isSkippable_of_mem (h : Tree.membersSkippable trees = true) (hmem : m ∈ trees) :
    (Tree.Member.value m).isSkippable = true := by
  induction trees with
  | nil => cases hmem
  | cons first trees ih =>
    obtain ⟨key, value, texts⟩ := first
    simp only [Tree.membersSkippable, Bool.and_eq_true] at h
    rcases List.mem_cons.mp hmem with rfl | hmem
    · exact h.1.2
    · exact ih h.2 hmem

theorem isAccepted_of_shows {written : Members} (h : List.Forall₂ ShowsMember written trees)
    (hkeys : ∀ m ∈ written, m.1 ∈ fields ∧ ∀ b ∈ m.1, b < 0x80) :
    trees.all (Tree.Member.isAccepted fields) = true := by
  induction h with
  | nil => rfl
  | cons hmember _ ih =>
    obtain ⟨⟨hfield, hascii⟩, hkeys⟩ := List.forall_mem_cons.mp hkeys
    obtain ⟨_⟩ := hmember
    rw [List.all_cons, ih hkeys, Bool.and_true]
    simp only [Tree.Member.isAccepted, Tree.Member.key, shown, Key.hash?_written hascii,
      Bool.or_eq_true, List.any_eq_true]
    exact .inl ⟨_, hfield, beq_self_eq_true _⟩

/-- Without earlier cells each item is read on its own. -/
theorem overCells_nil (zero : α) (read : Reader α) (done : List α) (trees : List Tree) :
    Reader.overCells zero read done [] trees =
      (trees.mapM (read zero)).map (done.reverse ++ ·) := by
  induction trees generalizing done with
  | nil => simp [Reader.overCells]
  | cons tree trees ih =>
    rw [Reader.overCells, List.mapM_cons]
    cases read zero tree with
    | none => rfl
    | some item =>
      simp only [ih]
      cases trees.mapM (read zero) <;> simp

theorem list_array (zero : α) (read : Reader α) (trees : List Tree) :
    Reader.list zero read {} (.array trees) =
      (trees.mapM (read zero)).map fun items => { items := some items } := by
  cases trees with
  | nil => rfl
  | cons tree trees =>
    simp only [Reader.list, Option.getD_none, List.append_nil, overCells_nil]
    cases (tree :: trees).mapM (read zero) <;> rfl

theorem mapM_shown {write : α → Value} {read : Tree → Option β} {f : α → β} {rows : List α}
    (hrow : ∀ row ∈ rows, ∀ tree, Shows (write row) tree → read tree = some (f row))
    (h : List.Forall₂ Shows (rows.map write) trees) : trees.mapM read = some (rows.map f) := by
  induction rows generalizing trees with
  | nil =>
    cases h
    rfl
  | cons row rows ih =>
    obtain ⟨hfirst, hrest⟩ := List.forall_mem_cons.mp hrow
    cases h with
    | cons hshows hshow =>
      rw [List.mapM_cons, hfirst _ hshows, ih hrest hshow]
      rfl

namespace Wrote

variable {members : Members} {trees : List Tree.Member} (h : Wrote members trees)
include h

theorem filter_perm (name : Text) : ∃ found,
    found.Perm (members.filter fun m => Key.hashBytes m.1 == Key.hashBytes name) ∧
      List.Forall₂ ShowsMember found (trees.filter (Tree.Member.isNamed name)) := by
  obtain ⟨⟨hascii, -⟩, written, hperm, hshows⟩ := h
  refine ⟨_, ?_, ShowsMember.filter name hshows⟩
  refine (hperm.filter _).trans (List.Perm.of_eq (List.filter_congr fun m hm => ?_))
  rw [Key.hash?_written (hascii m.1 (List.mem_map_of_mem hm))]
  rfl

theorem lookup (hmem : (name, value) ∈ members) : ∃ tree rest, Shows value tree ∧
    trees.filter (Tree.Member.isNamed name) = [shown (name, value) tree rest] := by
  obtain ⟨found, hperm, hshows⟩ := h.filter_perm name
  rw [filter_key Key.hashBytes h.keys.2 hmem, List.perm_singleton] at hperm
  subst hperm
  generalize trees.filter (Tree.Member.isNamed name) = named at hshows
  rcases hshows with _ | ⟨⟨hvalue⟩, _ | _⟩
  exact ⟨_, _, hvalue, rfl⟩

theorem field (hmem : (name, value) ∈ members) : ∃ tree, Shows value tree ∧
    ∀ {α : Type} (read : Reader α) (old : α), Reader.field name read old trees = read old tree := by
  obtain ⟨tree, rest, hshows, hfound⟩ := h.lookup hmem
  refine ⟨tree, hshows, fun read old => ?_⟩
  rw [Reader.field, hfound]
  exact bind_pure _

theorem unnamed (hnot : Key.hashBytes name ∉ (members.map Prod.fst).map Key.hashBytes) :
    trees.filter (Tree.Member.isNamed name) = [] := by
  obtain ⟨found, hperm, hshows⟩ := h.filter_perm name
  have hnone : (members.filter fun m => Key.hashBytes m.1 == Key.hashBytes name) = [] := by
    refine List.filter_eq_nil_iff.mpr fun m hm heq => ?_
    exact hnot (eq_of_beq heq ▸ List.mem_map_of_mem (List.mem_map_of_mem hm))
  rw [hnone, List.perm_nil] at hperm
  subst hperm
  exact List.forall₂_nil_left_iff.mp hshows

theorem absent (hnot : Key.hashBytes name ∉ (members.map Prod.fst).map Key.hashBytes)
    (read : Reader α) (old : α) :
    Reader.field name read old trees = some old := by
  rw [Reader.field, h.unnamed hnot]
  rfl

theorem raw_absent (hnot : Key.hashBytes name ∉ (members.map Prod.fst).map Key.hashBytes)
    (old : Option (Tree × Text)) :
    Reader.rawField name old trees = some old := by
  rw [Reader.rawField, h.unnamed hnot]
  rfl

theorem text (hmem : (name, .text t) ∈ members) (old : Text) :
    Reader.field name Reader.text old trees = some t.scrub := by
  obtain ⟨_, ⟨⟩, hread⟩ := h.field hmem
  exact hread _ _

theorem bool (hmem : (name, .bool b) ∈ members) (old : Bool) :
    Reader.field name Reader.bool old trees = some b := by
  obtain ⟨_, ⟨⟩, hread⟩ := h.field hmem
  exact hread _ _

theorem int64 {i : Int64} (hmem : (name, .int i.toInt) ∈ members) (old : Int64) :
    Reader.field name Reader.int64 old trees = some i := by
  obtain ⟨_, ⟨⟩, hread⟩ := h.field hmem
  have hvalue : Literal.signed? UInt64.size (Text.ofInt i.toInt) = some i.toInt :=
    Literal.signed?_ofInt i.le_toInt i.toInt_lt
  rw [hread]
  show (Literal.signed? UInt64.size (Text.ofInt i.toInt)).map Int64.ofInt = some i
  rw [hvalue, Option.map_some, Int64.ofInt_toInt]

theorem uint64 {i : UInt64} (hmem : (name, .int i.toNat) ∈ members) (old : UInt64) :
    Reader.field name Reader.uint64 old trees = some i := by
  obtain ⟨_, ⟨⟩, hread⟩ := h.field hmem
  rw [hread]
  show (Literal.word? UInt64.size (Text.ofNat i.toNat)).map (·.toUInt64) = some i
  rw [Literal.word?_ofNat i.toNat_lt, Option.map_some]
  simp

theorem uint16 {i : UInt16} (hmem : (name, .int i.toNat) ∈ members) (old : UInt16) :
    Reader.field name Reader.uint16 old trees = some i := by
  obtain ⟨_, ⟨⟩, hread⟩ := h.field hmem
  have hsmall := i.toNat_lt
  have hvalue : Literal.word? UInt32.size (Text.ofNat i.toNat) = some i.toNat :=
    Literal.word?_ofNat (Nat.lt_trans hsmall (by decide))
  have hfits : ¬ UInt16.size ≤ i.toNat := Nat.not_le.mpr hsmall
  rw [hread]
  show (Literal.word? UInt32.size (Text.ofNat i.toNat) >>= fun value =>
    if UInt16.size ≤ value then none else some value.toUInt16) = some i
  rw [hvalue, Option.bind_eq_bind, Option.bind_some, if_neg hfits]
  simp

/-- An integer that may be missing; then `null` is written. -/
theorem optionalInt64 {i : Option Int64}
    (hmem : (name, .ofOption (fun v => .int v.toInt) i) ∈ members) (old : Option Int64) :
    Reader.field name (Reader.optional 0 Reader.int64) old trees = some i := by
  cases i with
  | none =>
    obtain ⟨_, ⟨⟩, hread⟩ := h.field hmem
    exact hread _ _
  | some i =>
    obtain ⟨_, ⟨⟩, hread⟩ := h.field hmem
    have hvalue : Literal.signed? UInt64.size (Text.ofInt i.toInt) = some i.toInt :=
      Literal.signed?_ofInt i.le_toInt i.toInt_lt
    rw [hread]
    show ((Literal.signed? UInt64.size (Text.ofInt i.toInt)).map Int64.ofInt).map some =
      some (some i)
    rw [hvalue, Option.map_some, Option.map_some, Int64.ofInt_toInt]

/-- A whole number that fits, where one may be missing. -/
theorem optionalNat {n : Nat} (hmem : (name, .int n) ∈ members) (hsmall : n < 2 ^ 63)
    (old : Option Int64) :
    Reader.field name (Reader.optional 0 Reader.int64) old trees =
      some (some (Int64.ofNat n)) := by
  have hint : (Int64.ofNat n).toInt = n := Int64.toInt_ofNat_of_lt hsmall
  have hvalue : (name, Value.ofOption (fun v : Int64 => .int v.toInt) (some (Int64.ofNat n))) ∈
      members := by
    rw [Value.ofOption, hint]
    exact hmem
  exact h.optionalInt64 hvalue old

/-- A text where one may be missing. -/
theorem optionalText {t : Text} (hmem : (name, .text t) ∈ members) (old : Option Text) :
    Reader.field name (Reader.optional [] Reader.text) old trees = some (some t.scrub) := by
  obtain ⟨_, ⟨⟩, hread⟩ := h.field hmem
  exact hread _ _

/-- A list, item by item. -/
theorem listOf {write : α → Value} {read : Reader β} {zero : β} {f : α → β} {rows : List α}
    (hmem : (name, .list (rows.map write)) ∈ members)
    (hrow : ∀ row ∈ rows, ∀ tree, Shows (write row) tree → read zero tree = some (f row)) :
    Reader.listField name zero read none trees = some (some (rows.map f)) := by
  obtain ⟨tree, hshows, hread⟩ := h.field hmem
  cases hshows with
  | list hshow => rw [Reader.listField, hread, list_array, mapM_shown hrow hshow]; rfl

/-- A list, if each of its items is read back. -/
theorem list {write : α → Value} {read : Reader α} {zero : α} {rows : List α}
    (hmem : (name, .list (rows.map write)) ∈ members)
    (hrow : ∀ row ∈ rows, ∀ tree, Shows (write row) tree → read zero tree = some row) :
    Reader.listField name zero read none trees = some (some rows) := by
  have hlist := h.listOf (f := id) hmem hrow
  rwa [List.map_id] at hlist

/-- A value that is kept as it was written. -/
theorem raw (hskip : Tree.membersSkippable trees = true) (hmem : (name, value) ∈ members)
    (hvalue : value ≠ .null) (old : Option (Tree × Text)) :
    ∃ tree, Reader.rawField name old trees = some (some (tree, value.render)) := by
  obtain ⟨tree, rest, hshows, hfound⟩ := h.lookup hmem
  have hnull : tree ≠ .null := by
    rintro rfl
    cases hshows
    exact hvalue rfl
  have htree : tree.isSkippable = true := by
    have hmem : shown (name, value) tree rest ∈ trees :=
      (List.mem_filter.mp (hfound ▸ List.mem_singleton_self _)).1
    exact isSkippable_of_mem hskip hmem
  have htext : Tree.Member.text (shown (name, value) tree rest) = value.render := by
    simp [Tree.Member.text, shown]
  rw [Reader.rawField, hfound]
  refine ⟨tree, ?_⟩
  cases tree with
  | null => exact absurd rfl hnull
  | _ =>
    rw [List.foldlM_cons, htext]
    exact congrArg (· >>= pure) (if_pos htree)

/-- A value that may be missing; then `null` is written. -/
theorem raw_getD {value : Option Value} (hskip : Tree.membersSkippable trees = true)
    (hmem : (name, value.getD .null) ∈ members) (hvalue : ∀ v, value = some v → v ≠ .null)
    (old : Option (Tree × Text)) :
    ∃ found, Reader.rawField name old trees = some found ∧
      found.map Prod.snd = value.map render := by
  cases value with
  | none =>
    obtain ⟨tree, rest, hshows, hfound⟩ := h.lookup hmem
    cases hshows
    rw [Reader.rawField, hfound]
    exact ⟨none, rfl, rfl⟩
  | some v =>
    obtain ⟨tree, hread⟩ := h.raw hskip hmem (hvalue v rfl) old
    exact ⟨_, hread, rfl⟩

theorem isAccepted (hkeys : ∀ key ∈ members.map Prod.fst, key ∈ fields) :
    trees.all (Tree.Member.isAccepted fields) = true := by
  obtain ⟨⟨hascii, -⟩, written, hperm, hshows⟩ := h
  refine isAccepted_of_shows hshows fun m hm => ?_
  have hkey : m.1 ∈ members.map Prod.fst := List.mem_map_of_mem (hperm.mem_iff.mp hm)
  exact ⟨hkeys m.1 hkey, hascii m.1 hkey⟩

end Wrote

section
variable {members written : Members} (hperm : written.Perm members)
  (hkeys : PlainKeys (members.map Prod.fst)) (hplain : ∀ m ∈ members, Plain n m.2)
  (hdepth : n < Tree.depthLimit)
include hperm hkeys hplain hdepth

/-- Members that are written in some order are found in what is read. -/
theorem parse?_wrote (hgap : Gap gap) :
    ∃ trees, Tree.parse? ((Value.object written).render ++ gap) = some (.object trees) ∧
      Wrote members trees ∧ Tree.membersSkippable trees = true := by
  have hplain : Plain (n + 1) (.object written) :=
    .object fun m hm => hplain m (hperm.mem_iff.mp hm)
  obtain ⟨trees, hparse, hshows, hskip⟩ := parse?_object hplain hdepth hgap
  exact ⟨trees, hparse, ⟨hkeys, written, hperm, hshows⟩, hskip⟩

/-- With nothing after them. -/
theorem parse?_wrote_alone :
    ∃ trees, Tree.parse? (Value.object written).render = some (.object trees) ∧
      Wrote members trees ∧ Tree.membersSkippable trees = true := by
  obtain ⟨trees, hparse, hwrote⟩ :=
    parse?_wrote hperm hkeys hplain hdepth (List.forall_mem_nil _ : Gap [])
  rw [List.append_nil] at hparse
  exact ⟨trees, hparse, hwrote⟩

theorem first?_wrote (portion : Nat) :
    ∃ trees, Tree.first? portion (Value.object written).render = some (.object trees) ∧
      Wrote members trees := by
  have hplain : Plain (n + 1) (.object written) :=
    .object fun m hm => hplain m (hperm.mem_iff.mp hm)
  obtain ⟨trees, hfirst, hshows⟩ := first?_object hplain hdepth portion
  exact ⟨trees, hfirst, hkeys, written, hperm, hshows⟩

end

theorem Value.object_ne_null (members : Members) : Value.object members ≠ .null := by
  intro h
  cases h

/-- `Value.map` writes its members in the order of their keys. -/
theorem map_perm (members : Members) :
    ∃ written, Value.map members = .object written ∧ written.Perm members :=
  ⟨_, rfl, List.mergeSort_perm members _⟩

theorem Value.map_singleton (m : Text × Value) : Value.map [m] = .object [m] := by
  rw [Value.map, List.mergeSort_singleton]

theorem Value.Plain.map {members : Members} (h : ∀ m ∈ members, Plain n m.2) :
    Plain (n + 1) (.map members) :=
  .object fun m hm => h m ((List.mergeSort_perm members _).mem_iff.mp hm)

theorem Value.Plain.listOf {write : α → Value} {rows : List α}
    (h : ∀ row ∈ rows, Plain n (write row)) : Plain (n + 1) (.list (rows.map write)) := by
  refine .list fun item hitem => ?_
  obtain ⟨row, hrow, rfl⟩ := List.mem_map.mp hitem
  exact h row hrow

/-- A tree of an object is one of its members, in some order. -/
theorem Value.Shows.wrote {members : Members} (h : Shows (.object members) tree)
    (hkeys : PlainKeys (members.map Prod.fst)) :
    ∃ trees, tree = .object trees ∧ Wrote members trees := by
  cases h with
  | object hshows => exact ⟨_, rfl, hkeys, members, .refl _, hshows⟩

theorem Value.Shows.wrote_map {members : Members} (h : Shows (.map members) tree)
    (hkeys : PlainKeys (members.map Prod.fst)) :
    ∃ trees, tree = .object trees ∧ Wrote members trees := by
  obtain ⟨written, hwritten, hperm⟩ := map_perm members
  rw [hwritten] at h
  cases h with
  | object hshows => exact ⟨_, rfl, hkeys, written, hperm, hshows⟩

theorem record_wrote {read : σ → List Tree.Member → Option σ} {members : Members}
    (h : Wrote members trees) (hkeys : ∀ key ∈ members.map Prod.fst, key ∈ fields) (old : σ) :
    Reader.record fields read old (.object trees) = read old trees :=
  if_pos (h.isAccepted hkeys)

end MeshConsole.Json
