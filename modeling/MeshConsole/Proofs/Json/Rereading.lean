import MeshConsole.Proofs.Json.Written

/-!
# Reading anything that was written

A text that was written for a value is read to its end and no further, if it is
read at all (`ReadsOn.written`): a number that is not whole may be rounded, and
a value may be nested too deep, but no value runs into the next. So the members
of an object are found where they were written (`first?_members`).
-/

namespace MeshConsole.Json

open Value (afterCommas memberText quotedText render?_list render?_object)

-- ---------------------------------------------------------------------------
-- What can be written
-- ---------------------------------------------------------------------------

namespace Value

/-- No part of the value is a number beyond the finite range. -/
def Writable (v : Value) : Prop := v.render? = some v.render

instance : DecidablePred Writable := fun v =>
  inferInstanceAs (Decidable (v.render? = some v.render))

theorem writable_of_render? {v : Value} (h : v.render? = some t) : v.Writable := by
  rw [Writable, render_eq h, h]

theorem Writable.starts {v : Value} (h : v.Writable) : Starts v.render :=
  (isValue_of_render? v h).starts

theorem writable_items {items : List Value} (h : renderItems? items = some t) :
    ∀ item ∈ items, item.Writable := by
  induction items generalizing t with
  | nil => exact List.forall_mem_nil _
  | cons item items ih =>
    obtain ⟨head, tail, hhead, htail, -⟩ := parts_of_bind h
    exact List.forall_mem_cons.mpr ⟨writable_of_render? hhead, ih htail⟩

theorem writable_members {members : Members} (h : renderMembers? members = some t) :
    ∀ m ∈ members, m.2.Writable := by
  induction members generalizing t with
  | nil => exact List.forall_mem_nil _
  | cons m members ih =>
    obtain ⟨head, tail, hhead, htail, -⟩ := parts_of_bind h
    exact List.forall_mem_cons.mpr ⟨writable_of_render? hhead, ih htail⟩

theorem Writable.items {items : List Value} (h : (Value.list items).Writable) :
    ∀ item ∈ items, item.Writable := by
  cases items with
  | nil => exact List.forall_mem_nil _
  | cons item items =>
    obtain ⟨head, tail, hhead, htail, -⟩ := parts_of_bind h
    exact List.forall_mem_cons.mpr ⟨writable_of_render? hhead, writable_items htail⟩

theorem Writable.members {members : Members} (h : (Value.object members).Writable) :
    ∀ m ∈ members, m.2.Writable := by
  cases members with
  | nil => exact List.forall_mem_nil _
  | cons m members =>
    obtain ⟨head, tail, hhead, htail, -⟩ := parts_of_bind h
    exact List.forall_mem_cons.mpr ⟨writable_of_render? hhead, writable_members htail⟩

theorem Writable.object {members : Members} (h : ∀ m ∈ members, m.2.Writable) :
    (Value.object members).Writable := by
  cases members with
  | nil => rfl
  | cons m members => exact writable_of_render? (render?_object h)

end Value

-- ---------------------------------------------------------------------------
-- Numbers
-- ---------------------------------------------------------------------------

theorem isNumberByte_digit (h : Ascii.isDigit b = true) : Tree.isNumberByte b = true := by
  simp [Tree.isNumberByte, h]

theorem IsNumber.bytes (h : IsNumber t) : ∀ b ∈ t, Tree.isNumberByte b = true := by
  have hdigits {t : Text} (h : ∀ b ∈ t, Ascii.isDigit b = true) :
      ∀ b ∈ t, Tree.isNumberByte b = true := fun b hb => isNumberByte_digit (h b hb)
  obtain @⟨sign, whole, fraction, exponent, hsign, hwhole, hfraction, hexponent⟩ := h
  have hsigned : ∀ b ∈ sign, Tree.isNumberByte b = true := by
    rcases hsign with rfl | rfl <;> decide
  have hwholes : ∀ b ∈ whole, Tree.isNumberByte b = true := by
    cases hwhole with
    | zero => decide
    | digits hb _ hrest => exact List.forall_mem_cons.mpr ⟨isNumberByte_digit hb, hdigits hrest⟩
  have hfractions : ∀ b ∈ fraction, Tree.isNumberByte b = true := by
    cases hfraction with
    | none => exact List.forall_mem_nil _
    | digits h => exact List.forall_mem_cons.mpr ⟨rfl, hdigits h.2⟩
  have hexponents : ∀ b ∈ exponent, Tree.isNumberByte b = true := by
    cases hexponent with
    | none => exact List.forall_mem_nil _
    | @digits mark sign t hmark hsign h =>
      have hmarked : Tree.isNumberByte mark = true := by rcases hmark with rfl | rfl <;> rfl
      have hsigned : ∀ b ∈ sign, Tree.isNumberByte b = true := by
        rcases hsign with rfl | rfl | rfl <;> decide
      exact List.forall_mem_cons.mpr
        ⟨hmarked, List.forall_mem_append.mpr ⟨hsigned, hdigits h.2⟩⟩
  exact List.forall_mem_append.mpr ⟨hsigned, List.forall_mem_append.mpr
    ⟨hwholes, List.forall_mem_append.mpr ⟨hfractions, hexponents⟩⟩⟩

-- ---------------------------------------------------------------------------
-- Values
-- ---------------------------------------------------------------------------

section
variable (ahead : Text → Nat)

/-- With however much fuel and depth, reading the value leaves what follows
it. -/
def ReadsOn (v : Value) : Prop :=
  ∀ fuel depth rest tree after, Ended rest →
    Tree.readValue ahead fuel depth (v.render ++ rest) = some (tree, after) → after = rest

end

section
variable {ahead : Text → Nat}

theorem readValue_fuel (h : Tree.readValue ahead fuel depth t = some r) :
    ∃ less, fuel = less + 1 := by
  cases fuel with
  | zero => simp [Tree.readValue] at h
  | succ less => exact ⟨less, rfl⟩

theorem readItems_fuel (h : Tree.readItems ahead fuel depth done t = some r) :
    ∃ less, fuel = less + 1 := by
  cases fuel with
  | zero => simp [Tree.readItems] at h
  | succ less => exact ⟨less, rfl⟩

theorem readMembers_fuel (h : Tree.readMembers ahead fuel depth done t = some r) :
    ∃ less, fuel = less + 1 := by
  cases fuel with
  | zero => simp [Tree.readMembers] at h
  | succ less => exact ⟨less, rfl⟩

/-- No value is read on after its end. -/
theorem ReadsOn.of_scalar (hread : ∀ fuel depth rest, Ended rest → ∃ tree,
    Tree.readValue ahead (fuel + 1) depth (v.render ++ rest) = some (tree, rest)) :
    ReadsOn ahead v := by
  intro fuel depth rest tree after hrest h
  obtain ⟨less, rfl⟩ := readValue_fuel h
  obtain ⟨tree', hvalue⟩ := hread less depth rest hrest
  rw [hvalue] at h
  cases h
  rfl

theorem ReadsOn.number (h : IsNumber v.render) : ReadsOn ahead v :=
  .of_scalar fun fuel _ _ hrest => ⟨_, readValue_literal h.head h.bytes hrest fuel⟩

/-- Neither a comma nor a bracket is a blank. -/
theorem gap_before (hgap : Gap gap) (hb : isBlank b = false) (h : b :: t = gap ++ c :: u) :
    b = c ∧ t = u := by
  obtain rfl : gap = [] := gap_eq_nil ((skipBlanks_cons hb t).trans h) hgap
  exact List.cons_eq_cons.mp h

theorem readItems_on {item : Value} {items : List Value}
    (hall : ∀ v ∈ item :: items, ReadsOn ahead v)
    (h : Tree.readItems ahead fuel depth done
      (item.render ++ closing Ascii.closeBracket (items.map Value.render) rest) =
        some (tree, after)) :
    after = rest := by
  induction items generalizing item done fuel with
  | nil =>
    obtain ⟨less, rfl⟩ := readItems_fuel h
    obtain ⟨value, r, hvalue, hnext⟩ := readItems_cases h
    have hr := hall item (.head _) _ _ _ _ _ (ended_closing rfl _ _) hvalue
    rcases hnext with ⟨gap, next, hgap, hcomma, -⟩ | ⟨gap, hgap, hclose, -⟩
    · exact absurd (gap_before hgap rfl (hr.symm.trans hcomma)).1 (by decide)
    · exact (gap_before hgap rfl (hr.symm.trans hclose)).2.symm
  | cons next items ih =>
    obtain ⟨hitem, hitems⟩ := List.forall_mem_cons.mp hall
    obtain ⟨less, rfl⟩ := readItems_fuel h
    obtain ⟨value, r, hvalue, hnext⟩ := readItems_cases h
    have hr := hitem _ _ _ _ _ (ended_closing rfl _ _) hvalue
    rw [List.map_cons, closing_cons] at hr
    rcases hnext with ⟨gap, next', hgap, hcomma, hread⟩ | ⟨gap, hgap, hclose, -⟩
    · rw [← (gap_before hgap rfl (hr.symm.trans hcomma)).2] at hread
      exact ih hitems hread
    · exact absurd (gap_before hgap rfl (hr.symm.trans hclose)).1 (by decide)

/-- What is sure of a member that was read where this one was written. -/
structure Names (m : Text × Value) (member : Tree.Member) : Prop where
  key : member.key = .written m.1
  text : ∀ t, m.2 = .text t → member.value = .string t.scrub

/-- The member at the front, read up to what follows its value. -/
theorem readMember_on {m : Text × Value} (hwritable : m.2.Writable) (hon : ReadsOn ahead m.2)
    (hrest : Ended rest)
    (h : Tree.readMembers ahead (fuel + 1) depth done (memberText m ++ rest) =
      some (tree, after)) :
    ∃ member, Names m member ∧
      ((∃ gap next, Gap gap ∧ rest = gap ++ Ascii.comma :: next ∧
          Tree.readMembers ahead fuel depth (member :: done) (skipBlanks next) =
            some (tree, after)) ∨
        ∃ gap, Gap gap ∧ rest = gap ++ Ascii.closeBrace :: after ∧
          tree = .object (member :: done).reverse) := by
  obtain ⟨key, after', gap, inside, value, r, hkey, hgap, hcolon, hvalue, hnext⟩ :=
    readMembers_cases h
  rw [memberText_append, readKey_quotedText] at hkey
  obtain ⟨rfl, rfl⟩ := Prod.mk.inj (Option.some.inj hkey)
  obtain ⟨-, rfl⟩ := gap_before hgap rfl hcolon
  have hstart : skipBlanks (m.2.render ++ rest) = m.2.render ++ rest :=
    skipBlanks_starts (List.forall_mem_nil _ : Gap []) (hwritable.starts.append rest)
  rw [hstart] at hvalue hnext
  obtain rfl := hon _ _ _ _ _ hrest hvalue
  refine ⟨_, ⟨rfl, fun t ht => ?_⟩, hnext⟩
  obtain ⟨less, rfl⟩ := readValue_fuel hvalue
  rw [ht] at hvalue
  have hstring := (readValue_quotedText t r).symm.trans hvalue
  exact (Prod.mk.inj (Option.some.inj hstring)).1.symm

theorem readMembers_on {m : Text × Value} {members : Members}
    (hwritable : ∀ v ∈ m :: members, v.2.Writable)
    (hall : ∀ v ∈ m :: members, ReadsOn ahead v.2)
    (h : Tree.readMembers ahead fuel depth done
      (memberText m ++ closing Ascii.closeBrace (members.map memberText) rest) =
        some (tree, after)) :
    after = rest ∧ ∃ trees, tree = .object (done.reverse ++ trees) ∧
      List.Forall₂ Names (m :: members) trees := by
  induction members generalizing m done fuel with
  | nil =>
    obtain ⟨less, rfl⟩ := readMembers_fuel h
    obtain ⟨member, hnames, hnext⟩ := readMember_on (hwritable m (.head _)) (hall m (.head _))
      (ended_closing rfl _ _) h
    rcases hnext with ⟨gap, next, hgap, hcomma, -⟩ | ⟨gap, hgap, hclose, rfl⟩
    · exact absurd (gap_before hgap rfl hcomma).1 (by decide)
    · refine ⟨(gap_before hgap rfl hclose).2.symm, [member], ?_, .cons hnames .nil⟩
      rw [List.reverse_cons]
  | cons next members ih =>
    obtain ⟨hm, hmembers⟩ := List.forall_mem_cons.mp hwritable
    obtain ⟨hon, hons⟩ := List.forall_mem_cons.mp hall
    obtain ⟨less, rfl⟩ := readMembers_fuel h
    obtain ⟨member, hnames, hnext⟩ := readMember_on hm hon (ended_closing rfl _ _) h
    rw [List.map_cons, closing_cons] at hnext
    rcases hnext with ⟨gap, next', hgap, hcomma, hread⟩ | ⟨gap, hgap, hclose, -⟩
    · rw [← (gap_before hgap rfl hcomma).2, skipBlanks_memberText] at hread
      obtain ⟨hafter, trees, htree, hnamed⟩ := ih hmembers hons hread
      refine ⟨hafter, member :: trees, ?_, .cons hnames hnamed⟩
      rw [htree, List.reverse_cons, List.append_assoc, List.singleton_append]
    · exact absurd (gap_before hgap rfl hclose).1 (by decide)

theorem readItems_of_readValue (hstarts : Starts t)
    (h : Tree.readValue ahead fuel depth (Ascii.openBracket :: t) = some (tree, rest)) :
    ∃ fuel depth, Tree.readItems ahead fuel depth [] t = some (tree, rest) := by
  obtain ⟨less, rfl⟩ := readValue_fuel h
  cases depth with
  | zero =>
    have hnone : Tree.readValue ahead (less + 1) 0 (Ascii.openBracket :: t) = none := by
      conv_lhs => whnf
      split
      next _ hdepth => exact absurd hdepth (by simp)
      next hdepth _ => exact absurd hdepth (by simp)
      next => rfl
    cases hnone.symm.trans h
  | succ depth => exact ⟨less, depth, (readValue_array hstarts).symm.trans h⟩

theorem readMembers_of_readValue {m : Text × Value}
    (h : Tree.readValue ahead fuel depth (Ascii.openBrace :: (memberText m ++ t)) =
      some (tree, rest)) :
    ∃ fuel depth, Tree.readMembers ahead fuel depth [] (memberText m ++ t) = some (tree, rest) := by
  obtain ⟨less, rfl⟩ := readValue_fuel h
  cases depth with
  | zero =>
    rw [memberText_append, quotedText_append] at h
    cases h
  | succ depth => exact ⟨less, depth, (readValue_object m t).symm.trans h⟩

theorem ReadsOn.list {items : List Value} (hwritable : ∀ item ∈ items, item.Writable)
    (hall : ∀ item ∈ items, ReadsOn ahead item) : ReadsOn ahead (.list items) := by
  intro fuel depth rest tree after hrest h
  obtain ⟨less, rfl⟩ := readValue_fuel h
  cases items with
  | nil =>
    cases depth with
    | zero => cases h
    | succ => cases h; rfl
  | cons item items =>
    have hrender := render_eq (render?_list hwritable)
    have hstarts := (hwritable item (.head _)).starts.append
      (closing Ascii.closeBracket (items.map Value.render) rest)
    have hitems : Tree.readValue ahead (less + 1) depth (Ascii.openBracket ::
        (item.render ++ closing Ascii.closeBracket (items.map Value.render) rest)) =
          some (tree, after) := by
      rw [← h, hrender]
      simp [closing]
    obtain ⟨fuel, level, hread⟩ := readItems_of_readValue hstarts hitems
    exact readItems_on hall hread

theorem readValue_members {members : Members} (hwritable : (Value.object members).Writable)
    (hall : ∀ m ∈ members, ReadsOn ahead m.2)
    (h : Tree.readValue ahead fuel depth ((Value.object members).render ++ rest) =
      some (tree, after)) :
    after = rest ∧ ∃ trees, tree = .object trees ∧ List.Forall₂ Names members trees := by
  obtain ⟨less, rfl⟩ := readValue_fuel h
  cases members with
  | nil =>
    cases depth with
    | zero => cases h
    | succ =>
      cases h
      exact ⟨rfl, [], rfl, .nil⟩
  | cons m members =>
    have hrender := render_eq (render?_object hwritable.members)
    have hmembers : Tree.readValue ahead (less + 1) depth (Ascii.openBrace ::
        (memberText m ++ closing Ascii.closeBrace (members.map memberText) rest)) =
          some (tree, after) := by
      rw [← h, hrender]
      simp [closing]
    obtain ⟨fuel, level, hread⟩ := readMembers_of_readValue hmembers
    exact readMembers_on hwritable.members hall hread

mutual

theorem ReadsOn.written : ∀ (v : Value), v.Writable → ReadsOn ahead v
  | .null, _ => .of_scalar fun _ _ _ _ => ⟨.null, rfl⟩
  | .bool true, _ => .of_scalar fun _ _ _ _ => ⟨.bool true, rfl⟩
  | .bool false, _ => .of_scalar fun _ _ _ _ => ⟨.bool false, rfl⟩
  | .int i, _ => .number (isNumber_ofInt i)
  | .real _, h => .number (isNumber_realText? h)
  | .text t, _ => .of_scalar fun _ _ rest _ => ⟨_, readValue_quotedText t rest⟩
  | .list items, h => .list h.items (written_items items h.items)
  | .object members, h => fun _ _ _ _ _ _ hread =>
    (readValue_members h (written_members members h.members) hread).1

theorem ReadsOn.written_items : ∀ (items : List Value), (∀ item ∈ items, item.Writable) →
    ∀ item ∈ items, ReadsOn ahead item
  | [], _ => List.forall_mem_nil _
  | item :: items, h =>
    List.forall_mem_cons.mpr ⟨written item (h item (.head _)),
      written_items items fun v hv => h v (.tail _ hv)⟩

theorem ReadsOn.written_members : ∀ (members : Members), (∀ m ∈ members, m.2.Writable) →
    ∀ m ∈ members, ReadsOn ahead m.2
  | [], _ => List.forall_mem_nil _
  | (_, value) :: members, h =>
    List.forall_mem_cons.mpr ⟨written value (h _ (.head _)),
      written_members members fun m hm => h m (.tail _ hm)⟩

end

end

/-- The members of an object that comes in portions, if it is read at all. -/
theorem first?_members {members : Members} (hwritable : (Value.object members).Writable)
    (h : Tree.first? portion (Value.object members).render = some tree) :
    ∃ trees, tree = .object trees ∧ List.Forall₂ Names members trees := by
  obtain ⟨⟨tree', after⟩, hread, rfl⟩ := Option.map_eq_some_iff.mp h
  rw [← List.append_nil (Value.object members).render] at hread
  exact (readValue_members hwritable
    (fun m hm => .written m.2 (hwritable.members m hm)) hread).2

end MeshConsole.Json
