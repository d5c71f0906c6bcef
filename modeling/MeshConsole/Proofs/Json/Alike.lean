import Mathlib.Data.List.Forall2
import MeshConsole.Proofs.Json.Grammar

/-!
# Documents up to the order of members

Members of different names may trade places. `Alike.agree`: looking members
up by name finds the same values in both orders, up to the order of members
further down.
-/

namespace MeshConsole.Json.Document

/-- The same document but for the order of members, at any depth. Members with
the same name keep their order, as the first of them counts. -/
inductive Alike : Document → Document → Prop
  | refl (d : Document) : Alike d d
  | trans {a b c : Document} : Alike a b → Alike b c → Alike a c
  | swap (front rest : List (Quoted × Document)) {a b : Quoted × Document} :
      a.1.name ≠ b.1.name →
      Alike (.object (front ++ a :: b :: rest)) (.object (front ++ b :: a :: rest))
  | member (front rest : List (Quoted × Document)) (key : Quoted) {d d' : Document} :
      Alike d d' →
      Alike (.object (front ++ (key, d) :: rest)) (.object (front ++ (key, d') :: rest))
  | item (front rest : List Document) {d d' : Document} :
      Alike d d' → Alike (.array (front ++ d :: rest)) (.array (front ++ d' :: rest))

/-- Members with pairwise distinct names may stand in any order. -/
theorem Alike.of_perm {members members' : List (Quoted × Document)} (h : members.Perm members')
    (hnodup : (members.map (·.1.name)).Nodup) : Alike (.object members) (.object members') := by
  -- The members that stay in front go into the context of the next swap.
  suffices ∀ front, Alike (.object (front ++ members)) (.object (front ++ members')) from this []
  induction h with
  | nil => exact fun front => .refl _
  | cons m _ ih =>
    intro front
    have hrest := ih (List.nodup_cons.mp hnodup).2 (front ++ [m])
    rwa [List.append_assoc, List.append_assoc] at hrest
  | swap a b rest =>
    intro front
    refine .swap front rest fun hname => ?_
    exact (List.nodup_cons.mp hnodup).1 (by simp [hname])
  | trans h _ ih₁ ih₂ =>
    intro front
    exact (ih₁ hnodup front).trans (ih₂ ((h.map _).nodup hnodup) front)

-- ---------------------------------------------------------------------------
-- Looking members up
-- ---------------------------------------------------------------------------

/-- The value of the first member with this name. -/
def lookup (name : Text) (members : List (Quoted × Document)) : Option Document :=
  (members.find? (·.1.name == name)).map (·.2)

theorem lookup_append (name : Text) (front rest : List (Quoted × Document)) :
    lookup name (front ++ rest) = (lookup name front).or (lookup name rest) := by
  simp only [lookup, List.find?_append]
  cases front.find? (·.1.name == name) <;> rfl

theorem lookup_cons (name : Text) (m : Quoted × Document) (rest : List (Quoted × Document)) :
    lookup name (m :: rest) = if m.1.name = name then some m.2 else lookup name rest := by
  by_cases h : m.1.name = name <;> simp [lookup, h]

theorem lookup_swap {a b : Quoted × Document} (h : a.1.name ≠ b.1.name)
    (front rest : List (Quoted × Document)) (name : Text) :
    lookup name (front ++ a :: b :: rest) = lookup name (front ++ b :: a :: rest) := by
  simp only [lookup_append, lookup_cons]
  by_cases ha : a.1.name = name
  · have hb : b.1.name ≠ name := fun hb => h (ha.trans hb.symm)
    simp [ha, hb]
  · simp [ha]

/-- The literal of a number. -/
def literal? : Document → Option Text
  | .number numeral => some numeral.text
  | _ => none

/-- The text of a string. -/
def text? : Document → Option Text
  | .string quoted => some quoted.name
  | _ => none

/-- The members of an object. -/
def members? : Document → Option (List (Quoted × Document))
  | .object members => some members
  | _ => none

theorem Alike.literal? (h : Alike d d') : d.literal? = d'.literal? := by
  induction h with
  | trans _ _ ih₁ ih₂ => exact ih₁.trans ih₂
  | _ => rfl

theorem Alike.text? (h : Alike d d') : d.text? = d'.text? := by
  induction h with
  | trans _ _ ih₁ ih₂ => exact ih₁.trans ih₂
  | _ => rfl

/-- Every look up finds nothing in either object, or values that are alike. -/
def Agree (members members' : List (Quoted × Document)) : Prop :=
  ∀ name, Option.Rel Alike (lookup name members) (lookup name members')

theorem rel_cases {r : α → α → Prop} (h : Option.Rel r x y) :
    x = none ∧ y = none ∨ ∃ a b, x = some a ∧ y = some b ∧ r a b := by
  cases h with
  | none => exact .inl ⟨rfl, rfl⟩
  | some hab => exact .inr ⟨_, _, rfl, rfl, hab⟩

theorem rel_trans {r : α → α → Prop} (hr : ∀ a b c, r a b → r b c → r a c)
    (h : Option.Rel r x y) (h' : Option.Rel r y z) : Option.Rel r x z := by
  cases h with
  | none => exact h'
  | some hab =>
    cases h' with
    | some hbc => exact .some (hr _ _ _ hab hbc)

theorem rel_alike_refl (found : Option Document) : Option.Rel Alike found found := by
  cases found with
  | none => exact .none
  | some d => exact .some (.refl d)

theorem Agree.refl (members : List (Quoted × Document)) : Agree members members :=
  fun name => rel_alike_refl (lookup name members)

theorem Agree.trans (h : Agree first second) (h' : Agree second third) : Agree first third :=
  fun name => rel_trans (fun _ _ _ => Alike.trans) (h name) (h' name)

theorem agree_member (h : Alike d d') (front rest : List (Quoted × Document)) (key : Quoted) :
    Agree (front ++ (key, d) :: rest) (front ++ (key, d') :: rest) := by
  intro name
  simp only [lookup_append, lookup_cons]
  cases lookup name front with
  | some found => exact .some (.refl found)
  | none =>
    by_cases hkey : key.name = name
    · simpa [hkey] using Option.Rel.some h
    · simpa [hkey] using rel_alike_refl (lookup name rest)

/-- Objects that are alike cannot be told apart by looking members up. -/
theorem Alike.agree (h : Alike d d') : Option.Rel Agree d.members? d'.members? := by
  induction h with
  | refl d =>
    cases d.members? with
    | none => exact .none
    | some members => exact .some (.refl members)
  | trans _ _ ih₁ ih₂ => exact rel_trans (fun _ _ _ => Agree.trans) ih₁ ih₂
  | swap front rest hname =>
    refine .some fun name => ?_
    rw [lookup_swap hname]
    exact rel_alike_refl _
  | member front rest key hd _ => exact .some (agree_member hd front rest key)
  | item => exact .none

/-- A reading that cannot tell values apart that are alike cannot tell the
objects apart either. -/
theorem Agree.bind (h : Agree members members') (name : Text) {f : Document → Option α}
    (hf : ∀ d d', Alike d d' → f d = f d') :
    lookup name members >>= f = lookup name members' >>= f := by
  obtain ⟨hx, hy⟩ | ⟨d, d', hx, hy, hd⟩ := rel_cases (h name)
  · rw [hx, hy]
  · rw [hx, hy]
    exact hf d d' hd

theorem Agree.isSome (h : Agree members members') (name : Text) :
    (lookup name members).isSome = (lookup name members').isSome := by
  obtain ⟨hx, hy⟩ | ⟨d, d', hx, hy, -⟩ := rel_cases (h name)
  · rw [hx, hy]
  · rw [hx, hy]
    rfl

end MeshConsole.Json.Document
