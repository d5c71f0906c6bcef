import Mathlib.Data.List.Forall2
import MeshConsole.Proofs.Json.Value

/-!
# Reading objects

`object?_eq_some_iff`: the reader of frames accepts a text exactly when the
grammar writes it as an object, and then it finds the keys and the texts of
the values that the object is written from. `exists_entries` and
`object?_eq_none` say what it finds in a text that writes a given document.
-/

namespace MeshConsole.Json

open Strict

-- ---------------------------------------------------------------------------
-- Objects
-- ---------------------------------------------------------------------------

def Entry.member (e : Entry) : Strict.Member where
  key := e.key.name
  value := e.value

theorem before_append (v rest : Text) : before (v ++ rest) rest = v := by
  simp [before]

theorem collect_keyed (fuel : Nat) (done : List Strict.Member) (t : Text) :
    collect (fuel + 1) done t =
      (keyed? t).bind fun key =>
        let value := skipBlanks key.2
        (skipValue (value.length + 1) value).bind fun rest =>
          let members := ⟨unescape key.1, before value rest⟩ :: done
          afterValue Ascii.closeBrace (fun next => collect fuel members (skipBlanks next))
            (fun after => (members.reverse, after)) (skipBlanks rest) := by
  conv => lhs; unfold collect
  fun_cases keyed? t with
  | case1 rest hbody => simp only [hbody, Option.bind_none]
  | case2 rest body after hbody value hcolon =>
    simp only [hbody, hcolon, Option.bind_some]
    cases skipValue ((skipBlanks value).length + 1) (skipBlanks value) with
    | none => rfl
    | some rest => exact afterValue_brace _ _ (skipBlanks rest)
  | case3 rest body after hbody hcolon => simp only [hbody, Option.bind_none]
  | case4 t hquote => simp only [Option.bind_none]

theorem collect_member (key : Quoted) (hgap : Gap gap) (fuel : Nat) (done : List Strict.Member) :
    collect (fuel + 1) done (key.text ++ (gap ++ Ascii.colon :: t)) =
      (skipValue ((skipBlanks t).length + 1) (skipBlanks t)).bind fun rest =>
        let members := ⟨key.name, before (skipBlanks t) rest⟩ :: done
        afterValue Ascii.closeBrace (fun next => collect fuel members (skipBlanks next))
          (fun after => (members.reverse, after)) (skipBlanks rest) := by
  rw [collect_keyed, keyed?_member key hgap, Option.bind_some]
  rfl

theorem key_of_collect (h : collect (fuel + 1) done t = some r) :
    ∃ (key : Quoted) (gap value : Text), Gap gap ∧
      t = key.text ++ (gap ++ Ascii.colon :: value) := by
  rw [collect_keyed, Option.bind_eq_some_iff] at h
  obtain ⟨⟨body, value⟩, hkeyed, -⟩ := h
  obtain ⟨key, gap, hgap, ht⟩ := keyed?_sound hkeyed
  exact ⟨key, gap, value, hgap, ht⟩

theorem IsValue.starts (h : IsValue v) : Starts v := by
  obtain ⟨d, hd⟩ := h
  exact starts_document hd

/-- A value is passed over with as much fuel as there is text. -/
theorem IsValue.skip (h : IsValue v) (hrest : Ended rest) :
    skipValue ((v ++ rest).length + 1) (v ++ rest) = some rest := by
  obtain ⟨d, hd⟩ := h
  have hskip := (passes ((v ++ rest).length + 1)).value d [] v rest (by simp [Gap]) hd
    (by rw [List.length_append]; omega) hrest
  rwa [List.nil_append] at hskip

theorem isValue_iff : IsValue t ↔ skipBlanks t = t ∧ skipValue (t.length + 1) t = some [] := by
  constructor
  · intro h
    have hblank : skipBlanks ([] ++ t) = t := skipBlanks_starts (by simp [Gap]) h.starts
    have hskip : skipValue ((t ++ []).length + 1) (t ++ []) = some [] := h.skip (by simp [Ended])
    rw [List.append_nil] at hskip
    exact ⟨hblank, hskip⟩
  · rintro ⟨hblank, hskip⟩
    obtain ⟨gap, v, d, hgap, hv, ht⟩ := (written _).value _ _ hskip
    obtain rfl := gap_eq_nil (hblank.trans ht) hgap
    rw [ht, List.nil_append, List.append_nil]
    exact ⟨d, hv⟩

instance : Decidable (IsValue t) := decidable_of_iff _ isValue_iff.symm

theorem collect_entries {e : Entry} {es : List Entry} (fuel : Nat) (done : List Strict.Member)
    (t rest : Text) (hvalues : ∀ x ∈ e :: es, IsValue x.value)
    (h : Joined (separated Ascii.closeBrace e.tokens (es.map Entry.tokens)) t)
    (hlen : t.length < fuel) :
    collect fuel done (t ++ rest) = some (done.reverse ++ (e :: es).map Entry.member, rest) := by
  induction es generalizing e fuel done t with
  | nil =>
    obtain ⟨fuel, rfl⟩ : ∃ n, fuel = n + 1 := ⟨fuel - 1, by omega⟩
    obtain ⟨u, gap, hu, hgap, rfl⟩ := (joined_separated_nil (memberTokens_ne_nil _)).mp h
    obtain ⟨gap₁, gap₂, hgap₁, hgap₂, rfl⟩ := (joined_entry_iff e).mp hu
    have hvalue := hvalues e (by simp)
    simp only [List.append_assoc, List.cons_append, List.nil_append]
    rw [collect_member e.key hgap₁, skipBlanks_starts hgap₂ (hvalue.starts.append _),
      hvalue.skip (.of_gap_cons hgap rfl), Option.bind_some, before_append]
    rw [afterValue_close hgap rfl (by decide)]
    simp [Entry.member]
  | cons next es ih =>
    obtain ⟨fuel, rfl⟩ : ∃ n, fuel = n + 1 := ⟨fuel - 1, by omega⟩
    obtain ⟨u, gap, gap', w, hu, hgap, hgap', hw, rfl⟩ :=
      (joined_separated_cons (memberTokens_ne_nil _)).mp h
    obtain ⟨gap₁, gap₂, hgap₁, hgap₂, rfl⟩ := (joined_entry_iff e).mp hu
    have hvalue := hvalues e (by simp)
    have hstart : Starts (w ++ rest) := by
      obtain ⟨more, rfl⟩ := starts_member hw (by simp)
      rw [List.append_assoc]
      exact next.key.starts _
    simp only [List.append_assoc, List.cons_append]
    rw [collect_member e.key hgap₁, skipBlanks_starts hgap₂ (hvalue.starts.append _),
      hvalue.skip (.of_gap_cons hgap rfl), Option.bind_some, before_append]
    rw [afterValue_comma hgap, skipBlanks_starts hgap' hstart,
      ih fuel _ w (fun x hx => hvalues x (List.mem_cons_of_mem _ hx)) hw (by simp at hlen; omega)]
    simp [Entry.member]

theorem collect_sound (h : collect fuel done t = some (members, rest)) :
    ∃ (e : Entry) (es : List Entry) (u : Text), (∀ x ∈ e :: es, IsValue x.value) ∧
      Joined (separated Ascii.closeBrace e.tokens (es.map Entry.tokens)) u ∧ t = u ++ rest ∧
      members = done.reverse ++ (e :: es).map Entry.member := by
  induction fuel generalizing done t with
  | zero => cases h
  | succ fuel ih =>
    obtain ⟨key, gap, value, hgap, rfl⟩ := key_of_collect h
    rw [collect_member key hgap, Option.bind_eq_some_iff] at h
    obtain ⟨r, hvalue, h⟩ := h
    obtain ⟨gap₁, hgap₁, hsplit⟩ := gap_skipBlanks value
    obtain ⟨gap₂, v, d, hgap₂, hv, hskip⟩ := (written _).value _ _ hvalue
    obtain rfl := gap_eq_nil hskip hgap₂
    rw [List.nil_append] at hskip
    rw [hskip] at hsplit h
    rw [before_append] at h
    let e : Entry := ⟨key, v⟩
    have he : Joined e.tokens (key.text ++ (gap ++ Ascii.colon :: (gap₁ ++ v))) :=
      (joined_entry_iff e).mpr ⟨gap, gap₁, hgap, hgap₁, rfl⟩
    have hisValue : IsValue e.value := ⟨d, hv⟩
    rcases afterValue_cases h with ⟨gap₃, next, hgap₃, rfl, hnext⟩ | ⟨gap₃, next, hgap₃, rfl, hnext⟩
    · obtain ⟨e', es, u, hes, hu, hrest, hmembers⟩ := ih hnext
      obtain ⟨gap₄, hgap₄, hsplit'⟩ := gap_skipBlanks next
      rw [hrest] at hsplit'
      refine ⟨e, e' :: es, _, List.forall_mem_cons.mpr ⟨hisValue, hes⟩,
        (joined_separated_cons (memberTokens_ne_nil _)).mpr
          ⟨_, gap₃, gap₄, u, he, hgap₃, hgap₄, hu, rfl⟩, ?_, ?_⟩
      · rw [hsplit, hsplit']
        simp
      · rw [hmembers]
        simp [Entry.member, e]
    · obtain ⟨rfl, rfl⟩ := Prod.mk.inj hnext
      refine ⟨e, [], _, by simpa using hisValue,
        (joined_separated_nil (memberTokens_ne_nil _)).mpr ⟨_, gap₃, he, hgap₃, rfl⟩, ?_, ?_⟩
      · rw [hsplit]
        simp
      · simp [Entry.member, e]

/-- The inside of an object, from its brace on. -/
def inside? (t : Text) : Option (List Strict.Member × Text) :=
  match t with
  | Ascii.closeBrace :: after => some ([], after)
  | first => collect (first.length + 1) [] first

theorem inside_sound (h : inside? (skipBlanks t) = some (members, after)) :
    ∃ (entries : List Entry) (u : Text), (∀ e ∈ entries, IsValue e.value) ∧
      Joined (entriesTokens entries) u ∧ Ascii.openBrace :: t = u ++ after ∧
      members = entries.map Entry.member := by
  obtain ⟨gap, hgap, ht⟩ := gap_skipBlanks t
  unfold inside? at h
  split at h
  next after' heq =>
    cases h
    rw [heq] at ht
    exact ⟨[], _, by simp, joined_enclosed_nil.mpr ⟨gap, hgap, rfl⟩, by rw [ht]; simp, rfl⟩
  next =>
    obtain ⟨e, es, u, hvalues, hu, hsplit, hmembers⟩ := collect_sound h
    rw [hsplit] at ht
    exact ⟨e :: es, _, hvalues, joined_enclosed_cons.mpr ⟨gap, u, hgap, hu, rfl⟩,
      by rw [ht]; simp, hmembers⟩

theorem inside_entries (hvalues : ∀ e ∈ entries, IsValue e.value)
    (h : Joined (entriesTokens entries) t) (after : Text) :
    ∃ inside, t ++ after = Ascii.openBrace :: inside ∧
      inside? (skipBlanks inside) = some (entries.map Entry.member, after) := by
  cases entries with
  | nil =>
    obtain ⟨gap, hgap, rfl⟩ := joined_enclosed_nil.mp h
    refine ⟨gap ++ Ascii.closeBrace :: after, by simp, ?_⟩
    rw [skipBlanks_gap hgap]
    rfl
  | cons e es =>
    obtain ⟨gap, u, hgap, hu, rfl⟩ := joined_enclosed_cons.mp h
    refine ⟨gap ++ (u ++ after), by simp, ?_⟩
    have hcollect := collect_entries ((u ++ after).length + 1) [] u after hvalues hu
      (by rw [List.length_append]; omega)
    obtain ⟨more, rfl⟩ := starts_member hu (by simp)
    rw [List.append_assoc] at hcollect ⊢
    rw [skipBlanks_starts hgap (e.key.starts _)]
    exact hcollect

/-- The reader of frames accepts just the objects of the grammar, and finds in
them what they are written from. -/
theorem object?_eq_some_iff :
    object? frame = some o ↔
      ∃ entries : List Entry, (∀ e ∈ entries, IsValue e.value) ∧
        Framed (entriesTokens entries) frame ∧
        o = { text := skipBlanks frame, members := entries.map Entry.member } := by
  constructor
  · intro h
    obtain ⟨gap, hgap, hframe⟩ := gap_skipBlanks frame
    unfold object? at h
    split at h
    next inside heq =>
      rw [heq] at hframe
      simp only at h
      split at h
      next => cases h
      next members after hread =>
        split at h
        next hblank =>
          cases h
          have hafter : Gap after := skipBlanks_eq_nil_iff.mp (List.isEmpty_iff.mp hblank)
          obtain ⟨entries, t, hvalues, ht, hinside, hmembers⟩ := inside_sound hread
          refine ⟨entries, hvalues, ⟨gap, t, after, hgap, ht, hafter, ?_⟩, ?_⟩
          · rw [hframe]
            exact congrArg (gap ++ ·) hinside
          · rw [heq, hmembers]
            rfl
        next => cases h
    next => cases h
  · rintro ⟨entries, hvalues, ⟨gap, t, gap', hgap, ht, hgap', rfl⟩, rfl⟩
    obtain ⟨inside, hinside, hread⟩ := inside_entries hvalues ht gap'
    have hskip : skipBlanks (gap ++ (t ++ gap')) = Ascii.openBrace :: inside := by
      rw [hinside]
      exact skipBlanks_starts hgap (.of_cons rfl inside)
    rw [hskip]
    unfold object?
    rw [hskip]
    show (match inside? (skipBlanks inside) with
      | none => none
      | some (members, after) => _) = _
    rw [hread]
    exact if_pos (by rw [skipBlanks_eq_nil_iff.mpr hgap']; rfl)

-- ---------------------------------------------------------------------------
-- Objects of a document
-- ---------------------------------------------------------------------------

/-- The entry has the member's key and writes its value. -/
def Entry.Writes (m : Quoted × Document) (e : Entry) : Prop :=
  e.key = m.1 ∧ Joined m.2.tokens e.value

theorem Entry.Writes.isValue (h : List.Forall₂ Entry.Writes members entries) :
    ∀ e ∈ entries, IsValue e.value := by
  induction h with
  | nil => simp
  | cons hm _ ih => exact List.forall_mem_cons.mpr ⟨⟨_, hm.2⟩, ih⟩

theorem exists_separated_entries {key : Quoted} {value : Document}
    {members : List (Quoted × Document)}
    (h : Joined (separated Ascii.closeBrace (memberTokens (key, value.tokens))
      ((Document.membersTokens members).map memberTokens)) t) :
    ∃ e es, List.Forall₂ Entry.Writes ((key, value) :: members) (e :: es) ∧
      Joined (separated Ascii.closeBrace e.tokens (es.map Entry.tokens)) t := by
  induction members generalizing key value t with
  | nil =>
    obtain ⟨u, gap, hu, hgap, rfl⟩ := (joined_separated_nil (memberTokens_ne_nil _)).mp h
    obtain ⟨gap₁, gap₂, v, hgap₁, hgap₂, hv, rfl⟩ := (joined_member_iff value.tokens_ne_nil).mp hu
    exact ⟨⟨key, v⟩, [], .cons ⟨rfl, hv⟩ .nil,
      (joined_separated_nil (memberTokens_ne_nil _)).mpr
        ⟨_, gap, (joined_entry_iff _).mpr ⟨gap₁, gap₂, hgap₁, hgap₂, rfl⟩, hgap, rfl⟩⟩
  | cons next members ih =>
    obtain ⟨u, gap, gap', w, hu, hgap, hgap', hw, rfl⟩ :=
      (joined_separated_cons (memberTokens_ne_nil _)).mp h
    obtain ⟨gap₁, gap₂, v, hgap₁, hgap₂, hv, rfl⟩ := (joined_member_iff value.tokens_ne_nil).mp hu
    obtain ⟨e, es, hwrites, hes⟩ := ih hw
    exact ⟨⟨key, v⟩, e :: es, .cons ⟨rfl, hv⟩ hwrites,
      (joined_separated_cons (memberTokens_ne_nil _)).mpr
        ⟨_, gap, gap', w, (joined_entry_iff _).mpr ⟨gap₁, gap₂, hgap₁, hgap₂, rfl⟩, hgap, hgap',
          hes, rfl⟩⟩

/-- A text of an object consists of the texts of its values. -/
theorem exists_entries (h : Joined (Document.object members).tokens t) :
    ∃ entries, List.Forall₂ Entry.Writes members entries ∧ Joined (entriesTokens entries) t := by
  cases members with
  | nil => exact ⟨[], .nil, h⟩
  | cons m members =>
    obtain ⟨gap, u, hgap, hu, rfl⟩ := joined_enclosed_cons.mp h
    obtain ⟨e, es, hwrites, hes⟩ := exists_separated_entries hu
    exact ⟨e :: es, hwrites, joined_enclosed_cons.mpr ⟨gap, u, hgap, hes, rfl⟩⟩

theorem object?_document (h : Framed (Document.object members).tokens frame) :
    ∃ entries, List.Forall₂ Entry.Writes members entries ∧
      object? frame = some { text := skipBlanks frame, members := entries.map Entry.member } := by
  obtain ⟨gap, t, gap', hgap, ht, hgap', rfl⟩ := h
  obtain ⟨entries, hwrites, hentries⟩ := exists_entries ht
  exact ⟨entries, hwrites, object?_eq_some_iff.mpr
    ⟨entries, Entry.Writes.isValue hwrites, ⟨gap, t, gap', hgap, hentries, hgap', rfl⟩, rfl⟩⟩

theorem Joined.framed (h : Joined tokens t) : Framed tokens t :=
  ⟨[], t, [], by simp [Gap], h, by simp [Gap], by simp⟩

theorem object?_of_head (h : skipBlanks frame = b :: rest) (hb : b ≠ Ascii.openBrace) :
    object? frame = none := by
  unfold object?
  rw [h]
  split
  next heq => exact absurd (List.head_eq_of_cons_eq heq) hb
  next => rfl

/-- A document that is no object is refused. -/
theorem object?_eq_none {d : Document} (h : Framed d.tokens frame)
    (hobject : ∀ members, d ≠ .object members) : object? frame = none := by
  obtain ⟨gap, t, gap', hgap, ht, -, rfl⟩ := h
  have hskip : skipBlanks (gap ++ (t ++ gap')) = t ++ gap' :=
    skipBlanks_starts hgap ((starts_document ht).append gap')
  obtain ⟨b, rest, rfl, hb⟩ := begins_document ht
  refine object?_of_head hskip ?_
  rintro rfl
  obtain ⟨members, rfl⟩ := hb.object
  exact hobject members rfl

end MeshConsole.Json
