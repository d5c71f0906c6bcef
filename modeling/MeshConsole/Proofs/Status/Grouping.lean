import Mathlib.Logic.Function.Basic
import MeshConsole.Proofs.Simulator.Serving
import MeshConsole.Proofs.Text.Bytes
import MeshConsole.Status.Figures

/-!
# Counts in groups of three

A count is shown as its numeral with commas: between them stand groups of three
digits, after a first one of at most three (`grouped_thousands`).
-/

namespace MeshConsole

theorem Text.ofNat_injective : Function.Injective Text.ofNat := by
  intro m n h
  have hm : Numeral.readDecimal (max m n) (Text.ofNat m) = .ok m :=
    Numeral.readDecimal_ofNat (Nat.le_max_left m n)
  have hn : Numeral.readDecimal (max m n) (Text.ofNat n) = .ok n :=
    Numeral.readDecimal_ofNat (Nat.le_max_right m n)
  rw [h, hn] at hm
  exact (Except.ok.inj hm).symm

theorem Text.comma_not_mem_ofNat (n : Nat) : Ascii.comma ∉ Text.ofNat n := fun h =>
  absurd (Text.isDigit_ofNat n _ h) (by decide)

namespace Status

-- ---------------------------------------------------------------------------
-- Digits and their groups
-- ---------------------------------------------------------------------------

/-- Digits, and the same digits in groups: up to three, then three and three. -/
inductive InThrees : Text → Text → Prop
  | first {digits} : digits ≠ [] → digits.length ≤ 3 → InThrees digits digits
  | next {digits written group} : InThrees digits written → group.length = 3 →
      InThrees (digits ++ group) (written ++ Ascii.comma :: group)

theorem withCommas_append (length i : Nat) (front back : Text) :
    withCommas length i (front ++ back) =
      withCommas length i front ++ withCommas length (i + front.length) back := by
  induction front generalizing i with
  | nil => rfl
  | cons digit front ih =>
    rw [List.cons_append, withCommas, withCommas, ih, List.length_cons, Nat.add_right_comm,
      ← Nat.add_assoc]
    split <;> rfl

/-- Three more digits behind do not move the commas. -/
theorem withCommas_add_three {length i : Nat} {digits : Text} (h : i + digits.length ≤ length) :
    withCommas (length + 3) i digits = withCommas length i digits := by
  induction digits generalizing i with
  | nil => rfl
  | cons digit digits ih =>
    rw [List.length_cons] at h
    have hleft : (length + 3 - i) % 3 = (length - i) % 3 := by omega
    rw [withCommas, withCommas, ih (by omega), hleft]

theorem withCommas_short (hlength : digits.length ≤ 3) :
    withCommas digits.length 0 digits = digits := by
  match digits, hlength with
  | [], _ | [_], _ | [_, _], _ | [_, _, _], _ => rfl

theorem withCommas_group {i : Nat} (hi : 0 < i) (hlength : group.length = 3) :
    withCommas (i + 3) i group = Ascii.comma :: group := by
  obtain ⟨a, b, c, rfl⟩ := List.length_eq_three.mp hlength
  have hfirst : i + 3 - i = 3 := by omega
  have hsecond : i + 3 - (i + 1) = 2 := by omega
  have hthird : i + 3 - (i + 1 + 1) = 1 := by omega
  simp [withCommas, hi, hfirst, hsecond, hthird]

/-- What the walk over the digits writes. The induction takes the last group
off. -/
theorem inThrees_withCommas (hne : digits ≠ []) :
    InThrees digits (withCommas digits.length 0 digits) := by
  induction hlength : digits.length using Nat.strongRecOn generalizing digits with
  | ind length ih =>
    subst hlength
    by_cases hshort : digits.length ≤ 3
    · rw [withCommas_short hshort]
      exact .first hne hshort
    · obtain ⟨front, group, rfl, hgroup⟩ : ∃ front group, digits = front ++ group ∧
          group.length = 3 :=
        ⟨_, _, (List.take_append_drop (digits.length - 3) digits).symm, by simp; omega⟩
      rw [List.length_append, hgroup] at hshort ih ⊢
      have hfront : 0 < front.length := by omega
      have hwritten := ih front.length (by omega) (List.ne_nil_of_length_pos hfront) rfl
      rw [withCommas_append, withCommas_add_three (by omega), Nat.zero_add,
        withCommas_group hfront hgroup]
      exact hwritten.next hgroup

section
variable {digits written : Text}

/-- Nothing but the commas is added. -/
theorem InThrees.filter (h : InThrees digits written) (hcomma : Ascii.comma ∉ digits) :
    written.filter (· != Ascii.comma) = digits := by
  have hkeeps {t : Text} (ht : Ascii.comma ∉ t) : t.filter (· != Ascii.comma) = t :=
    List.filter_eq_self.mpr (Text.bne_of_not_mem ht)
  induction h with
  | first _ _ => exact hkeeps hcomma
  | next _ _ ih =>
    rw [List.mem_append, not_or] at hcomma
    simp [ih hcomma.1, hkeeps hcomma.2]

/-- The commas stand where a group ends. -/
theorem InThrees.split (h : InThrees digits written) (hcomma : Ascii.comma ∉ digits) :
    ∃ first rest, Text.splitOnByte Ascii.comma written = first :: rest ∧ first ≠ [] ∧
      first.length ≤ 3 ∧ (∀ group ∈ rest, group.length = 3) ∧
      first ++ rest.flatten = digits := by
  induction h with
  | @first digits hne hshort =>
    exact ⟨digits, [], Text.splitOnByte_of_not_mem hcomma, hne, hshort, nofun, by simp⟩
  | @next digits written group _ hgroup ih =>
    rw [List.mem_append, not_or] at hcomma
    obtain ⟨first, rest, hsplit, hne, hshort, hrest, rfl⟩ := ih hcomma.1
    refine ⟨first, rest ++ [group], ?_, hne, hshort, ?_, by simp⟩
    · rw [Text.splitOnByte_append, hsplit, Text.splitOnByte_of_not_mem hcomma.2]
      rfl
    · intro g hg
      rcases List.mem_append.mp hg with hg | hg
      · exact hrest g hg
      · rwa [List.mem_singleton.mp hg]

theorem InThrees.starts (h : InThrees digits written) : ∃ b ∈ digits, written.head? = some b := by
  induction h with
  | first hne _ => exact ⟨_, List.head_mem hne, List.head?_eq_some_head hne⟩
  | next _ _ ih =>
    obtain ⟨b, hb, hhead⟩ := ih
    exact ⟨b, List.mem_append_left _ hb, by simp [List.head?_append, hhead]⟩

theorem InThrees.ends (h : InThrees digits written) : ∃ b ∈ digits, written.getLast? = some b := by
  cases h with
  | first hne _ => exact ⟨_, List.getLast_mem hne, List.getLast?_eq_some_getLast hne⟩
  | @next _ _ group _ hgroup =>
    have hne : group ≠ [] := List.ne_nil_of_length_pos (by omega)
    refine ⟨group.getLast hne, List.mem_append_right _ (List.getLast_mem hne), ?_⟩
    simp [List.getLast?_cons, List.getLast?_eq_some_getLast hne]

end

-- ---------------------------------------------------------------------------
-- Counts
-- ---------------------------------------------------------------------------

theorem inThrees_grouped (n : UInt64) : InThrees (Text.ofNat n.toNat) (grouped n) := by
  have hne : Text.ofNat n.toNat ≠ [] := Text.ofNat_ne_nil _
  unfold grouped
  dsimp only
  split
  case isTrue hshort => exact .first hne hshort
  case isFalse => exact inThrees_withCommas hne

/-- A count as it is shown: its numeral, with commas. -/
structure Thousands (n : UInt64) (written : Text) : Prop where
  numeral : written.filter (· != Ascii.comma) = Text.ofNat n.toNat
  groups : ∃ first rest, Text.splitOnByte Ascii.comma written = first :: rest ∧
    (1 ≤ first.length ∧ first.length ≤ 3) ∧ (∀ group ∈ rest, group.length = 3) ∧
    ∀ group ∈ first :: rest, ∀ b ∈ group, Ascii.isDigit b = true
  starts : written.head? ≠ some Ascii.comma
  ends : written.getLast? ≠ some Ascii.comma

/-- Every count is shown in groups, and no two are shown alike. -/
theorem grouped_thousands :
    (∀ n : UInt64, Thousands n (grouped n)) ∧ Function.Injective grouped := by
  have hnumeral (n : UInt64) : (grouped n).filter (· != Ascii.comma) = Text.ofNat n.toNat :=
    (inThrees_grouped n).filter (Text.comma_not_mem_ofNat _)
  refine ⟨fun n => ?_, fun m n h => ?_⟩
  · have hcomma := Text.comma_not_mem_ofNat n.toNat
    have hin := inThrees_grouped n
    obtain ⟨first, rest, hsplit, hne, hshort, hrest, hdigits⟩ := hin.split hcomma
    refine ⟨hnumeral n, ⟨first, rest, hsplit, ⟨?_, hshort⟩, hrest, ?_⟩, ?_, ?_⟩
    · exact List.length_pos_of_ne_nil hne
    · intro group hgroup b hb
      have hmem : b ∈ first ++ rest.flatten := by
        rw [← List.flatten_cons]
        exact List.mem_flatten.mpr ⟨group, hgroup, hb⟩
      exact Text.isDigit_ofNat n.toNat b (hdigits ▸ hmem)
    · obtain ⟨b, hb, hhead⟩ := hin.starts
      rw [hhead]
      exact fun heq => hcomma (Option.some.inj heq ▸ hb)
    · obtain ⟨b, hb, hlast⟩ := hin.ends
      rw [hlast]
      exact fun heq => hcomma (Option.some.inj heq ▸ hb)
  · have hfilter := congrArg (List.filter (· != Ascii.comma)) h
    rw [hnumeral, hnumeral] at hfilter
    exact UInt64.toNat_inj.mp (Text.ofNat_injective hfilter)

example : grouped 1234567 = "1,234,567" := by decide

end Status

end MeshConsole
