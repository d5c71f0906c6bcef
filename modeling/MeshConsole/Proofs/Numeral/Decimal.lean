import MeshConsole.Json.Tree
import MeshConsole.Numeral.Integer

/-!
# Reading decimal numerals

The numerals that the library writes are read back, by the readers of JSON
literals (`signed?_ofInt`) and by the reader of integers (`readInt_ofInt`).
-/

namespace MeshConsole

namespace Text

/-- The digit of a value below ten. -/
def digit (d : Nat) : UInt8 := (0x30 + d).toUInt8

theorem ofNat_of_lt (h : n < 10) : ofNat n = [digit n] := by
  have hdigit : ∀ d < 10, (Nat.digitChar d).toNat.toUInt8 = digit d := by decide
  simp [ofNat, Nat.toDigits_of_lt_base h, hdigit n h]

theorem ofNat_of_le (h : 10 ≤ n) : ofNat n = ofNat (n / 10) ++ [digit (n % 10)] := by
  have hdigit : ∀ d < 10, (Nat.digitChar d).toNat.toUInt8 = digit d := by decide
  have hlast := hdigit (n % 10) (Nat.mod_lt n (by decide))
  simp [ofNat, Nat.toDigits_of_base_le (by decide : 1 < 10) h, hlast]

/-- A numeral is built up from its first digit by further ones. -/
theorem ofNat_induction {P : Nat → Text → Prop} (hdigit : ∀ d < 10, P d [digit d])
    (hnext : ∀ n t d, 0 < n → d < 10 → P n t → P (n * 10 + d) (t ++ [digit d])) (n : Nat) :
    P n (ofNat n) := by
  induction n using Nat.strongRecOn with
  | ind n ih =>
    by_cases hn : n < 10
    · rw [ofNat_of_lt hn]
      exact hdigit n hn
    · have hle : 10 ≤ n := by omega
      have hnext := hnext (n / 10) (ofNat (n / 10)) (n % 10) (by omega) (by omega)
        (ih (n / 10) (by omega))
      rw [ofNat_of_le hle]
      rwa [show n / 10 * 10 + n % 10 = n by omega] at hnext

theorem isDigit_digit : ∀ d < 10, Ascii.isDigit (digit d) = true := by decide

theorem isDigit_ofNat (n : Nat) : ∀ b ∈ ofNat n, Ascii.isDigit b = true := by
  refine ofNat_induction (P := fun _ t => ∀ b ∈ t, Ascii.isDigit b = true) ?_ ?_ n
  · intro d hd b hb
    rw [List.mem_singleton.mp hb]
    exact isDigit_digit d hd
  · intro _ t d _ hd ht b hb
    rcases List.mem_append.mp hb with hb | hb
    · exact ht b hb
    · rw [List.mem_singleton.mp hb]
      exact isDigit_digit d hd

/-- No needless zero comes first. -/
theorem ofNat_cons (n : Nat) :
    ∃ first rest, ofNat n = first :: rest ∧ (first = Ascii.zero → n = 0 ∧ rest = []) := by
  refine ofNat_induction
    (P := fun n t => ∃ first rest, t = first :: rest ∧ (first = Ascii.zero → n = 0 ∧ rest = []))
    ?_ ?_ n
  · intro d hd
    have hzero : ∀ d < 10, digit d = Ascii.zero → d = 0 := by decide
    exact ⟨digit d, [], rfl, fun h => ⟨hzero d hd h, rfl⟩⟩
  · rintro n t d hn _ ⟨first, rest, rfl, hfirst⟩
    refine ⟨first, rest ++ [digit d], rfl, fun h => ?_⟩
    have := (hfirst h).1
    omega

theorem ofNat_ne_nil (n : Nat) : ofNat n ≠ [] := by
  obtain ⟨first, rest, h, _⟩ := ofNat_cons n
  simp [h]

/-- A loop that takes a digit to the value so far takes in the whole numeral,
as long as it stays within its limit. -/
theorem foldlM_ofNat {m : Type → Type} [Monad m] [LawfulMonad m] {step : Nat → UInt8 → m Nat}
    (limit : Nat)
    (hstep : ∀ value d, d < 10 → value * 10 + d ≤ limit →
      step value (digit d) = pure (value * 10 + d))
    {n : Nat} (hn : n ≤ limit) : (ofNat n).foldlM step 0 = pure n := by
  refine ofNat_induction (P := fun n t => n ≤ limit → t.foldlM step 0 = pure n) ?_ ?_ n hn
  · intro d hd hle
    simpa using hstep 0 d hd (by simpa using hle)
  · intro value t d _ hd ht hle
    rw [List.foldlM_append, ht (by omega), pure_bind, List.foldlM_cons, hstep value d hd hle]
    simp

end Text

namespace Json.Literal

theorem plainDigits_ofNat (n : Nat) : plainDigits (Text.ofNat n) = true := by
  have hdigits := Text.isDigit_ofNat n
  obtain ⟨first, rest, h, hfirst⟩ := Text.ofNat_cons n
  rw [h] at hdigits ⊢
  obtain ⟨hd, hrest⟩ := List.forall_mem_cons.mp hdigits
  cases rest with
  | nil => exact hd
  | cons next rest =>
    have hzero : first ≠ Ascii.zero := fun h0 => absurd (hfirst h0).2 (by simp)
    simp only [plainDigits, Bool.and_eq_true, bne_iff_ne, List.all_eq_true]
    exact ⟨⟨hzero, hd⟩, hrest⟩

theorem word?_ofNat (h : n < size) : word? size (Text.ofNat n) = some n := by
  rw [word?, if_pos (plainDigits_ofNat n)]
  refine Text.foldlM_ofNat (size - 1) ?_ (by omega)
  intro value d hd hle
  have hvalue : (Text.digit d).toNat - 0x30 = d := by
    have : ∀ d < 10, (Text.digit d).toNat - 0x30 = d := by decide
    exact this d hd
  have hmod : (value * 10 + d) % size = value * 10 + d := Nat.mod_eq_of_lt (by omega)
  have hgrows : ¬ value * 10 + d < value := by omega
  simp [hvalue, hmod, hgrows]

theorem signed?_ofNat (h : n < size / 2) : signed? size (Text.ofNat n) = some (n : Int) := by
  obtain ⟨first, rest, ht, _⟩ := Text.ofNat_cons n
  have hminus : first ≠ Ascii.minus := by
    rintro rfl
    exact absurd (Text.isDigit_ofNat n Ascii.minus (by simp [ht])) (by decide)
  have hword : word? size (Text.ofNat n) = some n := word?_ofNat (by omega)
  rw [ht] at hword ⊢
  rw [signed?]
  · have hsmall : ¬ size / 2 ≤ n := by omega
    simp [hword, hsmall]
  · exact fun _ h => absurd (List.head_eq_of_cons_eq h) hminus

theorem signed?_ofInt (hlow : -((size / 2 : Nat) : Int) ≤ i) (hhigh : i < (size / 2 : Nat)) :
    signed? size (Text.ofInt i) = some i := by
  unfold Text.ofInt
  split
  · have hword : word? size (Text.ofNat i.natAbs) = some i.natAbs := word?_ofNat (by omega)
    have hsmall : ¬ size / 2 < i.natAbs := by omega
    have hvalue : -(i.natAbs : Int) = i := by omega
    show (word? size (Text.ofNat i.natAbs) >>= fun value =>
      if size / 2 < value then none else some (-(value : Int))) = some i
    rw [hword, Option.bind_eq_bind, Option.bind_some, if_neg hsmall, hvalue]
  · have hvalue : (i.natAbs : Int) = i := by omega
    rw [signed?_ofNat (by omega), hvalue]

end Json.Literal

namespace Numeral

theorem readDigits_eq_foldlM (base limit value : Nat) (t : Text) :
    readDigits base limit false value t = t.foldlM (fun value b =>
      match digitValue? b with
      | none => .error .syntaxError
      | some digit =>
        if base ≤ digit then .error .syntaxError
        else if limit < value * base + digit then .error .outOfRange
        else .ok (value * base + digit)) value := by
  induction t generalizing value with
  | nil => rfl
  | cons b rest ih =>
    rw [readDigits, List.foldlM_cons]
    simp only [Bool.and_false, Bool.false_eq_true, if_false]
    cases digitValue? b with
    | none => rfl
    | some digit =>
      by_cases hbase : base ≤ digit
      · simp only [hbase, if_true]
        rfl
      · by_cases hlimit : limit < value * base + digit
        · simp only [hbase, hlimit, if_true, if_false]
          rfl
        · simp only [hbase, hlimit, if_false, ih]
          rfl

theorem readDecimal_ofNat (h : n ≤ limit) : readDecimal limit (Text.ofNat n) = .ok n := by
  have hne : (Text.ofNat n).isEmpty = false := by simp [Text.ofNat_ne_nil]
  rw [readDecimal, readBase, if_neg (by simp [hne]), readDigits_eq_foldlM]
  refine Text.foldlM_ofNat (m := Except Refusal) limit ?_ h
  intro value d hd hle
  have hvalue : digitValue? (Text.digit d) = some d := by
    have : ∀ d < 10, digitValue? (Text.digit d) = some d := by decide
    exact this d hd
  have hbase : ¬ 10 ≤ d := by omega
  have hlimit : ¬ limit < value * 10 + d := by omega
  simp only [hvalue, hbase, hlimit, if_false]
  rfl

theorem readInt_ofNat (h : n < halfWord) : readInt (Text.ofNat n) = .ok (n : Int) := by
  obtain ⟨first, rest, ht, _⟩ := Text.ofNat_cons n
  have hfirst : Ascii.isDigit first = true := Text.isDigit_ofNat n first (by simp [ht])
  have hread : readDecimal maxWord (Text.ofNat n) = .ok n :=
    readDecimal_ofNat (by unfold maxWord halfWord at *; omega)
  have hsmall : ¬ halfWord ≤ n := by omega
  rw [ht] at hread ⊢
  rw [readInt, readSigned]
  · simp only [hread, Bool.false_eq_true, if_false, hsmall]
  · rintro _ h
    exact absurd (List.head_eq_of_cons_eq h ▸ hfirst) (by decide)
  · rintro _ h
    exact absurd (List.head_eq_of_cons_eq h ▸ hfirst) (by decide)

end Numeral

end MeshConsole
