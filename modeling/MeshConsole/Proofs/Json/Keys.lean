import MeshConsole.Json.Tree
import MeshConsole.Proofs.Json.Escaping
import MeshConsole.Proofs.Text.Bytes

/-!
# Hashes of keys

A key of ASCII characters has the hash of its bytes, wherever its first escape
stands (`hash?_name`), and capitals do not change it. So a name has one hash in
all its spellings (`hash?_spelling`).
-/

namespace MeshConsole

namespace Text

theorem glyphs_cons_ascii (hb : b < 0x80) (t : Text) :
    glyphs (b :: t) = .scalar b.toNat [b] :: glyphs t := by
  have hhead : headGlyph b t = .scalar b.toNat [b] := if_pos hb
  rw [glyphs_cons, hhead]
  rfl

theorem foldl_glyphs {t : Text} (h : ∀ b ∈ t, b < 0x80) (f : α → Nat → α) (a : α) :
    t.glyphs.foldl (fun a glyph => f a glyph.code) a = t.foldl (fun a b => f a b.toNat) a := by
  induction t generalizing a with
  | nil => rfl
  | cons b t ih =>
    obtain ⟨hb, ht⟩ := List.forall_mem_cons.mp h
    rw [glyphs_cons_ascii hb]
    exact ih ht _

theorem scrub_of_ascii {t : Text} (h : ∀ b ∈ t, b < 0x80) : t.scrub = t := by
  induction t with
  | nil => rfl
  | cons b t ih =>
    obtain ⟨hb, ht⟩ := List.forall_mem_cons.mp h
    rw [scrub, glyphs_cons_ascii hb, List.flatMap_cons]
    exact congrArg (b :: ·) (ih ht)

theorem ascii_of_lowerAscii {t : Text} (h : ∀ b ∈ lowerAscii t, b < 0x80) :
    ∀ b ∈ t, b < 0x80 := by
  intro b hb
  cases hupper : Ascii.isUpper b with
  | true =>
    obtain ⟨-, hlast⟩ := isUpper_iff.mp hupper
    rw [UInt8.lt_iff_toNat_lt]
    exact Nat.lt_of_le_of_lt hlast (by decide)
  | false =>
    have hlower := h _ (List.mem_map_of_mem hb)
    rwa [Ascii.toLower, if_neg (by simp [hupper])] at hlower

end Text

namespace Json.Key

/-- The key that a text is written as. -/
def written (t : Text) : Key :=
  .name t.scrub (Tree.plainFront (t.glyphs.flatMap Value.glyphText)).length true

theorem hash?_name {text : Text} (h : ∀ b ∈ text, b < 0x80) (plain : Nat) (clean : Bool) :
    (Key.name text plain clean).hash? = some (hashBytes text) := by
  have hdrop : ∀ b ∈ text.drop plain, b < 0x80 := fun b hb => h b (List.mem_of_mem_drop hb)
  rw [hash?, Text.foldl_glyphs hdrop, hashBytes, ← List.foldl_append, List.take_append_drop]
  rfl

theorem hash?_written (h : ∀ b ∈ t, b < 0x80) : (written t).hash? = some (hashBytes t) := by
  rw [written, Text.scrub_of_ascii h, hash?_name h]

theorem stir_toLower (hash : UInt64) (b : UInt8) :
    stir hash (Ascii.toLower b).toNat = stir hash b.toNat := by
  cases hupper : Ascii.isUpper b with
  | true =>
    obtain ⟨hfirst, hlast⟩ := Text.isUpper_iff.mp hupper
    have hlow : ¬ (b.toNat + 0x20 ≤ 0x5A) := by omega
    rw [Text.toNat_toLower hupper]
    simp [stir, hfirst, hlast, hlow]
  | false => rw [Ascii.toLower, if_neg (by simp [hupper])]

theorem hashBytes_lowerAscii (t : Text) : hashBytes (Text.lowerAscii t) = hashBytes t := by
  rw [hashBytes, Text.lowerAscii, List.foldl_map]
  simp only [stir_toLower]
  rfl

/-- A name of ASCII characters, in any case. -/
theorem hash?_spelling {name key : Text} (hname : ∀ b ∈ name, b < 0x80)
    (h : Text.lowerAscii key = name) : (written key).hash? = some (hashBytes name) := by
  subst h
  rw [hash?_written (Text.ascii_of_lowerAscii hname), hashBytes_lowerAscii]

end Json.Key

end MeshConsole
