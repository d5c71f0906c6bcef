import MeshConsole.Text.Utf8

/-!
# Keys

Which field of a record a member is read as is settled by a hash of its key. Every spelling of a
name in capitals and small letters has the hash of the name; so may a text that is no spelling of
it.
-/

namespace MeshConsole.Json

/-- A key as written: a string, with the number of its bytes before the first escape and whether
none of these is a control byte, or the word `null`. -/
inductive Key where
  | name (text : Text) (plain : Nat) (clean : Bool)
  | null
  deriving Repr, DecidableEq

namespace Key

/-- Takes a character into a hash, a capital of ASCII as its small letter. -/
def stir (hash : UInt64) (code : Nat) : UInt64 :=
  let code := if 0x41 ≤ code && code ≤ 0x5A then code + 0x20 else code
  (hash ^^^ code.toUInt64) * 0x1000193

/-- The hash of a text byte by byte. -/
def hashBytes (t : Text) : UInt64 := t.foldl (fun hash b => stir hash b.toNat) 0x811C9DC5

/-- The hash of a key. From the first escape on it goes by code points. -/
def hash? : Key → Option UInt64
  | .name text plain _ =>
    some ((Text.glyphs (text.drop plain)).foldl (fun hash glyph => stir hash glyph.code)
      (hashBytes (text.take plain)))
  | .null => none

end Key

end MeshConsole.Json
