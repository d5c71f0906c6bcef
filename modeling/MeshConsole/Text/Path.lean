import MeshConsole.Text.Basic

/-!
# Slash-separated paths
-/

namespace MeshConsole.Path

/-- Adds segments to those of a path, last first. Empty and single-dot segments are passed over; two
dots take the last segment back. -/
def fold (done : List Text) : List Text → List Text
  | [] => done.reverse
  | segment :: rest =>
    if segment.isEmpty || segment == "." then fold done rest
    else if segment == ".." then fold (done.drop 1) rest
    else fold (segment :: done) rest

/-- The segments a path comes down to. -/
def segments (path : Text) : List Text := fold [] (Text.splitOnByte Ascii.slash path)

/-- The shortest spelling of a rooted path; a slash at its end is kept. -/
def clean (path : Text) : Text :=
  match segments path with
  | [] => "/"
  | parts =>
    Ascii.slash :: Text.join "/" parts ++
    if path.getLast? == some Ascii.slash then [Ascii.slash] else []

end MeshConsole.Path
