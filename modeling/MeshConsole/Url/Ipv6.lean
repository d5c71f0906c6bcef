import MeshConsole.Text.Basic

/-!
# IPv6 addresses in text

What may stand between the brackets of a host: eight groups of hexadecimal digits, of which two
colons may leave out a run of zeros and four decimal octets may spell the last two, and behind a
percent sign the name of a zone.
-/

namespace MeshConsole.Ipv6

/-- One to four hexadecimal digits. -/
def isGroup (t : Text) : Bool :=
  !t.isEmpty && t.length ≤ 4 && t.all fun b => (Ascii.hexValue? b).isSome

/-- A decimal number up to 255 without leading zeros. -/
def isOctet (t : Text) : Bool :=
  !t.isEmpty && t.length ≤ 3 && t.all Ascii.isDigit && (t.length == 1 || t.head? != some Ascii.zero)
    && t.foldl (fun n b => n * 10 + (b.toNat - 0x30)) 0 ≤ 255

/-- Four octets with dots between them. -/
def isDottedQuad (t : Text) : Bool :=
  let octets := t.splitOnByte Ascii.dot
  octets.length == 4 && octets.all isOctet

/-- How many groups the pieces between colons stand for; four octets at the end stand for two. -/
def groupCount? : List Text → Option Nat
  | [] => some 0
  | [last] => if isGroup last then some 1 else if isDottedQuad last then some 2 else none
  | piece :: rest => if isGroup piece then (groupCount? rest).map (· + 1) else none

/-- The pieces of a text between colons; no text has no pieces. -/
def pieces (t : Text) : List Text := if t.isEmpty then [] else t.splitOnByte Ascii.colon

/-- The text around the first two colons that stand together. -/
def splitGap (done : Text) : Text → Option (Text × Text)
  | [] => none
  | Ascii.colon :: Ascii.colon :: rest => some (done.reverse, rest)
  | b :: rest => splitGap (b :: done) rest

/-- Eight groups; with a gap, at most seven, and no octets before it. -/
def isAddress (t : Text) : Bool :=
  match splitGap [] t with
  | none => groupCount? (pieces t) == some 8
  | some (before, after) =>
    (pieces before).all isGroup &&
      match groupCount? (pieces after) with
      | none => false
      | some count => (pieces before).length + count ≤ 7

/-- An address, alone or with a zone that has a name. -/
def isZonedAddress (t : Text) : Bool :=
  match Text.cut? Ascii.percent t with
  | none => isAddress t
  | some (address, zone) => isAddress address && !zone.isEmpty

end MeshConsole.Ipv6
