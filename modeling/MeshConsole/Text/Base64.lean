import MeshConsole.Text.Basic

/-!
# Base64

Three bytes as four characters of the standard alphabet; the last group is filled with equals signs.
-/

namespace MeshConsole.Text

/-- The character of a value below 64. -/
def base64Digit (n : Nat) : UInt8 :=
  if n < 26 then (0x41 + n).toUInt8
  else if n < 52 then (0x61 + (n - 26)).toUInt8
  else if n < 62 then (0x30 + (n - 52)).toUInt8
  else if n = 62 then Ascii.plus
  else Ascii.slash

def base64 : Text → Text
  | a :: b :: c :: rest =>
    let n := a.toNat * 65536 + b.toNat * 256 + c.toNat
    base64Digit (n / 262144) :: base64Digit (n / 4096 % 64) :: base64Digit (n / 64 % 64) ::
      base64Digit (n % 64) :: base64 rest
  | [a, b] =>
    let n := a.toNat * 65536 + b.toNat * 256
    [base64Digit (n / 262144), base64Digit (n / 4096 % 64), base64Digit (n / 64 % 64),
      Ascii.equals]
  | [a] =>
    let n := a.toNat * 65536
    [base64Digit (n / 262144), base64Digit (n / 4096 % 64), Ascii.equals, Ascii.equals]
  | [] => []

/-- The value of a character. -/
def base64Value? (b : UInt8) : Option Nat :=
  if Ascii.isUpper b then some (b.toNat - 0x41)
  else if Ascii.isLower b then some (b.toNat - 0x61 + 26)
  else if Ascii.isDigit b then some (b.toNat - 0x30 + 52)
  else if b == Ascii.plus then some 62
  else if b == Ascii.slash then some 63
  else none

/-- The bytes of groups of four; only the last group may be filled up, and its unused bits count
for nothing. -/
def ofBase64Groups? : Text → Option Text
  | [] => some []
  | a :: b :: c :: d :: rest => do
    let w ← base64Value? a
    let x ← base64Value? b
    let first := (w * 4 + x / 16).toUInt8
    if c == Ascii.equals then
      if d == Ascii.equals && rest.isEmpty then some [first] else none
    else
      let y ← base64Value? c
      let second := (x % 16 * 16 + y / 4).toUInt8
      if d == Ascii.equals then
        if rest.isEmpty then some [first, second] else none
      else
        let z ← base64Value? d
        let bytes ← ofBase64Groups? rest
        some (first :: second :: (y % 4 * 64 + z).toUInt8 :: bytes)
  | _ => none

/-- The bytes that base64 stands for; line ends in it are passed over. -/
def ofBase64? (t : Text) : Option Text :=
  ofBase64Groups? (t.filter fun b => b != Ascii.newline && b != Ascii.carriageReturn)

end MeshConsole.Text
