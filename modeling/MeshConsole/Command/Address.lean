import MeshConsole.Numeral.Integer

/-!
# Device addresses on the command line
-/

namespace MeshConsole.Command

/-- What a text that is no address is answered with. -/
def addressRefusal : Text := "address must be 0x0001..0xFFFF"

/-- A 16-bit address in decimal or with a base mark; zero is no address. -/
def readShortAddr? (text : Text) : Option UInt16 :=
  match Numeral.readPrefixed 0xFFFF text with
  | .ok 0 => none
  | .ok n => some n.toUInt16
  | .error _ => none

end MeshConsole.Command
