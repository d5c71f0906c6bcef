import MeshConsole.Text.Basic

/-!
# Room in memory

Room for lists and queues is taken when they are made, and more than one block of memory can span
is refused.
-/

namespace MeshConsole.Memory

/-- What room was refused for. -/
inductive Refusal where
  | length
  | capacity
  | queue
  deriving Repr, DecidableEq

def Refusal.message : Refusal → Text
  | .length => "runtime error: makeslice: len out of range"
  | .capacity => "runtime error: makeslice: cap out of range"
  | .queue => "makechan: size out of range"

/-- The bytes that one block may span. -/
def maxBlock : Nat := 281474976710656

/-- Asks for room for `count` items of `size` bytes each. -/
def reserve (why : Refusal) (size : Nat) (count : Int) : Except Refusal Unit :=
  if count < 0 || maxBlock < size * count.toNat then .error why else .ok ()

end MeshConsole.Memory
