/-!
# Rings

A fixed number of slots, written one after the other and, past the last one, from the first again:
once every slot is in use, a new entry takes the place of the oldest. Entries are read backwards
from the slot that was written last.
-/

namespace MeshConsole.Telemetry

structure Ring (α : Type) where
  /-- A slot is empty until it is first written. -/
  slots : Array (Option α)
  /-- The slot that is written next. -/
  next : Nat
  next_lt : next < slots.size
  deriving Repr, DecidableEq

namespace Ring

def capacity (r : Ring α) : Nat := r.slots.size

theorem capacity_pos (r : Ring α) : 0 < r.capacity := Nat.zero_lt_of_lt r.next_lt

def empty (size : Nat) (h : 0 < size) : Ring α where
  slots := .replicate size none
  next := 0
  next_lt := by simpa

def push (r : Ring α) (a : α) : Ring α where
  slots := r.slots.set r.next (some a) r.next_lt
  next := (r.next + 1) % r.capacity
  next_lt := by
    rw [Array.size_set]
    exact Nat.mod_lt _ r.capacity_pos

/-- The slot that was written `back` entries before the last one. -/
def slotBack (r : Ring α) (back : Nat) : Nat := (r.next + r.capacity - back - 1) % r.capacity

def read? (r : Ring α) (slot : Nat) : Option α := r.slots.getD slot none

/-- Newest first. -/
def entries (r : Ring α) : List α :=
  (List.range r.capacity).filterMap fun back => r.read? (r.slotBack back)

@[simp] theorem capacity_empty : (empty size h : Ring α).capacity = size := by
  simp [empty, capacity]

@[simp] theorem capacity_push (r : Ring α) (a : α) : (r.push a).capacity = r.capacity := by
  simp [push, capacity]

@[simp] theorem read?_empty (slot : Nat) : (empty size h : Ring α).read? slot = none := by
  rw [read?, empty, Array.getD_eq_getD_getElem?, Array.getElem?_replicate]
  split <;> rfl

theorem read?_push (r : Ring α) (a : α) (slot : Nat) :
    (r.push a).read? slot = if slot = r.next then some a else r.read? slot := by
  by_cases h : slot = r.next
  · simp [read?, push, h, r.next_lt]
  · simp [read?, push, h, Array.getElem?_set_ne _ (Ne.symm h)]

/-- Walking back goes down to the first slot and on from the last one. -/
theorem slotBack_eq (r : Ring α) (h : back < r.capacity) :
    r.slotBack back =
      if back < r.next then r.next - back - 1 else r.next + r.capacity - back - 1 := by
  have hnext : r.next < r.capacity := r.next_lt
  unfold slotBack
  split
  · have hwrap : r.next + r.capacity - back - 1 = r.next - back - 1 + r.capacity := by omega
    rw [hwrap, Nat.add_mod_right, Nat.mod_eq_of_lt (by omega)]
  · exact Nat.mod_eq_of_lt (by omega)

theorem next_push (r : Ring α) (a : α) :
    (r.push a).next = if r.next + 1 = r.capacity then 0 else r.next + 1 := by
  have hnext : r.next < r.capacity := r.next_lt
  show (r.next + 1) % r.capacity = _
  split
  · simp [*]
  · exact Nat.mod_eq_of_lt (by omega)

theorem slotBack_push_zero (r : Ring α) (a : α) : (r.push a).slotBack 0 = r.next := by
  have hnext : r.next < r.capacity := r.next_lt
  rw [slotBack_eq _ (r.push a).capacity_pos, next_push, capacity_push]
  split <;> split <;> omega

/-- The slot before the newest is the one that was newest. -/
theorem slotBack_push_succ (r : Ring α) (a : α) (h : back + 1 < r.capacity) :
    (r.push a).slotBack (back + 1) = r.slotBack back := by
  have hnext : r.next < r.capacity := r.next_lt
  rw [slotBack_eq _ (by simpa using h), slotBack_eq r (by omega), next_push, capacity_push]
  split <;> split <;> split <;> omega

/-- Only the oldest slot is written. -/
theorem slotBack_ne_next (r : Ring α) (h : back + 1 < r.capacity) : r.slotBack back ≠ r.next := by
  have hnext : r.next < r.capacity := r.next_lt
  rw [slotBack_eq r (by omega)]
  split <;> omega

/-- Walking back meets `pushed` in turn, as far as there are slots. -/
def Holds (r : Ring α) (pushed : List α) : Prop :=
  ∀ back < r.capacity, r.read? (r.slotBack back) = pushed[back]?

theorem holds_empty : Holds (empty size h : Ring α) [] := by
  simp [Holds]

theorem Holds.push {r : Ring α} (h : Holds r pushed) (a : α) : Holds (r.push a) (a :: pushed) := by
  intro back hback
  rw [capacity_push] at hback
  cases back with
  | zero => simp [slotBack_push_zero, read?_push]
  | succ back =>
    rw [slotBack_push_succ r a hback, read?_push, if_neg (r.slotBack_ne_next hback)]
    simpa using h back (by omega)

theorem Holds.foldl_push {r : Ring α} (h : Holds r pushed) (as : List α) :
    Holds (as.foldl Ring.push r) (as.reverse ++ pushed) := by
  induction as generalizing r pushed with
  | nil => simpa using h
  | cons a rest ih => simpa using ih (h.push a)

theorem capacity_foldl_push (as : List α) (r : Ring α) :
    (as.foldl push r).capacity = r.capacity := by
  induction as generalizing r with
  | nil => rfl
  | cons a rest ih => simp [ih]

theorem filterMap_range {as : List α} (h : ∀ i < n, f i = as[i]?) :
    (List.range n).filterMap f = as.take n := by
  induction n with
  | zero => simp
  | succ n ih =>
    have hrest := ih fun i hi => h i (Nat.lt_succ_of_lt hi)
    rw [List.range_succ, List.filterMap_append, hrest, List.take_add_one]
    cases hlast : as[n]? <;> simp [h n n.lt_succ_self, hlast]

theorem Holds.entries {r : Ring α} (h : Holds r pushed) : r.entries = pushed.take r.capacity :=
  filterMap_range h

/-- After any pushes an empty ring holds the newest of them, newest first. -/
theorem entries_foldl_push (size : Nat) (h : 0 < size) (as : List α) :
    (as.foldl push (empty size h)).entries = as.reverse.take size := by
  have hall : Holds (as.foldl push (empty size h)) (as.reverse ++ []) := holds_empty.foldl_push as
  simpa [capacity_foldl_push] using hall.entries

end Ring

end MeshConsole.Telemetry
