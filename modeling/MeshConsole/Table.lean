/-!
# Keyed tables

A table is a list of keys with their values, each key at most once. Writing replaces the value of a
key in its place or adds the key at the end, so a table keeps the order in which keys first came.
-/

namespace MeshConsole

/-- Keys with their values. -/
abbrev Table (κ α : Type) := List (κ × α)

namespace Table

variable {κ α : Type} [DecidableEq κ]

def get? (key : κ) : Table κ α → Option α
  | [] => none
  | (k, value) :: rest => if k = key then some value else get? key rest

def has (key : κ) (t : Table κ α) : Bool := (t.get? key).isSome

def set (key : κ) (value : α) : Table κ α → Table κ α
  | [] => [(key, value)]
  | (k, old) :: rest => if k = key then (key, value) :: rest else (k, old) :: set key value rest

def erase (key : κ) (t : Table κ α) : Table κ α := t.filter fun entry => entry.1 ≠ key

@[simp] theorem get?_set (t : Table κ α) (key other : κ) (value : α) :
    (t.set key value).get? other = if key = other then some value else t.get? other := by
  induction t with
  | nil => simp [set, get?]
  | cons entry rest ih =>
    obtain ⟨k, old⟩ := entry
    by_cases hk : k = key
    · by_cases ho : key = other <;> simp [set, get?, hk, ho]
    · by_cases ho : k = other
      · subst ho
        simp [set, get?, hk, Ne.symm hk]
      · simp [set, get?, hk, ho, ih]

@[simp] theorem get?_erase (t : Table κ α) (key other : κ) :
    (t.erase key).get? other = if key = other then none else t.get? other := by
  induction t with
  | nil => simp [erase, get?]
  | cons entry rest ih =>
    obtain ⟨k, old⟩ := entry
    simp only [erase] at ih
    by_cases hk : k = key
    · by_cases ho : key = other <;> simp_all [erase, get?]
    · by_cases ho : k = other
      · subst ho
        simp [erase, get?, hk, Ne.symm hk]
      · simpa [erase, get?, hk, ho] using ih

def keys (t : Table κ α) : List κ := t.map Prod.fst

theorem keys_set (t : Table κ α) (key : κ) (value : α) :
    (t.set key value).keys = if key ∈ t.keys then t.keys else t.keys ++ [key] := by
  induction t with
  | nil => simp [keys, set]
  | cons entry rest ih =>
    obtain ⟨k, old⟩ := entry
    simp only [keys] at ih
    by_cases hk : k = key
    · simp [keys, set, hk]
    · by_cases hm : key ∈ rest.map Prod.fst
      · simp [keys, set, hk, ih, hm]
      · simp [keys, set, hk, ih, hm, Ne.symm hk]

theorem nodup_keys_set (t : Table κ α) (key : κ) (value : α) (h : t.keys.Nodup) :
    (t.set key value).keys.Nodup := by
  rw [keys_set]
  split
  · exact h
  · rename_i hm
    refine List.nodup_append.mpr ⟨h, by simp, ?_⟩
    rintro a ha b hb rfl
    rw [List.mem_singleton.mp hb] at ha
    exact hm ha

theorem mem_of_get? (t : Table κ α) (h : t.get? key = some value) : (key, value) ∈ t := by
  induction t with
  | nil => cases h
  | cons entry rest ih =>
    obtain ⟨k, old⟩ := entry
    by_cases hk : k = key
    · simp only [get?, hk, if_true, Option.some.injEq] at h
      simp [hk, h]
    · simp only [get?, hk, if_false] at h
      exact List.mem_cons_of_mem _ (ih h)

theorem get?_of_mem (t : Table κ α) (h : t.keys.Nodup) (hm : (key, value) ∈ t) :
    t.get? key = some value := by
  induction t with
  | nil => cases hm
  | cons entry rest ih =>
    obtain ⟨k, old⟩ := entry
    obtain ⟨hfirst, hrest⟩ := List.nodup_cons.mp h
    rcases List.mem_cons.mp hm with heq | hm
    · cases heq
      simp [get?]
    · have hk : k ≠ key := by
        rintro rfl
        exact hfirst (List.mem_map.mpr ⟨_, hm, rfl⟩)
      simpa [get?, hk] using ih hrest hm

theorem get?_of_not_mem_keys (t : Table κ α) (h : key ∉ t.keys) : t.get? key = none := by
  refine Option.eq_none_iff_forall_ne_some.mpr fun value hv => ?_
  exact h (List.mem_map.mpr ⟨_, t.mem_of_get? hv, rfl⟩)

end Table

/-- Adds one to the count of a key that counts from zero, wrapping around at 64 bits. -/
def Table.count {κ : Type} [DecidableEq κ] (key : κ) (t : Table κ UInt64) : Table κ UInt64 :=
  t.set key ((t.get? key).getD 0 + 1)

section
variable {κ : Type} [DecidableEq κ]

/-- A key that comes has its count raised by as often as it does. -/
theorem Table.get?_foldl_count (keys : List κ) (t : Table κ UInt64) (key : κ) :
    (keys.foldl (fun t k => t.count k) t).get? key =
      if keys.countP (· = key) = 0 then t.get? key
      else some ((t.get? key).getD 0 + UInt64.ofNat (keys.countP (· = key))) := by
  induction keys generalizing t with
  | nil => rfl
  | cons first rest ih =>
    rw [List.foldl_cons, ih, Table.count, Table.get?_set, List.countP_cons]
    by_cases hfirst : first = key
    · by_cases hrest : rest.countP (· = key) = 0
      · simp [hfirst, hrest]
      · simp [hfirst, hrest, UInt64.ofNat_add, UInt64.add_assoc, UInt64.add_comm 1]
    · simp [hfirst]

theorem Table.nodup_keys_foldl_count (keys : List κ) (t : Table κ UInt64) (h : t.keys.Nodup) :
    (keys.foldl (fun t k => t.count k) t).keys.Nodup := by
  induction keys generalizing t with
  | nil => exact h
  | cons first rest ih => exact ih _ (t.nodup_keys_set first _ h)

end

end MeshConsole
