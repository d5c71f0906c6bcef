import MeshConsole.Proofs.Radio.Backing

/-!
# Router hints

Hints are gathered in one pass, into lists that take no more than a few of
them, while the weak links are counted beyond that. `hints_advised`: what
comes out is the start of the advice that one would write down looking at all
rows at once.
-/

namespace MeshConsole.Radio

def weakRows (rows : List Neighbor) : List Neighbor :=
  rows.filter fun row => Quality.ofLabel row.quality = .bad

/-- The rows whose quality is not good any more and goes down further. -/
def sinkingRows (m : Monitor) (rows : List Neighbor) : List Neighbor :=
  rows.filter fun row =>
    (Quality.ofLabel row.quality = .warn ∨ Quality.ofLabel row.quality = .bad) ∧
      m.trend row.addr = .degrading

/-- Two weak links, two degrading ones, and the number of weak links when
there are three or more. -/
def advice (m : Monitor) (rows : List Neighbor) : List Hint :=
  let about := fun kind (row : Neighbor) =>
    ({ kind, addr := row.addr, name := row.name
       quality := some (Quality.ofLabel row.quality) } : Hint)
  ((weakRows rows).take 2).map (about .weakLink) ++
    ((sinkingRows m rows).take 2).map (about .degrading) ++
    if 3 ≤ (weakRows rows).length then
      [{ kind := .manyWeak, count := (weakRows rows).length }]
    else []

-- ---------------------------------------------------------------------------
-- Lists with little room
-- ---------------------------------------------------------------------------

theorem take_concat (as : List α) (a : α) (room : Nat) :
    (as ++ [a]).take room =
      if (as.take room).length < room then as.take room ++ [a] else as.take room := by
  rw [List.take_append, List.length_take]
  by_cases h : as.length < room
  · rw [if_pos (by omega), List.take_of_length_le (by simp; omega : [a].length ≤ _)]
  · rw [if_neg (by omega), Nat.sub_eq_zero_of_le (Nat.not_lt.mp h), List.take_zero,
      List.append_nil]

/-- A list that takes what is kept as long as it has room has the first of
all that is kept. -/
theorem map_take_filter_concat (keep : α → Bool) (f : α → β) (as : List α) (a : α) (room : Nat) :
    (((as ++ [a]).filter keep).take room).map f =
      if keep a = true ∧ (((as.filter keep).take room).map f).length < room then
        ((as.filter keep).take room).map f ++ [f a]
      else ((as.filter keep).take room).map f := by
  rw [List.filter_append, List.length_map]
  cases hk : keep a with
  | false => simp [hk]
  | true =>
    simp only [List.filter_cons, hk, if_true, List.filter_nil, take_concat, true_and]
    split <;> simp

-- ---------------------------------------------------------------------------
-- The pass
-- ---------------------------------------------------------------------------

section
variable {m : Monitor} {rows : List Neighbor} {s : Survey}

theorem noteWeak_weak (s : Survey) (row : Neighbor) :
    (s.noteWeak row).weak =
      if Quality.ofLabel row.quality = .bad ∧ s.weak.length < maxWeakHints then
        s.weak ++ [.about .weakLink row]
      else s.weak := by
  unfold Survey.noteWeak
  split <;> simp [*]

theorem noteWeak_weakCount (s : Survey) (row : Neighbor) :
    (s.noteWeak row).weakCount =
      if Quality.ofLabel row.quality = .bad then s.weakCount + 1 else s.weakCount := by
  unfold Survey.noteWeak
  split <;> rfl

@[simp] theorem noteWeak_degrading (s : Survey) (row : Neighbor) :
    (s.noteWeak row).degrading = s.degrading := by
  unfold Survey.noteWeak
  split <;> rfl

theorem noteDegrading_degrading (m : Monitor) (s : Survey) (row : Neighbor) :
    (s.noteDegrading m row).degrading =
      if ((Quality.ofLabel row.quality = .warn ∨ Quality.ofLabel row.quality = .bad) ∧
          m.trend row.addr = .degrading) ∧ s.degrading.length < maxDegradingHints then
        s.degrading ++ [.about .degrading row]
      else s.degrading := by
  unfold Survey.noteDegrading
  by_cases ht : m.trend row.addr = .degrading
  · simp only [ht, if_true, and_true]
    split <;> rfl
  · simp [ht]

@[simp] theorem noteDegrading_weak (m : Monitor) (s : Survey) (row : Neighbor) :
    (s.noteDegrading m row).weak = s.weak := by
  simp only [Survey.noteDegrading]
  split
  · split <;> rfl
  · rfl

@[simp] theorem noteDegrading_weakCount (m : Monitor) (s : Survey) (row : Neighbor) :
    (s.noteDegrading m row).weakCount = s.weakCount := by
  simp only [Survey.noteDegrading]
  split
  · split <;> rfl
  · rfl

/-- What the pass has gathered from the rows so far. -/
structure Surveyed (m : Monitor) (rows : List Neighbor) (s : Survey) : Prop where
  weak : s.weak = ((weakRows rows).take maxWeakHints).map (.about .weakLink)
  degrading : s.degrading = ((sinkingRows m rows).take maxDegradingHints).map (.about .degrading)
  weakCount : s.weakCount = (weakRows rows).length

theorem Surveyed.step (h : Surveyed m rows s) (row : Neighbor) :
    Surveyed m (rows ++ [row]) (m.survey s row) := by
  unfold Monitor.survey
  refine ⟨?_, ?_, ?_⟩
  · rw [noteDegrading_weak, noteWeak_weak, weakRows, map_take_filter_concat, ← weakRows, ← h.weak]
    simp
  · rw [noteDegrading_degrading, noteWeak_degrading, sinkingRows, map_take_filter_concat,
      ← sinkingRows, ← h.degrading]
    simp
  · rw [noteDegrading_weakCount, noteWeak_weakCount, h.weakCount, weakRows, weakRows,
      List.filter_append]
    split <;> simp [*]

theorem surveyed (m : Monitor) (rows : List Neighbor) :
    Surveyed m rows (rows.foldl m.survey {}) := by
  induction rows using List.reverseRecOn with
  | nil => exact ⟨rfl, rfl, rfl⟩
  | append_singleton rows row ih => simpa using ih.step row

theorem Surveyed.hints (h : Surveyed m rows s) : s.hints = advice m rows := by
  rw [Survey.hints, h.weak, h.degrading, h.weakCount]
  rfl

end

/-- Of any rows, in any state of the monitor; a view has the hints on the rows
of the latest batch. -/
theorem hints_advised (m : Monitor) (rows : List Neighbor) (settings : Settings)
    (updates : List Update) (now : Instant) :
    m.hints rows = (advice m rows).take m.settings.maxHints.toNat ∧
    ((Monitor.after settings updates).view now).hints =
      (Monitor.after settings updates).hints (latestRows updates) := by
  refine ⟨?_, ?_⟩
  · rw [Monitor.hints, (surveyed m rows).hints]
  · rw [← (holds_after settings updates).rows]
    rfl

end MeshConsole.Radio
