import MeshConsole.Proofs.Radio.Freshness

/-!
# The view and the histories

The latest batch and the histories of its addresses are kept apart, and a
history is trimmed while a batch is taken in. `backed_after`: the view of the
batch agrees with the histories all the same, after any updates and whatever
their times, since trimming never reaches the point that has just been added.
-/

namespace MeshConsole.Radio

def Update.rows? : Update → Option (List Neighbor)
  | .ingest rows _ _ => some rows
  | .describe _ _ => none

/-- The rows of the latest batch. -/
def latestRows (updates : List Update) : List Neighbor :=
  (updates.filterMap Update.rows?).getLast?.getD []

/-- A row of a view says what a row of a batch does, with its labels read. -/
structure Renders (n : Neighbor) (row : Row) : Prop where
  addr : row.addr = n.addr
  name : row.name = n.name
  lqi : row.lqi = n.lqi
  rssi : row.rssi = n.rssi
  quality : row.quality = some (Quality.ofLabel n.quality)
  score : row.score = (Quality.ofLabel n.quality).score
  direct : row.direct = n.direct
  source : row.source = some (Source.ofLabel n.source)
  updatedMs : row.updatedMs = n.updatedMs

/-- A row of a view agrees with the history of its address. -/
structure Backed (updates : List Update) (m : Monitor) (rows : List Row) (row : Row) : Prop where
  points : row.points = (m.points row.addr).length
  trend : row.trend = some (m.trend row.addr)
  held : row.addr ≠ 0 → 1 ≤ row.points
  /-- The newest point was seen with the latest batch, and has the score of the
  last row with the address. -/
  newest : row.addr ≠ 0 → ∃ point last, (m.points row.addr).getLast? = some point ∧
    (rows.filter (·.addr = row.addr)).getLast? = some last ∧
    lastIngest? updates = some point.seen ∧ point.score = last.score
  nobody : row.addr = 0 → row.points = 0 ∧ row.trend = some .notApplicable

/-- A view of a monitor agrees with the updates and with the histories. -/
structure InStep (updates : List Update) (m : Monitor) (view : View) : Prop where
  rows : List.Forall₂ Renders (latestRows updates) view.rows
  backed : ∀ row ∈ view.rows, Backed updates m view.rows row
  withoutRssi : view.mgmtLqiWithoutRssi = true ↔
    (∃ last, updates.getLast? = some last ∧ Source.ofLabel last.batch.source = .mgmtLqi) ∧
      latestRows updates ≠ [] ∧ ∀ n ∈ latestRows updates, n.rssi = none

-- ---------------------------------------------------------------------------
-- The newest point
-- ---------------------------------------------------------------------------

theorem pointOf_score (now : Instant) (n : Neighbor) :
    (pointOf now n).score = (Quality.ofLabel n.quality).score := rfl

theorem getLast?_trimBefore {cutoff : Instant} (hcut : cutoff ≤ p.seen) (points : List Point) :
    (trimBefore cutoff (points ++ [p])).getLast? = some p := by
  unfold trimBefore
  induction points with
  | nil => simp [Int.not_lt.mpr hcut]
  | cons q rest ih =>
    rw [List.cons_append, List.dropWhile_cons]
    split
    · exact ih
    · exact List.getLast?_concat (l := q :: rest)

section
variable {history : Table UInt16 (List Point)} {cutoff now : Instant}

theorem observe_newest (hcut : cutoff ≤ now) (row : Neighbor) (addr : UInt16) :
    (pointsIn (Monitor.observe cutoff now history row) addr).getLast? =
      if row.addr = addr ∧ row.addr ≠ 0 then some (pointOf now row)
      else (pointsIn history addr).getLast? := by
  unfold Monitor.observe
  by_cases hz : row.addr = 0
  · simp [hz]
  · by_cases ha : row.addr = addr
    · subst ha
      have hlast := getLast?_trimBefore (p := pointOf now row) hcut (pointsIn history row.addr)
      simpa [hz, pointsIn, pointOf] using hlast
    · simp [hz, ha, pointsIn]

/-- The last observation of an address in a batch becomes its newest point,
also when the points before it are not in order of time. -/
theorem foldl_observe_newest (hcut : cutoff ≤ now) (rows : List Neighbor) (batch : BatchMeta)
    (addr : UInt16) :
    (pointsIn (rows.foldl (Monitor.observe cutoff now) history) addr).getLast? =
      (observed addr (.ingest rows batch now)).getLast?.or (pointsIn history addr).getLast? := by
  induction rows generalizing history with
  | nil => rfl
  | cons row rest ih =>
    rw [List.foldl_cons, ih, observe_newest hcut, observed_cons]
    split
    · rw [List.getLast?_cons]
      cases (observed addr (.ingest rest batch now)).getLast? <;> rfl
    · rfl

theorem observe_zero (row : Neighbor) :
    pointsIn (Monitor.observe cutoff now history row) 0 = pointsIn history 0 := by
  unfold Monitor.observe
  split
  · rfl
  · simp [pointsIn, *]

theorem foldl_observe_zero (rows : List Neighbor) :
    pointsIn (rows.foldl (Monitor.observe cutoff now) history) 0 = pointsIn history 0 := by
  induction rows generalizing history with
  | nil => rfl
  | cons row rest ih => rw [List.foldl_cons, ih, observe_zero]

end

section
variable {m : Monitor} {now : Instant}

theorem ingest_newest (hcut : now.minus m.settings.historyWindow ≤ now)
    (hk : m.history.keys.Nodup) (hnew : observed addr (.ingest rows batch now) ≠ []) :
    ((m.ingest rows batch now).points addr).getLast? =
      (observed addr (.ingest rows batch now)).getLast? := by
  show (pointsIn (Monitor.ageOut _ _ _) addr).getLast? = _
  rw [ageOut_points (foldl_observe_keys hk rows), if_pos ((mem_seen_iff ..).mpr hnew),
    foldl_observe_newest hcut rows batch, List.getLast?_eq_some_getLast hnew]
  rfl

theorem ingest_zero (hk : m.history.keys.Nodup) (hzero : m.points 0 = []) :
    (m.ingest rows batch now).points 0 = [] := by
  have hnone : (0 : UInt16) ∉ (rows.map (·.addr)).filter (· ≠ 0) := by simp
  show pointsIn (Monitor.ageOut _ _ _) 0 = []
  rw [ageOut_points (foldl_observe_keys hk rows), if_neg hnone, foldl_observe_zero]
  show trimBefore _ (m.points 0) = []
  rw [hzero, trimBefore_nil]

end

-- ---------------------------------------------------------------------------
-- All updates
-- ---------------------------------------------------------------------------

/-- The histories hold the latest batch. -/
structure Holds (updates : List Update) (m : Monitor) : Prop where
  window : 0 < m.settings.historyWindow.toInt
  keys : m.history.keys.Nodup
  rows : m.rows = latestRows updates
  zero : m.points 0 = []
  newest : ∀ n ∈ m.rows, n.addr ≠ 0 → ∃ point last, (m.points n.addr).getLast? = some point ∧
    (m.rows.filter (·.addr = n.addr)).getLast? = some last ∧
    lastIngest? updates = some point.seen ∧ point.score = (Quality.ofLabel last.quality).score

theorem latestRows_ingest (updates : List Update) :
    latestRows (updates ++ [.ingest rows batch now]) = rows := by
  simp [latestRows, Update.rows?]

theorem latestRows_describe (updates : List Update) :
    latestRows (updates ++ [.describe batch now]) = latestRows updates := by
  simp [latestRows, Update.rows?]

theorem observed_ingest (hz : addr ≠ 0) (rows : List Neighbor) (batch : BatchMeta)
    (now : Instant) :
    observed addr (.ingest rows batch now) =
      (rows.filter (·.addr = addr)).map (pointOf now) := by
  have hsame : ∀ row : Neighbor, (row.addr = addr ∧ row.addr ≠ 0) ↔ row.addr = addr :=
    fun row => ⟨And.left, fun heq => ⟨heq, heq ▸ hz⟩⟩
  simp only [observed, hsame]

theorem Holds.ingest (h : Holds updates m) (rows : List Neighbor) (batch : BatchMeta)
    (now : Instant) : Holds (updates ++ [.ingest rows batch now]) (m.ingest rows batch now) := by
  have hcut : now.minus m.settings.historyWindow ≤ now :=
    Int.sub_le_self now (Int.le_of_lt h.window)
  refine ⟨h.window, ingest_keys h.keys, (latestRows_ingest updates).symm,
    ingest_zero h.keys h.zero, ?_⟩
  intro n hn hz
  have hobserved := observed_ingest hz rows batch now
  have hne : rows.filter (·.addr = n.addr) ≠ [] :=
    List.ne_nil_of_mem (List.mem_filter.mpr ⟨hn, by simp⟩)
  have hlast := List.getLast?_eq_some_getLast hne
  refine ⟨pointOf now (List.getLast _ hne), _, ?_, hlast, lastIngest?_ingest updates,
    pointOf_score ..⟩
  rw [ingest_newest hcut h.keys (by simpa [hobserved] using hne), hobserved, List.getLast?_map,
    hlast]
  rfl

theorem Holds.apply (h : Holds updates m) (u : Update) : Holds (updates ++ [u]) (m.apply u) := by
  cases u with
  | ingest rows batch now => exact h.ingest rows batch now
  | describe batch now =>
    refine ⟨h.window, h.keys, h.rows.trans (latestRows_describe updates).symm, h.zero, ?_⟩
    rw [lastIngest?_describe]
    exact h.newest

theorem holds_after (settings : Settings) (updates : List Update) :
    Holds updates (.after settings updates) := by
  induction updates using List.reverseRecOn with
  | nil => exact ⟨window_pos settings, .nil, rfl, rfl, by simp [Monitor.after, Monitor.new]⟩
  | append_singleton updates u ih =>
    rw [Monitor.after, List.foldl_append]
    exact ih.apply u

-- ---------------------------------------------------------------------------
-- The view
-- ---------------------------------------------------------------------------

theorem renders_row (m : Monitor) (n : Neighbor) : Renders n (m.row n) :=
  ⟨rfl, rfl, rfl, rfl, rfl, rfl, rfl, rfl, rfl⟩

theorem Holds.backed (h : Holds updates m) (hn : n ∈ m.rows) :
    Backed updates m (m.rows.map m.row) (m.row n) := by
  have hnewest : n.addr ≠ 0 → ∃ point last, (m.points n.addr).getLast? = some point ∧
      ((m.rows.map m.row).filter (·.addr = n.addr)).getLast? = some last ∧
      lastIngest? updates = some point.seen ∧ point.score = last.score := by
    intro hz
    obtain ⟨point, last, hpoint, hlast, hseen, hscore⟩ := h.newest n hn hz
    refine ⟨point, m.row last, hpoint, ?_, hseen, hscore.trans (renders_row m last).score.symm⟩
    rw [List.filter_map, List.getLast?_map]
    exact congrArg (Option.map m.row) hlast
  refine ⟨rfl, rfl, fun hz => ?_, hnewest, fun hz => ?_⟩
  · obtain ⟨point, -, hpoint, -⟩ := hnewest hz
    exact List.length_pos_iff.mpr (List.ne_nil_of_mem (List.mem_of_getLast? hpoint))
  · have hnone : m.points n.addr = [] := (congrArg m.points hz).trans h.zero
    simp [Monitor.row, Monitor.trend, hnone, Monitor.trendOf]

theorem withoutRssi_iff (m : Monitor) (now : Instant) :
    (m.view now).mgmtLqiWithoutRssi = true ↔
      (∃ batch, m.batch = some batch ∧ Source.ofLabel batch.source = .mgmtLqi) ∧
        m.rows ≠ [] ∧ ∀ n ∈ m.rows, n.rssi = none := by
  cases hb : m.batch with
  | none => simp [Monitor.view, hb]
  | some batch => simp [Monitor.view, hb, and_assoc]

/-- After any updates, at any times. -/
theorem backed_after (settings : Settings) (updates : List Update) (now : Instant) :
    InStep updates (.after settings updates) ((Monitor.after settings updates).view now) := by
  have h := holds_after settings updates
  refine ⟨?_, ?_, ?_⟩
  · rw [← h.rows]
    exact List.forall₂_map_right_iff.mpr (List.forall₂_same.mpr fun n _ => renders_row _ n)
  · intro row hrow
    obtain ⟨n, hn, rfl⟩ := List.mem_map.mp hrow
    exact h.backed hn
  · rw [withoutRssi_iff, h.rows, (anchored_after settings updates).batch]
    simp

end MeshConsole.Radio
