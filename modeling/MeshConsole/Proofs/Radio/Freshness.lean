import MeshConsole.Proofs.Radio.Window
import MeshConsole.Radio.View

/-!
# How fresh the data are

A monitor remembers one instant, and tells from it how old its data are and
whether they are stale. `dated_after`: after any updates, whatever their
times, it is the time of the last update with news, that is of the last one
that came first or had another counter than the update just before it.
-/

namespace MeshConsole.Radio

/-- What an update says of the batch. -/
def Update.batch : Update → BatchMeta
  | .ingest _ batch _ => batch
  | .describe batch _ => batch

def Update.counter (u : Update) : UInt64 := u.batch.updatedMs

/-- The updates with another counter than the one just before them, the
first of them coming after the counter `before`. -/
def newsFrom (before : Option UInt64) : List Update → List Update
  | [] => []
  | u :: rest =>
    let later := newsFrom (some u.counter) rest
    if before = some u.counter then later else u :: later

/-- When there was news last. -/
def anchor? (updates : List Update) : Option Instant :=
  (newsFrom none updates).getLast?.map Update.time

/-- Since the last news no more time has gone by than a duration can hold. -/
def Measurable (updates : List Update) (now : Instant) : Prop :=
  ∀ t, anchor? updates = some t → now - t ≤ Int64.maxValue.toInt

/-- The counter stays where the last of `updates` left it. -/
def Repeats (updates more : List Update) : Prop :=
  ∀ u ∈ more, updates.getLast?.map Update.counter = some u.counter

/-- What a monitor makes of the age of its data after `updates`. -/
structure Dated (settings : Settings) (updates : List Update) : Prop where
  nothing : anchor? updates = none ↔ updates = []
  anchor : ∀ t, anchor? updates = some t → (Monitor.after settings updates).anchor = t
  stale : ∀ now, Measurable updates now →
    ((Monitor.after settings updates).isStale now = true ↔
      updates = [] ∨
        settings.effective.staleThreshold.toInt < now - (Monitor.after settings updates).anchor)
  age : ∀ now, Measurable updates now →
    (Monitor.after settings updates).ageSeconds? now =
      if updates = [] then none
      else some (max 0 ((now - (Monitor.after settings updates).anchor).fdiv 1000000000))
  /-- Without news, stale data stay so, also when the counter is repeated. -/
  lasting : ∀ more now later, Repeats updates more → now ≤ later →
    (Monitor.after settings updates).isStale now = true →
    (Monitor.after settings (updates ++ more)).isStale later = true
  shown : ∀ now, ((Monitor.after settings updates).view now).stale =
      (Monitor.after settings updates).isStale now ∧
    ((Monitor.after settings updates).view now).hasBatch =
      ((Monitor.after settings updates).ageSeconds? now).isSome ∧
    ((Monitor.after settings updates).view now).ageSeconds =
      ((Monitor.after settings updates).ageSeconds? now).getD 0

-- ---------------------------------------------------------------------------
-- News
-- ---------------------------------------------------------------------------

theorem newsFrom_append (before : Option UInt64) (updates more : List Update) :
    newsFrom before (updates ++ more) = newsFrom before updates ++
      newsFrom ((updates.getLast?.map Update.counter).or before) more := by
  induction updates generalizing before with
  | nil => simp [newsFrom]
  | cons u rest ih =>
    have hlast : ((u :: rest).getLast?.map Update.counter).or before =
        (rest.getLast?.map Update.counter).or (some u.counter) := by
      rw [List.getLast?_cons]
      cases rest.getLast? <;> rfl
    simp only [List.cons_append, newsFrom, ih, hlast]
    split <;> simp

theorem newsFrom_repeated (h : ∀ u ∈ more, before = some u.counter) :
    newsFrom before more = [] := by
  induction more with
  | nil => rfl
  | cons u rest ih =>
    obtain ⟨hu, hrest⟩ := List.forall_mem_cons.mp h
    simp only [newsFrom, ← hu, if_true]
    exact ih hrest

theorem anchor?_append (updates : List Update) (u : Update) :
    anchor? (updates ++ [u]) =
      if updates.getLast?.map Update.counter = some u.counter then anchor? updates
      else some u.time := by
  rw [anchor?, newsFrom_append, Option.or_none]
  simp only [newsFrom]
  split <;> simp [anchor?]

theorem anchor?_repeated (h : Repeats updates more) :
    anchor? (updates ++ more) = anchor? updates := by
  rw [anchor?, newsFrom_append, Option.or_none, newsFrom_repeated h, List.append_nil, anchor?]

-- ---------------------------------------------------------------------------
-- What updates leave of a monitor
-- ---------------------------------------------------------------------------

theorem apply_settings (m : Monitor) (u : Update) : (m.apply u).settings = m.settings := by
  cases u <;> rfl

theorem apply_batch (m : Monitor) (u : Update) : (m.apply u).batch = some u.batch := by
  cases u <;> rfl

theorem describe_anchor (m : Monitor) (batch : BatchMeta) (now : Instant) :
    (m.describe batch now).anchor =
      if m.batch.map (·.updatedMs) = some batch.updatedMs then m.anchor else now := by
  unfold Monitor.describe
  cases m.batch with
  | none => simp
  | some old => by_cases h : batch.updatedMs = old.updatedMs <;> simp [h, Ne.symm]

theorem apply_anchor (m : Monitor) (u : Update) :
    (m.apply u).anchor =
      if m.batch.map (·.updatedMs) = some u.counter then m.anchor else u.time := by
  cases u with
  | ingest rows batch now => exact describe_anchor _ batch now
  | describe batch now => exact describe_anchor m batch now

/-- The monitor's anchor counts once there has been an update. -/
structure Anchored (settings : Settings) (updates : List Update) (m : Monitor) : Prop where
  setting : m.settings = settings.effective
  batch : m.batch = updates.getLast?.map Update.batch
  anchor : anchor? updates = m.batch.map fun _ => m.anchor

theorem Anchored.apply (h : Anchored settings updates m) (u : Update) :
    Anchored settings (updates ++ [u]) (m.apply u) := by
  have hcounter : m.batch.map (·.updatedMs) = updates.getLast?.map Update.counter := by
    rw [h.batch, Option.map_map]
    rfl
  refine ⟨(apply_settings m u).trans h.setting, by simp [apply_batch], ?_⟩
  rw [anchor?_append, apply_batch, apply_anchor, hcounter]
  split
  case isTrue hsame =>
    obtain ⟨last, hlast, -⟩ := Option.map_eq_some_iff.mp hsame
    simp [h.anchor, h.batch, hlast]
  case isFalse => rfl

theorem anchored_after (settings : Settings) (updates : List Update) :
    Anchored settings updates (.after settings updates) := by
  induction updates using List.reverseRecOn with
  | nil => exact ⟨rfl, rfl, rfl⟩
  | append_singleton updates u ih =>
    rw [Monitor.after, List.foldl_append]
    exact ih.apply u

theorem Anchored.isStale (h : Anchored settings updates m) (now : Instant) :
    m.isStale now = true ↔
      ∀ t, anchor? updates = some t → settings.effective.staleThreshold < now.since t := by
  rw [h.anchor, ← h.setting, Monitor.isStale]
  cases m.batch <;> simp

theorem Anchored.anchor?_eq_none (h : Anchored settings updates m) :
    anchor? updates = none ↔ updates = [] := by
  simp [h.anchor, h.batch]

theorem Anchored.anchor?_eq_some (h : Anchored settings updates m) (hne : updates ≠ []) :
    anchor? updates = some m.anchor := by
  simp [h.anchor, h.batch, List.getLast?_eq_some_getLast hne]

-- ---------------------------------------------------------------------------
-- What the monitor tells
-- ---------------------------------------------------------------------------

theorem threshold_pos (settings : Settings) : 0 < settings.effective.staleThreshold.toInt :=
  Duration.orElse_pos (by decide) settings.staleThreshold

theorem wholeSeconds_since {now t : Int} (hspan : now - t ≤ Int64.maxValue.toInt) :
    (if Instant.since now t < 0 then 0 else (Instant.since now t / Duration.second).toInt) =
      max 0 ((now - t).fdiv 1000000000) := by
  have hlow : Int64.minValue.toInt = -9223372036854775808 := by decide
  have hsecond : Duration.second.toInt = 1000000000 := by decide
  have hzero : (0 : Int64).toInt = 0 := by decide
  have hfloor : (now - t).fdiv 1000000000 = (now - t) / 1000000000 :=
    Int.fdiv_eq_ediv_of_nonneg _ (by decide)
  rw [Int64.toInt_div_of_ne_right _ _ (by decide), hsecond, hfloor]
  simp only [Int64.lt_iff_toInt_lt, Instant.toInt_since, hzero]
  split
  · omega
  · rw [Int.tdiv_eq_ediv_of_nonneg (by omega)]
    omega

section
variable {settings : Settings} {updates : List Update} {m : Monitor}

theorem Anchored.isStale_iff (h : Anchored settings updates m) (hspan : Measurable updates now) :
    m.isStale now = true ↔
      updates = [] ∨ settings.effective.staleThreshold.toInt < now - m.anchor := by
  rw [h.isStale]
  by_cases hne : updates = []
  · rw [h.anchor?_eq_none.mpr hne]
    simp [hne]
  · have hanchor := h.anchor?_eq_some hne
    have hlate := Instant.lt_since_iff (threshold_pos settings) (hspan _ hanchor)
    simp [hne, hanchor, hlate]

theorem Anchored.ageSeconds? (h : Anchored settings updates m) (hspan : Measurable updates now) :
    m.ageSeconds? now =
      if updates = [] then none else some (max 0 ((now - m.anchor).fdiv 1000000000)) := by
  by_cases hne : updates = []
  · simp [Monitor.ageSeconds?, h.batch, hne]
  · have hage := wholeSeconds_since (hspan _ (h.anchor?_eq_some hne))
    rw [if_neg hne, ← hage, Monitor.ageSeconds?, h.batch, List.getLast?_eq_some_getLast hne]
    rfl

end

theorem stale_lasts (hrepeat : Repeats updates more) (hle : now ≤ later)
    (hstale : (Monitor.after settings updates).isStale now = true) :
    (Monitor.after settings (updates ++ more)).isStale later = true := by
  rw [(anchored_after settings _).isStale] at hstale ⊢
  rw [anchor?_repeated hrepeat]
  intro t ht
  exact Int64.lt_of_lt_of_le (hstale t ht) (Instant.since_mono hle)

/-- After any updates, at any times. -/
theorem dated_after (settings : Settings) (updates : List Update) : Dated settings updates := by
  have h := anchored_after settings updates
  refine ⟨h.anchor?_eq_none, fun t ht => ?_, fun _ hspan => h.isStale_iff hspan,
    fun _ hspan => h.ageSeconds? hspan, fun _ _ _ => stale_lasts, fun now => ⟨rfl, ?_, rfl⟩⟩
  · have hne : updates ≠ [] := fun hnil => by simp [h.anchor?_eq_none.mpr hnil] at ht
    exact Option.some.inj ((h.anchor?_eq_some hne).symm.trans ht)
  · simp [Monitor.view, Monitor.ageSeconds?]

/-- The counter goes back, and is repeated after that. -/
def repeatedReports : List Update := [
  .describe { updatedMs := 9 } 0,
  .ingest [{ addr := 7 }] { updatedMs := 5 } 10000000000,
  .describe { updatedMs := 5 } 60000000000]

/-- The threshold is a minute: it has just been reached, and then passed. -/
theorem dated_repeatedReports :
    Measurable repeatedReports 70000000000 ∧ Measurable repeatedReports 70000000001 ∧
    Repeats repeatedReports [.describe { updatedMs := 5 } 75000000000] ∧
    (Monitor.after {} repeatedReports).isStale 70000000000 = false ∧
    (Monitor.after {} repeatedReports).ageSeconds? 70000000000 = some 60 ∧
    (Monitor.after {} repeatedReports).isStale 70000000001 = true ∧
    (Monitor.after {} (repeatedReports ++ [.describe { updatedMs := 5 } 75000000000])).isStale
      75000000000 = true := by
  have hdated := dated_after {} repeatedReports
  have hnews : anchor? repeatedReports = some 10000000000 := by decide
  have hspan : ∀ now ≤ 80000000000, Measurable repeatedReports now := by
    intro now hnow t ht
    obtain rfl : 10000000000 = t := Option.some.inj (hnews.symm.trans ht)
    exact Int.le_trans (Int.sub_le_sub_right hnow _) (by decide)
  have hreached := hspan 70000000000 (by decide)
  have hpassed := hspan 70000000001 (by decide)
  have hrepeats : Repeats repeatedReports [.describe { updatedMs := 5 } 75000000000] := by
    simp [Repeats, repeatedReports, Update.counter, Update.batch]
  have hstale : (Monitor.after {} repeatedReports).isStale 70000000001 = true := by
    rw [hdated.stale _ hpassed, hdated.anchor _ hnews]
    exact .inr (by decide)
  refine ⟨hreached, hpassed, hrepeats, ?_, ?_, hstale, ?_⟩
  · rw [Bool.eq_false_iff, Ne, hdated.stale _ hreached, hdated.anchor _ hnews]
    decide
  · rw [hdated.age _ hreached, hdated.anchor _ hnews]
    decide
  · exact hdated.lasting _ _ _ hrepeats (by decide) hstale

end MeshConsole.Radio
