import Mathlib.Data.Set.Card
import MeshConsole.Proofs.Elapsed
import MeshConsole.Radio.Monitor

/-!
# The history window

`shows_window`: after any batches and descriptions, told in order of time,
a monitor shows of each address just the observations of a naive log that
lie within the history window of the latest batch. The monitor itself only
drops points from the start of a history, and treats the addresses of a
batch and the others apart.
-/

namespace MeshConsole.Radio

-- ---------------------------------------------------------------------------
-- The naive log
-- ---------------------------------------------------------------------------

/-- What a monitor is told: a batch of neighbours, or only its description. -/
inductive Update where
  | ingest (rows : List Neighbor) (batch : BatchMeta) (now : Instant)
  | describe (batch : BatchMeta) (now : Instant)

def Update.time : Update → Instant
  | .ingest _ _ now => now
  | .describe _ now => now

def Monitor.apply (m : Monitor) : Update → Monitor
  | .ingest rows batch now => m.ingest rows batch now
  | .describe batch now => m.describe batch now

/-- A new monitor after all updates. -/
def Monitor.after (settings : Settings) (updates : List Update) : Monitor :=
  updates.foldl Monitor.apply (.new settings)

def pointOf (now : Instant) (row : Neighbor) : Point :=
  { seen := now, score := (Quality.ofLabel row.quality).score }

/-- The observations of an address in one update. No row observes address
zero. -/
def observed (addr : UInt16) : Update → List Point
  | .ingest rows _ now =>
    (rows.filter fun row => row.addr = addr ∧ row.addr ≠ 0).map (pointOf now)
  | .describe _ _ => []

/-- Every observation of an address, in order. -/
def logged (addr : UInt16) (updates : List Update) : List Point :=
  updates.flatMap (observed addr)

def lastIngest? (updates : List Update) : Option Instant :=
  updates.foldl (fun last u =>
    match u with
    | .ingest _ _ now => some now
    | .describe _ _ => last) none

/-- The logged observations no older than the window before the latest
batch. -/
def retained (window : Duration) (updates : List Update) (addr : UInt16) : List Point :=
  match lastIngest? updates with
  | none => []
  | some now => (logged addr updates).filter fun p => now.minus window ≤ p.seen

/-- What a change between two scores means. -/
def Trend.ofChange (change : Int) : Trend :=
  if 0 < change then .improving
  else if change < 0 then .degrading
  else .stable

/-- A monitor shows of each address just the points that are kept of it. -/
structure Shows (m : Monitor) (kept : UInt16 → List Point) : Prop where
  history : ∀ addr, m.points addr = kept addr
  tracked : m.tracked = { addr | kept addr ≠ [] }.ncard
  zero : m.history.get? 0 = none
  trend_few : ∀ addr, (kept addr).length < 2 → m.trend addr = .notApplicable
  trend_change : ∀ addr first last, 2 ≤ (kept addr).length → (kept addr).head? = some first →
    (kept addr).getLast? = some last → m.trend addr = .ofChange ((last.score : Int) - first.score)

-- ---------------------------------------------------------------------------
-- Trimming
-- ---------------------------------------------------------------------------

/-- Points in order of time, none of them after `now`. -/
structure Timely (now : Instant) (points : List Point) : Prop where
  sorted : points.Pairwise (·.seen ≤ ·.seen)
  bound : ∀ p ∈ points, p.seen ≤ now

theorem Timely.nil : Timely now [] := ⟨.nil, by simp⟩

theorem Timely.filter (h : Timely now points) (keep : Point → Bool) :
    Timely now (points.filter keep) :=
  ⟨h.sorted.filter keep, fun p hp => h.bound p (List.mem_filter.mp hp).1⟩

theorem Timely.mono (h : Timely now points) (hle : now ≤ later) : Timely later points :=
  ⟨h.sorted, fun p hp => Int.le_trans (h.bound p hp) hle⟩

theorem Timely.append (h : Timely now points) (hseen : ∀ p ∈ new, p.seen = now) :
    Timely now (points ++ new) := by
  refine ⟨List.pairwise_append.mpr ⟨h.sorted, ?_, ?_⟩, ?_⟩
  · refine List.pairwise_of_forall_mem_list fun a ha b hb => ?_
    rw [hseen a ha, hseen b hb]
  · intro a ha b hb
    rw [hseen b hb]
    exact h.bound a ha
  · intro p hp
    rcases List.mem_append.mp hp with hp | hp
    · exact h.bound p hp
    · exact Int.le_of_eq (hseen p hp)

theorem trimBefore_nil (cutoff : Instant) : trimBefore cutoff [] = [] := rfl

theorem trimBefore_eq_filter (h : points.Pairwise (·.seen ≤ ·.seen)) (cutoff : Instant) :
    trimBefore cutoff points = points.filter fun p => cutoff ≤ p.seen :=
  Instant.dropWhile_before h cutoff

-- ---------------------------------------------------------------------------
-- One batch
-- ---------------------------------------------------------------------------

/-- The points of an address in a history. -/
def pointsIn (history : Table UInt16 (List Point)) (addr : UInt16) : List Point :=
  (history.get? addr).getD []

section
variable {history : Table UInt16 (List Point)} {cutoff now : Instant}

theorem filter_pointOf (hcut : cutoff ≤ now) (row : Neighbor) :
    [pointOf now row].filter (fun p => decide (cutoff ≤ p.seen)) = [pointOf now row] := by
  simp [pointOf, hcut]

theorem observed_cons (row : Neighbor) (rest : List Neighbor) (addr : UInt16) :
    observed addr (.ingest (row :: rest) batch now) =
      if row.addr = addr ∧ row.addr ≠ 0 then
        pointOf now row :: observed addr (.ingest rest batch now)
      else observed addr (.ingest rest batch now) := by
  simp only [observed, List.filter_cons]
  by_cases hrow : row.addr = addr ∧ row.addr ≠ 0
  · rw [if_pos (decide_eq_true hrow), if_pos hrow, List.map_cons]
  · rw [if_neg (by simpa using hrow), if_neg hrow]

theorem observe_points (hcut : cutoff ≤ now) (ht : ∀ addr, Timely now (pointsIn history addr))
    (row : Neighbor) (addr : UInt16) :
    pointsIn (Monitor.observe cutoff now history row) addr =
      if row.addr = addr ∧ row.addr ≠ 0 then
        (pointsIn history addr).filter (fun p => cutoff ≤ p.seen) ++ [pointOf now row]
      else pointsIn history addr := by
  unfold Monitor.observe
  by_cases hz : row.addr = 0
  · simp [hz]
  · have hlate : Timely now (pointsIn history row.addr ++ [pointOf now row]) :=
      (ht row.addr).append (by simp [pointOf])
    have htrim := trimBefore_eq_filter hlate.sorted cutoff
    rw [List.filter_append, filter_pointOf hcut] at htrim
    by_cases ha : row.addr = addr
    · subst ha
      simpa [hz, pointsIn, pointOf] using htrim
    · simp [hz, ha, pointsIn]

theorem observe_timely (hcut : cutoff ≤ now) (ht : ∀ addr, Timely now (pointsIn history addr))
    (row : Neighbor) (addr : UInt16) :
    Timely now (pointsIn (Monitor.observe cutoff now history row) addr) := by
  rw [observe_points hcut ht]
  split
  · exact ((ht addr).filter _).append (by simp [pointOf])
  · exact ht addr

/-- The new points of an address stand behind those of its old ones that the
window still holds; an address that the rows leave out is not trimmed here. -/
theorem foldl_observe_points (hcut : cutoff ≤ now)
    (ht : ∀ addr, Timely now (pointsIn history addr)) (rows : List Neighbor) (batch : BatchMeta)
    (addr : UInt16) :
    let new := observed addr (.ingest rows batch now)
    pointsIn (rows.foldl (Monitor.observe cutoff now) history) addr =
      if new = [] then pointsIn history addr
      else (pointsIn history addr).filter (fun p => cutoff ≤ p.seen) ++ new := by
  induction rows generalizing history with
  | nil => rfl
  | cons row rest ih =>
    have hrec := ih (observe_timely hcut ht row)
    simp only [List.foldl_cons] at hrec ⊢
    rw [hrec, observe_points hcut ht, observed_cons]
    by_cases hrow : row.addr = addr ∧ row.addr ≠ 0
    · simp only [if_pos hrow, reduceCtorEq, if_false, List.filter_append, filter_pointOf hcut,
        List.filter_filter, Bool.and_self, List.append_assoc, List.singleton_append]
      split
      · rename_i hrest
        rw [hrest]
      · rfl
    · simp only [if_neg hrow]

end

-- ---------------------------------------------------------------------------
-- Ageing
-- ---------------------------------------------------------------------------

section
variable {history : Table UInt16 (List Point)} {cutoff now : Instant} {seen : List UInt16}

theorem foldl_observe_keys (h : history.keys.Nodup) (rows : List Neighbor) :
    (rows.foldl (Monitor.observe cutoff now) history).keys.Nodup := by
  induction rows generalizing history with
  | nil => exact h
  | cons row rest ih =>
    refine ih ?_
    unfold Monitor.observe
    split
    · exact h
    · exact Table.nodup_keys_set _ _ _ h

theorem ageOut_seen (rest : Table UInt16 (List Point)) (hs : addr ∈ seen) :
    Monitor.ageOut cutoff seen ((addr, points) :: rest) =
      (addr, points) :: Monitor.ageOut cutoff seen rest := by
  simp [Monitor.ageOut, hs]

theorem ageOut_forgotten (rest : Table UInt16 (List Point)) (hs : addr ∉ seen)
    (ht : trimBefore cutoff points = []) :
    Monitor.ageOut cutoff seen ((addr, points) :: rest) = Monitor.ageOut cutoff seen rest := by
  simp [Monitor.ageOut, hs, ht]

theorem ageOut_trimmed (rest : Table UInt16 (List Point)) (hs : addr ∉ seen)
    (ht : trimBefore cutoff points = p :: kept) :
    Monitor.ageOut cutoff seen ((addr, points) :: rest) =
      (addr, p :: kept) :: Monitor.ageOut cutoff seen rest := by
  simp [Monitor.ageOut, hs, ht]

theorem ageOut_keys : (Monitor.ageOut cutoff seen history).keys.Sublist history.keys := by
  induction history with
  | nil => exact .slnil
  | cons entry rest ih =>
    obtain ⟨addr, points⟩ := entry
    by_cases hs : addr ∈ seen
    · rw [ageOut_seen rest hs]
      exact ih.cons_cons addr
    · cases ht : trimBefore cutoff points with
      | nil =>
        rw [ageOut_forgotten rest hs ht]
        exact ih.cons addr
      | cons =>
        rw [ageOut_trimmed rest hs ht]
        exact ih.cons_cons addr

theorem pointsIn_cons (rest : Table UInt16 (List Point)) (other addr : UInt16) :
    pointsIn ((other, points) :: rest) addr =
      if other = addr then points else pointsIn rest addr := by
  unfold pointsIn
  by_cases h : other = addr <;> simp [Table.get?, h]

/-- The addresses of a batch stay as they are, the others are trimmed. -/
theorem ageOut_points (h : history.keys.Nodup) (addr : UInt16) :
    pointsIn (Monitor.ageOut cutoff seen history) addr =
      if addr ∈ seen then pointsIn history addr
      else trimBefore cutoff (pointsIn history addr) := by
  induction history with
  | nil => simp [pointsIn, Monitor.ageOut, Table.get?, trimBefore_nil]
  | cons entry rest ih =>
    obtain ⟨other, points⟩ := entry
    obtain ⟨hfirst, hrest⟩ := List.nodup_cons.mp h
    have htail := ih hrest
    by_cases hs : other ∈ seen
    · rw [ageOut_seen rest hs, pointsIn_cons, pointsIn_cons, htail]
      by_cases ha : other = addr
      · subst ha
        simp [hs]
      · simp [ha]
    · cases ht : trimBefore cutoff points with
      | nil =>
        rw [ageOut_forgotten rest hs ht, pointsIn_cons, htail]
        by_cases ha : other = addr
        · -- The address is forgotten, and it has no second entry.
          subst ha
          have hnone : pointsIn rest other = [] := by
            simp [pointsIn, Table.get?_of_not_mem_keys rest hfirst]
          simp [hs, ht, hnone, trimBefore_nil]
        · simp [ha]
      | cons =>
        rw [ageOut_trimmed rest hs ht, pointsIn_cons, pointsIn_cons, htail]
        by_cases ha : other = addr
        · subst ha
          simp [hs, ht]
        · simp [ha]

theorem ageOut_nonempty (hm : (addr, points) ∈ Monitor.ageOut cutoff seen history)
    (hs : addr ∉ seen) : points ≠ [] := by
  induction history with
  | nil => cases hm
  | cons entry rest ih =>
    obtain ⟨other, old⟩ := entry
    by_cases ho : other ∈ seen
    · rw [ageOut_seen rest ho] at hm
      rcases List.mem_cons.mp hm with heq | hm
      · cases heq
        exact absurd ho hs
      · exact ih hm
    · cases ht : trimBefore cutoff old with
      | nil =>
        rw [ageOut_forgotten rest ho ht] at hm
        exact ih hm
      | cons p kept =>
        rw [ageOut_trimmed rest ho ht] at hm
        rcases List.mem_cons.mp hm with heq | hm
        · cases heq
          simp
        · exact ih hm

end

theorem mem_seen_iff (rows : List Neighbor) (batch : BatchMeta) (now : Instant) (addr : UInt16) :
    addr ∈ (rows.map (·.addr)).filter (· ≠ 0) ↔ observed addr (.ingest rows batch now) ≠ [] := by
  simp only [observed, ne_eq, List.map_eq_nil_iff, List.filter_eq_nil_iff, List.mem_filter,
    List.mem_map, decide_eq_true_eq]
  constructor
  · rintro ⟨⟨row, hrow, rfl⟩, hz⟩ hnone
    exact hnone row hrow ⟨rfl, hz⟩
  · intro hsome
    by_contra hout
    refine hsome fun row hrow hm => hout ⟨⟨row, hrow, hm.1⟩, ?_⟩
    rw [← hm.1]
    exact hm.2

theorem observed_seen (hp : p ∈ observed addr u) : p.seen = u.time := by
  cases u with
  | ingest rows batch now =>
    obtain ⟨row, _, rfl⟩ := List.mem_map.mp hp
    rfl
  | describe => cases hp

/-- Address zero is nobody's. -/
theorem observed_zero (u : Update) : observed 0 u = [] := by
  cases u with
  | ingest rows batch now =>
    refine List.map_eq_nil_iff.mpr (List.filter_eq_nil_iff.mpr fun row _ => ?_)
    simp
  | describe => rfl

theorem filter_observed {cutoff : Instant} (hcut : cutoff ≤ u.time) (addr : UInt16) :
    (observed addr u).filter (fun p => decide (cutoff ≤ p.seen)) = observed addr u := by
  refine List.filter_eq_self.mpr fun p hp => ?_
  rw [observed_seen hp]
  exact decide_eq_true hcut

section
variable {m : Monitor} {now : Instant}

/-- A batch adds its observations to what is kept, and the window moves on
over all of it. -/
theorem ingest_points (hcut : now.minus m.settings.historyWindow ≤ now)
    (hk : m.history.keys.Nodup) (ht : ∀ addr, Timely now (m.points addr)) (rows : List Neighbor)
    (batch : BatchMeta) (addr : UInt16) :
    (m.ingest rows batch now).points addr =
      (m.points addr ++ observed addr (.ingest rows batch now)).filter
        fun p => now.minus m.settings.historyWindow ≤ p.seen := by
  have hall := foldl_observe_points hcut ht rows batch addr
  show pointsIn (Monitor.ageOut _ _ _) addr = _
  rw [ageOut_points (foldl_observe_keys hk rows), hall, List.filter_append,
    filter_observed hcut]
  -- Left out of the batch: only the second loop trims. In it: only the first one does.
  by_cases hnew : observed addr (.ingest rows batch now) = []
  · have hout : addr ∉ (rows.map (·.addr)).filter (· ≠ 0) :=
      fun hm => (mem_seen_iff rows batch now addr).mp hm hnew
    rw [if_neg hout, if_pos hnew, hnew, List.append_nil]
    exact trimBefore_eq_filter (ht addr).sorted _
  · rw [if_pos ((mem_seen_iff rows batch now addr).mpr hnew), if_neg hnew]
    rfl

theorem ingest_keys (hk : m.history.keys.Nodup) : (m.ingest rows batch now).history.keys.Nodup :=
  ageOut_keys.nodup (foldl_observe_keys hk rows)

/-- No address is kept without a point. -/
theorem ingest_nonempty (hcut : now.minus m.settings.historyWindow ≤ now)
    (hk : m.history.keys.Nodup) (ht : ∀ addr, Timely now (m.points addr))
    (hm : (addr, points) ∈ (m.ingest rows batch now).history) : points ≠ [] := by
  by_cases hs : addr ∈ (rows.map (·.addr)).filter (· ≠ 0)
  · have hpoints := ingest_points hcut hk ht rows batch addr
    rw [Monitor.points, Table.get?_of_mem _ (ingest_keys hk) hm, Option.getD_some,
      List.filter_append, filter_observed hcut] at hpoints
    rw [hpoints]
    exact List.append_ne_nil_of_right_ne_nil _ ((mem_seen_iff rows batch now addr).mp hs)
  · exact ageOut_nonempty hm hs

end

-- ---------------------------------------------------------------------------
-- All updates
-- ---------------------------------------------------------------------------

theorem logged_append (addr : UInt16) (updates : List Update) (u : Update) :
    logged addr (updates ++ [u]) = logged addr updates ++ observed addr u := by
  simp [logged]

theorem lastIngest?_ingest (updates : List Update) :
    lastIngest? (updates ++ [.ingest rows batch now]) = some now := by
  simp [lastIngest?]

theorem lastIngest?_describe (updates : List Update) :
    lastIngest? (updates ++ [.describe batch now]) = lastIngest? updates := by
  simp [lastIngest?]

/-- Without a batch nothing is logged, and the latest batch is one of the
updates. -/
theorem lastIngest?_cases (updates : List Update) :
    (lastIngest? updates = none ∧ ∀ addr, logged addr updates = []) ∨
    ∃ u ∈ updates, lastIngest? updates = some u.time := by
  induction updates using List.reverseRecOn with
  | nil => exact .inl ⟨rfl, fun _ => rfl⟩
  | append_singleton updates u ih =>
    cases u with
    | ingest rows batch now =>
      refine .inr ⟨.ingest rows batch now, ?_, lastIngest?_ingest updates⟩
      exact List.mem_append_right _ (List.mem_singleton_self _)
    | describe batch now =>
      rw [lastIngest?_describe]
      rcases ih with ⟨hnone, hlog⟩ | ⟨u, hu, hlast⟩
      · refine .inl ⟨hnone, fun addr => ?_⟩
        rw [logged_append, hlog]
        rfl
      · exact .inr ⟨u, List.mem_append_left _ hu, hlast⟩

/-- Updates in order of time, up to the last of them. -/
theorem ordered_append {updates : List Update} {u : Update}
    (h : ((updates ++ [u]).map Update.time).Pairwise (· ≤ ·)) :
    (updates.map Update.time).Pairwise (· ≤ ·) ∧ ∀ v ∈ updates, v.time ≤ u.time := by
  rw [List.map_append, List.pairwise_append] at h
  exact ⟨h.1, fun v hv => h.2.2 _ (List.mem_map_of_mem hv) _ (by simp)⟩

theorem logged_timely {updates : List Update}
    (h : (updates.map Update.time).Pairwise (· ≤ ·)) (hb : ∀ u ∈ updates, u.time ≤ now)
    (addr : UInt16) : Timely now (logged addr updates) := by
  induction updates using List.reverseRecOn generalizing now with
  | nil => exact .nil
  | append_singleton updates u ih =>
    obtain ⟨hbefore, hle⟩ := ordered_append h
    rw [logged_append]
    refine .mono ?_ (hb u (by simp))
    exact (ih hbefore hle).append fun p hp => observed_seen hp

theorem retained_timely {updates : List Update}
    (h : (updates.map Update.time).Pairwise (· ≤ ·)) (hb : ∀ u ∈ updates, u.time ≤ now)
    (addr : UInt16) : Timely now (retained window updates addr) := by
  unfold retained
  split
  · exact .nil
  · exact (logged_timely h hb addr).filter _

/-- The window of a later batch holds of the log what it holds of the points
kept so far. -/
theorem retained_ingest {updates : List Update} (hb : ∀ u ∈ updates, u.time ≤ now)
    (window : Duration) (rows : List Neighbor) (batch : BatchMeta) (addr : UInt16) :
    retained window (updates ++ [.ingest rows batch now]) addr =
      (retained window updates addr ++ observed addr (.ingest rows batch now)).filter
        fun p => now.minus window ≤ p.seen := by
  simp only [retained, lastIngest?_ingest, logged_append, List.filter_append]
  rcases lastIngest?_cases updates with ⟨hnone, hlog⟩ | ⟨u, hu, hlast⟩
  · simp [hnone, hlog]
  · have hle : u.time.minus window ≤ now.minus window := Int.sub_le_sub_right (hb u hu) _
    have hkeep : ∀ p : Point, (now.minus window ≤ p.seen ∧ u.time.minus window ≤ p.seen) ↔
        now.minus window ≤ p.seen :=
      fun p => ⟨And.left, fun hp => ⟨hp, Int.le_trans hle hp⟩⟩
    simp only [hlast, List.filter_filter, ← Bool.decide_and, hkeep]

/-- What every update keeps of a monitor. -/
structure Kept (window : Duration) (m : Monitor) (updates : List Update) : Prop where
  setting : m.settings.historyWindow = window
  keys : m.history.keys.Nodup
  nonempty : ∀ addr points, (addr, points) ∈ m.history → points ≠ []
  points : ∀ addr, m.points addr = retained window updates addr

theorem kept_apply {m : Monitor} (hk : Kept window m updates) (hw : 0 < window.toInt)
    (h : ((updates ++ [u]).map Update.time).Pairwise (· ≤ ·)) :
    Kept window (m.apply u) (updates ++ [u]) := by
  obtain ⟨hbefore, hb⟩ := ordered_append h
  cases u with
  | describe batch now =>
    refine ⟨hk.setting, hk.keys, hk.nonempty, fun addr => ?_⟩
    refine (hk.points addr).trans ?_
    simp [retained, lastIngest?_describe, logged_append, observed]
  | ingest rows batch now =>
    have hle : ∀ v ∈ updates, v.time ≤ now := hb
    have ht : ∀ addr, Timely now (m.points addr) := by
      intro addr
      rw [hk.points]
      exact retained_timely hbefore hle addr
    have hcut : now.minus m.settings.historyWindow ≤ now := by
      rw [hk.setting]
      exact Int.sub_le_self now (Int.le_of_lt hw)
    refine ⟨hk.setting, ingest_keys hk.keys, ?_, ?_⟩
    · exact fun addr points hm => ingest_nonempty hcut hk.keys ht hm
    · intro addr
      rw [retained_ingest hle, ← hk.points, ← hk.setting]
      exact ingest_points hcut hk.keys ht rows batch addr

theorem window_pos (settings : Settings) : 0 < settings.effective.historyWindow.toInt :=
  Duration.orElse_pos (by decide) settings.historyWindow

theorem kept_after (settings : Settings) {updates : List Update}
    (h : (updates.map Update.time).Pairwise (· ≤ ·)) :
    Kept settings.effective.historyWindow (.after settings updates) updates := by
  induction updates using List.reverseRecOn with
  | nil => exact ⟨rfl, .nil, by simp [Monitor.after, Monitor.new], fun _ => rfl⟩
  | append_singleton updates u ih =>
    rw [Monitor.after, List.foldl_append]
    exact kept_apply (ih (ordered_append h).1) (window_pos settings) h

-- ---------------------------------------------------------------------------
-- What is shown
-- ---------------------------------------------------------------------------

theorem Kept.tracked {m : Monitor} (hk : Kept window m updates) :
    m.tracked = { addr | retained window updates addr ≠ [] }.ncard := by
  have hset : { addr | retained window updates addr ≠ [] } = ↑m.history.keys.toFinset := by
    ext addr
    rw [List.coe_toFinset]
    show retained window updates addr ≠ [] ↔ addr ∈ m.history.keys
    rw [← hk.points, Monitor.points]
    constructor
    · intro hne
      cases hget : m.history.get? addr with
      | none => simp [hget] at hne
      | some points => exact List.mem_map.mpr ⟨_, Table.mem_of_get? _ hget, rfl⟩
    · intro hm
      obtain ⟨⟨addr', points⟩, hentry, rfl⟩ := List.mem_map.mp hm
      rw [Table.get?_of_mem _ hk.keys hentry, Option.getD_some]
      exact hk.nonempty addr' points hentry
  rw [hset, Set.ncard_coe_finset, List.toFinset_card_of_nodup hk.keys]
  simp [Monitor.tracked, Table.keys]

theorem logged_zero (updates : List Update) : logged 0 updates = [] :=
  List.flatMap_eq_nil_iff.mpr fun u _ => observed_zero u

theorem Kept.zero {m : Monitor} (hk : Kept window m updates) : m.history.get? 0 = none := by
  have hpoints : m.points 0 = [] := by
    rw [hk.points, retained]
    split
    · rfl
    · rw [logged_zero]
      rfl
  cases hget : m.history.get? 0 with
  | none => rfl
  | some points =>
    have hne := hk.nonempty 0 points (Table.mem_of_get? _ hget)
    rw [Monitor.points, hget] at hpoints
    exact absurd hpoints hne

theorem trendOf_few (h : points.length < 2) : Monitor.trendOf points = .notApplicable := by
  unfold Monitor.trendOf
  split
  · rw [if_pos h]
  · rfl

theorem trendOf_change (h : 2 ≤ points.length) (hf : points.head? = some first)
    (hl : points.getLast? = some last) :
    Monitor.trendOf points = .ofChange ((last.score : Int) - first.score) := by
  simp only [Monitor.trendOf, hf, hl, if_neg (Nat.not_lt.mpr h), Trend.ofChange]
  have hup : first.score < last.score ↔ 0 < (last.score : Int) - first.score := by omega
  have hdown : last.score < first.score ↔ (last.score : Int) - first.score < 0 := by omega
  simp only [hup, hdown]

/-- After each of any updates told in order of time. -/
theorem shows_window (settings : Settings) (updates : List Update)
    (h : (updates.map Update.time).Pairwise (· ≤ ·)) :
    Shows (.after settings updates) (retained settings.effective.historyWindow updates) := by
  have hk := kept_after settings h
  refine ⟨hk.points, hk.tracked, hk.zero, ?_, ?_⟩
  · intro addr hfew
    rw [← hk.points] at hfew
    exact trendOf_few hfew
  · intro addr first last hlen hf hl
    rw [← hk.points] at hlen hf hl
    exact trendOf_change hlen hf hl

/-- The third batch leaves address 9 out, and the first one lies just beyond
its window. -/
def threeBatches : List Update := [
  .ingest [{ addr := 7, quality := "good" }, { addr := 9, quality := "good" }] {} 0,
  .ingest [{ addr := 7, quality := "fair" }, { addr := 7, quality := "bad" }] {} 1000000000,
  .describe {} 1000000001,
  .ingest [{ addr := 7, quality := "good" }, {}] {} 2000000000]

theorem shows_threeBatches :
    (threeBatches.map Update.time).Pairwise (· ≤ ·) ∧
    (Monitor.after { historyWindow := Duration.second } threeBatches).points 7 =
      [⟨1000000000, 2⟩, ⟨1000000000, 1⟩, ⟨2000000000, 3⟩] ∧
    (Monitor.after { historyWindow := Duration.second } threeBatches).points 9 = [] := by
  have hordered : (threeBatches.map Update.time).Pairwise (· ≤ ·) := by decide
  have hshows := shows_window { historyWindow := Duration.second } threeBatches hordered
  refine ⟨hordered, (hshows.history 7).trans ?_, (hshows.history 9).trans ?_⟩
  · decide +kernel
  · decide +kernel

end MeshConsole.Radio
