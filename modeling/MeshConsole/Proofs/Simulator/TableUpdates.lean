import MeshConsole.Proofs.Elapsed
import MeshConsole.Proofs.Radio.Freshness
import MeshConsole.Proofs.Simulator.JobHistory
import MeshConsole.Proofs.Simulator.LinkTables

/-!
# Updates of the link table

The simulator stamps its link table with its uptime, and moves the stamp on by
one where no millisecond has passed. So every update is told from the one before
it (`updates_stamped`), whatever else is asked of the simulator in between, and
a client takes each of them for news (`updates_fresh`).
-/

namespace MeshConsole.Simulator

-- ---------------------------------------------------------------------------
-- Updates of a run
-- ---------------------------------------------------------------------------

/-- Whether the request is the poll at which a refresh of the table
succeeds. -/
def completesRefresh (s : Simulator) (now : Instant) (r : Incoming) : Bool :=
  match r.polled? >>= s.jobs.get? with
  | none => false
  | some job =>
    job.type == "lqi_refresh" && !job.isDone && (s.pollJob now job).2.1.state == "succeeded"

/-- Whether the table is set, drifts or is refreshed. -/
def updatesTable (s : Simulator) (now : Instant) : Step → Bool
  | .setNeighbors .. => true
  | .drift _ => true
  | .request r => s.completesRefresh now r
  | _ => false

/-- The turns of a run that update the table. -/
def updates : Simulator → List (Instant × Step) → List Turn
  | _, [] => []
  | s, (now, step) :: rest =>
    let later := updates (s.turn now step).after rest
    if s.updatesTable now step then s.turn now step :: later else later

def pushedTables (s : Simulator) (steps : List (Instant × Step)) : List Text :=
  (updates s steps).flatMap fun t => frames t.effects

/-- The table that a client takes from a frame. -/
def tableOf? (frame : Text) : Option LinkTable :=
  match (Push.decode frame).toOption >>= Push.Message.payload? with
  | some (.ok (.links table)) => some table
  | _ => none

/-- The table has been stamped anew, with all of its rows, and it is pushed
once; who decodes the frame finds the table in it. -/
structure Stamps (s : Simulator) (now : Instant) (next : Simulator) (effects : List Effect) :
    Prop where
  started : next.started = s.started
  moved : next.tableMs = max (s.uptimeMs now) (s.tableMs + 1)
  rows : ∀ n ∈ next.neighbors, n.updatedMs = next.tableMs
  pushes : ∃ frame, effects = [.push frame] ∧ tableOf? frame = some next.linkTable.scrubbed

/-- What becomes of a row when the indicators drift. -/
structure Drifts (n n' : Neighbor) : Prop where
  same : { n' with lqi := n.lqi, quality := n.quality, updatedMs := n.updatedMs } = n
  without : n.lqi = none → n'.lqi = none ∧ n'.quality = n.quality
  graded : n.lqi.isSome = true → ∃ lqi, n'.lqi = some lqi ∧ 1 ≤ lqi ∧ lqi ≤ 255 ∧
    n'.quality = if 180 ≤ lqi then "good" else if 120 ≤ lqi then "warn" else "bad"

/-- The greatest uptime that fits a duration, in milliseconds. -/
def longestUptime : Nat := 9223372036854

-- ---------------------------------------------------------------------------
-- One update
-- ---------------------------------------------------------------------------

theorem tableOf?_frame {s : Simulator} {now : Instant} {seq : UInt64} {table : LinkTable}
    {rows : List Neighbor} (hrows : table.neighbors = some rows) {frame : Text}
    (h : s.frame? now seq "lqi_update" table.toJson = some frame) :
    tableOf? frame = some table.scrubbed := by
  have hkind : Push.Kind.ofType? ("lqi_update" : Text).scrub = some .linkUpdate := by decide
  have hpayload : (s.announcement now seq "lqi_update" table.toJson).payload? =
      some (.ok (.links table.scrubbed)) := by
    simp only [announcement, hkind, Push.Message.payload?, Option.getD_some, Option.map_some,
      decode_scrubbed hrows]
    rfl
  simp only [tableOf?, decode_frame? h, Except.toOption, Option.bind_eq_bind, Option.bind_some,
    hpayload]

section
variable (s : Simulator) (now : Instant)

theorem stamps_pushTable (source : Text) (rows : List Neighbor)
    (hrows : ∀ n ∈ rows, n.updatedMs = (s.touchTable now).tableMs) :
    Stamps s now ({ s.touchTable now with source, neighbors := rows }.pushTable now).1
      ({ s.touchTable now with source, neighbors := rows }.pushTable now).2 := by
  let table : Simulator := { s.touchTable now with source, neighbors := rows }
  obtain ⟨frame, hframe, hpush⟩ :=
    broadcast_plain (plain_table rfl : Json.Value.Plain 3 table.linkTable.toJson) table now
      "lqi_update"
  have hpush : table.pushTable now = _ := hpush
  rw [hpush]
  exact ⟨rfl, rfl, hrows, frame, rfl, tableOf?_frame rfl hframe⟩

theorem stamps_setNeighbors (source : Text) (rows : List Neighbor) :
    Stamps s now (s.setNeighbors now source rows).1 (s.setNeighbors now source rows).2 := by
  refine stamps_pushTable s now source _ fun n hn => ?_
  obtain ⟨row, -, rfl⟩ := List.mem_map.mp hn
  rfl

theorem stamps_refreshTable : Stamps s now (s.refreshTable now).1 (s.refreshTable now).2 := by
  refine stamps_pushTable s now s.source _ fun n hn => ?_
  obtain ⟨row, -, rfl⟩ := List.mem_map.mp hn
  rfl

theorem stamps_drift (delta : UInt16 → Int64) :
    Stamps s now (s.drift now delta).1 (s.drift now delta).2 := by
  have hstamps := stamps_refreshTable { s with neighbors := s.neighbors.map fun n =>
    { n with lqi := n.lqi.map fun lqi => min (max (lqi + delta n.addr) 1) 255 } } now
  exact ⟨hstamps.started, hstamps.moved, hstamps.rows, hstamps.pushes⟩

theorem uptimeMs_le (h : s.started ≤ now) : (s.uptimeMs now).toNat ≤ longestUptime := by
  have hmillisecond : Duration.millisecond.toInt = 1000000 := by decide
  have hgreatest : Int64.maxValue.toInt = 9223372036854775807 := by decide
  have hleast : Int64.minValue.toInt = -9223372036854775808 := by decide
  have hspan := Instant.toInt_since now s.started
  have hpast : (0 : Int) ≤ now - s.started := Int.sub_nonneg.mpr h
  have hdiv := Int64.toInt_div_of_ne_right (now.since s.started) Duration.millisecond (by decide)
  rw [uptimeMs, hdiv, hmillisecond, Int.tdiv_eq_ediv_of_nonneg (by omega), longestUptime]
  rw [UInt64.ofInt, UInt64.toNat_ofNat']
  omega

/-- A stamp is later than the one before it, as long as there is room for it. -/
theorem Stamps.later {s next : Simulator} {now : Instant} {effects : List Effect}
    (h : Stamps s now next effects) (hstarted : s.started ≤ now)
    (hroom : s.tableMs.toNat + 1 < 2 ^ 64) :
    s.tableMs < next.tableMs ∧
      next.tableMs.toNat ≤ max longestUptime (s.tableMs.toNat + 1) := by
  have huptime := uptimeMs_le s now hstarted
  have hnext : (s.tableMs + 1).toNat = s.tableMs.toNat + 1 := by
    rw [UInt64.toNat_add]
    exact Nat.mod_eq_of_lt hroom
  rw [h.moved, UInt64.lt_iff_toNat_lt, UInt64.toNat_max, hnext]
  omega

end

theorem grade_name {lqi : Int64} (h : 1 ≤ lqi) :
    (grade lqi).name = if 180 ≤ lqi then "good" else if 120 ≤ lqi then "warn" else "bad" := by
  have hpos : ¬ lqi ≤ 0 := Int64.not_le.mpr (Int64.lt_of_lt_of_le (by decide : (0 : Int64) < 1) h)
  rw [grade, if_neg hpos]
  split
  · rfl
  · split <;> rfl

/-- The limits hold also where the sum wraps around. -/
theorem clamp_bounds (v : Int64) : 1 ≤ min (max v 1) 255 ∧ min (max v 1) 255 ≤ 255 := by
  by_cases hlow : v ≤ 1
  · have hmax : max v 1 = 1 := if_pos hlow
    rw [hmax]
    decide
  · have hmax : max v 1 = v := if_neg hlow
    rw [hmax]
    by_cases hhigh : v ≤ 255
    · have hmin : min v 255 = v := if_pos hhigh
      rw [hmin]
      exact ⟨Int64.le_of_lt (Int64.not_le.mp hlow), hhigh⟩
    · have hmin : min v 255 = 255 := if_neg hhigh
      rw [hmin]
      decide

theorem drifts_drift (s : Simulator) (now : Instant) (delta : UInt16 → Int64) :
    List.Forall₂ Drifts s.neighbors (s.drift now delta).1.neighbors := by
  have hrows : (s.drift now delta).1.neighbors = s.neighbors.map _ := List.map_map
  rw [hrows, List.forall₂_map_right_iff]
  refine List.forall₂_same.mpr fun n _ => ?_
  cases hlqi : n.lqi with
  | none =>
    have hnone : n.lqi.isSome = false := by rw [hlqi]; rfl
    refine ⟨rfl, fun _ => ?_, fun hsome => absurd hsome (by simp [hnone])⟩
    simp [hlqi]
  | some lqi =>
    obtain ⟨hleast, hgreatest⟩ := clamp_bounds (lqi + delta n.addr)
    refine ⟨rfl, fun hnone => ?_, fun _ => ⟨_, ?_, hleast, hgreatest, ?_⟩⟩
    · simp [hlqi] at hnone
    · simp [hlqi]
    · simpa [hlqi] using grade_name hleast

-- ---------------------------------------------------------------------------
-- One turn
-- ---------------------------------------------------------------------------

/-- An update stamps the table; whatever else is done leaves it alone. -/
inductive Settles (s : Simulator) (now : Instant) :
    Bool → Simulator → List Effect → Prop where
  | stamped {next : Simulator} {effects : List Effect} : Stamps s now next effects →
      Settles s now true next effects
  | apart {next : Simulator} {effects : List Effect} : next.started = s.started →
      next.linkTable = s.linkTable → Settles s now false next effects

theorem Polled.settles {s next : Simulator} {now : Instant} {job job' : SimJob}
    {effects : List Effect} (h : Polled s now job next job' effects)
    (hknown : job.type ∈ jobTypes) :
    Settles s now (job.type == "lqi_refresh" && !job.isDone && job'.state == "succeeded") next
      effects := by
  cases h with
  | ended hdone =>
    rw [hdone, Bool.not_true, Bool.and_false, Bool.false_and]
    exact .apart rfl rfl
  | running _ _ hstate =>
    rw [hstate, (by decide : (("running" : Text) == "succeeded") = false), Bool.and_false]
    exact .apart rfl rfl
  | failed _ _ hstate =>
    rw [hstate, (by decide : (("failed" : Text) == "succeeded") = false), Bool.and_false]
    exact .apart rfl rfl
  | succeeded hopen _ hstate =>
    rw [hopen, hstate, Bool.not_false, Bool.and_true, beq_self_eq_true, Bool.and_true]
    by_cases htype : job.type = "lqi_refresh"
    · have hstamps : Stamps s now (s.execute now job).1 (s.execute now job).2.2 := by
        unfold execute
        rw [htype]
        exact stamps_refreshTable s now
      rw [htype, beq_self_eq_true]
      exact .stamped ⟨hstamps.started, hstamps.moved, hstamps.rows, hstamps.pushes⟩
    · rw [beq_eq_false_iff_ne.mpr htype]
      obtain ⟨_, _, _, hframe⟩ := execute_frame s now job
      have hstarted : (s.execute now job).1.started = s.started := by rw [hframe]
      exact .apart hstarted (execute_other s now hknown htype).table

/-- A turn updates the table, or leaves it alone. -/
theorem settles_turn {s : Simulator} (hkept : ∀ id job, s.jobs.get? id = some job → job.IsKept id)
    (now : Instant) (step : Step) :
    Settles s now (s.updatesTable now step) (s.turn now step).after (s.turn now step).effects := by
  cases step with
  | setNeighbors source rows => exact .stamped (stamps_setNeighbors s now source rows)
  | drift delta => exact .stamped (stamps_drift s now delta)
  | setDevices | broadcast => exact .apart rfl rfl
  | configure setting => cases setting <;> exact .apart rfl rfl
  | request r =>
    show Settles s now (s.completesRefresh now r) (s.serve now r).simulator (s.serve now r).effects
    unfold completesRefresh
    cases hpolled : r.polled? >>= s.jobs.get? with
    | some job =>
      obtain ⟨id, hid, hjob⟩ := Option.bind_eq_some_iff.mp hpolled
      rw [serve_polled hid hjob]
      exact (pollJob_cases s now job).settles (hkept id job hjob).type
    | none =>
      have hserves := serve_cases s now r
      generalize s.serve now r = served at hserves ⊢
      cases hserves with
      | refused hrefuses =>
        rw [hrefuses.simulator]
        exact .apart rfl rfl
      | polls hid hjob => simp [hid, hjob] at hpolled
      | shows | queues | admits | commands | lists | saves => exact .apart rfl rfl

-- ---------------------------------------------------------------------------
-- A run
-- ---------------------------------------------------------------------------

theorem updates_stamped (steps : List (Instant × Step)) {s : Simulator} {count : Nat}
    (horderly : Orderly s count) (hstarted : ∀ e ∈ steps, s.started ≤ e.1)
    (hroom : max s.tableMs.toNat longestUptime + (updates s steps).length < 2 ^ 64) :
    (s.tableMs :: (updates s steps).map (·.after.tableMs)).Pairwise (· < ·) ∧
      ∀ t ∈ updates s steps, Stamps t.before t.now t.after t.effects := by
  induction steps generalizing s count with
  | nil => exact ⟨List.pairwise_singleton _ _, List.forall_mem_nil _⟩
  | cons step steps ih =>
    obtain ⟨now, step⟩ := step
    obtain ⟨hnow, hlater⟩ := List.forall_mem_cons.mp hstarted
    have hnext := orderly_turn (turn_moves s now step) horderly
    have hsettles := settles_turn (fun id job hjob => (horderly.kept id job hjob).1) now step
    rw [updates] at hroom ⊢
    cases hupdate : s.updatesTable now step with
    | true =>
      rw [hupdate] at hroom hsettles
      cases hsettles with
      | stamped hstamps =>
        rw [if_pos rfl] at hroom ⊢
        rw [List.length_cons] at hroom
        -- The stamp uses up the room of this update, or is an uptime, for which there is room.
        obtain ⟨hgreater, hleast⟩ := hstamps.later hnow (by omega)
        obtain ⟨hincreasing, hall⟩ := ih hnext (by rwa [hstamps.started]) (by omega)
        obtain ⟨hfollowing, -⟩ := List.pairwise_cons.mp hincreasing
        refine ⟨?_, List.forall_mem_cons.mpr ⟨hstamps, hall⟩⟩
        exact List.pairwise_cons.mpr ⟨List.forall_mem_cons.mpr ⟨hgreater, fun stamp hstamp =>
          UInt64.lt_trans hgreater (hfollowing stamp hstamp)⟩, hincreasing⟩
    | false =>
      rw [hupdate] at hroom hsettles
      cases hsettles with
      | apart hsame htable =>
        have hstamp : (s.turn now step).after.tableMs = s.tableMs :=
          congrArg LinkTable.updatedMs htable
        have hrest := ih hnext (by rwa [hsame]) (by rwa [hstamp])
        rw [hstamp] at hrest
        exact hrest

-- ---------------------------------------------------------------------------
-- At the client
-- ---------------------------------------------------------------------------

structure Arrival where
  frame : Text
  time : Instant

/-- What the client takes in of a frame. -/
def Arrival.update? (a : Arrival) : Option Radio.Update :=
  (tableOf? a.frame).map fun table => .ingest table.rows table.batchMeta a.time

/-- The stamps of the tables in some frames. -/
def stampsOf (pushed : List Text) : List UInt64 :=
  pushed.filterMap fun frame => (tableOf? frame).map LinkTable.updatedMs

theorem stampsOf_updates (ts : List Turn)
    (h : ∀ t ∈ ts, Stamps t.before t.now t.after t.effects) :
    stampsOf (ts.flatMap fun t => frames t.effects) = ts.map (·.after.tableMs) := by
  induction ts with
  | nil => rfl
  | cons t ts ih =>
    obtain ⟨hfirst, hrest⟩ := List.forall_mem_cons.mp h
    obtain ⟨frame, heffects, htable⟩ := hfirst.pushes
    have hframes : frames t.effects = [frame] := by rw [heffects]; rfl
    rw [List.flatMap_cons, hframes, List.map_cons, ← ih hrest]
    simp [stampsOf, htable]
    rfl

theorem counters_arrivals (arrivals : List Arrival) :
    (arrivals.filterMap Arrival.update?).map Radio.Update.counter =
      stampsOf (arrivals.map Arrival.frame) := by
  rw [stampsOf, List.map_filterMap, List.filterMap_map]
  refine List.filterMap_congr fun a _ => ?_
  simp [Arrival.update?, Option.map_map]
  rfl

theorem fresh_of_news (settings : Radio.Settings) {earlier : List Radio.Update} {u : Radio.Update}
    (hnews : earlier.getLast?.map Radio.Update.counter ≠ some u.counter) :
    (Radio.Monitor.after settings (earlier ++ [u])).isStale u.time = false ∧
      (Radio.Monitor.after settings (earlier ++ [u])).ageSeconds? u.time = some 0 := by
  have hanchored := Radio.anchored_after settings (earlier ++ [u])
  have hne : earlier ++ [u] ≠ [] := by simp
  have hanchor : Radio.anchor? (earlier ++ [u]) = some u.time := by
    rw [Radio.anchor?_append, if_neg hnews]
  have htime : (Radio.Monitor.after settings (earlier ++ [u])).anchor = u.time :=
    Option.some.inj ((hanchored.anchor?_eq_some hne).symm.trans hanchor)
  have hspan : Radio.Measurable (earlier ++ [u]) u.time := by
    intro t ht
    obtain rfl := Option.some.inj (hanchor.symm.trans ht)
    rw [Int.sub_self]
    decide
  constructor
  · rw [Bool.eq_false_iff, Ne, hanchored.isStale_iff hspan, htime, Int.sub_self]
    exact fun h => h.elim hne (Int.not_lt.mpr (Int.le_of_lt (Radio.threshold_pos settings)))
  · rw [hanchored.ageSeconds? hspan, if_neg hne, htime, Int.sub_self]
    rfl

theorem fresh_of_increasing (settings : Radio.Settings) {arrivals : List Arrival} {a : Arrival}
    (hread : (tableOf? a.frame).isSome = true)
    (hincreasing : (stampsOf ((arrivals ++ [a]).map Arrival.frame)).Pairwise (· < ·)) :
    (Radio.Monitor.after settings ((arrivals ++ [a]).filterMap Arrival.update?)).isStale a.time =
        false ∧
      (Radio.Monitor.after settings ((arrivals ++ [a]).filterMap Arrival.update?)).ageSeconds?
        a.time = some 0 := by
  obtain ⟨table, htable⟩ := Option.isSome_iff_exists.mp hread
  let u : Radio.Update := .ingest table.rows table.batchMeta a.time
  have hupdate : a.update? = some u := by rw [Arrival.update?, htable]; rfl
  have hupdates : (arrivals ++ [a]).filterMap Arrival.update? =
      arrivals.filterMap Arrival.update? ++ [u] := by simp [hupdate]
  rw [← counters_arrivals, hupdates, List.map_append] at hincreasing
  have hless := (List.pairwise_append.mp hincreasing).2.2
  rw [hupdates]
  refine fresh_of_news settings fun hsame => ?_
  obtain ⟨last, hlast, hcounter⟩ := Option.map_eq_some_iff.mp hsame
  have hlater := hless last.counter (List.mem_map_of_mem (List.mem_of_getLast? hlast)) u.counter
    (List.mem_singleton_self _)
  exact UInt64.ne_of_lt hlater hcounter

/-- The updates of a run: each has a stamp of its own, and none passes for an
earlier one at a client. -/
structure IsStamped (s : Simulator) (steps : List (Instant × Step)) : Prop where
  increasing : (s.tableMs :: (updates s steps).map (·.after.tableMs)).Pairwise (· < ·)
  stamps : ∀ t ∈ updates s steps, Stamps t.before t.now t.after t.effects
  /-- A client that takes in the frames in order, at any times, also if it
  misses some. -/
  fresh : ∀ (settings : Radio.Settings) (arrivals : List Arrival) (a : Arrival),
    ((arrivals ++ [a]).map Arrival.frame).Sublist (pushedTables s steps) →
      (Radio.Monitor.after settings ((arrivals ++ [a]).filterMap Arrival.update?)).isStale a.time =
          false ∧
        (Radio.Monitor.after settings ((arrivals ++ [a]).filterMap Arrival.update?)).ageSeconds?
          a.time = some 0

/-- Whatever becomes of a simulator that has no job yet, from its start on: as
long as there is room for the stamps, each update of the link table is stamped
later than those before it, and is fresh at a client when it comes. What drifts
is graded by what it has become, within the limits. -/
theorem updates_fresh (s : Simulator) (steps : List (Instant × Step)) (hjobs : s.jobs = [])
    (hlast : s.lastJobId = 0) (hstarted : ∀ e ∈ steps, s.started ≤ e.1)
    (hroom : max s.tableMs.toNat longestUptime + (updates s steps).length < 2 ^ 64) :
    IsStamped s steps ∧
      ∀ (s : Simulator) (now : Instant) (delta : UInt16 → Int64),
        List.Forall₂ Drifts s.neighbors (s.drift now delta).1.neighbors := by
  obtain ⟨hincreasing, hall⟩ := updates_stamped steps (orderly_new hjobs hlast) hstarted hroom
  refine ⟨⟨hincreasing, hall, fun settings arrivals a hsub => ?_⟩, drifts_drift⟩
  have hread : (tableOf? a.frame).isSome = true := by
    have hmem : a.frame ∈ pushedTables s steps :=
      hsub.subset (List.mem_map_of_mem (List.mem_append_right _ (List.mem_singleton_self a)))
    obtain ⟨t, ht, hframe⟩ := List.mem_flatMap.mp hmem
    obtain ⟨frame, heffects, htable⟩ := (hall t ht).pushes
    rw [heffects] at hframe
    obtain rfl : a.frame = frame := List.mem_singleton.mp hframe
    rw [htable]
    rfl
  refine fresh_of_increasing settings hread ?_
  have hstamps : stampsOf (pushedTables s steps) = (updates s steps).map (·.after.tableMs) :=
    stampsOf_updates _ hall
  exact ((List.pairwise_cons.mp hincreasing).2.sublist (hstamps ▸ hsub.filterMap _))

/-- Three updates within a millisecond, one of them a refresh, and one after
five seconds. -/
def burstRun : List (Instant × Step) := [
  (0, .setNeighbors "neighbor_table" [{ addr := 0x1001, lqi := some 90 }, { addr := 0x1002 }]),
  (200000, .request {
    method := "POST", url := { path := "/api/v1/jobs" }
    body := "\x7b\"type\": \"lqi_refresh\"\x7d" }),
  (300000, .request { method := "GET", url := { path := "/api/v1/jobs/1" } }),
  (400000, .request { method := "GET", url := { path := "/api/v1/jobs/1" } }),
  (500000, .request { method := "GET", url := { path := "/api/v1/jobs/1" } }),
  (900000, .drift fun _ => 100),
  (5000000000, .drift fun _ => Int64.maxValue)]

theorem fresh_burstRun :
    (updates {} burstRun).map (·.after.tableMs) = [1, 2, 3, 5000] ∧
    ((updates {} burstRun).map fun t => t.after.neighbors.map fun n => (n.lqi, n.quality)) = [
      [(some 90, []), (none, [])], [(some 90, "bad"), (none, [])],
      [(some 190, "good"), (none, [])], [(some 1, "bad"), (none, [])]] ∧
    IsStamped {} burstRun := by
  have hstarted : ∀ e ∈ burstRun, (0 : Int) ≤ e.1 := by simp [burstRun]
  have hstamps : (updates {} burstRun).map (·.after.tableMs) = [1, 2, 3, 5000] := by decide +kernel
  have hcount : (updates {} burstRun).length = 4 := by
    rw [← List.length_map, hstamps]
    rfl
  have hroom : max (0 : UInt64).toNat longestUptime + (updates {} burstRun).length < 2 ^ 64 := by
    rw [hcount]
    decide
  exact ⟨hstamps, by decide +kernel, (updates_fresh {} burstRun rfl rfl hstarted hroom).1⟩

end MeshConsole.Simulator
