import Mathlib.Data.Fintype.Card
import Mathlib.Data.Fintype.Fin
import MeshConsole.Proofs.Job.Submission
import MeshConsole.Proofs.Push.Accounting

/-!
# The job board

Any number of submissions publish job changes, and a board folds them one by
one in some order that keeps the order of each submission. `jobs_shown`: as
long as submissions that overlap have different job ids, the board shows
just the jobs that are under way, and enters each closed job once.
-/

namespace MeshConsole.Telemetry

open Job (Submission Orderly Closed)

-- ---------------------------------------------------------------------------
-- Folding job changes
-- ---------------------------------------------------------------------------

/-- How a change enters the table of active jobs. -/
def track (active : Table Int64 JobChange) (change : JobChange) : Table Int64 JobChange :=
  if isTerminal change.state then active.erase change.id else active.set change.id change

/-- A closed job is entered among the recent ones. -/
def enter (recent : Ring JobChange) (change : JobChange) : Ring JobChange :=
  if isTerminal change.state then recent.push change else recent

def tally (counts : Table Text UInt64) (change : JobChange) : Table Text UInt64 :=
  counts.count change.state

theorem get?_track (active : Table Int64 JobChange) (change : JobChange) (id : Int64) :
    (track active change).get? id =
      if change.id = id then if isTerminal change.state then none else some change
      else active.get? id := by
  unfold track
  split
  · rw [Table.get?_erase]
  · rw [Table.get?_set]

theorem nodup_track (active : Table Int64 JobChange) (change : JobChange)
    (h : active.keys.Nodup) : (track active change).keys.Nodup := by
  unfold track
  split
  · exact (List.filter_sublist.map Prod.fst).nodup h
  · exact active.nodup_keys_set change.id change h

theorem nodup_foldl_track (changes : List JobChange) (active : Table Int64 JobChange)
    (h : active.keys.Nodup) : (changes.foldl track active).keys.Nodup := by
  induction changes generalizing active with
  | nil => exact h
  | cons change rest ih => exact ih _ (nodup_track active change h)

theorem get?_foldl_tally (changes : List JobChange) (counts : Table Text UInt64) (state : Text) :
    ((changes.foldl tally counts).get? state).getD 0 =
      (counts.get? state).getD 0 + UInt64.ofNat (changes.countP (·.state = state)) := by
  have hstates : changes.foldl tally counts =
      (changes.map JobChange.state).foldl (fun t state => t.count state) counts := by
    rw [List.foldl_map]
    rfl
  have hcount : (changes.map JobChange.state).countP (· = state) =
      changes.countP (·.state = state) := List.countP_map
  rw [hstates, Table.get?_foldl_count, hcount]
  split
  · simp [*]
  · rfl

theorem fold_jobs (b : Board) (now : Instant) (event : Event) :
    (b.fold now event).activeJobs =
        event.jobChange?.elim b.activeJobs (track b.activeJobs) ∧
    (b.fold now event).recentJobs =
        event.jobChange?.elim b.recentJobs (enter b.recentJobs) ∧
    (b.fold now event).jobsByState =
        event.jobChange?.elim b.jobsByState (tally b.jobsByState) := by
  cases event with
  | job change =>
    simp only [Board.fold, Board.foldJob, Event.jobChange?, Option.elim_some, track, enter, tally]
    split <;> exact ⟨rfl, rfl, rfl⟩
  | _ => exact ⟨rfl, rfl, rfl⟩

/-- What a board makes of job changes, whatever else it folds between them. -/
theorem after_jobs (b : Board) (events : List (Instant × Event)) :
    (b.after events).activeJobs =
        ((events.map Prod.snd).filterMap Event.jobChange?).foldl track b.activeJobs ∧
    (b.after events).recentJobs =
        (((events.map Prod.snd).filterMap Event.jobChange?).filter (isTerminal ·.state)).foldl
          Ring.push b.recentJobs ∧
    (b.after events).jobsByState =
        ((events.map Prod.snd).filterMap Event.jobChange?).foldl tally b.jobsByState := by
  refine ⟨?_, ?_, ?_⟩
  · exact Board.after_view Board.activeJobs
      (fun b now event => (fold_jobs b now event).1) b events
  · rw [List.foldl_filter]
    exact Board.after_view Board.recentJobs
      (fun b now event => (fold_jobs b now event).2.1) b events
  · exact Board.after_view Board.jobsByState
      (fun b now event => (fold_jobs b now event).2.2) b events

-- ---------------------------------------------------------------------------
-- Interleaved submissions
-- ---------------------------------------------------------------------------

section
variable {n : Nat} {log : List (Fin n × JobChange)}

/-- The changes of a submission among those folded so far. -/
def told (log : List (Fin n × JobChange)) (i : Fin n) : List JobChange :=
  (log.filter (·.1 = i)).map Prod.snd

/-- The job is queued and has not been closed. -/
def UnderWay (log : List (Fin n × JobChange)) (i : Fin n) : Prop :=
  (∃ change ∈ told log i, change.state = Job.queued) ∧
    ∀ change ∈ told log i, isTerminal change.state = false

/-- A change of `j` falls while the job of `i` is under way. -/
def Overlap (log : List (Fin n × JobChange)) (i j : Fin n) : Prop :=
  ∃ before change after, log = before ++ (j, change) :: after ∧ UnderWay before i

/-- No two overlapping submissions share a job id. -/
def Apart (log : List (Fin n × JobChange)) : Prop :=
  ∀ i j, i ≠ j → Overlap log i j →
    ∀ change ∈ told log i, ∀ other ∈ told log j, change.id ≠ other.id

/-- The changes that closed a job. -/
def entered (log : List (Fin n × JobChange)) : List (Fin n × JobChange) :=
  log.filter fun entry => isTerminal entry.2.state

theorem told_concat (log : List (Fin n × JobChange)) (i j : Fin n) (change : JobChange) :
    told (log ++ [(i, change)]) j = if i = j then told log j ++ [change] else told log j := by
  unfold told
  split
  · simp [*]
  · simp [*]

theorem Apart.of_concat (h : Apart (log ++ [entry])) : Apart log := by
  have hsub (i : Fin n) : told log i ⊆ told (log ++ [entry]) i := by
    rw [told_concat]
    split
    · exact List.subset_append_left ..
    · exact List.Subset.refl _
  rintro i j hne ⟨before, change, after, rfl, hway⟩ c hc d hd
  refine h i j hne ⟨before, change, after ++ [entry], by simp, hway⟩ c (hsub i hc) d (hsub j hd)

theorem mem_told : change ∈ told log i ↔ (i, change) ∈ log := by
  simp [told]

theorem underWay_of_last (h : Orderly (told log i)) (hlast : (told log i).getLast? = some change)
    (hopen : isTerminal change.state = false) : UnderWay log i := by
  have hne : told log i ≠ [] := by
    rintro hnil
    simp [hnil] at hlast
  refine ⟨⟨_, List.head_mem hne, h.queued _ (List.head?_eq_some_head hne)⟩, ?_⟩
  intro earlier hm
  cases ht : isTerminal earlier.state with
  | false => rfl
  | true =>
    rw [h.last_of_terminal hm ht] at hlast
    cases hlast
    exact ht.symm.trans hopen

/-- The latest change of a submission that is under way with this job id. -/
def Current (log : List (Fin n × JobChange)) (id : Int64) (change : JobChange) : Prop :=
  ∃ i, (told log i).getLast? = some change ∧ isTerminal change.state = false ∧ change.id = id

theorem orderly_of_concat (ho : ∀ i, Orderly (told (log ++ [entry]) i)) (i : Fin n) :
    Orderly (told log i) := by
  have h := ho i
  rw [told_concat] at h
  split at h
  · exact h.mono (List.prefix_append ..)
  · exact h

theorem current_concat (ho : ∀ j, Orderly (told (log ++ [(i, new)]) j))
    (ha : Apart (log ++ [(i, new)])) (id : Int64) (change : JobChange) :
    Current (log ++ [(i, new)]) id change ↔
      if new.id = id then isTerminal new.state = false ∧ new = change
      else Current log id change := by
  have hown : ∀ old ∈ told log i, new.id = old.id := by
    have h := ho i
    rw [told_concat, if_pos rfl] at h
    intro old hm
    exact ((List.pairwise_append.mp h.follow).2.2 old hm new List.mem_cons_self).1
  -- While another submission is under way its job id is not the new one.
  have hother {j old} (hne : i ≠ j) (hlast : (told log j).getLast? = some old)
      (hopen : isTerminal old.state = false) : new.id ≠ old.id := by
    have hway := underWay_of_last (orderly_of_concat ho j) hlast hopen
    have hm : old ∈ told (log ++ [(i, new)]) j := by
      rw [told_concat, if_neg hne]
      exact List.mem_of_getLast? hlast
    have hnew : new ∈ told (log ++ [(i, new)]) i := mem_told.mpr (by simp)
    exact (ha j i hne.symm ⟨log, new, [], rfl, hway⟩ old hm new hnew).symm
  have hlatest : (told (log ++ [(i, new)]) i).getLast? = some new := by
    rw [told_concat, if_pos rfl, List.getLast?_concat]
  split
  · rename_i hid
    constructor
    · rintro ⟨j, hlast, hopen, rfl⟩
      by_cases hj : i = j
      · subst hj
        cases hlatest.symm.trans hlast
        exact ⟨hopen, rfl⟩
      · rw [told_concat, if_neg hj] at hlast
        exact absurd hid (hother hj hlast hopen)
    · rintro ⟨hopen, rfl⟩
      exact ⟨i, hlatest, hopen, hid⟩
  · rename_i hid
    constructor
    · rintro ⟨j, hlast, hopen, rfl⟩
      by_cases hj : i = j
      · subst hj
        cases hlatest.symm.trans hlast
        exact absurd rfl hid
      · rw [told_concat, if_neg hj] at hlast
        exact ⟨j, hlast, hopen, rfl⟩
    · rintro ⟨j, hlast, hopen, rfl⟩
      have hj : i ≠ j := by
        rintro rfl
        exact hid (hown change (List.mem_of_getLast? hlast))
      exact ⟨j, by rwa [told_concat, if_neg hj], hopen, rfl⟩

theorem get?_active (ho : ∀ i, Orderly (told log i)) (ha : Apart log) (id : Int64)
    (change : JobChange) :
    ((log.map Prod.snd).foldl track []).get? id = some change ↔ Current log id change := by
  induction log using List.reverseRecOn with
  | nil => simp [Current, told, Table.get?]
  | append_singleton log entry ih =>
    have hrest := ih (orderly_of_concat ho) ha.of_concat
    rw [current_concat ho ha, List.map_append, List.foldl_append]
    show (track _ entry.2).get? id = some change ↔ _
    rw [get?_track]
    split
    · cases isTerminal entry.2.state with
      | true => simp
      | false => simp
    · exact hrest

-- ---------------------------------------------------------------------------
-- Closed jobs
-- ---------------------------------------------------------------------------

theorem mem_entered (ho : ∀ i, Orderly (told log i)) :
    (i, change) ∈ entered log ↔
      (told log i).getLast? = some change ∧ isTerminal change.state = true := by
  rw [entered, List.mem_filter, ← mem_told]
  constructor
  · rintro ⟨hm, hterminal⟩
    exact ⟨(ho i).last_of_terminal hm hterminal, hterminal⟩
  · rintro ⟨hlast, hterminal⟩
    exact ⟨List.mem_of_getLast? hlast, hterminal⟩

/-- No submission is entered twice. -/
theorem nodup_entered (ho : ∀ i, Orderly (told log i)) : ((entered log).map Prod.fst).Nodup := by
  refine List.pairwise_map.mpr (List.pairwise_iff_forall_sublist.mpr ?_)
  rintro ⟨i, first⟩ ⟨j, second⟩ hsub rfl
  have hboth : [first, second].Sublist (told log i) := by
    have h := ((hsub.trans List.filter_sublist).filter (·.1 = i)).map Prod.snd
    simpa [told] using h
  have hclosed : isTerminal first.state = true :=
    ((mem_entered ho).mp (hsub.subset List.mem_cons_self)).2
  have hopen := (List.pairwise_cons.mp ((ho i).follow.sublist hboth)).1 second (by simp)
  exact absurd (hopen.2.symm.trans hclosed) (by decide)

theorem countP_terminal (changes : List JobChange) :
    changes.countP (·.state = Job.succeeded) + changes.countP (·.state = Job.failed) =
      (changes.filter (isTerminal ·.state)).length := by
  induction changes with
  | nil => rfl
  | cons change rest ih =>
    have hstate : isTerminal change.state =
        (decide (change.state = Job.succeeded) || decide (change.state = Job.failed)) := by
      simp only [isTerminal, beq_eq_decide]
      rfl
    rw [List.countP_cons, List.countP_cons, List.filter_cons, hstate]
    by_cases hs : change.state = Job.succeeded
    · have hf : change.state ≠ Job.failed := by rw [hs]; decide
      simp only [hs, hs ▸ hf, decide_true, decide_false, Bool.true_or, Bool.false_eq_true,
        if_true, if_false, List.length_cons]
      omega
    · by_cases hf : change.state = Job.failed
      · simp only [hf, hf ▸ hs, decide_true, decide_false, Bool.or_true, Bool.false_eq_true,
          if_true, if_false, List.length_cons]
        omega
      · simpa [hs, hf] using ih

/-- The submissions that were accepted. -/
def accepted (runs : Fin n → Submission) : Finset (Fin n) := {i | (runs i).Accepted}

theorem length_entered {runs : Fin n → Submission} (ho : ∀ i, Orderly (told log i))
    (hall : ∀ i, (runs i).result?.isSome = true ∧ told log i = (runs i).changes) :
    (entered log).length = (accepted runs).card := by
  have hmem : ((entered log).map Prod.fst).toFinset = accepted runs := by
    ext i
    obtain ⟨hresult, htold⟩ := hall i
    obtain ⟨result, hresult⟩ := Option.isSome_iff_exists.mp hresult
    simp only [List.mem_toFinset, List.mem_map, Prod.exists, exists_and_right, exists_eq_right,
      mem_entered ho, accepted, Finset.mem_filter, Finset.mem_univ, true_and, htold,
      Submission.accepted_iff]
    constructor
    · rintro ⟨change, hlast, _⟩ hnil
      simp [hnil] at hlast
    · intro hs
      exact (runs i).closed hresult hs
  rw [← hmem, List.toFinset_card_of_nodup (nodup_entered ho), List.length_map]

/-- The table of active jobs after these changes. -/
def activeOf (log : List (Fin n × JobChange)) : Table Int64 JobChange :=
  (log.map Prod.snd).foldl track []

theorem nodup_active (log : List (Fin n × JobChange)) : (activeOf log).keys.Nodup :=
  nodup_foldl_track _ [] .nil

theorem mem_active (ho : ∀ i, Orderly (told log i)) (ha : Apart log) (id : Int64)
    (change : JobChange) : (id, change) ∈ activeOf log ↔ Current log id change := by
  rw [← get?_active ho ha]
  exact ⟨(activeOf log).get?_of_mem (nodup_active log), (activeOf log).mem_of_get?⟩

/-- Once every submission has returned and been folded, no job is under way. -/
theorem not_underWay {runs : Fin n → Submission} (hresult : (runs i).result?.isSome = true)
    (htold : told log i = (runs i).changes) : ¬ UnderWay log i := by
  intro hway
  obtain ⟨result, hresult⟩ := Option.isSome_iff_exists.mp hresult
  obtain ⟨⟨queued, hqueued, _⟩, hopen⟩ := hway
  rw [htold] at hqueued hopen
  obtain ⟨last, hlast, hterminal⟩ := (runs i).closed hresult (List.ne_nil_of_mem hqueued)
  exact absurd ((hopen last (List.mem_of_getLast? hlast)).symm.trans hterminal) (by decide)

-- ---------------------------------------------------------------------------
-- The board
-- ---------------------------------------------------------------------------

/-- The board has folded the changes of `log`. -/
structure Folded (log : List (Fin n × JobChange)) (capacity : Nat) (b : Board) : Prop where
  active : b.activeJobs = activeOf log
  recent : b.recentJobs.entries = ((entered log).map Prod.snd).reverse.take capacity
  states : ∀ state, (b.jobsByState.get? state).getD 0 =
    UInt64.ofNat ((log.map Prod.snd).countP (·.state = state))

theorem entered_snd (log : List (Fin n × JobChange)) :
    (log.map Prod.snd).filter (isTerminal ·.state) = (entered log).map Prod.snd :=
  List.filter_map

theorem folded (settings : Settings) (started : Instant) (events : List (Instant × Event))
    (hevents : (events.map Prod.snd).filterMap Event.jobChange? = log.map Prod.snd) :
    Folded log settings.effective.recentJobs.toNat
      ((Board.new settings started).after events) := by
  obtain ⟨hactive, hrecent, hstates⟩ := after_jobs (Board.new settings started) events
  rw [hevents] at hactive hrecent hstates
  refine ⟨hactive, ?_, fun state => ?_⟩
  · rw [hrecent, entered_snd]
    exact Ring.entries_foldl_push _ settings.effective_recentJobs_pos _
  · rw [hstates, get?_foldl_tally]
    exact UInt64.zero_add _

theorem Folded.mem_shown (h : Folded log capacity b) (ho : ∀ i, Orderly (told log i))
    (ha : Apart log) (waiting : Nat) (now : Instant) (change : JobChange) :
    change ∈ (b.snapshot waiting now).activeJobs ↔
      ∃ i, UnderWay log i ∧ (told log i).getLast? = some change := by
  simp only [Board.snapshot, h.active, (List.mergeSort_perm ..).mem_iff, List.mem_map, Prod.exists,
    exists_eq_right, mem_active ho ha]
  constructor
  · rintro ⟨id, i, hlast, hopen, _⟩
    exact ⟨i, underWay_of_last (ho i) hlast hopen, hlast⟩
  · rintro ⟨i, hway, hlast⟩
    exact ⟨change.id, i, hlast, hway.2 change (List.mem_of_getLast? hlast), rfl⟩

theorem Folded.distinct_shown (h : Folded log capacity b) (ho : ∀ i, Orderly (told log i))
    (ha : Apart log) (waiting : Nat) (now : Instant) :
    ((b.snapshot waiting now).activeJobs.map (·.id)).Nodup := by
  have hids : ((activeOf log).map Prod.snd).map (·.id) = (activeOf log).keys := by
    rw [List.map_map]
    refine List.map_congr_left fun ⟨id, change⟩ hm => ?_
    obtain ⟨_, _, _, hid⟩ := (mem_active ho ha id change).mp hm
    exact hid
  simp only [Board.snapshot, h.active]
  refine ((List.mergeSort_perm ..).map JobChange.id).nodup_iff.mpr ?_
  rw [hids]
  exact nodup_active log

/-- Jobs without an id would be left out, but there are none. -/
theorem Folded.recent_shown (h : Folded log capacity b) (ho : ∀ i, Orderly (told log i))
    (waiting : Nat) (now : Instant) :
    (b.snapshot waiting now).recentJobs =
      ((entered log).map Prod.snd).reverse.take capacity := by
  simp only [Board.snapshot, h.recent]
  refine List.filter_eq_self.mpr fun change hm => ?_
  obtain ⟨⟨i, closing⟩, hentry, rfl⟩ :=
    List.mem_map.mp (List.mem_reverse.mp (List.mem_of_mem_take hm))
  have hid := (ho i).id closing (List.mem_of_getLast? ((mem_entered ho).mp hentry).1)
  simpa using hid

/-- What a snapshot shows of submissions whose changes so far are `log`. -/
structure Shows (runs : Fin n → Submission) (log : List (Fin n × JobChange)) (capacity : Nat)
    (shown : Snapshot) : Prop where
  /-- The active jobs are those under way, each with its latest change. -/
  active : ∀ change, change ∈ shown.activeJobs ↔
    ∃ i, UnderWay log i ∧ (told log i).getLast? = some change
  distinct : (shown.activeJobs.map (·.id)).Nodup
  recent : shown.recentJobs = ((entered log).map Prod.snd).reverse.take capacity
  once : ((entered log).map Prod.fst).Nodup
  /-- An accepted submission is entered with its last change. -/
  closed : ∀ i, (runs i).result?.isSome = true → told log i = (runs i).changes →
    (runs i).Accepted → ∃ change, (i, change) ∈ entered log ∧
      (runs i).changes.getLast? = some change ∧ isTerminal change.state = true
  ended : (∀ i, (runs i).result?.isSome = true ∧ told log i = (runs i).changes) →
    shown.activeJobs = [] ∧
    (shown.jobsByState.get? Job.succeeded).getD 0 + (shown.jobsByState.get? Job.failed).getD 0 =
      UInt64.ofNat (accepted runs).card ∧
    ((accepted runs).card < UInt64.size →
      ((shown.jobsByState.get? Job.succeeded).getD 0).toNat +
        ((shown.jobsByState.get? Job.failed).getD 0).toNat = (accepted runs).card)

/-- `log` is what the board has folded so far of the submissions, and
`events` is all it has folded, of others too. -/
theorem jobs_shown (runs : Fin n → Submission) (log : List (Fin n × JobChange))
    (horder : ∀ i, told log i <+: (runs i).changes) (hapart : Apart log) (settings : Settings)
    (started : Instant) (events : List (Instant × Event))
    (hevents : (events.map Prod.snd).filterMap Event.jobChange? = log.map Prod.snd)
    (waiting : Nat) (now : Instant) :
    Shows runs log settings.effective.recentJobs.toNat
      (((Board.new settings started).after events).snapshot waiting now) := by
  have ho (i) : Orderly (told log i) := (runs i).orderly.mono (horder i)
  have hfolded := folded settings started events hevents
  have hshown := hfolded.mem_shown ho hapart waiting now
  refine ⟨hshown, hfolded.distinct_shown ho hapart waiting now,
    hfolded.recent_shown ho waiting now, nodup_entered ho, ?_, ?_⟩
  · intro i hresult htold haccepted
    obtain ⟨result, hresult⟩ := Option.isSome_iff_exists.mp hresult
    obtain ⟨change, hlast, hterminal⟩ :=
      (runs i).closed hresult ((runs i).accepted_iff.mp haccepted)
    exact ⟨change, (mem_entered ho).mpr ⟨htold ▸ hlast, hterminal⟩, hlast, hterminal⟩
  · intro hall
    refine ⟨List.eq_nil_iff_forall_not_mem.mpr fun change hm => ?_, ?_⟩
    · obtain ⟨i, hway, _⟩ := (hshown change).mp hm
      exact not_underWay (hall i).1 (hall i).2 hway
    · have hcount := countP_terminal (log.map Prod.snd)
      rw [entered_snd, List.length_map, length_entered ho hall] at hcount
      simp only [Board.snapshot, hfolded.states]
      rw [← UInt64.ofNat_add, hcount]
      refine ⟨rfl, fun hsize => ?_⟩
      rw [UInt64.toNat_ofNat_of_lt' (by omega), UInt64.toNat_ofNat_of_lt' (by omega), hcount]

end

/-- A scan whose caller gives up after the first poll, and an update that
succeeds at its first poll. -/
def scanAndUpdate : Fin 2 → Submission
  | 0 => { desk := {}, ticket := { type := "scan" }, moments := Job.abandonedScan }
  | 1 => {
    desk := { held := ["scan"] }, ticket := { type := "update" }
    moments := [
      { now := 0, cancelled := false, happening := .submitted (.ok { id := 8 }) },
      { now := 1, cancelled := false, happening := .polled (.ok { state := "succeeded" }) }] }

/-- Both jobs are queued before either goes on. -/
def scanAndUpdateLog : List (Fin 2 × JobChange) := [
  (0, { id := 7, type := "scan", state := "queued" }),
  (1, { id := 8, type := "update", state := "queued" }),
  (0, { id := 7, type := "scan", state := "running" }),
  (1, { id := 8, type := "update", state := "succeeded" }),
  (0, { id := 7, type := "scan", state := "failed", reason := "cancelled" })]

theorem jobs_scanAndUpdate :
    Shows scanAndUpdate scanAndUpdateLog 20 (((Board.new {} 0).after
      (scanAndUpdateLog.map fun entry => (0, .job entry.2))).snapshot 0 5) := by
  refine jobs_shown scanAndUpdate scanAndUpdateLog (by decide) ?_ {} 0 _ (by decide) 0 5
  have hids : ∀ i j, i ≠ j → ∀ change ∈ told scanAndUpdateLog i,
      ∀ other ∈ told scanAndUpdateLog j, change.id ≠ other.id := by decide
  exact fun i j hne _ => hids i j hne

end MeshConsole.Telemetry
