import Mathlib.Data.List.Nodup
import MeshConsole.Proofs.Push.Accounting
import MeshConsole.Proofs.Text.Bytes
import MeshConsole.Status.Report

/-!
# The ranking of message kinds

A map from kinds to counts has its entries in no order of its own. The report
ranks them: the greater count first, kinds of equal count in byte order. That is
a strict total order (`Outranks`), so the ranking is the same in whatever order
the entries are gone through, and by whatever sort (`ranking_reproducible`). The
line that shows it depends on nothing but how often each kind was received.
-/

namespace MeshConsole

-- ---------------------------------------------------------------------------
-- What a board counts
-- ---------------------------------------------------------------------------

namespace Telemetry

/-- The kind of a message that was received. -/
def Event.kind? : Event → Option Text
  | .received kind _ => some kind
  | _ => none

/-- The kinds of the messages that were received, oldest first. -/
def kindsReceived (events : List (Instant × Event)) : List Text :=
  (events.map Prod.snd).filterMap Event.kind?

/-- How often each kind was received, modulo `2 ^ 64`; one that never was has no
count. -/
def countsReceived (events : List (Instant × Event)) (kind : Text) : Option UInt64 :=
  let n := (kindsReceived events).countP (· = kind)
  if n = 0 then none else some (UInt64.ofNat n)

theorem fold_messagesByKind (b : Board) (now : Instant) (event : Event) :
    (b.fold now event).messagesByKind =
      event.kind?.elim b.messagesByKind fun kind => b.messagesByKind.count kind := by
  cases event with
  | job change =>
    obtain ⟨_, _, _, hframe⟩ := b.fold_job now change
    rw [hframe]
    rfl
  | _ => rfl

theorem after_messagesByKind (b : Board) (events : List (Instant × Event)) :
    (b.after events).messagesByKind =
      (kindsReceived events).foldl (fun t kind => t.count kind) b.messagesByKind :=
  Board.after_view Board.messagesByKind fold_messagesByKind b events

end Telemetry

namespace Status

open Telemetry (Board Event Snapshot countsReceived after_messagesByKind)

/-- A kind with its count. -/
abbrev Entry : Type := Text × UInt64

/-- The entries of a map from kinds to counts, each once, in one of the orders
in which they can be gone through. -/
def Enumerates (counts : Text → Option UInt64) (entries : List Entry) : Prop :=
  ∀ kind n, entries.count (kind, n) = if counts kind = some n then 1 else 0

/-- The greater count comes first; of equal counts the one whose kind is less in
byte order. -/
def Outranks (a b : Entry) : Prop :=
  b.2 < a.2 ∨ a.2 = b.2 ∧ a.1 < b.1

instance : DecidableRel Outranks := fun a b =>
  inferInstanceAs (Decidable (b.2 < a.2 ∨ a.2 = b.2 ∧ a.1 < b.1))

/-- What a sort may make of entries. It keeps them all, and leaves none behind
one that it outranks; it need not keep the order of any two. -/
structure Sorts (entries sorted : List Entry) : Prop where
  perm : sorted.Perm entries
  ordered : sorted.Pairwise fun a b => ¬ Outranks b a

/-- The entries of a map as the report is to list them. -/
structure Ranking (counts : Text → Option UInt64) (ranked : List Entry) : Prop where
  entries : Enumerates counts ranked
  descending : ranked.Pairwise fun a b => b.2 ≤ a.2
  ties : ranked.Pairwise fun a b => a.2 = b.2 → a.1 < b.1

-- ---------------------------------------------------------------------------
-- A strict total order
-- ---------------------------------------------------------------------------

namespace Outranks

theorem irrefl (a : Entry) : ¬ Outranks a a := by
  rintro (h | ⟨-, h⟩)
  · exact UInt64.lt_irrefl _ h
  · exact List.lt_irrefl _ h

theorem trans (hab : Outranks a b) (hbc : Outranks b c) : Outranks a c := by
  rcases hab with hab | ⟨hab, hkinds⟩
  · rcases hbc with hbc | ⟨hbc, -⟩
    · exact .inl (UInt64.lt_trans hbc hab)
    · exact .inl (hbc ▸ hab)
  · rcases hbc with hbc | ⟨hbc, hmore⟩
    · exact .inl (hab ▸ hbc)
    · exact .inr ⟨hab.trans hbc, List.lt_trans hkinds hmore⟩

theorem asymm (hab : Outranks a b) : ¬ Outranks b a :=
  fun hba => irrefl a (hab.trans hba)

theorem total (a b : Entry) : Outranks a b ∨ a = b ∨ Outranks b a := by
  obtain ⟨s, m⟩ := a
  obtain ⟨t, n⟩ := b
  rcases Std.lt_trichotomy m n with hless | rfl | hmore
  · exact .inr (.inr (.inl hless))
  · rcases Std.lt_trichotomy s t with hbefore | rfl | hafter
    · exact .inl (.inr ⟨rfl, hbefore⟩)
    · exact .inr (.inl rfl)
    · exact .inr (.inr (.inr ⟨rfl, hafter⟩))
  · exact .inl (.inl hmore)

theorem of_not (hne : a ≠ b) (h : ¬ Outranks b a) : Outranks a b := by
  rcases total a b with hab | heq | hba
  · exact hab
  · exact absurd heq hne
  · exact absurd hba h

end Outranks

theorem not_outranks_trans (hab : ¬ Outranks b a) (hbc : ¬ Outranks c b) : ¬ Outranks c a := by
  intro hca
  rcases Outranks.total a b with h | rfl | h
  · exact hbc (hca.trans h)
  · exact hbc hca
  · exact hab h

theorem ranksBefore_iff : ranksBefore a b = true ↔ ¬ Outranks b a := by
  obtain ⟨s, m⟩ := a
  obtain ⟨t, n⟩ := b
  by_cases htie : m = n
  · subst htie
    simp [ranksBefore, Outranks, Text.le_iff, UInt64.lt_irrefl]
  · have hless : n < m ↔ n ≤ m :=
      ⟨UInt64.le_of_lt, fun h => Std.lt_of_le_of_ne h (Ne.symm htie)⟩
    simp [ranksBefore, Outranks, htie, Ne.symm htie, hless]

-- ---------------------------------------------------------------------------
-- Enumerations of one map
-- ---------------------------------------------------------------------------

section
variable {counts : Text → Option UInt64} {entries other sorted again : List Entry}

theorem Enumerates.perm (h : Enumerates counts entries) (hother : Enumerates counts other) :
    entries.Perm other :=
  List.perm_iff_count.mpr fun (kind, n) => (h kind n).trans (hother kind n).symm

theorem Enumerates.of_perm (h : Enumerates counts entries) (hperm : other.Perm entries) :
    Enumerates counts other :=
  fun kind n => (hperm.count_eq (kind, n)).trans (h kind n)

theorem Enumerates.nodup (h : Enumerates counts entries) : entries.Nodup := by
  refine List.nodup_iff_count.mpr fun (kind, n) => ?_
  rw [h kind n]
  split <;> decide

/-- A table with distinct keys is an enumeration of what it maps. -/
theorem enumerates_get? (t : Table Text UInt64) (h : t.keys.Nodup) : Enumerates t.get? t := by
  intro kind n
  have hmem : (kind, n) ∈ t ↔ t.get? kind = some n := ⟨t.get?_of_mem h, t.mem_of_get?⟩
  rw [(List.Nodup.of_map Prod.fst h).count]
  simp only [hmem]

-- ---------------------------------------------------------------------------
-- Sorting
-- ---------------------------------------------------------------------------

theorem sorts_rankedKinds (entries : List Entry) : Sorts entries (rankedKinds entries) where
  perm := List.mergeSort_perm entries ranksBefore
  ordered := by
    have htrans (a b c : Entry) (hab : ranksBefore a b = true) (hbc : ranksBefore b c = true) :
        ranksBefore a c = true :=
      ranksBefore_iff.mpr (not_outranks_trans (ranksBefore_iff.mp hab) (ranksBefore_iff.mp hbc))
    have htotal (a b : Entry) : (ranksBefore a b || ranksBefore b a) = true := by
      rw [Bool.or_eq_true, ranksBefore_iff, ranksBefore_iff]
      by_cases hba : Outranks b a
      · exact .inr hba.asymm
      · exact .inl hba
    exact (List.pairwise_mergeSort htrans htotal entries).imp ranksBefore_iff.mp

/-- A sort has no choice: entries of which neither outranks the other are the
same. -/
theorem Sorts.unique (h : Sorts entries sorted) (hother : Sorts other again)
    (hperm : entries.Perm other) : sorted = again := by
  have hsame : sorted.Perm again := (h.perm.trans hperm).trans hother.perm.symm
  refine hsame.eq_of_pairwise (fun a b _ _ hba hab => ?_) h.ordered hother.ordered
  by_contra hne
  exact hab (.of_not hne hba)

/-- Of the entries of a map, each outranks all that follow it. -/
theorem Sorts.outranks (h : Sorts entries sorted) (hentries : Enumerates counts entries) :
    sorted.Pairwise Outranks := by
  have hnodup : sorted.Nodup := (hentries.of_perm h.perm).nodup
  -- Of two different entries one outranks the other, and the sort rules out the later one.
  refine (hnodup.and h.ordered).imp ?_
  rintro a b ⟨hne, hba⟩
  exact .of_not hne hba

theorem Sorts.ranking (h : Sorts entries sorted) (hentries : Enumerates counts entries) :
    Ranking counts sorted where
  entries := hentries.of_perm h.perm
  descending := by
    refine (h.outranks hentries).imp ?_
    rintro a b (hmore | ⟨htie, -⟩)
    · exact UInt64.le_of_lt hmore
    · exact htie ▸ UInt64.le_refl _
  ties := by
    refine (h.outranks hentries).imp ?_
    rintro a b (hmore | ⟨-, hkinds⟩) htie
    · exact absurd hmore (htie ▸ UInt64.lt_irrefl _)
    · exact hkinds

theorem rankedKinds_congr (h : Enumerates counts entries) (hother : Enumerates counts other) :
    rankedKinds other = rankedKinds entries :=
  (sorts_rankedKinds other).unique (sorts_rankedKinds entries) (hother.perm h)

end

-- ---------------------------------------------------------------------------
-- The line of the report
-- ---------------------------------------------------------------------------

/-- What a board holds is an enumeration of how often it received each kind. -/
theorem enumerates_received (settings : Telemetry.Settings) (started : Instant)
    (events : List (Instant × Event)) :
    Enumerates (countsReceived events)
      ((Board.new settings started).after events).messagesByKind := by
  have hcounts : ((Board.new settings started).after events).messagesByKind.get? =
      countsReceived events := by
    funext kind
    rw [after_messagesByKind, Table.get?_foldl_count]
    simp [countsReceived, Board.new, Table.get?]
  have hdistinct : ((Board.new settings started).after events).messagesByKind.keys.Nodup := by
    rw [after_messagesByKind]
    exact Table.nodup_keys_foldl_count _ _ List.nodup_nil
  exact hcounts ▸ enumerates_get? _ hdistinct

/-- Two enumerations of a map have one ranking, and no sort makes another of
them. So the report is the same in whatever order a snapshot holds its counts,
and boards that received each kind equally often show the same line. -/
theorem ranking_reproducible {counts : Text → Option UInt64} {entries other : List Entry}
    (h : Enumerates counts entries) (hother : Enumerates counts other) :
    rankedKinds other = rankedKinds entries ∧
    (∀ sorted, Sorts other sorted → sorted = rankedKinds entries) ∧
    Ranking counts (rankedKinds entries) ∧
    (∀ s : Snapshot,
      lines { s with messagesByKind := other } = lines { s with messagesByKind := entries }) ∧
    ∀ (settings : Telemetry.Settings) (started : Instant) (events : List (Instant × Event))
      (waiting : Nat) (now : Instant), countsReceived events = counts →
      kindLines (((Board.new settings started).after events).snapshot waiting now) =
        kindLines { messagesByKind := entries } := by
  have hsame : rankedKinds other = rankedKinds entries := rankedKinds_congr h hother
  refine ⟨hsame, fun sorted hsorts => ?_, ?_, fun s => ?_, ?_⟩
  · exact hsorts.unique (sorts_rankedKinds entries) (hother.perm h)
  · exact (sorts_rankedKinds entries).ranking h
  · have hline : kindLines { s with messagesByKind := other } =
        kindLines { s with messagesByKind := entries } := by simp only [kindLines, hsame]
    rw [lines, hline]
    rfl
  · -- What the board holds is one more enumeration of the map.
    rintro settings started events waiting now rfl
    have hkinds : rankedKinds ((Board.new settings started).after events).messagesByKind =
        rankedKinds entries := rankedKinds_congr h (enumerates_received settings started events)
    simp only [kindLines, Board.snapshot, hkinds]

/-- Three kinds of equal count, one of them the beginning of another. -/
def tied : List Entry := [("lqi_update", 1), ("devices_delta", 2), ("lqi", 1), ("health_state", 1)]

def tiedRanked : List Entry :=
  [("devices_delta", 2), ("health_state", 1), ("lqi", 1), ("lqi_update", 1)]

def tiedEvents : List (Instant × Event) := [
  (1, .received "lqi_update" 4),
  (2, .received "devices_delta" 5),
  (3, .dropped .duplicate 5),
  (4, .received "lqi" 0),
  (5, .received "devices_delta" 6),
  (6, .received "health_state" 7)]

theorem ranking_tied :
    Enumerates (countsReceived tiedEvents) tied ∧
    Enumerates (countsReceived tiedEvents) tied.reverse ∧
    rankedKinds tied.reverse = rankedKinds tied ∧
    rankedKinds tied = tiedRanked ∧
    kindLines (((Board.new { rateWindow := 2 } 0).after tiedEvents).snapshot 3 9) =
      ["Messages by kind - devices_delta=2, health_state=1, lqi=1, lqi_update=1"] := by
  have hcame : ((Board.new {} 0).after tiedEvents).messagesByKind = tied := by decide
  have htied : Enumerates (countsReceived tiedEvents) tied :=
    hcame ▸ enumerates_received {} 0 tiedEvents
  have hback : Enumerates (countsReceived tiedEvents) tied.reverse :=
    htied.of_perm tied.reverse_perm
  obtain ⟨hsame, hunique, -, -, hline⟩ := ranking_reproducible htied hback
  have hranked : rankedKinds tied = tiedRanked :=
    (hunique tiedRanked ⟨by decide, by decide⟩).symm
  refine ⟨htied, hback, hsame, hranked, ?_⟩
  rw [hline _ _ _ _ _ rfl, kindLines, hranked]
  decide

end Status

end MeshConsole
