import Mathlib.Data.List.Induction
import MeshConsole.Proofs.Elapsed
import MeshConsole.Proofs.Push.Accounting
import MeshConsole.Proofs.Push.WholeNumbers

/-!
# The message rate

A board lets go of the times of messages as new ones come, and counts what is
left when it is asked for a rate. `rate_of_received`: it counts just what a
board would count that keeps every time, also of messages that lie right on
the edge of the window.
-/

namespace MeshConsole.Telemetry

/-- When messages were received, in the order in which they were folded. -/
def receivedTimes (events : List (Instant × Event)) : List Instant :=
  (events.filter (·.2.isReceived)).map Prod.fst

/-- The times that no other one has left behind by more than `reach`. -/
def notLeftBehind (reach : Int) (times : List Int) : List Int :=
  times.filter fun t => ∀ s ∈ times, s - reach ≤ t

/-- How far back the window of a board reaches. -/
def Settings.rateReach (settings : Settings) : Int := settings.rateWindow * 1000000000

-- ---------------------------------------------------------------------------
-- Times in order
-- ---------------------------------------------------------------------------

section
variable {reach now : Int} {times : List Int} (hle : ∀ t ∈ times, t ≤ now)
include hle

theorem notLeftBehind_concat (hreach : 0 ≤ reach) :
    notLeftBehind reach (times ++ [now]) =
      (notLeftBehind reach times).filter (now - reach ≤ ·) ++ [now] := by
  have hnew : ∀ s ∈ times, s - reach ≤ now := by
    intro s hs
    have hsnow := hle s hs
    omega
  have hself : now - reach ≤ now := by omega
  have hboth (t : Int) : (∀ s ∈ times ++ [now], s - reach ≤ t) ↔
      now - reach ≤ t ∧ ∀ s ∈ times, s - reach ≤ t := by
    simp only [List.forall_mem_append, List.forall_mem_singleton]
    exact and_comm
  simp only [notLeftBehind, List.filter_append, List.filter_filter, hboth, Bool.decide_and]
  rw [List.filter_cons_of_pos (by simpa [hself] using hnew), List.filter_nil]

/-- What has been left behind lies outside of every later window. -/
theorem filter_notLeftBehind :
    (notLeftBehind reach times).filter (now - reach < ·) = times.filter (now - reach < ·) := by
  rw [notLeftBehind, List.filter_filter]
  refine List.filter_congr fun t _ => ?_
  have hinside (hlate : now - reach < t) : ∀ s ∈ times, s - reach ≤ t := by
    intro s hs
    have hsnow := hle s hs
    omega
  by_cases hlate : now - reach < t
  · simpa [hlate] using hinside hlate
  · simp [hlate]

end

-- ---------------------------------------------------------------------------
-- One event
-- ---------------------------------------------------------------------------

theorem fold_settings (b : Board) (now : Instant) (event : Event) :
    (b.fold now event).settings = b.settings := by
  cases event with
  | job change =>
    obtain ⟨_, _, _, hframe⟩ := b.fold_job now change
    rw [hframe]
  | _ => rfl

theorem fold_messageTimes (b : Board) (now : Instant) (event : Event) :
    (b.fold now event).messageTimes =
      if event.isReceived then b.messageTimes.dropWhile (· < b.windowStart now) ++ [now]
      else b.messageTimes := by
  cases event with
  | job change =>
    obtain ⟨_, _, _, hframe⟩ := b.fold_job now change
    rw [hframe]
    rfl
  | _ => rfl

/-- The seconds of the window can be held as a duration. -/
structure Settings.Measurable (settings : Settings) : Prop where
  pos : 0 < settings.rateWindow
  fits : settings.rateReach ≤ Int64.maxValue.toInt

theorem Settings.Measurable.windowStart {b : Board} (h : b.settings.Measurable) (now : Int) :
    b.windowStart now = now - b.settings.rateReach := by
  have hlow : Int64.minValue.toInt = -9223372036854775808 := by decide
  have hhigh : Int64.maxValue.toInt = 9223372036854775807 := by decide
  have hsecond : Duration.second.toInt = 1000000000 := by decide
  obtain ⟨hpos, hfits⟩ := h
  rw [rateReach] at hfits ⊢
  have hback : (Duration.ofSeconds (-b.settings.rateWindow)).toInt =
      -b.settings.rateWindow * Duration.second.toInt :=
    Duration.toInt_product (by rw [hsecond]; omega) (by rw [hsecond]; omega)
  show now + (Duration.ofSeconds (-b.settings.rateWindow)).toInt = _
  rw [hback, hsecond]
  omega

/-- A message lets go of those that it leaves behind. -/
theorem Settings.Measurable.received {b : Board} (h : b.settings.Measurable)
    {times : List Int} {now : Int} (horder : (times ++ [now]).Pairwise (· ≤ ·))
    (htimes : b.messageTimes = notLeftBehind b.settings.rateReach times)
    (hevent : Event.isReceived event = true) :
    (b.fold now event).messageTimes = notLeftBehind b.settings.rateReach (times ++ [now]) := by
  obtain ⟨hbefore, -, hle⟩ := List.pairwise_append.mp horder
  have hreach : 0 ≤ b.settings.rateReach := by
    have hpos := h.pos
    rw [rateReach]
    omega
  have haged (cutoff : Int) : (notLeftBehind b.settings.rateReach times).dropWhile (· < cutoff) =
      (notLeftBehind b.settings.rateReach times).filter (cutoff ≤ ·) :=
    @Instant.dropWhile_before Int id _ (hbefore.filter _) cutoff
  rw [fold_messageTimes, if_pos hevent, htimes, h.windowStart, haged,
    notLeftBehind_concat (fun t ht => hle t ht now (.head _)) hreach]

theorem Settings.effective_measurable {settings : Settings}
    (hfits : settings.rateReach ≤ Int64.maxValue.toInt) : settings.effective.Measurable := by
  have hhigh : Int64.maxValue.toInt = 9223372036854775807 := by decide
  rw [rateReach] at hfits
  constructor
  · simp only [effective]
    split <;> omega
  · simp only [effective, rateReach]
    split <;> omega

-- ---------------------------------------------------------------------------
-- Any number of events
-- ---------------------------------------------------------------------------

theorem after_settings (b : Board) (events : List (Instant × Event)) :
    (b.after events).settings = b.settings := by
  induction events generalizing b with
  | nil => rfl
  | cons e rest ih => exact (ih (b.fold e.1 e.2)).trans (fold_settings b e.1 e.2)

theorem receivedTimes_concat (events : List (Instant × Event)) (now : Instant) (event : Event) :
    receivedTimes (events ++ [(now, event)]) =
      if event.isReceived then receivedTimes events ++ [now] else receivedTimes events := by
  cases h : event.isReceived <;> simp [receivedTimes, h]

/-- What a board still knows of the messages that it has been told of. -/
theorem after_messageTimes {b : Board} (hnew : b.messageTimes = [])
    (hwindow : b.settings.Measurable) (events : List (Instant × Event))
    (horder : (receivedTimes events).Pairwise (· ≤ ·)) :
    (b.after events).messageTimes = notLeftBehind b.settings.rateReach (receivedTimes events) := by
  induction events using List.reverseRecOn with
  | nil => simpa [Board.after, notLeftBehind, receivedTimes] using hnew
  | append_singleton events e ih =>
    obtain ⟨now, event⟩ := e
    have hsettings := after_settings b events
    have hfold : b.after (events ++ [(now, event)]) = (b.after events).fold now event := by
      simp [Board.after]
    rw [receivedTimes_concat] at horder ⊢
    rw [hfold]
    -- Only a message prunes; other events may have come at any time.
    cases hevent : event.isReceived with
    | false =>
      rw [hevent] at horder
      rw [fold_messageTimes, hevent]
      exact ih horder
    | true =>
      simp only [hevent, if_true] at horder ⊢
      rw [← hsettings] at hwindow ih ⊢
      exact hwindow.received horder (ih (List.pairwise_append.mp horder).1) hevent

theorem zero_div_ofInt {seconds : Int} (hpos : 0 < seconds) (hfits : seconds.natAbs < 2 ^ 53) :
    Binary64.div (.ofInt 0) (.ofInt seconds) = Binary64.zero false := by
  obtain ⟨k, hk⟩ := Binary64.ofFraction_fine false (n := seconds.natAbs) (by omega) hfits
  have hsign : decide (seconds < 0) = false := decide_eq_false (by omega)
  have hne : seconds.natAbs * 2 ^ k ≠ 0 :=
    Nat.mul_ne_zero (by omega) (Nat.ne_of_gt (Nat.two_pow_pos k))
  have hzero : Binary64.ofInt 0 = .finite false 0 Binary64.leastExponent := rfl
  have hnothing : (Binary64.fraction 0 Binary64.leastExponent).1 = 0 := rfl
  rw [hzero, Binary64.ofInt, hsign, hk]
  simp only [Binary64.div, if_neg hne, hnothing, Nat.zero_mul, Binary64.ofFraction, if_true]
  rfl

theorem Settings.Measurable.rate {b : Board} (h : b.settings.Measurable) (now : Instant) :
    b.rate now = Binary64.div (.ofInt (b.counted now)) (.ofInt b.settings.rateWindow) := by
  unfold Board.rate
  split
  case isTrue hempty =>
    have hnone : b.counted now = 0 := by
      rw [Board.counted, List.isEmpty_iff.mp hempty]
      rfl
    obtain ⟨hpos, hfits⟩ := h
    have hhigh : Int64.maxValue.toInt = 9223372036854775807 := by decide
    rw [rateReach] at hfits
    rw [hnone]
    exact (zero_div_ofInt hpos (by omega)).symm
  case isFalse => rfl

/-- `events` are all that the board has folded, and `now` is not before any
message among them. -/
theorem rate_of_received (settings : Settings)
    (hfits : settings.rateReach ≤ Int64.maxValue.toInt) (started : Instant)
    (events : List (Instant × Event)) (horder : (receivedTimes events).Pairwise (· ≤ ·))
    (waiting : Nat) (now : Int) (hnow : ∀ t ∈ receivedTimes events, t ≤ now) :
    let reach := settings.effective.rateReach
    let recent := (receivedTimes events).filter fun t => now - reach < t
    let board := (Board.new settings started).after events
    board.messageTimes = notLeftBehind reach (receivedTimes events) ∧
    board.counted now = recent.length ∧
    (board.snapshot waiting now).messagesPerSecond =
      Binary64.div (.ofInt recent.length) (.ofInt settings.effective.rateWindow) := by
  intro reach recent board
  have hwindow : settings.effective.Measurable := Settings.effective_measurable hfits
  have hsettings : board.settings = settings.effective := after_settings _ events
  have hboard : board.settings.Measurable := hsettings ▸ hwindow
  have htimes : board.messageTimes = notLeftBehind reach (receivedTimes events) :=
    after_messageTimes rfl hwindow events horder
  have hcounted : board.counted now = recent.length := by
    rw [Board.counted, hboard.windowStart, hsettings, htimes, filter_notLeftBehind hnow]
  refine ⟨htimes, hcounted, ?_⟩
  show board.rate now = _
  rw [hboard.rate, hcounted, hsettings]

/-- Two messages are let go at the end. Of those that are left, the first lies
on the edge of the window when it comes to the rate. -/
def edgeEvents : List (Instant × Event) := [
  (0, .received "health_state" 1),
  (1000000000, .received "lqi_update" 2),
  (1000000000, .dropped .duplicate 2),
  (2000000000, .received "lqi_update" 3),
  (3500000000, .received "devices_delta" 4),
  (3500000000, .received "health_state" 5)]

theorem rate_edgeEvents :
    ({ rateWindow := 2 } : Settings).rateReach ≤ Int64.maxValue.toInt ∧
    (receivedTimes edgeEvents).Pairwise (· ≤ ·) ∧
    (∀ t ∈ receivedTimes edgeEvents, t ≤ 4000000000) ∧
    ((Board.new { rateWindow := 2 } 0).after edgeEvents).messageTimes =
      [2000000000, 3500000000, 3500000000] ∧
    ((Board.new { rateWindow := 2 } 0).after edgeEvents).counted 4000000000 = 2 ∧
    (((Board.new { rateWindow := 2 } 0).after edgeEvents).snapshot 0
      4000000000).messagesPerSecond = .ofInt 1 := by
  have hfits : ({ rateWindow := 2 } : Settings).rateReach ≤ Int64.maxValue.toInt := by decide
  have horder : (receivedTimes edgeEvents).Pairwise (· ≤ ·) := by decide
  have hnow : ∀ t ∈ receivedTimes edgeEvents, t ≤ 4000000000 := by decide
  obtain ⟨htimes, hcounted, hrate⟩ :=
    rate_of_received { rateWindow := 2 } hfits 0 edgeEvents horder 0 4000000000 hnow
  exact ⟨hfits, horder, hnow, htimes.trans (by decide), hcounted.trans (by decide),
    hrate.trans (by decide)⟩

end MeshConsole.Telemetry
