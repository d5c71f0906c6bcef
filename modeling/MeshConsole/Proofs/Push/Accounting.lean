import MeshConsole.Proofs.Push.Gate
import MeshConsole.Telemetry.Board

/-!
# Every frame is accounted for

`frames_accounted`: with a handler, whatever frames and opens a link goes
through, each frame is reported once, as received or as dropped, and is
handed on exactly when it is reported as received. A board that folds the
reports counts every frame once, whatever else is published in between.
The counters of a board have 64 bits; they agree with the numbers they
stand for modulo `2 ^ 64`, and exactly up to there.
-/

namespace MeshConsole

-- ---------------------------------------------------------------------------
-- Reports and deliveries
-- ---------------------------------------------------------------------------

namespace Telemetry

def Event.isReceived : Event → Bool
  | .received .. => true
  | _ => false

def Event.isDropped : Event → Bool
  | .dropped .. => true
  | _ => false

def Event.isMismatch : Event → Bool
  | .versionMismatch .. => true
  | _ => false

/-- The event says what became of a frame. -/
def Event.isReport (e : Event) : Bool := e.isReceived || e.isDropped

end Telemetry

namespace Push

open Telemetry (Event Board)

/-- The events among signals, in order. -/
def published (signals : List Signal) : List Event :=
  signals.filterMap fun
    | .publish event => some event
    | _ => none

@[simp] theorem published_append (signals more : List Signal) :
    published (signals ++ more) = published signals ++ published more := List.filterMap_append

@[simp] theorem delivered_append (signals more : List Signal) :
    delivered (signals ++ more) = delivered signals ++ delivered more := List.filterMap_append

/-- All that a link signals during a course. -/
def Link.signals (handler : Handler) : Link → List Occurrence → List Signal
  | _, [] => []
  | l, o :: rest => (l.meet handler o).2 ++ (l.meet handler o).1.signals handler rest

/-- The frames of a course. -/
def framesOf (course : List Occurrence) : List Text :=
  course.filterMap fun
    | .frame bytes => some bytes
    | .opened => none

/-- Signals that report `r` frames as received and `d` as dropped, and hand
on as many payloads as they report as received. -/
structure Reports (signals : List Signal) (r d : Nat) : Prop where
  received : (published signals).countP Event.isReceived = r
  dropped : (published signals).countP Event.isDropped = d
  delivered : (delivered signals).length = r

theorem Reports.append (h : Reports first r d) (h' : Reports second r' d') :
    Reports (first ++ second) (r + r') (d + d') where
  received := by rw [published_append, List.countP_append, h.received, h'.received]
  dropped := by rw [published_append, List.countP_append, h.dropped, h'.dropped]
  delivered := by rw [delivered_append, List.length_append, h.delivered, h'.delivered]

-- ---------------------------------------------------------------------------
-- One frame
-- ---------------------------------------------------------------------------

/-- A warning about a version is no report. -/
theorem version_reports (m : Message) : Reports (Link.versionSignals m) 0 0 := by
  unfold Link.versionSignals
  split
  · exact ⟨rfl, rfl, rfl⟩
  · split <;> exact ⟨rfl, rfl, rfl⟩

theorem version_mismatches (m : Message) :
    (published (Link.versionSignals m)).countP Event.isMismatch ≤ 1 := by
  unfold Link.versionSignals
  split
  · exact Nat.zero_le 1
  · split
    · exact Nat.zero_le 1
    · exact Nat.le_refl 1

/-- A message that is handed on is reported as received; one of an unknown
kind or with a broken payload is dropped and not handed on. -/
theorem dispatch_cases (hh : handler ≠ Handler.none) (m : Message) :
    (∃ why reason, Link.dispatchSignals handler m = Link.dropSignals m why reason) ∨
    ∃ payload, Link.dispatchSignals handler m =
      [.deliver payload, .publish (.received m.kind.name (m.seq.getD 0))] := by
  unfold Link.dispatchSignals
  cases hp : m.payload? with
  | none => exact .inl ⟨_, _, rfl⟩
  | some outcome =>
    simp only [if_neg hh]
    cases outcome with
    | error why => exact .inl ⟨_, _, rfl⟩
    | ok payload => exact .inr ⟨payload, rfl⟩

theorem dispatch_mismatches (hh : handler ≠ Handler.none) (m : Message) :
    (published (Link.dispatchSignals handler m)).countP Event.isMismatch = 0 := by
  rcases dispatch_cases hh m with ⟨why, reason, hd⟩ | ⟨payload, hd⟩ <;> rw [hd] <;> rfl

/-- A frame that passes the gate is received and handed on, or dropped. -/
theorem passed_reports (hh : handler ≠ Handler.none) (m : Message) :
    Reports (Link.versionSignals m ++ Link.dispatchSignals handler m) 1 0 ∨
    Reports (Link.versionSignals m ++ Link.dispatchSignals handler m) 0 1 := by
  rcases dispatch_cases hh m with ⟨why, reason, hd⟩ | ⟨payload, hd⟩ <;> rw [hd]
  · exact .inr ((version_reports m).append ⟨rfl, rfl, rfl⟩)
  · exact .inl ((version_reports m).append ⟨rfl, rfl, rfl⟩)

theorem receive_reports (hh : handler ≠ Handler.none) (l : Link) (frame : Text) :
    Reports (l.receive handler frame).2 1 0 ∨ Reports (l.receive handler frame).2 0 1 := by
  rcases receive_cases l handler frame with
    ⟨why, -, hr⟩ | ⟨m, -, -, hr⟩ | ⟨m, seq, -, -, -, hr⟩ | ⟨m, seq, -, -, -, hr⟩ <;> rw [hr]
  · exact .inr ⟨rfl, rfl, rfl⟩
  · exact passed_reports hh m
  · exact .inr ⟨rfl, rfl, rfl⟩
  · exact passed_reports hh m

theorem passed_mismatches (hh : handler ≠ Handler.none) (m : Message) :
    (published (Link.versionSignals m ++ Link.dispatchSignals handler m)).countP
      Event.isMismatch ≤ 1 := by
  rw [published_append, List.countP_append, dispatch_mismatches hh, Nat.add_zero]
  exact version_mismatches m

/-- A frame that is warned about can be decoded and has passed the gate. -/
theorem receive_mismatches (hh : handler ≠ Handler.none) (l : Link) (frame : Text) :
    (published (l.receive handler frame).2).countP Event.isMismatch ≤ 1 ∧
    (0 < (published (l.receive handler frame).2).countP Event.isMismatch →
      ∃ m, decode frame = .ok m ∧ (l.gate? m).isSome = true) := by
  rcases receive_cases l handler frame with
    ⟨why, -, hr⟩ | ⟨m, hd, hs, hr⟩ | ⟨m, seq, -, -, -, hr⟩ | ⟨m, seq, hd, hs, hlt, hr⟩ <;> rw [hr]
  · exact ⟨Nat.zero_le 1, fun h => absurd h (Nat.lt_irrefl 0)⟩
  · exact ⟨passed_mismatches hh m, fun _ => ⟨m, hd, by simp [Link.gate?, hs]⟩⟩
  · exact ⟨Nat.zero_le 1, fun h => absurd h (Nat.lt_irrefl 0)⟩
  · exact ⟨passed_mismatches hh m, fun _ => ⟨m, hd, by
      simp [Link.gate?, hs, UInt64.not_le.mpr hlt]⟩⟩

/-- What a link makes known of one frame. -/
structure Accounted (handler : Handler) (l : Link) (frame : Text) : Prop where
  once : (published (l.receive handler frame).2).countP Event.isReceived +
    (published (l.receive handler frame).2).countP Event.isDropped = 1
  /-- One call of the handler for a frame that is received, none for one
  that is dropped. -/
  handled : (delivered (l.receive handler frame).2).length =
    (published (l.receive handler frame).2).countP Event.isReceived
  mismatch_le : (published (l.receive handler frame).2).countP Event.isMismatch ≤ 1
  mismatch_passes : 0 < (published (l.receive handler frame).2).countP Event.isMismatch →
    ∃ m, decode frame = .ok m ∧ (l.gate? m).isSome = true

theorem accounted (hh : handler ≠ Handler.none) (l : Link) (frame : Text) :
    Accounted handler l frame := by
  obtain ⟨hle, hpass⟩ := receive_mismatches hh l frame
  rcases receive_reports hh l frame with h | h
  · exact ⟨by rw [h.received, h.dropped], by rw [h.delivered, h.received], hle, hpass⟩
  · exact ⟨by rw [h.received, h.dropped], by rw [h.delivered, h.received], hle, hpass⟩

-- ---------------------------------------------------------------------------
-- A whole course
-- ---------------------------------------------------------------------------

theorem opened_reports (l : Link) : Reports l.opened.2 0 0 := ⟨rfl, rfl, rfl⟩

theorem meet_reports (hh : handler ≠ Handler.none) (l : Link) (o : Occurrence) :
    ∃ r d, Reports (l.meet handler o).2 r d ∧ r + d = (framesOf [o]).length := by
  cases o with
  | opened => exact ⟨0, 0, opened_reports l, rfl⟩
  | frame bytes =>
    rcases receive_reports hh l bytes with h | h
    · exact ⟨1, 0, h, rfl⟩
    · exact ⟨0, 1, h, rfl⟩

theorem signals_reports (hh : handler ≠ Handler.none) (l : Link) (course : List Occurrence) :
    ∃ r d, Reports (l.signals handler course) r d ∧ r + d = (framesOf course).length := by
  induction course generalizing l with
  | nil => exact ⟨0, 0, ⟨rfl, rfl, rfl⟩, rfl⟩
  | cons o rest ih =>
    obtain ⟨r, d, h, hn⟩ := meet_reports hh l o
    obtain ⟨r', d', h', hn'⟩ := ih (l.meet handler o).1
    refine ⟨r + r', d + d', h.append h', ?_⟩
    have hsplit : framesOf (o :: rest) = framesOf [o] ++ framesOf rest := by cases o <;> rfl
    rw [hsplit, List.length_append]
    omega

end Push

-- ---------------------------------------------------------------------------
-- The board
-- ---------------------------------------------------------------------------

namespace Telemetry

/-- The sum of all counts of a table. -/
def total (t : Table κ UInt64) : UInt64 := t.foldr (fun entry sum => entry.2 + sum) 0

theorem total_set [DecidableEq κ] (t : Table κ UInt64) (key : κ) :
    total (t.set key ((t.get? key).getD 0 + 1)) = total t + 1 := by
  induction t with
  | nil => rfl
  | cons entry rest ih =>
    obtain ⟨k, old⟩ := entry
    by_cases hk : k = key
    · simp only [total, Table.set, Table.get?, hk, if_true, Option.getD_some, List.foldr_cons]
      rw [UInt64.add_assoc, UInt64.add_comm 1, ← UInt64.add_assoc]
    · simp only [total] at ih
      simp [total, Table.set, Table.get?, hk, ih, UInt64.add_assoc]

/-- A board after events, each folded at its own instant. -/
def Board.after (b : Board) (events : List (Instant × Event)) : Board :=
  events.foldl (fun b e => b.fold e.1 e.2) b

/-- A job change touches what the board keeps of jobs, and nothing else. -/
theorem Board.fold_job (b : Board) (now : Instant) (change : JobChange) :
    ∃ active recent states, b.fold now (.job change) =
      { b with activeJobs := active, recentJobs := recent, jobsByState := states } := by
  show ∃ active recent states, b.foldJob change = _
  unfold Board.foldJob
  split
  · exact ⟨_, _, _, rfl⟩
  · exact ⟨_, _, _, rfl⟩

/-- A part of the board that some events change, each in the same way, takes
just those in, whatever else is folded between them. -/
theorem Board.after_view (view : Board → α) {pick : Event → Option β} {step : α → β → α}
    (hfold : ∀ b now event,
      view (b.fold now event) = (pick event).elim (view b) (step (view b)))
    (b : Board) (events : List (Instant × Event)) :
    view (b.after events) = ((events.map Prod.snd).filterMap pick).foldl step (view b) := by
  induction events generalizing b with
  | nil => rfl
  | cons e rest ih =>
    have hrest : view (b.after (e :: rest)) = _ := ih (b.fold e.1 e.2)
    rw [hrest, hfold, List.map_cons, List.filterMap_cons]
    cases pick e.2 <;> rfl

/-- A board that has counted `r` frames as received and `d` as dropped. -/
structure Counted (b : Board) (r d : Nat) : Prop where
  received : b.messagesReceived = UInt64.ofNat r
  dropped : b.messagesDropped = UInt64.ofNat d
  kinds : total b.messagesByKind = b.messagesReceived
  reasons : total b.dropsByReason = b.messagesDropped

theorem Counted.received_step (h : Counted b r d) (now : Instant) (kind : Text) (seq : UInt64) :
    Counted (b.fold now (.received kind seq)) (r + 1) d where
  received := by simp [Board.fold, Board.addMessageTime, h.received, UInt64.ofNat_add]
  dropped := h.dropped
  kinds := by simp [Board.fold, Board.addMessageTime, Table.count, total_set, h.kinds]
  reasons := h.reasons

theorem Counted.dropped_step (h : Counted b r d) (now : Instant) (reason : DropReason)
    (seq : UInt64) : Counted (b.fold now (.dropped reason seq)) r (d + 1) where
  received := h.received
  dropped := by simp [Board.fold, h.dropped, UInt64.ofNat_add]
  kinds := h.kinds
  reasons := by simp [Board.fold, Table.count, total_set, h.reasons]

/-- Events that report on no frame leave the counts alone. -/
theorem Counted.other_step (h : Counted b r d) (now : Instant) (hr : event.isReport = false) :
    Counted (b.fold now event) r d := by
  cases event with
  | received => cases hr
  | dropped => cases hr
  | job change =>
    obtain ⟨_, _, _, hframe⟩ := b.fold_job now change
    rw [hframe]
    exact ⟨h.received, h.dropped, h.kinds, h.reasons⟩
  | _ => exact ⟨h.received, h.dropped, h.kinds, h.reasons⟩

theorem Counted.after (h : Counted b r d) (events : List (Instant × Event)) :
    Counted (b.after events) (r + (events.map Prod.snd).countP Event.isReceived)
      (d + (events.map Prod.snd).countP Event.isDropped) := by
  induction events generalizing b r d with
  | nil => exact h
  | cons e rest ih =>
    obtain ⟨now, event⟩ := e
    simp only [Board.after, List.foldl_cons, List.map_cons, List.countP_cons]
    cases event with
    | received kind seq =>
      have := ih (h.received_step now kind seq)
      simpa [Event.isReceived, Event.isDropped, Board.after, Nat.add_assoc, Nat.add_comm] using this
    | dropped reason seq =>
      have := ih (h.dropped_step now reason seq)
      simpa [Event.isReceived, Event.isDropped, Board.after, Nat.add_assoc, Nat.add_comm] using this
    | _ => exact ih (h.other_step now rfl)

theorem counted_new (settings : Settings) (started : Instant) :
    Counted (Board.new settings started) 0 0 := ⟨rfl, rfl, rfl, rfl⟩

end Telemetry

namespace Push

open Telemetry (Event Board)

/-- What the counters of a board say of so many frames and calls of the
handler. -/
structure Totals (b : Board) (frames calls : Nat) : Prop where
  sum : b.messagesReceived + b.messagesDropped = UInt64.ofNat frames
  received : b.messagesReceived = UInt64.ofNat calls
  kinds : b.messagesReceived = Telemetry.total b.messagesByKind
  reasons : b.messagesDropped = Telemetry.total b.dropsByReason
  /-- No counter has wrapped around. -/
  exact : frames < UInt64.size →
    b.messagesReceived.toNat + b.messagesDropped.toNat = frames ∧ b.messagesReceived.toNat = calls

theorem totals_of_counted (h : Telemetry.Counted b r d) : Totals b (r + d) r where
  sum := by rw [h.received, h.dropped, UInt64.ofNat_add]
  received := h.received
  kinds := h.kinds.symm
  reasons := h.reasons.symm
  exact hlt := by
    have hr : r < UInt64.size := by omega
    have hd : d < UInt64.size := by omega
    rw [h.received, h.dropped, UInt64.toNat_ofNat_of_lt' hr, UInt64.toNat_ofNat_of_lt' hd]
    exact ⟨rfl, rfl⟩

theorem countP_filter_report {p : Event → Bool} (hp : ∀ e, p e = true → e.isReport = true)
    (events : List Event) : (events.filter Event.isReport).countP p = events.countP p := by
  rw [List.countP_filter]
  refine List.countP_congr fun e _ => ?_
  simpa using hp e

/-- Every frame of a course is accounted for, and the board that folds what
is published counts every frame once. `events` is all that is published
while the link goes through the course, by the link and by others; only the
link reports on frames. -/
theorem frames_accounted (url : Text) (timing : Timing) (handler : Handler)
    (hh : handler ≠ .none) (course : List Occurrence) :
    (∀ frame, Accounted handler ((Link.new url timing).after handler course) frame) ∧
    ∀ (settings : Telemetry.Settings) (started : Instant) (events : List (Instant × Event)),
      (events.map Prod.snd).filter Event.isReport =
        (published ((Link.new url timing).signals handler course)).filter Event.isReport →
      Totals ((Board.new settings started).after events) (framesOf course).length
        (delivered ((Link.new url timing).signals handler course)).length := by
  refine ⟨accounted hh _, fun settings started events hevents => ?_⟩
  obtain ⟨r, d, h, hn⟩ := signals_reports hh (Link.new url timing) course
  have hreceived : (events.map Prod.snd).countP Event.isReceived = r := by
    rw [← countP_filter_report (by simp +contextual [Event.isReport]), hevents,
      countP_filter_report (by simp +contextual [Event.isReport]), h.received]
  have hdropped : (events.map Prod.snd).countP Event.isDropped = d := by
    rw [← countP_filter_report (by simp +contextual [Event.isReport]), hevents,
      countP_filter_report (by simp +contextual [Event.isReport]), h.dropped]
  have hcounted := (Telemetry.counted_new settings started).after events
  rw [hreceived, hdropped, Nat.zero_add, Nat.zero_add] at hcounted
  rw [← hn, h.delivered]
  exact totals_of_counted hcounted

/-- One frame for each way a frame can leave, with an open between them: no
JSON, a device list, the same number again, an unknown type, a list that is
none. -/
def fiveExits : List Occurrence := [
  .opened,
  .frame "no frame",
  .frame "\x7b\"seq\":1,\"type\":\"devices_delta\",\"data\":\x7b\"devices\":[]\x7d\x7d",
  .frame "\x7b\"seq\":1,\"type\":\"health_state\",\"data\":\x7b\x7d\x7d",
  .opened,
  .frame "\x7b\"seq\":1,\"version\":2,\"type\":\"other\"\x7d",
  .frame "\x7b\"seq\":2,\"type\":\"devices_delta\",\"data\":\x7b\"devices\":1\x7d\x7d"]

/-- What is published meanwhile; the handler announces the device list. -/
def fiveExitsEvents : List (Instant × Event) := [
  (0, .connection "ws://gw/ws" true 0),
  (1, .dropped .malformed 0),
  (2, .devices []),
  (2, .received "devices_delta" 1),
  (3, .dropped .duplicate 1),
  (4, .connection "ws://gw/ws" true 0),
  (5, .versionMismatch 1 2),
  (5, .dropped .unknownType 1),
  (6, .dropped .malformed 2)]

theorem totals_fiveExits :
    (fiveExitsEvents.map Prod.snd).filter Event.isReport =
      (published ((Link.new "ws://gw/ws" {}).signals .plain fiveExits)).filter Event.isReport ∧
    Totals ((Board.new {} 0).after fiveExitsEvents) 5 1 := by
  have hevents : (fiveExitsEvents.map Prod.snd).filter Event.isReport =
      (published ((Link.new "ws://gw/ws" {}).signals .plain fiveExits)).filter Event.isReport := by
    decide +kernel
  have hcalls : (delivered ((Link.new "ws://gw/ws" {}).signals .plain fiveExits)).length = 1 := by
    decide +kernel
  have h := (frames_accounted "ws://gw/ws" {} .plain (by decide) fiveExits).2 {} 0
    fiveExitsEvents hevents
  rw [hcalls] at h
  exact ⟨hevents, h⟩

end Push

end MeshConsole
