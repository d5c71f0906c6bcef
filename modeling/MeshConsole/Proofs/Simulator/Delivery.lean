import MeshConsole.Proofs.Gateway.Records
import MeshConsole.Proofs.Push.Gate
import MeshConsole.Proofs.Simulator.Frames
import MeshConsole.Simulator.Operation

/-!
# Delivery of pushes

The simulator numbers its pushes by a counter that runs on over all
connections, while the watermark of a console starts again with each of them.

`pushes_delivered`: as long as the counter does not overflow, every frame that
is pushed while the console is connected passes its gate.
-/

namespace MeshConsole

-- ---------------------------------------------------------------------------
-- Frames that pass
-- ---------------------------------------------------------------------------

namespace Push

/-- A frame is decoded and gets past the gate under its number. What it carries
may still turn out to be broken, or of no known kind. -/
def Link.Takes (handler : Handler) (l : Link) (frame : Text) : Prop :=
  ∃ m seq, decode frame = .ok m ∧ m.seq = some seq ∧ l.lastSeq < seq ∧
    l.receive handler frame =
      ({ l with lastSeq := seq }, versionSignals m ++ dispatchSignals handler m)

/-- Every frame of a course passes. -/
def Link.TakesAll (handler : Handler) : Link → List Occurrence → Prop
  | _, [] => True
  | l, .opened :: rest => l.opened.1.TakesAll handler rest
  | l, .frame bytes :: rest =>
    l.Takes handler bytes ∧ (l.receive handler bytes).1.TakesAll handler rest

/-- The number of the last frame of the latest connection. -/
def lastNumber (course : List Occurrence) : UInt64 :=
  ((sinceOpen course).getLast?.bind sequenceOf?).getD 0

section
variable {handler : Handler} {l : Link} {course : List Occurrence} {frame : Text} {seq : UInt64}

theorem takes_of_lt (h : sequenceOf? frame = some seq) (hlt : l.lastSeq < seq) :
    l.Takes handler frame := by
  rcases receive_cases l handler frame with
    ⟨why, hd, -⟩ | ⟨m, hd, hs, -⟩ | ⟨m, seq', hd, hs, hle, -⟩ | ⟨m, seq', hd, hs, hlt, hr⟩
  · simp [sequenceOf?_error hd] at h
  · simp [sequenceOf?_ok hd, hs] at h
  · obtain rfl : seq' = seq := by simpa [sequenceOf?_ok hd, hs] using h
    exact absurd hle (UInt64.not_le.mpr hlt)
  · exact ⟨m, seq', hd, hs, hlt, hr⟩

theorem takesAll_append (more : List Occurrence) :
    l.TakesAll handler (course ++ more) ↔
      l.TakesAll handler course ∧ (l.after handler course).TakesAll handler more := by
  induction course generalizing l with
  | nil => simp [Link.TakesAll, Link.after]
  | cons o course ih =>
    cases o with
    | opened => exact ih
    | frame bytes =>
      simp only [List.cons_append, Link.TakesAll, ih, and_assoc]
      rfl

theorem after_append (o : Occurrence) :
    l.after handler (course ++ [o]) = ((l.after handler course).meet handler o).1 := by
  simp [Link.after]

theorem lastNumber_opened : lastNumber (course ++ [.opened]) = 0 := by
  simp [lastNumber, sinceOpen, extend]

theorem lastNumber_frame (h : sequenceOf? frame = some seq) :
    lastNumber (course ++ [.frame frame]) = seq := by
  simp [lastNumber, sinceOpen, extend, h]

end

/-- A link has taken every frame of a course; their numbers have come to
`last` at most. -/
structure Followed (handler : Handler) (l : Link) (course : List Occurrence) (last : UInt64) :
    Prop where
  takes : l.TakesAll handler course
  lastSeq : (l.after handler course).lastSeq = lastNumber course
  behind : lastNumber course ≤ last

namespace Followed

variable {handler : Handler} {l : Link} {course : List Occurrence} {last next : UInt64}
  (h : Followed handler l course last)
include h

theorem mono (hle : last ≤ next) : Followed handler l course next :=
  { h with behind := UInt64.le_trans h.behind hle }

theorem opened : Followed handler l (course ++ [.opened]) last where
  takes := (takesAll_append _).mpr ⟨h.takes, trivial⟩
  lastSeq := by
    rw [after_append, lastNumber_opened]
    rfl
  behind := by
    rw [lastNumber_opened]
    exact UInt64.zero_le

theorem frame {bytes : Text} (hframe : sequenceOf? bytes = some next) (hlt : last < next) :
    Followed handler l (course ++ [.frame bytes]) next := by
  have hbelow : (l.after handler course).lastSeq < next := by
    rw [h.lastSeq]
    exact UInt64.lt_of_le_of_lt h.behind hlt
  refine ⟨(takesAll_append _).mpr ⟨h.takes, takes_of_lt hframe hbelow, trivial⟩, ?_, ?_⟩
  · rw [after_append, lastNumber_frame hframe]
    show ((l.after handler course).receive handler bytes).1.lastSeq = next
    rw [receive_lastSeq, hframe]
    exact max_of_le (UInt64.le_of_lt hbelow)
  · rw [lastNumber_frame hframe]
    exact UInt64.le_refl _

end Followed

end Push

namespace Simulator

open Push (Link Handler Occurrence sequenceOf? lastNumber)

-- ---------------------------------------------------------------------------
-- What the simulator does
-- ---------------------------------------------------------------------------

/-- What an operation does to the counter: it leaves it alone and pushes
nothing, or it takes the next number for the one frame it pushes, if any. -/
inductive Numbers (last : UInt64) : Simulator → List Effect → Prop where
  | quiet {next effects} : next.seq = last → frames effects = [] → Numbers last next effects
  | push {next effects} (frame? : Option Text) : next.seq = last + 1 →
      frames effects = frame?.toList →
      (∀ frame ∈ frame?, sequenceOf? frame = some (last + 1)) → Numbers last next effects

theorem Numbers.congr (h : Numbers last next effects) (hseq : next'.seq = next.seq) :
    Numbers last next' effects := by
  cases h with
  | quiet hnext heffects => exact .quiet (hseq.trans hnext) heffects
  | push frame? hnext heffects hframe => exact .push frame? (hseq.trans hnext) heffects hframe

theorem numbers_broadcast {s : Simulator} (hseq : s.seq = last) (now : Instant) (type : Text)
    (data : Json.Value) :
    Numbers last (s.broadcast now type data).1 (s.broadcast now type data).2 := by
  subst hseq
  dsimp only [broadcast]
  cases hframe : s.frame? now (s.seq + 1) type data with
  | none => exact .push none rfl rfl nofun
  | some frame =>
    refine .push (some frame) rfl rfl ?_
    rintro _ ⟨⟩
    exact Push.sequenceOf?_ok (decode_frame? hframe)

section
variable (s : Simulator) (now : Instant)

theorem numbers_refreshTable :
    Numbers s.seq (s.refreshTable now).1 (s.refreshTable now).2 := by
  refine numbers_broadcast ?_ _ _ _
  rfl

theorem numbers_execute (job : SimJob) :
    Numbers s.seq (s.execute now job).1 (s.execute now job).2.2 := by
  unfold execute
  iterate 4
    split
    · exact .quiet rfl rfl
  exact numbers_refreshTable s now

theorem numbers_pollJob (job : SimJob) :
    Numbers s.seq (s.pollJob now job).1 (s.pollJob now job).2.2 := by
  unfold pollJob
  split
  · exact .quiet rfl rfl
  dsimp only
  split
  · exact .quiet rfl rfl
  split
  · exact .quiet rfl rfl
  · exact (numbers_execute s now _).congr rfl

theorem numbers_withDevices (devices : Option (List Device)) (done failed : Text) :
    Numbers s.seq (withDevices s devices done failed).simulator
      (withDevices s devices done failed).effects := by
  unfold withDevices
  split <;> exact .quiet rfl rfl

theorem numbers_serveRoute (r : Incoming) (route : Route) :
    Numbers s.seq (s.serveRoute now r route).simulator (s.serveRoute now r route).effects := by
  cases route with
  | status | health | links | permitJoin | socket => exact .quiet rfl rfl
  | submitJob =>
    show Numbers s.seq (serveSubmit s now r).simulator (serveSubmit s now r).effects
    unfold serveSubmit
    split
    · exact .quiet rfl rfl
    · split <;> exact .quiet rfl rfl
  | job id =>
    show Numbers s.seq (serveJob s now id).simulator (serveJob s now id).effects
    unfold serveJob
    split
    · exact .quiet rfl rfl
    split
    · exact .quiet rfl rfl
    split
    · exact .quiet rfl rfl
    · exact numbers_pollJob s now _
  | control =>
    show Numbers s.seq (serveControl s r).simulator (serveControl s r).effects
    unfold serveControl
    split <;> exact .quiet rfl rfl
  | delete =>
    show Numbers s.seq (serveDelete s r).simulator (serveDelete s r).effects
    unfold serveDelete
    split
    · exact .quiet rfl rfl
    · exact numbers_withDevices s _ _ _
  | rename =>
    show Numbers s.seq (serveRename s r).simulator (serveRename s r).effects
    unfold serveRename
    dsimp only
    split
    · exact .quiet rfl rfl
    · exact numbers_withDevices s _ _ _
  | wifi =>
    show Numbers s.seq (serveWifi s r).simulator (serveWifi s r).effects
    unfold serveWifi
    split
    · exact .quiet rfl rfl
    · split <;> exact .quiet rfl rfl

theorem numbers_serve (r : Incoming) :
    Numbers s.seq (s.serve now r).simulator (s.serve now r).effects := by
  unfold serve
  dsimp only
  split
  · exact .quiet rfl rfl
  split
  · exact .quiet rfl rfl
  split
  · exact numbers_serveRoute s now r _
  · split <;> exact .quiet rfl rfl

theorem numbers_perform (operation : Operation) :
    Numbers s.seq (s.perform now operation).1 (s.perform now operation).2 := by
  cases operation with
  | setDevices | setNeighbors | drift | broadcast =>
    refine numbers_broadcast ?_ _ _ _
    rfl
  | serve request => exact numbers_serve s now request
  | adjust change => exact .quiet rfl rfl

end

-- ---------------------------------------------------------------------------
-- The push channel
-- ---------------------------------------------------------------------------

namespace Channel

theorem taken_step (c : Channel) (event : Event) : c.taken ≤ (c.step event).taken := by
  cases event with
  | operate now operation => exact Nat.le_add_right _ _
  | connect | drop => exact Nat.le_refl _

theorem taken_after (c : Channel) (events : List Event) : c.taken ≤ (c.after events).taken := by
  induction events generalizing c with
  | nil => exact Nat.le_refl _
  | cons event events ih => exact Nat.le_trans (taken_step c event) (ih _)

/-- The frames carry numbers that increase from zero on. -/
def Numbered (frames : List Text) (last : UInt64) : Prop :=
  ∃ seqs, frames.map sequenceOf? = seqs.map some ∧ (0 :: seqs).Pairwise (· < ·) ∧
    ∀ seq ∈ seqs, seq ≤ last

/-- How a channel stands, whose counter started from `first`, with a link that
was `l` at the beginning. -/
structure Sound (first : UInt64) (handler : Handler) (l : Link) (c : Channel) : Prop where
  counter : c.simulator.seq.toNat = first.toNat + c.taken
  numbered : Numbered c.pushed c.simulator.seq
  followed : Push.Followed handler l c.course c.simulator.seq

theorem Numbered.mono {frames : List Text} {last next : UInt64} (h : Numbered frames last)
    (hle : last ≤ next) : Numbered frames next := by
  obtain ⟨seqs, hmap, hinc, hmax⟩ := h
  exact ⟨seqs, hmap, hinc, fun seq hmem => UInt64.le_trans (hmax seq hmem) hle⟩

theorem Numbered.snoc {frames : List Text} {last next : UInt64} (h : Numbered frames last)
    (hlt : last < next) (hframe : sequenceOf? frame = some next) :
    Numbered (frames ++ [frame]) next := by
  obtain ⟨seqs, hmap, hinc, hmax⟩ := h
  have hbelow : ∀ seq ∈ 0 :: seqs, seq < next := by
    intro seq hmem
    rcases List.mem_cons.mp hmem with rfl | hmem
    · exact UInt64.lt_of_le_of_lt UInt64.zero_le hlt
    · exact UInt64.lt_of_le_of_lt (hmax seq hmem) hlt
  refine ⟨seqs ++ [next], by simp [hmap, hframe], ?_, ?_⟩
  · rw [← List.cons_append, List.pairwise_append]
    exact ⟨hinc, List.pairwise_singleton _ _, by simpa using hbelow⟩
  · intro seq hmem
    rcases List.mem_append.mp hmem with hmem | hmem
    · exact UInt64.le_of_lt (hbelow seq (List.mem_cons_of_mem _ hmem))
    · rw [List.mem_singleton.mp hmem]
      exact UInt64.le_refl _

section
variable {first : UInt64} {handler : Handler} {l : Link} {c : Channel}

theorem succ_seq {seq : UInt64} (h : seq.toNat + 1 < UInt64.size) :
    (seq + 1).toNat = seq.toNat + 1 ∧ seq < seq + 1 := by
  have hsucc : (seq + 1).toNat = seq.toNat + 1 := by
    rw [UInt64.toNat_add]
    exact Nat.mod_eq_of_lt h
  refine ⟨hsucc, UInt64.lt_iff_toNat_lt.mpr ?_⟩
  rw [hsucc]
  exact Nat.lt_succ_self _

theorem sound_put (hc : c.Sound first handler l) (h : Numbers c.simulator.seq next effects)
    (hroom : first.toNat + (c.put next effects).taken < UInt64.size) :
    (c.put next effects).Sound first handler l := by
  cases h with
  | quiet hseq hframes =>
    have hsame : c.put next effects = { c with simulator := next } := by
      simp [put, hseq, hframes]
    rw [hsame]
    exact ⟨hseq ▸ hc.counter, hseq ▸ hc.numbered, hseq ▸ hc.followed⟩
  | push frame? hseq hframes hframe =>
    have hother : next.seq ≠ c.simulator.seq := by simp [hseq]
    have htaken : (c.put next effects).taken = c.taken + 1 := by simp [put, hother]
    have hcounter := hc.counter
    have hfits : c.simulator.seq.toNat + 1 < UInt64.size := by omega
    obtain ⟨hsucc, hlt⟩ := succ_seq hfits
    rw [← hseq] at hsucc hlt hframe
    have hnext : (c.put next effects).simulator.seq.toNat =
        first.toNat + (c.put next effects).taken := by
      rw [htaken]
      show next.seq.toNat = _
      omega
    have hbehind := hc.followed.mono (UInt64.le_of_lt hlt)
    cases frame? with
    | none =>
      have hnumbered := hc.numbered.mono (UInt64.le_of_lt hlt)
      refine ⟨hnext, ?_, ?_⟩
      · simpa [put, hframes] using hnumbered
      · simpa [put, hframes] using hbehind
    | some frame =>
      have hframe := hframe frame rfl
      refine ⟨hnext, ?_, ?_⟩
      · simpa [put, hframes] using hc.numbered.snoc hlt hframe
      · cases hconnected : c.connected with
        | false => simpa [put, hconnected] using hbehind
        | true => simpa [put, hframes, hconnected] using hc.followed.frame hframe hlt

/-- The counter does not overflow on the way. -/
theorem sound_step (hc : c.Sound first handler l) (event : Event)
    (hroom : first.toNat + (c.step event).taken < UInt64.size) :
    (c.step event).Sound first handler l := by
  cases event with
  | operate now operation => exact sound_put hc (numbers_perform _ now operation) hroom
  | connect => exact { hc with followed := hc.followed.opened }
  | drop => exact { hc with }

theorem sound_after (hc : c.Sound first handler l) (events : List Event)
    (hroom : first.toNat + (c.after events).taken < UInt64.size) :
    (c.after events).Sound first handler l := by
  induction events generalizing c with
  | nil => exact hc
  | cons event events ih =>
    have htaken := taken_after (c.step event) events
    refine ih (sound_step hc event ?_) hroom
    exact Nat.lt_of_le_of_lt (Nat.add_le_add_left htaken _) hroom

end

theorem sound_idle (s : Simulator) (handler : Handler) (url : Text) (timing : Push.Timing) :
    (idle s).Sound s.seq handler (.new url timing) where
  counter := rfl
  numbered := ⟨[], rfl, List.pairwise_singleton _ _, nofun⟩
  followed := ⟨trivial, rfl, UInt64.zero_le⟩

end Channel

/-- Whatever the simulator does, and whenever the console connects and drops,
as long as the counter does not overflow. The frames carry positive numbers
that increase. The console's link takes each frame that is pushed while it is
connected, none of them being late or undecodable, and its watermark is the
number of the last one of the latest connection, or zero. -/
theorem pushes_delivered (s : Simulator) (events : List Event) (handler : Handler) (url : Text)
    (timing : Push.Timing)
    (hroom : s.seq.toNat + ((Channel.idle s).after events).taken < 2 ^ 64) :
    (∃ seqs, ((Channel.idle s).after events).pushed.map sequenceOf? = seqs.map some ∧
      (0 :: seqs).Pairwise (· < ·)) ∧
    (Link.new url timing).TakesAll handler ((Channel.idle s).after events).course ∧
    ((Link.new url timing).after handler ((Channel.idle s).after events).course).lastSeq =
      lastNumber ((Channel.idle s).after events).course := by
  have hsound := Channel.sound_after (Channel.sound_idle s handler url timing) events hroom
  obtain ⟨seqs, hmap, hinc, -⟩ := hsound.numbered
  exact ⟨⟨seqs, hmap, hinc⟩, hsound.followed.takes, hsound.followed.lastSeq⟩

/-- Two connections. The pushes before and between them take numbers as
well. -/
def reconnecting : List Event := [
  .operate 0 (.setDevices (some [{ addr := 0x1001 }])), .connect,
  .operate 1 (.broadcast "greeting" (.text "hello")), .drop,
  .operate 2 (.setNeighbors "neighbor_table" [{ addr := 0x1001, lqi := some 90 }]), .connect,
  .operate 3 (.drift fun _ => -20), .operate 4 (.setDevices none)]

theorem delivered_reconnecting :
    ((Channel.idle {}).after reconnecting).taken = 5 ∧
    (Link.new "ws://gw/ws" {}).TakesAll .plain ((Channel.idle {}).after reconnecting).course ∧
    ((Link.new "ws://gw/ws" {}).after .plain
        ((Channel.idle {}).after reconnecting).course).lastSeq =
      lastNumber ((Channel.idle {}).after reconnecting).course := by
  have htaken : ((Channel.idle {}).after reconnecting).taken = 5 := by decide +kernel
  have hroom : (0 : UInt64).toNat + ((Channel.idle {}).after reconnecting).taken < 2 ^ 64 := by
    rw [htaken]
    decide
  exact ⟨htaken, (pushes_delivered {} reconnecting .plain "ws://gw/ws" {} hroom).2⟩

end Simulator

end MeshConsole
