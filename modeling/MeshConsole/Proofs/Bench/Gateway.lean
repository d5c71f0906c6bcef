import MeshConsole.Proofs.Bench.Mirror
import MeshConsole.Proofs.Push.Standing
import MeshConsole.Proofs.Simulator.Delivery

/-!
# The push channel of a bench

Whatever befalls the simulated gateway of a bench, its link hears it as on a
push channel: an operation (`wired_operate`), a dial (`wired_dialed`) and a drop
(`wired_dropClients`) are events of a channel, and nothing else that the link is
told of is one, unless it takes the link off the channel (`Wired.tellLink`).
-/

namespace MeshConsole.Bench

open Simulator (Channel Effect Operation Setting frames)

-- ---------------------------------------------------------------------------
-- What the channel has to do with
-- ---------------------------------------------------------------------------

/-- What of a bench has to do with the push channel of its gateway. -/
structure Wire where
  simulator : Simulator
  attached : Bool
  isScripted : Bool
  run : Push.Run

def World.wire (w : World) : Wire where
  simulator := w.simulator
  attached := w.attached
  isScripted := w.isScripted
  run := w.session.run

theorem World.Beside.wire {w next : World} (h : w.Beside next) : next.wire = w.wire := by
  obtain ⟨⟨_, _, _, _, _, rfl⟩, hscripted⟩ := h
  simp only [World.wire, hscripted]

/-- A channel that is a bench's, with a link that was `l` at the beginning.
While the bench hangs on the channel, its link has the watermark that the
course of the channel leads to. -/
structure Wired (handler : Push.Handler) (l : Push.Link) (c : Channel) (s : Wire) : Prop where
  simulator : s.simulator = c.simulator
  connected : s.attached = c.connected
  fixed : s.run.Fixed handler l.url l.timing
  simulated : c.connected = true → s.isScripted = false
  reading : c.connected = true → s.run.phase = .reading
  lastSeq : c.connected = true → s.run.link.lastSeq = (l.after handler c.course).lastSeq

/-- Off the channel, the link may do as it likes. -/
theorem Wired.off {handler : Push.Handler} {l : Push.Link} {c : Channel} {s : Wire}
    (hsimulator : s.simulator = c.simulator) (hattached : s.attached = false)
    (hfixed : s.run.Fixed handler l.url l.timing) :
    Wired handler l { c with connected := false } s :=
  ⟨hsimulator, hattached, hfixed, nofun, nofun, nofun⟩

/-- Nothing but what has been pushed by then tells the channels apart. -/
structure SameCourse (c d : Channel) : Prop where
  simulator : c.simulator = d.simulator
  connected : c.connected = d.connected
  course : c.course = d.course

theorem Wired.of_same {handler : Push.Handler} {l : Push.Link} {c d : Channel} {s : Wire}
    (h : Wired handler l c s) (hsame : SameCourse d c) : Wired handler l d s where
  simulator := h.simulator.trans hsame.simulator.symm
  connected := h.connected.trans hsame.connected.symm
  fixed := h.fixed
  simulated := hsame.connected ▸ h.simulated
  reading := hsame.connected ▸ h.reading
  lastSeq := by
    rw [hsame.connected, hsame.course]
    exact h.lastSeq

section
variable {handler : Push.Handler} {l : Push.Link} {c : Channel} {w : World}

-- ---------------------------------------------------------------------------
-- What the link is told of
-- ---------------------------------------------------------------------------

/-- A signal changes nothing of the channel, unless it closes a socket. -/
theorem wire_applySignal (w : World) (signal : Push.Signal) :
    (w.applySignal signal).wire = { w.wire with
      attached := w.attached && (w.isScripted || .closeSocket != signal) } := by
  have hother (hwire : (w.applySignal signal).wire = w.wire) (hsignal : .closeSocket ≠ signal) :
      (w.applySignal signal).wire = { w.wire with
        attached := w.attached && (w.isScripted || .closeSocket != signal) } := by
    rw [hwire, bne_iff_ne.mpr hsignal, Bool.or_true, Bool.and_true]
    rfl
  cases signal with
  | log line => exact hother (World.beside_log w line).wire nofun
  | publish event => exact hother (World.beside_publish w event).wire nofun
  | deliver payload =>
    refine hother ?_ nofun
    show (w.takePayload payload).wire = w.wire
    unfold World.takePayload
    split
    · let state := ((Session.takePayload payload).run w.now false w.session).state
      have hrun : state.run = w.session.run := by
        unfold state
        rw [Session.run_takePayload]
        cases payload <;> rfl
      have htaken : ({ w with session := state } : World).wire = w.wire := by
        show ({ w.wire with run := state.run } : Wire) = w.wire
        rw [hrun]
        rfl
      exact (World.beside_tell _ _).wire.trans htaken
    · rfl
  | closeSocket =>
    show (if w.isScripted then w.observe .socketClosed else { w with attached := false }).wire = _
    split
    · rename_i hscripted
      rw [hscripted, Bool.true_or, Bool.and_true]
      rfl
    · rename_i hscripted
      rw [Bool.eq_false_iff.mpr hscripted, bne_self_eq_false, Bool.or_false, Bool.and_false]
      rfl
  | schedule | unschedule | reconcile => exact hother rfl nofun

theorem wire_signals (w : World) (signals : List Push.Signal) :
    (signals.foldl World.applySignal w).wire = { w.wire with
      attached := w.attached && (w.isScripted || !signals.contains .closeSocket) } := by
  induction signals generalizing w with
  | nil => simp [World.wire]
  | cons signal rest ih =>
    have hone := wire_applySignal w signal
    have hattached : (w.applySignal signal).attached = _ := congrArg Wire.attached hone
    have hscripted : (w.applySignal signal).isScripted = w.isScripted :=
      congrArg Wire.isScripted hone
    rw [List.foldl_cons, ih, hone, hattached, hscripted, List.contains_cons, bne]
    simp only [Wire.mk.injEq, true_and, and_true]
    cases w.attached <;> cases w.isScripted <;> simp

/-- What is left of the channel once the link has been told of something. -/
theorem wire_tellLink (w : World) (h : Push.Happening) :
    let next := w.session.run.step w.now h
    (w.tellLink h).wire = { w.wire with
      run := next.1
      attached := w.attached && (w.isScripted || !next.2.contains .closeSocket) } :=
  wire_signals (w.withRun (w.session.run.step w.now h).1) (w.session.run.step w.now h).2

/-- Whatever the link is told of, opens and frames apart, is nothing of the
channel's, but that it may take the link off it. -/
theorem Wired.tellLink (hw : Wired handler l c w.wire) {h : Push.Happening}
    (hdialed : h ≠ .dialed) (hframe : ∀ bytes, h ≠ .frame bytes) :
    Wired handler l { c with connected := (w.tellLink h).attached } (w.tellLink h).wire := by
  have htold := wire_tellLink w h
  have hattached : (w.tellLink h).attached = _ := congrArg Wire.attached htold
  have hfixed := Push.Run.step_fixed hw.fixed w.now h
  rw [htold]
  refine ⟨hw.simulator, hattached.symm, hfixed, fun hstill => ?_, fun hstill => ?_,
    fun hstill => ?_⟩
  all_goals
    obtain ⟨hwas, hopen⟩ := Bool.and_eq_true_iff.mp (hattached.symm.trans hstill)
    have hconnected := hw.connected.symm.trans hwas
  · exact hw.simulated hconnected
  · rw [show w.isScripted = false from hw.simulated hconnected, Bool.false_or] at hopen
    have hreading : w.session.run.phase = .reading := hw.reading hconnected
    refine Push.Run.step_reading hreading w.now hdialed fun hclose => ?_
    rw [List.contains_iff_mem.mpr hclose] at hopen
    cases hopen
  · exact (Push.Run.step_lastSeq _ w.now hdialed hframe).trans (hw.lastSeq hconnected)

/-- A loop hears of opens and frames only as such. -/
theorem heard?_other {cancelled : Bool} {h heard : Push.Happening}
    (hheard : Session.Live.heard? cancelled h = some heard) (hdialed : h ≠ .dialed)
    (hframe : ∀ bytes, h ≠ .frame bytes) : heard ≠ .dialed ∧ ∀ bytes, heard ≠ .frame bytes := by
  cases h with
  | dialed => exact absurd rfl hdialed
  | frame bytes => exact absurd rfl (hframe bytes)
  | dialFailed | readFailed | waited | cancelled =>
    cases cancelled <;> cases hheard <;> exact ⟨nofun, nofun⟩
  | pullDue | pullReturned => cases hheard

/-- The link breaks off. -/
theorem Wired.breakLink (hw : Wired handler l c w.wire) :
    Wired handler l { c with connected := false } w.breakLink.wire := by
  unfold World.breakLink
  split
  · let v : World := { w with attached := false }
    have hv : Wired handler l { c with connected := false } v.wire :=
      .off hw.simulator rfl hw.fixed
    rw [(World.beside_rearm _ _).wire]
    unfold World.hear
    split
    · rename_i happening hheard
      obtain ⟨hdialed, hframe⟩ := heard?_other hheard (by simp) (by simp)
      have htold := hv.tellLink hdialed hframe
      have hoff : (v.tellLink happening).attached = false :=
        congrArg Wire.attached (wire_tellLink v happening)
      rw [hoff] at htold
      exact htold
    · exact hv
  · rename_i hdetached
    exact .off hw.simulator (Bool.eq_false_iff.mpr hdetached) hw.fixed

theorem Wired.step_frame (hw : Wired handler l c w.wire) (hconnected : c.connected = true)
    (frame : Text) : w.session.run.step w.now (.frame frame) =
      ({ w.session.run with link := (w.session.run.link.receive handler frame).1 },
        (w.session.run.link.receive handler frame).2) := by
  have hreading : w.session.run.phase = .reading := hw.reading hconnected
  have hhandler : w.session.run.handler = handler := hw.fixed.handler
  simp [Push.Run.step, hreading, hhandler]

/-- The bench hands on of a frame what the link of the channel does. -/
theorem Wired.hands (hw : Wired handler l c w.wire) (hconnected : c.connected = true)
    (frame : Text) : (w.session.run.step w.now (.frame frame)).2 =
      ((l.after handler c.course).receive handler frame).2 := by
  rw [hw.step_frame hconnected frame]
  exact Push.Link.receive_congr (hw.lastSeq hconnected) handler frame

/-- All connections of the channel are dropped. -/
theorem wired_dropClients (hw : Wired handler l c w.wire) :
    Wired handler l (c.step .drop) w.dropClients.wire := by
  let closed : World := w.clients.foldl (fun w client => w.observe (.clientClosed client)) w
  have hclosed : closed.wire = w.wire :=
    (World.Beside.foldl (fun w client => World.beside_observe w _) w w.clients).wire
  have hnone : ({ closed with clients := [] } : World).wire = w.wire := hclosed
  exact Wired.breakLink (hnone ▸ hw)

/-- The link gets through to the channel. -/
theorem wired_dialed (hw : Wired handler l c w.wire) (hsimulated : w.isScripted = false)
    (hdialing : w.session.run.phase = .dialing) (reads : List Read) :
    Wired handler l (c.step .connect) (w.wake (.dialed reads)).wire := by
  let v : World := { w with attached := !w.isScripted }
  have hwake : (w.wake (.dialed reads)).wire = (v.tellLink .dialed).wire :=
    (World.beside_rearm _ _).wire
  obtain ⟨hphase, hopen⟩ := Push.Run.step_dialing hdialing w.now
  obtain ⟨hlink, -⟩ := Push.Run.step_dialed hdialing w.now
  have hattached : (v.attached && (v.isScripted ||
      !(v.session.run.step v.now .dialed).2.contains .closeSocket)) = true := by
    have hclose : (w.session.run.step w.now .dialed).2.contains .closeSocket = false :=
      Bool.eq_false_iff.mpr fun h => hopen (List.contains_iff_mem.mp h)
    rw [show (v.session.run.step v.now .dialed).2.contains .closeSocket = false from hclose]
    simp [v, hsimulated]
  rw [hwake, wire_tellLink]
  refine ⟨hw.simulator, hattached, Push.Run.step_fixed hw.fixed w.now .dialed,
    fun _ => hsimulated, fun _ => hphase, fun _ => ?_⟩
  show (w.session.run.step w.now .dialed).1.link.lastSeq =
    (l.after handler (c.course ++ [.opened])).lastSeq
  rw [hlink, Push.after_append]
  rfl

-- ---------------------------------------------------------------------------
-- What befalls the gateway
-- ---------------------------------------------------------------------------

/-- What a frame is for the link: one that is too long takes it off the
channel. -/
def hearing (c : Channel) (frame : Text) : Channel :=
  if !c.connected then c
  else if World.maxFrame < frame.length then { c with connected := false }
  else { c with course := c.course ++ [.frame frame] }

theorem wired_pushFrame (hw : Wired handler l c w.wire) (frame : Text) :
    Wired handler l (hearing c frame) (w.pushFrame frame).wire := by
  let v : World := w.clients.foldl (fun w client => w.observe (.clientFrame client frame)) w
  have hv : v.wire = w.wire :=
    (World.Beside.foldl (fun w client => World.beside_observe w _) w w.clients).wire
  have hpush : w.pushFrame frame = if !v.attached then v else
      if World.maxFrame < frame.length then v.breakLink else v.hear (.frame frame) := rfl
  have hattached : v.attached = c.connected := (congrArg Wire.attached hv).trans hw.connected
  rw [← hv] at hw
  rw [hpush, hearing, hattached]
  split
  · exact hw
  · rename_i hconnected
    replace hconnected : c.connected = true := by simpa using hconnected
    split
    · exact hw.breakLink
    · have hreading : v.session.run.phase = .reading := hw.reading hconnected
      have hstep := hw.step_frame hconnected frame
      have hopen : (v.session.run.step v.now (.frame frame)).2.contains .closeSocket = false := by
        rw [hstep]
        have hquiet := Push.receive_quiet v.session.run.link handler frame
        refine Bool.eq_false_iff.mpr fun h => ?_
        cases List.all_eq_true.mp hquiet _ (List.contains_iff_mem.mp h)
      have hheard : v.hear (.frame frame) = v.tellLink (.frame frame) := rfl
      have hfixed := Push.Run.step_fixed hw.fixed v.now (.frame frame)
      have hlast : v.session.run.link.lastSeq = (l.after handler c.course).lastSeq :=
        hw.lastSeq hconnected
      rw [hheard, wire_tellLink]
      refine ⟨hw.simulator, ?_, hfixed, fun _ => hw.simulated hconnected, fun _ => ?_, fun _ => ?_⟩
      · rw [hopen, Bool.not_false, Bool.or_true, Bool.and_true]
        exact hattached
      · rw [hstep]
        exact hreading
      · rw [hstep, Push.after_append]
        simp only [Push.Link.meet, Push.receive_lastSeq, hlast]

theorem wired_applyEffects (hw : Wired handler l c w.wire) (result : Simulator × List Effect) :
    Wired handler l ((frames result.2).foldl hearing { c with simulator := result.1 })
      (w.applyEffects result).wire := by
  suffices h : ∀ (effects : List Effect) (c : Channel) (w : World), Wired handler l c w.wire →
      Wired handler l ((frames effects).foldl hearing c)
        (effects.foldl World.simulatorEffect w).wire from
    h result.2 _ { w with simulator := result.1 }
      ⟨rfl, hw.connected, hw.fixed, hw.simulated, hw.reading, hw.lastSeq⟩
  intro effects
  induction effects with
  | nil => exact fun c w hw => hw
  | cons effect rest ih =>
    intro c w hw
    cases effect with
    | log line =>
      refine ih c _ ?_
      simp only [World.simulatorEffect]
      split
      · exact hw
      · exact hw
    | push frame => exact ih _ _ (wired_pushFrame hw frame)

/-- The events of an operation: the channel drops a link that its frame is too
long for. -/
def eventsOf (s : Simulator) (now : Instant) (operation : Operation) : List Simulator.Event :=
  if (frames (s.perform now operation).2).any (World.maxFrame < ·.length) then
    [.drop, .operate now operation]
  else [.operate now operation]

/-- What is heard does not depend on the gateway. -/
theorem hearing_with (c : Channel) (s : Simulator) (heard : List Text) :
    heard.foldl hearing { c with simulator := s } =
      { heard.foldl hearing c with simulator := s } := by
  induction heard generalizing c with
  | nil => rfl
  | cons frame rest ih =>
    have hone : hearing { c with simulator := s } frame =
        { hearing c frame with simulator := s } := by
      unfold hearing
      split
      · rfl
      · split <;> rfl
    rw [List.foldl_cons, List.foldl_cons, hone, ih]

theorem SameCourse.hearing {c d : Channel} (h : SameCourse c d) (heard : List Text) :
    SameCourse (heard.foldl hearing c) (heard.foldl hearing d) := by
  induction heard generalizing c d with
  | nil => exact h
  | cons frame rest ih =>
    refine ih ?_
    obtain ⟨hsimulator, hconnected, hcourse⟩ := h
    unfold Bench.hearing
    rw [hconnected]
    split
    · exact ⟨hsimulator, hconnected, hcourse⟩
    · split
      · exact ⟨hsimulator, rfl, hcourse⟩
      · exact ⟨hsimulator, rfl, congrArg (· ++ _) hcourse⟩

/-- An operation pushes one frame at most, and the link hears it. -/
theorem after_operate (c : Channel) (now : Instant) (operation : Operation) :
    let result := c.simulator.perform now operation
    SameCourse (c.after (eventsOf c.simulator now operation))
      ((frames result.2).foldl hearing { c with simulator := result.1 }) := by
  intro result
  have hframes : frames result.2 = [] ∨ ∃ frame, frames result.2 = [frame] := by
    cases Simulator.numbers_perform c.simulator now operation with
    | quiet _ hnone => exact .inl hnone
    | push frame? _ hsome =>
      cases frame? with
      | none => exact .inl hsome
      | some frame => exact .inr ⟨frame, hsome⟩
  rcases hframes with hnone | ⟨frame, hone⟩
  · have hevents : eventsOf c.simulator now operation = [.operate now operation] := by
      rw [eventsOf, hnone]
      rfl
    have hnext : c.after [.operate now operation] = c.put result.1 result.2 := rfl
    rw [hevents, hnext, hnone]
    exact ⟨rfl, rfl, by simp [Channel.put, hnone]⟩
  · rw [hone]
    by_cases hlong : World.maxFrame < frame.length
    · have hevents : eventsOf c.simulator now operation = [.drop, .operate now operation] := by
        simp [eventsOf, result, hone, hlong]
      have hnext : c.after [.drop, .operate now operation] =
          { c with connected := false }.put result.1 result.2 := rfl
      rw [hevents, hnext, List.foldl_cons, List.foldl_nil, hearing]
      cases c.connected <;> constructor <;> simp [Channel.put, hlong]
    · have hevents : eventsOf c.simulator now operation = [.operate now operation] := by
        simp [eventsOf, result, hone, hlong]
      have hnext : c.after [.operate now operation] = c.put result.1 result.2 := rfl
      rw [hevents, hnext, List.foldl_cons, List.foldl_nil, hearing]
      cases hconnected : c.connected <;> constructor <;> simp [Channel.put, hconnected, hlong, hone]

/-- Operations one behind the other. -/
def performs (s : Simulator) (now : Instant) : List Operation → Simulator × List Effect
  | [] => (s, [])
  | operation :: rest =>
    let (next, effects) := s.perform now operation
    let (last, more) := performs next now rest
    (last, effects ++ more)

theorem after_performs (c : Channel) (now : Instant) (operations : List Operation) :
    let result := performs c.simulator now operations
    ∃ events, SameCourse (c.after events)
      ((frames result.2).foldl hearing { c with simulator := result.1 }) := by
  induction operations generalizing c with
  | nil => exact ⟨[], rfl, rfl, rfl⟩
  | cons operation rest ih =>
    intro result
    let first := c.simulator.perform now operation
    let after := c.after (eventsOf c.simulator now operation)
    have hone : SameCourse after ((frames first.2).foldl hearing { c with simulator := first.1 }) :=
      after_operate c now operation
    rw [hearing_with] at hone
    obtain ⟨more, hmore⟩ := ih after
    rw [hone.simulator] at hmore
    refine ⟨eventsOf c.simulator now operation ++ more, ?_⟩
    have hlast : SameCourse { after with simulator := result.1 }
        ((frames first.2).foldl hearing { c with simulator := result.1 }) := by
      rw [hearing_with]
      exact ⟨rfl, hone.connected, hone.course⟩
    have hsame := hlast.hearing (frames (performs first.1 now rest).2)
    have hevents : c.after (eventsOf c.simulator now operation ++ more) = after.after more :=
      List.foldl_append
    have hframes : frames result.2 = frames first.2 ++ frames (performs first.1 now rest).2 :=
      List.filterMap_append
    rw [hevents, hframes, List.foldl_append]
    exact ⟨hmore.simulator.trans hsame.simulator, hmore.connected.trans hsame.connected,
      hmore.course.trans hsame.course⟩

/-- What is done to the simulated gateway of a bench. -/
theorem wired_operate (hw : Wired handler l c w.wire) (now : Instant) (operation : Operation) :
    Wired handler l (c.after (eventsOf w.simulator now operation))
      (w.applyEffects (w.simulator.perform now operation)).wire := by
  rw [show w.simulator = c.simulator from hw.simulator]
  exact (wired_applyEffects hw _).of_same (after_operate c now operation)

theorem wired_performs (hw : Wired handler l c w.wire) (now : Instant)
    (operations : List Operation) : ∃ events, Wired handler l (c.after events)
      (w.applyEffects (performs w.simulator now operations)).wire := by
  obtain ⟨events, hsame⟩ := after_performs c now operations
  rw [show w.simulator = c.simulator from hw.simulator]
  exact ⟨events, (wired_applyEffects hw _).of_same hsame⟩

/-- A demo network is several operations. -/
theorem seed_performs (s : Simulator) (now : Instant) (count : Nat) :
    ∃ operations, s.seed now count = performs s now operations := by
  have hdemo (devices : Option (List Device)) (rows : List Neighbor) (networks : List Network) :
      performs s now [.setDevices devices, .setNeighbors "neighbor_table" rows,
        .drift fun _ => 0, .adjust (Setting.setNetworks networks).apply] =
      let listed := s.setDevices now devices
      let shown := listed.1.setNeighbors now "neighbor_table" rows
      let graded := shown.1.drift now fun _ => 0
      ({ graded.1 with networks }, listed.2 ++ shown.2 ++ graded.2) := by
    simp only [performs, List.append_nil, ← List.append_assoc]
    rfl
  exact ⟨_, (hdemo (some _) _ _).symm⟩

/-- The step of a script is made of operations; a raw frame is none. -/
def SimStep.IsOperated : SimStep → Prop
  | .pushRaw _ => False
  | _ => True

theorem wired_simulate (hw : Wired handler l c w.wire) {step : SimStep} (h : step.IsOperated) :
    ∃ events, Wired handler l (c.after events) (w.simulate step).wire := by
  have hone (operation : Operation) := wired_operate hw w.now operation
  cases step with
  | setDevices devices => exact ⟨_, hone (.setDevices devices)⟩
  | setNeighbors source rows => exact ⟨_, hone (.setNeighbors source rows)⟩
  | setNetworks networks => exact ⟨_, hone (.adjust (Setting.setNetworks networks).apply)⟩
  | failJobs type failure => exact ⟨_, hone (.adjust (Setting.failJobs type failure).apply)⟩
  | setVersion version => exact ⟨_, hone (.adjust (Setting.setVersion version).apply)⟩
  | setPolls polls => exact ⟨_, hone (.adjust (Setting.setPolls polls).apply)⟩
  | drift deltas otherwise =>
    exact ⟨_, hone (.drift fun addr => (deltas.get? addr).getD otherwise)⟩
  | broadcast type data => exact ⟨_, hone (.broadcast type data)⟩
  | pushRaw frame => exact h.elim
  | seed count =>
    obtain ⟨operations, hseed⟩ := seed_performs w.simulator w.now count
    obtain ⟨events, hevents⟩ := wired_performs hw w.now operations
    refine ⟨events, ?_⟩
    show Wired handler l _ (w.applyEffects (w.simulator.seed w.now count)).wire
    rw [hseed]
    exact hevents

end

end MeshConsole.Bench
