import MeshConsole.Proofs.Bench.Gateway
import MeshConsole.Proofs.Bench.Stage

/-!
# A session on the push channel

`channel_plays`: whatever a session on a simulated gateway is had to do, its
link and the gateway go through the events of a channel. What is waited for
carries this from one wait to the next: it fits the phase that the link is in
(`World.InOrder`).
-/

namespace MeshConsole.Bench

open Session (Activity Live)
open Simulator (Channel Effect Operation)

-- ---------------------------------------------------------------------------
-- Waits
-- ---------------------------------------------------------------------------

/-- A wait may end like this while the link is in this phase. -/
def Wake.Fits (phase : Push.Phase) : Wake → Prop
  | .dialed reads => phase = .dialing ∧ reads = []
  | .read _ _ => False
  | .simulate step => step.IsOperated
  | _ => True

/-- A wait that may be over, or be cut short, at any time in this phase. -/
structure Pending.Fits (phase : Push.Phase) (p : Pending) : Prop where
  wake : p.wake.Fits phase
  onCancel : ∀ phase, p.onCancel.elim True (Wake.Fits phase)

/-- Only waits that fit any phase have come. -/
def Stays (w next : World) : Prop :=
  ∀ phase, (∀ p ∈ w.pending, p.Fits phase) → ∀ p ∈ next.pending, p.Fits phase

section
variable {w v next : World}

theorem Stays.of_eq (h : next.pending = w.pending) : Stays w next := fun _ hw => h ▸ hw

theorem Stays.refl (w : World) : Stays w w := fun _ hw => hw

theorem Stays.trans (h : Stays w v) (hnext : Stays v next) : Stays w next :=
  fun phase hw => hnext phase (h phase hw)

theorem Stays.foldl {f : World → α → World} (h : ∀ w a, Stays w (f w a)) (w : World)
    (as : List α) : Stays w (as.foldl f w) := by
  induction as generalizing w with
  | nil => exact .refl w
  | cons a rest ih => exact (h w a).trans (ih (f w a))

theorem stays_pend (w : World) {p : Pending} (h : ∀ phase, p.Fits phase) :
    Stays w (w.pend p) := by
  intro phase hw q hq
  rcases List.mem_append.mp hq with hq | hq
  · exact hw q hq
  · rw [List.mem_singleton.mp hq]
    exact h phase

theorem stays_pendNow (w : World) {wake : Wake} (h : ∀ phase, wake.Fits phase) :
    Stays w (w.pendNow wake) := stays_pend w fun phase => ⟨h phase, fun _ => trivial⟩

theorem stays_pendAfter (w : World) (time : Duration) (scopes : List Scope) {wake : Wake}
    {onCancel : Option Wake} (h : ∀ phase, wake.Fits phase)
    (hcancel : ∀ phase, onCancel.elim True (Wake.Fits phase)) :
    Stays w (w.pendAfter time scopes wake onCancel) := stays_pend w fun phase => ⟨h phase, hcancel⟩

theorem stays_dropPending (w : World) (drop : Wake → Bool) : Stays w (w.dropPending drop) :=
  fun _ hw p hp => hw p (List.mem_of_mem_filter hp)

theorem stays_cancel (w : World) (scope : Scope) : Stays w (w.cancel scope) := by
  intro phase hw p hp
  rcases List.mem_append.mp hp with hp | hp
  · exact hw p (List.mem_of_mem_filter hp)
  · obtain ⟨q, hq, hsome⟩ := List.mem_filterMap.mp hp
    obtain ⟨wake, hwake, rfl⟩ := Option.map_eq_some_iff.mp hsome
    have hcancel := (hw q (List.mem_of_mem_filter hq)).onCancel phase
    rw [hwake] at hcancel
    exact ⟨hcancel, fun _ => trivial⟩

theorem stays_observe (w : World) (entry : Entry) : Stays w (w.observe entry) := .of_eq rfl

theorem stays_log (w : World) (line : Text) : Stays w (w.log line) := by
  unfold World.log
  split <;> exact .of_eq rfl

theorem stays_publish (w : World) (event : Telemetry.Event) : Stays w (w.publish event) := by
  unfold World.publish
  split <;> exact .of_eq rfl

theorem stays_tell (w : World) (notes : List Telemetry.Note) : Stays w (w.tell notes) := by
  refine .foldl (fun w note => ?_) w notes
  cases note with
  | log line => exact stays_log w line
  | publish event => exact stays_publish w event

theorem stays_out (w : World) (lines : List Text) : Stays w (w.out lines) :=
  .foldl (fun w line => stays_observe w (.out line)) w lines

theorem stays_applySignal (w : World) (signal : Push.Signal) : Stays w (w.applySignal signal) := by
  cases signal with
  | log line => exact stays_log w line
  | publish event => exact stays_publish w event
  | deliver payload =>
    simp only [World.applySignal, World.takePayload]
    split
    · let state := ((Session.takePayload payload).run w.now false w.session).state
      exact .trans (.of_eq rfl) (stays_tell { w with session := state } _)
    · exact .of_eq rfl
  | closeSocket =>
    simp only [World.applySignal]
    split <;> exact .of_eq rfl
  | schedule number due => exact stays_pend w fun _ => ⟨trivial, fun _ => trivial⟩
  | unschedule number => exact (stays_dropPending w _).trans (stays_cancel _ _)
  | reconcile number => exact .refl w

theorem stays_tellLink (w : World) (h : Push.Happening) : Stays w (w.tellLink h) :=
  .foldl stays_applySignal (w.withRun (w.session.run.step w.now h).1) _

theorem stays_hear (w : World) (h : Push.Happening) : Stays w (w.hear h) := by
  unfold World.hear
  split
  · exact stays_tellLink w _
  · exact .refl w

theorem stays_answerAfter (w : World) (id : Nat) (scopes : List Scope) (delay : Duration)
    (request : Rest.Request) (exchange : Session.Exchange) :
    Stays w (w.answerAfter id scopes delay request exchange) := by
  simp only [World.answerAfter]
  split
  · exact stays_pendNow w fun _ => trivial
  · split <;> exact stays_pendAfter w _ scopes (fun _ => trivial) fun _ => trivial

end

-- ---------------------------------------------------------------------------
-- A bench in order
-- ---------------------------------------------------------------------------

/-- A bench on the simulated channel, all of whose waits fit. -/
structure World.InOrder (w : World) : Prop where
  simulated : w.isScripted = false
  fits : ∀ p ∈ w.pending, p.Fits w.session.run.phase

section
variable {w next : World}

theorem World.InOrder.stays (hw : w.InOrder) (h : Stays w next)
    (hscripted : next.isScripted = w.isScripted)
    (hphase : next.session.run.phase = w.session.run.phase) : next.InOrder :=
  ⟨hscripted.trans hw.simulated, hphase ▸ h _ hw.fits⟩

theorem isScripted_tellLink (w : World) (h : Push.Happening) :
    (w.tellLink h).isScripted = w.isScripted := congrArg Wire.isScripted (wire_tellLink w h)

theorem isScripted_hear (w : World) (h : Push.Happening) :
    (w.hear h).isScripted = w.isScripted := by
  unfold World.hear
  split
  · exact isScripted_tellLink w _
  · rfl

/-- What the link does not await leaves the waits as they are. -/
theorem inOrder_tellLink (hw : w.InOrder) {h : Push.Happening}
    (hawaits : w.session.run.phase.awaits h = false) (hcancelled : h ≠ .cancelled) :
    (w.tellLink h).InOrder := by
  refine hw.stays (stays_tellLink w h) (isScripted_tellLink w h) ?_
  have hrun : (w.tellLink h).session.run = (w.session.run.step w.now h).1 :=
    congrArg Wire.run (wire_tellLink w h)
  rw [hrun]
  exact Push.Run.step_phase _ w.now hawaits hcancelled

theorem inOrder_pendLink (hw : w.InOrder) (time : Option Duration) {wake : Wake}
    (h : wake.Fits w.session.run.phase) : (w.pendLink time wake).InOrder := by
  refine ⟨hw.simulated, fun p hp => ?_⟩
  rcases List.mem_append.mp hp with hp | hp
  · exact hw.fits p hp
  · rw [List.mem_singleton.mp hp]
    exact ⟨h, fun _ => trivial⟩

/-- A link that is given its next wait has no other, so what it waited for
before need not fit any more. -/
theorem inOrder_rearm (hsimulated : w.isScripted = false) {phase : Push.Phase}
    (h : ∀ p ∈ w.pending, p.Fits phase) : (w.rearm []).InOrder := by
  let v : World := w.dropPending World.isLinkWait
  have hv : v.InOrder := by
    refine ⟨hsimulated, fun p hp => ?_⟩
    obtain ⟨hp, hdrop⟩ := List.mem_filter.mp hp
    obtain ⟨hwake, hcancel⟩ := h p hp
    refine ⟨?_, hcancel⟩
    cases hw : p.wake <;> rw [hw] at hwake hdrop
    case dialed => cases hdrop
    all_goals exact hwake
  simp only [World.rearm]
  split
  · rename_i hphase
    unfold World.dialNext
    split
    · split
      · exact inOrder_pendLink hv _ ⟨hphase, rfl⟩
      · exact inOrder_pendLink hv _ trivial
    · rename_i dials hdialer
      have hscripted : v.isScripted = true := by rw [World.isScripted, hdialer]
      cases hscripted.symm.trans hv.simulated
  · exact inOrder_pendLink hv _ trivial
  · exact inOrder_pendLink hv _ trivial
  · exact hv

theorem inOrder_hear (hw : w.InOrder) (h : Push.Happening) : ((w.hear h).rearm []).InOrder :=
  inOrder_rearm ((isScripted_hear w h).trans hw.simulated) (stays_hear w h _ hw.fits)

theorem inOrder_breakLink (hw : w.InOrder) : w.breakLink.InOrder := by
  unfold World.breakLink
  split
  · exact inOrder_hear (w := { w with attached := false }) ⟨hw.simulated, hw.fits⟩ _
  · exact hw

theorem inOrder_clients (hw : w.InOrder) (entry : Int → Entry) :
    (w.clients.foldl (fun w client => w.observe (entry client)) w).InOrder := by
  have hwire := (World.Beside.foldl
    (fun w client => World.beside_observe w (entry client)) w w.clients).wire
  exact hw.stays (.foldl (fun w client => stays_observe w (entry client)) w w.clients)
    (congrArg Wire.isScripted hwire) (congrArg (fun s => s.run.phase) hwire)

theorem inOrder_pushFrame (hw : w.InOrder) (frame : Text) : (w.pushFrame frame).InOrder := by
  have hv := inOrder_clients hw (.clientFrame · frame)
  simp only [World.pushFrame]
  split
  · exact hv
  · split
    · exact inOrder_breakLink hv
    · have hawaits (phase : Push.Phase) : phase.awaits (.frame frame) = false := by
        cases phase <;> rfl
      exact inOrder_tellLink hv (hawaits _) (by simp)

theorem inOrder_applyEffects (hw : w.InOrder) (result : Simulator × List Effect) :
    (w.applyEffects result).InOrder := by
  suffices h : ∀ (effects : List Effect) (v : World), v.InOrder →
      (effects.foldl World.simulatorEffect v).InOrder from h result.2 _ ⟨hw.simulated, hw.fits⟩
  intro effects
  induction effects with
  | nil => exact fun v hv => hv
  | cons effect rest ih =>
    intro v hv
    refine ih _ ?_
    cases effect with
    | log line =>
      simp only [World.simulatorEffect]
      split
      · exact hv
      · exact ⟨hv.simulated, hv.fits⟩
    | push frame => exact inOrder_pushFrame hv frame

end

-- ---------------------------------------------------------------------------
-- Events of the channel
-- ---------------------------------------------------------------------------

/-- The bench hangs on a channel, in order. -/
structure Hangs (handler : Push.Handler) (l : Push.Link) (c : Channel) (w : World) : Prop where
  wired : Wired handler l c w.wire
  inOrder : w.InOrder

/-- Whatever channel a bench hung on, some events of it lead to where it hangs
afterwards. -/
def Relayed (w next : World) : Prop :=
  ∀ handler l c, Hangs handler l c w → ∃ events, Hangs handler l (c.after events) next

section
variable {w v next : World}

theorem Relayed.refl (w : World) : Relayed w w := fun _ _ _ h => ⟨[], h⟩

theorem Relayed.trans (h : Relayed w v) (hnext : Relayed v next) : Relayed w next := by
  intro handler l c hw
  obtain ⟨events, hv⟩ := h handler l c hw
  obtain ⟨more, hmore⟩ := hnext handler l _ hv
  have hafter : c.after (events ++ more) = (c.after events).after more := List.foldl_append
  exact ⟨events ++ more, hafter ▸ hmore⟩

theorem Relayed.of_wire (hwire : next.wire = w.wire) (h : Stays w next) : Relayed w next :=
  fun _ _ _ hw => ⟨[], hwire ▸ hw.wired, hw.inOrder.stays h (congrArg Wire.isScripted hwire)
    (congrArg (fun s => s.run.phase) hwire)⟩

theorem Relayed.of_beside (hbeside : w.Beside next) (h : Stays w next) : Relayed w next :=
  .of_wire hbeside.wire h

theorem relayed_pendNow (w : World) {wake : Wake} (h : ∀ phase, wake.Fits phase) :
    Relayed w (w.pendNow wake) := .of_beside (World.beside_pend ..) (stays_pendNow w h)

theorem relayed_pendAfter (w : World) (time : Duration) (scopes : List Scope) {wake : Wake}
    {onCancel : Option Wake} (h : ∀ phase, wake.Fits phase)
    (hcancel : ∀ phase, onCancel.elim True (Wake.Fits phase)) :
    Relayed w (w.pendAfter time scopes wake onCancel) :=
  .of_beside (World.beside_pend ..) (stays_pendAfter w time scopes h hcancel)

theorem relayed_observe (w : World) (entry : Entry) : Relayed w (w.observe entry) :=
  .of_beside (World.beside_observe w entry) (stays_observe w entry)

/-- What a link is told of may take it off its channel. -/
theorem exists_told {handler : Push.Handler} {l : Push.Link} {c : Channel}
    (hw : Wired handler l c w.wire) {h : Push.Happening} (hdialed : h ≠ .dialed)
    (hframe : ∀ bytes, h ≠ .frame bytes) :
    ∃ events, Wired handler l (c.after events) (w.tellLink h).wire := by
  have htold := hw.tellLink hdialed hframe
  cases hattached : (w.tellLink h).attached with
  | false =>
    rw [hattached] at htold
    exact ⟨[.drop], htold⟩
  | true =>
    have hopen : (w.tellLink h).attached = _ := congrArg Wire.attached (wire_tellLink w h)
    have hwas : c.connected = true :=
      hw.connected.symm.trans (Bool.and_eq_true_iff.mp (hopen.symm.trans hattached)).1
    rw [hattached, ← hwas] at htold
    exact ⟨[], htold⟩

theorem relayed_pullReturned (w : World) (number : Nat) :
    Relayed w (w.tellLink (.pullReturned number)) := by
  intro handler l c hw
  obtain ⟨events, hwired⟩ := exists_told hw.wired (h := .pullReturned number) (by simp) (by simp)
  refine ⟨events, hwired, inOrder_tellLink hw.inOrder ?_ (by simp)⟩
  cases w.session.run.phase <;> rfl

/-- The link hears of something and is given its next wait. -/
theorem relayed_hear (w : World) {h : Push.Happening} (hdialed : h ≠ .dialed)
    (hframe : ∀ bytes, h ≠ .frame bytes) : Relayed w ((w.hear h).rearm []) := by
  intro handler l c hw
  have hheard : ∃ events, Wired handler l (c.after events) (w.hear h).wire := by
    unfold World.hear
    split
    · rename_i heard hheard
      obtain ⟨hdialed, hframe⟩ := heard?_other hheard hdialed hframe
      exact exists_told hw.wired hdialed hframe
    · exact ⟨[], hw.wired⟩
  obtain ⟨events, hwired⟩ := hheard
  have hrearm : ((w.hear h).rearm []).wire = (w.hear h).wire := (World.beside_rearm _ _).wire
  exact ⟨events, hrearm ▸ hwired, inOrder_hear hw.inOrder h⟩

theorem relayed_dialed (w : World) (hdialing : w.session.run.phase = .dialing) :
    Relayed w (w.wake (.dialed [])) := fun _ _ _ hw =>
  ⟨[.connect], wired_dialed hw.wired hw.inOrder.simulated hdialing [],
    inOrder_hear (w := { w with attached := !w.isScripted })
      ⟨hw.inOrder.simulated, hw.inOrder.fits⟩ .dialed⟩

theorem relayed_dropClients (w : World) : Relayed w w.dropClients := by
  intro handler l c hw
  obtain ⟨hsimulated, hfits⟩ := inOrder_clients hw.inOrder .clientClosed
  exact ⟨[.drop], wired_dropClients hw.wired, inOrder_breakLink ⟨hsimulated, hfits⟩⟩

theorem relayed_operate (w : World) (operation : Operation) :
    Relayed w (w.applyEffects (w.simulator.perform w.now operation)) := fun _ _ _ hw =>
  ⟨_, wired_operate hw.wired w.now operation, inOrder_applyEffects hw.inOrder _⟩

theorem relayed_simulate (w : World) {step : SimStep} (h : step.IsOperated) :
    Relayed w (w.simulate step) := by
  intro handler l c hw
  obtain ⟨events, hwired⟩ := wired_simulate hw.wired h
  refine ⟨events, hwired, ?_⟩
  cases step with
  | setDevices | setNeighbors | drift | broadcast | seed => exact inOrder_applyEffects hw.inOrder _
  | setNetworks | failJobs | setVersion | setPolls =>
    exact ⟨hw.inOrder.simulated, hw.inOrder.fits⟩
  | pushRaw => exact h.elim

-- ---------------------------------------------------------------------------
-- Processes
-- ---------------------------------------------------------------------------

variable (w)

theorem relayed_exchangeSimulated (id : Nat) (scopes : List Scope) (path : Text)
    (request : Rest.Request) : Relayed w (w.exchangeSimulated id scopes path request) := by
  simp only [World.exchangeSimulated]
  split
  · exact relayed_pendNow w fun _ => trivial
  · refine (relayed_operate w (.serve (Simulator.arrival request))).trans ?_
    split
    · exact relayed_pendAfter _ _ scopes (fun _ => trivial) fun _ => trivial
    · exact .of_beside (World.beside_answerAfter ..) (stays_answerAfter _ id scopes _ _ _)

theorem relayed_exchangeScripted (id : Nat) (scopes : List Scope) (path : Text)
    (request : Rest.Request) (routes : Routes) :
    Relayed w (w.exchangeScripted id scopes path request routes) := by
  refine .of_beside (World.beside_exchangeScripted ..) ?_
  unfold World.exchangeScripted
  split
  · exact stays_pendNow w fun _ => trivial
  · rename_i reply left _
    exact .trans (v := { w with gateway := .scripted left }) (.of_eq rfl)
      (stays_answerAfter _ id scopes _ _ _)

theorem relayed_send (id : Nat) (scopes : List Scope) (path : Text) (request : Rest.Request) :
    Relayed w (w.send id scopes path request) := by
  refine (relayed_observe w (.request request)).trans ?_
  simp only [World.send]
  split
  · exact relayed_pendNow _ fun _ => trivial
  · split
    · exact relayed_exchangeSimulated _ id scopes path request
    · exact relayed_exchangeScripted _ id scopes path request _

theorem relayed_call (id : Nat) (scopes : List Scope) (call : Rest.Call) :
    Relayed w (w.call id scopes call) := by
  unfold World.call
  split
  · exact relayed_pendNow w fun _ => trivial
  · exact relayed_send w id scopes _ _

theorem relayed_finish (id : Nat) (process : Process) (outcome : Outcome) :
    Relayed w (w.finish id process outcome) := by
  have hgone : Relayed w { w with processes := w.processes.erase id } := .of_wire rfl (.of_eq rfl)
  refine hgone.trans ?_
  unfold World.finish
  split
  · exact .refl _
  · exact relayed_pullReturned _ _
  · simp only
    split <;> exact .of_wire rfl fun _ hw p hp => hw p (List.mem_of_mem_filter hp)

/-- The session has gone on and left the link alone. -/
theorem relayed_tell {state : Session.State} (hrun : state.run = w.session.run)
    (notes : List Telemetry.Note) :
    Relayed w (({ w with session := state } : World).tell notes) := by
  let v : World := { w with session := state }
  have hv : v.wire = w.wire := by
    show ({ w.wire with run := state.run } : Wire) = w.wire
    rw [hrun]
    rfl
  exact .of_wire ((World.beside_tell v _).wire.trans hv) (.trans (.of_eq rfl) (stays_tell v _))

theorem relayed_proceed (id : Nat) (process : Process) {stop : Session.Stop Outcome}
    (hrun : stop.state.run = w.session.run) : Relayed w (w.proceed id process stop) := by
  refine (relayed_tell w hrun stop.notes).trans ?_
  simp only [World.proceed]
  split
  · exact relayed_finish _ id process _
  · let next : World := ({ w with session := stop.state } : World).tell stop.notes
    let stays : World := { next with
      processes := next.processes.set id { process with body := .task stop.task } }
    have hstays : Relayed next stays := .of_wire rfl (.of_eq rfl)
    refine hstays.trans ?_
    split
    · exact .refl _
    · exact relayed_call _ id _ _
    · split
      · exact relayed_pendNow _ fun _ => trivial
      · exact relayed_pendAfter _ _ process.scopes (fun _ => trivial) fun _ => trivial

theorem relayed_answer {l : Live} {thread : Nat → Nat} (hm : Mirrors w.stand l thread) (id : Nat)
    (a : Session.Answer) : Relayed w (w.answer id a) := by
  simp only [World.answer]
  split
  · rename_i p hp
    split
    · rename_i task hbody
      split
      · rename_i htakes
        obtain ⟨t, u, hi, hleft, hwork, htwin, hbelongs⟩ := hm.carried hp hbody
        have hcancelled : w.isCancelled p.scopes = l.isCancelled t :=
          (hbelongs.isCancelled hm hi hleft).symm
        have hsession : w.session = l.session := hm.session.symm
        rw [hcancelled, ← htwin.need] at htakes
        have hrun := (Live.leads_answer hm.sound hi hwork htakes w.now).2
        rw [(htwin.answer w.now (l.isCancelled t) l.session a).state] at hrun
        refine relayed_proceed w id p ?_
        rw [hcancelled, hsession]
        exact hrun
      · exact .refl w
    · exact .refl w
  · exact .refl w

theorem relayed_spawn {a : Activity Outcome} {b : Activity Bool} {weight : Bool → Nat} {n : Nat}
    (htwin : a.Twin b) (hb : Session.Conduct weight none n b) (scopes : List Scope)
    (ending : Ending) : Relayed w (w.spawn a scopes ending) := by
  have hstate := (htwin.run w.now (w.isCancelled scopes) w.session).state
  have hrun := hb.run_link w.now (w.isCancelled scopes) w.session
  rw [hstate] at hrun
  let v : World := { w with nextProcess := w.nextProcess + 1 }
  have hv : Relayed w v := .of_wire rfl (.of_eq rfl)
  exact hv.trans (relayed_proceed v w.nextProcess _ hrun)

/-- The pull that is due has the session go on, and the link stays as it is. -/
theorem relayed_pullDue (number : Nat) :
    Relayed w (w.withRun (w.session.run.step w.now (.pullDue number)).1) := by
  intro handler l c ⟨hw, hin⟩
  let next : Push.Run := (w.session.run.step w.now (.pullDue number)).1
  have hphase : next.phase = w.session.run.phase := by
    refine Push.Run.step_phase _ w.now ?_ (by simp)
    cases w.session.run.phase <;> rfl
  have hlast : next.link.lastSeq = w.session.run.link.lastSeq :=
    Push.Run.step_lastSeq _ w.now (by simp) (by simp)
  have hfixed : next.Fixed handler l.url l.timing := Push.Run.step_fixed hw.fixed w.now _
  exact ⟨[], ⟨hw.simulator, hw.connected, hfixed, hw.simulated,
    fun hconnected => hphase.trans (hw.reading hconnected),
    fun hconnected => hlast.trans (hw.lastSeq hconnected)⟩, hin.stays (.of_eq rfl) rfl hphase⟩

/-- An activity of the session's own starts, whose result nobody asks for. -/
theorem relayed_spawnOwn {activity : Activity Unit} {weight : Bool → Nat} {n : Nat}
    (h : Session.Conduct weight none n (Session.quietly activity)) (scopes : List Scope)
    (ending : Ending) : Relayed w (w.spawn (World.quietly activity) scopes ending) := by
  have htwin : (World.quietly activity).Twin (Session.quietly activity) :=
    Session.Activity.twin_quietly activity fun _ => Except.ok Value.done
  exact relayed_spawn w htwin h scopes ending

theorem relayed_startPull (number : Nat) : Relayed w (w.startPull number) := by
  have hdue := relayed_pullDue w number
  unfold World.startPull
  split
  · exact .refl w
  · rename_i run signals _ hstep
    rw [hstep] at hdue
    refine hdue.trans ?_
    let v : World := w.withRun run
    show Relayed v _
    split
    · exact relayed_spawnOwn v (Session.conduct_pull number) _ _
    · exact (relayed_observe v _).trans (relayed_pullReturned _ number)

theorem relayed_pendTick : Relayed w w.pendTick :=
  relayed_pendAfter w _ [w.runScope] (fun _ => trivial) fun _ => trivial

theorem relayed_tick : Relayed w w.tick := by
  let stop := Session.tick.run w.now false w.session
  have hrun : stop.state.run = w.session.run :=
    Session.conduct_ticker.run_link w.now false w.session
  let v : World := (({ w with session := stop.state } : World).tell stop.notes).pendTick
  have hv : Relayed w v := (relayed_tell w hrun stop.notes).trans (relayed_pendTick _)
  refine hv.trans ?_
  simp only [World.tick]
  split
  · exact relayed_spawnOwn v Session.conduct_refresh [v.runScope] .refresh
  · exact .refl v

theorem relayed_cancel (scope : Scope) : Relayed w (w.cancel scope) :=
  .of_wire rfl (stays_cancel w scope)

theorem relayed_out (lines : List Text) : Relayed w (w.out lines) :=
  .of_beside (World.beside_out w lines) (stays_out w lines)

theorem relayed_pendReport (id : Nat) (process : Process) (watch : Status.Watch) :
    Relayed w (w.pendReport id process watch) :=
  relayed_pendAfter w _ process.scopes (fun _ => trivial) fun _ => trivial

theorem relayed_report (id : Nat) : Relayed w (w.report id) := by
  unfold World.report
  split
  · rename_i p _
    split
    · rename_i watch printer _
      let q : Process := { p with body := .watch watch (w.display printer).2 }
      let v : World := { w with processes := w.processes.set id q }
      have hv : Relayed w v := .of_wire rfl (.of_eq rfl)
      have hout := relayed_out v (w.display printer).1
      exact (hv.trans hout).trans (relayed_pendReport _ id q watch)
    · exact .refl w
  · exact .refl w

theorem relayed_endReport (id : Nat) (cancelled : Bool) : Relayed w (w.endReport id cancelled) := by
  unfold World.endReport
  split
  · split
    · simp only
      split
      · exact (relayed_out w _).trans (relayed_finish _ id _ _)
      · exact relayed_finish w id _ _
    · exact .refl w
  · exact .refl w

-- ---------------------------------------------------------------------------
-- One wait after the other
-- ---------------------------------------------------------------------------

variable {w}

theorem relayed_wake {l : Live} {thread : Nat → Nat} (hm : Mirrors w.stand l thread) {wake : Wake}
    (h : wake.Fits w.session.run.phase) : Relayed w (w.wake wake) := by
  cases wake with
  | answer id a => exact relayed_answer w hm id a
  | follow id path request =>
    simp only [World.wake]
    split
    · exact relayed_send w id _ path request
    · exact .refl w
  | dialed reads =>
    obtain ⟨hdialing, rfl⟩ := h
    exact relayed_dialed w hdialing
  | dialFailed | waited | linkCancelled => exact relayed_hear w (by simp) (by simp)
  | read => exact h.elim
  | blocked => exact .refl w
  | pullDue number => exact relayed_startPull w number
  | tick => exact relayed_tick w
  | giveUp step => exact relayed_cancel w _
  | report id => exact relayed_report w id
  | endReport id cancelled => exact relayed_endReport w id cancelled
  | simulate step => exact relayed_simulate w h
  | dropClients => exact relayed_dropClients w

/-- As far as the session has threads, the bench goes on with them and with
the channel. -/
structure Moves (w next : World) : Prop where
  followed : Followed w next
  relayed : (∃ l thread, Mirrors w.stand l thread) → Relayed w next

theorem Moves.refl (w : World) : Moves w w := ⟨.refl w, fun _ => .refl w⟩

theorem Moves.trans (h : Moves w v) (hnext : Moves v next) : Moves w next := by
  refine ⟨h.followed.trans hnext.followed, ?_⟩
  rintro ⟨l, thread, hm⟩
  obtain ⟨m, thread', -, hm'⟩ := h.followed l thread hm
  exact (h.relayed ⟨l, thread, hm⟩).trans (hnext.relayed ⟨m, thread', hm'⟩)

theorem mem_of_earliest {pending others : List Pending} {p : Pending}
    (h : World.earliest? pending = some (p, others)) :
    p ∈ pending ∧ ∀ q ∈ others, q ∈ pending := by
  induction pending generalizing p others with
  | nil => cases h
  | cons first rest ih =>
    simp only [World.earliest?] at h
    split at h
    · cases h
      exact ⟨List.mem_cons_self, by simp⟩
    · rename_i q left hrest
      obtain ⟨hq, hleft⟩ := ih hrest
      split at h <;> cases h
      · exact ⟨List.mem_cons_of_mem _ hq, by simpa using fun r hr => .inr (hleft r hr)⟩
      · exact ⟨List.mem_cons_self, fun r hr => List.mem_cons_of_mem _ hr⟩

theorem moves_step {limit : Option Instant} (h : w.step? limit = some next) : Moves w next := by
  refine ⟨followed_step h, ?_⟩
  rintro ⟨l, thread, hm⟩ handler k c hw
  obtain ⟨⟨p, others⟩, hearliest, h⟩ := Option.bind_eq_some_iff.mp h
  obtain ⟨due, -, h⟩ := Option.bind_eq_some_iff.mp h
  obtain ⟨hp, hothers⟩ := mem_of_earliest hearliest
  split at h
  · cases h
  · cases h
    obtain ⟨m, thread', -, hm'⟩ := followed_later w (max w.now due) others l thread hm
    have hlater : Relayed w { w with pending := others, now := max w.now due } :=
      .of_wire rfl fun _ hfits q hq => hfits q (hothers q hq)
    exact hlater.trans (relayed_wake hm' (hw.inOrder.fits p hp).wake) handler k c hw

theorem moves_run (stop : World → Bool) (limit : Option Instant) (fuel : Nat) (w : World) :
    Moves w (World.run stop limit fuel w) := by
  induction fuel generalizing w with
  | zero => exact .refl w
  | succ fuel ih =>
    unfold World.run
    split
    · exact .refl w
    · split
      · exact .refl w
      · rename_i next hnext
        exact (moves_step hnext).trans (ih next)

theorem moves_settle (w : World) : Moves w w.settle := moves_run _ _ _ w

-- ---------------------------------------------------------------------------
-- Steps of a stage
-- ---------------------------------------------------------------------------

theorem relayed_openScope (w : World) (manner : World.Manner) :
    Relayed w (w.openScope manner).1 := by
  have hnew : Relayed w w.newScope.1 := .of_wire rfl (.of_eq rfl)
  have hgone : Relayed w (if manner.cancelled then w.newScope.1.cancel (.step w.nextScope)
      else w.newScope.1) := by
    split
    · exact hnew.trans (relayed_cancel _ _)
    · exact hnew
  simp only [World.openScope]
  split
  · rename_i time _
    exact hgone.trans (relayed_pendAfter _ time [] (fun _ => trivial) fun _ => trivial)
  · exact hgone

theorem moves_openScope (w : World) (manner : World.Manner) : Moves w (w.openScope manner).1 :=
  ⟨(followed_openScope w manner).1, fun _ => relayed_openScope w manner⟩

theorem moves_await (w : World) (manner : World.Manner) : Moves w (w.await manner).1 := by
  unfold World.await
  split
  · exact .refl w
  · exact moves_run _ _ _ w

theorem moves_perform (w : World) (manner : World.Manner) {a : Activity Outcome}
    (c : Session.Commission) (htwin : a.Twin c.activity) : Moves w (w.perform manner a).1 := by
  have hscope := (followed_openScope w manner).2
  have hspawn : Moves (w.openScope manner).1 ((w.openScope manner).1.spawn a
      [(w.openScope manner).2] (.step manner.number manner.async)) := by
    refine ⟨?_, fun _ => relayed_spawn _ htwin (Session.conduct_caller c) _ _⟩
    rw [hscope]
    exact followed_spawn _ c htwin w.nextScope manner.number manner.async
  exact ((moves_openScope w manner).trans hspawn).trans (moves_await _ manner)

theorem relayed_watching (w : World) (scope : Scope) (manner : World.Manner)
    (watch : Status.Watch) (stopAfter : Option Duration) :
    Relayed w (w.watching scope manner watch stopAfter) := by
  let p : Process := {
    body := .watch watch {}, scopes := [scope], ending := .step manner.number manner.async }
  let begun : World := { w with
    nextProcess := w.nextProcess + 1, processes := w.processes.set w.nextProcess p }
  have hbegun : Relayed w begun := .of_wire rfl (.of_eq rfl)
  let shown : World := begun.out watch.openingLines
  have hstopping : Relayed shown (stopAfter.elim shown fun time =>
      shown.pendAfter time [] (.endReport w.nextProcess false) none) := by
    cases stopAfter with
    | none => exact .refl shown
    | some time => exact relayed_pendAfter shown time [] (fun _ => trivial) fun _ => trivial
  refine ((hbegun.trans (relayed_out begun _)).trans hstopping).trans ?_
  simp only [World.watching]
  split
  · exact relayed_pendNow _ fun _ => trivial
  · exact relayed_pendReport _ _ _ _

theorem moves_watch (w : World) (manner : World.Manner) (watch : Status.Watch)
    (stopAfter : Option Duration) : Moves w (w.watch manner watch stopAfter).1 := by
  have hopened := moves_openScope w manner
  have hbegun : Moves (w.openScope manner).1
      ((w.openScope manner).1.watching (w.openScope manner).2 manner watch stopAfter) :=
    ⟨followed_watching _ _ manner watch stopAfter,
      fun _ => relayed_watching _ _ manner watch stopAfter⟩
  rw [watch_eq]
  exact (hopened.trans hbegun).trans (moves_await _ manner)

theorem moves_close (w : World) : Moves w w.close := by
  have hcancel : Moves w (w.cancel w.runScope) :=
    ⟨fun l thread hm => ⟨_, thread, ⟨[.close], rfl⟩, hm.closes⟩, fun _ => relayed_cancel w _⟩
  exact hcancel.trans (moves_settle _)

/-- The step does not push a raw frame. -/
def Step.IsOperated : Step → Prop
  | .simulate step => step.IsOperated
  | _ => True

theorem moves_carryOut (s : Stage) (manner : World.Manner) {step : Step} (h : step.IsProper)
    (hoperated : step.IsOperated) : Moves s.world (s.carryOut manner step).1.world := by
  refine ⟨followed_carryOut s manner h, fun hm => ?_⟩
  have hsame : Relayed s.world s.world := .refl s.world
  cases step with
  | perform a =>
    obtain ⟨c, htwin⟩ := h
    exact (moves_perform s.world manner c htwin).relayed hm
  | inject | start => exact h.elim
  | watch watch stopAfter => exact (moves_watch s.world manner watch stopAfter).relayed hm
  | advance time =>
    have hrun := moves_run (fun _ => false) (some (s.world.now.plus time)) World.fuel s.world
    exact (hrun.relayed hm).trans (.of_wire rfl (.of_eq rfl))
  | close =>
    show Relayed s.world (if s.started then s.world.close else s.world)
    split
    · exact (moves_close s.world).relayed hm
    · exact hsame
  | serve request =>
    cases request with
    | ok request => exact relayed_operate s.world (.serve request)
    | error why => exact hsame
  | simulate step => exact relayed_simulate s.world hoperated
  | dropClients => exact relayed_dropClients s.world
  | seed count =>
    simp only [Stage.carryOut, World.seed?]
    cases World.seedRoom count with
    | error why => exact hsame
    | ok room =>
      have hseed : SimStep.IsOperated (.seed count.toNat) := trivial
      exact relayed_simulate s.world hseed
  | snapshot =>
    simp only [Stage.carryOut]
    split <;> exact hsame
  | stopTelemetry =>
    simp only [Stage.carryOut, Stage.stopTelemetry]
    split
    · exact .of_wire rfl (.of_eq rfl)
    · exact hsame
  | publish | startTelemetry | connect => exact .of_wire rfl (.of_eq rfl)
  | link | devices | linkQuality | isActive | simulatorState | print => exact hsame

theorem moves_trace (w : World) (trace : List (Instant × Entry)) :
    Moves w { w with trace } := ⟨followed_trace w trace, fun _ => .of_wire rfl (.of_eq rfl)⟩

theorem moves_play (s : Stage) (manner : World.Manner) {step : Step} (h : step.IsProper)
    (hoperated : step.IsOperated) : Moves s.world (s.play manner step).1.world :=
  ((moves_carryOut s manner h hoperated).trans (moves_settle _)).trans (moves_trace _ [])

theorem moves_plays (s : Stage) (steps : List (World.Manner × Step))
    (h : ∀ step ∈ steps, step.2.IsProper ∧ step.2.IsOperated) :
    Moves s.world (s.plays steps).world := by
  induction steps generalizing s with
  | nil => exact .refl s.world
  | cons step rest ih =>
    rw [List.forall_mem_cons] at h
    exact (moves_play s step.1 h.1.1 h.1.2).trans (ih _ h.2)

end

-- ---------------------------------------------------------------------------
-- From the start
-- ---------------------------------------------------------------------------

/-- A session that starts hangs on no channel yet. -/
theorem hangs_startSession {w : World} (hw : w.InOrder) (hdetached : w.attached = false) :
    Hangs w.session.run.handler w.session.run.link (Channel.idle w.simulator) w.startSession := by
  let run : Push.Run := .start w.session.run.link w.session.run.handler false
  let v : World := { w with nextScope := w.nextScope + 1, runNumber := w.nextScope }.withRun run
  have hv : Wired w.session.run.handler w.session.run.link (Channel.idle w.simulator) v.wire :=
    .off (c := Channel.idle w.simulator) rfl hdetached ⟨rfl, rfl, rfl⟩
  have hstarted : Hangs w.session.run.handler w.session.run.link (Channel.idle w.simulator)
      (v.rearm []) :=
    ⟨(World.beside_rearm v []).wire ▸ hv, inOrder_rearm hw.simulated hw.fits⟩
  have htick : Stays (v.rearm []) (v.rearm []).pendTick :=
    stays_pendAfter _ _ _ (fun _ => trivial) fun _ => trivial
  exact ⟨hstarted.wired, hstarted.inOrder.stays htick rfl rfl⟩

/-- Whatever a session on a simulated gateway is had to do, and whatever befalls
the gateway: gateway and link have gone through the events of a channel. -/
theorem channel_plays {s : Stage} {settings : Session.Settings} (h : s.world.IsNew settings)
    (hw : s.world.InOrder) (hdetached : s.world.attached = false) (hsession : s.hasSession = true)
    (steps : List (World.Manner × Step))
    (hproper : ∀ step ∈ steps, step.2.IsProper ∧ step.2.IsOperated) :
    ∃ events, Wired s.world.session.run.handler s.world.session.run.link
      ((Channel.idle s.world.simulator).after events)
      ((s.play {} .start).1.plays steps).world.wire := by
  have hstarted : (s.carryOut {} .start).1.world = s.world.startSession := by
    show (if s.hasSession then s.world.startSession else s.world.startLink false) = _
    rw [hsession, if_pos rfl]
  have hmoves : Moves s.world.startSession ((s.play {} .start).1.plays steps).world := by
    refine .trans ?_ (moves_plays _ steps hproper)
    show Moves _ { (s.carryOut {} .start).1.world.settle with trace := [] }
    rw [hstarted]
    exact (moves_settle _).trans (moves_trace _ [])
  obtain ⟨_, _, hmirrors⟩ := mirrors_startSession h id
  obtain ⟨events, hhangs⟩ :=
    hmoves.relayed ⟨_, _, hmirrors⟩ _ _ _ (hangs_startSession hw hdetached)
  exact ⟨events, hhangs.wired⟩

end MeshConsole.Bench
