import MeshConsole.Proofs.Push.Accounting
import MeshConsole.Proofs.Session.Adoption
import MeshConsole.Session.Net

/-!
# Which device list a session shows

A gateway announces every change of its device list by a push, while pulls of
its status are under way. Pushes come in order; the answer of a pull may be
taken in at any later moment.

`devices_eq_or_overtaken`: when all pushes have come, the session shows the
gateway's list, unless the list it took in last is the answer of a pull that
the gateway gave before its latest change. `overtaken_pull` is a run in which
this is so: nothing puts answers and pushes in order, so an answer that is
overtaken by a push undoes it.
-/

namespace MeshConsole.Session

open Push (sequenceOf?)

-- ---------------------------------------------------------------------------
-- One push
-- ---------------------------------------------------------------------------

/-- What a frame that passes the gate hands on. -/
theorem delivered_passed {handler : Push.Handler} (hh : handler ≠ .none) (m : Push.Message) :
    Push.delivered (Push.Link.versionSignals m ++ Push.Link.dispatchSignals handler m) =
      (m.payload?.bind Except.toOption).toList := by
  have hversion : Push.delivered (Push.Link.versionSignals m) = [] :=
    List.length_eq_zero_iff.mp (Push.version_reports m).delivered
  rw [Push.delivered_append, hversion, List.nil_append]
  unfold Push.Link.dispatchSignals
  cases m.payload? with
  | none => rfl
  | some outcome =>
    simp only [if_neg hh]
    cases outcome <;> rfl

/-- A frame that follows moves the watermark, and what it carries is handed
on. -/
theorem receive_follows {l : Push.Link} {handler : Push.Handler} (hh : handler ≠ .none)
    (hf : follows l.lastSeq frame = true) :
    (l.receive handler frame).1.lastSeq = (sequenceOf? frame).getD l.lastSeq ∧
      Push.delivered (l.receive handler frame).2 = (payloadOf? frame).toList := by
  have hpayload {m : Push.Message} (hd : Push.decode frame = .ok m) :
      payloadOf? frame = m.payload?.bind Except.toOption := by rw [payloadOf?, hd]; rfl
  rcases Push.receive_cases l handler frame with
    ⟨why, hd, hr⟩ | ⟨m, hd, hs, hr⟩ | ⟨m, seq, hd, hs, hle, hr⟩ | ⟨m, seq, hd, hs, hlt, hr⟩
  · rw [hr, Push.sequenceOf?_error hd, payloadOf?, hd]
    exact ⟨rfl, rfl⟩
  · rw [hr, Push.sequenceOf?_ok hd, hs, hpayload hd]
    exact ⟨rfl, delivered_passed hh m⟩
  · rw [follows, Push.sequenceOf?_ok hd, hs] at hf
    exact absurd (of_decide_eq_true hf) (UInt64.not_lt.mpr hle)
  · rw [hr, Push.sequenceOf?_ok hd, hs, hpayload hd]
    exact ⟨rfl, delivered_passed hh m⟩

/-- A session on an open connection, whose numbers have come to `last`. -/
structure Listening (last : UInt64) (s : State) : Prop where
  reading : s.run.phase = .reading
  handler : s.run.handler ≠ .none
  lastSeq : s.run.link.lastSeq = last

theorem Listening.of_run {s next : State} (h : Listening last s) (hrun : next.run = s.run) :
    Listening last next := by
  refine ⟨?_, ?_, ?_⟩ <;> rw [hrun]
  · exact h.reading
  · exact h.handler
  · exact h.lastSeq

theorem hear_follows (hl : Listening last s) (now : Instant) (hf : follows last frame = true) :
    (s.hear now frame).devices = (announced? frame).getD s.devices ∧
      Listening ((sequenceOf? frame).getD last) (s.hear now frame) := by
  have hstep : s.run.step now (.frame frame) =
      ({ s.run with link := (s.run.link.receive s.run.handler frame).1 },
        (s.run.link.receive s.run.handler frame).2) := by
    simp [Push.Run.step, hl.reading]
  obtain ⟨hseq, hdelivered⟩ := receive_follows hl.handler (hl.lastSeq.symm ▸ hf)
  have hnext : Listening ((sequenceOf? frame).getD last)
      { s with run := { s.run with link := (s.run.link.receive s.run.handler frame).1 } } :=
    ⟨hl.reading, hl.handler, hl.lastSeq ▸ hseq⟩
  simp only [State.hear, State.takes, hstep, hdelivered, announced?]
  cases payloadOf? frame with
  | none => exact ⟨rfl, hnext⟩
  | some payload =>
    obtain ⟨hdevices, hrun, -⟩ := (adopts_payload payload).run now false
      { s with run := { s.run with link := (s.run.link.receive s.run.handler frame).1 } }
    exact ⟨hdevices, hnext.of_run hrun⟩

-- ---------------------------------------------------------------------------
-- A session and its gateway
-- ---------------------------------------------------------------------------

theorem Errand.adopts (errand : Errand) : Adopts none errand.activity := by
  cases errand with
  | reconcile => exact adopts_reconcile
  | refreshStatus => exact adopts_refreshStatus.bind fun _ => .done ()
  | delete addr => exact (adopts_deleteDevice addr).bind fun _ => .done ()
  | rename addr name => exact (adopts_renameDevice addr name).bind fun _ => .done ()

-- ---------------------------------------------------------------------------
-- Versions
-- ---------------------------------------------------------------------------

/-- A version that a gateway has, or had before. -/
structure Version.UpTo (gateway v : Version) : Prop where
  le : v.number ≤ gateway.number
  eq : v.number = gateway.number → v = gateway

theorem Version.upTo_refl (v : Version) : v.UpTo v := ⟨Nat.le_refl _, fun _ => rfl⟩

theorem Version.UpTo.next {gateway v : Version} (h : gateway.UpTo v) (devices : List Device) :
    (gateway.next devices).UpTo v where
  le := Nat.le_succ_of_le h.le
  eq heq := absurd h.le (by simp [heq, Version.next])

/-- Pushes that pass the gate one after the other, from `last` on up to
`numbered`. -/
def Queued : UInt64 → List (Text × Option Version) → UInt64 → Prop
  | last, [], numbered => last = numbered
  | last, (frame, _) :: rest, numbered =>
    follows last frame = true ∧ Queued ((sequenceOf? frame).getD last) rest numbered

theorem Queued.append (hq : Queued last pushes numbered) (hf : follows numbered frame = true) :
    Queued last (pushes ++ [(frame, version)]) ((sequenceOf? frame).getD numbered) := by
  induction pushes generalizing last with
  | nil =>
    cases hq
    exact ⟨hf, rfl⟩
  | cons push rest ih => exact ⟨hq.1, ih hq.2⟩

/-- How a pull stands to its gateway: the list of its answer is that of the
answer's version. -/
structure Pull.Sound (gateway : Version) (p : Pull) : Prop where
  adopts : p.task.Adopts
  answer : ∀ a ∈ p.answer, gateway.UpTo a.2 ∧ ∀ devices ∈ p.task.listIn a.1, devices = a.2.devices

theorem Pull.Sound.next {p : Pull} (h : p.Sound gateway) (devices : List Device) :
    p.Sound (gateway.next devices) where
  adopts := h.adopts
  answer a ha := ⟨(h.answer a ha).1.next devices, (h.answer a ha).2⟩

/-- How a push stands to its gateway. -/
structure Announces (gateway : Version) (push : Text × Option Version) : Prop where
  list : push.2.map Version.devices = announced? push.1
  upTo : ∀ version ∈ push.2, gateway.UpTo version

theorem Announces.next (h : Announces gateway push) (devices : List Device) :
    Announces (gateway.next devices) push where
  list := h.list
  upTo version hv := (h.upTo version hv).next devices

namespace Net

structure Sound (n : Net) : Prop where
  listening : ∃ last, Listening last n.session ∧ Queued last n.pushes n.numbered
  devices : n.session.devices = n.shown.devices
  shown : n.gateway.UpTo n.shown
  pushes : ∀ push ∈ n.pushes, Announces n.gateway push
  pulls : ∀ p ∈ n.pulls, p.Sound n.gateway
  /-- The last version that is on its way is the gateway's. -/
  latest : ∀ version ∈ (n.pushes.filterMap Prod.snd).getLast?, version = n.gateway
  settled : n.pulled = false → n.pushes.filterMap Prod.snd = [] → n.shown = n.gateway

theorem agreed_sound (h : Listening s.run.link.lastSeq s) : (agreed s).Sound where
  listening := ⟨_, h, rfl⟩
  devices := rfl
  shown := Version.upTo_refl _
  pushes := nofun
  pulls := nofun
  latest := nofun
  settled _ _ := rfl

theorem sound_push {n : Net} (hn : n.Sound) (frame : Text) : (n.step (.push frame)).Sound := by
  obtain ⟨last, hl, hq⟩ := hn.listening
  simp only [step]
  split
  case isFalse => exact hn
  case isTrue hf =>
    cases ha : announced? frame with
    | none =>
      have hsame : (n.pushes ++ [(frame, none)]).filterMap Prod.snd =
          n.pushes.filterMap Prod.snd := by
        rw [List.filterMap_append]
        exact List.append_nil _
      refine ⟨⟨last, hl, hq.append hf⟩, hn.devices, hn.shown, ?_, hn.pulls, ?_, ?_⟩
      · intro push hp
        rcases List.mem_append.mp hp with hp | hp
        · exact hn.pushes push hp
        · cases List.mem_singleton.mp hp
          exact ⟨ha.symm, nofun⟩
      · rw [hsame]
        exact hn.latest
      · rw [hsame]
        exact hn.settled
    | some devices =>
      have hlast : (n.pushes ++ [(frame, some (n.gateway.next devices))]).filterMap Prod.snd =
          n.pushes.filterMap Prod.snd ++ [n.gateway.next devices] := List.filterMap_append
      refine ⟨⟨last, hl, hq.append hf⟩, hn.devices, hn.shown.next devices, ?_, ?_, ?_, ?_⟩
      · intro push hp
        rcases List.mem_append.mp hp with hp | hp
        · exact (hn.pushes push hp).next devices
        · cases List.mem_singleton.mp hp
          refine ⟨ha.symm, fun v hv => ?_⟩
          cases hv
          exact Version.upTo_refl _
      · exact fun p hp => (hn.pulls p hp).next devices
      · rw [hlast, List.getLast?_concat]
        intro v hv
        exact (Option.mem_some_iff.mp hv).symm
      · rw [hlast]
        intro _ hnil
        exact absurd hnil (by simp)

theorem sound_deliver {n : Net} (hn : n.Sound) (now : Instant) :
    (n.step (.deliver now)).Sound := by
  obtain ⟨last, hl, hq⟩ := hn.listening
  cases hpushes : n.pushes with
  | nil =>
    simp only [step, hpushes]
    exact hn
  | cons push rest =>
    obtain ⟨frame, version⟩ := push
    rw [hpushes] at hq
    obtain ⟨hdevices, hnext⟩ := hear_follows hl now hq.1
    obtain ⟨hlist, hupTo⟩ :=
      hn.pushes (frame, version) (by rw [hpushes]; exact List.mem_cons_self)
    have hrest : ∀ push ∈ rest, Announces n.gateway push := fun push hp =>
      hn.pushes push (by rw [hpushes]; exact List.mem_cons_of_mem _ hp)
    have hlatest := hn.latest
    have hsettled := hn.settled
    rw [hpushes] at hlatest hsettled
    rw [← hlist] at hdevices
    cases version with
    | none =>
      simp only [step, hpushes]
      exact ⟨⟨_, hnext, hq.2⟩, hdevices.trans hn.devices, hn.shown, hrest, hn.pulls, hlatest,
        hsettled⟩
    | some version =>
      have hversions : ((frame, some version) :: rest).filterMap Prod.snd =
          version :: rest.filterMap Prod.snd := rfl
      rw [hversions] at hlatest
      simp only [step, hpushes]
      refine ⟨⟨_, hnext, hq.2⟩, hdevices, hupTo version rfl, hrest, hn.pulls, ?_, ?_⟩
      · intro v hv
        refine hlatest v ?_
        rw [List.getLast?_cons, hv]
        rfl
      · intro _ hnone
        exact hlatest version (by rw [hnone]; rfl)

theorem sound_start {n : Net} (hn : n.Sound) (errand : Errand) (now : Instant)
    (cancelled : Bool) : (n.step (.start errand now cancelled)).Sound := by
  obtain ⟨last, hl, hq⟩ := hn.listening
  obtain ⟨hdevices, hrun, htask⟩ := errand.adopts.run now cancelled n.session
  refine ⟨⟨last, ?_, hq⟩, hdevices.trans hn.devices, hn.shown, hn.pushes, ?_, hn.latest, hn.settled⟩
  · exact hl.of_run hrun
  · intro p hp
    rcases List.mem_append.mp hp with hp | hp
    · exact hn.pulls p hp
    · cases List.mem_singleton.mp hp
      exact ⟨htask, nofun⟩

theorem sound_answer {n : Net} (hn : n.Sound) (i : Nat) (outcome : Exchange) :
    (n.step (.answer i outcome)).Sound := by
  cases hi : n.pulls[i]? with
  | none =>
    simp only [step, hi]
    exact hn
  | some p =>
    obtain ⟨task, answer⟩ := p
    cases answer with
    | some answer =>
      simp only [step, hi]
      exact hn
    | none =>
      simp only [step, hi]
      split
      · rename_i htells
        refine ⟨hn.listening, hn.devices, hn.shown, hn.pushes, ?_, hn.latest, hn.settled⟩
        intro p hp
        rcases List.mem_or_eq_of_mem_set hp with hp | rfl
        · exact hn.pulls p hp
        · refine ⟨(hn.pulls _ (List.mem_of_getElem? hi)).adopts, ?_⟩
          rintro _ ⟨⟩
          refine ⟨Version.upTo_refl _, fun devices hd => ?_⟩
          rw [Option.mem_def.mp hd, Bool.and_eq_true] at htells
          exact of_decide_eq_true htells.2
      · exact hn

theorem sound_apply {n : Net} (hn : n.Sound) (i : Nat) (now : Instant) (cancelled : Bool) :
    (n.step (.apply i now cancelled)).Sound := by
  cases hi : n.pulls[i]? with
  | none =>
    simp only [step, hi]
    exact hn
  | some p =>
    obtain ⟨task, answer⟩ := p
    cases answer with
    | none =>
      simp only [step, hi]
      exact hn
    | some answer =>
      obtain ⟨outcome, version⟩ := answer
      obtain ⟨last, hl, hq⟩ := hn.listening
      obtain ⟨hadopts, hanswer⟩ := hn.pulls _ (List.mem_of_getElem? hi)
      obtain ⟨hupTo, htells⟩ := hanswer (outcome, version) rfl
      obtain ⟨hdevices, hrun, htask⟩ := hadopts.answer now cancelled n.session outcome
      have hpulls : ∀ q ∈ n.pulls.set i
          { task := (task.answer now cancelled n.session (.exchanged outcome)).task },
          q.Sound n.gateway := by
        intro q hq
        rcases List.mem_or_eq_of_mem_set hq with hq | rfl
        · exact hn.pulls q hq
        · exact ⟨htask, nofun⟩
      cases hlist : task.listIn outcome with
      | none =>
        simp only [step, hi, hlist]
        rw [hlist] at hdevices
        exact ⟨⟨last, hl.of_run hrun, hq⟩, hdevices.trans hn.devices, hn.shown, hn.pushes,
          hpulls, hn.latest, hn.settled⟩
      | some devices =>
        simp only [step, hi, hlist]
        rw [hlist] at hdevices
        exact ⟨⟨last, hl.of_run hrun, hq⟩, hdevices.trans (htells devices hlist), hupTo,
          hn.pushes, hpulls, hn.latest, nofun⟩

theorem step_sound {n : Net} (hn : n.Sound) (move : Move) : (n.step move).Sound := by
  cases move with
  | push frame => exact sound_push hn frame
  | deliver now => exact sound_deliver hn now
  | start errand now cancelled => exact sound_start hn errand now cancelled
  | answer i outcome => exact sound_answer hn i outcome
  | apply i now cancelled => exact sound_apply hn i now cancelled

theorem after_sound {n : Net} (hn : n.Sound) (moves : List Move) : (n.after moves).Sound := by
  induction moves generalizing n with
  | nil => exact hn
  | cons move rest ih => exact ih (step_sound hn move)

/-- The session took in last the answer of a pull that the gateway gave before
its latest change. -/
def Overtaken (n : Net) : Prop := n.pulled = true ∧ n.shown.number < n.gateway.number

instance (n : Net) : Decidable n.Overtaken := inferInstanceAs (Decidable (_ ∧ _))

/-- Once all pushes have come, what the session took in last is the gateway's
list or has been overtaken. -/
theorem Sound.shown_cases {n : Net} (hn : n.Sound) (hpushes : n.pushes = []) :
    n.shown = n.gateway ∨ n.Overtaken := by
  rcases Nat.lt_or_eq_of_le hn.shown.le with hlt | heq
  · cases hp : n.pulled with
    | true => exact .inr ⟨hp, hlt⟩
    | false => exact .inl (hn.settled hp (by rw [hpushes]; rfl))
  · exact .inl (hn.shown.eq heq)

end Net

/-- A session and a gateway that agree at first, after any moves. The session
shows the list it took in last. Once all pushes have come, this is the
gateway's list, or the answer of a pull that was overtaken. -/
theorem devices_eq_or_overtaken (s : State) (hreading : s.run.phase = .reading)
    (hhandler : s.run.handler ≠ .none) (moves : List Move) :
    ((Net.agreed s).after moves).session.devices = ((Net.agreed s).after moves).shown.devices ∧
    (((Net.agreed s).after moves).pushes = [] →
      ((Net.agreed s).after moves).session.devices =
          ((Net.agreed s).after moves).gateway.devices ∨
        ((Net.agreed s).after moves).Overtaken) := by
  have hn := Net.after_sound (Net.agreed_sound ⟨hreading, hhandler, rfl⟩) moves
  refine ⟨hn.devices, fun hpushes => ?_⟩
  rcases hn.shown_cases hpushes with hsame | hover
  · rw [hn.devices, hsame]
    exact .inl rfl
  · exact .inr hover

/-- A session that has just connected. -/
def connected : State :=
  let link := Push.Link.new "ws://gw/ws" {}
  let idle := State.idle (Rest.Client.new "http://gw" "" 0) link .reconciling {}
  { idle with run := ((Push.Run.start link .reconciling false).step 0 .dialed).1 }

def lamp : Device := { addr := 0x1001 }

/-- The push of a gateway whose first device has joined. -/
def lampPush : Text :=
  ("\x7b\"type\":\"devices_delta\",\"seq\":1," : Text) ++
  "\"data\":\x7b\"devices\":[\x7b\"short_addr\":4097\x7d]\x7d\x7d"

/-- The answer to a status request, with a device list as it is written. -/
def statusAnswer (devices : Text) : Exchange :=
  .ok ("/api/v1/status", { body :=
    ("\x7b\"data\":\x7b\"devices\":" : Text) ++ devices ++ "\x7d,\"status\":\"ok\"\x7d" })

/-- A device joins while the status is asked for. The answer has it, and is
taken in last. -/
def joining : List Move := [
  .start .reconcile 0 false, .push lampPush,
  .answer 0 (statusAnswer "[\x7b\"short_addr\":4097\x7d]"), .deliver 1, .apply 0 2 false]

theorem devices_joining : ((Net.agreed connected).after joining).session.devices = [lamp] := by
  have hshown := (devices_eq_or_overtaken connected rfl nofun joining).2 (by decide +kernel)
  rcases hshown with h | hover
  · rw [h]
    decide +kernel
  · exact absurd hover (by decide +kernel)

/-- The status is asked for and answered, then a device joins; its push comes
before the answer is taken in. -/
def overtaking : List Move := [
  .start .refreshStatus 0 false, .answer 0 (statusAnswer "[]"),
  .push lampPush, .deliver 1, .apply 0 2 false]

/-- With nothing left on its way, the session shows a list that the gateway no
longer has. -/
theorem overtaken_pull : connected.run.phase = .reading ∧
    ((Net.agreed connected).after overtaking).atRest = true ∧
    ((Net.agreed connected).after overtaking).session.devices = [] ∧
    ((Net.agreed connected).after overtaking).gateway.devices = [lamp] := by
  decide +kernel

end MeshConsole.Session
