import MeshConsole.Proofs.Gateway.Limits
import MeshConsole.Proofs.Simulator.DeviceChanges

/-!
# Instructions to the gateway

A client checks the arguments of an instruction before it asks, and the
simulator checks what it reads. Both go by the same limits
(`carry_cases`): the client asks nothing that the simulator would not take.
-/

namespace MeshConsole

open Json
open Json.Value (Plain)

-- ---------------------------------------------------------------------------
-- Carrying out a call
-- ---------------------------------------------------------------------------

/-- A call that has been put to the simulator: what that is then, what was
exchanged, and what the caller gets. -/
structure Errand (α : Type) where
  simulator : Simulator
  exchanges : List (Rest.Request × Rest.Response) := []
  outcome : Except Fault α

/-- The arguments break a limit: nothing was asked, and nothing has changed. -/
structure Errand.Unsent (errand : Errand α) (s : Simulator) : Prop where
  outcome : ∃ limit, errand.outcome = .error (.limit limit)
  exchanges : errand.exchanges = []
  simulator : errand.simulator = s

namespace Simulator

def errand (s : Simulator) (now : Instant) (c : Rest.Client) (call : Rest.Call) :
    Errand call.Reply :=
  match c.request call with
  | .error why => { simulator := s, outcome := .error why }
  | .ok request =>
    let served := s.ask now request
    { simulator := served.simulator
      exchanges := [(request, served.response)]
      outcome := call.reply request.url.path served.response }

section
variable {call : Rest.Call} (s : Simulator) (now : Instant)

theorem errand_unsent (c : Rest.Client) (h : call.check ≠ .ok ()) :
    (s.errand now c call).Unsent s := by
  cases hcheck : call.check with
  | ok => exact absurd hcheck h
  | error limit =>
    rw [errand, Rest.request_invalid c hcheck]
    exact ⟨⟨limit, rfl⟩, rfl, rfl⟩

theorem errand_sent (hauthority : Url.IsAuthority authority) (timeout : Duration)
    (hcheck : call.check = .ok ()) (hpath : ∀ b ∈ call.path, Url.IsPlain b ∧ b ≠ Ascii.percent) :
    ∃ request, Rest.Asks request call ∧ s.errand now (clientAt authority timeout) call = {
      simulator := (s.ask now request).simulator
      exchanges := [(request, (s.ask now request).response)]
      outcome := call.reply request.url.path (s.ask now request).response } := by
  obtain ⟨request, hrequest, hask⟩ :=
    Rest.request_of_gateway hauthority (Rest.base_new hauthority timeout) hcheck hpath
  have hclient : (clientAt authority timeout).request call = .ok request := hrequest
  refine ⟨request, hask, ?_⟩
  rw [errand, hclient]

-- ---------------------------------------------------------------------------
-- Commands
-- ---------------------------------------------------------------------------

theorem small_byte (b : UInt8) : b.toNat < 2 ^ 63 := Nat.lt_trans b.toNat_lt (by decide)

theorem toInt_byte (b : UInt8) : (Int64.ofNat b.toNat).toInt = b.toNat :=
  Int64.toInt_ofNat_of_lt (small_byte b)

theorem ofInt_byte (b : UInt8) : UInt8.ofInt (Int64.ofNat b.toNat).toInt = b := by
  have hsmall : b.toNat < 256 := b.toNat_lt
  have hmod : (b.toNat : Int) % 256 = b.toNat := by omega
  rw [toInt_byte]
  simp [UInt8.ofInt, hmod]

theorem command?_of_toNat {c : Command} (h : c.IsWithin) : ControlBody.command? {
    addr := some (Int64.ofNat c.addr.toNat)
    endpoint := some (Int64.ofNat c.endpoint.toNat)
    switch := some (Int64.ofNat c.switch.toNat) } = some c := by
  obtain ⟨haddr, hendpoint, hswitch⟩ := h
  have hshort : isShortAddr (Int64.ofNat c.addr.toNat) = true :=
    isShortAddr_of_toNat (bne_iff_ne.mp ((isShortAddr_iff c.addr).mpr haddr))
  have hleast : 0 < Int64.ofNat c.endpoint.toNat := by
    rw [Int64.lt_iff_toInt_lt, toInt_byte]
    exact Int.natCast_pos.mpr hendpoint.1
  have hgreatest : (Int64.ofNat c.endpoint.toNat).toInt ≤ maxEndpoint := by
    rw [toInt_byte]
    exact_mod_cast hendpoint.2
  have hbit : (Int64.ofNat c.switch.toNat == 0 || Int64.ofNat c.switch.toNat == 1) = true := by
    rcases Nat.le_one_iff_eq_zero_or_eq_one.mp hswitch with hzero | hone
    · rw [hzero]; rfl
    · rw [hone]; rfl
  simp only [ControlBody.command?, Option.bind_eq_bind, Option.bind_some, hshort, hleast,
    hgreatest, hbit, decide_true, Bool.and_self, if_true, ofInt_addr, ofInt_byte]

theorem readBody?_control (c : Command) : readBody? ControlBody.reader {} c.toJson.render = some {
    addr := some (Int64.ofNat c.addr.toNat)
    endpoint := some (Int64.ofNat c.endpoint.toNat)
    switch := some (Int64.ofNat c.switch.toNat) } := by
  let members : Members :=
    [("addr", .int c.addr.toNat), ("ep", .int c.endpoint.toNat), ("cmd", .int c.switch.toNat)]
  have hkeys : PlainKeys (["addr", "ep", "cmd"] : List Text) := by decide
  have hplain : ∀ m ∈ members, Plain 0 m.2 :=
    List.forall_mem_cons.mpr ⟨.int, List.forall_mem_cons.mpr ⟨.int,
      List.forall_mem_cons.mpr ⟨.int, List.forall_mem_nil _⟩⟩⟩
  obtain ⟨trees, hfirst, hwrote⟩ :=
    first?_wrote (.refl members) hkeys hplain (by decide) bodyPortion
  have haddr := hwrote.optionalNat (.head _) (small_addr c.addr) none
  have hendpoint := hwrote.optionalNat (.tail _ (.head _)) (small_byte c.endpoint) none
  have hswitch := hwrote.optionalNat (.tail _ (.tail _ (.head _))) (small_byte c.switch) none
  show Tree.first? bodyPortion (Value.object members).render >>= ControlBody.reader {} = _
  have hread : ControlBody.reader {} (.object trees) = some {
      addr := some (Int64.ofNat c.addr.toNat)
      endpoint := some (Int64.ofNat c.endpoint.toNat)
      switch := some (Int64.ofNat c.switch.toNat) } := by
    refine (record_wrote hwrote (fun _ hkey => hkey) _).trans ?_
    simp only [optionalInt, haddr, hendpoint, hswitch]
    rfl
  rw [hfirst]
  exact hread

/-- A command within the limits is kept as it was given. -/
theorem ask_control {request : Rest.Request} {command : Command}
    (hask : Rest.Asks request (.control command)) (h : command.IsWithin) :
    (s.ask now request).simulator = { s with commands := s.commands ++ [command] } ∧
      (s.ask now request).response = messageResponse "Command sent" := by
  have hpath : (Rest.Call.control command).path = "/control" := rfl
  have hroute : (arrival request).route? = some .control :=
    arrival_route? hask (by rw [hpath]; decide) (by rw [hpath]; decide) rfl
  have hbody : (arrival request).body = command.toJson.render := by
    rw [arrival, hask.body]
    rfl
  have hread : readBody? ControlBody.reader {} (arrival request).body >>= ControlBody.command? =
      some command := by
    rw [hbody, readBody?_control, Option.bind_eq_bind, Option.bind_some]
    exact command?_of_toNat h
  rw [ask, serve_routed hroute, serveRoute, serveControl, hread]
  exact ⟨rfl, rfl⟩

end

end Simulator

-- ---------------------------------------------------------------------------
-- Instructions
-- ---------------------------------------------------------------------------

/-- An on/off command, or a change of the device list. -/
inductive Instruction where
  | control (command : Command)
  | alter (change : DeviceChange)

namespace Instruction

open Simulator (clientAt messageResponse errorResponse)

def isUtf8 : Instruction → Bool
  | .control _ => true
  | .alter change => change.isUtf8

/-- The limits of the arguments, as they are documented. -/
def IsWithin : Instruction → Prop
  | .control command => command.IsWithin
  | .alter (.delete addr) => IsShortAddr addr
  | .alter (.rename addr name) => IsShortAddr addr ∧ IsDeviceName name

/-- The instruction, put to the simulator by a client. -/
def carry (s : Simulator) (now : Instant) (c : Rest.Client) : Instruction → Errand Text
  | .control command => s.errand now c (.control command)
  | .alter (.delete addr) => s.errand now c (.delete addr)
  | .alter (.rename addr name) => s.errand now c (.rename addr name)

theorem check_change (change : DeviceChange) :
    change.call.check = .ok () ↔ (alter change).IsWithin := by
  cases change with
  | delete addr => exact checkShortAddr_eq_ok addr
  | rename addr name =>
    rw [IsWithin, ← checkShortAddr_eq_ok, ← checkDeviceName_eq_ok, DeviceChange.call,
      Rest.Call.check]
    cases checkShortAddr addr <;> simp

/-- How an instruction within the limits comes out: it is carried out, or there
is no device of the address. -/
inductive Carried (s : Simulator) : Instruction → Errand Text → Prop where
  | controlled {command : Command} {request : Rest.Request} :
      Rest.Asks request (.control command) →
      Carried s (.control command) {
        simulator := { s with commands := s.commands ++ [command] }
        exchanges := [(request, messageResponse "Command sent")]
        outcome := .ok "Command sent" }
  | altered {change : DeviceChange} {request : Rest.Request} {devices : List Device} :
      Rest.Asks request change.call → change.Changes s.devices devices →
      Carried s (.alter change) {
        simulator := { s with status := { s.status with devices := some devices } }
        exchanges := [(request, messageResponse change.message)]
        outcome := .ok change.message }
  | absent {change : DeviceChange} {request : Rest.Request} :
      Rest.Asks request change.call → (∀ d ∈ s.devices, d.addr ≠ change.addr) →
      Carried s (.alter change) {
        simulator := s
        exchanges := [(request, errorResponse 500 "internal_error" change.failure)]
        outcome := .error (.rejected 500 "internal_error" change.failure) }

section
variable (s : Simulator) (now : Instant)

theorem carry_unsent (c : Rest.Client) {instruction : Instruction} (h : ¬ instruction.IsWithin) :
    (instruction.carry s now c).Unsent s := by
  cases instruction with
  | control command =>
    exact Simulator.errand_unsent s now c fun hcheck => h ((Command.check_eq_ok _).mp hcheck)
  | alter change =>
    have hcheck : change.call.check ≠ .ok () := fun hcheck => h ((check_change change).mp hcheck)
    cases change with
    | delete addr => exact Simulator.errand_unsent s now c hcheck
    | rename addr name => exact Simulator.errand_unsent s now c hcheck

variable (hauthority : Url.IsAuthority authority) (timeout : Duration)
include hauthority

theorem carry_control {command : Command} (h : command.IsWithin) :
    Carried s (.control command) ((control command).carry s now (clientAt authority timeout)) := by
  have hplain : ∀ b ∈ ("/control" : Text), Url.IsPlain b ∧ b ≠ Ascii.percent := by decide
  have hcheck : (Rest.Call.control command).check = .ok () := (Command.check_eq_ok _).mpr h
  obtain ⟨request, hask, herrand⟩ := s.errand_sent now hauthority timeout hcheck hplain
  obtain ⟨hsimulator, hresponse⟩ := s.ask_control now hask h
  have hreply : (Rest.Call.control command).reply request.url.path
      (messageResponse "Command sent") = .ok (("Command sent" : Text).scrub) :=
    Simulator.reply_message _ _ (Simulator.read_message _)
  have hscrub : ("Command sent" : Text).scrub = "Command sent" := by decide
  rw [carry, herrand, hsimulator, hresponse, hreply, hscrub]
  exact .controlled hask

/-- A change is put to the simulator as its call is. -/
theorem carry_alter {change : DeviceChange} (hcheck : change.call.check = .ok ()) :
    ∃ request, Rest.Asks request change.call ∧
      (alter change).carry s now (clientAt authority timeout) = {
        simulator := (s.ask now request).simulator
        exchanges := [(request, (s.ask now request).response)]
        outcome := change.reply request.url.path (s.ask now request).response } := by
  have hplain := change.plain_path
  cases change with
  | delete addr => exact s.errand_sent now hauthority timeout hcheck hplain
  | rename addr name => exact s.errand_sent now hauthority timeout hcheck hplain

omit hauthority in
theorem reply_altered (change : DeviceChange) (path : Text) :
    change.reply path (messageResponse change.message) = .ok change.message := by
  have hdeleted : ("Device deleted" : Text).scrub = "Device deleted" := by decide
  have hrenamed : ("Device renamed" : Text).scrub = "Device renamed" := by decide
  rw [change.reply_granted]
  cases change with
  | delete => exact congrArg Except.ok hdeleted
  | rename => exact congrArg Except.ok hrenamed

omit hauthority in
theorem reply_absent (change : DeviceChange) (path : Text) :
    change.reply path (errorResponse 500 "internal_error" change.failure) =
      .error (.rejected 500 "internal_error" change.failure) := by
  have hcode : ("internal_error" : Text).scrub = "internal_error" := by decide
  have hdelete : ("Delete failed" : Text).scrub = "Delete failed" := by decide
  have hrename : ("Rename failed" : Text).scrub = "Rename failed" := by decide
  have hstatus : (300 : Int) ≤ 500 := by decide
  cases change with
  | delete addr =>
    have hreply := Rest.reply_errorResponse "internal_error" "Delete failed" (.delete addr) path
      hstatus (by decide)
    rwa [hcode, hdelete] at hreply
  | rename addr name =>
    have hreply := Rest.reply_errorResponse "internal_error" "Rename failed" (.rename addr name)
      path hstatus (by decide)
    rwa [hcode, hrename] at hreply

theorem carried_alter {change : DeviceChange} (hutf8 : change.isUtf8 = true)
    (h : (alter change).IsWithin) :
    Carried s (.alter change) ((alter change).carry s now (clientAt authority timeout)) := by
  have hcheck := (check_change change).mpr h
  obtain ⟨request, hask, hcarry⟩ := carry_alter s now hauthority timeout hcheck
  rw [hcarry, Simulator.ask_change hask s now hcheck hutf8]
  cases hchanged : change.changed? s.devices with
  | none =>
    have hreply := reply_absent change request.url.path
    rw [Simulator.withDevices]
    dsimp only
    rw [hreply]
    exact .absent hask (DeviceChange.changed?_eq_none hchanged)
  | some devices =>
    have hreply := reply_altered change request.url.path
    rw [Simulator.withDevices]
    dsimp only
    rw [hreply]
    exact .altered hask (DeviceChange.changes_of_changed? hchanged)

/-- Any instruction to any simulator. If an argument is outside its limits,
nothing is asked. Else there is one request, and it is granted unless it is for
a device that is not there. -/
theorem carry_cases (instruction : Instruction) (hutf8 : instruction.isUtf8 = true) :
    (¬ instruction.IsWithin →
      (instruction.carry s now (clientAt authority timeout)).Unsent s) ∧
    (instruction.IsWithin →
      Carried s instruction (instruction.carry s now (clientAt authority timeout))) := by
  refine ⟨carry_unsent s now _, fun hwithin => ?_⟩
  cases instruction with
  | control command => exact carry_control s now hauthority timeout hwithin
  | alter change => exact carried_alter s now hauthority timeout hutf8 hwithin

end

/-- The endpoint and the address are the greatest that there are. -/
def farthest : Command := { addr := 0xFFFF, endpoint := 240, switch := 1 }

theorem farthest_commanded : ∃ request,
    (control farthest).carry {} 0 (clientAt "gateway.lab" 0) = {
      simulator := { commands := [farthest] }
      exchanges := [(request, messageResponse "Command sent")]
      outcome := .ok "Command sent" } := by
  have hauthority : Url.IsAuthority "gateway.lab" := ⟨by decide, by decide, by decide⟩
  have hwithin : (control farthest).IsWithin :=
    ⟨(by decide : 1 ≤ farthest.addr.toNat), by decide, by decide⟩
  obtain ⟨-, hcarried⟩ := carry_cases {} 0 hauthority 0 (control farthest) rfl
  have h := hcarried hwithin
  generalize (control farthest).carry {} 0 (clientAt "gateway.lab" 0) = errand at h
  cases h with
  | controlled => exact ⟨_, rfl⟩

end Instruction

end MeshConsole
