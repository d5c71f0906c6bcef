import MeshConsole.Proofs.Push.DevicesPayload
import MeshConsole.Proofs.Session.DeviceList
import MeshConsole.Proofs.Simulator.Consulting
import MeshConsole.Proofs.Simulator.Frames

/-!
# A device list, pushed and pulled

The simulator pushes each list that it is given, and answers with it when
asked for its status. Given no list at all it pushes `null`, which a session
does not take for an empty list, but it answers with an empty one.

`pushed_eq_pulled_iff`: a session that has taken in the push shows what a
client is answered, unless no list was given and the session had one before.
-/

namespace MeshConsole

open Json
open Json.Value (Plain Shows)

namespace Push

variable {devices : List Device}

/-- The payload that announces a list. -/
def devicesPayload (devices : Option (List Device)) : Value :=
  .map [("devices", .ofOption (fun devices => .list (devices.map Device.toJson)) devices)]

theorem plain_devicesPayload (devices : Option (List Device)) :
    Plain 3 (devicesPayload devices) := by
  refine .map (List.forall_mem_cons.mpr ⟨?_, List.forall_mem_nil _⟩)
  cases devices with
  | none => exact .null
  | some devices => exact plain_devices devices

theorem decodeDevices_null :
    decodeDevices (devicesPayload none).render = .error .devicesNotArray := by
  rw [devicesPayload, Value.map_singleton]
  rfl

/-- The quick look finds a list that was written. -/
theorem member?_devices (hparse : Tree.parse? data = some (.object trees))
    (hwrote : Wrote [("devices", .list items)] trees) :
    Peek.member? "devices" data = some .array := by
  have hname : ∀ b ∈ Text.scrub "devices", Ascii.blank ≤ b := by decide
  obtain ⟨written, hperm, hshows⟩ := hwrote.order
  rw [List.perm_singleton] at hperm
  subst hperm
  rcases hshows with _ | ⟨⟨hlist⟩, _ | _⟩
  cases hlist with
  | list =>
    refine (member?_array_iff (by decide) hparse ?_).mpr ⟨_, rfl⟩
    simp only [List.forall_mem_cons]
    exact ⟨⟨⟨_, _, _, rfl, hname⟩, trivial⟩, List.forall_mem_nil _⟩

/-- A list comes out as it was written. -/
theorem decodeDevices_list (hutf8 : ∀ d ∈ devices, d.isUtf8 = true) :
    decodeDevices (devicesPayload (some devices)).render = .ok devices := by
  let members : Members := [("devices", .list (devices.map Device.toJson))]
  have hpayload : devicesPayload (some devices) = .object members := Value.map_singleton _
  have hkeys : PlainKeys (["devices"] : List Text) := by decide
  have hplain : ∀ m ∈ members, Plain 2 m.2 :=
    List.forall_mem_cons.mpr ⟨plain_devices devices, List.forall_mem_nil _⟩
  obtain ⟨trees, hparse, hwrote, -⟩ :=
    parse?_wrote_alone (.refl members) hkeys hplain (by decide)
  have hread : Device.listReader none (.object trees) = some (some devices) :=
    (record_wrote hwrote (fun _ hkey => hkey) _).trans (read_devices hutf8 hwrote (.head _))
  rw [hpayload, decodeDevices_eq_ok]
  exact ⟨member?_devices hparse hwrote, some devices,
    (decodePayload_eq_ok _ _ _).mpr ⟨_, hparse, hread⟩, rfl⟩

end Push

namespace Session

open Push (devicesPayload sequenceOf?)
open Simulator (clientAt)

/-- Only a list is announced. -/
theorem announced?_setDevices {s : Simulator} {devices : Option (List Device)}
    (hutf8 : ∀ d ∈ devices.getD [], d.isUtf8 = true)
    (hframe : s.frame? now seq "devices_delta" (devicesPayload devices) = some frame) :
    sequenceOf? frame = some seq ∧ announced? frame = devices := by
  have hkind : Push.Kind.ofType? (Text.scrub "devices_delta") = some .devicesDelta := by decide
  have hdecode := Simulator.decode_frame? hframe
  have hpayload : (s.announcement now seq "devices_delta" (devicesPayload devices)).payload? =
      some ((Push.decodeDevices (devicesPayload devices).render).map .devices) := by
    rw [Simulator.announcement, hkind]
    rfl
  refine ⟨Push.sequenceOf?_ok hdecode, ?_⟩
  rw [announced?, payloadOf?, hdecode]
  simp only [Except.toOption, Option.bind_some, hpayload]
  cases devices with
  | none =>
    rw [Push.decodeDevices_null]
    rfl
  | some devices =>
    have hdecoded : Push.decodeDevices (devicesPayload (some devices)).render = .ok devices :=
      Push.decodeDevices_list hutf8
    rw [hdecoded]
    rfl

variable {s : Simulator} {session : State} {last : UInt64} {devices : Option (List Device)}

theorem hear_setDevices (hl : Listening last session) (hlast : last < s.seq + 1)
    (hutf8 : ∀ d ∈ devices.getD [], d.isUtf8 = true) (now later : Instant) :
    ∃ frame, (s.setDevices now devices).2 = [.push frame] ∧
      (session.hear later frame).devices = devices.getD session.devices ∧
      Listening (s.seq + 1) (session.hear later frame) := by
  let stored : Simulator := { s with status := { s.status with devices := some (devices.getD []) } }
  obtain ⟨frame, hframe, hbroadcast⟩ :=
    Simulator.broadcast_plain (Push.plain_devicesPayload devices) stored now "devices_delta"
  obtain ⟨hseq, hannounced⟩ := announced?_setDevices hutf8 hframe
  have hfollows : follows last frame = true := by
    rw [follows, hseq]
    exact decide_eq_true hlast
  obtain ⟨hdevices, hnext⟩ := hear_follows hl later hfollows
  rw [hannounced] at hdevices
  rw [hseq] at hnext
  exact ⟨frame, congrArg Prod.snd hbroadcast, hdevices, hnext⟩

theorem consult_setDevices (hutf8 : ∀ d ∈ devices.getD [], d.isUtf8 = true)
    (now later : Instant) (hauthority : Url.IsAuthority authority) (timeout : Duration) :
    (s.setDevices now devices).1.consult later (clientAt authority timeout) .status =
      .ok { s.status with devices := some (devices.getD []) } :=
  Simulator.consult_status hauthority timeout later hutf8

/-- A session that has taken in the push of a new list, and a client that asks
for the status then. Both have the list, unless none was given: that leaves
the session what it had, and gives the client an empty list. -/
theorem pushed_eq_pulled_iff (hl : Listening last session) (hlast : last < s.seq + 1)
    (hutf8 : ∀ d ∈ devices.getD [], d.isUtf8 = true) (now later : Instant)
    (hauthority : Url.IsAuthority authority) (timeout : Duration) :
    ∃ frame status, (s.setDevices now devices).2 = [.push frame] ∧
      (s.setDevices now devices).1.consult later (clientAt authority timeout) .status =
        .ok status ∧
      (session.hear later frame).devices = devices.getD session.devices ∧
      status.devices = some (devices.getD []) ∧
      (status.devices = some (session.hear later frame).devices ↔
        (devices = none → session.devices = [])) := by
  obtain ⟨frame, hpush, hshown, -⟩ := hear_setDevices hl hlast hutf8 now later
  refine ⟨frame, _, hpush, consult_setDevices hutf8 now later hauthority timeout, hshown, rfl, ?_⟩
  rw [hshown]
  cases devices with
  | none => simp [eq_comm]
  | some devices => simp

/-- A gateway to which a lamp has come, as its first device. -/
def lampGateway : Simulator := (Simulator.setDevices {} 0 (some [lamp])).1

def lampClient : Rest.Client := clientAt "gateway.lab" 0

theorem lampClient_isAuthority : Url.IsAuthority "gateway.lab" :=
  ⟨by decide, by decide, by decide⟩

theorem listening_connected : Listening 0 connected := ⟨rfl, nofun, rfl⟩

theorem utf8_lamp : ∀ d ∈ (some [lamp]).getD [], Device.isUtf8 d = true := by decide

theorem utf8_none : ∀ d ∈ (none : Option (List Device)).getD [], d.isUtf8 = true := nofun

theorem lamp_pushed_pulled : ∃ frame status,
    (Simulator.setDevices {} 0 (some [lamp])).2 = [.push frame] ∧
      lampGateway.consult 1 lampClient .status = .ok status ∧
      status.devices = some (connected.hear 1 frame).devices := by
  obtain ⟨frame, status, hpush, hpull, -, -, hagree⟩ :=
    pushed_eq_pulled_iff (s := {}) listening_connected (by decide) utf8_lamp 0 1
      lampClient_isAuthority 0
  exact ⟨frame, status, hpush, hpull, hagree.mpr nofun⟩

/-- The lamp's list is replaced by none: the session takes in the push and
still shows the lamp, where a client is answered an empty list. -/
theorem missing_list_kept : ∃ first second status,
    (Simulator.setDevices {} 0 (some [lamp])).2 = [.push first] ∧
      (lampGateway.setDevices 1 none).2 = [.push second] ∧
      (lampGateway.setDevices 1 none).1.consult 2 lampClient .status = .ok status ∧
      ((connected.hear 1 first).hear 2 second).devices = [lamp] ∧ status.devices = some [] := by
  obtain ⟨first, hfirst, hlamp, hnext⟩ :=
    hear_setDevices (s := {}) listening_connected (by decide) utf8_lamp 0 1
  obtain ⟨second, hsecond, hkept, -⟩ :=
    hear_setDevices (s := lampGateway) hnext (by decide) utf8_none 1 2
  rw [hlamp] at hkept
  exact ⟨first, second, _, hfirst, hsecond,
    consult_setDevices utf8_none 1 2 lampClient_isAuthority 0, hkept, rfl⟩

end Session

end MeshConsole
