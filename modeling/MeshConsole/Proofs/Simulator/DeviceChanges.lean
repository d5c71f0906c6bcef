import MeshConsole.Proofs.Simulator.Consulting
import MeshConsole.Session.Visit

/-!
# Changes of the device list

A console may have a device deleted or renamed. The simulator looks for the
first device of the address; where there is one, it changes that one and
nothing else (`ask_change`).
-/

namespace MeshConsole

open Json
open Json.Value (Plain object_ne_null)

namespace DeviceChange

/-- What takes the place of the device. -/
def edit : DeviceChange → Device → List Device
  | .delete _, _ => []
  | .rename _ name, d => [{ d with name }]

def isUtf8 : DeviceChange → Bool
  | .delete _ => true
  | .rename _ name => name.isUtf8

/-- The list with the first device of the address changed; nothing when there
is none. -/
def changed? (change : DeviceChange) : List Device → Option (List Device)
  | [] => none
  | d :: rest =>
    if d.addr = change.addr then some (change.edit d ++ rest)
    else (change.changed? rest).map (d :: ·)

theorem changed?_delete (addr : UInt16) (devices : List Device) :
    Simulator.removeDevice? addr devices = changed? (.delete addr) devices := by
  induction devices with
  | nil => rfl
  | cons d rest ih =>
    rw [Simulator.removeDevice?, changed?, ih]
    rfl

theorem changed?_rename (addr : UInt16) (name : Text) (devices : List Device) :
    Simulator.nameDevice? addr name devices = changed? (.rename addr name) devices := by
  induction devices with
  | nil => rfl
  | cons d rest ih =>
    rw [Simulator.nameDevice?, changed?, ih]
    rfl

section
variable {change : DeviceChange} {devices : List Device}

theorem changed?_eq_none (h : change.changed? devices = none) :
    ∀ d ∈ devices, d.addr ≠ change.addr := by
  induction devices with
  | nil => exact List.forall_mem_nil _
  | cons d rest ih =>
    rw [changed?] at h
    split at h
    case isTrue => cases h
    case isFalse hother => exact List.forall_mem_cons.mpr ⟨hother, ih (Option.map_eq_none_iff.mp h)⟩

/-- Just one device is changed, the first of the address. -/
def Changes (change : DeviceChange) (devices changed : List Device) : Prop :=
  ∃ before d after, devices = before ++ d :: after ∧ d.addr = change.addr ∧
    (∀ e ∈ before, e.addr ≠ change.addr) ∧ changed = before ++ (change.edit d ++ after)

theorem changes_of_changed? (h : change.changed? devices = some changed) :
    change.Changes devices changed := by
  induction devices generalizing changed with
  | nil => cases h
  | cons d rest ih =>
    rw [changed?] at h
    split at h
    case isTrue haddr =>
      obtain rfl := Option.some.inj h
      exact ⟨[], d, rest, rfl, haddr, List.forall_mem_nil _, rfl⟩
    case isFalse hother =>
      obtain ⟨changedRest, hrest, rfl⟩ := Option.map_eq_some_iff.mp h
      obtain ⟨before, e, after, rfl, haddr, hbefore, rfl⟩ := ih hrest
      exact ⟨d :: before, e, after, rfl, haddr, List.forall_mem_cons.mpr ⟨hother, hbefore⟩, rfl⟩

theorem Changes.isUtf8 (h : change.Changes devices changed) (hname : change.isUtf8 = true)
    (hutf8 : ∀ d ∈ devices, d.isUtf8 = true) : ∀ d ∈ changed, d.isUtf8 = true := by
  obtain ⟨before, d, after, rfl, -, -, rfl⟩ := h
  rw [List.forall_mem_append, List.forall_mem_cons] at hutf8
  obtain ⟨hbefore, -, hafter⟩ := hutf8
  have hedit : ∀ e ∈ change.edit d, e.isUtf8 = true := by
    cases change with
    | delete => exact List.forall_mem_nil _
    | rename => exact List.forall_mem_singleton.mpr hname
  exact List.forall_mem_append.mpr ⟨hbefore, List.forall_mem_append.mpr ⟨hedit, hafter⟩⟩

end

end DeviceChange

namespace Simulator

-- ---------------------------------------------------------------------------
-- Requests
-- ---------------------------------------------------------------------------

theorem small_addr (addr : UInt16) : addr.toNat < 2 ^ 63 :=
  Nat.lt_trans addr.toNat_lt (by decide)

theorem toInt_addr (addr : UInt16) : (Int64.ofNat addr.toNat).toInt = addr.toNat :=
  Int64.toInt_ofNat_of_lt (small_addr addr)

theorem isShortAddr_of_toNat {addr : UInt16} (hne : addr ≠ 0) :
    isShortAddr (Int64.ofNat addr.toNat) = true := by
  have hsmall : addr.toNat < 65536 := addr.toNat_lt
  have hpos : addr.toNat ≠ 0 := fun hzero => hne (UInt16.toNat_inj.mp hzero)
  rw [isShortAddr, Bool.and_eq_true, decide_eq_true_eq, decide_eq_true_eq,
    Int64.lt_iff_toInt_lt, Int64.le_iff_toInt_le, toInt_addr]
  refine ⟨?_, ?_⟩
  · show (0 : Int) < addr.toNat
    omega
  · show (addr.toNat : Int) ≤ 0xFFFF
    omega

theorem ofInt_addr (addr : UInt16) : UInt16.ofInt (Int64.ofNat addr.toNat).toInt = addr := by
  have hsmall : addr.toNat < 65536 := addr.toNat_lt
  have hmod : (addr.toNat : Int) % 65536 = addr.toNat := by omega
  rw [toInt_addr]
  simp [UInt16.ofInt, hmod]

theorem addr?_of_toNat {addr : UInt16} (hne : addr ≠ 0) (name : Option Text) :
    DeviceBody.addr? { addr := some (Int64.ofNat addr.toNat), name } = some addr := by
  simp only [DeviceBody.addr?, Option.bind_eq_bind, Option.bind_some, isShortAddr_of_toNat hne,
    if_true, ofInt_addr]

section
variable (addr : UInt16)

theorem readBody?_delete : readBody? deleteReader {} (Rest.Call.deviceRef addr []).render =
    some { addr := some (Int64.ofNat addr.toNat) } := by
  let members : Members := [("short_addr", .int addr.toNat)]
  have hkeys : PlainKeys (["short_addr"] : List Text) := by decide
  have hplain : ∀ m ∈ members, Plain 0 m.2 :=
    List.forall_mem_cons.mpr ⟨.int, List.forall_mem_nil _⟩
  obtain ⟨trees, hfirst, hwrote⟩ :=
    first?_wrote (.refl members) hkeys hplain (by decide) bodyPortion
  have hread : deleteReader {} (.object trees) =
      some { addr := some (Int64.ofNat addr.toNat) } := by
    refine (record_wrote hwrote (fun _ hkey => hkey) _).trans ?_
    simp only [optionalInt, hwrote.optionalNat (.head _) (small_addr addr)]
    rfl
  show Tree.first? bodyPortion (Value.object members).render >>= deleteReader {} = _
  rw [hfirst]
  exact hread

theorem readBody?_rename {name : Text} (hne : name ≠ []) :
    readBody? renameReader {} (Rest.Call.deviceRef addr name).render =
      some { addr := some (Int64.ofNat addr.toNat), name := some name.scrub } := by
  let members : Members := [("short_addr", .int addr.toNat), ("name", .text name)]
  have hkeys : PlainKeys (["short_addr", "name"] : List Text) := by decide
  have hplain : ∀ m ∈ members, Plain 0 m.2 :=
    List.forall_mem_cons.mpr ⟨.int, List.forall_mem_cons.mpr ⟨.text, List.forall_mem_nil _⟩⟩
  have hmembers : Rest.Call.deviceRef addr name = .object members := by
    simp [Rest.Call.deviceRef, hne, members]
  obtain ⟨trees, hfirst, hwrote⟩ :=
    first?_wrote (.refl members) hkeys hplain (by decide) bodyPortion
  have hread : renameReader {} (.object trees) =
      some { addr := some (Int64.ofNat addr.toNat), name := some name.scrub } := by
    refine (record_wrote hwrote (fun _ hkey => hkey) _).trans ?_
    simp only [optionalInt, hwrote.optionalNat (.head _) (small_addr addr),
      hwrote.optionalText (.tail _ (.head _))]
    rfl
  rw [hmembers, readBody?, hfirst]
  exact hread

end

theorem checkDeviceName_ok {name : Text} (h : checkDeviceName name = .ok ()) : name ≠ [] := by
  rintro rfl
  cases h

end Simulator

open Simulator

namespace DeviceChange

def route : DeviceChange → Route
  | .delete _ => .delete
  | .rename _ _ => .rename

/-- What the simulator says of a change that it has made. -/
def message : DeviceChange → Text
  | .delete _ => "Device deleted"
  | .rename _ _ => "Device renamed"

/-- What it says when there is no device of the address. -/
def failure : DeviceChange → Text
  | .delete _ => "Delete failed"
  | .rename _ _ => "Rename failed"

theorem plain_path (change : DeviceChange) :
    ∀ b ∈ change.call.path, Url.IsPlain b ∧ b ≠ Ascii.percent := by
  have hdelete : ∀ b ∈ ("/delete" : Text), Url.IsPlain b ∧ b ≠ Ascii.percent := by decide
  have hrename : ∀ b ∈ ("/rename" : Text), Url.IsPlain b ∧ b ≠ Ascii.percent := by decide
  cases change with
  | delete => exact hdelete
  | rename => exact hrename

theorem addr_ne_zero {change : DeviceChange} (h : change.call.check = .ok ()) :
    change.addr ≠ 0 := by
  cases change with
  | delete addr =>
    rintro rfl
    cases h
  | rename addr name =>
    rintro rfl
    cases h

theorem name_ok {addr : UInt16} {name : Text} (h : (rename addr name).call.check = .ok ()) :
    checkDeviceName name = .ok () := by
  unfold call Rest.Call.check at h
  dsimp only at h
  split at h
  · cases h
  · exact h

end DeviceChange

namespace Simulator

section
variable {change : DeviceChange} {r : Incoming} (hcheck : change.call.check = .ok ())
  (hutf8 : change.isUtf8 = true) (hbody : some r.body = change.call.body?.map Json.Value.render)
include hcheck hutf8 hbody

theorem serveRoute_change (s : Simulator) (now : Instant) :
    s.serveRoute now r change.route =
      s.withDevices (change.changed? s.devices) change.message change.failure := by
  cases change with
  | delete addr =>
    have haddr : addr ≠ 0 := DeviceChange.addr_ne_zero hcheck
    have hread := readBody?_delete addr
    rw [← Option.some.inj hbody] at hread
    show serveDelete s r = _
    rw [serveDelete, hread]
    simp only [Option.bind_eq_bind, Option.bind_some, addr?_of_toNat haddr,
      DeviceChange.changed?_delete]
    rfl
  | rename addr name =>
    have haddr : addr ≠ 0 := DeviceChange.addr_ne_zero hcheck
    have hname := DeviceChange.name_ok hcheck
    have hread := readBody?_rename addr (checkDeviceName_ok hname)
    rw [Text.scrub_of_isUtf8 hutf8, ← Option.some.inj hbody] at hread
    show serveRename s r = _
    rw [serveRename, hread]
    simp only [Option.bind_eq_bind, Option.bind_some, addr?_of_toNat haddr, hname,
      DeviceChange.changed?_rename]
    rfl

end

section
variable {change : DeviceChange} {request : Rest.Request} (hask : Rest.Asks request change.call)
  (s : Simulator) (now : Instant)
include hask

theorem route?_change : (arrival request).route? = some change.route := by
  have hdelete : Path.clean "/api/v1/delete" = "/api/v1/delete" ∧
      Route.ofPath? "/api/v1/delete" = some .delete := by
    decide
  have hrename : Path.clean "/api/v1/rename" = "/api/v1/rename" ∧
      Route.ofPath? "/api/v1/rename" = some .rename := by
    decide
  cases change with
  | delete => exact arrival_route? hask hdelete.1 hdelete.2 rfl
  | rename => exact arrival_route? hask hrename.1 hrename.2 rfl

/-- A change is refused, or some list is put in the place of the old one. -/
theorem ask_change_cases : (s.ask now request).Refuses s ∨
    ∃ devices message, s.ask now request = {
      simulator := { s with status := { s.status with devices := some devices } }
      response := messageResponse message } := by
  have hroute := route?_change hask
  have hserves := serve_cases s now (arrival request)
  rw [ask]
  generalize s.serve now (arrival request) = served at hserves
  have hother {route : Route} (h : (arrival request).route? = some route) : route = change.route :=
    Option.some.inj (h.symm.trans hroute)
  cases hserves with
  | refused hrefuses => exact .inl hrefuses
  | lists devices message => exact .inr ⟨devices, message, rfl⟩
  | shows _ h =>
    simp only [List.mem_cons, List.not_mem_nil, or_false] at h
    rcases h with h | h | h <;> cases change <;> cases hother h
  | polls hpolled =>
    rw [Incoming.polled?, hroute] at hpolled
    cases change <;> cases hpolled
  | queues _ h | admits _ _ h | commands _ _ h | saves _ _ h => cases change <;> cases hother h

/-- A change that the client lets through is made, or there is no device of
the address. -/
theorem ask_change (hcheck : change.call.check = .ok ()) (hutf8 : change.isUtf8 = true) :
    s.ask now request =
      s.withDevices (change.changed? s.devices) change.message change.failure := by
  have hbody : some (arrival request).body = change.call.body?.map Json.Value.render := by
    rw [arrival, hask.body]
    cases change <;> rfl
  rw [ask, serve_routed (route?_change hask)]
  exact serveRoute_change hcheck hutf8 hbody s now

end

-- ---------------------------------------------------------------------------
-- Replies
-- ---------------------------------------------------------------------------

theorem read_message (message : Text) :
    Tree.parse? (Value.object [("message", .text message)]).render >>=
      Rest.Call.messageReader [] = some message.scrub := by
  let members : Members := [("message", .text message)]
  have hkeys : PlainKeys (["message"] : List Text) := by decide
  have hplain : ∀ m ∈ members, Plain 0 m.2 :=
    List.forall_mem_cons.mpr ⟨.text, List.forall_mem_nil _⟩
  obtain ⟨trees, hparse, hwrote, -⟩ :=
    parse?_wrote_alone (.refl members) hkeys hplain (by decide)
  have hread : Rest.Call.messageReader [] (.object trees) = some message.scrub :=
    (record_wrote hwrote (fun _ hkey => hkey) _).trans (hwrote.text (.head _) _)
  rw [hparse]
  exact hread

theorem reply_message {call : Rest.Call} (path message : Text) {reply : call.Reply}
    (hread : Tree.parse? (Value.object [("message", .text message)]).render >>=
      call.reader call.emptyReply = some reply) :
    call.reply path (messageResponse message) = .ok reply := by
  have hplain : Plain 1 (.object [("message", .text message)]) :=
    .object (List.forall_mem_cons.mpr ⟨.text, List.forall_mem_nil _⟩)
  exact Rest.reply_okResponse hplain (by decide) (object_ne_null _) call path hread

end Simulator

namespace DeviceChange

/-- The reply to a change. -/
def reply (change : DeviceChange) (path : Text) (response : Rest.Response) : Except Fault Text :=
  match change with
  | .delete addr => (Rest.Call.delete addr).reply path response
  | .rename addr name => (Rest.Call.rename addr name).reply path response

theorem reply_granted (change : DeviceChange) (path message : Text) :
    change.reply path (messageResponse message) = .ok message.scrub := by
  cases change <;> exact reply_message path message (read_message message)

theorem reply_refused (change : DeviceChange) (path : Text) {response : Rest.Response}
    (h : 300 ≤ response.status) : ∃ why, change.reply path response = .error why := by
  cases change <;> exact Rest.reply_refused path h

end DeviceChange

end MeshConsole
