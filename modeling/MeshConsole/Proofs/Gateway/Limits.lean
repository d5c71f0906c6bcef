import Mathlib.Data.List.Defs
import MeshConsole.Gateway.Limits

/-!
# The limits as they are documented

A check gives the first limit that is broken. What passes every check is within
all the limits (`check_eq_ok`), and the other way round.
-/

namespace MeshConsole

theorem firstBroken_eq_ok {checks : List (Bool × Limit)} :
    firstBroken checks = .ok () ↔ ∀ c ∈ checks, c.1 = true := by
  induction checks with
  | nil => exact iff_of_true rfl (List.forall_mem_nil _)
  | cons c checks ih =>
    obtain ⟨holds, limit⟩ := c
    rw [firstBroken, List.forall_mem_cons, ← ih]
    cases holds <;> simp

/-- No address is greater than `0xFFFF`. -/
def IsShortAddr (addr : UInt16) : Prop := 1 ≤ addr.toNat

/-- Lengths are counted in bytes. -/
def IsDeviceName (name : Text) : Prop := 1 ≤ name.length ∧ name.length ≤ 31

theorem isShortAddr_iff (addr : UInt16) : (addr != 0) = true ↔ IsShortAddr addr := by
  rw [bne_iff_ne, ne_eq, ← UInt16.toNat_inj]
  exact Nat.one_le_iff_ne_zero.symm

theorem checkShortAddr_eq_ok (addr : UInt16) : checkShortAddr addr = .ok () ↔ IsShortAddr addr := by
  rw [checkShortAddr, firstBroken_eq_ok, List.forall_mem_singleton, isShortAddr_iff]

theorem checkDeviceName_eq_ok (name : Text) :
    checkDeviceName name = .ok () ↔ IsDeviceName name := by
  rw [checkDeviceName, firstBroken_eq_ok, List.forall_mem_singleton]
  simp [IsDeviceName, Nat.one_le_iff_ne_zero]

structure Command.IsWithin (c : Command) : Prop where
  addr : IsShortAddr c.addr
  endpoint : 1 ≤ c.endpoint.toNat ∧ c.endpoint.toNat ≤ 240
  switch : c.switch.toNat ≤ 1

theorem Command.check_eq_ok (c : Command) : c.check = .ok () ↔ c.IsWithin := by
  have hendpoint : (c.endpoint != 0 && c.endpoint.toNat ≤ maxEndpoint) = true ↔
      1 ≤ c.endpoint.toNat ∧ c.endpoint.toNat ≤ 240 := by
    rw [Bool.and_eq_true, decide_eq_true_eq, bne_iff_ne, ne_eq, ← UInt8.toNat_inj,
      Nat.one_le_iff_ne_zero]
    rfl
  have hswitch : (c.switch == 0 || c.switch == 1) = true ↔ c.switch.toNat ≤ 1 := by
    simp [← UInt8.toNat_inj, Nat.le_one_iff_eq_zero_or_eq_one]
  rw [check, firstBroken_eq_ok]
  simp only [List.forall_mem_cons, isShortAddr_iff, hendpoint, hswitch]
  exact ⟨fun ⟨haddr, hend, hcommand, _⟩ => ⟨haddr, hend, hcommand⟩,
    fun ⟨haddr, hend, hcommand⟩ => ⟨haddr, hend, hcommand, List.forall_mem_nil _⟩⟩

structure Credentials.IsWithin (c : Credentials) : Prop where
  ssid : 1 ≤ c.ssid.length ∧ c.ssid.length ≤ 32
  password : 8 ≤ c.password.length ∧ c.password.length ≤ 64

theorem Credentials.check_eq_ok (c : Credentials) : c.check = .ok () ↔ c.IsWithin := by
  have hssid : (!c.ssid.isEmpty && c.ssid.length ≤ 32) = true ↔
      1 ≤ c.ssid.length ∧ c.ssid.length ≤ 32 := by
    simp [Nat.one_le_iff_ne_zero]
  rw [check, firstBroken_eq_ok]
  simp only [List.forall_mem_cons, hssid, Bool.and_eq_true, decide_eq_true_eq]
  exact ⟨fun ⟨hname, hpassword, _⟩ => ⟨hname, hpassword⟩,
    fun ⟨hname, hpassword⟩ => ⟨hname, hpassword, List.forall_mem_nil _⟩⟩

end MeshConsole
