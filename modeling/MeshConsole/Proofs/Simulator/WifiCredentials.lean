import MeshConsole.Proofs.Simulator.Instructions

/-!
# Saving credentials

The limits of the credentials are limits of their lengths only, but a request
has room for UTF-8 alone: what is saved are the credentials with U+FFFD for
every stray byte (`saveWifi_written`), and only if they are still within the
limits then. So credentials are saved as they are just when they have no stray
byte (`saved_iff_isUtf8`).
-/

namespace MeshConsole

open Json
open Json.Value (Plain)

namespace Credentials

def isUtf8 (c : Credentials) : Bool := c.ssid.isUtf8 && c.password.isUtf8

/-- The credentials with U+FFFD for every stray byte. -/
def scrub (c : Credentials) : Credentials where
  ssid := c.ssid.scrub
  password := c.password.scrub

theorem scrub_eq_self_iff (c : Credentials) : c.scrub = c ↔ c.isUtf8 = true := by
  obtain ⟨ssid, password⟩ := c
  simp [scrub, isUtf8, Text.scrub_eq_self_iff]

end Credentials

namespace Simulator

theorem readBody?_wifi (c : Credentials) :
    readBody? Credentials.reader {} c.toJson.render = some c.scrub := by
  let members : Members := [("ssid", .text c.ssid), ("password", .text c.password)]
  have hkeys : PlainKeys (["ssid", "password"] : List Text) := by decide
  have hplain : ∀ m ∈ members, Plain 0 m.2 :=
    List.forall_mem_cons.mpr ⟨.text, List.forall_mem_cons.mpr ⟨.text, List.forall_mem_nil _⟩⟩
  obtain ⟨trees, hfirst, hwrote⟩ :=
    first?_wrote (.refl members) hkeys hplain (by decide) bodyPortion
  have hread : Credentials.reader {} (.object trees) = some c.scrub := by
    refine (record_wrote hwrote (fun _ hkey => hkey) _).trans ?_
    simp only [hwrote.text (.head _), hwrote.text (.tail _ (.head _))]
    rfl
  show Tree.first? bodyPortion (Value.object members).render >>= Credentials.reader {} = _
  rw [hfirst]
  exact hread

theorem isOk_check (c : Credentials) : c.check.isOk = true ↔ c.IsWithin := by
  rw [← c.check_eq_ok]
  cases c.check <;> simp [Except.isOk, Except.toBool]

/-- What is said of credentials that are saved, and of others. -/
def savedMessage : Text := "Saved. Restarting..."

def refusedMessage : Text := "Invalid SSID or password"

section
variable {c : Credentials} (s : Simulator) (now : Instant)

theorem ask_saveWifi {request : Rest.Request} (hask : Rest.Asks request (.saveWifi c)) :
    (c.scrub.IsWithin →
      (s.ask now request).simulator = { s with wifi := some c.scrub } ∧
        (s.ask now request).response = messageResponse savedMessage) ∧
    (¬ c.scrub.IsWithin →
      (s.ask now request).simulator = s ∧
        (s.ask now request).response = invalid refusedMessage) := by
  have hpath : (Rest.Call.saveWifi c).path = "/settings/wifi" := rfl
  have hroute : (arrival request).route? = some .wifi :=
    arrival_route? hask (by rw [hpath]; decide) (by rw [hpath]; decide) rfl
  have hbody : (arrival request).body = c.toJson.render := by
    rw [arrival, hask.body]
    rfl
  rw [ask, serve_routed hroute, serveRoute, serveWifi, hbody, readBody?_wifi]
  dsimp only
  refine ⟨fun hwithin => ?_, fun hwithout => ?_⟩
  · rw [(isOk_check c.scrub).mpr hwithin]
    exact ⟨rfl, rfl⟩
  · rw [Bool.eq_false_iff.mpr (mt (isOk_check c.scrub).mp hwithout)]
    exact ⟨rfl, rfl⟩

variable (hauthority : Url.IsAuthority authority) (timeout : Duration)
include hauthority

/-- What becomes of credentials within the limits. -/
theorem saveWifi_written (h : c.IsWithin) : ∃ request, Rest.Asks request (.saveWifi c) ∧
    (c.scrub.IsWithin → s.errand now (clientAt authority timeout) (.saveWifi c) = {
      simulator := { s with wifi := some c.scrub }
      exchanges := [(request, messageResponse savedMessage)]
      outcome := .ok savedMessage }) ∧
    (¬ c.scrub.IsWithin → s.errand now (clientAt authority timeout) (.saveWifi c) = {
      simulator := s
      exchanges := [(request, invalid refusedMessage)]
      outcome := .error (.rejected 400 "invalid_arg" refusedMessage) }) := by
  have hplain : ∀ b ∈ ("/settings/wifi" : Text), Url.IsPlain b ∧ b ≠ Ascii.percent := by decide
  have hcheck : (Rest.Call.saveWifi c).check = .ok () := c.check_eq_ok.mpr h
  obtain ⟨request, hask, herrand⟩ := s.errand_sent now hauthority timeout hcheck hplain
  obtain ⟨hsaved, hrefused⟩ := s.ask_saveWifi now hask
  refine ⟨request, hask, fun hwithin => ?_, fun hwithout => ?_⟩
  · obtain ⟨hsimulator, hresponse⟩ := hsaved hwithin
    have hscrub : savedMessage.scrub = savedMessage := by decide
    have hreply : (Rest.Call.saveWifi c).reply request.url.path (messageResponse savedMessage) =
        .ok savedMessage.scrub :=
      reply_message _ _ (read_message _)
    rw [herrand, hsimulator, hresponse, hreply, hscrub]
  · obtain ⟨hsimulator, hresponse⟩ := hrefused hwithout
    have hcode : ("invalid_arg" : Text).scrub = "invalid_arg" := by decide
    have hscrub : refusedMessage.scrub = refusedMessage := by decide
    have hreply : (Rest.Call.saveWifi c).reply request.url.path (invalid refusedMessage) =
        .error (.rejected 400 ("invalid_arg" : Text).scrub refusedMessage.scrub) :=
      Rest.reply_errorResponse _ _ _ _ (by decide) (by decide)
    rw [herrand, hsimulator, hresponse, hreply, hcode, hscrub]

end

/-- The call succeeds, and just these credentials are saved. -/
structure Saves (errand : Errand Text) (c : Credentials) : Prop where
  outcome : ∃ message, errand.outcome = .ok message
  simulator : errand.simulator.wifi = some c

/-- Credentials outside the limits are not sent, and those within them are
saved as they are only if they have no stray byte. -/
theorem saved_iff_isUtf8 (s : Simulator) (now : Instant) (c : Credentials)
    (hauthority : Url.IsAuthority authority) (timeout : Duration) :
    (¬ c.IsWithin → (s.errand now (clientAt authority timeout) (.saveWifi c)).Unsent s) ∧
    (c.IsWithin → (Saves (s.errand now (clientAt authority timeout) (.saveWifi c)) c ↔
      c.isUtf8 = true)) := by
  refine ⟨fun hwithout => errand_unsent s now _ fun hcheck => hwithout (c.check_eq_ok.mp hcheck),
    fun hwithin => ?_⟩
  obtain ⟨request, -, hsaved, hrefused⟩ := saveWifi_written s now hauthority timeout hwithin
  rw [← c.scrub_eq_self_iff]
  constructor
  · rintro ⟨⟨message, hmessage⟩, hsimulator⟩
    by_cases hscrub : c.scrub.IsWithin
    · rw [hsaved hscrub] at hsimulator
      exact Option.some.inj hsimulator
    · rw [hrefused hscrub] at hmessage
      cases hmessage
  · intro hsame
    rw [hsaved (hsame.symm ▸ hwithin), hsame]
    exact ⟨⟨_, rfl⟩, rfl⟩

/-- A name of two letters outside ASCII, and the shortest password. -/
def accented : Credentials := { ssid := [0xC3, 0xA9, 0xC3, 0xA0], password := "12345678" }

theorem accented_saved :
    Saves (errand {} 0 (clientAt "gateway.lab" 0) (.saveWifi accented)) accented := by
  have hauthority : Url.IsAuthority "gateway.lab" := ⟨by decide, by decide, by decide⟩
  obtain ⟨-, hsaved⟩ := saved_iff_isUtf8 {} 0 accented hauthority 0
  exact (hsaved ⟨by decide, by decide⟩).mpr (by decide)

/-- A network whose name is one byte that is no UTF-8. -/
def strayNamed : Credentials := { ssid := [0xFF], password := "secret123" }

/-- It is within the limits, and what is saved is another name. -/
theorem strayNamed_renamed : strayNamed.IsWithin ∧
    (errand {} 0 (clientAt "gateway.lab" 0) (.saveWifi strayNamed)).simulator.wifi =
      some { strayNamed with ssid := [0xEF, 0xBF, 0xBD] } :=
  ⟨⟨by decide, by decide⟩, by decide +kernel⟩

end Simulator

end MeshConsole
