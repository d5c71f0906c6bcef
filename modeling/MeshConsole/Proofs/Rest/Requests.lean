import MeshConsole.Proofs.Url.Parts
import MeshConsole.Rest.Client

/-!
# Requests to a gateway

The address of a gateway is an authority. The client made from it puts the
path of a call behind the base path and asks there (`request_of_gateway`).
-/

namespace MeshConsole

namespace Url

/-- What may name a gateway between two slashes and the next. -/
structure IsAuthority (t : Text) : Prop where
  ne_nil : t ≠ []
  plain : ∀ b ∈ t, IsPlain b ∧ b ≠ Ascii.slash
  reads : (readAuthority? t).isSome = true

/-- The path of a URL of a gateway stands in it as it is. -/
theorem parse?_of_gateway {authority path : Text} (hauthority : IsAuthority authority)
    (hpath : ∀ b ∈ path, IsPlain b ∧ b ≠ Ascii.percent) :
    ∃ url, parse? ("http://" ++ (authority ++ Ascii.slash :: path)) = some url ∧
      url.path = Ascii.slash :: path := by
  obtain ⟨⟨user, host⟩, hread⟩ := Option.isSome_iff_exists.mp hauthority.reads
  have hslash : ∀ b ∈ Ascii.slash :: path, IsPlain b ∧ b ≠ Ascii.percent :=
    List.forall_mem_cons.mpr ⟨by decide, hpath⟩
  have hunescapes : Unescapes .path (Ascii.slash :: path) (Ascii.slash :: path) :=
    .of_plain fun b hb => ⟨(hslash b hb).2, rfl⟩
  have hparts : Parts (Text.ofString "http") authority (Ascii.slash :: path) {
      scheme := Text.ofString "http", user, host, path := Ascii.slash :: path
      rawPath := if escape .path (Ascii.slash :: path) == Ascii.slash :: path then []
        else Ascii.slash :: path } := {
    starts := ⟨_, _, rfl, by decide⟩
    schemeBytes := by decide
    plain := fun b hb => (List.mem_append.mp hb).elim (fun hb => (hauthority.plain b hb).1)
      fun hb => (hslash b hb).1
    authorityEnds := fun hmem => (hauthority.plain _ hmem).2 rfl
    pathStarts := .inr ⟨path, rfl⟩
    reads := hread
    unescapes := unescape?_eq_some_iff.mpr hunescapes
    eq := rfl }
  have htext : Text.ofString "http://" ++ (authority ++ Ascii.slash :: path) =
      joined (Text.ofString "http") authority (Ascii.slash :: path) := by
    rw [joined_eq]
    rfl
  exact ⟨_, htext ▸ hparts.parse?, rfl⟩

end Url

namespace Rest

/-- Where a client made for a gateway finds its calls. -/
theorem base_new (hauthority : Url.IsAuthority authority) (timeout : Duration) :
    (Client.new (Text.ofString "http://" ++ authority) [] timeout).base =
      Text.ofString "http://" ++ (authority ++ defaultBasePath) := by
  have htrim : Text.trimRight Ascii.slash (Text.ofString "http://" ++ authority) =
      Text.ofString "http://" ++ authority := by
    obtain ⟨front, last, rfl⟩ := (List.eq_nil_or_concat authority).resolve_left hauthority.ne_nil
    have hlast : last ≠ Ascii.slash := (hauthority.plain last (by simp)).2
    rw [List.concat_eq_append, ← List.append_assoc, Text.trimRight_concat hlast]
  have hbase : Ascii.slash :: Text.trimByte Ascii.slash defaultBasePath = defaultBasePath := by
    decide
  show Text.trimRight Ascii.slash (Text.ofString "http://" ++ authority) ++
    Ascii.slash :: Text.trimByte Ascii.slash defaultBasePath = _
  rw [htrim, hbase, List.append_assoc]

/-- What a client asks of a gateway for a call. -/
structure Asks (request : Request) (call : Call) : Prop where
  method : request.method = call.method
  path : request.url.path = defaultBasePath ++ call.path
  body : request.body = call.body?.map Json.Value.render

theorem request_of_gateway {c : Client} (hauthority : Url.IsAuthority authority)
    (hbase : c.base = Text.ofString "http://" ++ (authority ++ defaultBasePath))
    (hcheck : call.check = .ok ())
    (hpath : ∀ b ∈ call.path, Url.IsPlain b ∧ b ≠ Ascii.percent) :
    ∃ request, c.request call = .ok request ∧ Asks request call := by
  have hplain : ∀ b ∈ Text.ofString "api/v1" ++ call.path, Url.IsPlain b ∧ b ≠ Ascii.percent := by
    have hfront : ∀ b ∈ Text.ofString "api/v1", Url.IsPlain b ∧ b ≠ Ascii.percent := by decide
    intro b hb
    rcases List.mem_append.mp hb with hb | hb
    · exact hfront b hb
    · exact hpath b hb
  have htext : c.base ++ call.path = Text.ofString "http://" ++
      (authority ++ Ascii.slash :: (Text.ofString "api/v1" ++ call.path)) := by
    rw [hbase, List.append_assoc, List.append_assoc]
    rfl
  obtain ⟨url, hurl, hurlPath⟩ := Url.parse?_of_gateway hauthority hplain
  rw [Client.request, hcheck, htext, hurl]
  exact ⟨_, rfl, rfl, hurlPath, rfl⟩

theorem request_invalid (c : Client) (h : call.check = .error limit) :
    c.request call = .error (.limit limit) := by
  rw [Client.request, h]

end Rest

end MeshConsole
