import MeshConsole.Proofs.Gateway.Records
import MeshConsole.Proofs.Simulator.Polling
import MeshConsole.Proofs.Simulator.Requests

/-!
# Asking the simulator

What a client reads of the simulator's answers: its link table
(`consult_links`) and its status (`consult_status`), as they are there.
-/

namespace MeshConsole.Simulator

open Json
open Json.Value (Plain)

/-- What a client makes of the simulator's answer to a call. -/
def consult (s : Simulator) (now : Instant) (c : Rest.Client) (call : Rest.Call) :
    Except Fault call.Reply :=
  match c.request call with
  | .error why => .error why
  | .ok request => call.reply request.url.path (s.ask now request).response

/-- The client of a gateway at this address. -/
def clientAt (authority : Text) (timeout : Duration) : Rest.Client :=
  .new (Text.ofString "http://" ++ authority) [] timeout

theorem arrival_route? {request : Rest.Request} {call : Rest.Call} {route : Route}
    (hask : Rest.Asks request call)
    (hclean : Path.clean (Rest.defaultBasePath ++ call.path) = Rest.defaultBasePath ++ call.path)
    (hroute : Route.ofPath? (Rest.defaultBasePath ++ call.path) = some route)
    (hmethod : route.method = call.method.name) : (arrival request).route? = some route := by
  have hpath : (arrival request).url.path = Rest.defaultBasePath ++ call.path := hask.path
  have hname : (arrival request).method = route.method := by
    rw [hmethod, arrival, hask.method]
  rw [Incoming.route?, hpath, if_pos hclean]
  exact Option.filter_eq_some_iff.mpr ⟨hroute, beq_iff_eq.mpr hname.symm⟩

section
variable {call : Rest.Call} {route : Route} {data : Value} {reply : call.Reply}

/-- A call is served on its route, and its reply is what it reads of the data
there. -/
theorem consult_route (hauthority : Url.IsAuthority authority) (timeout : Duration)
    (hcheck : call.check = .ok ()) (hpath : ∀ b ∈ call.path, Url.IsPlain b ∧ b ≠ Ascii.percent)
    (hclean : Path.clean (Rest.defaultBasePath ++ call.path) = Rest.defaultBasePath ++ call.path)
    (hroute : Route.ofPath? (Rest.defaultBasePath ++ call.path) = some route)
    (hmethod : call.method.name = route.method) {s : Simulator} {now : Instant}
    (hserve : ∀ r, (serveRoute s now r route).response = okResponse data)
    (hplain : Plain n data) (hdepth : n < Tree.depthLimit) (hnull : data ≠ .null)
    (hread : Tree.parse? data.render >>= call.reader call.emptyReply = some reply) :
    s.consult now (clientAt authority timeout) call = .ok reply := by
  obtain ⟨request, hrequest, hasks⟩ :=
    Rest.request_of_gateway hauthority (Rest.base_new hauthority timeout) hcheck hpath
  have hresponse : (s.ask now request).response = okResponse data := by
    rw [ask, serve_routed (arrival_route? hasks hclean hroute hmethod.symm)]
    exact hserve _
  have hclient : (clientAt authority timeout).request call = .ok request := hrequest
  rw [consult, hclient]
  simp only [hresponse]
  exact Rest.reply_okResponse hplain hdepth hnull call _ hread

end

section
variable {s : Simulator} (hauthority : Url.IsAuthority authority) (timeout : Duration)
  (now : Instant)
include hauthority

theorem consult_links (hutf8 : s.linkTable.isUtf8 = true) :
    s.consult now (clientAt authority timeout) .links = .ok s.linkTable := by
  have hplain : Plain 3 s.linkTable.toJson := plain_table rfl
  have hnull : s.linkTable.toJson ≠ .null := nofun
  exact consult_route hauthority timeout rfl (by decide) (by decide)
    (by decide : Route.ofPath? _ = some .links) rfl (fun _ => rfl) hplain (by decide) hnull
    (read_table rfl hutf8)

/-- Where no list has been set, the answer has an empty one. -/
theorem consult_status (hutf8 : ∀ d ∈ s.devices, d.isUtf8 = true) :
    s.consult now (clientAt authority timeout) .status =
      .ok { s.status with devices := some s.devices } := by
  have hplain : Plain 3 (Status.toJson { s.status with devices := some s.devices }) :=
    .object (plain_statusMembers s.status s.devices)
  have hnull : Status.toJson { s.status with devices := some s.devices } ≠ .null := nofun
  exact consult_route hauthority timeout rfl (by decide) (by decide)
    (by decide : Route.ofPath? _ = some .status) rfl (fun _ => rfl) hplain (by decide) hnull
    (read_status s.status hutf8)

end

end MeshConsole.Simulator
