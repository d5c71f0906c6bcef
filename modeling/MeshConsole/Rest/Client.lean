import MeshConsole.Duration
import MeshConsole.Fault
import MeshConsole.Rest.Call
import MeshConsole.Text.Base64
import MeshConsole.Text.Utf8
import MeshConsole.Url.Basic

/-!
# Requests and answers

A client turns a call into a request on its gateway and the answer to the request into a reply.
Every answer is an envelope with a status, and with data or an error.
-/

namespace MeshConsole.Rest

structure Client where
  /-- The gateway's address with the base path, without a slash at the end. -/
  base : Text
  timeout : Duration
  deriving Repr, DecidableEq

structure Request where
  method : Method
  url : Url
  headers : List (Text × Text) := []
  body : Option Text := none
  deriving Repr, DecidableEq

structure Response where
  status : Int := 200
  body : Text := []
  contentType : Text := []
  location : Text := []
  deriving Repr, DecidableEq

def defaultBasePath : Text := "/api/v1"

def defaultTimeout : Duration := 10 * Duration.second

/-- The client of a gateway; an empty base path or a timeout that is not positive takes its
default. -/
def Client.new (gateway basePath : Text) (timeout : Duration) : Client :=
  let basePath := if basePath.isEmpty then defaultBasePath else basePath
  { base := gateway.trimRight Ascii.slash ++ Ascii.slash :: basePath.trimByte Ascii.slash
    timeout := if timeout ≤ 0 then defaultTimeout else timeout }

/-- A colon at the end of a host names no port and is dropped. -/
def withoutEmptyPort (host : Text) : Text :=
  match host.reverse with
  | Ascii.colon :: before => before.reverse
  | _ => host

/-- A user in the address signs the request. -/
def authorization (url : Url) : List (Text × Text) :=
  match url.user with
  | none => []
  | some user =>
    let pair := user.name ++ Ascii.colon :: user.password.getD []
    [("Authorization", ("Basic " : Text) ++ pair.base64)]

/-- The request of a call, or why it is not sent. -/
def Client.request (c : Client) (call : Call) : Except Fault Request :=
  match call.check with
  | .error limit => .error (.limit limit)
  | .ok () =>
    match Url.parse? (c.base ++ call.path) with
    | none => .error .badUrl
    | some url =>
      let url := { url with host := withoutEmptyPort url.host }
      let contentType : List (Text × Text) :=
        if call.method = .post then [("Content-Type", "application/json")] else []
      let requestId := (call.requestId?.map fun id => (("X-Request-ID" : Text), id)).toList
      .ok {
        method := call.method
        url
        headers := contentType ++ requestId ++ authorization url
        body := call.body?.map Json.Value.render }

/-- The fault of an exchange that ended without an answer. -/
def Request.failed (r : Request) (cause : Fault) : Fault :=
  .exchange r.method.verb r.url.textWithoutPassword cause

structure ErrorBody where
  code : Text := []
  message : Text := []
  deriving Repr, DecidableEq

structure Envelope where
  status : Text := []
  data : Option Text := none
  error : Option ErrorBody := none
  message : Text := []
  deriving Repr, DecidableEq

def ErrorBody.reader : Json.Reader ErrorBody :=
  .record ["code", "message"] fun old members => do
    return {
      code := ← Json.Reader.field "code" Json.Reader.text old.code members
      message := ← Json.Reader.field "message" Json.Reader.text old.message members }

def Envelope.reader : Json.Reader Envelope :=
  .record ["status", "data", "error", "message"] fun old members => do
    return {
      status := ← Json.Reader.field "status" Json.Reader.text old.status members
      data := (← Json.Reader.rawField "data" none members).map Prod.snd
      error :=
        ← Json.Reader.field "error" (Json.Reader.optional {} ErrorBody.reader) old.error members
      message := ← Json.Reader.field "message" Json.Reader.text old.message members }

/-- The envelope of a body. A blank body is an empty envelope; any other body that is no envelope
is a message. -/
def Envelope.ofBody (body : Text) : Envelope :=
  let text := body.trimSpace
  if text.isEmpty then {}
  else
    match Json.Tree.parse? body >>= Envelope.reader {} with
    | some envelope => envelope
    | none => { message := text }

/-- The fault of an answer that is no success: the envelope's error message, else its message, else
`otherwise`. -/
def Envelope.rejection (e : Envelope) (status : Int) (otherwise : Text) : Fault :=
  let code := (e.error.map (·.code)).getD []
  let errorMessage := (e.error.map (·.message)).getD []
  let message :=
    if !errorMessage.isEmpty then errorMessage
    else if !e.message.isEmpty then e.message
    else otherwise
  .rejected status code message

/-- The reply an answer stands for. `path` is the path of the request. -/
def Call.reply (call : Call) (path : Text) (response : Response) : Except Fault call.Reply :=
  let envelope := Envelope.ofBody response.body
  if response.status < 200 || 300 ≤ response.status then
    .error (envelope.rejection response.status (("HTTP " : Text) ++ Text.ofInt response.status))
  else if !envelope.status.isEmpty && envelope.status != "ok" then
    .error (envelope.rejection response.status "API error")
  else
    match envelope.data with
    | none => .ok call.emptyReply
    | some data =>
      match Json.Tree.parse? data >>= call.reader call.emptyReply with
      | some reply => .ok reply
      | none => .error (.within (("decode " : Text) ++ path ++ " response") .undecodable)

end MeshConsole.Rest
