import MeshConsole.Simulator.Incoming
import MeshConsole.Text.Base64
import MeshConsole.Text.Case

/-!
# Asking for the push channel

The push channel is opened by a request that asks to go over to it. What such a request lacks is
found in a fixed order, and the first of it is the answer.
-/

namespace MeshConsole.Simulator.Upgrade

/-- Why a request does not open the push channel. -/
inductive Refusal where
  | connection (value : Text)
  | upgrade (value : Text)
  | version (value : Text)
  | noKey
  | key (value : Text)
  | unreadableOrigin (value : Text)
  | originWithoutHost (value : Text)
  | origin (host own : Text)
  /-- The connection cannot be taken over from the one who serves the request. -/
  | fixedConnection
  deriving Repr, DecidableEq

namespace Refusal

def status : Refusal → Int
  | .connection _ => 426
  | .upgrade _ => 426
  | .version _ => 400
  | .noKey => 400
  | .key _ => 400
  | .unreadableOrigin _ => 403
  | .originWithoutHost _ => 403
  | .origin _ _ => 403
  | .fixedConnection => 501

def message : Refusal → Text
  | .connection value =>
    ("WebSocket protocol violation: Connection header " : Text) ++ value.quoted ++
      " does not contain Upgrade"
  | .upgrade value =>
    ("WebSocket protocol violation: Upgrade header " : Text) ++ value.quoted ++
      " does not contain websocket"
  | .version value =>
    ("unsupported WebSocket protocol version (only 13 is supported): " : Text) ++ value.quoted
  | .noKey => "WebSocket protocol violation: missing Sec-WebSocket-Key"
  | .key value =>
    ("WebSocket protocol violation: invalid Sec-WebSocket-Key " : Text) ++ value.quoted ++
      ", must be a 16 byte base64 encoded string"
  | .unreadableOrigin value =>
    ("failed to parse Origin header " : Text) ++ value.quoted ++ ": parse <url>"
  | .originWithoutHost value =>
    ("request Origin " : Text) ++ value.quoted ++ " is not a valid URL with a host"
  | .origin host own =>
    ("request Origin " : Text) ++ host.quoted ++ " is not authorized for Host " ++ own.quoted
  | .fixedConnection => "http.ResponseWriter does not implement http.Hijacker"

/-- The body of the answer, without the end of its line. -/
def body : Refusal → Text
  | .fixedConnection => "Not Implemented"
  | refusal => refusal.message

end Refusal

/-- Whether a list of words in a header has a word, in any case. -/
def hasWord (word value : Text) : Bool :=
  (value.trimSpace.splitOnByte Ascii.comma).any fun part =>
    Text.lower part.trimSpace == Text.lower word

/-- A page of another host may not open the channel. -/
def originFault? (r : Incoming) : Option Refusal :=
  let origin := header r.headers "Origin"
  if origin.isEmpty then none
  else
    match Url.parse? origin with
    | none => some (.unreadableOrigin origin)
    | some url =>
      if Text.lower r.host == Text.lower url.host then none
      else if url.host.isEmpty then some (.originWithoutHost origin)
      else some (.origin url.host r.host)

/-- What keeps a request from opening the push channel, when its connection cannot be taken over. -/
def refusal (r : Incoming) : Refusal :=
  let connection := header r.headers "Connection"
  let upgrade := header r.headers "Upgrade"
  let version := header r.headers "Sec-WebSocket-Version"
  let keyName : Text := "sec-websocket-key"
  let key := (header r.headers keyName).trimSpace
  if !hasWord "Upgrade" connection then .connection connection
  else if !hasWord "websocket" upgrade then .upgrade upgrade
  else if version != "13" then .version version
  else if !r.headers.any (fun h => Text.lowerAscii h.1 == keyName) then .noKey
  else if (Text.ofBase64? key).map List.length != some 16 then .key key
  else (originFault? r).getD .fixedConnection

end MeshConsole.Simulator.Upgrade
