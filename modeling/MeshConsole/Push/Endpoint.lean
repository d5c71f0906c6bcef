import MeshConsole.Text.Quoted
import MeshConsole.Url.Basic

/-!
# The push endpoint

The address of the push channel is derived from the gateway's own address.
-/

namespace MeshConsole.Push

/-- Why a gateway address has no push endpoint. -/
inductive EndpointError where
  | unreadable
  | scheme (name : Text)
  deriving Repr, DecidableEq

def EndpointError.message : EndpointError → Text
  | .unreadable => "parse gateway url: <url>"
  | .scheme name => ("unsupported gateway url scheme " : Text) ++ name.quoted

/-- The scheme of the push channel beside a gateway scheme. -/
def pushScheme? (scheme : Text) : Option Text :=
  if scheme == "http" || scheme == "ws" then some "ws"
  else if scheme == "https" || scheme == "wss" then some "wss"
  else none

/-- Two parts of a path with exactly one slash at the join. -/
def joinPath (base path : Text) : Text :=
  base.trimRight Ascii.slash ++ Ascii.slash :: path.trimLeft Ascii.slash

/-- The push endpoint of a gateway. -/
def endpoint (gateway path : Text) : Except EndpointError Text :=
  match Url.parse? gateway with
  | none => .error .unreadable
  | some url =>
    match pushScheme? url.scheme with
    | none => .error (.scheme url.scheme)
    | some scheme => .ok { url with scheme, path := joinPath url.path path }.text

end MeshConsole.Push
