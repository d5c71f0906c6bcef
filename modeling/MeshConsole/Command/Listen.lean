import MeshConsole.Text.Basic

/-!
# Addresses to listen on

A host and a port with a colon between them; a host may stand in brackets.
-/

namespace MeshConsole.Command

/-- Why an address cannot be listened on. -/
inductive ListenError where
  | address (address why : Text)
  | unknownPort (name : Text)
  deriving Repr, DecidableEq

def ListenError.message : ListenError → Text
  | .address text why => ("listen: listen tcp: address " : Text) ++ text ++ ": " ++ why
  | .unknownPort name => ("listen: listen tcp: lookup tcp/" : Text) ++ name ++ ": unknown port"

def missingPort : Text := "missing port in address"

def tooManyColons : Text := "too many colons in address"

/-- The text after the last colon and what stands before it. -/
def splitPort (address : Text) : Option (Text × Text) :=
  match address.reverse.span (· != Ascii.colon) with
  | (_, []) => none
  | (port, _ :: host) => some (host.reverse, port.reverse)

/-- The port of an address. -/
def portOf (address : Text) : Except ListenError Text :=
  let refuse := fun (why : Text) => Except.error (ListenError.address address why)
  match splitPort address with
  | none => refuse missingPort
  | some (host, port) =>
    match address with
    | Ascii.openBracket :: inner =>
      match inner.span (· != Ascii.closeBracket) with
      | (_, []) => refuse "missing ']' in address"
      | (_, [_]) => refuse missingPort
      | (name, _ :: next :: rest) =>
        if next != Ascii.colon then refuse missingPort
        else if rest.contains Ascii.colon then refuse tooManyColons
        else if name.contains Ascii.openBracket || rest.contains Ascii.openBracket then
          refuse "unexpected '[' in address"
        else if rest.contains Ascii.closeBracket then refuse "unexpected ']' in address"
        else .ok port
    | _ =>
      if host.contains Ascii.colon then refuse tooManyColons
      else if address.contains Ascii.openBracket then refuse "unexpected '[' in address"
      else if address.contains Ascii.closeBracket then refuse "unexpected ']' in address"
      else .ok port

/-- Whether an address can be listened on. An empty one stands for any port. -/
def checkListen (address : Text) : Except ListenError Unit :=
  if address.isEmpty then .ok ()
  else
    match portOf address with
    | .error why => .error why
    | .ok port =>
      let (negative, digits) :=
        match port with
        | Ascii.plus :: digits => (false, digits)
        | Ascii.minus :: digits => (true, digits)
        | digits => (false, digits)
      if !digits.all Ascii.isDigit then .error (.unknownPort port)
      else
        let number := digits.foldl (fun n b => n * 10 + (b.toNat - 0x30)) 0
        if number ≤ 65535 && (!negative || number == 0) then .ok ()
        else .error (.address port "invalid port")

end MeshConsole.Command
