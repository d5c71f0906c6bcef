import MeshConsole.Text.Quoted
import MeshConsole.Url.Basic

/-!
# Incoming requests

A request as it reaches the simulator. Its first line names a method, a target and a version; a
target with a blank in it leaves a line that cannot be read.
-/

namespace MeshConsole.Simulator

structure Incoming where
  method : Text
  url : Url
  /-- The host that the request is addressed to. -/
  host : Text := []
  headers : List (Text × Text) := []
  body : Text := []

/-- A header by its name in any case. -/
def header (headers : List (Text × Text)) (name : Text) : Text :=
  ((headers.find? fun h => Text.lowerAscii h.1 == Text.lowerAscii name).map Prod.snd).getD []

/-- Why the first line of a request cannot be read. -/
inductive LineFault where
  | malformed (line : Text)
  | method (name : Text)
  | version (name : Text)
  | target
  deriving Repr, DecidableEq

def LineFault.message (fault : LineFault) : Text :=
  ("invalid NewRequest arguments; " : Text) ++
  match fault with
  | .malformed line => ("malformed HTTP request " : Text) ++ line.quoted
  | .method name => ("invalid method " : Text) ++ name.quoted
  | .version name => ("malformed HTTP version " : Text) ++ name.quoted
  | .target => "parse <url>"

/-- A method is a word of letters, digits and a few signs. -/
def isMethod (name : Text) : Bool :=
  !name.isEmpty && name.all fun b =>
    Ascii.isLetter b || Ascii.isDigit b || (Text.ofString "!#$%&'*+-.^_\x60|~").contains b

/-- `HTTP/` and two digits with a dot between them. -/
def isVersion (name : Text) : Bool :=
  match Text.after? "HTTP/" name with
  | some [major, Ascii.dot, minor] => Ascii.isDigit major && Ascii.isDigit minor
  | _ => false

/-- The target of a request. A request to connect may name a host and nothing else. -/
def readTarget? (method target : Text) : Option Url :=
  if method == "CONNECT" && target.head? != some Ascii.slash then
    (Url.parseTarget? ("http://" ++ target)).map fun url => { url with scheme := [] }
  else Url.parseTarget? target

/-- Method and target of the first line of a request. -/
def readLine (line : Text) : Except LineFault (Text × Url) :=
  match Text.cut? Ascii.blank line with
  | none => .error (.malformed line)
  | some (method, rest) =>
    match Text.cut? Ascii.blank rest with
    | none => .error (.malformed line)
    | some (target, version) =>
      if !isMethod method then .error (.method method)
      else if !isVersion version then .error (.version version)
      else
        match readTarget? method target with
        | none => .error .target
        | some url => .ok (method, url)

/-- The text up to the end of its first line. -/
def firstLine (t : Text) : Text :=
  match Text.cut? Ascii.newline t with
  | none => t
  | some (line, _) =>
    if line.getLast? == some Ascii.carriageReturn then line.dropLast else line

/-- The host of a request that names none. -/
def standardHost : Text := "example.com"

/-- A request from a method and a target as they are written; no method asks for the target. -/
def Incoming.make (method target : Text) (headers : List (Text × Text)) (body : Text) :
    Except LineFault Incoming := do
  let method : Text := if method.isEmpty then "GET" else method
  let (method, url) ← readLine (firstLine (method ++ " " ++ target ++ " HTTP/1.0"))
  return { method, url, headers, body, host := if url.host.isEmpty then standardHost else url.host }

end MeshConsole.Simulator
