import MeshConsole.Url.Escape
import MeshConsole.Url.Ipv6

/-!
# URLs

Reading and writing URLs. A path and a fragment are kept unescaped beside the text they were
written in; the text is shown again as long as it still stands for the same path.
-/

namespace MeshConsole

structure UserInfo where
  name : Text
  password : Option Text := none
  deriving Repr, DecidableEq

structure Url where
  scheme : Text := []
  /-- What follows the scheme when it does not start with a slash. -/
  rootless : Text := []
  user : Option UserInfo := none
  host : Text := []
  /-- Set when a scheme is followed by a path without an authority. -/
  omitHost : Bool := false
  path : Text := []
  rawPath : Text := []
  /-- Set for a question mark with nothing after it. -/
  forceQuery : Bool := false
  query : Text := []
  fragment : Text := []
  rawFragment : Text := []
  deriving Repr, DecidableEq

namespace Url

/-- The scheme before the first colon and what follows it. Without a scheme everything follows;
a colon with nothing before it is an error. -/
def splitScheme (t : Text) : Option (Text × Text) :=
  let isSchemeByte := fun b : UInt8 =>
    isAlphanumeric b || b == Ascii.plus || b == Ascii.minus || b == Ascii.dot
  match t.span isSchemeByte with
  | ([], Ascii.colon :: _) => none
  | (first :: more, Ascii.colon :: rest) =>
    if Ascii.isLetter first then some (first :: more, rest) else some ([], t)
  | _ => some ([], t)

/-- The query after the first question mark. A single question mark at the end is remembered. -/
def splitQuery (t : Text) : Text × Text × Bool :=
  match Text.cut? Ascii.question t with
  | none => (t, [], false)
  | some (before, query) => (before, query, query.isEmpty)

/-- Nothing, or a colon and digits. -/
def isOptionalPort : Text → Bool
  | [] => true
  | Ascii.colon :: digits => digits.all Ascii.isDigit
  | _ => false

/-- What stands before the last byte `b`, and the text from it on. -/
def splitLast (b : UInt8) (t : Text) : Option (Text × Text) :=
  match t.reverse.span (· != b) with
  | (_, []) => none
  | (after, _ :: before) => some (before.reverse, b :: after.reverse)

/-- The text before the first escaped percent sign, and the text from it on. -/
def splitZone (done : Text) : Text → Option (Text × Text)
  | [] => none
  | 0x25 :: 0x32 :: 0x35 :: rest => some (done.reverse, 0x25 :: 0x32 :: 0x35 :: rest)
  | b :: rest => splitZone (b :: done) rest

/-- The text between the brackets of a host, unescaped; a zone has more escapes than an address. -/
def readLiteral? (t : Text) : Option Text :=
  match splitZone [] t with
  | none => unescape? .host t
  | some (address, zone) => do return (← unescape? .host address) ++ (← unescape? .zone zone)

/-- A host with its port. A bracket opens only at the start, and around an IPv6 address. -/
def readHost? (t : Text) : Option Text :=
  match t with
  | Ascii.openBracket :: inner =>
    match splitLast Ascii.closeBracket inner with
    | none => none
    | some (inside, close) =>
      if inner.contains Ascii.openBracket || !isOptionalPort (close.drop 1) then none
      else do
        let literal ← readLiteral? inside
        if Ipv6.isZonedAddress literal then
          some (Ascii.openBracket :: literal ++ close)
        else none
  | _ =>
    if t.contains Ascii.openBracket then none
    else
      match splitLast Ascii.colon t with
      | some (_, port) => if isOptionalPort port then unescape? .host t else none
      | none => unescape? .host t

def isUserByte (b : UInt8) : Bool :=
  isAlphanumeric b || (Text.ofString "-._:~!$&'()*+,;=%@").contains b

def readUser? (t : Text) : Option UserInfo :=
  if !t.all isUserByte then none
  else
    match Text.cut? Ascii.colon t with
    | none => do return { name := ← unescape? .user t }
    | some (name, password) => do
      return { name := ← unescape? .user name, password := some (← unescape? .user password) }

def readAuthority? (t : Text) : Option (Option UserInfo × Text) :=
  match splitLast Ascii.atSign t with
  | none => do return (none, ← readHost? t)
  | some (user, host) => do
    let host ← readHost? (host.drop 1)
    return (some (← readUser? user), host)

/-- The path that `written` stands for; the text is kept when it is not the plain one. -/
def withPath? (u : Url) (written : Text) : Option Url := do
  let path ← unescape? .path written
  return { u with path, rawPath := if escape .path path == written then [] else written }

def withFragment? (u : Url) (written : Text) : Option Url := do
  let fragment ← unescape? .fragment written
  return { u with
    fragment, rawFragment := if escape .fragment fragment == written then [] else written }

def startsWith (start t : Text) : Bool := (Text.after? start t).isSome

/-- Reads authority and path after the scheme and without the query. -/
def readHierarchy? (u : Url) (rest : Text) : Option Url :=
  if startsWith "//" rest && (!u.scheme.isEmpty || !startsWith "///" rest) then do
    let (authority, path) := (rest.drop 2).span (· != Ascii.slash)
    let (user, host) ← readAuthority? authority
    withPath? { u with user, host } path
  else if !u.scheme.isEmpty && startsWith "/" rest then withPath? { u with omitHost := true } rest
  else withPath? u rest

def readUnfragmented? (t : Text) : Option Url :=
  if t.any fun b => b < Ascii.blank || b == 0x7F then none
  else if t == "*" then some { path := "*" }
  else do
    let (scheme, rest) ← splitScheme t
    let (rest, query, forceQuery) := splitQuery rest
    let u : Url := { scheme := Text.lowerAscii scheme, query, forceQuery }
    if startsWith "/" rest then readHierarchy? u rest
    else if !scheme.isEmpty then some { u with rootless := rest }
    else if (rest.takeWhile (· != Ascii.slash)).contains Ascii.colon then none
    else readHierarchy? u rest

/-- Reads a URL; nothing when it is not well formed. An empty fragment is dropped. -/
def parse? (t : Text) : Option Url :=
  match Text.cut? Ascii.hash t with
  | none => readUnfragmented? t
  | some (before, fragment) => do
    let u ← readUnfragmented? before
    if fragment.isEmpty then some u else withFragment? u fragment

/-- Reads the target of a request: a whole URL, or a path with a query, in which two slashes start
no authority. A hash mark starts no fragment. -/
def parseTarget? (t : Text) : Option Url :=
  if t.isEmpty || t.any fun b => b < Ascii.blank || b == 0x7F then none
  else if t == "*" then some { path := "*" }
  else do
    let (scheme, rest) ← splitScheme t
    let (rest, query, forceQuery) := splitQuery rest
    let u : Url := { scheme := Text.lowerAscii scheme, query, forceQuery }
    if !startsWith "/" rest then
      if scheme.isEmpty then none else some { u with rootless := rest }
    else if scheme.isEmpty then withPath? u rest
    else readHierarchy? u rest

/-- `written`, if it still stands for `text`; else the plain escaping of `text`. -/
def shown (part : Part) (text written : Text) : Text :=
  if !written.isEmpty && isWellEscaped part written && unescape? part written == some text then
    written
  else escape part text

def escapedPath (u : Url) : Text :=
  if u.rawPath.isEmpty && u.path == "*" then u.path else shown .path u.path u.rawPath

def UserInfo.text (user : UserInfo) : Text :=
  escape .user user.name ++
    match user.password with
    | none => []
    | some password => Ascii.colon :: escape .user password

/-- Whether the text shows a path right behind the scheme. -/
def hasNoAuthority (u : Url) : Bool := u.omitHost && u.host.isEmpty && u.user.isNone

/-- The authority with the slashes before it. -/
def authorityText (u : Url) : Text :=
  if u.scheme.isEmpty && u.host.isEmpty && u.user.isNone then []
  else if u.hasNoAuthority then []
  else
    (if u.host.isEmpty && u.path.isEmpty && u.user.isNone then [] else "//") ++
    (match u.user with
      | none => []
      | some user => UserInfo.text user ++ [Ascii.atSign]) ++
    escape .host u.host

/-- The authority and the path. Where there is no authority, the first of two slashes that start
the path is escaped, since they would start one. -/
def hierarchyText (u : Url) : Text :=
  let path := u.escapedPath
  let guarded := u.hasNoAuthority && startsWith "//" path
  let start :=
    (if u.scheme.isEmpty then [] else u.scheme ++ [Ascii.colon]) ++ authorityText u ++
      (if guarded then "%2F" else "")
  let path := if guarded then path.drop 1 else path
  let slash : Text := if !path.isEmpty && !startsWith "/" path && !u.host.isEmpty then "/" else ""
  let dot : Text :=
    if start.isEmpty && slash.isEmpty && (path.takeWhile (· != Ascii.slash)).contains Ascii.colon
    then "./" else ""
  start ++ slash ++ dot ++ path

/-- The text of a URL. -/
def text (u : Url) : Text :=
  (if u.rootless.isEmpty then hierarchyText u
    else (if u.scheme.isEmpty then [] else u.scheme ++ [Ascii.colon]) ++ u.rootless) ++
  (if u.forceQuery || !u.query.isEmpty then Ascii.question :: u.query else []) ++
  (if u.fragment.isEmpty then [] else Ascii.hash :: shown .fragment u.fragment u.rawFragment)

/-- The text of a URL with a password shown as three stars. -/
def textWithoutPassword (u : Url) : Text :=
  match u.user with
  | some user =>
    if user.password.isSome then
      match splitAtUser (UserInfo.text user ++ [Ascii.atSign]) u.text with
      | some (before, after) => before ++ user.name ++ ":***@" ++ after
      | none => u.text
    else u.text
  | none => u.text
where
  /-- The text around the first occurrence of `part`. -/
  splitAtUser (part : Text) : Text → Option (Text × Text)
    | [] => (Text.after? part []).map ([], ·)
    | b :: rest =>
      match Text.after? part (b :: rest) with
      | some after => some ([], after)
      | none => (splitAtUser part rest).map fun halves => (b :: halves.1, halves.2)

end Url

end MeshConsole
