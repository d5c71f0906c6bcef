import MeshConsole.Table
import MeshConsole.Text.Case
import MeshConsole.Text.Path
import MeshConsole.Yaml.Document

/-!
# Settings files

Where a settings file is looked for, and how a key is looked up in it: in any case, and with dots
that reach into nested maps and lists.
-/

namespace MeshConsole.Settings

/-- The files within reach: contents by path, from the working directory `root` unless the path
starts with a slash. -/
structure Files where
  root : Text
  contents : Table Text Text := []
  deriving Repr, DecidableEq

def isRooted (path : Text) : Bool := path.head? == some Ascii.slash

/-- A place in the tree of folders, reached from its root or from the working directory. -/
structure Place where
  isRooted : Bool
  /-- Steps up from the working directory before any step down. -/
  above : Nat := 0
  segments : List Text := []
  deriving Repr, DecidableEq

def Place.parent (place : Place) : Place :=
  if place.segments.isEmpty && !place.isRooted then { place with above := place.above + 1 }
  else { place with segments := place.segments.dropLast }

def Place.child (place : Place) (name : Text) : Place :=
  { place with segments := place.segments ++ [name] }

/-- What is found at a place. -/
inductive Found where
  | file (content : Text)
  | folder
  | nothing
  deriving Repr, DecidableEq

/-- The folders every system has at its root. -/
def systemFolders : List Text := [
  "bin", "boot", "dev", "etc", "home", "lib", "media", "mnt", "opt", "proc", "root", "run", "sbin",
  "srv", "sys", "tmp", "usr", "var"]

/-- What is found outside of the given files: the folders around the working directory and those at
the root, and a device that reads as empty. -/
def Place.outside (place : Place) : Found :=
  match place.isRooted, place.segments with
  | _, [] => .folder
  | true, [name] => if systemFolders.contains name then .folder else .nothing
  | true, segments => if segments == [("dev" : Text), "null"] then .file [] else .nothing
  | false, _ => .nothing

/-- A folder is there if some file is below it. -/
def Files.find (files : Files) (place : Place) : Found :=
  let isAt := fun (entry : Text × Text) (segments : List Text) =>
    isRooted entry.1 == place.isRooted && place.above == 0 && segments == place.segments
  match files.contents.find? fun entry => isAt entry (Path.segments entry.1) with
  | some (_, content) => .file content
  | none =>
    let isBelow := fun entry : Text × Text =>
      let segments := Path.segments entry.1
      place.segments.length < segments.length && isAt entry (segments.take place.segments.length)
    if files.contents.any isBelow then .folder else place.outside

/-- Why a settings file cannot be opened. -/
inductive OpenError where
  | missing
  | notDirectory
  | nameTooLong
  | invalid
  deriving Repr, DecidableEq

def OpenError.message : OpenError → Text
  | .missing => "no such file or directory"
  | .notDirectory => "not a directory"
  | .nameTooLong => "file name too long"
  | .invalid => "invalid argument"

/-- The greatest lengths of a name and of a path. -/
def maxNameLength : Nat := 255

def maxPathLength : Nat := 4095

/-- Goes along a path name by name. Every step, also one that stays or goes back, is taken from a
folder. -/
def Files.walk (files : Files) : Place → List Text → Except OpenError Found
  | place, [] =>
    match files.find place with
    | .nothing => .error .missing
    | found => .ok found
  | place, name :: rest =>
    match files.find place with
    | .nothing => .error .missing
    | .file _ => .error .notDirectory
    | .folder =>
      if name.isEmpty || name == "." then walk files place rest
      else if name == ".." then walk files place.parent rest
      else if maxNameLength < name.length then .error .nameTooLong
      else walk files (place.child name) rest

/-- What a path leads to. -/
def Files.resolve (files : Files) (path : Text) : Except OpenError Found :=
  if path.contains 0 then .error .invalid
  else if maxPathLength < path.length then .error .nameTooLong
  else files.walk { isRooted := isRooted path } (Text.splitOnByte Ascii.slash path)

/-- The content of the file a path leads to. -/
def Files.content? (files : Files) (path : Text) : Option Text :=
  match files.resolve path with
  | .ok (.file content) => some content
  | _ => none

/-- Why a settings file cannot be used. -/
inductive FileError where
  | unopened (path : Text) (why : OpenError)
  | directory (path : Text)
  | unreadable
  deriving Repr, DecidableEq

def FileError.message : FileError → Text
  | .unopened path why => ("read config file: open " : Text) ++ path ++ ": " ++ why.message
  | .directory path => ("read config file: read " : Text) ++ path ++ ": is a directory"
  | .unreadable => "read config file: While parsing config: <yaml>"

/-- The values of a settings file and the path it was read from; both are empty without a file. -/
structure FileValues where
  members : List (Yaml.Value × Yaml.Value) := []
  used : Text := []

def appName : Text := "gwdash"

def extensions : List Text := [
  "json", "toml", "yaml", "yml", "properties", "props", "prop", "hcl", "tfvars", "dotenv", "env",
  "ini"]

/-- The paths that are tried in turn when no file is named. -/
def searchPaths : List Text :=
  let names := extensions.map (fun extension => appName ++ "." ++ extension) ++ [appName]
  let folders : List Text := ["", "config/", "/etc/gwdash/"]
  folders.flatMap fun folder => names.map fun name => folder ++ name

/-- Reads the content of a file: a map, or nothing at all. -/
def readContent (content used : Text) : Except FileError FileValues :=
  match Yaml.readMap content with
  | .ok members => .ok { members, used }
  | .error _ => .error .unreadable

/-- Reads the file that is named, or the first that is found; finding none is no error. -/
def FileValues.read (files : Files) (named : Text) : Except FileError FileValues :=
  if named.isEmpty then
    match searchPaths.find? fun path => (files.content? path).isSome with
    | some path =>
      let used := if isRooted path then path else files.root ++ "/" ++ path
      readContent ((files.content? path).getD []) used
    | none => .ok {}
  else
    match files.resolve named with
    | .ok (.file content) => readContent content named
    | .ok _ => .error (.directory named)
    | .error why => .error (.unopened named why)

/-- A key as it is compared. -/
def foldKey (key : Text) : Text := Text.lower key

/-- What a step into a value by a key or by an index leads to. Where a key is there twice, its last
value counts. An index below zero, which no list has, is told apart. -/
def child? (value : Yaml.Value) (key : Text) : Except Int (Option Yaml.Value) :=
  match value with
  | .map members =>
    .ok ((members.reverse.find? fun member => foldKey member.1.scalarText == key).map Prod.snd)
  | .list items =>
    match Numeral.readInt key with
    | .ok index => if index < 0 then .error index else .ok items[index.toNat]?
    | .error _ => .ok none
  | _ => .ok none

def isPresent : Yaml.Value → Bool
  | .null => false
  | _ => true

/-- Looks a path up, its longest beginnings first, so that a key may itself hold dots. Ends at an
index below zero. -/
def lookup : Nat → Yaml.Value → List Text → Except Int (Option Yaml.Value)
  | 0, _, _ => .ok none
  | fuel + 1, value, path =>
    let step := fun (found : Option Yaml.Value) (length : Nat) =>
      if found.isSome then .ok found
      else
        match child? value (Text.join "." (path.take length)) with
        | .error index => .error index
        | .ok none => .ok none
        | .ok (some next) =>
          if path.length ≤ length then .ok (if isPresent next then some next else none)
          else lookup fuel next (path.drop length)
    ((List.range path.length).reverse.map (· + 1)).foldlM step none

/-- The value of a key, or the index below zero that its path holds; `null` counts as not set. -/
def FileValues.find (values : FileValues) (key : Text) : Except Int (Option Yaml.Value) :=
  let path := Text.splitOnByte Ascii.dot (foldKey key)
  lookup (path.length + 1) (.map values.members) path

/-- What is said where a path holds an index below zero. -/
def negativeIndexText (index : Int) : Text :=
  ("runtime error: index out of range [" : Text) ++ Text.ofInt index ++ "]"

def FileValues.get? (values : FileValues) (key : Text) : Option Yaml.Value :=
  match values.find key with
  | .ok found => found
  | .error _ => none

end MeshConsole.Settings
