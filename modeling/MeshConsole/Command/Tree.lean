import MeshConsole.Command.Flag
import MeshConsole.Settings.Key
import MeshConsole.Text.Case

/-!
# The command tree

The commands of the console, the flags of each, and how a command line is followed down the tree.
-/

namespace MeshConsole.Command

inductive Node where
  | root
  | watch
  | job
  | scan
  | reboot
  | factoryReset
  | update
  | refreshLinks
  | device
  | list
  | permitJoin
  | switchOn
  | switchOff
  | delete
  | rename
  | wifi
  | sim
  | help
  | completion
  deriving Repr, DecidableEq

namespace Node

def name : Node → Text
  | .root => "gwdash"
  | .watch => "watch"
  | .job => "job"
  | .scan => "scan"
  | .reboot => "reboot"
  | .factoryReset => "factory-reset"
  | .update => "update"
  | .refreshLinks => "lqi-refresh"
  | .device => "device"
  | .list => "list"
  | .permitJoin => "permit-join"
  | .switchOn => "on"
  | .switchOff => "off"
  | .delete => "delete"
  | .rename => "rename"
  | .wifi => "wifi"
  | .sim => "sim"
  | .help => "help"
  | .completion => "completion"

def children : Node → List Node
  | .root => [.watch, .job, .device, .sim, .help, .completion]
  | .job => [.scan, .reboot, .factoryReset, .update, .refreshLinks]
  | .device => [.list, .permitJoin, .switchOn, .switchOff, .delete, .rename, .wifi]
  | _ => []

/-- The number of arguments; a group of commands has none to check. -/
def arity? : Node → Option Nat
  | .root => none
  | .job => none
  | .device => none
  | .help => none
  | .completion => none
  | .switchOn => some 1
  | .switchOff => some 1
  | .delete => some 1
  | .rename => some 2
  | _ => some 0

/-- The names from the root on. -/
def path (n : Node) : Text :=
  let parent := [root, job, device].find? fun group => group.children.contains n
  match parent with
  | none => n.name
  | some .root => root.name ++ " " ++ n.name
  | some group => root.name ++ " " ++ group.name ++ " " ++ n.name

/-- The flags of a command of its own. -/
def ownFlags : Node → List FlagSpec
  | .watch => [{ name := "status-interval", kind := .duration }]
  | .reboot => [{ name := "delay-ms", kind := .int }]
  | .factoryReset => [{ name := "yes", kind := .bool }]
  | .switchOn => [{ name := "ep", kind := .int }]
  | .switchOff => [{ name := "ep", kind := .int }]
  | .wifi => [{ name := "ssid", kind := .text }, { name := "password", kind := .text }]
  | .sim => [
      { name := "listen", kind := .text }, { name := "devices", kind := .int },
      { name := "drift", kind := .duration }]
  | _ => []

/-- The flags that a command line is followed down with. -/
def flags (n : Node) : List FlagSpec := n.ownFlags ++ Settings.flagSpecs

/-- The flags that the arguments of a command are read with. -/
def allFlags (n : Node) : List FlagSpec :=
  let version : List FlagSpec :=
    if n = .root then [{ name := "version", kind := .bool, short := some 0x76 }] else []
  n.flags ++ { name := "help", kind := .bool, short := some 0x68 } :: version

end Node

/-- Whether an argument is a flag whose value is the next argument. -/
def takesNext (specs : List FlagSpec) (argument : Text) : Bool :=
  let isBool := fun (spec : Option FlagSpec) => (spec.map (·.kind)) == some .bool
  !argument.contains Ascii.equals &&
  match argument with
  | Ascii.minus :: Ascii.minus :: name => !isBool (specs.find? (·.name == name))
  | [Ascii.minus, letter] => !isBool (specs.find? (·.short == some letter))
  | _ => false

def isFlag (argument : Text) : Bool := argument.head? == some Ascii.minus

/-- The arguments that are neither flags nor values of flags. A flag that takes a value with no more
than one argument after it ends the search. -/
def plainArguments (specs : List FlagSpec) : List Text → List Text
  | [] => []
  | argument :: rest =>
    if argument == "--" then []
    else if takesNext specs argument then
      match rest with
      | _ :: next :: more => plainArguments specs (next :: more)
      | _ => []
    else if argument.isEmpty || isFlag argument then plainArguments specs rest
    else argument :: plainArguments specs rest

/-- The arguments without the first plain one that is `name`. -/
def withoutFirst (specs : List FlagSpec) (name : Text) : List Text → List Text
  | [] => []
  | argument :: rest =>
    if argument == "--" then argument :: rest
    else if takesNext specs argument then
      match rest with
      | value :: more => argument :: value :: withoutFirst specs name more
      | [] => [argument]
    else if !isFlag argument && argument == name then rest
    else argument :: withoutFirst specs name rest

/-- Follows a command line down the tree; the arguments that lead down are taken out. -/
def follow : Nat → Node → List Text → Node × List Text
  | 0, node, arguments => (node, arguments)
  | depth + 1, node, arguments =>
    match plainArguments node.flags arguments with
    | [] => (node, arguments)
    | first :: _ =>
      match node.children.find? (·.name == first) with
      | some child => follow depth child (withoutFirst node.flags first arguments)
      | none => (node, arguments)

/-- The deepest command lies two steps below the root. -/
def maxDepth : Nat := 2

/-- One more row of the table of edit distances: `above` is the row before, `corner` and `left`
stand beside the next cell. -/
def editRow (b : UInt8) : Nat → Nat → Text → List Nat → List Nat
  | corner, left, a :: s, up :: above =>
    let cell := if a == b then corner else min (min left up) corner + 1
    cell :: editRow b up cell s above
  | _, _, _, _ => []

/-- How many bytes must be changed, put in or left out to come from one text to the other. -/
def editDistance (s t : Text) : Nat :=
  let first := List.range (s.length + 1)
  let row := fun (above : List Nat) (b : UInt8) =>
    match above with
    | [] => []
    | corner :: rest => (corner + 1) :: editRow b corner (corner + 1) s rest
  ((t.foldl row first).getLast?).getD 0

/-- The commands that may have been meant: those within two edits and those that the word begins. -/
def suggestions (word : Text) : List Text :=
  let typed := Text.lower word
  let close := fun name : Text =>
    editDistance typed name ≤ 2 || (Text.after? typed name).isSome
  ((Node.root.children.filter (· ≠ .help)).map Node.name).filter close

end MeshConsole.Command
