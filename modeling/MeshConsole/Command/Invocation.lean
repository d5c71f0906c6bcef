import MeshConsole.Command.Address
import MeshConsole.Command.Tree
import MeshConsole.Fault
import MeshConsole.Settings.Config

/-!
# Invocations

What a command line asks for, or why it is refused before anything is done.
-/

namespace MeshConsole.Command

inductive Task where
  | scan
  | reboot (delayMs : Int)
  | factoryReset
  | update
  | refreshLinks
  deriving Repr, DecidableEq

inductive DeviceTask where
  | list
  | permitJoin
  | control (command : MeshConsole.Command)
  | delete (addr : UInt16)
  | rename (addr : UInt16) (name : Text)
  | saveWifi (credentials : Credentials)
  deriving Repr, DecidableEq

/-- Settings flags are kept as they were given. -/
inductive Invocation where
  | help
  | version
  | watch (interval : Duration) (flags : Table Text FlagValue)
  | job (task : Task) (flags : Table Text FlagValue)
  | device (task : DeviceTask) (flags : Table Text FlagValue)
  | simulate (listen : Text) (devices : Int)
  deriving Repr, DecidableEq

/-- The flags that settings may come from. -/
def Invocation.flags : Invocation → Table Text FlagValue
  | .watch _ flags | .job _ flags | .device _ flags => flags
  | .help | .version | .simulate .. => []

/-- Why a command line is refused. -/
inductive Refusal where
  | unknownCommand (word path : Text) (suggestions : List Text)
  | arguments (wanted received : Nat)
  | flags (why : FlagError)
  | address
  | endpoint
  | limit (broken : Limit)
  | unconfirmed
  deriving Repr, DecidableEq

def Refusal.message : Refusal → Text
  | .unknownCommand word path suggestions =>
    let hint : Text :=
      if suggestions.isEmpty then []
      else ("\n\nDid you mean this?\n" : Text) ++
        suggestions.flatMap fun name => Ascii.tab :: name ++ [Ascii.newline]
    ("unknown command " : Text) ++ word.quoted ++ " for " ++ path.quoted ++ hint
  | .arguments wanted received =>
    ("accepts " : Text) ++ Text.ofNat wanted ++ " arg(s), received " ++ Text.ofNat received
  | .flags why => why.message
  | .address => addressRefusal
  | .endpoint => ("--ep must be 1.." : Text) ++ Text.ofNat maxEndpoint
  | .limit broken => (Fault.limit broken).message
  | .unconfirmed => "factory-reset erases the gateway; pass --yes to confirm"

namespace Parsed

def text (p : Parsed) (name : Text) (standard : Text) : Text :=
  match p.flags.get? name with
  | some (.text value) => value
  | _ => standard

def int (p : Parsed) (name : Text) (standard : Int) : Int :=
  match p.flags.get? name with
  | some (.int value) => value
  | _ => standard

def bool (p : Parsed) (name : Text) : Bool :=
  match p.flags.get? name with
  | some (.bool value) => value
  | _ => false

def duration (p : Parsed) (name : Text) (standard : Duration) : Duration :=
  match p.flags.get? name with
  | some (.duration value) => value
  | _ => standard

/-- The argument at an index, which the arity of the command vouches for. -/
def argument (p : Parsed) (index : Nat) : Text := (p.arguments[index]?).getD []

def addr (p : Parsed) : Except Refusal UInt16 :=
  match readShortAddr? (p.argument 0) with
  | some addr => .ok addr
  | none => .error .address

/-- A switch command for the endpoint that the flags name, the first without one. -/
def switchCommand (p : Parsed) (switch : UInt8) : Except Refusal MeshConsole.Command := do
  let addr ← p.addr
  let endpoint := p.int "ep" 1
  if endpoint < 1 || (maxEndpoint : Int) < endpoint then .error .endpoint
  else .ok { addr, endpoint := UInt8.ofInt endpoint, switch }

def credentials (p : Parsed) : Except Refusal Credentials :=
  let credentials : Credentials := { ssid := p.text "ssid" [], password := p.text "password" [] }
  match credentials.check with
  | .ok () => .ok credentials
  | .error broken => .error (.limit broken)

end Parsed

/-- What a command with its flags and arguments asks for. -/
def Node.invocation (n : Node) (p : Parsed) : Except Refusal Invocation :=
  match n with
  | .watch => .ok (.watch (p.duration "status-interval" (10 * Duration.second)) p.flags)
  | .scan => .ok (.job .scan p.flags)
  | .reboot => .ok (.job (.reboot (p.int "delay-ms" 0)) p.flags)
  | .factoryReset => if p.bool "yes" then .ok (.job .factoryReset p.flags) else .error .unconfirmed
  | .update => .ok (.job .update p.flags)
  | .refreshLinks => .ok (.job .refreshLinks p.flags)
  | .list => .ok (.device .list p.flags)
  | .permitJoin => .ok (.device .permitJoin p.flags)
  | .switchOn => (p.switchCommand 1).map fun command => .device (.control command) p.flags
  | .switchOff => (p.switchCommand 0).map fun command => .device (.control command) p.flags
  | .delete => p.addr.map fun addr => .device (.delete addr) p.flags
  | .rename => p.addr.map fun addr => .device (.rename addr (p.argument 1)) p.flags
  | .wifi => p.credentials.map fun credentials => .device (.saveWifi credentials) p.flags
  | .sim => .ok (.simulate (p.text "listen" "127.0.0.1:8080") (p.int "devices" 4))
  | .root => .ok .help
  | .job => .ok .help
  | .device => .ok .help
  | .help => .ok .help
  | .completion => .ok .help

/-- The number of arguments must be the command's own. -/
def checkArity (n : Node) (p : Parsed) : Except Refusal Unit :=
  match n.arity?, p.arguments with
  | some 0, word :: _ => .error (.unknownCommand word n.path [])
  | some wanted, arguments =>
    if arguments.length = wanted then .ok () else .error (.arguments wanted arguments.length)
  | none, _ => .ok ()

/-- Reads a command line. Help is given before the arguments are counted. -/
def invoke (arguments : List Text) : Except Refusal Invocation :=
  let (node, arguments) := follow maxDepth .root arguments
  match node, plainArguments node.flags arguments with
  | .root, word :: _ => .error (.unknownCommand word Node.root.path (suggestions word))
  | _, _ =>
    match parseFlags node.allFlags arguments with
    | .error why => .error (.flags why)
    | .ok parsed =>
      if parsed.bool "help" then .ok .help
      else if node = .root && parsed.bool "version" then .ok .version
      else
        match checkArity node parsed with
        | .error why => .error why
        | .ok () => node.invocation parsed

end MeshConsole.Command
