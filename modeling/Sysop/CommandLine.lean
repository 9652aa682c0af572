/-
Sysop/CommandLine.lean

The command line: options with values, what they set, and what the program does.

An option stands in front of its value, whatever the value looks like.  The first
argument that cannot go on is told.  A wrong command line ends with 2, a server
that cannot start with 1.
-/
import Sysop.LogFilter
import Sysop.Owner
import Sysop.Server

namespace Sysop

namespace CommandLine

/-! ### Options -/

/-- The options that take a value. -/
inductive OptionName
  | bind
  | port
  | hostKey
  | allowedUser
  | allowedKey
  | timeout
  deriving DecidableEq, Repr

/-- The option with a name, in its long or its short form. -/
def OptionName.ofArg? : String → Option OptionName
  | "--bind" => some .bind
  | "-b" => some .bind
  | "--port" => some .port
  | "-p" => some .port
  | "--host-key" => some .hostKey
  | "-k" => some .hostKey
  | "--allowed-user" => some .allowedUser
  | "-u" => some .allowedUser
  | "--allowed-key" => some .allowedKey
  | "-a" => some .allowedKey
  | "--timeout" => some .timeout
  | "-t" => some .timeout
  | _ => none

/-- The argument asks for help. -/
def isHelp (arg : String) : Bool :=
  arg == "--help" || arg == "-h"

/-- The values that were given. -/
structure Options where
  bind : Option IpAddress := none
  port : Option UInt16 := none
  hostKey : Option String := none
  allowedUser : Option String := none
  allowedKey : Option String := none
  timeout : Option Nat := none
  deriving DecidableEq, Repr

/-- What a command line asks for. -/
inductive Request
  | help
  | serve (options : Options)
  deriving DecidableEq, Repr

/-- Why a command line is wrong. -/
inductive UsageFault
  | needsValue (arg : String)
  | invalidAddress (value : String)
  | invalidPort (value : String)
  | invalidTimeout (value : String)
  | unknownArgument (arg : String)
  deriving DecidableEq, Repr

/-- The text of a fault. -/
def UsageFault.message : UsageFault → String
  | .needsValue arg => arg ++ " needs a value"
  | .invalidAddress value => "invalid address '" ++ value ++ "'"
  | .invalidPort value => "invalid port '" ++ value ++ "'"
  | .invalidTimeout value => "invalid timeout '" ++ value ++ "'"
  | .unknownArgument arg => "unknown argument '" ++ arg ++ "'"

/-! ### Reading -/

/-- The options with one more value. -/
def Options.set (o : Options) (name : OptionName) (value : String) :
    Except UsageFault Options :=
  match name with
  | .bind =>
    match IpAddress.parse? value with
    | some ip => .ok { o with bind := some ip }
    | none => .error (.invalidAddress value)
  | .port =>
    match Numeral.parse? UInt16.size value with
    | some n => .ok { o with port := some (UInt16.ofNat n) }
    | none => .error (.invalidPort value)
  | .hostKey => .ok { o with hostKey := some value }
  | .allowedUser => .ok { o with allowedUser := some value }
  | .allowedKey => .ok { o with allowedKey := some value }
  | .timeout =>
    match Numeral.parse? UInt64.size value with
    | some n => .ok { o with timeout := some n }
    | none => .error (.invalidTimeout value)

/-- What the arguments ask for, after the given options. -/
def parseFrom (o : Options) : List String → Except UsageFault Request
  | [] => .ok (.serve o)
  | [arg] =>
    match OptionName.ofArg? arg with
    | some _ => .error (.needsValue arg)
    | none => if isHelp arg then .ok .help else .error (.unknownArgument arg)
  | arg :: value :: rest =>
    match OptionName.ofArg? arg with
    | some name =>
      match o.set name value with
      | .ok o' => parseFrom o' rest
      | .error fault => .error fault
    | none => if isHelp arg then .ok .help else .error (.unknownArgument arg)

/-- What the arguments ask for. -/
def parse (args : List String) : Except UsageFault Request :=
  parseFrom {} args

/-- The calls that the options stand for. -/
def Options.calls (o : Options) : List Setting :=
  (o.bind.map Setting.bind).toList ++ (o.port.map Setting.port).toList
    ++ (o.hostKey.map Setting.hostKeyPath).toList
    ++ (o.allowedUser.map Setting.allowedUser).toList
    ++ (o.allowedKey.map Setting.allowedKeyPath).toList
    ++ (o.timeout.map fun n => Setting.timeout (.ofSeconds n)).toList

/-- The settings that the options make. -/
def Options.settings (o : Options) (owner : Option String) : Settings :=
  (Settings.initial owner).applyAll o.calls

/-! ### Running -/

/-- The text of the help. -/
def help : String := String.intercalate "\n" [
  "bbssh - minimal demonstration SSH server",
  "",
  "Usage: bbssh [OPTIONS]",
  "",
  "Options:",
  "  -b, --bind <ADDR>          Address to listen on (default: 0.0.0.0)",
  "  -p, --port <PORT>          Port to listen on (default: 2200)",
  "  -k, --host-key <PATH>      Host private key (default: test_rsa.key)",
  "  -u, --allowed-user <NAME>  User allowed to log in by key (default: robey)",
  "  -a, --allowed-key <PATH>   OpenSSH .pub file replacing the built-in key",
  "  -t, --timeout <SECS>       Wait for channel and shell request (default: 10)",
  "  -h, --help                 Show this help message",
  ""]

/-- What surrounds the program. -/
structure Host where
  owner : Owner
  files : Files
  /-- What reads the host key. -/
  loadKey : KeyLoader
  network : Network
  /-- The filter for log records, if one is set. -/
  logFilter : Option String

/-- How a run ends: the program is over, or it serves from now on. -/
inductive Ending
  | exit (code : Nat)
  | serving (server : Server)

/-- A run: what it writes, and how it ends. -/
structure Run where
  stdout : String := ""
  stderr : String := ""
  ending : Ending

/-- The filter of a host, and what is told of its faults. -/
def Host.filter (h : Host) : LogFilter × String :=
  let (f, warnings) := LogFilter.read (h.logFilter.getD "info")
  (f, String.join (warnings.map LogFilter.warningText))

/-- The record of a fault that ends the program. -/
def fatal (fault : Fault) : Record :=
  ⟨.error, .main, "*** " ++ fault.message⟩

/-- The record of a listener that failed. -/
def acceptFailed (fault : Fault) : Record :=
  ⟨.error, .main, "*** Listen/accept failed: " ++ fault.message⟩

/-- The records of starting a server with options, and how it ends. -/
def start (h : Host) (o : Options) : List Record × Ending :=
  match (o.settings h.owner.name?).build h.loadKey h.files with
  | .error fault => ([fatal (.config fault)], .exit 1)
  | .ok config =>
    let bound := Server.bind h.network config
    match bound.value with
    | .error fault => (bound.records ++ [fatal (.server fault)], .exit 1)
    | .ok (server, _) => (bound.records ++ [Server.listeningRecord], .serving server)

/-- A run with the given arguments. -/
def run (h : Host) (args : List String) : Run :=
  let (f, warnings) := h.filter
  match parse args with
  | .ok .help => { stdout := help, stderr := warnings, ending := .exit 0 }
  | .error fault =>
    { stdout := help, stderr := warnings ++ "Error: " ++ fault.message ++ "\n\n"
      ending := .exit 2 }
  | .ok (.serve o) =>
    let (records, ending) := start h o
    { stderr := warnings ++ f.render records, ending }

end CommandLine

end Sysop
