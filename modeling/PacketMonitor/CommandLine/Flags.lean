import PacketMonitor.Config.Overrides
import PacketMonitor.Network.Address

namespace PacketMonitor.CommandLine

open Text Network

/-- The options of the program. -/
inductive Flag where
  | config
  | call
  | host
  | ports
  | bufferSize
  | consoleOut
  | fileLog
  | debugInfo
  | listen
  | printConfig
  | help
  | version
  deriving DecidableEq, Repr

namespace Flag

/-- All options in the order of the help text. -/
def all : List Flag :=
  [config, call, host, ports, bufferSize, consoleOut, fileLog, debugInfo, listen, printConfig,
    help, version]

/-- The name that follows two dashes. -/
def name : Flag → String
  | config => "config"
  | call => "call"
  | host => "host"
  | ports => "ports"
  | bufferSize => "buffer-size"
  | consoleOut => "console-out"
  | fileLog => "file-log"
  | debugInfo => "debug-info"
  | listen => "listen"
  | printConfig => "print-config"
  | help => "help"
  | version => "version"

/-- The letter that follows one dash. Few options have one. -/
def letter? : Flag → Option Char
  | config => some 'c'
  | help => some 'h'
  | version => some 'V'
  | _ => none

/-- Whether a value belongs to the option. -/
def takesValue : Flag → Bool
  | config | call | host | ports | bufferSize | listen => true
  | _ => false

/-- What the option is for. -/
def purpose : Flag → String
  | config => "Config file (default: searched in the usual locations)"
  | call => "Callsign used to log in to the node"
  | host => "Node hostname"
  | ports => "Number of ports to monitor"
  | bufferSize => "Number of events kept for dashboard replay"
  | consoleOut => "Print monitor lines to the console"
  | fileLog => "Archive raw monitor frames to log_<unix>.txt"
  | debugInfo => "Log raw protocol traffic"
  | listen => "Dashboard listen address"
  | printConfig => "Print a default config file and exit"
  | help => "Print help"
  | version => "Print version"

/-- The option with the given name. -/
def ofName? (name : List Char) : Option Flag :=
  all.find? (·.name.toList == name)

/-- The option with the given letter. -/
def ofLetter? (letter : Char) : Option Flag :=
  all.find? (·.letter? == some letter)

end Flag

/-- The options that were given, each at most once. -/
structure Flags where
  config : Option String := none
  call : Option String := none
  host : Option String := none
  ports : Option UInt32 := none
  bufferSize : Option UInt64 := none
  listen : Option Endpoint := none
  consoleOut : Bool := false
  fileLog : Bool := false
  debugInfo : Bool := false
  printConfig : Bool := false
  deriving DecidableEq, Repr

/-- Why arguments cannot be understood. -/
inductive Misuse where
  | unexpected (argument : String)
  | needsValue (flag : Flag)
  | takesNoValue (flag : Flag)
  | badValue (flag : Flag) (value : String)
  | repeated (flag : Flag)
  deriving DecidableEq, Repr

/-- A misuse in words. -/
def Misuse.message : Misuse → String
  | unexpected argument => s!"unexpected argument '{argument}' found"
  | needsValue flag => s!"a value is required for '--{flag.name}' but none was supplied"
  | takesNoValue flag => s!"unexpected value for '--{flag.name}' found; no more were expected"
  | badValue flag value => s!"invalid value '{value}' for '--{flag.name}'"
  | repeated flag => s!"the argument '--{flag.name}' cannot be used multiple times"

/-- The number of ports. A minus sign is accepted before zero only. -/
def portCount? (value : String) : Option UInt32 :=
  match value.toList with
  | '-' :: digits => (numeralBelow? 10 1 digits).map UInt32.ofNat
  | digits => (unsigned? UInt32.size digits).map UInt32.ofNat

/-- Fills one place with a value that was read. -/
def filled {α : Type} (flag : Flag) (value : String) (before read : Option α) :
    Except Misuse (Option α) :=
  match before, read with
  | some _, _ => .error (.repeated flag)
  | none, none => .error (.badValue flag value)
  | none, some a => .ok (some a)

/-- Turns one switch on. -/
def switched (flag : Flag) (before : Bool) : Except Misuse Bool :=
  if before then .error (.repeated flag) else .ok true

namespace Flags

/-- Takes in an option with its value. A path has one character at least. -/
def withValue (f : Flags) (flag : Flag) (value : String) : Except Misuse Flags :=
  match flag with
  | .config => do
    return { f with config := ← filled flag value f.config (if value = "" then none else value) }
  | .call => do return { f with call := ← filled flag value f.call (some value) }
  | .host => do return { f with host := ← filled flag value f.host (some value) }
  | .ports => do return { f with ports := ← filled flag value f.ports (portCount? value) }
  | .bufferSize => do
    let size := (Config.unsignedOf? UInt64.size value).map UInt64.ofNat
    return { f with bufferSize := ← filled flag value f.bufferSize size }
  | .listen => do
    return { f with listen := ← filled flag value f.listen (Endpoint.ofText? value) }
  | _ => .error (.takesNoValue flag)

/-- Takes in an option that is a switch. -/
def withSwitch (f : Flags) (flag : Flag) : Except Misuse Flags :=
  match flag with
  | .consoleOut => do return { f with consoleOut := ← switched flag f.consoleOut }
  | .fileLog => do return { f with fileLog := ← switched flag f.fileLog }
  | .debugInfo => do return { f with debugInfo := ← switched flag f.debugInfo }
  | .printConfig => do return { f with printConfig := ← switched flag f.printConfig }
  | _ => .error (.needsValue flag)

/-- The settings that the options stand for. Switches can only turn things on. -/
def overrides (f : Flags) : Config.Overrides where
  nodeHost := f.host
  callsign := f.call
  ports := f.ports
  capacity := f.bufferSize
  fileLogging := if f.fileLog then some true else none
  consoleEcho := if f.consoleOut then some true else none
  apiHost := f.listen.map (·.address.text)
  apiPort := f.listen.map (·.port)
  logLevel := if f.debugInfo then some "trace" else none

end Flags

/-- One argument by its form. An option may carry a value after an equals sign, and
    after its letter also without one. -/
inductive Argument where
  | option (flag : Flag) (value : Option String)
  | endOfOptions
  | unknown
  | plain
  deriving DecidableEq, Repr

namespace Argument

/-- An option by its letter, with what follows the letter. Help and version do not
    care for it. -/
def ofLetter (letter : Char) (rest : List Char) : Argument :=
  match Flag.ofLetter? letter with
  | none => unknown
  | some flag =>
    if !flag.takesValue then option flag none
    else match rest with
      | [] => option flag none
      | '=' :: value => option flag (some (String.ofList value))
      | value => option flag (some (String.ofList value))

/-- An option by its name, with the value after the first equals sign. -/
def ofName (text : List Char) : Argument :=
  let name := text.takeWhile (· != '=')
  match Flag.ofName? name with
  | none => unknown
  | some flag =>
    match text.drop name.length with
    | [] => option flag none
    | _ :: value => option flag (some (String.ofList value))

/-- The form of an argument. A single dash is plain. -/
def ofText (text : String) : Argument :=
  match text.toList with
  | ['-', '-'] => endOfOptions
  | '-' :: '-' :: rest => ofName rest
  | '-' :: letter :: rest => ofLetter letter rest
  | _ => plain

end Argument

/-- What the arguments ask for. -/
inductive Request where
  | run (flags : Flags)
  | help
  | version
  | misuse (why : Misuse)
  deriving DecidableEq, Repr

namespace Request

/-- Reads arguments from left to right. Whatever is settled first decides, and
    nothing can be given but options. -/
def read (flags : Flags) : List String → Request
  | [] => run flags
  | argument :: rest =>
    match Argument.ofText argument with
    | .unknown | .plain => misuse (.unexpected argument)
    | .endOfOptions =>
      match rest with
      | [] => run flags
      | next :: _ => misuse (.unexpected next)
    | .option flag (some value) =>
      match flags.withValue flag value with
      | .ok flags => read flags rest
      | .error why => misuse why
    | .option .help none => help
    | .option .version none => version
    | .option flag none =>
      if !flag.takesValue then
        match flags.withSwitch flag with
        | .ok flags => read flags rest
        | .error why => misuse why
      else match rest with
        | [] => misuse (.needsValue flag)
        | value :: rest =>
          if Argument.ofText value ≠ .plain then misuse (.needsValue flag)
          else match flags.withValue flag value with
            | .ok flags => read flags rest
            | .error why => misuse why

/-- What a list of arguments asks for. -/
def ofArguments (arguments : List String) : Request :=
  read {} arguments

end Request

end PacketMonitor.CommandLine
