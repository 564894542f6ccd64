import PacketMonitor.Config.Overrides
import PacketMonitor.Text.Quoted
import PacketMonitor.Text.Utf8
import PacketMonitor.Toml.Document

namespace PacketMonitor.Config

open Text

/-- What is found under a path. Nothing is found if a part of the path is missing,
    leads through a file as if it were a directory, or is too long for a name. -/
inductive File where
  | missing
  | throughFile
  | nameTooLong
  | forbidden
  | directory
  | content (bytes : List UInt8)
  deriving DecidableEq, Repr

/-- The text of a file, or why there is none. -/
def File.text : File → Except String (List Char)
  | .missing => .error "No such file or directory (os error 2)"
  | .throughFile => .error "Not a directory (os error 20)"
  | .nameTooLong => .error "File name too long (os error 36)"
  | .forbidden => .error "Permission denied (os error 13)"
  | .directory => .error "Is a directory (os error 21)"
  | .content bytes =>
    match Utf8.decode? bytes with
    | some text => .ok text
    | none => .error "stream did not contain valid UTF-8"

/-- Whether something is found. -/
def File.isPresent : File → Bool
  | .missing | .throughFile | .nameTooLong => false
  | _ => true

/-- Why a configuration file cannot be used. -/
inductive LoadError where
  | unreadable (path message : String)
  | malformed (path : String)
  deriving DecidableEq, Repr

/-- The error as shown to people. What is wrong within the file is not told. -/
def LoadError.message : LoadError → String
  | .unreadable path message =>
    s!"Failed to read config file {String.ofList (quoted path.toList)}: {message}"
  | .malformed _ => "Failed to parse config file"

/-- The values that a section gives to its settings, in order. A table gives them
    by name. An array gives them by position and has to hold as many as are
    required. A moment stands for a table without any of the names. -/
def sectionValues? (names : List String) (required : Nat) :
    Option Toml.Node → Option (List (Option Toml.Node))
  | none | some .moment => some (names.map fun _ => none)
  | some (.table _ entries) => some (names.map fun name => entries.lookup name)
  | some (.array items) => positional items
  | some (.tables elements) => positional (elements.map (.table .header))
  | _ => none
where
  /-- The values by position. -/
  positional (items : List Toml.Node) : Option (List (Option Toml.Node)) :=
    if items.length < required then none
    else some ((List.range names.length).map fun i => items[i]?)

/-- The value of a setting: what the file says, if it is of the right kind, or the
    default if it says nothing. -/
def setting? {α : Type} (default : α) (read : Toml.Node → Option α) :
    Option Toml.Node → Option α
  | none => some default
  | some node => read node

/-- A text. -/
def text? : Toml.Node → Option String
  | .text s => some s
  | _ => none

/-- A switch. -/
def flag? : Toml.Node → Option Bool
  | .boolean b => some b
  | _ => none

/-- An unsigned number below a limit. -/
def below? (limit : Nat) : Toml.Node → Option Nat
  | .integer n => if 0 ≤ n ∧ n < limit then some n.toNat else none
  | _ => none

/-- An unsigned number of 16 bits. -/
def word16? (node : Toml.Node) : Option UInt16 := (below? UInt16.size node).map UInt16.ofNat

/-- An unsigned number of 32 bits. -/
def word32? (node : Toml.Node) : Option UInt32 := (below? UInt32.size node).map UInt32.ofNat

/-- An unsigned number of 64 bits. -/
def word64? (node : Toml.Node) : Option UInt64 := (below? UInt64.size node).map UInt64.ofNat

/-- Reads the section on the node. -/
def Node.ofToml? (node : Option Toml.Node) : Option Node :=
  let d : Node := {}
  match sectionValues? ["host", "port", "callsign", "ports"] 3 node with
  | some [host, port, callsign, ports] => do
    return {
      host := ← setting? d.host text? host
      port := ← setting? d.port word16? port
      callsign := ← setting? d.callsign (fun node => (text? node).map some) callsign
      ports := ← setting? d.ports word32? ports }
  | _ => none

/-- Reads the section on sessions. -/
def Session.ofToml? (node : Option Toml.Node) : Option Session :=
  let d : Session := {}
  match sectionValues? ["initial_backoff_ms", "max_backoff_secs", "keepalive_secs", "settle_ms",
    "step_ms", "retry_pause_ms"] 0 node with
  | some [initial, limit, keepalive, settle, step, retry] => do
    return {
      initialBackoffMs := ← setting? d.initialBackoffMs word64? initial
      maxBackoffSecs := ← setting? d.maxBackoffSecs word64? limit
      keepaliveSecs := ← setting? d.keepaliveSecs word64? keepalive
      settleMs := ← setting? d.settleMs word64? settle
      stepMs := ← setting? d.stepMs word64? step
      retryPauseMs := ← setting? d.retryPauseMs word64? retry }
  | _ => none

/-- Reads the section on the history. -/
def History.ofToml? (node : Option Toml.Node) : Option History :=
  let d : History := {}
  match sectionValues? ["capacity", "subscriber_queue", "max_subscribers"] 0 node with
  | some [capacity, queue, limit] => do
    return {
      capacity := ← setting? d.capacity word64? capacity
      subscriberQueue := ← setting? d.subscriberQueue word64? queue
      maxSubscribers := ← setting? d.maxSubscribers word64? limit }
  | _ => none

/-- Reads the section on local copies. -/
def Output.ofToml? (node : Option Toml.Node) : Option Output :=
  let d : Output := {}
  match sectionValues? ["file_logging", "archive_dir", "console_echo"] 0 node with
  | some [logging, dir, echo] => do
    return {
      fileLogging := ← setting? d.fileLogging flag? logging
      archiveDir := ← setting? d.archiveDir text? dir
      consoleEcho := ← setting? d.consoleEcho flag? echo }
  | _ => none

/-- Reads the section on dashboards. -/
def Api.ofToml? (node : Option Toml.Node) : Option Api :=
  let d : Api := {}
  match sectionValues? ["host", "port"] 0 node with
  | some [host, port] => do
    return {
      host := ← setting? d.host text? host
      port := ← setting? d.port word16? port }
  | _ => none

/-- Reads the section on logging. -/
def Logging.ofToml? (node : Option Toml.Node) : Option Logging :=
  let d : Logging := {}
  match sectionValues? ["level", "format"] 0 node with
  | some [level, format] => do
    return {
      level := ← setting? d.level text? level
      format := ← setting? d.format text? format }
  | _ => none

/-- Reads the sections of a document. Unknown ones are ignored. -/
def ofToml? (entries : Toml.Entries) : Option Config := do
  return {
    node := ← Node.ofToml? (entries.get? "node")
    session := ← Session.ofToml? (entries.get? "session")
    history := ← History.ofToml? (entries.get? "history")
    output := ← Output.ofToml? (entries.get? "output")
    api := ← Api.ofToml? (entries.get? "api")
    logging := ← Logging.ofToml? (entries.get? "logging") }

/-- Loads a configuration file. -/
def load (path : String) (file : File) : Except LoadError Config :=
  match file.text with
  | .error message => .error (.unreadable path message)
  | .ok text =>
    match Toml.read? text >>= ofToml? with
    | some config => .ok config
    | none => .error (.malformed path)

/-- The configuration of a file with the environment over it. -/
def loadUnder (env : Environment) (path : String) (file : File) : Except LoadError Config :=
  (load path file).map (·.override (.ofEnvironment env))

end PacketMonitor.Config
