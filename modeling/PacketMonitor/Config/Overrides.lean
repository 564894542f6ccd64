import PacketMonitor.Config.Settings
import PacketMonitor.Text.Blank
import PacketMonitor.Text.Numeral

namespace PacketMonitor.Config

open Text

/-- Settings from one source that go before those from others. What the source
    does not give stays as it is. -/
structure Overrides where
  nodeHost : Option String := none
  nodePort : Option UInt16 := none
  callsign : Option String := none
  ports : Option UInt32 := none
  capacity : Option UInt64 := none
  fileLogging : Option Bool := none
  archiveDir : Option String := none
  consoleEcho : Option Bool := none
  apiHost : Option String := none
  apiPort : Option UInt16 := none
  logLevel : Option String := none
  logFormat : Option String := none
  deriving DecidableEq, Repr

/-- Puts overrides over a configuration. -/
def override (c : Config) (o : Overrides) : Config :=
  { node :=
      { host := o.nodeHost.getD c.node.host
        port := o.nodePort.getD c.node.port
        callsign := o.callsign <|> c.node.callsign
        ports := o.ports.getD c.node.ports }
    session := c.session
    history := { c.history with capacity := o.capacity.getD c.history.capacity }
    output :=
      { fileLogging := o.fileLogging.getD c.output.fileLogging
        archiveDir := o.archiveDir.getD c.output.archiveDir
        consoleEcho := o.consoleEcho.getD c.output.consoleEcho }
    api :=
      { host := o.apiHost.getD c.api.host
        port := o.apiPort.getD c.api.port }
    logging :=
      { level := o.logLevel.getD c.logging.level
        format := o.logFormat.getD c.logging.format } }

/-- Looks a variable of the environment up. -/
abbrev Environment := String → Option String

/-- A number below a limit in a text, with a plus sign or without. -/
def unsignedOf? (limit : Nat) (text : String) : Option Nat :=
  unsigned? limit text.toList

/-- What turns a switch off. -/
def offWords : List String :=
  ["", "0", "false", "no", "off"]

/-- Whether a switch is on. Everything but a few words turns it on. -/
def isOn (text : String) : Bool :=
  !offWords.contains (trimmed text).toLower

/-- The variables that override settings. -/
def Overrides.variableNames : List String :=
  ["BPQMON_NODE_HOST", "BPQMON_NODE_PORT", "BPQMON_CALLSIGN", "BPQMON_PORTS",
    "BPQMON_BUFFER_SIZE", "BPQMON_FILE_LOG", "BPQMON_ARCHIVE_DIR", "BPQMON_CONSOLE_OUT",
    "BPQMON_API_HOST", "BPQMON_API_PORT", "BPQMON_LOG_LEVEL", "BPQMON_LOG_FORMAT"]

/-- The overrides from the environment. Numbers that cannot be read are left
    out. -/
def Overrides.ofEnvironment (env : Environment) : Overrides where
  nodeHost := env "BPQMON_NODE_HOST"
  nodePort := (env "BPQMON_NODE_PORT" >>= unsignedOf? UInt16.size).map UInt16.ofNat
  callsign := env "BPQMON_CALLSIGN"
  ports := (env "BPQMON_PORTS" >>= unsignedOf? UInt32.size).map UInt32.ofNat
  capacity := (env "BPQMON_BUFFER_SIZE" >>= unsignedOf? UInt64.size).map UInt64.ofNat
  fileLogging := (env "BPQMON_FILE_LOG").map isOn
  archiveDir := env "BPQMON_ARCHIVE_DIR"
  consoleEcho := (env "BPQMON_CONSOLE_OUT").map isOn
  apiHost := env "BPQMON_API_HOST"
  apiPort := (env "BPQMON_API_PORT" >>= unsignedOf? UInt16.size).map UInt16.ofNat
  logLevel := env "BPQMON_LOG_LEVEL"
  logFormat := env "BPQMON_LOG_FORMAT"

end PacketMonitor.Config
