import PacketMonitor.Config.Settings
import PacketMonitor.Hub
import PacketMonitor.Session.Supervisor
import PacketMonitor.Text.Blank

namespace PacketMonitor.Config

open Text

/-- Why the program cannot run with a configuration. -/
inductive Problem where
  | emptyHost
  | portCount (ports : UInt32)
  | noCallsign
  | initialBackoff
  | maxBackoff
  | keepalive
  | maxSubscribers
  | logFormat (format : String)
  | callsignRequired
  deriving DecidableEq, Repr

/-- A problem in words. -/
def Problem.reason : Problem → String
  | emptyHost => "node host is empty"
  | portCount ports =>
    s!"ports must be between 1 and {PacketMonitor.Session.maxPorts}, got {ports.toNat}"
  | noCallsign => "no callsign configured and none found in node.ini"
  | initialBackoff => "initial_backoff_ms must be at least 1"
  | maxBackoff => "max_backoff_secs must be at least 1"
  | keepalive => "keepalive_secs must be at least 1"
  | maxSubscribers => "max_subscribers must be at least 1"
  | logFormat format => s!"unknown log format '{format}'"
  | callsignRequired => "callsign is required"

/-- A problem as shown to people. -/
def Problem.message (p : Problem) : String :=
  s!"Invalid configuration: {p.reason}"

/-- The callsign without blanks around it, unless nothing is left. -/
def login? (c : Config) : Option String :=
  (c.node.callsign.map trimmed).filter (· != "")

/-- The first thing that is wrong with a configuration. -/
def problem? (c : Config) : Option Problem :=
  if trimmed c.node.host = "" then some .emptyHost
  else if c.node.ports.toNat < 1 ∨ PacketMonitor.Session.maxPorts < c.node.ports.toNat then
    some (.portCount c.node.ports)
  else if c.login?.isNone then some .noCallsign
  else if c.session.initialBackoffMs = 0 then some .initialBackoff
  else if c.session.maxBackoffSecs = 0 then some .maxBackoff
  else if c.session.keepaliveSecs = 0 then some .keepalive
  else if c.history.maxSubscribers = 0 then some .maxSubscribers
  else if c.logging.format ≠ "pretty" ∧ c.logging.format ≠ "json" then
    some (.logFormat c.logging.format)
  else none

/-- The limits of the hub. -/
def hubSettings (c : Config) : Hub.Settings where
  historyCapacity := c.history.capacity.toNat
  subscriberQueue := c.history.subscriberQueue.toNat
  maxSubscribers := c.history.maxSubscribers.toNat

/-- How sessions are run. There has to be a callsign. -/
def sessionSettings (c : Config) : Except Problem PacketMonitor.Session.Settings :=
  match c.login? with
  | none => .error .callsignRequired
  | some callsign =>
    .ok {
      callsign
      ports := c.node.ports
      initialBackoff := .ofMillis c.session.initialBackoffMs
      maxBackoff := .ofSeconds c.session.maxBackoffSecs
      keepalive := .ofSeconds c.session.keepaliveSecs
      settle := .ofMillis c.session.settleMs
      step := .ofMillis c.session.stepMs
      retryPause := .ofMillis c.session.retryPauseMs
      archiveDir := if c.output.fileLogging then some c.output.archiveDir else none
      consoleEcho := c.output.consoleEcho }

end PacketMonitor.Config
