namespace PacketMonitor

/-- The node to connect to, the login, and the number of monitored ports. -/
structure Config.Node where
  host : String := "localhost"
  port : UInt16 := 8011
  callsign : Option String := none
  ports : UInt32 := 12
  deriving DecidableEq, Repr

/-- The times of a session, in the units that the names say. -/
structure Config.Session where
  initialBackoffMs : UInt64 := 1000
  maxBackoffSecs : UInt64 := 300
  keepaliveSecs : UInt64 := 120
  settleMs : UInt64 := 3000
  stepMs : UInt64 := 1000
  retryPauseMs : UInt64 := 1000
  deriving DecidableEq, Repr

/-- How much is kept for dashboards, and how many there may be. -/
structure Config.History where
  capacity : UInt64 := 5000
  subscriberQueue : UInt64 := 1024
  maxSubscribers : UInt64 := 256
  deriving DecidableEq, Repr

/-- Local copies of the monitor stream. -/
structure Config.Output where
  fileLogging : Bool := false
  archiveDir : String := "."
  consoleEcho : Bool := false
  deriving DecidableEq, Repr

/-- Where dashboards are served. -/
structure Config.Api where
  host : String := "0.0.0.0"
  port : UInt16 := 8212
  deriving DecidableEq, Repr

/-- What is logged, and how. -/
structure Config.Logging where
  level : String := "info"
  format : String := "pretty"
  deriving DecidableEq, Repr

/-- All settings. -/
structure Config where
  node : Config.Node := {}
  session : Config.Session := {}
  history : Config.History := {}
  output : Config.Output := {}
  api : Config.Api := {}
  logging : Config.Logging := {}
  deriving DecidableEq, Repr

namespace Config

/-- The address that dashboards are served at. -/
def Api.address (api : Api) : String :=
  s!"{api.host}:{api.port.toNat}"

/-- The node's address. -/
def Node.address (node : Node) : String :=
  s!"{node.host}:{node.port.toNat}"

end Config

end PacketMonitor
