namespace PacketMonitor.Config

/-- The lines of a configuration file that says what holds without one. -/
def templateLines : List String :=
  [ "# bpqmon Configuration",
    "#",
    "# Environment variables override these settings:",
    "# - BPQMON_NODE_HOST, BPQMON_NODE_PORT, BPQMON_CALLSIGN, BPQMON_PORTS",
    "# - BPQMON_BUFFER_SIZE",
    "# - BPQMON_FILE_LOG, BPQMON_ARCHIVE_DIR, BPQMON_CONSOLE_OUT",
    "# - BPQMON_API_HOST, BPQMON_API_PORT",
    "# - BPQMON_LOG_LEVEL, BPQMON_LOG_FORMAT",
    "",
    "[node]",
    "# Node telnet host and port",
    "host = \"localhost\"",
    "port = 8011",
    "",
    "# Operator callsign used to log in. When unset, read from",
    "# local-op-callsign in ~/node.ini",
    "# callsign = \"N0CALL\"",
    "",
    "# Number of node ports to monitor (1-63)",
    "ports = 12",
    "",
    "[session]",
    "# Connect retry delay, doubling up to max_backoff_secs",
    "initial_backoff_ms = 1000",
    "max_backoff_secs = 300",
    "",
    "# Idle keepalive period",
    "keepalive_secs = 120",
    "",
    "# Handshake pauses",
    "settle_ms = 3000",
    "step_ms = 1000",
    "",
    "# Pause before reconnecting after a session ends",
    "retry_pause_ms = 1000",
    "",
    "[history]",
    "# Events replayed to newly connected dashboards",
    "capacity = 5000",
    "",
    "# Live events a dashboard may fall behind before it is dropped",
    "subscriber_queue = 1024",
    "",
    "max_subscribers = 256",
    "",
    "[output]",
    "# Append raw monitor frames to log_<unix>.txt",
    "file_logging = false",
    "archive_dir = \".\"",
    "",
    "# Print monitor text to stdout",
    "console_echo = false",
    "",
    "[api]",
    "# Dashboard server host and port",
    "host = \"0.0.0.0\"",
    "port = 8212",
    "",
    "[logging]",
    "# Log level: trace, debug, info, warn, error",
    "level = \"info\"",
    "",
    "# Log format: pretty (for development) or json (for production)",
    "format = \"pretty\"" ]

/-- The configuration file for new installations. -/
def template : String :=
  String.join (templateLines.map (· ++ "\n"))

end PacketMonitor.Config
