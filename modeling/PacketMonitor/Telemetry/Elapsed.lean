namespace PacketMonitor.Telemetry

/-- A millisecond count as a compact duration, cut off and never rounded. From
    an hour on it has no seconds, and already from a quarter of an hour on only
    whole minutes are shown. -/
def elapsedText (millis : UInt64) : String :=
  let seconds := millis.toNat / 1000
  if 3600 ≤ seconds then s!"{seconds / 3600}h{seconds % 3600 / 60}m"
  else if 900 ≤ seconds then s!"{seconds / 60}m"
  else if 60 ≤ seconds then s!"{seconds / 60}m{seconds % 60}s"
  else s!"{seconds}s"

end PacketMonitor.Telemetry
