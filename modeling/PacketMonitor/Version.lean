namespace PacketMonitor

/-- The name of the program as it shows itself. -/
def programName : String := "bpqmon"

/-- The version of the program. -/
def programVersion : String := "0.1.0"

end PacketMonitor
