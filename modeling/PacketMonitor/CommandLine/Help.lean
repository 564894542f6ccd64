import PacketMonitor.CommandLine.Flags
import PacketMonitor.Version

namespace PacketMonitor.CommandLine

/-- What stands for the value of an option in the help text. -/
def Flag.placeholder (flag : Flag) : String :=
  flag.name.toUpper.map fun c => if c = '-' then '_' else c

/-- An option in the help text, with its letter and its value. -/
def Flag.usage (flag : Flag) : String :=
  let letter := match flag.letter? with
    | some c => String.ofList ['-', c, ',', ' ']
    | none => "    "
  let value := if flag.takesValue then s!" <{flag.placeholder}>" else ""
  s!"  {letter}--{flag.name}{value}"

/-- The line of the help text on one option. The purposes form a column. -/
def Flag.helpLine (flag : Flag) : String :=
  String.ofList (flag.usage.toList.rightpad 35 ' ') ++ flag.purpose ++ "\n"

/-- The help text. -/
def helpText : String :=
  "Live monitor feed from a packet radio node\n\n" ++
    s!"Usage: {programName} [OPTIONS]\n\nOptions:\n" ++
    String.join (Flag.all.map (·.helpLine))

end PacketMonitor.CommandLine
