import PacketMonitor.CommandLine.Program

namespace PacketMonitor.CommandLine

/-- Reads what is under a path. -/
def readPath (path : String) : IO Config.File := do
  try
    return .content (← IO.FS.readBinFile path).toList
  catch
    | .noFileOrDirectory .. => return .missing
    | .inappropriateType none _ _ => return .directory
    | .inappropriateType .. => return .throughFile
    | .invalidArgument .. => return .nameTooLong
    | _ => return .forbidden

/-- Looks up all variables and files that the program may ask for. Directories are those
    that their variables name. Network sockets are not available, so that no address can
    be served at. -/
def lookAround (arguments : List String) : IO Surroundings := do
  let values ← Config.Overrides.variableNames.mapM fun name => do
    return (name, ← IO.getEnv name)
  let env : Config.Environment := fun name => (values.lookup name).join
  let home := (← IO.getEnv "HOME").filter (· != "")
  let directory := Config.directory? (← IO.getEnv "XDG_CONFIG_HOME") home
  let flags := match Request.ofArguments arguments with
    | .run flags => flags
    | _ => {}
  let found ← (paths directory home flags).mapM fun path => do return (path, ← readPath path)
  return {
    env
    directory
    home
    files := fun path => (found.lookup path).getD .missing
    bind := fun _ => .error "Operation not supported (os error 95)" }

end PacketMonitor.CommandLine

/-- Runs the program and ends with its number. -/
def main (arguments : List String) : IO UInt32 := do
  let around ← PacketMonitor.CommandLine.lookAround arguments
  let outcome := PacketMonitor.CommandLine.run around arguments
  IO.print outcome.output
  IO.eprint outcome.diagnostics
  return outcome.exitCode.toUInt32
