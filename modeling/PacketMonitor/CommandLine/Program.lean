import PacketMonitor.CommandLine.Help
import PacketMonitor.Config.Problem
import PacketMonitor.Config.Template
import PacketMonitor.Dashboard.Fault
import PacketMonitor.Identity

namespace PacketMonitor.CommandLine

/-- What the program finds: variables, the directory for configuration files and the home
    directory as the system tells of them, files, and for every address whether it can be
    served at or why not. -/
structure Surroundings where
  env : Config.Environment
  directory : Option String
  home : Option String
  files : String → Config.File
  bind : String → Except String Unit

/-- All files that may be looked at. -/
def paths (directory? home? : Option String) (flags : Flags) : List String :=
  flags.config.toList ++ Config.searchPaths directory? ++ (Config.nodeSettingsPath? home?).toList

/-- How the program ends. A program that serves does so until it is stopped. -/
inductive Outcome where
  | printed (text : String)
  | misused (why : Misuse)
  | failed (message : String) (cause? : Option String)
  | serving (config : Config)
  deriving DecidableEq, Repr

/-- The configuration below the options: a given file, which has to load, or what
    is found in the usual places. -/
def baseConfig (s : Surroundings) (flags : Flags) : Except Config.LoadError Config :=
  match flags.config with
  | some path => Config.loadUnder s.env path (s.files path)
  | none => .ok (Config.search s.env s.directory s.files)

/-- All settings with the options over them. The node's own callsign is taken if
    nobody gave one. -/
def effectiveConfig (s : Surroundings) (flags : Flags) : Except Config.LoadError Config :=
  (baseConfig s flags).map fun c =>
    (c.override flags.overrides).withCallsign (Config.discoveredCallsign? s.home s.files)

/-- Serves with a configuration, if it makes sense and the address is free. -/
def serve (s : Surroundings) (c : Config) : Outcome :=
  match c.problem? with
  | some problem => .failed problem.message none
  | none =>
    match c.sessionSettings with
    | .error problem => .failed problem.message none
    | .ok _ =>
      match s.bind c.api.address with
      | .ok _ => .serving c
      | .error message =>
        let fault := Dashboard.Fault.io message
        .failed fault.message fault.cause?

/-- The program without any option that ends it at once. -/
def runWith (s : Surroundings) (flags : Flags) : Outcome :=
  if flags.printConfig then .printed Config.template
  else match effectiveConfig s flags with
    | .error e => .failed e.message none
    | .ok c => serve s c

/-- The program. -/
def run (s : Surroundings) (arguments : List String) : Outcome :=
  match Request.ofArguments arguments with
  | .run flags => runWith s flags
  | .help => .printed helpText
  | .version => .printed s!"{programName} {programVersion}\n"
  | .misuse why => .misused why

namespace Outcome

/-- The number that the program ends with. -/
def exitCode : Outcome → Nat
  | printed _ | serving _ => 0
  | failed .. => 1
  | misused _ => 2

/-- What is written for the program's caller. -/
def output : Outcome → String
  | printed text => text
  | _ => ""

/-- What is written about a failure. -/
def diagnostics : Outcome → String
  | misused why => s!"error: {why.message}\n"
  | failed message none => s!"Error: {message}\n"
  | failed message (some cause) => s!"Error: {message}\n\nCaused by:\n    {cause}\n"
  | _ => ""

end Outcome

end PacketMonitor.CommandLine
