import PacketMonitor.Config.File

namespace PacketMonitor.Config

/-- The directory for configuration files where a variable may name it. Only an absolute
    path is accepted, otherwise it lies within the home directory. -/
def directory? (named? home? : Option String) : Option String :=
  named?.filter (·.startsWith "/") <|> home?.map (· ++ "/.config")

/-- Where configuration files are looked for, in order. -/
def searchPaths (directory? : Option String) : List String :=
  (directory?.map (· ++ "/bpqmon/config.toml")).toList ++
    ["/etc/bpqmon/config.toml", "./bpqmon.toml"]

/-- The path of the node's own settings. -/
def nodeSettingsPath? (home? : Option String) : Option String :=
  home?.map (· ++ "/node.ini")

/-- The configuration of the first file that is there and loads, or else the
    defaults, in either case with the environment over it. -/
def search (env : Environment) (directory? : Option String) (files : String → File) : Config :=
  let loaded := (searchPaths directory?).filterMap fun path =>
    if (files path).isPresent then (load path (files path)).toOption else none
  (loaded.headD {}).override (.ofEnvironment env)

end PacketMonitor.Config
