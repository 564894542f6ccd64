import PacketMonitor.Config.Search
import PacketMonitor.Text.Blank
import PacketMonitor.Text.Pieces

namespace PacketMonitor

open Text

/-- Stands before the operator's callsign in the node's settings. -/
def callsignKey : String := "local-op-callsign:"

/-- The callsign in one line of the node's settings. -/
def callsignOfLine? (line : List Char) : Option (List Char) :=
  let line := trim line
  if callsignKey.toList.isPrefixOf line then
    let callsign := trim (line.drop callsignKey.length)
    if callsign.isEmpty then none else some callsign
  else none

/-- The first callsign in the node's settings that is not empty. -/
def callsignOf? (settings : List Char) : Option String :=
  ((lines settings).findSome? callsignOfLine?).map String.ofList

/-- The callsign in the file of the node's settings. A file that cannot be read
    has none. -/
def Config.File.callsign? (file : File) : Option String :=
  file.text.toOption.bind callsignOf?

/-- The callsign in the node's settings, if they are found. -/
def Config.discoveredCallsign? (home? : Option String) (files : String → File) : Option String :=
  (nodeSettingsPath? home?).bind fun path => (files path).callsign?

/-- Takes a callsign from the node's settings if no other is given. -/
def Config.withCallsign (c : Config) (discovered : Option String) : Config :=
  { c with node := { c.node with callsign := c.node.callsign <|> discovered } }

end PacketMonitor
