import PacketMonitor.Json.Value
import PacketMonitor.Text.Numeral

namespace PacketMonitor.Json

open Text

/-- A character inside a string. Quotes, backslashes and control characters are
    escaped, the common ones by a letter and the rest by number. -/
def escape (c : Char) : List Char :=
  if c = '"' then ['\\', '"']
  else if c = '\\' then ['\\', '\\']
  else if c = '\x08' then ['\\', 'b']
  else if c = '\x0c' then ['\\', 'f']
  else if c = '\n' then ['\\', 'n']
  else if c = '\r' then ['\\', 'r']
  else if c = '\t' then ['\\', 't']
  else if c.toNat < 0x20 then ['\\', 'u', '0', '0'] ++ hexByte c.toNat.toUInt8
  else [c]

/-- A string in quotes. -/
def writeString (s : String) : List Char :=
  '"' :: (s.toList.flatMap escape ++ ['"'])

/-- Writes parts with commas between them. -/
def commaSeparated : List (List Char) → List Char
  | [] => []
  | [part] => part
  | part :: rest => part ++ ',' :: commaSeparated rest

/-- Writes a document without any white space. -/
def write : Json → List Char
  | null => "null".toList
  | bool true => "true".toList
  | bool false => "false".toList
  | natural n => Nat.toDigits 10 n
  | number literal => literal.toList
  | str s => writeString s
  | array items => '[' :: (commaSeparated (writeItems items) ++ [']'])
  | object members => '\x7b' :: (commaSeparated (writeMembers members) ++ ['\x7d'])
where
  /-- The items of an array, each written on its own. -/
  writeItems : List Json → List (List Char)
    | [] => []
    | item :: rest => write item :: writeItems rest
  /-- The members of an object, each written on its own. -/
  writeMembers : List (String × Json) → List (List Char)
    | [] => []
    | (name, value) :: rest => (writeString name ++ ':' :: write value) :: writeMembers rest

/-- A document on one line. -/
def compact (json : Json) : String :=
  String.ofList (write json)

end PacketMonitor.Json
