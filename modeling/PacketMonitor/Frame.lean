import PacketMonitor.Text.Utf8

namespace PacketMonitor.Frame

open Text

/-- Ends every frame of the monitor stream. -/
def terminator : UInt8 := 0xFE

/-- Removes a given ending once, if it is there. -/
def dropEnd (ending bytes : List UInt8) : List UInt8 :=
  if ending.isSuffixOf bytes then bytes.take (bytes.length - ending.length) else bytes

/-- Removes a given beginning once, if it is there. -/
def dropStart (start bytes : List UInt8) : List UInt8 :=
  if start.isPrefixOf bytes then bytes.drop start.length else bytes

/-- Removes one terminal escape. The longer form goes first, since the shorter
    one is its beginning. -/
def stripEscape (bytes : List UInt8) : List UInt8 :=
  if [0xFF, 0x1B, 0x11].isPrefixOf bytes then bytes.drop 3 else dropStart [0xFF, 0x1B] bytes

/-- The bytes of a frame that carry text: without terminator, escape, one
    opening bracket and one carriage return at the end. -/
def body (raw : List UInt8) : List UInt8 :=
  dropEnd [0x0D] (dropStart [0x5B] (stripEscape (dropEnd [terminator] raw)))

/-- The text of a frame. Carriage returns separate lines, and ill-formed bytes
    are replaced. -/
def clean (raw : List UInt8) : String :=
  String.ofList ((Utf8.decodeLossy (body raw)).map fun c => if c = '\r' then '\n' else c)

end PacketMonitor.Frame
