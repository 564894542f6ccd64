import PacketMonitor.Event
import PacketMonitor.Frame

namespace PacketMonitor.Stream

/-- What is published about some frames, in order. -/
def published (color : RouteColor) (frames : List (List UInt8)) : List Event :=
  frames.flatMap fun raw => Event.ofFrame color (Frame.clean raw)

/-- What an archive holds of some frames: every byte of each, and no other. -/
def archived (frames : List (List UInt8)) : List UInt8 :=
  frames.flatten

/-- What is shown on the console for some frames, each with a line feed. -/
def echoed (frames : List (List UInt8)) : String :=
  String.join (frames.map fun raw => Frame.clean raw ++ "\n")

end PacketMonitor.Stream
