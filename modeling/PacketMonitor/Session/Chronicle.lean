import PacketMonitor.Hub
import PacketMonitor.Session.Status
import PacketMonitor.Stream.Report
import PacketMonitor.Stream.Run

namespace PacketMonitor.Session

/-- What can happen while sessions come and go: the status changes, an attempt to
    connect begins, a message is flushed, a frame arrives, a segment is consumed,
    the stream ends, or the connection is let go. -/
inductive Happening where
  | status (status : Status)
  | attempt
  | sent (bytes : List UInt8)
  | frame (raw : List UInt8)
  | consumed (segment : Nat)
  | ended
  | closed
  deriving DecidableEq, Repr

/-- What an occurrence on the stream means for the session. -/
def Happening.ofOccurrence : Stream.Occurrence → Happening
  | .told (.entered phase) => .status (.monitor phase)
  | .told (.frame raw) => .frame raw
  | .consumed segment => .consumed segment
  | .ended => .ended

/-- Something that happened at a time and belongs to a connection. Connections
    are numbered by the attempts that made them. -/
structure Entry where
  time : Nat
  connection : Nat
  happening : Happening
  deriving DecidableEq, Repr

/-- All that happened, in order. -/
abbrev Chronicle := List Entry

namespace Chronicle

/-- The chronicle of happenings on one connection. -/
def ofTimed (connection : Nat) (happenings : List (Nat × Happening)) : Chronicle :=
  happenings.map fun (time, happening) => ⟨time, connection, happening⟩

/-- The frames that arrived. -/
def frames (chronicle : Chronicle) : List (List UInt8) :=
  chronicle.filterMap fun entry =>
    match entry.happening with
    | .frame raw => some raw
    | _ => none

/-- The statuses that were set, each with its time. -/
def statuses (chronicle : Chronicle) : List (Nat × Status) :=
  chronicle.filterMap fun entry =>
    match entry.happening with
    | .status status => some (entry.time, status)
    | _ => none

/-- The statuses in order, from the initial one on. -/
def statusSequence (chronicle : Chronicle) : List Status :=
  .initial :: chronicle.statuses.map (·.2)

/-- The status at a time. -/
def statusAt (chronicle : Chronicle) (time : Nat) : Status :=
  ((chronicle.statuses.filter (·.1 ≤ time)).getLast?.map (·.2)).getD .initial

end Chronicle

/-- What an observer sees at some point: the status, and the hub with all that
    was published. -/
structure View where
  status : Status
  hub : Hub

/-- Follows one entry. Frames are published as they arrive. -/
def View.follow (color : RouteColor) (view : View) (entry : Entry) : View :=
  match entry.happening with
  | .status status => { view with status }
  | .frame raw => { view with hub := view.hub.publishAll (Stream.published color [raw]) }
  | _ => view

/-- The view right after each entry. -/
def View.along (color : RouteColor) (view : View) : Chronicle → List (Entry × View)
  | [] => []
  | entry :: rest =>
    let view := view.follow color entry
    (entry, view) :: View.along color view rest

/-- The view at the end of a chronicle. -/
def View.finally (color : RouteColor) (view : View) (chronicle : Chronicle) : View :=
  chronicle.foldl (View.follow color) view

end PacketMonitor.Session
