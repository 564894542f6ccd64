import PacketMonitor.Dashboard.Response

namespace PacketMonitor.Dashboard

/-- Why dashboards cannot be served. -/
inductive Fault where
  | internal (message : String)
  | unavailable (message : String)
  | io (message : String)
  deriving DecidableEq, Repr

namespace Fault

/-- The fault as shown to people. -/
def message : Fault → String
  | internal message => s!"Internal error: {message}"
  | unavailable message => s!"Service unavailable: {message}"
  | io message => s!"IO error: {message}"

/-- What lies behind the fault. -/
def cause? : Fault → Option String
  | io message => some message
  | _ => none

/-- The status of a response about the fault. -/
def status : Fault → Nat
  | unavailable _ => 503
  | _ => 500

/-- The fault by its name. -/
def code : Fault → String
  | internal _ => "INTERNAL_ERROR"
  | unavailable _ => "SERVICE_UNAVAILABLE"
  | io _ => "IO_ERROR"

/-- A response about the fault. The request gets a name, so that it can be found
    in the log. -/
def response (fault : Fault) (requestId : String) : Response :=
  .json fault.status (.object [
    ("error", .object [("code", .str fault.code), ("message", .str fault.message)]),
    ("request_id", .str requestId)])

end Fault

end PacketMonitor.Dashboard
