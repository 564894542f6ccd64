import PacketMonitor.Json.Writer

namespace PacketMonitor.Dashboard

/-- What dashboards are answered: a status, header fields in order, and a body. -/
structure Response where
  status : Nat
  headers : List (String × String) := []
  body : String := ""
  deriving DecidableEq, Repr

namespace Response

/-- A response without anything but its status. -/
def bare (status : Nat) : Response where
  status

/-- A response in words. -/
def plain (status : Nat) (body : String) : Response where
  status
  headers := [("content-type", "text/plain; charset=utf-8")]
  body

/-- A response that carries a document. -/
def json (status : Nat) (body : Json) : Response where
  status
  headers := [("content-type", "application/json")]
  body := body.compact

/-- The value of a header field. -/
def header? (r : Response) (name : String) : Option String :=
  r.headers.lookup name

/-- Adds a header field. -/
def withHeader (r : Response) (name value : String) : Response :=
  { r with headers := r.headers ++ [(name, value)] }

/-- The response to somebody who asks for the header fields only. -/
def withoutBody (r : Response) : Response :=
  { r with body := "" }

/-- A response that pages from everywhere may read. -/
def shared (r : Response) : Response :=
  (r.withHeader "vary"
    "origin, access-control-request-method, access-control-request-headers").withHeader
      "access-control-allow-origin" "*"

/-- The answer to a page that asks what it may do. Everything is allowed. -/
def allowance : Response :=
  ((bare 200).withHeader "access-control-allow-methods" "*").withHeader
    "access-control-allow-headers" "*"

end Response

end PacketMonitor.Dashboard
