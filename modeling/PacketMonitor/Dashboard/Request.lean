import PacketMonitor.Text.Pieces

namespace PacketMonitor.Dashboard

open Text

/-- What a dashboard asks for. Only a connection that can change over to a stream
    of messages is upgradable. -/
structure Request where
  target : String
  method : String := "GET"
  headers : List (String × String) := []
  upgradable : Bool := false
  deriving DecidableEq, Repr

namespace Request

/-- Whether two texts are the same up to the case of letters. -/
def sameWord (a b : String) : Bool :=
  a.toLower == b.toLower

/-- The value of the first header field of a name. -/
def header? (r : Request) (name : String) : Option String :=
  (r.headers.find? (sameWord ·.1 name)).map (·.2)

/-- Whether a header field has just the given value. -/
def equals (r : Request) (name value : String) : Bool :=
  (r.header? name).any (sameWord · value)

/-- Whether a header field has the given word somewhere in its value. -/
def mentions (r : Request) (name word : String) : Bool :=
  (r.header? name).any fun value =>
    (splitFirst? word.toLower.toList value.toLower.toList).isSome

/-- Whether a character may stand in the scheme of an address. -/
def isSchemeLetter (c : Char) : Bool :=
  c.isAlphanum || c == '+' || c == '-' || c == '.'

/-- A full address without its scheme and the name of its server. Any other target
    stays as it is. -/
def resource (target : List Char) : List Char :=
  match splitFirst? [':', '/', '/'] target with
  | some (scheme, rest) =>
    if !scheme.isEmpty && scheme.all isSchemeLetter then
      match rest.dropWhile fun c => c != '/' && c != '?' && c != '#' with
      | '/' :: path => '/' :: path
      | others => '/' :: others
    else target
  | none => target

/-- The part of a target that names a resource. A query does not belong to it. -/
def path (r : Request) : String :=
  String.ofList ((resource r.target.toList).takeWhile fun c => c != '?' && c != '#')

end Request

end PacketMonitor.Dashboard
