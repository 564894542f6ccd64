namespace PacketMonitor

/-- A JSON document. An unsigned whole number is kept by value, any other
    number as it was written. Members keep their order and may repeat. -/
inductive Json where
  | null
  | bool (value : Bool)
  | natural (value : Nat)
  | number (literal : String)
  | str (value : String)
  | array (items : List Json)
  | object (members : List (String × Json))
  deriving Repr, Inhabited

namespace Json

/-- The text of a string value. -/
def str? : Json → Option String
  | str s => some s
  | _ => none

/-- An unsigned whole number below a limit. -/
def naturalBelow? (limit : Nat) : Json → Option Nat
  | natural n => if n < limit then some n else none
  | _ => none

/-- The value of a name that occurs exactly once. -/
def single? (name : String) (members : List (String × Json)) : Option Json :=
  match members.filter (·.1 == name) with
  | [(_, value)] => some value
  | _ => none

/-- The values of a record in the order of its names. An object gives each name
    once and may hold more, an array gives just the values in order. -/
def fields? (names : List String) : Json → Option (List Json)
  | object members => names.mapM (single? · members)
  | array items => if items.length = names.length then some items else none
  | _ => none

/-- Separates the tag of a tagged record from its content. The tag is the named
    member of an object or the first item of an array. -/
def tagged? (name : String) : Json → Option (String × Json)
  | object members =>
    match single? name members with
    | some (str tag) => some (tag, object (members.filter (·.1 != name)))
    | _ => none
  | array (str tag :: items) => some (tag, array items)
  | _ => none

end Json

end PacketMonitor
