namespace PacketMonitor.Toml

/-- How a table came about, which decides what may still be added to it: written
    in braces, opened by a header, implied by the header of a table within it, or
    implied by a dotted key. -/
inductive Origin where
  | inline
  | header
  | implied
  | dotted
  deriving DecidableEq, Repr

/-- A part of a document. Numbers with a fraction and moments in time are only
    told apart from the rest. -/
inductive Node where
  | text (value : String)
  | integer (value : Int)
  | float
  | boolean (value : Bool)
  | moment
  | array (items : List Node)
  | table (origin : Origin) (entries : List (String × Node))
  | tables (elements : List (List (String × Node)))
  deriving Repr, Inhabited

/-- The keys of a table with what they stand for, in order. -/
abbrev Entries := List (String × Node)

namespace Entries

/-- What a key stands for. -/
def get? (entries : Entries) (key : String) : Option Node :=
  entries.lookup key

/-- Gives a key a new meaning in its old place, or a place at the end. -/
def set (key : String) (node : Node) : Entries → Entries
  | [] => [(key, node)]
  | (other, old) :: rest =>
    if other == key then (key, node) :: rest else (other, old) :: set key node rest

/-- Adds a value under a dotted key. The tables on the way must not be closed, and
    the table that receives it has to be new or made by dotted keys as well. -/
def put? (node : Node) : List String → Entries → Option Entries
  | [], _ => none
  | [key], entries =>
    match entries.get? key with
    | none => some (entries.set key node)
    | some _ => none
  | key :: rest, entries =>
    match entries.get? key with
    | none => (put? node rest []).map fun inner => entries.set key (.table .dotted inner)
    | some (.table .dotted inner) =>
      (put? node rest inner).map fun inner => entries.set key (.table .dotted inner)
    | some (.table .implied inner) =>
      if rest.length = 1 then none
      else (put? node rest inner).map fun inner => entries.set key (.table .implied inner)
    | some (.tables elements) =>
      match elements.getLast? with
      | none => none
      | some inner =>
        if rest.length = 1 then none
        else (put? node rest inner).map fun inner =>
          entries.set key (.tables (elements.dropLast ++ [inner]))
    | some _ => none

/-- Goes down along a header to the table whose last key it names, and changes
    that table. Missing tables are implied, and a list of tables stands for its
    last element. -/
def within? (change : String → Entries → Option Entries) : List String → Entries → Option Entries
  | [], _ => none
  | [key], entries => change key entries
  | key :: rest, entries =>
    match entries.get? key with
    | none => (within? change rest []).map fun inner => entries.set key (.table .implied inner)
    | some (.table .inline _) => none
    | some (.table origin inner) =>
      (within? change rest inner).map fun inner => entries.set key (.table origin inner)
    | some (.tables elements) =>
      match elements.getLast? with
      | none => none
      | some inner =>
        (within? change rest inner).map fun inner =>
          entries.set key (.tables (elements.dropLast ++ [inner]))
    | some _ => none

/-- Opens a table. It may have been implied before, but not opened or filled. -/
def openTable? : List String → Entries → Option Entries :=
  within? fun key entries =>
    match entries.get? key with
    | none => some (entries.set key (.table .header []))
    | some (.table .implied inner) => some (entries.set key (.table .header inner))
    | some _ => none

/-- Adds an element to a list of tables. -/
def openElement? : List String → Entries → Option Entries :=
  within? fun key entries =>
    match entries.get? key with
    | none => some (entries.set key (.tables [[]]))
    | some (.tables elements) => some (entries.set key (.tables (elements ++ [[]])))
    | some _ => none

/-- Adds a value under a dotted key to the table opened last. -/
def putUnder? (header path : List String) (node : Node) (entries : Entries) : Option Entries :=
  if header.isEmpty then entries.put? node path
  else
    entries.within? (fun key entries =>
      match entries.get? key with
      | some (.table origin inner) =>
        (put? node path inner).map fun inner => entries.set key (.table origin inner)
      | some (.tables elements) =>
        match elements.getLast? with
        | none => none
        | some inner =>
          (put? node path inner).map fun inner =>
            entries.set key (.tables (elements.dropLast ++ [inner]))
      | _ => none) header

end Entries

end PacketMonitor.Toml
