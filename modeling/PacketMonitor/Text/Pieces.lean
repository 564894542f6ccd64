namespace PacketMonitor.Text

/-- Cuts a list at every separator. There is one piece more than there are
    separators, so cutting the empty list gives one empty piece. -/
def pieces {α : Type} (isSeparator : α → Bool) (items : List α) : List (List α) :=
  items.foldr
    (fun item rest =>
      if isSeparator item then [] :: rest
      else match rest with
        | [] => [[item]]
        | piece :: others => (item :: piece) :: others)
    [[]]

@[simp] theorem pieces_nil {α : Type} (isSeparator : α → Bool) :
    pieces isSeparator [] = [[]] := rfl

theorem pieces_cons {α : Type} (isSeparator : α → Bool) (item : α) (items : List α) :
    pieces isSeparator (item :: items) =
      if isSeparator item then [] :: pieces isSeparator items
      else match pieces isSeparator items with
        | [] => [[item]]
        | piece :: others => (item :: piece) :: others := rfl

/-- The lines of a text: each ends at a line feed and loses one carriage
    return before it. A text that ends in a line feed has no empty last line. -/
def lines (text : List Char) : List (List Char) :=
  let all := pieces (· == '\n') text
  let kept := if all.getLast? == some [] then all.dropLast else all
  kept.map fun line => if line.getLast? == some '\r' then line.dropLast else line

/-- Splits a list around the first occurrence of a pattern. `before` holds, in
    reverse, what was passed already. -/
def splitFirstFrom? {α : Type} [BEq α] (pattern before : List α) :
    List α → Option (List α × List α)
  | [] => if pattern.isEmpty then some (before.reverse, []) else none
  | item :: rest =>
    if pattern.isPrefixOf (item :: rest) then
      some (before.reverse, (item :: rest).drop pattern.length)
    else splitFirstFrom? pattern (item :: before) rest

/-- The parts before and after the first occurrence of a pattern. -/
def splitFirst? {α : Type} [BEq α] (pattern items : List α) : Option (List α × List α) :=
  splitFirstFrom? pattern [] items

/-- What follows the last occurrence of a pattern. -/
def afterLast? {α : Type} [BEq α] (pattern items : List α) : Option (List α) :=
  (splitFirst? pattern.reverse items.reverse).map (·.1.reverse)

end PacketMonitor.Text
