import PacketMonitor.Proofs.Json.Tokens

namespace PacketMonitor.Json

open Text

/-- A piece of a document: a value, an item of an array or a member of an object with
    the white space around it, or all of these between two brackets. -/
inductive Part where
  | value (json : Json)
  | item (json : Json)
  | member (name : String) (json : Json)
  | items (items : List Json)
  | members (members : List (String × Json))

/-- White space and nothing else. -/
def Blank (gap : List Char) : Prop := ∀ c ∈ gap, isSpace c = true

/-- The texts of a document that is nested at most so deep. White space may stand
    anywhere between tokens, and strings are escaped as far as they have to be. -/
inductive Spells : Nat → Part → List Char → Prop where
  | null (depth : Nat) : Spells depth (.value .null) (write .null)
  | bool (depth : Nat) (value : Bool) : Spells depth (.value (.bool value)) (write (.bool value))
  | str (depth : Nat) (s : String) : Spells depth (.value (.str s)) (writeString s)
  | number (depth : Nat) (numeral : Numeral) : Spells depth (.value numeral.json) numeral.text
  | array {depth : Nat} {items : List Json} {text : List Char}
    (hitems : Spells depth (.items items) text) :
    Spells (depth + 1) (.value (.array items)) ('[' :: (text ++ [']']))
  | object {depth : Nat} {members : List (String × Json)} {text : List Char}
    (hmembers : Spells depth (.members members) text) :
    Spells (depth + 1) (.value (.object members)) ('\x7b' :: (text ++ ['\x7d']))
  | item {depth : Nat} {json : Json} {before text after : List Char} (hbefore : Blank before)
    (hjson : Spells depth (.value json) text) (hafter : Blank after) :
    Spells depth (.item json) (before ++ (text ++ after))
  | member {depth : Nat} {json : Json} {before middle text : List Char} (name : String)
    (hbefore : Blank before) (hmiddle : Blank middle) (hjson : Spells depth (.item json) text) :
    Spells depth (.member name json) (before ++ (writeString name ++ (middle ++ ':' :: text)))
  | noItems (depth : Nat) {gap : List Char} (hgap : Blank gap) : Spells depth (.items []) gap
  | lastItem {depth : Nat} {json : Json} {text : List Char} (hjson : Spells depth (.item json) text) :
    Spells depth (.items [json]) text
  | moreItems {depth : Nat} {json next : Json} {items : List Json} {text later : List Char}
    (hjson : Spells depth (.item json) text) (hlater : Spells depth (.items (next :: items)) later) :
    Spells depth (.items (json :: next :: items)) (text ++ ',' :: later)
  | noMembers (depth : Nat) {gap : List Char} (hgap : Blank gap) : Spells depth (.members []) gap
  | lastMember {depth : Nat} {name : String} {json : Json} {text : List Char}
    (hjson : Spells depth (.member name json) text) : Spells depth (.members [(name, json)]) text
  | moreMembers {depth : Nat} {name : String} {json : Json} {next : String × Json}
    {members : List (String × Json)} {text later : List Char}
    (hjson : Spells depth (.member name json) text)
    (hlater : Spells depth (.members (next :: members)) later) :
    Spells depth (.members ((name, json) :: next :: members)) (text ++ ',' :: later)

/-- Whether all numbers of a document lie within the range of double precision. -/
def inRange : Json → Bool
  | .natural n => scalesWithinDouble (Nat.toDigits 10 n) [] 0
  | .number literal => (number? literal.toList).isSome
  | .array items => itemsInRange items
  | .object members => membersInRange members
  | _ => true
where
  /-- Whether all items are in range. -/
  itemsInRange : List Json → Bool
    | [] => true
    | item :: rest => inRange item && itemsInRange rest
  /-- Whether the values of all members are in range. -/
  membersInRange : List (String × Json) → Bool
    | [] => true
    | (_, value) :: rest => inRange value && membersInRange rest

theorem Numeral.inRange_json (numeral : Numeral) : numeral.json.inRange = numeral.isInRange := by
  have hdelimited : Delimited [] := fun _ hc => nomatch hc
  have hnumber := numeral.number?_text hdelimited
  rw [List.append_nil] at hnumber
  rw [json]
  split
  · rename_i hplain
    simp only [Bool.and_eq_true, Bool.not_eq_true', List.isEmpty_iff, Option.isNone_iff_eq_none] at hplain
    obtain ⟨⟨-, hfraction⟩, hexponent⟩ := hplain
    rw [isInRange, hfraction, hexponent]
    rfl
  · rw [inRange, String.toList_ofList, hnumber]
    cases numeral.isInRange <;> rfl

theorem ne_of_isDigitOf {c other : Char} (hc : isDigitOf 10 c = true)
    (hother : isDigitOf 10 other = false) : c ≠ other := by
  rintro rfl
  cases hc.symm.trans hother

theorem isSpace_of_isDigitOf {c : Char} (hc : isDigitOf 10 c = true) : isSpace c = false := by
  simp only [isSpace, Bool.or_eq_false_iff, beq_eq_false_iff_ne]
  exact ⟨⟨⟨ne_of_isDigitOf hc rfl, ne_of_isDigitOf hc rfl⟩, ne_of_isDigitOf hc rfl⟩,
    ne_of_isDigitOf hc rfl⟩

/-- A number begins with its sign or with a digit, and neither of them is white space. -/
theorem isSpace_of_number {c : Char} (hc : c = '-' ∨ isDigitOf 10 c = true) : isSpace c = false := by
  obtain rfl | hdigit := hc
  · rfl
  · exact isSpace_of_isDigitOf hdigit

theorem ne_of_number {c other : Char} (hc : c = '-' ∨ isDigitOf 10 c = true)
    (hsign : '-' ≠ other) (hother : isDigitOf 10 other = false) : c ≠ other := by
  obtain rfl | hdigit := hc
  · exact hsign
  · exact ne_of_isDigitOf hdigit hother

theorem skipSpace_append {gap : List Char} (hgap : Blank gap) (text : List Char) :
    skipSpace (gap ++ text) = skipSpace text :=
  List.dropWhile_append_of_pos hgap

theorem skipSpace_cons {c : Char} (hc : isSpace c = false) (text : List Char) :
    skipSpace (c :: text) = c :: text :=
  List.dropWhile_cons_of_neg (Bool.not_eq_true _ ▸ hc)

theorem skipSpace_skipSpace (text : List Char) : skipSpace (skipSpace text) = skipSpace text := by
  induction text with
  | nil => rfl
  | cons c text ih =>
    cases hc : isSpace c with
    | true =>
      have hskip : skipSpace (c :: text) = skipSpace text := List.dropWhile_cons_of_pos hc
      rwa [hskip]
    | false => rw [skipSpace_cons hc, skipSpace_cons hc]

theorem value?_skipSpace (fuel depth : Nat) (text : List Char) :
    value? fuel depth (skipSpace text) = value? fuel depth text := by
  cases fuel with
  | zero => rfl
  | succ fuel => rw [value?, value?, skipSpace_skipSpace]

theorem items?_skipSpace (fuel depth : Nat) (done : List Json) (text : List Char) :
    items? fuel depth done (skipSpace text) = items? fuel depth done text := by
  cases fuel with
  | zero => rfl
  | succ fuel => rw [items?, items?, value?_skipSpace]

theorem members?_skipSpace (fuel depth : Nat) (done : List (String × Json)) (text : List Char) :
    members? fuel depth done (skipSpace text) = members? fuel depth done text := by
  cases fuel with
  | zero => rfl
  | succ fuel => rw [members?, members?, skipSpace_skipSpace]

theorem value?_append {gap : List Char} (hgap : Blank gap) (fuel depth : Nat) (text : List Char) :
    value? fuel depth (gap ++ text) = value? fuel depth text := by
  rw [← value?_skipSpace, skipSpace_append hgap, value?_skipSpace]

theorem delimited_append {gap rest : List Char} (hgap : Blank gap) (hrest : Delimited rest) :
    Delimited (gap ++ rest) := by
  cases gap with
  | nil => exact hrest
  | cons c gap =>
    rintro _ ⟨⟩
    exact .inl (hgap c (List.mem_cons_self ..))

theorem delimited_cons {c : Char} (hc : c ∈ [',', ']', '\x7d']) (rest : List Char) :
    Delimited (c :: rest) := by
  rintro _ ⟨⟩
  exact .inr hc

/-- A text in which something else than a closing bracket comes first. -/
def Opens (text : List Char) : Prop :=
  ∃ gap c tail, text = gap ++ c :: tail ∧ Blank gap ∧ isSpace c = false ∧ c ≠ ']' ∧ c ≠ '\x7d'

theorem Opens.append {text : List Char} (hopens : Opens text) (rest : List Char) :
    Opens (text ++ rest) := by
  obtain ⟨gap, c, tail, rfl, hgap, hc⟩ := hopens
  exact ⟨gap, c, tail ++ rest, by rw [List.append_assoc, List.cons_append], hgap, hc⟩

theorem Opens.skipSpace_eq {text : List Char} (hopens : Opens text) :
    ∃ c tail, skipSpace text = c :: tail ∧ c ≠ ']' ∧ c ≠ '\x7d' := by
  obtain ⟨gap, c, tail, rfl, hgap, hspace, hc⟩ := hopens
  exact ⟨c, tail, by rw [skipSpace_append hgap, skipSpace_cons hspace], hc⟩

namespace Spells

variable {depth : Nat} {text : List Char}

theorem opens_value {json : Json} (hspells : Spells depth (.value json) text) : Opens text := by
  have hblank : Blank [] := List.forall_mem_nil _
  cases hspells with
  | number depth numeral =>
    obtain ⟨c, tail, htext, hc⟩ := numeral.exists_text_eq_cons
    exact ⟨[], c, tail, htext, hblank, isSpace_of_number hc, ne_of_number hc (by decide) rfl,
      ne_of_number hc (by decide) rfl⟩
  | bool depth value => cases value <;> exact ⟨[], _, _, rfl, hblank, rfl, by decide, by decide⟩
  | null | str | array | object => exact ⟨[], _, _, rfl, hblank, rfl, by decide, by decide⟩

theorem opens_item {json : Json} (hspells : Spells depth (.item json) text) : Opens text := by
  cases hspells with
  | @item _ _ before text after hbefore hjson hafter =>
    obtain ⟨gap, c, tail, rfl, hgap, hc⟩ := hjson.opens_value
    refine ⟨before ++ gap, c, tail ++ after, by simp, ?_, hc⟩
    exact List.forall_mem_append.mpr ⟨hbefore, hgap⟩

theorem opens_member {name : String} {json : Json} (hspells : Spells depth (.member name json) text) :
    Opens text := by
  cases hspells with
  | @member _ _ before middle text _ hbefore hmiddle hjson =>
    exact ⟨before, _, _, rfl, hbefore, rfl, by decide, by decide⟩

end Spells

/-- How an array goes on after an item. -/
def afterItem (fuel depth : Nat) (done : List Json) : List Char → Option (List Json × List Char)
  | ',' :: rest => items? fuel depth done rest
  | ']' :: rest => some (done.reverse, rest)
  | _ => none

/-- How an object goes on after a member. -/
def afterMember (fuel depth : Nat) (done : List (String × Json)) :
    List Char → Option (List (String × Json) × List Char)
  | ',' :: rest => members? fuel depth done rest
  | '\x7d' :: rest => some (done.reverse, rest)
  | _ => none

/-- What it means for the reader that a text spells a piece of a document. It takes the
    text as this piece, or it does not take it at all: because of a number. -/
def Reads (depth : Nat) (text : List Char) : Part → Prop
  | .value json => ∀ fuel rest, text.length ≤ fuel → Delimited rest →
      value? (fuel + 1) depth (text ++ rest) = if json.inRange then some (json, rest) else none
  | .item json => ∃ after, Blank after ∧ ∀ fuel rest, text.length ≤ fuel → Delimited rest →
      value? (fuel + 1) depth (text ++ rest) =
        if json.inRange then some (json, after ++ rest) else none
  | .member name json => ∀ fuel rest done, text.length ≤ fuel → Delimited rest →
      members? (fuel + 2) depth done (text ++ rest) =
        if json.inRange then afterMember (fuel + 1) depth ((name, json) :: done) (skipSpace rest)
        else none
  | .items [] => Blank text
  | .items items => Opens text ∧ ∀ fuel rest done, text.length ≤ fuel →
      items? (fuel + 2) depth done (text ++ ']' :: rest) =
        if inRange.itemsInRange items then some (done.reverse ++ items, rest) else none
  | .members [] => Blank text
  | .members members => Opens text ∧ ∀ fuel rest done, text.length ≤ fuel →
      members? (fuel + 2) depth done (text ++ '\x7d' :: rest) =
        if inRange.membersInRange members then some (done.reverse ++ members, rest) else none

theorem value?_of_number {c : Char} (hc : c = '-' ∨ isDigitOf 10 c = true) (fuel depth : Nat)
    (tail : List Char) : value? (fuel + 1) depth (c :: tail) = number? (c :: tail) := by
  rw [value?, skipSpace_cons (isSpace_of_number hc)]
  split
  · rename_i heq
    exact absurd (List.cons.inj heq).1 (ne_of_number hc (by decide) rfl)
  · rename_i heq
    exact absurd (List.cons.inj heq).1 (ne_of_number hc (by decide) rfl)
  · rename_i heq
    exact absurd (List.cons.inj heq).1 (ne_of_number hc (by decide) rfl)
  · rename_i heq
    obtain ⟨rfl, rfl⟩ := List.cons.inj heq
    exact if_pos hc
  · rename_i heq
    cases heq

namespace Reads

variable {depth : Nat} {text : List Char}

theorem null (depth : Nat) : Reads depth (write .null) (.value .null) :=
  fun _ _ _ _ => rfl

theorem bool (depth : Nat) (value : Bool) : Reads depth (write (.bool value)) (.value (.bool value)) := by
  cases value <;> exact fun _ _ _ _ => rfl

theorem str (depth : Nat) (s : String) : Reads depth (writeString s) (.value (.str s)) := by
  intro fuel rest _ _
  have hquote : isSpace '"' = false := rfl
  rw [writeString, List.cons_append, List.append_assoc, value?, skipSpace_cons hquote]
  simp only [List.singleton_append, string?_flatMap_escape, Option.map_some]
  rfl

theorem number (depth : Nat) (numeral : Numeral) : Reads depth numeral.text (.value numeral.json) := by
  intro fuel rest _ hrest
  obtain ⟨c, tail, htext, hc⟩ := numeral.exists_text_eq_cons
  have hnumber := numeral.number?_text hrest
  rw [htext, List.cons_append] at hnumber ⊢
  rwa [value?_of_number hc, numeral.inRange_json]

theorem array {items : List Json} (hreads : Reads depth text (.items items)) :
    Reads (depth + 1) ('[' :: (text ++ [']'])) (.value (.array items)) := by
  intro fuel rest hfuel _
  have hbracket : isSpace '[' = false := rfl
  rw [List.cons_append, List.append_assoc, List.singleton_append, value?, skipSpace_cons hbracket]
  simp only
  cases items with
  | nil =>
    have hgap : Blank text := hreads
    have hclose : skipSpace (']' :: rest) = ']' :: rest := skipSpace_cons rfl rest
    rw [skipSpace_append hgap, hclose]
    rfl
  | cons item items =>
    obtain ⟨hopens, hread⟩ := hreads
    obtain ⟨c, tail, hskip, hc, -⟩ := (hopens.append (']' :: rest)).skipSpace_eq
    simp only [List.length_cons, List.length_append, List.length_nil] at hfuel
    obtain ⟨fuel, rfl⟩ : ∃ fuel', fuel = fuel' + 2 := ⟨fuel - 2, by omega⟩
    have hitems := hread fuel rest [] (by omega)
    rw [← items?_skipSpace, hskip] at hitems
    rw [hskip]
    split
    · rename_i heq
      exact absurd (List.cons.inj heq).1 hc
    · rw [hitems]
      exact apply_ite (Option.map _) _ _ _

theorem object {members : List (String × Json)} (hreads : Reads depth text (.members members)) :
    Reads (depth + 1) ('\x7b' :: (text ++ ['\x7d'])) (.value (.object members)) := by
  intro fuel rest hfuel _
  have hbrace : isSpace '\x7b' = false := rfl
  rw [List.cons_append, List.append_assoc, List.singleton_append, value?, skipSpace_cons hbrace]
  simp only
  cases members with
  | nil =>
    have hgap : Blank text := hreads
    have hclose : skipSpace ('\x7d' :: rest) = '\x7d' :: rest := skipSpace_cons rfl rest
    rw [skipSpace_append hgap, hclose]
    rfl
  | cons member members =>
    obtain ⟨hopens, hread⟩ := hreads
    obtain ⟨c, tail, hskip, -, hc⟩ := (hopens.append ('\x7d' :: rest)).skipSpace_eq
    simp only [List.length_cons, List.length_append, List.length_nil] at hfuel
    obtain ⟨fuel, rfl⟩ : ∃ fuel', fuel = fuel' + 2 := ⟨fuel - 2, by omega⟩
    have hmembers := hread fuel rest [] (by omega)
    rw [← members?_skipSpace, hskip] at hmembers
    rw [hskip]
    split
    · rename_i heq
      exact absurd (List.cons.inj heq).1 hc
    · rw [hmembers]
      exact apply_ite (Option.map _) _ _ _

theorem item {json : Json} {before after : List Char} (hbefore : Blank before)
    (hreads : Reads depth text (.value json)) (hafter : Blank after) :
    Reads depth (before ++ (text ++ after)) (.item json) := by
  refine ⟨after, hafter, fun fuel rest hfuel hrest => ?_⟩
  simp only [List.length_append] at hfuel
  rw [List.append_assoc, List.append_assoc, value?_append hbefore]
  exact hreads fuel (after ++ rest) (by omega) (delimited_append hafter hrest)

theorem member {json : Json} {before middle : List Char} (name : String) (hbefore : Blank before)
    (hmiddle : Blank middle) (hreads : Reads depth text (.item json)) :
    Reads depth (before ++ (writeString name ++ (middle ++ ':' :: text))) (.member name json) := by
  intro fuel rest done hfuel hrest
  obtain ⟨after, hafter, hread⟩ := hreads
  simp only [List.length_append, List.length_cons] at hfuel
  have hvalue := hread fuel rest (by omega) hrest
  have hquote : isSpace '"' = false := rfl
  have hcolon : isSpace ':' = false := rfl
  rw [← members?_skipSpace, List.append_assoc, skipSpace_append hbefore, members?_skipSpace, members?]
  rw [List.append_assoc, writeString, List.cons_append, skipSpace_cons hquote]
  simp only [List.append_assoc, List.cons_append, List.nil_append, string?_flatMap_escape,
    skipSpace_append hmiddle, skipSpace_cons hcolon, hvalue]
  cases json.inRange with
  | false => rfl
  | true =>
    exact congrArg (afterMember (fuel + 1) depth ((name, json) :: done)) (skipSpace_append hafter rest)

/-- An item is read, and what comes after it decides how to go on. -/
theorem items?_eq {json : Json} (hreads : Reads depth text (.item json)) {fuel : Nat}
    {rest : List Char} (done : List Json) (hfuel : text.length ≤ fuel) (hrest : Delimited rest) :
    items? (fuel + 2) depth done (text ++ rest) =
      if json.inRange then afterItem (fuel + 1) depth (json :: done) (skipSpace rest) else none := by
  obtain ⟨after, hafter, hread⟩ := hreads
  rw [items?, hread fuel rest hfuel hrest]
  cases json.inRange with
  | false => rfl
  | true => exact congrArg (afterItem (fuel + 1) depth (json :: done)) (skipSpace_append hafter rest)

theorem lastItem {json : Json} (hopens : Opens text) (hreads : Reads depth text (.item json)) :
    Reads depth text (.items [json]) := by
  refine ⟨hopens, fun fuel rest done hfuel => ?_⟩
  have hclose : skipSpace (']' :: rest) = ']' :: rest := skipSpace_cons rfl rest
  rw [hreads.items?_eq done hfuel (delimited_cons (by decide) rest), hclose, afterItem,
    List.reverse_cons, inRange.itemsInRange, inRange.itemsInRange, Bool.and_true]

theorem moreItems {json next : Json} {items : List Json} {later : List Char} (hopens : Opens text)
    (hreads : Reads depth text (.item json)) (hlater : Reads depth later (.items (next :: items))) :
    Reads depth (text ++ ',' :: later) (.items (json :: next :: items)) := by
  obtain ⟨-, hread⟩ := hlater
  refine ⟨hopens.append _, fun fuel rest done hfuel => ?_⟩
  have hcomma : ∀ rest, skipSpace (',' :: rest) = ',' :: rest := fun rest => skipSpace_cons rfl rest
  have hrange : inRange.itemsInRange (json :: next :: items) =
      (json.inRange && inRange.itemsInRange (next :: items)) := rfl
  simp only [List.length_append, List.length_cons] at hfuel
  obtain ⟨fuel, rfl⟩ : ∃ fuel', fuel = fuel' + 1 := ⟨fuel - 1, by omega⟩
  rw [List.append_assoc, List.cons_append,
    hreads.items?_eq done (by omega) (delimited_cons (by decide) _), hcomma, afterItem,
    hread fuel rest _ (by omega), List.reverse_cons, List.append_assoc, List.singleton_append, hrange]
  cases json.inRange with
  | false => rfl
  | true => rw [Bool.true_and, if_pos rfl]

theorem lastMember {name : String} {json : Json} (hopens : Opens text)
    (hreads : Reads depth text (.member name json)) : Reads depth text (.members [(name, json)]) := by
  refine ⟨hopens, fun fuel rest done hfuel => ?_⟩
  have hclose : skipSpace ('\x7d' :: rest) = '\x7d' :: rest := skipSpace_cons rfl rest
  rw [hreads fuel _ done hfuel (delimited_cons (by decide) rest), hclose, afterMember,
    List.reverse_cons, inRange.membersInRange, inRange.membersInRange, Bool.and_true]

theorem moreMembers {name : String} {json : Json} {next : String × Json}
    {members : List (String × Json)} {later : List Char} (hopens : Opens text)
    (hreads : Reads depth text (.member name json))
    (hlater : Reads depth later (.members (next :: members))) :
    Reads depth (text ++ ',' :: later) (.members ((name, json) :: next :: members)) := by
  obtain ⟨-, hread⟩ := hlater
  refine ⟨hopens.append _, fun fuel rest done hfuel => ?_⟩
  have hcomma : ∀ rest, skipSpace (',' :: rest) = ',' :: rest := fun rest => skipSpace_cons rfl rest
  have hrange : inRange.membersInRange ((name, json) :: next :: members) =
      (json.inRange && inRange.membersInRange (next :: members)) := rfl
  simp only [List.length_append, List.length_cons] at hfuel
  obtain ⟨fuel, rfl⟩ : ∃ fuel', fuel = fuel' + 1 := ⟨fuel - 1, by omega⟩
  rw [List.append_assoc, List.cons_append,
    hreads (fuel + 1) _ done (by omega) (delimited_cons (by decide) _), hcomma, afterMember,
    hread fuel rest _ (by omega), List.reverse_cons, List.append_assoc, List.singleton_append, hrange]
  cases json.inRange with
  | false => rfl
  | true => rw [Bool.true_and, if_pos rfl]

end Reads

/-- The reader takes every text of a document for this document, unless a number is out of
    range. -/
theorem Spells.reads {depth : Nat} {part : Part} {text : List Char}
    (hspells : Spells depth part text) : Reads depth text part := by
  induction hspells with
  | null depth => exact .null depth
  | bool depth value => exact .bool depth value
  | str depth s => exact .str depth s
  | number depth numeral => exact .number depth numeral
  | array _ ih => exact ih.array
  | object _ ih => exact ih.object
  | item hbefore _ hafter ih => exact ih.item hbefore hafter
  | member name hbefore hmiddle _ ih => exact ih.member name hbefore hmiddle
  | noItems depth hgap => exact hgap
  | lastItem hjson ih => exact ih.lastItem hjson.opens_item
  | moreItems hjson _ ih ihLater => exact ih.moreItems hjson.opens_item ihLater
  | noMembers depth hgap => exact hgap
  | lastMember hjson ih => exact ih.lastMember hjson.opens_member
  | moreMembers hjson _ ih ihLater => exact ih.moreMembers hjson.opens_member ihLater

/-- A document is read from any of its texts, with white space around it, unless it has a
    number that is out of range. -/
theorem read?_of_spells {json : Json} {text : String}
    (hspells : Spells maxDepth (.item json) text.toList) :
    read? text = if json.inRange then some json else none := by
  obtain ⟨after, hafter, hread⟩ := hspells.reads
  have hvalue := hread text.toList.length [] (Nat.le_refl _) (fun _ hc => nomatch hc)
  have hrest : skipSpace (after ++ []) = [] := skipSpace_append hafter []
  rw [List.append_nil] at hvalue
  rw [read?, hvalue]
  cases json.inRange with
  | false => rfl
  | true => simp only [hrest, List.isEmpty_nil, if_true]

/-- A document of strings, natural numbers of at most 64 bits, arrays and objects that is
    nested at most so deep. -/
inductive Plain : Nat → Json → Prop where
  | str (depth : Nat) (s : String) : Plain depth (.str s)
  | natural (depth : Nat) {n : Nat} (hn : n < UInt64.size) : Plain depth (.natural n)
  | array {depth : Nat} {items : List Json} (hitems : ∀ item ∈ items, Plain depth item) :
    Plain (depth + 1) (.array items)
  | object {depth : Nat} {members : List (String × Json)}
    (hmembers : ∀ member ∈ members, Plain depth member.2) : Plain (depth + 1) (.object members)

theorem itemsInRange_of_forall {items : List Json} (hitems : ∀ item ∈ items, item.inRange = true) :
    inRange.itemsInRange items = true := by
  induction items with
  | nil => rfl
  | cons item items ih =>
    obtain ⟨hitem, hitems⟩ := List.forall_mem_cons.mp hitems
    rw [inRange.itemsInRange, hitem, ih hitems]
    rfl

theorem membersInRange_of_forall {members : List (String × Json)}
    (hmembers : ∀ member ∈ members, member.2.inRange = true) :
    inRange.membersInRange members = true := by
  induction members with
  | nil => rfl
  | cons member members ih =>
    obtain ⟨hmember, hmembers⟩ := List.forall_mem_cons.mp hmembers
    rw [inRange.membersInRange, hmember, ih hmembers]
    rfl

theorem Plain.inRange {depth : Nat} {json : Json} (hplain : Plain depth json) :
    json.inRange = true := by
  induction hplain with
  | str => rfl
  | natural depth hn => exact scalesWithinDouble_toDigits hn
  | array _ ih => exact itemsInRange_of_forall ih
  | object _ ih => exact membersInRange_of_forall ih

theorem spells_item {depth : Nat} {json : Json} {text : List Char}
    (hjson : Spells depth (.value json) text) : Spells depth (.item json) text := by
  have hblank : Blank [] := List.forall_mem_nil _
  have hitem := Spells.item hblank hjson hblank
  rwa [List.append_nil] at hitem

theorem spells_member {depth : Nat} {json : Json} {text : List Char} (name : String)
    (hjson : Spells depth (.value json) text) :
    Spells depth (.member name json) (writeString name ++ ':' :: text) := by
  have hblank : Blank [] := List.forall_mem_nil _
  exact .member name hblank hblank (spells_item hjson)

theorem spells_writeItems {depth : Nat} {items : List Json}
    (hitems : ∀ item ∈ items, Spells depth (.value item) (write item)) :
    Spells depth (.items items) (commaSeparated (write.writeItems items)) := by
  induction items with
  | nil => exact .noItems depth (List.forall_mem_nil _)
  | cons item items ih =>
    have hitem := spells_item (hitems item (List.mem_cons_self ..))
    have hlater := ih fun later hlater => hitems later (List.mem_cons_of_mem _ hlater)
    cases items with
    | nil => exact .lastItem hitem
    | cons next items => exact .moreItems hitem hlater

theorem spells_writeMembers {depth : Nat} {members : List (String × Json)}
    (hmembers : ∀ member ∈ members, Spells depth (.value member.2) (write member.2)) :
    Spells depth (.members members) (commaSeparated (write.writeMembers members)) := by
  induction members with
  | nil => exact .noMembers depth (List.forall_mem_nil _)
  | cons member members ih =>
    have hmember := spells_member member.1 (hmembers member (List.mem_cons_self ..))
    have hlater := ih fun later hlater => hmembers later (List.mem_cons_of_mem _ hlater)
    cases members with
    | nil => exact .lastMember hmember
    | cons next members => exact .moreMembers hmember hlater

/-- The compact text is one of the texts of a document. -/
theorem Plain.spells_write {depth : Nat} {json : Json} (hplain : Plain depth json) :
    Spells depth (.value json) (write json) := by
  induction hplain with
  | str depth s => exact .str depth s
  | @natural depth n _ =>
    rw [write, ← Numeral.text_ofNat, ← Numeral.json_ofNat]
    exact .number depth (.ofNat n)
  | array _ ih => exact .array (spells_writeItems ih)
  | object _ ih => exact .object (spells_writeMembers ih)

theorem read?_compact {json : Json} (hplain : Plain maxDepth json) : read? json.compact = some json := by
  have hspells : Spells maxDepth (.item json) json.compact.toList := by
    rw [compact, String.toList_ofList]
    exact spells_item hplain.spells_write
  rw [read?_of_spells hspells, hplain.inRange, if_pos rfl]

end PacketMonitor.Json
