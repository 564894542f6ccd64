import PacketMonitor.Proofs.Event.Wire

namespace PacketMonitor

open Json

namespace Json

/-- Where one document is a number, the other one is a number below the limit. -/
def Alike (limit : Nat) (json other : Json) : Prop :=
  ∀ n, json = natural n → ∃ m < limit, other = natural m

theorem alike_str (limit : Nat) (s : String) (other : Json) : Alike limit (str s) other :=
  fun _ hn => nomatch hn

theorem alike_natural {limit m : Nat} (n : Nat) (hm : m < limit) : Alike limit (natural n) (natural m) :=
  fun _ _ => ⟨m, hm, rfl⟩

/-- The values of a name in two lists correspond to each other. -/
theorem exists_mem_zip {R : Json → Json → Prop} {names : List String} {values others : List Json}
    {field : String × Json} (hvalues : List.Forall₂ R values others) (hfield : field ∈ names.zip values) :
    ∃ other, (field.1, other) ∈ names.zip others ∧ R field.2 other := by
  induction hvalues generalizing names with
  | nil => simp at hfield
  | @cons value other values others hvalue _ ih =>
    cases names with
    | nil => simp at hfield
    | cons name names =>
      obtain rfl | hfield := List.mem_cons.mp hfield
      · exact ⟨other, List.mem_cons_self .., hvalue⟩
      · obtain ⟨found, hfound, hsame⟩ := ih hfield
        exact ⟨found, List.mem_cons_of_mem _ hfound, hsame⟩

end Json

namespace Telemetry.Record

theorem values_alike (r other : Record) : List.Forall₂ (Alike UInt64.size) r.values other.values := by
  have hcounter : ∀ n m : UInt64, Alike UInt64.size (natural n.toNat) (natural m.toNat) :=
    fun n m => alike_natural n.toNat m.toNat_lt_size
  simp only [values, List.forall₂_cons, alike_str, hcounter, List.Forall₂.nil, and_self]

/-- Readings with a flaw are not read. -/
theorem ofJson?_of_flawed {r : Record} {flawed members : List (String × Json)}
    (hflawed : Flawed UInt64.size (names.zip r.values) flawed) (harranges : Arranges names flawed members) :
    ofJson? (object members) = none := by
  refine Option.eq_none_iff_forall_ne_some.mpr fun other hread => ?_
  obtain ⟨field, hfield, hspoilt, -⟩ := hflawed.exists_spoilt (by rw [map_fst_members]; decide)
  obtain ⟨value, hvalue, halike⟩ := exists_mem_zip (r.values_alike other) hfield
  have hsingle : single? field.1 members = some value :=
    List.forall₂_zip (fields?_eq_some_iff.mp (ofJson?_eq_some_iff.mp hread)) hvalue
  rw [harranges.single?_eq (List.of_mem_zip hfield).1] at hsingle
  obtain ⟨⟨n, hn⟩, hnot⟩ := hspoilt value hsingle
  obtain ⟨m, hm, hnatural⟩ := halike n hn
  exact hnot m hm hnatural

end Telemetry.Record

namespace Event

variable {event : Event} {data members : List (String × Json)}

/-- Two events of one tag have numbers in the same places. -/
theorem values_alike {event other : Event} (htag : event.tag = other.tag)
    (data : List (String × Json)) (part : Json) :
    event.fieldNames = other.fieldNames ∧
      List.Forall₂ (Alike UInt32.size) (event.values (event.inner data)) (other.values part) := by
  have hport : ∀ n m : UInt32, Alike UInt32.size (natural n.toNat) (natural m.toNat) :=
    fun n m => alike_natural n.toNat m.toNat_lt_size
  have hobject : Alike UInt32.size (object data) part := fun _ hn => nomatch hn
  cases event with
  | log line color =>
    cases other with
    | log =>
      simp only [fieldNames, values, inner, List.forall₂_cons, alike_str, hport, List.Forall₂.nil,
        and_self]
    | raw | telemetry => exact absurd htag (by simp [tag])
  | raw s =>
    cases other with
    | raw => simp only [fieldNames, values, List.forall₂_cons, alike_str, List.Forall₂.nil, and_self]
    | log | telemetry => exact absurd htag (by simp [tag])
  | telemetry port record =>
    cases other with
    | telemetry =>
      simp only [fieldNames, values, inner, List.forall₂_cons, hport, hobject, List.Forall₂.nil,
        and_self]
    | log | raw => exact absurd htag (by simp [tag])

/-- An event with a flaw among its own members is not read. -/
theorem ofJson?_of_flawed {flawed : List (String × Json)}
    (hflawed : Flawed UInt32.size (event.members data) flawed)
    (harranges : Arranges event.names flawed members) : ofJson? (object members) = none := by
  refine Option.eq_none_iff_forall_ne_some.mpr fun other hread => ?_
  obtain ⟨content, part, htagged, hfields, -⟩ := ofJson?_eq_some_iff.mp hread
  obtain ⟨htag, rfl⟩ := tagged?_eq_some_iff.mp htagged
  have htype : "type" ∈ event.names := List.mem_cons_self ..
  rw [harranges.single?_eq htype] at htag
  obtain ⟨field, hfield, hspoilt, hothers⟩ :=
    hflawed.exists_spoilt (by rw [map_fst_members]; exact event.nodup_names)
  obtain rfl | hfield := List.mem_cons.mp hfield
  · obtain ⟨⟨_, hn⟩, -⟩ := hspoilt _ htag
    cases hn
  · have hname : field.1 ∈ event.fieldNames := (List.of_mem_zip hfield).1
    have hne : "type" ≠ field.1 := fun heq => (List.nodup_cons.mp event.nodup_names).1 (heq ▸ hname)
    -- The tag is sound, so that another event has its numbers in the same places.
    rw [hothers ("type", str event.tag) (List.mem_cons_self ..) hne] at htag
    have htags : event.tag = other.tag := str.inj (Option.some.inj htag)
    obtain ⟨hnames, halike⟩ := values_alike htags data part
    obtain ⟨value, hvalue, hsame⟩ := exists_mem_zip halike hfield
    rw [hnames] at hvalue
    have hsingle : single? field.1 (members.filter (·.1 != "type")) = some value :=
      List.forall₂_zip (fields?_eq_some_iff.mp hfields) hvalue
    rw [single?_filter_ne hne.symm, harranges.single?_eq (List.mem_cons_of_mem _ hname)] at hsingle
    obtain ⟨⟨n, hn⟩, hnot⟩ := hspoilt value hsingle
    obtain ⟨m, hm, hnatural⟩ := hsame n hn
    exact hnot m hm hnatural

/-- An event with a flaw among the members of its readings is not read. -/
theorem ofJson?_of_flawed_data {flawed : List (String × Json)}
    (hflawed : Flawed UInt64.size event.dataMembers flawed)
    (hdata : Arranges Telemetry.Record.names flawed data)
    (harranges : Arranges event.names (event.members data) members) : ofJson? (object members) = none := by
  refine Option.eq_none_iff_forall_ne_some.mpr fun other hread => ?_
  obtain ⟨content, part, htagged, hfields, hpart⟩ := ofJson?_eq_some_iff.mp hread
  obtain ⟨htag, rfl⟩ := tagged?_eq_some_iff.mp htagged
  have hsingle : ∀ field ∈ event.members data, single? field.1 members = some field.2 :=
    fun _ hfield => harranges.single?_eq_some (event.map_fst_members data) event.nodup_names hfield
  rw [hsingle ("type", str event.tag) (List.mem_cons_self ..)] at htag
  have htags : event.tag = other.tag := str.inj (Option.some.inj htag)
  cases event with
  | log | raw => exact absurd rfl hflawed.ne_nil
  | telemetry port record =>
    cases other with
    | log | raw => exact absurd htags (by simp [tag])
    | telemetry port' record' =>
      have hlast : ("data", part) ∈ ["portNum", "data"].zip [natural port'.toNat, part] := by simp
      have hfound : single? "data" (members.filter (·.1 != "type")) = some part :=
        List.forall₂_zip (fields?_eq_some_iff.mp hfields) hlast
      have hgiven : ("data", object data) ∈ (telemetry port record).members data := by
        simp [Event.members, fieldNames, values, inner]
      rw [single?_filter_ne (by decide), hsingle _ hgiven] at hfound
      cases hfound
      have hnone := Telemetry.Record.ofJson?_of_flawed hflawed hdata
      rw [Agrees, hnone] at hpart
      cases hpart

/-- Reading an event depends neither on the order of its members, its tag included, nor on
    that of its readings' members, nor on white space, nor on strings of other names. If a
    member is missing or its name is given once more, or if a port or a counter is too large
    or no natural number at all, nothing is read. -/
theorem ofWire?_of_arranges (event : Event) :
    event.toJson = object (event.members event.dataMembers) ∧
    (∀ {data members text}, Arranges Telemetry.Record.names event.dataMembers data →
      Arranges event.names (event.members data) members →
      Spells maxDepth (.item (object members)) text.toList → ofWire? text = some event) ∧
    (∀ {data flawed members text}, Flawed UInt32.size (event.members data) flawed →
      Arranges event.names flawed members →
      Spells maxDepth (.item (object members)) text.toList → ofWire? text = none) ∧
    (∀ {flawed data members text}, Flawed UInt64.size event.dataMembers flawed →
      Arranges Telemetry.Record.names flawed data → Arranges event.names (event.members data) members →
      Spells maxDepth (.item (object members)) text.toList → ofWire? text = none) := by
  have hnone : ∀ {members : List (String × Json)} {text : String},
      Spells maxDepth (.item (object members)) text.toList → ofJson? (object members) = none →
      ofWire? text = none := by
    intro members text hspells hread
    rw [ofWire?, read?_of_spells hspells]
    split
    · exact hread
    · rfl
  refine ⟨event.toJson_eq, ?_, ?_, ?_⟩
  · intro data members text hdata harranges hspells
    rw [ofWire?, read?_of_spells hspells, (plain_of_arranges hdata harranges).inRange, if_pos rfl,
      Option.bind_some, ofJson?_of_arranges hdata harranges]
  · intro data flawed members text hflawed harranges hspells
    exact hnone hspells (ofJson?_of_flawed hflawed harranges)
  · intro flawed data members text hflawed hdata harranges hspells
    exact hnone hspells (ofJson?_of_flawed_data hflawed hdata harranges)

/-- All members stand back to front. Then the port is too large by one, and then a string of
    the readings is given once more. -/
theorem telemetry_back_to_front :
    let event : Event := .telemetry 2 {}
    let text (members : List (String × Json)) := " " ++ (object members).compact ++ "\n"
    ofWire? (text (event.members event.dataMembers.reverse ++ [("note", str "x")]).reverse) = some event ∧
      ofWire? (text [("type", str "tnc_data"), ("portNum", natural 4294967296),
        ("data", object event.dataMembers)]) = none ∧
      ofWire? (text (event.members (("uptime", str "0s") :: event.dataMembers))) = none := by
  intro event text
  have hspells : ∀ members, Plain maxDepth (object members) →
      Spells maxDepth (.item (object members)) (text members).toList := by
    intro members hplain
    have hspace : Blank [' '] := by simp [Blank, isSpace]
    have hnewline : Blank ['\n'] := by simp [Blank, isSpace]
    have hitem := Spells.item hspace hplain.spells_write hnewline
    simpa [text, compact] using hitem
  have hrecord : Plain 126 (object event.dataMembers) := .object event.plain_dataMembers
  obtain ⟨-, hread, hflaw, hdata⟩ := ofWire?_of_arranges event
  refine ⟨?_, ?_, ?_⟩
  · have hinner : Arranges Telemetry.Record.names event.dataMembers event.dataMembers.reverse :=
      ⟨[], List.forall_mem_nil _, by simp⟩
    have hothers : Arranges event.names (event.members event.dataMembers.reverse)
        (event.members event.dataMembers.reverse ++ [("note", str "x")]).reverse :=
      ⟨[("note", "x")], by decide, List.reverse_perm _⟩
    exact hread hinner hothers (hspells _ (plain_of_arranges hinner hothers))
  · have hlarge : Flawed UInt32.size (event.members event.dataMembers) [("type", str "tnc_data"),
        ("portNum", natural 4294967296), ("data", object event.dataMembers)] := by
      refine .outOfRange [("type", str "tnc_data")] "portNum" 2 [("data", object event.dataMembers)] ?_
      rintro m hm ⟨⟩
      exact absurd hm (Nat.lt_irrefl _)
    refine hflaw hlarge (.refl ..) (hspells _ (.object ?_))
    simp only [List.forall_mem_cons]
    exact ⟨.str 126 _, .natural 126 (by decide), hrecord, List.forall_mem_nil _⟩
  · have huptime : ("uptime", str "") ∈ event.dataMembers := List.mem_of_getElem? (i := 3) rfl
    have htwice : Flawed UInt64.size event.dataMembers (("uptime", str "0s") :: event.dataMembers) :=
      .repeated huptime (str "0s")
    have hplain := event.plain_members
      (List.forall_mem_cons.mpr ⟨.str 125 "0s", event.plain_dataMembers⟩ :
        ∀ member ∈ ("uptime", str "0s") :: event.dataMembers, Plain 125 member.2)
    exact hdata htwice (.refl ..) (.refl ..) (hspells _ (.object hplain))

end Event

end PacketMonitor
