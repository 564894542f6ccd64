import PacketMonitor.Event.Wire
import PacketMonitor.Proofs.Json.Layout
import PacketMonitor.Proofs.Json.Members

namespace PacketMonitor

namespace Json

theorem plain_of_mem_zip {depth : Nat} {names : List String} {values : List Json}
    (hvalues : ∀ value ∈ values, Plain depth value) :
    ∀ member ∈ names.zip values, Plain depth member.2 :=
  fun _ hmember => hvalues _ (List.of_mem_zip hmember).2

theorem Arranges.plain {depth : Nat} {names : List String} {known members : List (String × Json)}
    (harranges : Arranges names known members) (hknown : ∀ member ∈ known, Plain depth member.2) :
    ∀ member ∈ members, Plain depth member.2 := by
  obtain ⟨extras, -, hperm⟩ := harranges
  intro member hmember
  obtain hmember | hextra := List.mem_append.mp (hperm.mem_iff.mp hmember)
  · exact hknown member hmember
  · obtain ⟨extra, -, rfl⟩ := List.mem_map.mp hextra
    exact .str depth extra.2

theorem str?_eq_some_iff {json : Json} {s : String} : json.str? = some s ↔ json = str s := by
  cases json <;> simp [str?]

theorem exists_of_bind_str? {α : Type} {json : Json} {next : String → Option α} {result : α}
    (hread : json.str?.bind next = some result) : ∃ s, json = str s ∧ next s = some result := by
  obtain ⟨s, hs, hnext⟩ := Option.bind_eq_some_iff.mp hread
  exact ⟨s, str?_eq_some_iff.mp hs, hnext⟩

theorem naturalBelow?_eq_some_iff {limit n : Nat} {json : Json} :
    json.naturalBelow? limit = some n ↔ json = natural n ∧ n < limit := by
  cases json with
  | natural m =>
    rw [naturalBelow?]
    split
    · rename_i hm
      simp only [Option.some.injEq, natural.injEq]
      exact ⟨fun heq => ⟨heq, heq ▸ hm⟩, And.left⟩
    · rename_i hm
      simp only [natural.injEq, reduceCtorEq, false_iff, not_and]
      exact fun heq => heq ▸ hm
  | _ => simp [naturalBelow?]

end Json

open Json

theorem counter?_eq_some_iff {json : Json} {n : UInt64} :
    counter? json = some n ↔ json = natural n.toNat := by
  rw [counter?, Option.map_eq_some_iff]
  constructor
  · rintro ⟨m, hm, rfl⟩
    obtain ⟨rfl, hlt⟩ := naturalBelow?_eq_some_iff.mp hm
    rw [UInt64.toNat_ofNat_of_lt' hlt]
  · rintro rfl
    exact ⟨n.toNat, naturalBelow?_eq_some_iff.mpr ⟨rfl, n.toNat_lt_size⟩, UInt64.ofNat_toNat⟩

theorem exists_of_bind_counter? {α : Type} {json : Json} {next : UInt64 → Option α} {result : α}
    (hread : (counter? json).bind next = some result) :
    ∃ n : UInt64, json = natural n.toNat ∧ next n = some result := by
  obtain ⟨n, hn, hnext⟩ := Option.bind_eq_some_iff.mp hread
  exact ⟨n, counter?_eq_some_iff.mp hn, hnext⟩

theorem port?_eq_some_iff {json : Json} {n : UInt32} :
    port? json = some n ↔ json = natural n.toNat := by
  rw [port?, Option.map_eq_some_iff]
  constructor
  · rintro ⟨m, hm, rfl⟩
    obtain ⟨rfl, hlt⟩ := naturalBelow?_eq_some_iff.mp hm
    rw [UInt32.toNat_ofNat_of_lt' hlt]
  · rintro rfl
    exact ⟨n.toNat, naturalBelow?_eq_some_iff.mpr ⟨rfl, n.toNat_lt_size⟩, UInt32.ofNat_toNat⟩

theorem counter?_natural (n : UInt64) : counter? (natural n.toNat) = some n :=
  counter?_eq_some_iff.mpr rfl

theorem port?_natural (n : UInt32) : port? (natural n.toNat) = some n :=
  port?_eq_some_iff.mpr rfl

theorem Direction.ofJson?_letter (direction : Direction) :
    Direction.ofJson? (str (String.singleton direction.letter)) = some direction := by
  cases direction with
  | received => rfl
  | transmitted => rfl

namespace Telemetry.Record

/-- A record is read from a document exactly if this gives the record's values. -/
theorem ofJson?_eq_some_iff {json : Json} {r : Record} :
    ofJson? json = some r ↔ json.fields? names = some r.values := by
  constructor
  · intro hread
    rw [ofJson?] at hread
    split at hread
    · rename_i hfields
      -- One member after the other is read, each of them a text or a counter.
      repeat
        first
        | replace hread := exists_of_bind_str? hread
        | replace hread := exists_of_bind_counter? hread
        obtain ⟨_, rfl, hread⟩ := hread
      rw [hfields, ← Option.some.inj hread]
      rfl
    · cases hread
  · intro hfields
    rw [ofJson?, hfields]
    simp only [values, str?, counter?_natural, Option.bind_eq_bind, Option.bind_some]
    rfl

theorem map_fst_members (r : Record) : (names.zip r.values).map (·.1) = names :=
  rfl

theorem ofJson?_of_arranges {r : Record} {members : List (String × Json)}
    (harranges : Arranges names (names.zip r.values) members) : ofJson? (object members) = some r := by
  have hnodup : names.Nodup := by decide
  refine ofJson?_eq_some_iff.mpr (fields?_of_forall rfl fun field hfield => ?_)
  exact harranges.single?_eq_some r.map_fst_members hnodup hfield

theorem plain_members (r : Record) (depth : Nat) : ∀ member ∈ names.zip r.values, Plain depth member.2 := by
  have hcounter : ∀ n : UInt64, Plain depth (.natural n.toNat) := fun n =>
    .natural depth n.toNat_lt_size
  have htext : ∀ s, Plain depth (.str s) := .str depth
  refine plain_of_mem_zip ?_
  simp only [values, List.mem_cons, List.not_mem_nil, or_false, forall_eq_or_imp, forall_eq, hcounter,
    htext, and_self]

end Telemetry.Record

namespace Event

/-- The tag of an event. -/
def tag : Event → String
  | .log .. => "log"
  | .raw _ => "raw"
  | .telemetry .. => "tnc_data"

/-- The names of an event's members besides the tag. -/
def fieldNames : Event → List String
  | .log .. => logNames
  | .raw _ => ["raw"]
  | .telemetry .. => ["portNum", "data"]

/-- The values of an event's members besides the tag, where one document is given for what
    has documents of several forms: the direction of a packet or the readings of a beacon. -/
def values (inner : Json) : Event → List Json
  | .log line color =>
    [str line.timestamp, inner, str line.route, natural line.port.toNat, str line.message, str color]
  | .raw s => [str s]
  | .telemetry port _ => [natural port.toNat, inner]

/-- Whether a document is one for the direction or the readings. -/
def Agrees (inner : Json) : Event → Prop
  | .log line _ => Direction.ofJson? inner = some line.direction
  | .raw _ => True
  | .telemetry _ record => Telemetry.Record.ofJson? inner = some record

/-- An event is read from a document exactly if this has its tag and gives its values. -/
theorem ofJson?_eq_some_iff {json : Json} {event : Event} :
    ofJson? json = some event ↔ ∃ content inner, json.tagged? "type" = some (event.tag, content) ∧
      content.fields? event.fieldNames = some (event.values inner) ∧ event.Agrees inner := by
  constructor
  · intro hread
    rw [ofJson?] at hread
    split at hread
    · rename_i content htag
      split at hread
      · rename_i hfields
        simp only [Option.bind_eq_bind, Option.bind_eq_some_iff, str?_eq_some_iff,
          port?_eq_some_iff] at hread
        obtain ⟨_, rfl, _, hdirection, _, rfl, _, rfl, _, rfl, _, rfl, heq⟩ := hread
        cases heq
        exact ⟨content, _, htag, hfields, hdirection⟩
      · cases hread
    · rename_i content htag
      split at hread
      · rename_i hfields
        simp only [Option.map_eq_some_iff, str?_eq_some_iff] at hread
        obtain ⟨_, rfl, rfl⟩ := hread
        exact ⟨content, null, htag, hfields, trivial⟩
      · cases hread
    · rename_i content htag
      split at hread
      · rename_i hfields
        simp only [Option.bind_eq_bind, Option.bind_eq_some_iff, port?_eq_some_iff] at hread
        obtain ⟨_, rfl, _, hrecord, heq⟩ := hread
        cases heq
        exact ⟨content, _, htag, hfields, hrecord⟩
      · cases hread
    · cases hread
  · rintro ⟨content, inner, htag, hfields, hinner⟩
    rw [ofJson?, htag]
    cases event with
    | log line color =>
      have hdirection : Direction.ofJson? inner = some line.direction := hinner
      have hlog : content.fields? logNames = some (values inner (.log line color)) := hfields
      simp only [tag, hlog]
      simp only [values, str?, hdirection, port?_natural, Option.bind_eq_bind, Option.bind_some]
      rfl
    | raw s =>
      have hraw : content.fields? ["raw"] = some (values inner (.raw s)) := hfields
      simp only [tag, hraw]
      rfl
    | telemetry port record =>
      have hrecord : Telemetry.Record.ofJson? inner = some record := hinner
      have htelemetry : content.fields? ["portNum", "data"] =
          some (values inner (.telemetry port record)) := hfields
      simp only [tag, htelemetry]
      simp only [values, hrecord, port?_natural, Option.bind_eq_bind, Option.bind_some]
      rfl

/-- The names of an event's members. -/
def names (event : Event) : List String :=
  "type" :: event.fieldNames

/-- The members of the readings of a beacon. -/
def dataMembers : Event → List (String × Json)
  | .telemetry _ record => Telemetry.Record.names.zip record.values
  | _ => []

/-- The document of a direction or, with its members, of the readings. -/
def inner (data : List (String × Json)) : Event → Json
  | .log line _ => str (String.singleton line.direction.letter)
  | .raw _ => null
  | .telemetry .. => object data

/-- The members of an event, the tag first. If it holds readings, these have the members
    that are given. -/
def members (event : Event) (data : List (String × Json)) : List (String × Json) :=
  ("type", str event.tag) :: event.fieldNames.zip (event.values (event.inner data))

theorem toJson_eq (event : Event) : event.toJson = object (event.members event.dataMembers) := by
  cases event <;> rfl

theorem map_fst_members (event : Event) (data : List (String × Json)) :
    (event.members data).map (·.1) = event.names := by
  cases event <;> rfl

theorem nodup_names (event : Event) : event.names.Nodup := by
  cases event with
  | log | raw | telemetry => exact of_decide_eq_true rfl

theorem agrees_inner {event : Event} {data : List (String × Json)}
    (hdata : Arranges Telemetry.Record.names event.dataMembers data) : event.Agrees (event.inner data) := by
  cases event with
  | log line color => exact Direction.ofJson?_letter line.direction
  | raw s => exact trivial
  | telemetry port record => exact Telemetry.Record.ofJson?_of_arranges hdata

/-- The order of the members does not matter, neither that of the event's own nor that of
    its readings, nor do strings of other names. -/
theorem ofJson?_of_arranges {event : Event} {data members : List (String × Json)}
    (hdata : Arranges Telemetry.Record.names event.dataMembers data)
    (harranges : Arranges event.names (event.members data) members) :
    ofJson? (object members) = some event := by
  have hsingle : ∀ field ∈ event.members data, single? field.1 members = some field.2 :=
    fun _ hfield => harranges.single?_eq_some (event.map_fst_members data) event.nodup_names hfield
  refine ofJson?_eq_some_iff.mpr ⟨_, event.inner data, tagged?_eq_some_iff.mpr ⟨?_, rfl⟩,
    fields?_of_forall ?_ fun field hfield => ?_, agrees_inner hdata⟩
  · exact hsingle ("type", str event.tag) (List.mem_cons_self ..)
  · cases event <;> rfl
  · have htype : "type" ∉ event.fieldNames := (List.nodup_cons.mp event.nodup_names).1
    have hne : field.1 ≠ "type" := fun heq => htype (heq ▸ (List.of_mem_zip hfield).1)
    rw [single?_filter_ne hne]
    exact hsingle field (List.mem_cons_of_mem _ hfield)

theorem ofJson?_toJson (event : Event) : ofJson? event.toJson = some event := by
  rw [toJson_eq]
  exact ofJson?_of_arranges (.refl ..) (.refl ..)

theorem plain_members (event : Event) {data : List (String × Json)}
    (hdata : ∀ member ∈ data, Plain 125 member.2) : ∀ member ∈ event.members data, Plain 126 member.2 := by
  have hport : ∀ n : UInt32, Plain 126 (.natural n.toNat) :=
    fun n => .natural 126 (Nat.lt_trans n.toNat_lt_size (by decide))
  have htext : ∀ s, Plain 126 (.str s) := .str 126
  have hobject : Plain 126 (object data) := .object hdata
  refine List.forall_mem_cons.mpr ⟨.str 126 event.tag, plain_of_mem_zip ?_⟩
  cases event with
  | log | raw | telemetry =>
    simp only [values, inner, List.mem_cons, List.not_mem_nil, or_false, forall_eq_or_imp, forall_eq,
      hport, htext, hobject, and_self]

theorem plain_dataMembers (event : Event) : ∀ member ∈ event.dataMembers, Plain 125 member.2 := by
  cases event with
  | log | raw => exact List.forall_mem_nil _
  | telemetry port record => exact record.plain_members 125

theorem plain_of_arranges {event : Event} {data members : List (String × Json)}
    (hdata : Arranges Telemetry.Record.names event.dataMembers data)
    (harranges : Arranges event.names (event.members data) members) : Plain maxDepth (object members) :=
  .object (harranges.plain (event.plain_members (hdata.plain event.plain_dataMembers)))

theorem plain_toJson (event : Event) : Plain maxDepth event.toJson := by
  rw [toJson_eq]
  exact plain_of_arranges (.refl ..) (.refl ..)

theorem ofWire?_wire (event : Event) : ofWire? event.wire = some event := by
  rw [ofWire?, wire, read?_compact event.plain_toJson, Option.bind_some, ofJson?_toJson]

/-- An event is read back from its text, so that no two events have one text, and
    whatever text an event is read from, writing and reading it again changes neither the
    event nor its text any more. -/
theorem wire_round_trip :
    (∀ event : Event, ofWire? event.wire = some event) ∧ Function.Injective wire ∧
      ∀ text, ((ofWire? text).map wire).bind ofWire? = ofWire? text ∧
        (((ofWire? text).map wire).bind ofWire?).map wire = (ofWire? text).map wire := by
  have hinjective : Function.Injective wire := by
    intro a b hwire
    have hread := congrArg ofWire? hwire
    rwa [ofWire?_wire, ofWire?_wire, Option.some.injEq] at hread
  have hagain : ∀ text, ((ofWire? text).map wire).bind ofWire? = ofWire? text := by
    intro text
    cases ofWire? text with
    | none => rfl
    | some event => exact ofWire?_wire event
  exact ⟨ofWire?_wire, hinjective, fun text => ⟨hagain text, by rw [hagain]⟩⟩

end Event

end PacketMonitor
