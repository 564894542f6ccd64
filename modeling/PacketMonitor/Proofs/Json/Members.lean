import Mathlib.Data.List.Forall2
import Mathlib.Data.List.Nodup
import PacketMonitor.Json.Value

namespace PacketMonitor.Json

variable {name : String} {members : List (String × Json)}

theorem filter_eq_nil_of_not_mem (hname : name ∉ members.map (·.1)) :
    members.filter (·.1 == name) = [] := by
  refine List.filter_eq_nil_iff.mpr fun member hmember heq => hname ?_
  exact List.mem_map.mpr ⟨member, hmember, eq_of_beq heq⟩

theorem single?_eq_none_of_not_mem (hname : name ∉ members.map (·.1)) : single? name members = none := by
  rw [single?, filter_eq_nil_of_not_mem hname]

theorem single?_eq_some_of_mem {value : Json} (hnodup : (members.map (·.1)).Nodup)
    (hmem : (name, value) ∈ members) : single? name members = some value := by
  suffices hfilter : members.filter (·.1 == name) = [(name, value)] by rw [single?, hfilter]
  induction members with
  | nil => cases hmem
  | cons member members ih =>
    obtain ⟨hother, hnodup⟩ := List.nodup_cons.mp hnodup
    obtain rfl | hmem := List.mem_cons.mp hmem
    · rw [List.filter_cons_of_pos (by simp), filter_eq_nil_of_not_mem hother]
    · have hne : member.1 ≠ name := by
        rintro rfl
        exact hother (List.mem_map_of_mem (f := (·.1)) hmem)
      rw [List.filter_cons_of_neg (by simpa using hne), ih hnodup hmem]

/-- A name that occurs twice has no value. -/
theorem single?_cons_of_mem (value : Json) (hname : name ∈ members.map (·.1)) :
    single? name ((name, value) :: members) = none := by
  obtain ⟨member, hmember, rfl⟩ := List.mem_map.mp hname
  have hfilter : member ∈ members.filter (·.1 == member.1) :=
    List.mem_filter.mpr ⟨hmember, beq_self_eq_true _⟩
  obtain ⟨first, rest, hcons⟩ := List.exists_cons_of_ne_nil (List.ne_nil_of_mem hfilter)
  rw [single?, List.filter_cons_of_pos (by simp), hcons]

theorem single?_cons_of_ne {member : String × Json} (hne : member.1 ≠ name) :
    single? name (member :: members) = single? name members := by
  rw [single?, single?, List.filter_cons_of_neg (by simpa using hne)]

/-- The order of the members does not matter. -/
theorem single?_perm {others : List (String × Json)} (hperm : members.Perm others) :
    single? name members = single? name others := by
  have hfilter := hperm.filter (·.1 == name)
  rw [single?, single?]
  generalize members.filter (·.1 == name) = found at hfilter ⊢
  generalize others.filter (·.1 == name) = found' at hfilter ⊢
  have hlength := hfilter.length_eq
  match found, found' with
  | [], [] => rfl
  | [_], [_] => rw [List.singleton_perm_singleton.mp hfilter]
  | _ :: _ :: _, _ :: _ :: _ => rfl
  | [], _ :: _ | _ :: _, [] | [_], _ :: _ :: _ | _ :: _ :: _, [_] => simp at hlength

theorem single?_filter_ne {other : String} (hne : name ≠ other) :
    single? name (members.filter (·.1 != other)) = single? name members := by
  have hfilter : (members.filter (·.1 != other)).filter (·.1 == name) =
      members.filter (·.1 == name) := by
    rw [List.filter_filter]
    refine List.filter_congr fun member _ => ?_
    by_cases heq : member.1 = name
    · simp [heq, hne]
    · simp [heq]
  rw [single?, single?, hfilter]

/-- An object gives the values of a record if each name has one. -/
theorem fields?_eq_some_iff {names : List String} {values : List Json} :
    (object members).fields? names = some values ↔
      List.Forall₂ (fun name value => single? name members = some value) names values := by
  rw [fields?]
  induction names generalizing values with
  | nil => simp [eq_comm]
  | cons name names ih =>
    simp only [List.mapM_cons, Option.bind_eq_bind, Option.bind_eq_some_iff, ih, List.forall₂_cons_left_iff]
    constructor
    · rintro ⟨value, hvalue, others, hothers, heq⟩
      exact ⟨value, others, hvalue, hothers, (Option.some.inj heq).symm⟩
    · rintro ⟨value, others, hvalue, hothers, rfl⟩
      exact ⟨value, hvalue, others, hothers, rfl⟩

theorem fields?_of_forall {names : List String} {values : List Json}
    (hlength : names.length = values.length)
    (hfields : ∀ field ∈ names.zip values, single? field.1 members = some field.2) :
    (object members).fields? names = some values :=
  fields?_eq_some_iff.mpr (List.forall₂_iff_zip.mpr ⟨hlength, fun {_ _} => hfields _⟩)

theorem tagged?_eq_some_iff {tag : String} {content : Json} :
    (object members).tagged? name = some (tag, content) ↔
      single? name members = some (str tag) ∧ object (members.filter (·.1 != name)) = content := by
  rw [tagged?]
  split
  · rename_i hsingle
    simp [hsingle]
  · rename_i hother
    exact ⟨(nomatch ·), fun htag => absurd htag.1 (hother tag)⟩

/-- The members of an object in any order, among others with strings of which none has the
    name of a field. -/
def Arranges (names : List String) (known members : List (String × Json)) : Prop :=
  ∃ extras : List (String × String), (∀ extra ∈ extras, extra.1 ∉ names) ∧
    members.Perm (known ++ extras.map fun extra => (extra.1, str extra.2))

/-- What others stand among the members and how all are ordered does not matter. -/
theorem Arranges.single?_eq {names : List String} {known : List (String × Json)}
    (harranges : Arranges names known members) (hname : name ∈ names) :
    single? name members = single? name known := by
  obtain ⟨extras, hextras, hperm⟩ := harranges
  have hothers : name ∉ (extras.map fun extra => (extra.1, str extra.2)).map (·.1) := by
    simp only [List.map_map, List.mem_map, Function.comp_apply, not_exists, not_and]
    rintro extra hextra rfl
    exact hextras extra hextra hname
  rw [single?_perm hperm, single?, single?, List.filter_append, filter_eq_nil_of_not_mem hothers,
    List.append_nil]

theorem Arranges.refl (names : List String) (known : List (String × Json)) : Arranges names known known :=
  ⟨[], List.forall_mem_nil _, by rw [List.map_nil, List.append_nil]⟩

theorem Arranges.single?_eq_some {names : List String} {known : List (String × Json)}
    (harranges : Arranges names known members) (hnames : known.map (·.1) = names)
    (hnodup : names.Nodup) {field : String × Json} (hfield : field ∈ known) :
    single? field.1 members = some field.2 := by
  subst hnames
  rw [harranges.single?_eq (List.mem_map_of_mem (f := (·.1)) hfield),
    single?_eq_some_of_mem hnodup hfield]

/-- The members of an object with one flaw: a member is missing, the name of a member is
    given once more, or a number is replaced by something else than a natural number below
    the limit. -/
inductive Flawed (limit : Nat) : List (String × Json) → List (String × Json) → Prop where
  | missing (front : List (String × Json)) (member : String × Json) (back : List (String × Json)) :
    Flawed limit (front ++ member :: back) (front ++ back)
  | repeated {members : List (String × Json)} {member : String × Json} (hmember : member ∈ members)
    (value : Json) : Flawed limit members ((member.1, value) :: members)
  | outOfRange (front : List (String × Json)) (name : String) (n : Nat) {value : Json}
    (back : List (String × Json)) (hvalue : ∀ m < limit, value ≠ natural m) :
    Flawed limit (front ++ (name, natural n) :: back) (front ++ (name, value) :: back)

theorem Flawed.ne_nil {limit : Nat} {known flawed : List (String × Json)}
    (hflawed : Flawed limit known flawed) : known ≠ [] := by
  cases hflawed with
  | missing | outOfRange => simp
  | repeated hmember => exact List.ne_nil_of_mem hmember

theorem nodup_middle {front back : List (String × Json)} {member : String × Json}
    (hnodup : ((front ++ member :: back).map (·.1)).Nodup) :
    member.1 ∉ (front ++ back).map (·.1) ∧ ((front ++ back).map (·.1)).Nodup := by
  rw [List.map_append, List.map_cons] at hnodup
  rw [List.map_append]
  exact List.nodup_cons.mp (List.nodup_middle.mp hnodup)

theorem mem_of_mem_middle {front back : List (String × Json)} {member other : String × Json}
    (hmem : other ∈ front ++ member :: back) (hne : other.1 ≠ member.1) : other ∈ front ++ back := by
  have hcons : other ∈ member :: (front ++ back) := List.perm_middle.mem_iff.mp hmem
  exact (List.mem_cons.mp hcons).resolve_left fun heq => hne (congrArg Prod.fst heq)

/-- A flaw spoils one member. If that has a value at all, it was a number and the value is
    not one within the limit. All other members have their values. -/
theorem Flawed.exists_spoilt {limit : Nat} {known flawed : List (String × Json)}
    (hflawed : Flawed limit known flawed) (hnodup : (known.map (·.1)).Nodup) :
    ∃ field ∈ known,
      (∀ value, single? field.1 flawed = some value →
        (∃ n, field.2 = natural n) ∧ ∀ m < limit, value ≠ natural m) ∧
      ∀ other ∈ known, other.1 ≠ field.1 → single? other.1 flawed = some other.2 := by
  cases hflawed with
  | missing front member back =>
    obtain ⟨hmember, hnodup⟩ := nodup_middle hnodup
    refine ⟨member, by simp, fun value hvalue => ?_, fun other hother hne => ?_⟩
    · rw [single?_eq_none_of_not_mem hmember] at hvalue
      cases hvalue
    · exact single?_eq_some_of_mem hnodup (mem_of_mem_middle hother hne)
  | @repeated _ member hmember value =>
    refine ⟨member, hmember, fun value hvalue => ?_, fun other hother hne => ?_⟩
    · rw [single?_cons_of_mem _ (List.mem_map_of_mem hmember)] at hvalue
      cases hvalue
    · have hnext : single? other.1 ((member.1, value) :: known) = single? other.1 known :=
        single?_cons_of_ne hne.symm
      rw [hnext, single?_eq_some_of_mem hnodup hother]
  | @outOfRange front name n value back hvalue =>
    have hnodup' : ((front ++ (name, value) :: back).map (·.1)).Nodup := by
      rw [List.map_append, List.map_cons] at hnodup ⊢
      exact hnodup
    refine ⟨(name, natural n), by simp, fun value' hvalue' => ?_, fun other hother hne => ?_⟩
    · have hsingle := single?_eq_some_of_mem hnodup' (List.mem_append_right front (List.mem_cons_self ..))
      rw [hsingle] at hvalue'
      cases hvalue'
      exact ⟨⟨n, rfl⟩, hvalue⟩
    · have hrest := List.mem_cons_of_mem (name, value) (mem_of_mem_middle hother hne)
      exact single?_eq_some_of_mem hnodup' (List.perm_middle.mem_iff.mpr hrest)

end PacketMonitor.Json
