import PacketMonitor.Telemetry.Record

namespace PacketMonitor.Telemetry

theorem Field.ofNumber?_eq_some_iff {f : Field} {n : Nat} :
    Field.ofNumber? n = some f ↔ f.number = n := by
  constructor
  · intro hfound
    have hmatches := @List.find?_some _ (fun g : Field => g.number == n) f Field.all hfound
    exact beq_iff_eq.mp hmatches
  · rintro rfl
    exact f.ofNumber?_number

/-- A value of the kind that a field holds. -/
def Value.Fits : Value → Field → Prop
  | .text _, f => f.isText = true
  | .counter _, f => f.isText = false

namespace Record

theorem get_set_self {f : Field} {v : Value} (hfits : v.Fits f) (r : Record) :
    (r.set f v).get f = v := by
  cases v with
  | text t => cases f <;> first | rfl | cases hfits
  | counter n => cases f <;> first | rfl | cases hfits

theorem get_set_of_ne {f g : Field} (hother : g ≠ f) (r : Record) (v : Value) :
    (r.set f v).get g = r.get g := by
  cases v with
  | text t => cases f <;> first | rfl | (cases g <;> first | rfl | exact absurd rfl hother)
  | counter n => cases f <;> first | rfl | (cases g <;> first | rfl | exact absurd rfl hother)

/-- A record is given by its fields and the three durations. -/
theorem ext_get {r other : Record} (hfields : ∀ f, r.get f = other.get f)
    (huptime : r.uptime = other.uptime) (hpttOnTime : r.pttOnTime = other.pttOnTime)
    (hdcdOnTime : r.dcdOnTime = other.dcdOnTime) : r = other := by
  cases r
  cases other
  have hfield : ∀ f ∈ Field.all, _ := fun f _ => hfields f
  simp only [Field.all, List.forall_mem_cons, get, Value.text.injEq, Value.counter.injEq] at hfield
  simp_all

@[simp] theorem get_withDurations (r : Record) (f : Field) : r.withDurations.get f = r.get f := by
  cases f <;> rfl

theorem get_empty (f : Field) :
    ({} : Record).get f = if f.isText then .text "" else .counter 0 := by
  cases f <;> rfl

theorem withDurations_eq {r other : Record} (hfields : ∀ f, r.get f = other.get f)
    (huptime : other.uptime = elapsedText other.uptimeMillis)
    (hpttOnTime : other.pttOnTime = elapsedText other.pttOnTimeMillis)
    (hdcdOnTime : other.dcdOnTime = elapsedText other.dcdOnTimeMillis) :
    r.withDurations = other := by
  have huptimeMillis : r.uptimeMillis = other.uptimeMillis :=
    Value.counter.inj (hfields .uptimeMillis)
  have hpttOnTimeMillis : r.pttOnTimeMillis = other.pttOnTimeMillis :=
    Value.counter.inj (hfields .pttOnTimeMillis)
  have hdcdOnTimeMillis : r.dcdOnTimeMillis = other.dcdOnTimeMillis :=
    Value.counter.inj (hfields .dcdOnTimeMillis)
  refine ext_get (fun f => (get_withDurations r f).trans (hfields f)) ?_ ?_ ?_
  · rw [huptime, ← huptimeMillis]
    rfl
  · rw [hpttOnTime, ← hpttOnTimeMillis]
    rfl
  · rw [hdcdOnTime, ← hdcdOnTimeMillis]
    rfl

end Record

end PacketMonitor.Telemetry
