import PacketMonitor.Stream.Reader

namespace PacketMonitor.Stream.Reader

/-- Puts earlier signals in front. -/
def Intake.after (intake : Intake) (earlier : List Signal) : Intake :=
  { intake with signals := earlier ++ intake.signals }

/-- Adds bytes that came too late to be looked at. Without a fault there are none. -/
def Intake.leaving (intake : Intake) (late : List UInt8) : Intake :=
  { intake with fault := intake.fault.map fun (fault, left) => (fault, left ++ late) }

theorem takeFrom_eq_after (told : List Signal) (r : Reader) (bytes : List UInt8) :
    takeFrom told r bytes = (r.takeAll bytes).after told.reverse := by
  induction bytes generalizing told r with
  | nil => simp [takeAll, takeFrom, Intake.after]
  | cons b rest ih =>
    simp only [takeAll, takeFrom]
    cases r.takeByte b with
    | ok taken => simp [ih, Intake.after]
    | error refused => simp [Intake.after]

@[simp] theorem takeAll_nil (r : Reader) : r.takeAll [] = ⟨r, [], none⟩ := rfl

theorem takeAll_cons_ok {r next : Reader} {b : UInt8} {signals : List Signal}
    (htake : r.takeByte b = .ok (next, signals)) (rest : List UInt8) :
    r.takeAll (b :: rest) = (next.takeAll rest).after signals := by
  rw [takeAll, takeFrom, htake]
  simp only [takeFrom_eq_after]
  simp

theorem takeAll_cons_error {r last : Reader} {b : UInt8} {fault : Fault}
    (htake : r.takeByte b = .error (last, fault)) (rest : List UInt8) :
    r.takeAll (b :: rest) = ⟨last, [], some (fault, rest)⟩ := by
  rw [takeAll, takeFrom, htake]
  rfl

@[simp] theorem Intake.after_nil (intake : Intake) : intake.after [] = intake := rfl

/-- Bytes can be taken in two parts. A fault in the first one leaves all of the
    second. -/
theorem takeAll_append (r : Reader) (early late : List UInt8) :
    r.takeAll (early ++ late) =
      match (r.takeAll early).fault with
      | none => ((r.takeAll early).reader.takeAll late).after (r.takeAll early).signals
      | some _ => (r.takeAll early).leaving late := by
  induction early generalizing r with
  | nil => simp
  | cons b rest ih =>
    cases htake : r.takeByte b with
    | error refused =>
      rw [List.cons_append, takeAll_cons_error htake, takeAll_cons_error htake]
      rfl
    | ok taken =>
      rw [List.cons_append, takeAll_cons_ok htake, takeAll_cons_ok htake, ih taken.1]
      cases hfault : (taken.1.takeAll rest).fault with
      | none => simp [Intake.after, hfault]
      | some fault => simp [Intake.after, Intake.leaving, hfault]

theorem takeAll_append_of_fault_eq_none {r : Reader} {early : List UInt8}
    (hfault : (r.takeAll early).fault = none) (late : List UInt8) :
    r.takeAll (early ++ late) =
      ((r.takeAll early).reader.takeAll late).after (r.takeAll early).signals := by
  rw [takeAll_append, hfault]

end PacketMonitor.Stream.Reader
